import ConfigIndex.Proofs.Template.Limits

/-!
Text that is written so that no interpolation opens in it: a dollar sign before a brace is doubled,
and any other character may be escaped with a backslash.
-/

namespace ConfigIndex.Template

def concealed (escape : Char → List Char) : List Char → List Char
  | '$' :: '{' :: rest => '$' :: '$' :: '{' :: concealed escape rest
  | c :: rest => escape c ++ concealed escape rest
  | [] => []

/-- Characters stand as they are or behind a backslash, perhaps as another character of the same
line; dollar signs do not come about this way. -/
def Escapes (escape : Char → List Char) : Prop :=
  ∀ c, (∃ d, d ≠ '\n' ∧ d ≠ '$' ∧ escape c = ['\\', d]) ∨ escape c = [c]

section

variable {escape : Char → List Char}

theorem concealed_cons {c : Char} {rest : List Char}
    (apart : ∀ more, c = '$' → rest ≠ '{' :: more) :
    concealed escape (c :: rest) = escape c ++ concealed escape rest := by
  rw [concealed]
  exact fun more dollar brace => apart more dollar brace

theorem Escapes.brace (escapes : Escapes escape) {text tail more : List Char}
    (plain : ∀ others, tail ≠ '{' :: others)
    (brace : concealed escape text ++ tail = '{' :: more) : ∃ others, text = '{' :: others := by
  fun_cases concealed escape text with
  | case1 others => simp [concealed] at brace
  | case2 c others apart =>
      rw [concealed_cons apart] at brace
      rcases escapes c with ⟨d, _, _, pair⟩ | single
      · simp [pair] at brace
      · simp only [single, List.cons_append, List.cons.injEq] at brace
        exact ⟨others, by rw [brace.1]⟩
  | case3 => exact absurd brace (plain more)

theorem Escapes.opening (escapes : Escapes escape) {text tail more : List Char}
    (plain : ∀ others, tail ≠ '{' :: others) (closed : ∀ others, tail ≠ '$' :: '{' :: others) :
    concealed escape text ++ tail ≠ '$' :: '{' :: more := by
  intro opening
  fun_cases concealed escape text with
  | case1 others => simp [concealed] at opening
  | case2 c others apart =>
      rw [concealed_cons apart] at opening
      rcases escapes c with ⟨d, _, _, pair⟩ | single
      · simp [pair] at opening
      · simp only [single, List.cons_append, List.cons.injEq] at opening
        obtain ⟨behind, brace⟩ := escapes.brace plain opening.2
        exact apart behind opening.1 brace
  | case3 => exact closed more opening

/-- The reader of a template reads on through such a text. -/
theorem Escapes.readText (escapes : Escapes escape) {tail : List Char}
    (plain : ∀ others, tail ≠ '{' :: others) (closed : ∀ others, tail ≠ '$' :: '{' :: others)
    (text seen : List Char) :
    Template.readText seen (concealed escape text ++ tail) =
      Template.readText ((concealed escape text).reverse ++ seen) tail := by
  fun_induction concealed escape text generalizing seen with
  | case1 rest ih =>
      simp only [List.cons_append]
      rw [Template.readText, ih]
      simp
  | case2 c rest apart ih =>
      rw [List.append_assoc]
      rcases escapes c with ⟨d, _, dollar, pair⟩ | single
      · simp only [pair, List.cons_append, List.nil_append]
        rw [readText_plain (by simp), readText_plain (fun more same => absurd same dollar), ih]
        simp
      · simp only [single, List.cons_append, List.nil_append]
        rw [readText_plain, ih]
        · simp
        · intro more dollar
          refine ⟨fun brace => ?_, escapes.opening plain closed⟩
          obtain ⟨others, same⟩ := escapes.brace plain brace
          exact apart others dollar same
  | case3 => rfl

end

theorem written_text {basis : Point} {text : List Char} (filled : text ≠ [])
    (whole : readText [] text = text) : Written basis text [.text (String.ofList text) basis] := by
  have word : Terminal.text.pattern.first? (text ++ []) = some text := by
    rw [List.append_nil, text_first?, whole, filled?, if_neg (by simpa using filled)]
    rfl
  have spot : Word .text ⟨basis, text ++ []⟩ _ _ := Word.mk word
  rw [List.append_nil] at spot
  exact ⟨_, Derives.textPart spot Derives.textEnd⟩

/-- A template without interpolations is a literal. -/
theorem parseChars_text {basis : Point} {text : List Char} (filled : text ≠ [])
    (whole : readText [] text = text) :
    parseChars basis text =
      .ok (.output [.literal (.text (String.ofList (reveal text))) basis] basis) := by
  refine parseChars_eq_ok_iff.mpr ⟨_, written_text filled whole, ?_, ?_, ?_⟩
  · exact Nat.zero_le maxLevels
  · intro digits member
    cases member
  · rw [Part.trees, Part.trees, String.toList_ofList, id]

end ConfigIndex.Template
