import ConfigIndex.Proofs.Template.Concealed
import ConfigIndex.Proofs.Template.Cut

/-!
Text is read back from its escapes. Dollar signs are freed first and backslashes behind them;
neither pass makes work for the other, so any text can be written around the expressions of a
template or in a quoted string, and comes out as the literal that it was.
-/

namespace ConfigIndex.Template

def quotedChar (c : Char) : List Char := if c = '\\' ∨ c = '"' then ['\\', c] else [c]

theorem escapes_singleton : Escapes ([·]) := fun _ => Or.inr rfl

theorem quotedChar_cases (c : Char) :
    (c = '\\' ∨ c = '"') ∧ quotedChar c = ['\\', c] ∨
      quotedChar c = [c] ∧ c ≠ '\\' ∧ c ≠ '"' := by
  by_cases mark : c = '\\' ∨ c = '"'
  · exact Or.inl ⟨mark, if_pos mark⟩
  · exact Or.inr ⟨if_neg mark, not_or.mp mark⟩

theorem escapes_quotedChar : Escapes quotedChar := by
  intro c
  rcases quotedChar_cases c with ⟨mark, pair⟩ | ⟨single, -⟩
  · refine Or.inl ⟨c, ?_, ?_, pair⟩
    · rcases mark with rfl | rfl <;> decide
    · rcases mark with rfl | rfl <;> decide
  · exact Or.inr single

section

variable {escape : Char → List Char}

theorem revealFrom_plain {c : Char} {seen rest : List Char}
    (plain : c = '$' → ∀ more, rest ≠ '$' :: '{' :: more) :
    revealFrom seen (c :: rest) = revealFrom (c :: seen) rest := by
  rw [revealFrom]
  exact fun more dollar opening => plain dollar more opening

/-- Only the dollar signs that were doubled are followed by another one and a brace. -/
theorem Escapes.revealFrom (escapes : Escapes escape) (dollar : escape '$' = ['$'])
    (brace : escape '{' = ['{']) (text seen : List Char) :
    Template.revealFrom seen (concealed escape text) = seen.reverse ++ text.flatMap escape := by
  fun_induction concealed escape text generalizing seen with
  | case1 rest ih =>
      rw [Template.revealFrom, ih]
      simp [dollar, brace]
  | case2 c rest apart ih =>
      have closed : ∀ more, concealed escape rest ≠ '$' :: '{' :: more := by
        intro more
        simpa using @Escapes.opening _ escapes rest [] _ (by simp) (by simp)
      rcases escapes c with ⟨d, _, other, pair⟩ | single
      · simp only [pair, List.cons_append, List.nil_append]
        rw [revealFrom_plain (by simp), revealFrom_plain (fun same => absurd same other), ih]
        simp [pair]
      · simp only [single, List.cons_append, List.nil_append]
        rw [revealFrom_plain (fun _ => closed), ih]
        simp [single]
  | case3 => simp [Template.revealFrom]

theorem Escapes.reveal (escapes : Escapes escape) (dollar : escape '$' = ['$'])
    (brace : escape '{' = ['{']) (text : List Char) :
    Template.reveal (concealed escape text) = text.flatMap escape :=
  escapes.revealFrom dollar brace text []

end

theorem unescapeFrom_plain {c : Char} {seen rest : List Char} (plain : c ≠ '\\') :
    unescapeFrom seen (c :: rest) = unescapeFrom (c :: seen) rest := by
  rw [unescapeFrom]
  exact fun d more same => absurd same plain

theorem unescapeFrom_quoted (text seen : List Char) :
    unescapeFrom seen (text.flatMap quotedChar) = seen.reverse ++ text := by
  induction text generalizing seen with
  | nil => simp [unescapeFrom]
  | cons c rest ih =>
      rw [List.flatMap_cons]
      rcases quotedChar_cases c with ⟨mark, pair⟩ | ⟨single, backslash, _⟩
      · have meant : escaped? c = some c := by rcases mark with rfl | rfl <;> rfl
        simp only [pair, List.cons_append, List.nil_append]
        rw [unescapeFrom, meant]
        simp [ih]
      · simp only [single, List.cons_append, List.nil_append]
        rw [unescapeFrom_plain backslash, ih]
        simp

/-- Both passes together give a text back that was written for a quoted string. -/
theorem unescape_reveal (text : List Char) :
    unescape (reveal (concealed quotedChar text)) = text := by
  rw [escapes_quotedChar.reveal (by decide) (by decide)]
  exact unescapeFrom_quoted text []

theorem reveal_doubled (text : List Char) : reveal (concealed ([·]) text) = text := by
  rw [escapes_singleton.reveal rfl rfl]
  exact List.flatMap_singleton' text

theorem readText_doubled (text : List Char) :
    readText [] (concealed ([·]) text) = concealed ([·]) text := by
  have through := @Escapes.readText _ escapes_singleton [] (by simp) (by simp) text []
  simpa [readText] using through

theorem concealed_ne_nil {escape : Char → List Char} (escapes : Escapes escape) {text : List Char}
    (filled : text ≠ []) : concealed escape text ≠ [] := by
  fun_cases concealed escape text with
  | case1 rest => simp
  | case2 c rest apart =>
      rcases escapes c with ⟨d, _, _, pair⟩ | single
      · simp [pair]
      · simp [single]
  | case3 => exact absurd rfl filled

/-! ### Quoted strings -/

/-- The reader of a quoted string stops at the quote behind the text that is written in it. -/
theorem readQuoted_concealed (text seen tail : List Char) :
    readQuoted seen (concealed quotedChar text ++ '"' :: tail) =
      seen.reverse ++ concealed quotedChar text := by
  fun_induction concealed quotedChar text generalizing seen with
  | case1 rest ih =>
      simp only [List.cons_append]
      rw [readQuoted, ih]
      simp
  | case2 c rest apart ih =>
      rw [List.append_assoc]
      rcases quotedChar_cases c with ⟨mark, pair⟩ | ⟨single, backslash, quote⟩
      · have inLine : c ≠ '\n' := by rcases mark with rfl | rfl <;> decide
        simp only [pair, List.cons_append, List.nil_append]
        rw [readQuoted, if_neg inLine, ih]
        simp
      · simp only [single, List.cons_append, List.nil_append]
        rw [readQuoted_plain quote backslash, ih]
        · simp
        · intro more dollar
          refine ⟨fun brace => ?_, escapes_quotedChar.opening (by simp) (by simp)⟩
          obtain ⟨others, same⟩ := escapes_quotedChar.brace (by simp) brace
          exact apart others dollar same
  | case3 => simp [readQuoted]

theorem quotedText_word {text : List Char} (filled : text ≠ []) (point : Point)
    (tail : List Char) :
    Word .quotedText ⟨point, concealed quotedChar text ++ '"' :: tail⟩
      ⟨.quotedText, String.ofList (concealed quotedChar text), point⟩
      ⟨point.advanceBy (concealed quotedChar text), '"' :: tail⟩ := by
  refine Word.mk ?_
  have written := concealed_ne_nil escapes_quotedChar filled
  rw [quotedText_first?, readQuoted_concealed, filled?, if_neg (by simpa using written)]
  rfl

theorem Word.token {terminal : Terminal} {spot behind : Spot} {lexeme : Lexeme}
    (word : Word terminal spot lexeme behind) : Token terminal spot lexeme behind :=
  @Token.mk terminal spot.point [] spot.rest lexeme behind (by simp) word

/-- A string that is all of a template's only interpolation. -/
theorem written_quoted {text : List Char} (filled : text ≠ []) (basis : Point) :
    let string := basis.advanceBy ['$', '{']
    Written basis (['$', '{'] ++ (['"'] ++ (concealed quotedChar text ++ ['"', '}'])))
      [.expr (.quoted string
        [.text (String.ofList (concealed quotedChar text)) (string.advanceBy ['"'])])] := by
  intro string
  have opening := mark_word .opening rfl basis
    (['"'] ++ (concealed quotedChar text ++ ['"', '}']))
  have first := mark_word .quote rfl string (concealed quotedChar text ++ ['"', '}'])
  have inner := quotedText_word filled (string.advanceBy ['"']) ['}']
  have last := mark_word .quote rfl
    ((string.advanceBy ['"']).advanceBy (concealed quotedChar text)) ['}']
  have closing := mark_word .closing rfl
    (((string.advanceBy ['"']).advanceBy (concealed quotedChar text)).advanceBy ['"']) []
  have quoted := Derives.string first.token (Derives.quotedPart inner Derives.quotedEnd) last
  exact ⟨_, Derives.interpolation opening (quoted.lower (Nat.zero_le 7) (Nat.le_refl 7))
    closing.token Derives.textEnd⟩

/-- Any text but the empty one is read back as one literal: from a template that doubles the dollar
sign of each opening of an interpolation, and from a quoted string that also has a backslash before
each backslash and each quote. -/
theorem parse_decoded (text : String) (filled : text ≠ "") :
    parse (String.ofList (concealed ([·]) text.toList)) =
        .ok (.output [.literal (.text text) .start] .start) ∧
      parse ("$\x7b\"" ++ String.ofList (concealed quotedChar text.toList) ++ "\"\x7d") =
        .ok (.output [.literal (.text text) ⟨"", 1, 4⟩] .start) := by
  have chars : text.toList ≠ [] := fun empty => filled (String.toList_eq_nil_iff.mp empty)
  constructor
  · rw [parse, parseAt, String.toList_ofList,
      parseChars_text (concealed_ne_nil escapes_singleton chars) (readText_doubled text.toList),
      reveal_doubled, String.ofList_toList]
  · have source : ("$\x7b\"" ++ String.ofList (concealed quotedChar text.toList) ++ "\"\x7d").toList =
        ['$', '{'] ++ (['"'] ++ (concealed quotedChar text.toList ++ ['"', '}'])) := by
      simp
    rw [parse, parseAt, source]
    refine parseChars_eq_ok_iff.mpr ⟨_, written_quoted chars .start, ?_, ?_, ?_⟩
    · change 1 ≤ maxLevels
      decide
    · intro digits member
      cases member
    · simp only [Part.trees, Expr.tree, String.toList_ofList, unescape_reveal, String.ofList_toList]
      rfl

theorem parse_decoded_overlapping :
    let text := "$$\x7b\\$\x7b$\"\x7b\n\\"
    text ≠ "" ∧ concealed quotedChar text.toList =
        "$$$\x7b\\\\$$\x7b$\\\"\x7b\n\\\\".toList ∧
      parse (String.ofList (concealed ([·]) text.toList)) =
        .ok (.output [.literal (.text text) .start] .start) ∧
      parse ("$\x7b\"" ++ String.ofList (concealed quotedChar text.toList) ++ "\"\x7d") =
        .ok (.output [.literal (.text text) ⟨"", 1, 4⟩] .start) := by
  intro text
  exact ⟨by decide, by decide, parse_decoded text (by decide)⟩

end ConfigIndex.Template
