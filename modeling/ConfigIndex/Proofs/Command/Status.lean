import ConfigIndex.Command.Status
import ConfigIndex.Command.Tracking
import ConfigIndex.Proofs.Text.Digits
import ConfigIndex.Proofs.Text.Pattern
import Mathlib.Data.List.TakeWhile
import Mathlib.Data.Nat.Digits.Defs

/-!
Status lines. Printable text without tags is shown as it is, and stays on one line if it fits.
-/

namespace ConfigIndex.Command

structure Printable (c : Char) : Prop where
  low : 0x20 ≤ c.toNat
  high : c.toNat < 0x7f
  bracket : c ≠ '['
  backslash : c ≠ '\\'

instance (c : Char) : Decidable (Printable c) :=
  decidable_of_iff (_ ∧ _ ∧ _ ∧ _)
    ⟨fun all => ⟨all.1, all.2.1, all.2.2.1, all.2.2.2⟩, fun all => ⟨all.1, all.2, all.3, all.4⟩⟩

theorem Printable.of_isDigit {c : Char} (digit : c.isDigit = true) : Printable c := by
  obtain ⟨low, high⟩ : 48 ≤ c.toNat ∧ c.toNat ≤ 57 := Char.isDigit_iff_toNat.mp digit
  refine ⟨by omega, by omega, ?_, ?_⟩
  · rintro rfl
    exact absurd high (by decide)
  · rintro rfl
    exact absurd high (by decide)

-- The characters of the text are decided one by one: there are too many others.
theorem printable_of_all {text : List Char}
    (all : text.all (fun c => decide (Printable c)) = true) : ∀ c ∈ text, Printable c :=
  fun c member => of_decide_eq_true (List.all_eq_true.mp all c member)

/-! ### Tags -/

variable {fuel position : Nat} {opened : List (List Char)}

theorem tag?_cons {c : Char} (other : c ≠ '[') (rest : List Char) : tag? (c :: rest) = none := by
  unfold tag?
  split
  · rename_i same
    exact absurd (List.cons.inj same).1 other
  · rfl

theorem map_nil_append (result : Except MarkupFault (List Char)) :
    result.map (List.replicate 0 '\\' ++ ·) = result := by
  cases result <;> rfl

theorem readMarkup_cons {c : Char} (printable : Printable c) (rest : List Char) :
    readMarkup (fuel + 1) position opened (c :: rest) =
      (readMarkup fuel (position + 1) opened rest).map (c :: ·) := by
  have slashes : (c :: rest).takeWhile (· = '\\') = [] :=
    List.takeWhile_cons_of_neg (by simpa using printable.backslash)
  rw [readMarkup]
  simp only [slashes, List.length_nil, List.drop_zero, tag?_cons printable.bracket]
  split
  · rename_i same
    exact absurd (List.cons.inj same).1 printable.backslash
  · rfl

theorem readMarkup_opening {first : Char} {rest name behind : List Char} (other : first ≠ '/')
    (found : tag? ('[' :: rest) = some (first :: name, behind)) :
    ∃ next, readMarkup (fuel + 1) position opened ('[' :: rest) =
      readMarkup fuel next (tagName (first :: name) :: opened) behind := by
  have slashes : ('[' :: rest).takeWhile (· = '\\') = [] := rfl
  refine ⟨position + (('[' :: rest).length - behind.length), ?_⟩
  rw [readMarkup]
  simp only [slashes, List.length_nil, List.drop_zero, found, Nat.zero_div,
    Nat.zero_mod, Nat.zero_ne_one, if_false, map_nil_append]
  split
  · rename_i same
    exact absurd (List.cons.inj same).1 other
  · rfl

theorem readMarkup_closing {rest name behind : List Char} {remaining : List (List Char)}
    (found : tag? ('[' :: rest) = some ('/' :: name, behind))
    (matched : closeTag? (tagName name) opened = some remaining) :
    ∃ next, readMarkup (fuel + 1) position opened ('[' :: rest) =
      readMarkup fuel next remaining behind := by
  have slashes : ('[' :: rest).takeWhile (· = '\\') = [] := rfl
  refine ⟨position + (('[' :: rest).length - behind.length), ?_⟩
  rw [readMarkup]
  simp only [slashes, List.length_nil, List.drop_zero, found, Nat.zero_div,
    Nat.zero_mod, Nat.zero_ne_one, if_false, map_nil_append, matched]

theorem readMarkup_printable {text : List Char} (printable : ∀ c ∈ text, Printable c)
    (enough : text.length < fuel) : readMarkup fuel position opened text = .ok text := by
  induction text generalizing fuel position with
  | nil => cases fuel <;> rfl
  | cons c rest ih =>
      obtain ⟨first, others⟩ := List.forall_mem_cons.mp printable
      cases fuel with
      | zero => exact absurd enough (Nat.not_lt_zero _)
      | succ fuel =>
          rw [readMarkup_cons first, ih others (Nat.lt_of_succ_lt_succ enough)]
          rfl

/-- A mark in a style of its own is shown without the style. -/
theorem shownMarkup_mark {text : List Char} (printable : ∀ c ∈ text, Printable c) :
    shownMarkup ("[yellow]![/yellow]".toList ++ text) = .ok ('!' :: text) := by
  have tag : tag? ("[yellow]![/yellow]".toList ++ text) =
      some ("yellow".toList, "![/yellow]".toList ++ text) := rfl
  have untag : tag? ("[/yellow]".toList ++ text) = some ("/yellow".toList, text) := rfl
  obtain ⟨second, opening⟩ : ∃ next, shownMarkup ("[yellow]![/yellow]".toList ++ text) =
      readMarkup (text.length + 18) next [tagName "yellow".toList]
        ('!' :: ("[/yellow]".toList ++ text)) := readMarkup_opening (by decide) tag
  obtain ⟨last, closing⟩ : ∃ next, readMarkup (text.length + 17) (second + 1)
      [tagName "yellow".toList] ("[/yellow]".toList ++ text) =
        readMarkup (text.length + 16) next [] text := readMarkup_closing untag rfl
  rw [opening, readMarkup_cons (by decide), closing, readMarkup_printable printable]
  · rfl
  · exact Nat.lt_add_of_pos_right (by decide)

/-! ### Lines -/

theorem charColumns_printable {c : Char} (printable : Printable c) : charColumns c = 1 := by
  obtain ⟨low, high, -, -⟩ := printable
  have narrow : inRuns wideRuns c = false := by
    simp [inRuns, wideRuns]
    omega
  have raised : inRuns flatRuns c = false := by
    simp [inRuns, flatRuns]
    omega
  rw [charColumns, narrow, raised]
  rfl

theorem textColumns_append (first later : List Char) :
    textColumns (first ++ later) = textColumns first + textColumns later := by
  have shift (text : List Char) (start : Nat) : text.foldl (fun columns c =>
      columns + charColumns c) start = start + textColumns text := by
    induction text generalizing start with
    | nil => rfl
    | cons c rest ih =>
        rw [textColumns, List.foldl_cons, List.foldl_cons, ih, ih (0 + _)]
        omega
  rw [textColumns, List.foldl_append, shift]
  rfl

theorem textColumns_printable {text : List Char} (printable : ∀ c ∈ text, Printable c) :
    textColumns text = text.length := by
  induction text with
  | nil => rfl
  | cons c rest ih =>
      obtain ⟨first, others⟩ := List.forall_mem_cons.mp printable
      rw [← List.singleton_append, textColumns_append, ih others, textColumns, List.foldl_cons,
        List.foldl_nil, charColumns_printable first, List.length_append]
      rfl

theorem expandTabs_printable {text : List Char} (printable : ∀ c ∈ text, Printable c)
    (column : Nat) : expandTabs column text = text := by
  induction text generalizing column with
  | nil => rw [expandTabs]
  | cons c rest ih =>
      obtain ⟨first, others⟩ := List.forall_mem_cons.mp printable
      rw [expandTabs, ih others]
      rintro rfl
      exact absurd first.low (by decide)

/-- The first word of a text ends before the next one, or with the text. -/
theorem words_succ (fuel : Nat) (text : List Char) :
    let bare := (text.dropWhile Text.isBlank).takeWhile (!Text.isBlank ·)
    let behind := (text.dropWhile Text.isBlank).dropWhile (!Text.isBlank ·)
    ∃ word, text = word ++ behind.dropWhile Text.isBlank ∧ bare.length ≤ word.length ∧
      words (fuel + 1) text =
        if bare.isEmpty then [] else word :: words fuel (behind.dropWhile Text.isBlank) := by
  intro bare behind
  let word := text.takeWhile Text.isBlank ++ bare ++ behind.takeWhile Text.isBlank
  have cut : text = word ++ behind.dropWhile Text.isBlank := by
    simp only [word, bare, behind, List.append_assoc, List.takeWhile_append_dropWhile]
  have rest : text.drop word.length = behind.dropWhile Text.isBlank :=
    (congrArg (List.drop word.length) cut).trans List.drop_left
  refine ⟨word, cut, ?_, ?_⟩
  · simp only [word, List.length_append]
    omega
  · rw [← rest, words, ← List.drop_drop]
    simp only [Text.Pattern.drop_takeWhile_length]
    rfl

/-- The words of a text together are the text, unless it is blank altogether. -/
theorem flatten_words {fuel : Nat} {text : List Char} (enough : text.length < fuel) :
    words fuel text = [] ∧ (∀ c ∈ text, Text.isBlank c = true) ∨
      (words fuel text).flatten = text := by
  induction fuel generalizing text with
  | zero => exact absurd enough (Nat.not_lt_zero _)
  | succ fuel ih =>
      obtain ⟨word, cut, long, step⟩ := words_succ fuel text
      have head := List.head?_dropWhile_not Text.isBlank text
      rw [step]
      cases inked : text.dropWhile Text.isBlank with
      | nil => exact Or.inl ⟨rfl, List.dropWhile_eq_nil_iff.mp inked⟩
      | cons c more =>
          rw [inked] at head cut long
          replace head : Text.isBlank c = false := head
          simp only [List.takeWhile_cons, List.dropWhile_cons, head, Bool.not_false, if_true]
            at long cut ⊢
          rw [List.isEmpty_cons, if_neg Bool.false_ne_true, List.flatten_cons]
          generalize more.dropWhile (!Text.isBlank ·) = behind at cut ⊢
          have shorter : (behind.dropWhile Text.isBlank).length < fuel := by
            have lengths := congrArg List.length cut
            rw [List.length_append] at lengths
            rw [List.length_cons] at long
            omega
          right
          rcases ih shorter with ⟨none, blank⟩ | whole
          · have empty : behind.dropWhile Text.isBlank = [] := by
              have next := List.head?_dropWhile_not Text.isBlank behind
              cases left : behind.dropWhile Text.isBlank with
              | nil => rfl
              | cons c rest =>
                  rw [left] at next blank
                  exact absurd (blank c List.mem_cons_self) (Bool.eq_false_iff.mp next)
            rw [none, List.flatten_nil, cut, empty]
          · rw [whole, ← cut]

/-- Words that fit on a line together stay on one line. -/
theorem layWords_fitting {width : Nat} {present : List Char} {rest : List (List Char)}
    (printable : ∀ c ∈ present ++ rest.flatten, Printable c)
    (fits : (present ++ rest.flatten).length ≤ width) :
    layWords width present rest = [present ++ rest.flatten] := by
  induction rest generalizing present with
  | nil => rw [layWords, List.flatten_nil, List.append_nil]
  | cons word more ih =>
      rw [List.flatten_cons, ← List.append_assoc] at printable fits ⊢
      have bare : textColumns present + textColumns (Text.trimEndBy Text.isBlank word) ≤ width := by
        have trimmed : (Text.trimEndBy Text.isBlank word).Sublist word := by
          have kept := (List.dropWhile_sublist Text.isBlank (l := word.reverse)).reverse
          rwa [List.reverse_reverse] at kept
        have shorter := trimmed.length_le
        simp only [List.forall_mem_append] at printable
        rw [textColumns_printable printable.1.1,
          textColumns_printable fun c member => printable.1.2 c (trimmed.subset member)]
        simp only [List.length_append] at fits
        omega
      rw [layWords, if_pos bare]
      exact ih printable fits

theorem trimLine_fitting {width : Nat} {line : List Char} (fits : line.length ≤ width) :
    trimLine width line = line := by
  rw [trimLine, Nat.sub_eq_zero_of_le fits, Nat.zero_min, Nat.sub_zero, List.take_length]

theorem wrapLine_fitting {width : Nat} {line : List Char} (printable : ∀ c ∈ line, Printable c)
    (fits : line.length ≤ width) : wrapLine width line = [line] := by
  rw [wrapLine, expandTabs_printable printable]
  rcases flatten_words (Nat.lt_succ_self line.length) with ⟨none, -⟩ | whole
  · rw [none, trimLine_fitting fits]
  · cases found : words (line.length + 1) line with
    | nil => rw [trimLine_fitting fits]
    | cons word rest =>
        rw [found] at whole
        change (layWords width [] (word :: rest)).map (trimLine width) = [line]
        rw [layWords_fitting (whole ▸ printable) (whole ▸ fits), whole]
        exact congrArg ([·]) (trimLine_fitting fits)

theorem wrap_fitting {width : Nat} {text : List Char} (printable : ∀ c ∈ text, Printable c)
    (fits : text.length ≤ width) : wrap width text = String.ofList (text ++ ['\n']) := by
  have visible : text.filter (!isControl ·) = text := by
    refine List.filter_eq_self.mpr fun c member => ?_
    have low := (printable c member).low
    simp [isControl]
    omega
  have single : textLines text = [text] := by
    clear fits visible
    induction text with
    | nil => rfl
    | cons c rest ih =>
        obtain ⟨first, others⟩ := List.forall_mem_cons.mp printable
        have inside : c ≠ '\n' := by
          rintro rfl
          exact absurd first.low (by decide)
        rw [textLines, if_neg inside, ih others]
  rw [wrap, visible, single, List.flatMap_singleton, wrapLine_fitting printable fits,
    List.flatMap_singleton]

/-! ### The last line -/

def closingLines (count : Nat) : List String :=
  if count = 0 then []
  else [wrap screenWidth ("! " ++ counted count "file" none ++ " could not be parsed").toList]

theorem counted_files (count : Nat) :
    counted count "file" none = toString count ++ if count = 1 then " file" else " files" := by
  rw [counted, String.append_assoc]
  by_cases one : count = 1
  · subst one
    rfl
  · have several : (count : Int) ≠ 1 := by omega
    rw [if_neg one, if_neg several]
    rfl

theorem printable_failures (count : Nat) :
    ∀ c ∈ (counted count "file" none ++ " could not be parsed").toList, Printable c := by
  rw [counted_files]
  simp only [String.toList_append, List.forall_mem_append]
  refine ⟨⟨fun c member => ?_, ?_⟩, printable_of_all (by decide)⟩
  · have listed : c ∈ Nat.toDigits 10 count := by simpa using member
    exact .of_isDigit (Text.isDigit_of_mem_digits listed)
  · split <;> exact printable_of_all (by decide)

/-- A warning is shown behind a mark. -/
theorem statusText_warning {message : String} (printable : ∀ c ∈ message.toList, Printable c) :
    statusText message "warning" = .ok (wrap screenWidth ("! " ++ message).toList) := by
  have mark : (statusMark "warning").toList = "[yellow]![/yellow]".toList ++ [' '] := by
    decide +kernel
  have blank : ∀ c ∈ [' '] ++ message.toList, Printable c :=
    List.forall_mem_append.mpr ⟨printable_of_all (by decide), printable⟩
  rw [statusText, String.toList_append, mark, List.append_assoc, shownMarkup_mark blank,
    String.toList_append]
  rfl

/-- Any number of files that can be met fits on the line. -/
theorem closingLines_fitting {count : Nat} (some : 0 < count) (small : count < 10 ^ 50) :
    closingLines count =
      ["! " ++ toString count ++ (if count = 1 then " file" else " files") ++
        " could not be parsed\n"] := by
  have digits : (toString count).length ≤ 50 := Nat.repr_length count 50 (by decide) small
  have noun : (if count = 1 then " file" else " files").length ≤ 6 := by
    split <;> decide
  rw [closingLines, if_neg (Nat.ne_of_gt some), wrap_fitting, counted_files]
  · refine congrArg ([·]) (String.toList_injective ?_)
    simp only [String.toList_append, String.toList_ofList, List.append_assoc]
    rfl
  · rw [String.append_assoc, String.toList_append, List.forall_mem_append]
    exact ⟨printable_of_all (by decide), printable_failures count⟩
  · rw [counted_files, String.length_toList]
    simp only [String.length_append]
    have ends : "! ".length + " could not be parsed".length = 22 := rfl
    rw [screenWidth]
    omega

end ConfigIndex.Command
