import ConfigIndex.Data.Json
import ConfigIndex.Data.JsonReader
import ConfigIndex.Proofs.Text.Digits
import Mathlib.Data.List.TakeDrop
import Mathlib.Tactic.SplitIfs

/-!
Text and whole numbers of JSON, read back from what was written.
-/

namespace ConfigIndex.Data

/-! ### Text -/

theorem hexValue?_hexDigit {value : Nat} (bound : value < 16) :
    hexValue? (Text.hexDigit value) = some value := by
  have all : ∀ value : Fin 16, hexValue? (Text.hexDigit value) = some value.val := by decide
  exact all ⟨value, bound⟩

theorem readJsonText_hex (half? : Option Char) (seen tail : List Char) {code : Nat}
    (bound : code < 0xd800) :
    readJsonText half? seen ('\\' :: 'u' :: Text.hex 4 code ++ tail) =
      readJsonText half? (Char.ofNat code :: seen) tail := by
  have digits : fourHex? (Text.hexDigit (code / 16 / 16 / 16 % 16))
      (Text.hexDigit (code / 16 / 16 % 16)) (Text.hexDigit (code / 16 % 16))
      (Text.hexDigit (code % 16)) = some code := by
    have value (n : Nat) : hexValue? (Text.hexDigit (n % 16)) = some (n % 16) :=
      hexValue?_hexDigit (Nat.mod_lt n (by decide))
    simp only [fourHex?, value, Option.bind_eq_bind, Option.bind_some, Option.pure_def,
      Option.some.injEq]
    omega
  simp only [Text.hex, List.nil_append, List.cons_append]
  rw [readJsonText, digits]
  simp [bound]

/-- What is written for a character is read as that character, whichever escape it takes. -/
theorem readJsonText_jsonChar (half? : Option Char) (seen : List Char) (c : Char)
    (tail : List Char) :
    readJsonText half? seen (jsonChar false c ++ tail) = readJsonText half? (c :: seen) tail := by
  simp only [jsonChar, Bool.or_eq_true, decide_eq_true_eq, Bool.false_and, Bool.or_false]
  split_ifs with quoted newline back tab erase feed control
  · rcases quoted with rfl | rfl <;> simp [readJsonText, simpleEscape?]
  · subst newline
    simp [readJsonText, simpleEscape?]
  · subst back
    simp [readJsonText, simpleEscape?]
  · subst tab
    simp [readJsonText, simpleEscape?]
  · subst erase
    simp [readJsonText, simpleEscape?]
  · subst feed
    simp [readJsonText, simpleEscape?]
  · rw [jsonNumberEscape, if_pos (by omega), readJsonText_hex half? seen tail (by omega),
      Char.ofNat_toNat]
  · obtain ⟨noQuote, noStroke⟩ := not_or.mp quoted
    rw [List.singleton_append, readJsonText]
    · simp [control, noStroke]
    -- Neither a quote nor the start of an escape is left.
    all_goals simp_all

theorem readJsonText_flatMap (half? : Option Char) (seen text tail : List Char) :
    readJsonText half? seen (text.flatMap (jsonChar false) ++ '"' :: tail) =
      some (String.ofList (seen.reverse ++ text), tail) := by
  induction text generalizing seen with
  | nil => simp [readJsonText]
  | cons c rest ih =>
      rw [List.flatMap_cons, List.append_assoc, readJsonText_jsonChar, ih, List.reverse_cons,
        List.append_assoc, List.singleton_append]

/-! ### Whole numbers -/

def EndsNumber (rest : List Char) : Prop :=
  ∀ c ∈ rest.head?, c.isDigit = false ∧ c ≠ '.' ∧ c ≠ 'e' ∧ c ≠ 'E'

theorem readDigits_append {digits rest : List Char} (all : ∀ c ∈ digits, c.isDigit = true)
    (ends : EndsNumber rest) : readDigits (digits ++ rest) = (digits, rest) := by
  rw [readDigits, List.span_eq_takeWhile_dropWhile, List.takeWhile_append_of_pos all,
    List.dropWhile_append_of_pos all]
  cases rest with
  | nil => simp
  | cons c rest =>
      have noDigit : c.isDigit = false := (ends c rfl).1
      simp [noDigit]

theorem readJsonNumber_digits (signWidth : Nat) (negative : Bool) (value : Nat) {rest : List Char}
    (ends : EndsNumber rest) :
    readJsonNumber signWidth negative (Nat.toDigits 10 value ++ rest) =
      if (Nat.toDigits 10 value).length + (if negative then signWidth else 0) ≤ maxJsonDigits then
        some (.int (if negative then -value else value), rest)
      else none := by
  have allDigits : ∀ c ∈ Nat.toDigits 10 value, c.isDigit = true :=
    fun c => Text.isDigit_of_mem_digits
  have digits := readDigits_append allDigits ends
  have wellFormed : ((Nat.toDigits 10 value).isEmpty || ((Nat.toDigits 10 value).length ≠ 1 &&
      (Nat.toDigits 10 value).head? = some '0')) = false := by
    have nonempty : Nat.toDigits 10 value ≠ [] := Nat.toDigits_ne_nil
    have head : (Nat.toDigits 10 value).head? = some '0' → (Nat.toDigits 10 value).length = 1 :=
      Text.digits_head
    simp only [Bool.or_eq_false_iff, List.isEmpty_eq_false_iff, Bool.and_eq_false_iff,
      decide_eq_false_iff_not]
    tauto
  have limit (count : Nat) (read : Option (Data × List Char)) :
      (if maxJsonDigits < count then none else read) =
        if count ≤ maxJsonDigits then read else none := by
    by_cases long : maxJsonDigits < count
    · rw [if_pos long, if_neg (Nat.not_le.mpr long)]
    · rw [if_neg long, if_pos (Nat.not_lt.mp long)]
  unfold readJsonNumber
  simp only [digits, wellFormed, Text.decimalValue_digits]
  cases rest with
  | nil => simp [limit]
  | cons c rest =>
      obtain ⟨-, noPoint, noSmall, noLarge⟩ := ends c rfl
      simp [limit, noPoint, noSmall, noLarge]

end ConfigIndex.Data
