import ConfigIndex.Proofs.Text.Pattern
import ConfigIndex.Text.Numeral

/-!
The pattern of decimal numerals, and that reading one is matching it.
-/

namespace ConfigIndex.Text

theorem letter_code {c : Char}
    (letter : (('A' ≤ c && c ≤ 'Z') || ('a' ≤ c && c ≤ 'z') || c = '_') = true) :
    c.toNat = 95 ∨ (65 ≤ c.toNat ∧ c.toNat ≤ 90) ∨ (97 ≤ c.toNat ∧ c.toNat ≤ 122) := by
  simp only [Bool.or_eq_true, Bool.and_eq_true, decide_eq_true_eq, Char.le_def,
    UInt32.le_iff_toNat_le] at letter
  rcases letter with (upper | lower) | rfl
  · exact Or.inr (Or.inl upper)
  · exact Or.inr (Or.inr lower)
  · exact Or.inl rfl

theorem isDecimal_of_letter {c : Char}
    (letter : (('A' ≤ c && c ≤ 'Z') || ('a' ≤ c && c ≤ 'z') || c = '_') = true) :
    isDecimal c = false := by
  have code := letter_code letter
  have small : c.toNat < 128 := by omega
  have other : c.isDigit = false := by
    apply Bool.eq_false_iff.mpr
    intro digit
    have upper : c.toNat ≤ 57 := (Char.isDigit_iff_toNat.mp digit).2
    omega
  simp [isDecimal, digitValue?, small, other]

namespace Pattern

def digits : Pattern := several (one isDecimal)

def fraction : Pattern := seq (char '.') digits

def sign : Pattern := one fun c => c = '+' || c = '-'

def exponent : Pattern := seq (one fun c => c = 'e' || c = 'E') (seq (maybe sign) digits)

def numeral : Pattern := seq digits (seq (maybe fraction) (maybe exponent))

def filled (read : List Char → List Char) (text : List Char) : Option (List Char) :=
  if (read text).isEmpty then none else some (read text)

theorem Decides.maybe_filled {pattern : Pattern} {read : List Char → List Char}
    (decides : Decides pattern (filled read)) :
    Decides (Pattern.maybe pattern) fun text => some (read text) := by
  have filled_getD : ∀ text, (filled read text).getD [] = read text := by
    intro text
    by_cases empty : read text = []
    · simp [filled, empty]
    · simp [filled, empty]
  simpa only [filled_getD] using decides.maybe

theorem digits_decides : Decides digits (filled fun text => text.takeWhile isDecimal) :=
  several_one_decides isDecimal

theorem fraction_decides : Decides fraction (filled Text.fraction) := by
  intro seen text next total
  match text with
  | [] => simp [fraction, char, after, filled, Text.fraction]
  | c :: rest =>
      by_cases point : c = '.'
      · subst point
        simp only [fraction, char, after, decide_true, if_true, filled, Text.fraction]
        rw [digits_decides _ rest next total]
        simp only [filled]
        by_cases none : (rest.takeWhile isDecimal).isEmpty
        · simp [none]
        · simp [none]
      · have nothing : Text.fraction (c :: rest) = [] := by
          unfold Text.fraction
          split
          · simp_all
          · rfl
        simp [fraction, char, after, filled, nothing, point]

def signOf : List Char → List Char
  | '+' :: _ => ['+']
  | '-' :: _ => ['-']
  | _ => []

def signedDigits (text : List Char) : List Char :=
  let digits := (text.drop (signOf text).length).takeWhile isDecimal
  if digits.isEmpty then [] else signOf text ++ digits

theorem signOf_of_ne {c : Char} {rest : List Char} (plus : c ≠ '+') (minus : c ≠ '-') :
    signOf (c :: rest) = [] := by
  unfold signOf
  split <;> simp_all

/-- A sign without digits behind it is given back, and then no digit stands there either. -/
theorem signedDigits_decides : Decides (seq (maybe sign) digits) (filled signedDigits) := by
  intro seen text next total
  have unsigned : ∀ c rest, isDecimal c = false →
      digits.after seen (c :: rest) next = none := by
    intro c rest other
    rw [digits_decides _ _ next total]
    simp [filled, other]
  simp only [maybe, after]
  cases text with
  | nil =>
      rw [digits_decides _ _ next total]
      simp [sign, after, filled, signedDigits]
  | cons c rest =>
      by_cases plus : c = '+'
      · subst plus
        rw [unsigned '+' rest (by decide)]
        simp only [sign, after, decide_true, Bool.true_or, if_true]
        rw [digits_decides _ rest next total]
        by_cases none : (rest.takeWhile isDecimal).isEmpty
        · simp [filled, signedDigits, signOf, none]
        · simp [filled, signedDigits, signOf, none]
      · by_cases minus : c = '-'
        · subst minus
          rw [unsigned '-' rest (by decide)]
          simp only [sign, after, decide_true, Bool.or_true, if_true]
          rw [digits_decides _ rest next total]
          by_cases none : (rest.takeWhile isDecimal).isEmpty
          · simp [filled, signedDigits, signOf, none]
          · simp [filled, signedDigits, signOf, none]
        · rw [digits_decides _ _ next total]
          by_cases none : ((c :: rest).takeWhile isDecimal).isEmpty
          · simp [sign, after, filled, signedDigits, signOf_of_ne plus minus, plus, minus, none]
          · simp [sign, after, filled, signedDigits, signOf_of_ne plus minus, plus, minus, none]

theorem exponent_cons (e : Char) (rest : List Char) :
    Text.exponent (e :: rest) =
      if e = 'e' || e = 'E' then
        if (signedDigits rest).isEmpty then [] else e :: signedDigits rest
      else [] := by
  change (if e = 'e' || e = 'E' then
    if ((rest.drop (signOf rest).length).takeWhile isDecimal).isEmpty then []
    else e :: signOf rest ++ (rest.drop (signOf rest).length).takeWhile isDecimal else []) = _
  by_cases none : (rest.drop (signOf rest).length).takeWhile isDecimal = []
  · simp [signedDigits, none]
  · simp [signedDigits, none]

theorem exponent_decides : Decides exponent (filled Text.exponent) := by
  intro seen text next total
  match text with
  | [] => simp [exponent, after, filled, Text.exponent]
  | e :: rest =>
      by_cases mark : e = 'e' || e = 'E'
      · have digits := signedDigits_decides (e :: seen) rest next total
        simp only [after] at digits
        simp only [exponent, after, filled, exponent_cons, mark, if_true]
        rw [digits]
        by_cases none : (signedDigits rest).isEmpty
        · simp [filled, none]
        · simp [filled, none]
      · simp [exponent, after, filled, exponent_cons, mark]

theorem numeral_decides : Decides numeral numeral? := by
  have tail : Decides (seq (maybe fraction) (maybe exponent)) fun text =>
      some (Text.fraction text ++ Text.exponent (text.drop (Text.fraction text).length)) :=
    fraction_decides.maybe_filled.seq exponent_decides.maybe_filled
  intro seen text next total
  rw [numeral, digits_decides.seq tail seen text next total]
  by_cases none : text.takeWhile isDecimal = []
  · simp [numeral?, filled, none]
  · simp [numeral?, filled, none]

end Pattern

end ConfigIndex.Text
