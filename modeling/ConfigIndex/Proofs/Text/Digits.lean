import ConfigIndex.Text.Digit
import Mathlib.Algebra.Group.Nat.Defs

/-!
Whole numbers written in decimal digits, and the values that are read from them.
-/

namespace ConfigIndex.Text

theorem digitValue?_of_isDigit {c : Char} (digit : c.isDigit = true) :
    digitValue? c = some (c.toNat - 48) := by
  have small : c.toNat < 128 := by
    have upper : c.toNat ≤ 57 := (Char.isDigit_iff_toNat.mp digit).2
    omega
  simp [digitValue?, small, digit]

theorem isDecimal_of_isDigit {c : Char} (digit : c.isDigit = true) : isDecimal c = true := by
  rw [isDecimal, digitValue?_of_isDigit digit, Option.isSome_some]

theorem isDigit_of_mem_digits {value : Nat} {c : Char} (member : c ∈ Nat.toDigits 10 value) :
    c.isDigit = true :=
  Nat.isDigit_of_mem_toDigits (by decide) (by decide) member

theorem decimalValue_eq_ofDigitChars {digits : List Char}
    (all : ∀ c ∈ digits, c.isDigit = true) :
    decimalValue digits = Nat.ofDigitChars 10 digits 0 := by
  suffices ∀ total : Nat, digits.foldl (fun total c => total * 10 + (digitValue? c).getD 0) total =
      Nat.ofDigitChars 10 digits total from this 0
  induction digits with
  | nil => exact fun total => rfl
  | cons c rest ih =>
      intro total
      have first := digitValue?_of_isDigit (all c (by simp))
      rw [List.foldl_cons, ih (fun d member => all d (by simp [member])), Nat.ofDigitChars_cons,
        first, Option.getD_some, Nat.mul_comm 10]
      rfl

theorem decimalValue_digits (value : Nat) : decimalValue (Nat.toDigits 10 value) = value := by
  rw [decimalValue_eq_ofDigitChars fun c member => isDigit_of_mem_digits member,
    Nat.ofDigitChars_ten_toDigits]

/-- No number but zero is written with a zero in front. -/
theorem digits_head {value : Nat} (zero : (Nat.toDigits 10 value).head? = some '0') :
    (Nat.toDigits 10 value).length = 1 := by
  induction value using Nat.strongRecOn with
  | ind value ih =>
      by_cases small : value < 10
      · rw [Nat.toDigits_of_lt_base small, List.length_singleton]
      · have large : 10 ≤ value := Nat.le_of_not_lt small
        have split : Nat.toDigits 10 value =
            Nat.toDigits 10 (value / 10) ++ [(value % 10).digitChar] :=
          Nat.toDigits_of_base_le (by decide) large
        have nonempty : Nat.toDigits 10 (value / 10) ≠ [] := Nat.toDigits_ne_nil
        have front : (Nat.toDigits 10 (value / 10)).head? = some '0' := by
          obtain ⟨first, rest, written⟩ := List.exists_cons_of_ne_nil nonempty
          rw [split, written] at zero
          rw [written]
          exact zero
        have single := ih (value / 10) (by omega) front
        have quotient : value / 10 < 10 := by
          have bound := (Nat.length_toDigits_le_iff (by decide) (by decide)).mp
            (Nat.le_of_eq single)
          rwa [Nat.pow_one] at bound
        rw [Nat.toDigits_of_lt_base quotient] at front
        have nothing : value / 10 = 0 := Nat.digitChar_eq_zero.mp (by simpa using front)
        omega

theorem length_digits_nines {count : Nat} (positive : 0 < count) :
    (Nat.toDigits 10 (10 ^ count - 1)).length = count := by
  have power : 0 < 10 ^ count := Nat.pow_pos (by decide)
  have upper : (Nat.toDigits 10 (10 ^ count - 1)).length ≤ count :=
    (Nat.length_toDigits_le_iff (by decide) positive).mpr (by omega)
  match count with
  | 1 => rfl
  | count + 2 =>
      have smaller : 0 < 10 ^ (count + 1) := Nat.pow_pos (by decide)
      have lower : ¬(Nat.toDigits 10 (10 ^ (count + 2) - 1)).length ≤ count + 1 := by
        rw [Nat.length_toDigits_le_iff (by decide) (by omega), Nat.pow_succ 10 (count + 1)]
        omega
      omega

end ConfigIndex.Text
