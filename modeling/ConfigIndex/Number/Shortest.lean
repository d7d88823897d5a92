import ConfigIndex.Number.Binary64

/-!
The shortest decimal that reads back as a given binary number, and two ways of writing it.
-/

namespace ConfigIndex.Binary64

def leadingPlace (numerator denominator : Nat) : Int :=
  if denominator ≤ numerator then ((Nat.toDigits 10 (numerator / denominator)).length : Int)
  else
    let length := (Nat.toDigits 10 (denominator / numerator)).length
    if numerator * tenTo (length - 1) < denominator then 1 - (length : Int) else 2 - (length : Int)

def decimalNeighbours (numerator denominator count : Nat) : List (Nat × Int) :=
  let exponent := leadingPlace numerator denominator - count
  let (top, bottom) :=
    if 0 ≤ exponent then (numerator, denominator * tenTo exponent.toNat)
    else (numerator * tenTo (-exponent).toNat, denominator)
  let below := top / bottom
  let rest := top % bottom
  if 2 * rest < bottom || (2 * rest = bottom && below % 2 = 0) then
    [(below, exponent), (below + 1, exponent)]
  else [(below + 1, exponent), (below, exponent)]

/-- Digits and exponent of the shortest decimal that reads back, the nearest of those. Seventeen
digits always do. -/
def shortest (x : Binary64) : Nat × Int :=
  let (numerator, denominator) := x.quotient
  if numerator = 0 then (0, 0)
  else
    let candidates := (List.range 17).flatMap fun count =>
      decimalNeighbours numerator denominator (count + 1)
    (candidates.find? fun (digits, exponent) =>
      (ofDecimal false digits exponent).bits.toNat = x.magnitude).getD (0, 0)

def trimZeros (digits : List Char) (exponent : Int) : List Char × Int :=
  let kept := (digits.reverse.dropWhile (· == '0')).reverse
  (kept, exponent + (digits.length - kept.length : Nat))

structure Layout where
  /-- The decimal point may stand this far to the right of the first digit. -/
  widest : Int
  /-- The decimal point may stand this far to the left of the first digit. -/
  narrowest : Int
  exponentSign : Bool
  exponentWidth : Nat

/-- `1e+16`, `1e-05`, `0.0001`: the layout of numbers in messages and log lines. -/
def messageLayout : Layout := ⟨16, -3, true, 2⟩

/-- `1e16`, `1e-6`, `0.00001`: the layout of numbers in an index file. -/
def indexLayout : Layout := ⟨16, -4, false, 1⟩

def exponentText (layout : Layout) (exponent : Int) : List Char :=
  let digits := Nat.toDigits 10 exponent.natAbs
  let padding := List.replicate (layout.exponentWidth - digits.length) '0'
  'e' :: (if exponent < 0 then ['-'] else if layout.exponentSign then ['+'] else []) ++
    padding ++ digits

def render (layout : Layout) (x : Binary64) : String :=
  let (value, scale) := x.shortest
  let (digits, exponent) :=
    if value = 0 then (['0'], (0 : Int)) else trimZeros (Nat.toDigits 10 value) scale
  let point : Int := digits.length + exponent
  let body :=
    if 0 ≤ exponent && point ≤ layout.widest then
      digits ++ List.replicate exponent.toNat '0' ++ ['.', '0']
    else if 0 < point && point ≤ layout.widest then
      digits.take point.toNat ++ '.' :: digits.drop point.toNat
    else if layout.narrowest ≤ point && point ≤ 0 then
      '0' :: '.' :: List.replicate (-point).toNat '0' ++ digits
    else
      match digits with
      | [] => []
      | [digit] => digit :: exponentText layout (point - 1)
      | digit :: rest => digit :: '.' :: rest ++ exponentText layout (point - 1)
  String.ofList (if x.isNegative then '-' :: body else body)

end ConfigIndex.Binary64
