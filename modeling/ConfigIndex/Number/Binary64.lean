/-!
Binary floating-point numbers of 64 bits, kept as their bits, and the number nearest to a decimal.
-/

namespace ConfigIndex

abbrev twoTo (exponent : Nat) : Nat := Nat.pow 2 exponent

abbrev tenTo (exponent : Nat) : Nat := Nat.pow 10 exponent

structure Binary64 where
  bits : UInt64
deriving DecidableEq, Repr, Inhabited

namespace Binary64

def signBit : Nat := twoTo 63

def infinityBits : Nat := 2047 * twoTo 52

def ofMagnitude (negative : Bool) (magnitude : Nat) : Binary64 :=
  ⟨UInt64.ofNat (if negative then signBit + magnitude else magnitude)⟩

def infinity (negative : Bool) : Binary64 := ofMagnitude negative infinityBits

def nan : Binary64 := ofMagnitude false (infinityBits + twoTo 51)

def roundDiv (numerator denominator : Nat) : Nat :=
  let quotient := numerator / denominator
  let twice := 2 * (numerator % denominator)
  if twice < denominator then quotient
  else if denominator < twice then quotient + 1
  else quotient + quotient % 2

/-- The exponent of the last bit kept of a positive quotient: 53 bits in all, fewer below the
smallest normal number. -/
def lastBit (numerator denominator : Nat) : Int :=
  let guess : Int := (numerator.log2 : Int) - denominator.log2 - 53
  let fits :=
    if 0 ≤ guess then numerator < twoTo 53 * (denominator * twoTo guess.toNat)
    else numerator * twoTo (-guess).toNat < twoTo 53 * denominator
  max (-1074) (if fits then guess else guess + 1)

def magnitudeOfQuotient (numerator denominator : Nat) : Nat :=
  let last := lastBit numerator denominator
  let mantissa :=
    if 0 ≤ last then roundDiv numerator (denominator * twoTo last.toNat)
    else roundDiv (numerator * twoTo (-last).toNat) denominator
  min infinityBits ((last + 1074).toNat * twoTo 52 + mantissa)

/-- The number nearest to `digits * 10 ^ exponent`. Exponents far outside the range are settled
at once, so that no power of ten gets larger than the digits ask for. -/
def ofDecimal (negative : Bool) (digits : Nat) (exponent : Int) : Binary64 :=
  if digits = 0 then ofMagnitude negative 0
  else if 400 < exponent then infinity negative
  else if exponent < -(digits.log2 : Int) - 401 then ofMagnitude negative 0
  else if 0 ≤ exponent then
    ofMagnitude negative (magnitudeOfQuotient (digits * tenTo exponent.toNat) 1)
  else ofMagnitude negative (magnitudeOfQuotient digits (tenTo (-exponent).toNat))

def isNegative (x : Binary64) : Bool := signBit ≤ x.bits.toNat

def magnitude (x : Binary64) : Nat := x.bits.toNat % signBit

def isNan (x : Binary64) : Bool := infinityBits < x.magnitude

def isInfinite (x : Binary64) : Bool := x.magnitude = infinityBits

def isFinite (x : Binary64) : Bool := x.magnitude < infinityBits

def mantissaExponent (x : Binary64) : Nat × Int :=
  let biased : Nat := x.magnitude / twoTo 52
  let fraction := x.magnitude % twoTo 52
  if biased = 0 then (fraction, -1074) else (twoTo 52 + fraction, (biased : Int) - 1075)

def quotient (x : Binary64) : Nat × Nat :=
  let (mantissa, exponent) := x.mantissaExponent
  if 0 ≤ exponent then (mantissa * twoTo exponent.toNat, 1)
  else (mantissa, twoTo (-exponent).toNat)

def toInt? (x : Binary64) : Option Int :=
  let (numerator, denominator) := x.quotient
  if x.isFinite && numerator % denominator = 0 then
    let whole := Int.ofNat (numerator / denominator)
    some (if x.isNegative then -whole else whole)
  else none

end Binary64

end ConfigIndex
