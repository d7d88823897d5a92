import ConfigIndex.Text.Digit

/-!
Scalars that spell a day, perhaps with a time. One that no calendar or clock has cannot be built.
-/

namespace ConfigIndex.Yaml

structure Timestamp where
  year : Nat
  month : Nat
  day : Nat
  hour : Nat := 0
  minute : Nat := 0
  second : Nat := 0
  /-- In minutes. -/
  offset : Int := 0

namespace Timestamp

def digits? (least most : Nat) (text : List Char) : Option (Nat × List Char) :=
  let digits := (text.take most).takeWhile Char.isDigit
  if least ≤ digits.length then some (Text.decimalValue digits, text.drop digits.length) else none

def isGap (c : Char) : Bool := c = ' ' || c = '\t'

def ofDay? (text : List Char) : Option (Timestamp × List Char) := do
  let (year, '-' :: rest) ← digits? 4 4 text | none
  let (month, '-' :: rest) ← digits? 1 2 rest | none
  let (day, rest) ← digits? 1 2 rest
  return ({ year, month, day }, rest)

def offset? : List Char → Option Int
  | [] => some 0
  | ['Z'] => some 0
  | sign :: rest => do
    let (hours, rest) ← if sign = '+' || sign = '-' then digits? 1 2 rest else none
    let (minutes, []) ← (match rest with
      | ':' :: rest => digits? 2 2 rest
      | _ => some (0, rest)) | none
    let total : Int := hours * 60 + minutes
    return if sign = '-' then -total else total

/-- A day alone has two digits for its month and two for itself. -/
def ofText? (text : List Char) : Option Timestamp := do
  let (date, rest) ← ofDay? text
  let clock ← match rest with
    | [] => if text.length = 10 then return date else none
    | 'T' :: clock | 't' :: clock => some clock
    | gap :: clock => if isGap gap then some (clock.dropWhile isGap) else none
  let (hour, ':' :: rest) ← digits? 1 2 clock | none
  let (minute, ':' :: rest) ← digits? 2 2 rest | none
  let (second, rest) ← digits? 2 2 rest
  let zone := match rest with
    | '.' :: fraction => fraction.dropWhile Char.isDigit
    | _ => rest
  let offset ← offset? (zone.dropWhile isGap)
  return { date with hour, minute, second, offset }

def lastDay (year month : Nat) : Nat :=
  if month = 2 then
    if year % 4 = 0 && (year % 100 ≠ 0 || year % 400 = 0) then 29 else 28
  else if month ∈ [4, 6, 9, 11] then 30 else 31

def minutesPerDay : Nat := 24 * 60

def offsetMessage (offset : Int) : String :=
  let seconds := offset % minutesPerDay * 60
  "offset must be a timedelta strictly between -timedelta(hours=24) and timedelta(hours=24), " ++
    "not datetime.timedelta(days=" ++ toString (offset / minutesPerDay) ++
    (if seconds = 0 then "" else ", seconds=" ++ toString seconds) ++ ")."

def fault? (timestamp : Timestamp) : Option String :=
  if minutesPerDay ≤ timestamp.offset.natAbs then some (offsetMessage timestamp.offset)
  else if timestamp.year = 0 then some "year 0 is out of range"
  else if timestamp.month = 0 || 12 < timestamp.month then some "month must be in 1..12"
  else if timestamp.day = 0 || lastDay timestamp.year timestamp.month < timestamp.day then
    some "day is out of range for month"
  else if 23 < timestamp.hour then some "hour must be in 0..23"
  else if 59 < timestamp.minute then some "minute must be in 0..59"
  else if 59 < timestamp.second then some "second must be in 0..59"
  else none

end Timestamp

end ConfigIndex.Yaml
