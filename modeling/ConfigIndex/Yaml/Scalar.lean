import ConfigIndex.Data.Value
import ConfigIndex.Text.Digit

/-!
What a scalar without quotes stands for: nothing, a truth value, a number, or else its own text.
-/

namespace ConfigIndex.Yaml

def nullWords : List String := ["", "~", "null", "Null", "NULL"]

def trueWords : List String :=
  ["yes", "Yes", "YES", "true", "True", "TRUE", "on", "On", "ON"]

def falseWords : List String :=
  ["no", "No", "NO", "false", "False", "FALSE", "off", "Off", "OFF"]

def signed (text : List Char) : Bool × List Char :=
  match text with
  | '-' :: rest => (true, rest)
  | '+' :: rest => (false, rest)
  | _ => (false, text)

def isDigitOrBar (c : Char) : Bool := c.isDigit || c = '_'

def baseValue (base : Nat) (digits : List Char) : Nat :=
  (digits.filter (· ≠ '_')).foldl (fun total c =>
    total * base + (if c.isDigit then c.toNat - 48 else (c.toLower.toNat - 87))) 0

def isHexOrBar (c : Char) : Bool :=
  isDigitOrBar c || ('a' ≤ c && c ≤ 'f') || ('A' ≤ c && c ≤ 'F')

def isOctalOrBar (c : Char) : Bool := ('0' ≤ c && c ≤ '7') || c = '_'

def isBinaryOrBar (c : Char) : Bool := c = '0' || c = '1' || c = '_'

def digitsOf? (base : Nat) (allowed : Char → Bool) (text : List Char) : Option Nat :=
  if text.all allowed && !text.isEmpty then some (baseValue base text) else none

/-- Groups of sixty behind colons, each of one or two digits below sixty. -/
def sixties? (total : Nat) : List Char → Option Nat
  | [] => some total
  | [':', a] => if a.isDigit then some (total * 60 + (a.toNat - 48)) else none
  | ':' :: a :: b :: rest =>
    if !a.isDigit then none
    else if b = ':' then sixties? (total * 60 + (a.toNat - 48)) (b :: rest)
    else if b.isDigit && a ≤ '5' then
      sixties? (total * 60 + ((a.toNat - 48) * 10 + (b.toNat - 48))) rest
    else none
  | _ => none

def whole? (text : List Char) : Option Nat :=
  match text with
  | ['0'] => some 0
  | '0' :: 'b' :: rest => digitsOf? 2 isBinaryOrBar rest
  | '0' :: 'x' :: rest => digitsOf? 16 isHexOrBar rest
  | '0' :: rest => if rest.all isOctalOrBar then some (baseValue 8 rest) else none
  | first :: _ =>
    if first.isDigit then
      let digits := text.takeWhile isDigitOrBar
      sixties? (baseValue 10 digits) (text.drop digits.length)
    else none
  | [] => none

def power? (text : List Char) : Option Int :=
  match text with
  | [] => some 0
  | e :: sign :: digits =>
    if (e = 'e' || e = 'E') && (sign = '-' || sign = '+') && !digits.isEmpty &&
        digits.all Char.isDigit then
      let value : Int := Text.decimalValue digits
      some (if sign = '-' then -value else value)
    else none
  | _ => none

def fractional? (negative : Bool) (text : List Char) : Option Binary64 :=
  let digits := text.takeWhile isDigitOrBar
  let rest := text.drop digits.length
  let groups := rest.takeWhile (· ≠ '.')
  match rest.drop groups.length with
  | '.' :: behind =>
    let fraction := behind.takeWhile isDigitOrBar
    let places := fraction.filter (· ≠ '_')
    let ending := behind.drop fraction.length
    let scaled (whole : Nat) (power : Int) : Binary64 :=
      .ofDecimal negative (whole * tenTo places.length + baseValue 10 places)
        (power - places.length)
    if digits.head?.any Char.isDigit then
      if groups.isEmpty then (power? ending).map (scaled (baseValue 10 digits))
      else if ending.isEmpty then
        (sixties? (baseValue 10 digits) groups).map fun whole => scaled whole 0
      else none
    else none
  | _ => none

def pointed? (text : List Char) : Option Binary64 :=
  match text with
  | '.' :: first :: _ =>
    let fraction := (text.drop 1).takeWhile isDigitOrBar
    let places := fraction.filter (· ≠ '_')
    if first.isDigit then
      (power? (text.drop (fraction.length + 1))).map fun power =>
        .ofDecimal false (baseValue 10 places) (power - places.length)
    else none
  | _ => none

def float? (text : List Char) : Option Binary64 :=
  let (negative, rest) := signed text
  if ["inf", "Inf", "INF"].any fun word => rest = '.' :: word.toList then
    some (.infinity negative)
  else if ["nan", "NaN", "NAN"].any fun word => text = '.' :: word.toList then some .nan
  else (fractional? negative rest).or (pointed? text)

def int? (text : List Char) : Option Int :=
  let (negative, rest) := signed text
  (whole? rest).map fun value => if negative then -(value : Int) else value

def plainValue (text : String) : Data :=
  if nullWords.contains text then .null
  else if trueWords.contains text then .bool true
  else if falseWords.contains text then .bool false
  else match float? text.toList, int? text.toList with
    | some value, _ => .float value
    | none, some value => .int value
    | none, none => .text text

end ConfigIndex.Yaml
