import ConfigIndex.Data.Issue
import ConfigIndex.Text.Blank
import ConfigIndex.Text.Digit

/-!
Reading simple values with some tolerance: numbers and truth values may be written as text, and
whole numbers as floating-point ones.
-/

namespace ConfigIndex.Data

def toText (value : Data) : Checked String :=
  match value with
  | .text content => .ok content
  | .unpaired _ => .fail .notUnicode value
  | _ => .fail .notText value

def toTextOrNull (value : Data) : Checked (Option String) :=
  match value with
  | .null => .ok none
  | .text content => .ok (some content)
  | .unpaired _ => .fail .notUnicode value
  | _ => .fail .notText value

def maxIntDigits : Nat := 4300

def plainInt? (text : List Char) : Except Complaint Int :=
  let digits := match text with
    | '-' :: rest => rest
    | _ => text
  if digits.isEmpty || !digits.all Char.isDigit ||
      (digits.head? = some '0' && digits.length ≠ 1) then
    .error .unclearInt
  else if maxIntDigits < digits.length then .error .hugeInt
  else
    let value : Int := Text.decimalValue digits
    .ok (if text.head? = some '-' then -value else value)

def dropLeadingZeros? (text : List Char) : Option (List Char) :=
  match text with
  | [] => none
  | first :: _ =>
    if first = '0' then
      match text.dropWhile fun c => c = '0' || c = '_' with
      | [] => text.getLast?.map ([·])
      | '.' :: rest => some ('0' :: '.' :: rest)
      | next :: rest => if next.isDigit then some (next :: rest) else none
    else if first.isDigit || first = '-' then some text
    else none

def dropZeroFraction (text : List Char) : List Char :=
  match text.dropWhile (· ≠ '.') with
  | _ :: fraction => if fraction.all (· = '0') then text.takeWhile (· ≠ '.') else text
  | [] => text

def dropUnderscores (text : List Char) : List Char :=
  let doubled := (text.zip (text.drop 1)).any fun (left, right) => left = '_' && right = '_'
  if text.head? = some '_' || text.getLast? = some '_' || doubled then text
  else text.filter (· ≠ '_')

/-- The whole number that a text writes: blanks around it, a plus sign, leading zeros, underscores
and a fraction of zeros are allowed. -/
def intOfText (text : List Char) : Except Complaint Int :=
  match plainInt? text with
  | .ok value => .ok value
  | .error .hugeInt => .error .hugeInt
  | .error _ =>
    let trimmed := match Text.trimBy Text.isWhite text with
      | '+' :: '-' :: rest => '+' :: '-' :: rest
      | '+' :: rest => rest
      | rest => rest
    match dropLeadingZeros? trimmed with
    | none => .error .unclearInt
    | some digits => plainInt? (dropUnderscores (dropZeroFraction digits))

def intOfFloat (value : Binary64) : Except Complaint Int :=
  if !value.isFinite then .error .infiniteInt
  else match value.toInt? with
    | some whole => if whole.natAbs < twoTo 63 then .ok whole else .error .hugeInt
    | none => .error .brokenInt

def readInt : Data → Except Complaint Int
  | .int value => .ok value
  | .bool value => .ok (if value then 1 else 0)
  | .float value => intOfFloat value
  | .text content => intOfText content.toList
  | .unpaired _ => .error .notUnicode
  | _ => .error .notInt

def toInt (value : Data) : Checked Int := .about value (readInt value)

def boolOfInt (value : Int) : Except Complaint Bool :=
  if value = 0 then .ok false else if value = 1 then .ok true else .error .unclearBool

def boolOfText (text : String) : Except Complaint Bool :=
  let word := text.toLower
  if ["0", "f", "n", "no", "off", "false"].contains word then .ok false
  else if ["1", "t", "y", "on", "yes", "true"].contains word then .ok true
  else .error .unclearBool

def readBool : Data → Except Complaint Bool
  | .bool value => .ok value
  | .text content => boolOfText content
  | .unpaired _ => .error .notUnicode
  | .int value => if value.natAbs < twoTo 63 then boolOfInt value else .error .notBool
  | .float value =>
    match intOfFloat value with
    | .ok whole => boolOfInt whole
    | .error _ => .error .notBool
  | _ => .error .notBool

def toBool (value : Data) : Checked Bool := .about value (readBool value)

end ConfigIndex.Data
