import ConfigIndex.Data.Value

/-!
When two values are equal: numbers by what they count, truth values as 0 and 1 among them, records
whatever the order of their fields.
-/

namespace ConfigIndex.Data

inductive Quantity
  | whole (value : Int)
  | broken (value : Binary64)
  | notNumber
deriving DecidableEq

def quantity? : Data → Option Quantity
  | .bool value => some (.whole (if value then 1 else 0))
  | .int value => some (.whole value)
  | .float value =>
    if value.isNan then some .notNumber
    else match value.toInt? with
      | some whole => some (.whole whole)
      | none => some (.broken value)
  | _ => none

mutual

def same : Data → Data → Bool
  | .null, .null => true
  | .text left, .text right | .unpaired left, .unpaired right => left == right
  | .list left, .list right => sameItems left right
  | .record left, .record right => left.length == right.length && sameFields left right
  | left, right =>
    match left.quantity?, right.quantity? with
    | some .notNumber, _ => false
    | some left, some right => left = right
    | _, _ => false

def sameItems : List Data → List Data → Bool
  | [], [] => true
  | left :: lefts, right :: rights => same left right && sameItems lefts rights
  | _, _ => false

def sameFields : List (String × Data) → List (String × Data) → Bool
  | [], _ => true
  | (key, left) :: lefts, rights =>
    (match Fields.get? rights key with
      | some right => same left right
      | none => false) && sameFields lefts rights

end

end ConfigIndex.Data
