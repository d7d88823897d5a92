import ConfigIndex.Data.Value
import ConfigIndex.Number.Shortest
import ConfigIndex.Text.Quoted

/-!
Values as messages and log lines show them: `None`, `True`, `[1, 'a']`, `{'k': 1.5}`. Values that
nest too deep are not shown, and neither are those with a whole number of too many digits in them.
-/

namespace ConfigIndex.Data

def plainFloat (x : Binary64) : String :=
  if x.isNan then "nan"
  else if x.isInfinite then (if x.isNegative then "-inf" else "inf")
  else x.render Binary64.messageLayout

mutual

def plain : Data → String
  | .null => "None"
  | .bool true => "True"
  | .bool false => "False"
  | .int value => toString value
  | .float value => plainFloat value
  | .text value | .unpaired value => Text.quoted value
  | .list items => "[" ++ ", ".intercalate (plainItems items) ++ "]"
  | .record fields => "\x7b" ++ ", ".intercalate (plainFields fields) ++ "\x7d"

def plainItems : List Data → List String
  | [] => []
  | item :: rest => item.plain :: plainItems rest

def plainFields : List (String × Data) → List String
  | [] => []
  | (key, value) :: rest => (Text.quoted key ++ ": " ++ value.plain) :: plainFields rest

end

def display : Data → String
  | .text value | .unpaired value => value
  | other => other.plain

def maxShownDigits : Nat := 4300

inductive Unshown
  | oversized
  | tooDeep
deriving DecidableEq, Repr

def tooDeepMessage (work : String) : String := "maximum recursion depth exceeded" ++ work

def Unshown.message : Unshown → String
  | oversized =>
    "Exceeds the limit (4300 digits) for integer string conversion; " ++
      "use sys.set_int_max_str_digits() to increase the limit"
  | tooDeep => tooDeepMessage " while getting the repr of an object"

mutual

/-- What the showing of a value breaks off at first, if the calls for its parts may stand so deep
inside one another. -/
def unshown? (calls : Nat) (value : Data) : Option Unshown :=
  match calls, value with
  | 0, _ => some .tooDeep
  | _ + 1, .int value => if value.natAbs < tenTo maxShownDigits then none else some .oversized
  | calls + 1, .list items => unshownItem? calls items
  | calls + 1, .record fields => unshownField? calls fields
  | _ + 1, _ => none

def unshownItem? (calls : Nat) : List Data → Option Unshown
  | [] => none
  | item :: rest => (unshown? calls item).or (unshownItem? calls rest)

def unshownField? (calls : Nat) : List (String × Data) → Option Unshown
  | [] => none
  | (_, value) :: rest => (unshown? calls value).or (unshownField? calls rest)

end

end ConfigIndex.Data
