import ConfigIndex.Data.Value

/-!
What can be wrong with a value that should have a fixed shape.
-/

namespace ConfigIndex

inductive Complaint
  | missing
  | notText
  /-- A text with half of a pair of code units alone in it. -/
  | notUnicode
  | notList
  | notArray
  /-- No mapping where the fields of a section are due. -/
  | notSection (name : String)
  | notObject
  | notDictionary
  | notBool
  | unclearBool
  | notInt
  | unclearInt
  | brokenInt
  | infiniteInt
  | hugeInt
  | notOneOf (choices : List String)
  | refused (reason : String)
  | unknownField
  | notJson
  /-- A path starts at a home directory that nobody knows. -/
  | homeless
deriving DecidableEq, Repr

namespace Complaint

def code : Complaint → String
  | missing => "missing"
  | notText => "string_type"
  | notUnicode => "string_unicode"
  | notList | notArray => "list_type"
  | notSection _ | notObject => "model_type"
  | notDictionary => "dict_type"
  | notBool => "bool_type"
  | unclearBool => "bool_parsing"
  | notInt => "int_type"
  | unclearInt => "int_parsing"
  | brokenInt => "int_from_float"
  | infiniteInt => "finite_number"
  | hugeInt => "int_parsing_size"
  | notOneOf _ => "literal_error"
  | refused _ => "value_error"
  | unknownField => "extra_forbidden"
  | notJson => "json_invalid"
  | homeless => "home_error"

def choiceText : List String → String
  | [] => ""
  | [choice] => "'" ++ choice ++ "'"
  | [first, last] => "'" ++ first ++ "' or '" ++ last ++ "'"
  | first :: rest => "'" ++ first ++ "', " ++ choiceText rest

def message : Complaint → String
  | missing => "Field required"
  | notText => "Input should be a valid string"
  | notUnicode => "Input should be a valid string, unable to parse raw data as a unicode string"
  | notList => "Input should be a valid list"
  | notArray => "Input should be a valid array"
  | notSection name => "Input should be a valid dictionary or instance of " ++ name
  | notObject | notDictionary => "Input should be an object"
  | notBool => "Input should be a valid boolean"
  | unclearBool => "Input should be a valid boolean, unable to interpret input"
  | notInt => "Input should be a valid integer"
  | unclearInt => "Input should be a valid integer, unable to parse string as an integer"
  | brokenInt => "Input should be a valid integer, got a number with a fractional part"
  | infiniteInt => "Input should be a finite number"
  | hugeInt => "Unable to parse input string as an integer, exceeded maximum size"
  | notOneOf choices => "Input should be " ++ choiceText choices
  | refused reason => "Value error, " ++ reason
  | unknownField => "Extra inputs are not permitted"
  | notJson => "Invalid JSON"
  | homeless => "Could not determine home directory."

end Complaint

/-- A complaint about a value, with the fields and places that lead to it. -/
structure Issue where
  path : List String
  complaint : Complaint
  input : Data

def Issue.under (step : String) (issue : Issue) : Issue := { issue with path := step :: issue.path }

abbrev Checked (α : Type) := Except (List Issue) α

namespace Checked

def fail {α : Type} (complaint : Complaint) (input : Data) : Checked α :=
  .error [⟨[], complaint, input⟩]

def about {α : Type} (input : Data) : Except Complaint α → Checked α
  | .ok value => .ok value
  | .error complaint => .fail complaint input

def under {α : Type} (step : String) : Checked α → Checked α
  | .ok value => .ok value
  | .error issues => .error (issues.map (Issue.under step))

def both {α β : Type} : Checked α → Checked β → Checked (α × β)
  | .ok left, .ok right => .ok (left, right)
  | .ok _, .error issues => .error issues
  | .error issues, .ok _ => .error issues
  | .error left, .error right => .error (left ++ right)

/-- Every value of a list, or the issues of all, each under its place from `start` on. -/
def each {α : Type} (check : Data → Checked α) (start : Nat) : List Data → Checked (List α)
  | [] => .ok []
  | item :: rest =>
    match both ((check item).under (toString start)) (each check (start + 1) rest) with
    | .ok (value, values) => .ok (value :: values)
    | .error issues => .error issues

end Checked

end ConfigIndex
