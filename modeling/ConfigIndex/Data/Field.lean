import ConfigIndex.Data.Issue

/-!
Reading the fields of a record one by one.
-/

namespace ConfigIndex

def Data.Fields.spelled? (fields : Data.Fields) : List String → Option (String × Data)
  | [] => none
  | name :: rest =>
    match fields.get? name with
    | some value => some (name, value)
    | none => spelled? fields rest

namespace Checked

def optional {α : Type} (fields : Data.Fields) (spellings : List String) (standard : α)
    (check : Data → Checked α) : Checked α :=
  match fields.spelled? spellings with
  | none => .ok standard
  | some (name, value) => (check value).under name

def required {α : Type} (fields : Data.Fields) (name : String) (check : Data → Checked α) :
    Checked α :=
  match fields.get? name with
  | none => (Checked.fail .missing (.record fields)).under name
  | some value => (check value).under name

end Checked

end ConfigIndex
