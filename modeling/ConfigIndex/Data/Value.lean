import ConfigIndex.Number.Binary64

/-!
Values without a fixed shape: what a settings file, an index file, an environment variable or a
log event may hold. A record keeps its fields in the order in which they were first set.
-/

namespace ConfigIndex

inductive Data
  | null
  | bool (value : Bool)
  | int (value : Int)
  | float (value : Binary64)
  | text (value : String)
  /-- Text with half of a pair of code units alone somewhere, which is `standIn` in the string. -/
  | unpaired (value : String)
  | list (items : List Data)
  | record (fields : List (String × Data))
deriving Inhabited

namespace Data

def standIn : Char := '\ufffd'

abbrev Fields := List (String × Data)

def Fields.get? (fields : Fields) (key : String) : Option Data :=
  (fields.find? (·.1 == key)).map (·.2)

def Fields.put (fields : Fields) (key : String) (value : Data) : Fields :=
  match fields with
  | [] => [(key, value)]
  | field :: rest =>
    if field.1 == key then (key, value) :: rest else field :: Fields.put rest key value

def Fields.ofList (entries : List (String × Data)) : Fields :=
  entries.foldl (fun fields entry => fields.put entry.1 entry.2) []

mutual

def depth : Data → Nat
  | .list items => 1 + depthOfItems items
  | .record fields => 1 + depthOfFields fields
  | _ => 0

def depthOfItems : List Data → Nat
  | [] => 0
  | item :: rest => max item.depth (depthOfItems rest)

def depthOfFields : List (String × Data) → Nat
  | [] => 0
  | (_, value) :: rest => max value.depth (depthOfFields rest)

end

end Data

end ConfigIndex
