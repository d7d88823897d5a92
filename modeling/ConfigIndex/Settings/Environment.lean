import ConfigIndex.Data.JsonReader
import ConfigIndex.Data.Merge
import ConfigIndex.Text.Lower

/-!
Settings from environment variables. `TFINDEX__INDEX` gives the section `index` as JSON and
`TFINDEX__INDEX__EXTENSIONS` a field of it, in letters of either case. Fields that are lists are
given as JSON, all others as they are.
-/

namespace ConfigIndex

open Data (Fields)

abbrev Environment := List (String × String)

structure SectionNames where
  name : String
  fields : List String
  /-- The fields that are given as JSON. -/
  lists : List String

namespace SectionNames

def logging : SectionNames := ⟨"logging", ["level", "outputs"], ["outputs"]⟩

def index : SectionNames :=
  ⟨"index", ["include_raw_ast", "strict_references", "extensions", "max_file_size_mb"],
    ["extensions"]⟩

def variableName (names : SectionNames) : String := "tfindex__" ++ names.name

end SectionNames

namespace Environment

/-- Variables from a block of names and values with equals signs between, each ended by a NUL. -/
def ofBlock (text : String) : Environment :=
  (text.splitOn "\x00").filterMap fun entry =>
    match entry.splitOn "=" with
    | name :: value :: more => some (name, "=".intercalate (value :: more))
    | _ => none

def jsonRules : Data.JsonRules := { half? := some Data.standIn }

def json (levels : Nat) (text : String) : Except Data.JsonFault Data :=
  Data.ofJsonWithin jsonRules levels text.toList

/-- Why nothing is made of the variables: one of a section is no JSON where JSON is due, or its
JSON nests too deep. -/
inductive Fault
  | notJson (names : SectionNames)
  | tooDeep (isList : Bool)

def Fault.of (names : SectionNames) : Data.JsonFault → Fault
  | .malformed => .notJson names
  | .tooDeep isList => .tooDeep isList

def splitSteps : List Char → List (List Char)
  | [] => [[]]
  | '_' :: '_' :: rest => [] :: splitSteps rest
  | c :: rest =>
    match splitSteps rest with
    | [] => [[c]]
    | step :: steps => (c :: step) :: steps

/-- Names in small letters; of two that then agree the later one counts. -/
def lowered (environment : Environment) : Environment :=
  environment.foldl (fun all (name, value) =>
    let name := Text.lower name
    if all.any (·.1 == name) then
      all.map fun entry => if entry.1 == name then (name, value) else entry
    else all ++ [(name, value)]) []

def setAt (fields : Fields) (value : Data) : List String → Fields
  | [] => fields
  | [key] => fields.put key value
  | key :: rest =>
    match fields.get? key with
    | none => fields.put key (.record (setAt [] value rest))
    | some (.record inner) => fields.put key (.record (setAt inner value rest))
    | some _ => fields

def fieldValue (levels : Nat) (names : SectionNames) (steps : List String) (value : String) :
    Except Data.JsonFault Data :=
  match steps with
  | [field] =>
    if names.lists.contains field && !value.isEmpty then json levels value else .ok (.text value)
  | _ => .ok (.text value)

def stepsIn? (names : SectionNames) (variableName : String) : Option (List String) :=
  let start := (names.variableName ++ "__").toList
  if start.isPrefixOf variableName.toList then
    some ((splitSteps (variableName.toList.drop start.length)).map String.ofList)
  else none

def fieldsOf (levels : Nat) (names : SectionNames) (fields : Fields) :
    Environment → Except Data.JsonFault Fields
  | [] => .ok fields
  | (name, value) :: rest =>
    match stepsIn? names name with
    | none => fieldsOf levels names fields rest
    | some steps =>
      match fieldValue levels names steps value with
      | .error fault => .error fault
      | .ok value => fieldsOf levels names (setAt fields value steps) rest

def renamed (names : SectionNames) (fields : Fields) : Fields :=
  Fields.ofList (fields.map fun (key, value) =>
    ((names.fields.find? fun field => field == Text.lower key).getD key, value))

/-- What the variables say of a section, if they say anything. Fields with variables of their own go
over those of the whole section. -/
def sectionOf (levels : Nat) (environment : Environment) (names : SectionNames) :
    Except Data.JsonFault (Option Data) :=
  match environment.find? (·.1 == names.variableName) with
  | none =>
    match fieldsOf levels names [] environment with
    | .error fault => .error fault
    | .ok [] => .ok none
    | .ok fields => .ok (some (.record (renamed names fields)))
  | some (_, text) =>
    match json levels text with
    | .error fault => .error fault
    | .ok (.record fields) =>
      match fieldsOf levels names [] environment with
      | .error fault => .error fault
      | .ok own => .ok (some (.record (renamed names (Fields.merge fields own))))
    | .ok .null => .ok none
    | .ok value => .ok (some value)

/-- The mapping in the variable of a section, and the fields that go over it. -/
def layersOf? (levels : Nat) (environment : Environment) (names : SectionNames) :
    Option (Fields × Fields) :=
  match environment.find? (·.1 == names.variableName) with
  | none => none
  | some (_, text) =>
    match json levels text, fieldsOf levels names [] environment with
    | .ok (.record fields), .ok own => some (fields, own)
    | _, _ => none

def toFields (levels : Nat) (environment : Environment) : Except Fault Fields := do
  let environment := environment.lowered
  let logging ← (sectionOf levels environment .logging).mapError (Fault.of .logging)
  let index ← (sectionOf levels environment .index).mapError (Fault.of .index)
  return (logging.map (("logging", ·))).toList ++ (index.map (("index", ·))).toList

end Environment

end ConfigIndex
