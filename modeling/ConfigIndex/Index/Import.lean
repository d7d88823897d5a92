import ConfigIndex.Data.Coerce
import ConfigIndex.Data.Field
import ConfigIndex.Data.JsonReader
import ConfigIndex.Data.Same
import ConfigIndex.Index.Model

/-!
Reading an index from JSON text. Fields may be missing where they have a default, unknown fields
are passed over, and everything that is wrong is reported at once.
-/

namespace ConfigIndex

open Data (Fields)

namespace Import

def object {α : Type} (check : Fields → Checked α) (value : Data) : Checked α :=
  match value with
  | .record fields => check fields
  | _ => .fail .notObject value

def array {α : Type} (check : Data → Checked α) (value : Data) : Checked (List α) :=
  match value with
  | .list items => Checked.each check 0 items
  | _ => .fail .notArray value

def position : Data → Checked Position :=
  object fun fields => do
    let (filename, offset, line, column) ←
      Checked.both (Checked.optional fields ["filename"] "" Data.toText)
        (Checked.both (Checked.optional fields ["offset"] 0 Data.toInt)
          (Checked.both (Checked.optional fields ["line"] 0 Data.toInt)
            (Checked.optional fields ["column"] 0 Data.toInt)))
    return ⟨filename, offset, line, column⟩

def location (fields : Fields) : Checked Position :=
  Checked.optional fields ["location"] {} position

def documentation (fields : Fields) : Checked (List String) :=
  Checked.optional fields ["documentation"] [] (array Data.toText)

def namedSection : Data → Checked NamedSection :=
  object fun fields => do
    let (name, location, documentation) ←
      Checked.both (Checked.required fields "name" Data.toText)
        (Checked.both (location fields) (documentation fields))
    return ⟨name, location, documentation⟩

def typedSection : Data → Checked TypedSection :=
  object fun fields => do
    let (type, name, location, documentation) ←
      Checked.both (Checked.required fields "type" Data.toText)
        (Checked.both (Checked.required fields "name" Data.toText)
          (Checked.both (location fields) (documentation fields)))
    return ⟨type, name, location, documentation⟩

def reference : Data → Checked Reference :=
  object fun fields => do
    let (name, kind, path, locations) ←
      Checked.both (Checked.required fields "name" Data.toText)
        (Checked.both (Checked.optional fields ["type"] "" Data.toText)
          (Checked.both (Checked.optional fields ["path"] none Data.toTextOrNull)
            (Checked.optional fields ["locations"] [] (array position))))
    return ⟨name, kind, path, locations⟩

def problem : Data → Checked Problem :=
  object fun fields => do
    let (message, location) ←
      Checked.both (Checked.required fields "message" Data.toText) (location fields)
    return ⟨message, location⟩

def entries {α : Type} (check : Data → Checked α) : Fields → Checked (List (String × α))
  | [] => .ok []
  | (name, value) :: rest =>
    match Checked.both ((check value).under name) (entries check rest) with
    | .ok (entry, others) => .ok ((name, entry) :: others)
    | .error issues => .error issues

def dictionary {α : Type} (check : Data → Checked α) (value : Data) :
    Checked (List (String × α)) :=
  match value with
  | .record fields => entries check fields
  | _ => .fail .notDictionary value

def rawTree (value : Data) : Checked (Option RawTree) :=
  match value with
  | .null => .ok none
  | value => .ok (some (.data value))

def index : Data → Checked Index :=
  object fun fields => do
    let sections {α : Type} (spellings : List String) (check : Data → Checked α) :=
      Checked.optional fields spellings [] (array check)
    let (version, problems, inputVariables, defaultProviders, providers, resources, dataResources,
        modules, outputs, references, rawTree) ←
      Checked.both (Checked.optional fields ["version"] indexVersion Data.toText)
        (Checked.both (sections ["errors"] problem)
        (Checked.both (sections ["variables"] namedSection)
        (Checked.both (sections ["defaultProviders", "default_providers"] namedSection)
        (Checked.both (sections ["providers"] typedSection)
        (Checked.both (sections ["resources"] typedSection)
        (Checked.both (sections ["dataResources", "data_resources"] typedSection)
        (Checked.both (sections ["modules"] namedSection)
        (Checked.both (sections ["outputs"] namedSection)
        (Checked.both (Checked.optional fields ["references"] [] (dictionary reference))
          (Checked.optional fields ["rawAst", "raw_ast"] none rawTree))))))))))
    return {
      version, problems, inputVariables, defaultProviders, providers, resources, dataResources,
      modules, outputs, references, rawTree }

def maxLevels : Nat := 200

def signWidth : Nat := 1

def rules : Data.JsonRules := { signWidth := signWidth }

end Import

namespace Index

def ofJson (text : String) : Checked Index :=
  match Data.ofJsonBy? Import.rules Import.maxLevels text.toList with
  | none => .fail .notJson .null
  | some value => Import.index value

end Index

/-- A parsed tree is never the same as one that was read from an index file. -/
def RawTree.same : RawTree → RawTree → Bool
  | .document left, .document right => left == right
  | .data left, .data right => left.same right
  | _, _ => false

namespace Index

def sameReferences (left right : List (String × Reference)) : Bool :=
  left.length == right.length &&
    left.all fun (name, entry) => (right.find? (·.1 == name)).any fun other => other.2 = entry

def same (left right : Index) : Bool :=
  left.version == right.version && left.problems = right.problems &&
    left.inputVariables = right.inputVariables && left.defaultProviders = right.defaultProviders &&
    left.providers = right.providers && left.resources = right.resources &&
    left.dataResources = right.dataResources && left.modules = right.modules &&
    left.outputs = right.outputs && sameReferences left.references right.references &&
    (match left.rawTree, right.rawTree with
      | none, none => true
      | some left, some right => left.same right
      | _, _ => false)

end Index

end ConfigIndex
