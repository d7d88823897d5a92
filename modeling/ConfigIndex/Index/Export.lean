import ConfigIndex.Data.Json
import ConfigIndex.Document.Export
import ConfigIndex.Index.Model

/-!
An index as a value and as JSON text.
-/

namespace ConfigIndex

def NamedSection.toData (declared : NamedSection) : Data :=
  .record [("name", .text declared.name), ("location", declared.location.toData),
    ("documentation", .list (declared.documentation.map .text))]

def TypedSection.toData (declared : TypedSection) : Data :=
  .record [("type", .text declared.type), ("name", .text declared.name),
    ("location", declared.location.toData),
    ("documentation", .list (declared.documentation.map .text))]

def Reference.toData (reference : Reference) : Data :=
  .record [("name", .text reference.name), ("type", .text reference.kind),
    ("path", (reference.path.map Data.text).getD .null),
    ("locations", .list (reference.locations.map Position.toData))]

def Problem.toData (problem : Problem) : Data :=
  .record [("message", .text problem.message), ("location", problem.location.toData)]

def RawTree.toData : RawTree → Data
  | .document file => file.toData
  | .data value => value

namespace Index

def toData (index : Index) : Data :=
  let tree := match index.rawTree with
    | none => []
    | some tree => [("rawAst", tree.toData)]
  .record ([("version", .text index.version),
    ("errors", .list (index.problems.map Problem.toData)),
    ("variables", .list (index.inputVariables.map NamedSection.toData)),
    ("defaultProviders", .list (index.defaultProviders.map NamedSection.toData)),
    ("providers", .list (index.providers.map TypedSection.toData)),
    ("resources", .list (index.resources.map TypedSection.toData)),
    ("dataResources", .list (index.dataResources.map TypedSection.toData)),
    ("modules", .list (index.modules.map NamedSection.toData)),
    ("outputs", .list (index.outputs.map NamedSection.toData)),
    ("references", .record (index.references.map fun (name, entry) => (name, entry.toData)))]
      ++ tree)

def depthLimit : Nat := 255

def isWritable (index : Index) : Bool :=
  match index.rawTree with
  | none => true
  | some tree => tree.toData.depth < depthLimit

def style : Option Nat → Data.JsonStyle
  | none => .compact
  | some indent => .pretty indent

def toJson? (index : Index) (indent : Option Nat) : Option String :=
  if index.isWritable then some (index.toData.toJson (style indent)) else none

/-- The text is that of the serialiser in use; versions of it differ in how they name the limit. -/
def unwritableMessage : String :=
  "Error serializing to JSON: ValueError: Maximum serialization depth exceeded"

end Index

end ConfigIndex
