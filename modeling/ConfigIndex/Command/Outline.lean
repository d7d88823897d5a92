import ConfigIndex.Command.Gather

/-!
An outline of a single source: what it declares and where, without documentation or references.
-/

namespace ConfigIndex.Command

def NamedSection.outline (declared : NamedSection) : Data :=
  .record [("name", .text declared.name), ("location", declared.location.toData)]

def TypedSection.outline (declared : TypedSection) : Data :=
  .record [("type", .text declared.type), ("name", .text declared.name),
    ("location", declared.location.toData)]

def outlineData (index : Index) (tree : Option Document.File) : Data :=
  .record [("variables", .list (index.inputVariables.map NamedSection.outline)),
    ("resources", .list (index.resources.map TypedSection.outline)),
    ("outputs", .list (index.outputs.map NamedSection.outline)),
    ("rawAst", (tree.map Document.File.toData).getD .null)]

def outlineFile (path : String) (keepTree : Bool) (file : Document.File) : Outcome :=
  let progress := ({} : Index).collectFile {} path file
  let logged := progress.events.map Action.log
  match progress.oversized with
  | some digits => .crashed logged (.oversized digits)
  | none =>
    let outline := outlineData progress.index (if keepTree then some file else none)
    .ended (logged ++ [.say .stdout (outline.toJson .dump ++ "\n")]) 0

def outline (world : World) (path : String) (keepTree : Bool) : Outcome :=
  match world.source false path with
  | .error .unnameable => .crashed [] .unnameable
  | .error (.unreadable path obstacle) => .ended [unreadable path obstacle] 1
  | .ok content =>
    match Document.parseBytes content.data.toList with
    | .error error => .ended [unparsable path error.message] 2
    | .ok file => outlineFile path keepTree file

end ConfigIndex.Command
