import ConfigIndex.Index.Model
import ConfigIndex.Log.Event
import ConfigIndex.Template.Read

/-!
The references in the literals of a document. Each literal is read as a template that stands where
the literal does, and each variable that it reads refers to something declared elsewhere.
-/

namespace ConfigIndex

open Document (Token)

inductive Mention
  /-- A reference to a name, with what goes before and behind the name. -/
  | resolved (name kind : String) (path : Option String) (location : Position)
  /-- A reference too short to name anything. -/
  | unresolved (reference : String) (location : Position)
  /-- A literal that is no template. -/
  | malformed (message : String) (location : Position)
deriving DecidableEq, Repr

def kindOf (word : String) : String := if word == "var" then "variable" else word

def cutAtPoint (text : List Char) : List Char × Option (List Char) :=
  (text.takeWhile (· ≠ '.'), match text.dropWhile (· ≠ '.') with
    | [] => none
    | _ :: rest => some rest)

/-- A dotted reference: kind, name, and the path behind the name. -/
def mention (reference : String) (location : Position) : Mention :=
  match cutAtPoint reference.toList with
  | (_, none) => .unresolved reference location
  | (kind, some rest) =>
    let (name, path) := cutAtPoint rest
    .resolved (String.ofList name) (kindOf (String.ofList kind)) (path.map String.ofList) location

/-- What a literal mentions. A whole number with too many digits is not caught here. -/
def literalMentions (path : String) (token : Token) : Except Nat (List Mention) :=
  match Template.parseAt token.position.toPoint token.text with
  | .error (.oversized digits) => .error digits
  | .error (.faulty error) => .ok [.malformed error.message (error.point.filed path)]
  | .ok root => .ok (root.accesses.map fun (name, point) => mention name (point.filed path))

def Mention.event? : Mention → Option Event
  | .resolved _ _ _ _ => none
  | .unresolved reference location =>
    some ⟨.warning, "reference.unresolved",
      [("reference", .text reference), ("path", .text location.filename),
        ("line", .int location.line), ("column", .int location.column)]⟩
  | .malformed message location =>
    some ⟨.debug, "reference.parse_failed",
      [("path", .text location.filename), ("message", .text message),
        ("line", .int location.line)]⟩

namespace Index

/-- Records a mention. References that name nothing count as problems only under strict rules. -/
def addMention (strict : Bool) (index : Index) : Mention → Index
  | .resolved name kind path location => index.addReference name kind path location
  | .unresolved reference location =>
    if strict then index.addProblem ("Cannot understand reference " ++ reference) location
    else index
  | .malformed message location => index.addProblem message location

def addMentions (strict : Bool) (index : Index) (mentions : List Mention) : Index :=
  mentions.foldl (addMention strict) index

end Index

end ConfigIndex
