import ConfigIndex.Document.Read
import ConfigIndex.Index.Declarations
import ConfigIndex.Index.References

/-!
Indexing a document: its declarations first, then the references in its literals, in the order of
the text. A document that cannot be read leaves one problem and nothing else.
-/

namespace ConfigIndex

open Document (File Token Content)

structure Rules where
  /-- Keep the tree of the last document. -/
  keepTree : Bool := false
  /-- Count references that name nothing as problems. -/
  strict : Bool := false
deriving DecidableEq, Repr

/-- An index after some work on it, with what was logged on the way. If the work broke off at a
whole number with too many digits, their count is given. -/
structure Progress where
  index : Index
  events : List Event := []
  oversized : Option Nat := none

def resolveAll (strict : Bool) (path : String) (index : Index) (events : List Event) :
    List Token → Progress
  | [] => { index := index, events := events }
  | token :: rest =>
    match literalMentions path token with
    | .error digits => { index := index, events := events, oversized := some digits }
    | .ok mentions =>
      resolveAll strict path (index.addMentions strict mentions)
        (events ++ mentions.filterMap Mention.event?) rest

namespace Index

def resolve (index : Index) (strict : Bool) (path : String) (token : Token) : Progress :=
  resolveAll strict path index [] [token]

def refer (index : Index) (strict : Bool) (reference : String) (location : Position) : Progress :=
  let mention := mention reference location
  { index := index.addMention strict mention, events := mention.event?.toList }

def collectFile (index : Index) (rules : Rules) (path : String) (file : File) : Progress :=
  let progress := resolveAll rules.strict path (index.classify path file.items)
    (classifyEvents path file.items) file.root.literals
  if rules.keepTree && progress.oversized.isNone then
    { progress with index := { progress.index with rawTree := some (.document file) } }
  else progress

def errorLocation (path : String) (error : Document.Error) : Position := error.position.filed path

/-- Reads and indexes a document; the error, if it cannot be read, is recorded and given back. -/
def collect (index : Index) (rules : Rules) (path : String) (content : Content) :
    Progress × Option Document.Error :=
  match content.parse with
  | .ok file => (index.collectFile rules path file, none)
  | .error error =>
    ({ index := index.addProblem error.message (errorLocation path error)
       events := [⟨.debug, "collect.parse_failed",
        [("path", .text path), ("message", .text error.message)]⟩] }, some error)

end Index

end ConfigIndex
