import ConfigIndex.Files.Tree
import ConfigIndex.Log.Event
import ConfigIndex.Settings.Model
import ConfigIndex.Text.Lower

/-!
The source files that paths stand for. A folder stands for the files below it that have one of the
extensions looked for, in the order of their paths; other paths stand for themselves.
-/

namespace ConfigIndex

def standardInput : String := "-"

def skippedFolders : List String := [".terraform", ".git"]

def namesLe : List String → List String → Bool
  | [], _ => true
  | _ :: _, [] => false
  | left :: lefts, right :: rights =>
    if left = right then namesLe lefts rights else decide (left < right)

def isSkipped (names : List String) : Bool := names.dropLast.any skippedFolders.contains

def Entry.candidates (entry : Entry) : List (List String × Entry) :=
  entry.beneath.mergeSort fun left right => namesLe left.1 right.1

def IndexSettings.wants (settings : IndexSettings) (names : List String) : Bool :=
  !isSkipped names &&
    settings.extensions.contains (Text.lower (Path.suffixOf (names.getLast?.getD "")))

def IndexSettings.maxBytes (settings : IndexSettings) : Nat := settings.maxMegabytes * 1024 * 1024

def Path.extend (path : Path) (names : List String) : Path :=
  { path with parts := path.parts ++ names }

def Path.isTooLong (path : Path) : Bool := maxPathBytes < path.text.utf8ByteSize

/-- The first folder below a folder whose path is too long for it to be looked into. All folders
are, those that are skipped too. -/
def Entry.overlong? (entry : Entry) (folder : Path) : Option Path :=
  ((entry.beneath.filter (·.2.isFolder)).map fun (names, _) => folder.extend names).find?
    Path.isTooLong

/-- A path that the system was asked about, and did not say what is there. -/
structure Refusal where
  path : String
  obstacle : Obstacle
deriving DecidableEq, Repr

/-- The paths that some paths stand for, and what was logged on the way. A refusal ends it all. -/
structure Expansion where
  paths : List String := []
  events : List Event := []
  refusal : Option Refusal := none

namespace Expansion

def append (left right : Expansion) : Expansion :=
  if left.refusal.isSome then left
  else ⟨left.paths ++ right.paths, left.events ++ right.events, right.refusal⟩

def ofFile (settings : IndexSettings) (folder : Path) (names : List String) (size : Nat) :
    Expansion :=
  let path := (folder.extend names).text
  if settings.maxBytes < size then
    { events := [⟨.warning, "source.too_large",
        [("path", .text path), ("size", .int size), ("limit", .int settings.maxBytes)]⟩] }
  else { paths := [path] }

/-- What comes of something in a folder. The system is asked about it unless it is skipped. -/
def ofCandidate (settings : IndexSettings) (folder : Path) (candidate : List String × Entry) :
    Expansion :=
  let names := candidate.1
  if isSkipped names then {}
  else if (folder.extend names).isTooLong then
    { refusal := some ⟨(folder.extend names).text, .nameTooLong⟩ }
  else match candidate.2.size? with
    | none => {}
    | some size => if settings.wants names then ofFile settings folder names size else {}

def ofFolder (settings : IndexSettings) (folder : Path) (entry : Entry) : Expansion :=
  match entry.overlong? folder with
  | some path => { refusal := some ⟨path.text, .nameTooLong⟩ }
  | none => (entry.candidates.map (ofCandidate settings folder)).foldl append {}

def ofPath (system : FileSystem) (settings : IndexSettings) (given : String) : Expansion :=
  if given == standardInput || given.toList.contains '\x00' then { paths := [given] }
  else
    let path := Path.ofText given
    match system.find path with
    | .ok entry => if entry.isFolder then ofFolder settings path entry else { paths := [given] }
    | .error obstacle =>
      if obstacle.isAbsence then { paths := [given] } else { refusal := some ⟨path.text, obstacle⟩ }

def ofPaths (system : FileSystem) (settings : IndexSettings) (given : List String) : Expansion :=
  (given.map (ofPath system settings)).foldl append {}

end Expansion

inductive SourceFailure
  | unreadable (path : String) (obstacle : Obstacle)
  /-- A path that no system can hold. -/
  | unnameable
deriving DecidableEq, Repr

def FileSystem.source (system : FileSystem) (path : String) : Except SourceFailure ByteArray :=
  if path.toList.contains '\x00' then .error .unnameable
  else match system.read (Path.ofText path) with
    | .ok content => .ok content
    | .error obstacle => .error (.unreadable path obstacle)

end ConfigIndex
