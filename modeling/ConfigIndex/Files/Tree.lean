import ConfigIndex.Files.Path
import ConfigIndex.Text.Quoted

/-!
A tree of files and folders, and finding one's way in it. Going up from the root stays there.
-/

namespace ConfigIndex

inductive Obstacle
  | missing
  | noReader
  | denied
  | notFolder
  | isFolder
  | nameTooLong
deriving DecidableEq, Repr

namespace Obstacle

/-- Whether the obstacle tells that nothing is there. -/
def isAbsence : Obstacle → Bool
  | missing | notFolder => true
  | _ => false

def number : Obstacle → Nat
  | missing => 2
  | noReader => 6
  | denied => 13
  | notFolder => 20
  | isFolder => 21
  | nameTooLong => 36

def text : Obstacle → String
  | missing => "No such file or directory"
  | noReader => "No such device or address"
  | denied => "Permission denied"
  | notFolder => "Not a directory"
  | isFolder => "Is a directory"
  | nameTooLong => "File name too long"

def message (obstacle : Obstacle) (path : String) : String :=
  "[Errno " ++ toString obstacle.number ++ "] " ++ obstacle.text ++ ": " ++ Text.quoted path

end Obstacle

inductive Entry
  | file (content : ByteArray)
  | folder (entries : List (String × Entry))
  /-- A file that may not be opened. -/
  | sealed (size : Nat)
  /-- A folder that may not be looked into, so that nothing is known of what is there. -/
  | shut
  /-- A pipe, a socket or a device, with what comes of reading it. -/
  | special (content : Except Obstacle ByteArray)
deriving Inhabited

def maxNameBytes : Nat := 255

def maxPathBytes : Nat := 4095

namespace Entry

def isFolder : Entry → Bool
  | folder _ | shut => true
  | _ => false

/-- How large a file is. -/
def size? : Entry → Option Nat
  | file content => some content.size
  | sealed size => some size
  | _ => none

def content : Entry → Except Obstacle ByteArray
  | file content => .ok content
  | folder _ => .error .isFolder
  | sealed _ | shut => .error .denied
  | special content => content

/-- The entry that a row of names leads to. The folders above are innermost first. -/
def walk (above : List Entry) (here : Entry) : List String → Except Obstacle Entry
  | [] => .ok here
  | name :: rest =>
    match here with
    | .file _ | .sealed _ | .special _ => .error .notFolder
    | .shut => .error .denied
    | .folder entries =>
      if name == ".." then
        match above with
        | [] => walk [] here rest
        | up :: above => walk above up rest
      else if maxNameBytes < name.utf8ByteSize then .error .nameTooLong
      else match entries.find? (·.1 == name) with
        | none => .error .missing
        | some (_, entry) => walk (here :: above) entry rest

mutual

def beneath : Entry → List (List String × Entry)
  | folder entries => ([], folder entries) :: beneathIn entries
  | other => [([], other)]

def beneathIn : List (String × Entry) → List (List String × Entry)
  | [] => []
  | (name, entry) :: rest =>
    entry.beneath.map (fun (names, found) => (name :: names, found)) ++ beneathIn rest

end

def update (name : String) (change : Option Entry → Entry) :
    List (String × Entry) → List (String × Entry)
  | [] => [(name, change none)]
  | (other, entry) :: rest =>
    if other == name then (other, change (some entry)) :: rest
    else (other, entry) :: update name change rest

/-- Changes what stands at the end of a row of names, with the folders on the way made where they
are missing. Anything else on the way ends the way, and nothing changes. -/
def alter (change : Option Entry → Entry) :
    List String → List (String × Entry) → List (String × Entry)
  | [], entries => entries
  | [name], entries => update name change entries
  | name :: rest, entries =>
    update name (fun
      | none => .folder (alter change rest [])
      | some (.folder inner) => .folder (alter change rest inner)
      | some other => other) entries

def extended (bytes : ByteArray) : Option Entry → Entry
  | none => .file bytes
  | some (.file content) => .file (content ++ bytes)
  | some other => other

/-- Writes on a file that is there; all else stays as it is. -/
def grow (bytes : ByteArray) : List String → Entry → Entry
  | [], .file content => .file (content ++ bytes)
  | name :: rest, .folder entries =>
    .folder (entries.map fun (other, entry) =>
      (other, if other == name then grow bytes rest entry else entry))
  | _, entry => entry

def orFolder (entry : Option Entry) : Entry := entry.getD (.folder [])

end Entry

/-- Files and folders, with the folder that relative paths start from. -/
structure FileSystem where
  root : List (String × Entry) := []
  here : Path := ⟨1, []⟩

namespace FileSystem

def find (system : FileSystem) (path : Path) : Except Obstacle Entry :=
  if maxPathBytes < path.text.utf8ByteSize then .error .nameTooLong
  else Entry.walk [] (.folder system.root) (path.from' system.here).parts

def read (system : FileSystem) (path : Path) : Except Obstacle ByteArray :=
  (system.find path).bind Entry.content

def names (system : FileSystem) (path : Path) : List String :=
  (path.from' system.here).parts.foldl
    (fun names name => if name == ".." then names.dropLast else names ++ [name]) []

def alter (system : FileSystem) (path : Path) (change : Option Entry → Entry) : FileSystem :=
  { system with root := Entry.alter change (system.names path) system.root }

def addFolder (system : FileSystem) (path : Path) : FileSystem := system.alter path Entry.orFolder

def append (system : FileSystem) (path : Path) (bytes : ByteArray) : FileSystem :=
  system.alter path (Entry.extended bytes)

def grow (system : FileSystem) (path : Path) (bytes : ByteArray) : FileSystem :=
  match Entry.grow bytes (system.names path) (.folder system.root) with
  | .folder entries => { system with root := entries }
  | _ => system

end FileSystem

end ConfigIndex
