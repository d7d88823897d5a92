/-!
File paths as text and as parts. Single dots, doubled slashes and slashes at the end carry no
meaning and are dropped; double dots are kept.
-/

namespace ConfigIndex

/-- A path: how many slashes it starts with (none, one, or exactly two) and the names between
slashes. -/
structure Path where
  slashes : Nat := 0
  parts : List String := []
deriving DecidableEq, Repr, Inhabited

namespace Path

def splitSlashes : List Char → List (List Char)
  | [] => [[]]
  | c :: rest =>
    match splitSlashes rest with
    | [] => [[c]]
    | part :: parts => if c = '/' then [] :: part :: parts else (c :: part) :: parts

def rootOf (text : List Char) : Nat :=
  match (text.takeWhile (· = '/')).length with
  | 0 => 0
  | 2 => 2
  | _ => 1

def isNamed (part : List Char) : Bool := part ≠ [] && part ≠ ['.']

def ofText (text : String) : Path :=
  ⟨rootOf text.toList, ((splitSlashes text.toList).filter isNamed).map String.ofList⟩

def text (path : Path) : String :=
  if path.slashes = 0 && path.parts.isEmpty then "."
  else String.ofList (List.replicate path.slashes '/') ++ "/".intercalate path.parts

def isAbsolute (path : Path) : Bool := path.slashes ≠ 0

def child (path : Path) (name : String) : Path := { path with parts := path.parts ++ [name] }

def from' (path folder : Path) : Path :=
  if path.isAbsolute then path else { folder with parts := folder.parts ++ path.parts }

def parent (path : Path) : Path := { path with parts := path.parts.dropLast }

/-- The end of a name from its last point on. The point neither starts nor ends the name. -/
def suffixOf (name : String) : String :=
  let ending := (name.toList.reverse.takeWhile (· ≠ '.')).reverse
  let stem := name.toList.length - ending.length
  if ending.isEmpty || stem ≤ 1 then "" else String.ofList ('.' :: ending)

def isUnnameable (path : Path) : Bool := path.parts.head?.any (·.toList.contains '\x00')

end Path

structure Homes where
  /-- The home directory of the one who runs the program. -/
  own : Option String := none
  others : List (String × String) := []

namespace Homes

def find? (homes : Homes) (name : String) : Option String :=
  if name.isEmpty then homes.own else (homes.others.find? (·.1 == name)).map (·.2)

/-- The homes in a list of accounts: one account to a line, fields between colons, the name first
and the home sixth. -/
def ofAccounts (text : String) : List (String × String) :=
  (text.splitOn "\n").filterMap fun line =>
    match line.splitOn ":" with
    | name :: _ :: _ :: _ :: _ :: home :: _ => some (name, home)
    | _ => none

end Homes

/-- Replaces a tilde at the start, alone or with a name, by the home directory that it stands for;
nothing if there is none. -/
def Path.expandHome? (homes : Homes) (path : Path) : Option Path :=
  match path.slashes, path.parts with
  | 0, first :: rest =>
    match first.toList with
    | '~' :: name =>
      match homes.find? (String.ofList name) with
      | none => none
      | some home =>
        if home.startsWith "~" then none
        else
          let start := if home.toList.all (· = '/') then Path.ofText "/" else Path.ofText home
          some { start with parts := start.parts ++ rest }
    | _ => some path
  | _, _ => some path

end ConfigIndex
