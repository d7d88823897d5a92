import ConfigIndex.Document.Tree

/-!
The index of a set of documents: what they declare, what they refer to, and what is wrong with
them, everything in the order in which it was found.
-/

namespace ConfigIndex

def indexVersion : String := "1.2.0"

structure NamedSection where
  name : String
  location : Position := {}
  documentation : List String := []
deriving DecidableEq, Repr

structure TypedSection where
  type : String
  name : String
  location : Position := {}
  documentation : List String := []
deriving DecidableEq, Repr

/-- Every place that refers to a name. Kind and path are those of the latest one. -/
structure Reference where
  name : String
  kind : String := ""
  path : Option String := none
  locations : List Position := []
deriving DecidableEq, Repr

structure Problem where
  message : String
  location : Position := {}
deriving DecidableEq, Repr

/-- A document tree kept in the index: as it was parsed, or as it was read from an index file. -/
inductive RawTree
  | document (file : Document.File)
  | data (value : Data)

structure Index where
  version : String := indexVersion
  problems : List Problem := []
  inputVariables : List NamedSection := []
  defaultProviders : List NamedSection := []
  providers : List TypedSection := []
  resources : List TypedSection := []
  dataResources : List TypedSection := []
  modules : List NamedSection := []
  outputs : List NamedSection := []
  /-- By name, in the order in which the names were first met. -/
  references : List (String × Reference) := []
  rawTree : Option RawTree := none

namespace Index

def reference? (index : Index) (name : String) : Option Reference :=
  (index.references.find? (·.1 == name)).map (·.2)

def extend (references : List (String × Reference)) (key : String) (added : Reference) :
    List (String × Reference) :=
  match references with
  | [] => [(key, added)]
  | (name, entry) :: rest =>
    if name == key then
      (name, { entry with
        kind := added.kind, path := added.path, locations := entry.locations ++ added.locations })
        :: rest
    else (name, entry) :: extend rest key added

def addReference (index : Index) (name kind : String) (path : Option String)
    (location : Position) : Index :=
  { index with references := extend index.references name ⟨name, kind, path, [location]⟩ }

def addProblem (index : Index) (message : String) (location : Position) : Index :=
  { index with problems := index.problems ++ [⟨message, location⟩] }

/-- Appends everything that another index has found. Its raw tree, if it has one, replaces the
present one. -/
def merge (index other : Index) : Index :=
  { index with
    problems := index.problems ++ other.problems
    inputVariables := index.inputVariables ++ other.inputVariables
    defaultProviders := index.defaultProviders ++ other.defaultProviders
    providers := index.providers ++ other.providers
    resources := index.resources ++ other.resources
    dataResources := index.dataResources ++ other.dataResources
    modules := index.modules ++ other.modules
    outputs := index.outputs ++ other.outputs
    references :=
      other.references.foldl (fun all entry => extend all entry.1 entry.2) index.references
    rawTree := other.rawTree.or index.rawTree }

end Index

end ConfigIndex
