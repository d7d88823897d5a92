import ConfigIndex.Index.Model
import ConfigIndex.Log.Event

/-!
What the items at the top of a document declare. The first key names the kind of declaration; items
with another first key are none, and items with too few keys are skipped with a warning.
-/

namespace ConfigIndex

open Document (Item Token Node)

/-- The unquoted literal that the body of an item binds to a name. Only an object binds names, and
the first literal bound to one counts. -/
def Document.Item.property? (item : Item) (name : String) : Option String :=
  match item.value with
  | some (.object _ _ members) =>
    members.findSome? fun member =>
      match member.keys, member.value with
      | key :: _, some (.literal token) =>
        if key.unquoted == name then some token.unquoted else none
      | _, _ => none
  | _ => none

inductive Keyword
  | variable
  | resource
  | data
  | provider
  | module
  | output
deriving DecidableEq, Repr

namespace Keyword

def name : Keyword → String
  | .variable => "variable"
  | .resource => "resource"
  | .data => "data"
  | .provider => "provider"
  | .module => "module"
  | .output => "output"

def all : List Keyword := [.variable, .resource, .data, .provider, .module, .output]

def ofName? (name : String) : Option Keyword := all.find? fun keyword => keyword.name == name

end Keyword

inductive Declaration
  | variable (declared : NamedSection)
  | defaultProvider (declared : NamedSection)
  | provider (declared : TypedSection)
  | resource (declared : TypedSection)
  | dataResource (declared : TypedSection)
  | module (declared : NamedSection)
  | output (declared : NamedSection)
deriving DecidableEq, Repr

inductive Finding
  | declared (declaration : Declaration)
  /-- An item without keys. -/
  | keyless (position : Position)
  /-- A declaration without all its keys. -/
  | incomplete (keyword : String) (position : Position)
  | nothing
deriving DecidableEq, Repr

def Document.Item.documentation (item : Item) : List String :=
  (item.lead.map (·.text)).filter fun text => !text.isEmpty

def namedSection (path : String) (item : Item) (name : Token) : NamedSection :=
  ⟨name.unquoted, name.position.filed path, item.documentation⟩

def typedSection (path : String) (item : Item) (type name : Token) : TypedSection :=
  ⟨type.unquoted, name.unquoted, name.position.filed path, item.documentation⟩

/-- A provider with an alias is found at its type; one without is the default of its kind and goes
by the keyword. -/
def providerFinding (path : String) (item : Item) (first : Token) (rest : List Token) : Finding :=
  match item.property? "alias", rest with
  | none, _ => .declared (.defaultProvider (namedSection path item first))
  | some _, [] => .incomplete first.text first.position
  | some alias', type :: _ =>
    .declared (.provider
      ⟨type.unquoted, alias', type.position.filed path, item.documentation⟩)

def keywordFinding (path : String) (item : Item) (keyword : Keyword) (first : Token)
    (rest : List Token) : Finding :=
  match keyword, rest with
  | .variable, name :: _ => .declared (.variable (namedSection path item name))
  | .module, name :: _ => .declared (.module (namedSection path item name))
  | .output, name :: _ => .declared (.output (namedSection path item name))
  | .resource, type :: name :: _ => .declared (.resource (typedSection path item type name))
  | .data, type :: name :: _ => .declared (.dataResource (typedSection path item type name))
  | .provider, rest => providerFinding path item first rest
  | _, _ => .incomplete first.text first.position

def itemFinding (path : String) (item : Item) : Finding :=
  match item.keys with
  | [] => .keyless item.position
  | first :: rest =>
    if first.kind ≠ .ident then .nothing
    else match Keyword.ofName? first.text with
      | none => .nothing
      | some keyword => keywordFinding path item keyword first rest

def Finding.event? (path : String) : Finding → Option Event
  | .keyless position =>
    some ⟨.warning, "declaration.empty_keys",
      [("path", .text path), ("line", .int position.line), ("column", .int position.column)]⟩
  | .incomplete keyword position =>
    some ⟨.warning, "declaration.missing_keys",
      [("keyword", .text keyword), ("path", .text path), ("line", .int position.line),
        ("column", .int position.column)]⟩
  | _ => none

namespace Index

def declare (index : Index) : Declaration → Index
  | .variable declared => { index with inputVariables := index.inputVariables ++ [declared] }
  | .defaultProvider declared =>
    { index with defaultProviders := index.defaultProviders ++ [declared] }
  | .provider declared => { index with providers := index.providers ++ [declared] }
  | .resource declared => { index with resources := index.resources ++ [declared] }
  | .dataResource declared => { index with dataResources := index.dataResources ++ [declared] }
  | .module declared => { index with modules := index.modules ++ [declared] }
  | .output declared => { index with outputs := index.outputs ++ [declared] }

def addFinding (index : Index) : Finding → Index
  | .declared declaration => index.declare declaration
  | _ => index

def classify (index : Index) (path : String) (items : List Item) : Index :=
  (items.map (itemFinding path)).foldl addFinding index

end Index

def classifyEvents (path : String) (items : List Item) : List Event :=
  (items.map (itemFinding path)).filterMap (Finding.event? path)

end ConfigIndex
