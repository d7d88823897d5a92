import ConfigIndex.Data.Value
import ConfigIndex.Position

/-!
The tree of a configuration document: items made of keys and a value, where a value is a literal,
an object of items or a list of values.
-/

namespace ConfigIndex.Document

inductive TokenKind
  | ident
  | string
  | heredoc
  | number
  | float
  | bool
deriving DecidableEq, Repr

namespace TokenKind

def name : TokenKind → String
  | ident => "IDENT"
  | string => "STRING"
  | heredoc => "HEREDOC"
  | number => "NUMBER"
  | float => "FLOAT"
  | bool => "BOOL"

def ofName? (name : String) : Option TokenKind :=
  [ident, string, heredoc, number, float, bool].find? fun kind => kind.name == name

end TokenKind

structure Token where
  kind : TokenKind
  text : String
  position : Position
deriving DecidableEq, Repr

def unquote (text : List Char) : List Char :=
  ((text.dropWhile (· == '"')).reverse.dropWhile (· == '"')).reverse

def Token.unquoted (token : Token) : String := String.ofList (unquote token.text.toList)

structure Comment where
  text : String
  position : Position
  endLine : Int
deriving DecidableEq, Repr

mutual

inductive Node
  | literal (token : Token)
  | key (token : Token)
  | item (item : Item)
  | items (items : List Item)
  | object (opening closing : Position) (items : List Item)
  | list (opening closing : Position) (elements : List Node)

/-- `key = value`, with the position of the equals sign, or a block `key key { … }` without one. -/
structure Item where
  keys : List Token
  value : Option Node
  assign : Option Position
  lead : List Comment

end

deriving instance BEq, Repr, Inhabited for Node, Item

structure File where
  items : List Item
  comments : List Comment

def File.root (file : File) : Node := .items file.items

instance : BEq File where
  beq left right := left.items == right.items && left.comments == right.comments

mutual

def Node.position : Node → Position
  | .literal token => token.position
  | .key token => token.position
  | .item item => item.position
  | .items [] => {}
  | .items (item :: _) => item.position
  | .object opening _ _ => opening
  | .list opening _ _ => opening

def Item.position : Item → Position
  | ⟨token :: _, _, _, _⟩ => token.position
  | ⟨[], some value, _, _⟩ => value.position
  | ⟨[], none, _, _⟩ => {}

end

def Node.tag : Node → String
  | .literal _ => "LiteralType"
  | .key _ => "ObjectKey"
  | .item _ => "ObjectItem"
  | .items _ => "ObjectList"
  | .object _ _ _ => "ObjectType"
  | .list _ _ _ => "ListType"

mutual

/-- The nodes of a tree, each before those inside it and these in the order of the text. What is
inside a node is left out if the node is not entered. -/
def Node.visited (enters : Node → Bool) : Node → List Node
  | .literal token => [.literal token]
  | .key token => [.key token]
  | .item item => item.visited enters
  | .items items =>
    .items items :: if enters (.items items) then Item.visitedAll enters items else []
  | .object opening closing items =>
    .object opening closing items ::
      if enters (.object opening closing items) then
        .items items :: if enters (.items items) then Item.visitedAll enters items else []
      else []
  | .list opening closing elements =>
    .list opening closing elements ::
      if enters (.list opening closing elements) then Node.visitedAll enters elements else []

def Item.visited (enters : Node → Bool) : Item → List Node
  | ⟨keys, some value, assign, lead⟩ =>
    .item ⟨keys, some value, assign, lead⟩ ::
      if enters (.item ⟨keys, some value, assign, lead⟩) then
        keys.map .key ++ value.visited enters
      else []
  | ⟨keys, none, assign, lead⟩ =>
    .item ⟨keys, none, assign, lead⟩ ::
      if enters (.item ⟨keys, none, assign, lead⟩) then keys.map .key else []

def Node.visitedAll (enters : Node → Bool) : List Node → List Node
  | [] => []
  | node :: rest => node.visited enters ++ Node.visitedAll enters rest

def Item.visitedAll (enters : Node → Bool) : List Item → List Node
  | [] => []
  | item :: rest => item.visited enters ++ Item.visitedAll enters rest

end

def Node.literal? : Node → Option Token
  | .literal token => some token
  | _ => none

def Node.literals (node : Node) : List Token :=
  (node.visited fun _ => true).filterMap Node.literal?

end ConfigIndex.Document
