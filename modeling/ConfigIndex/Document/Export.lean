import ConfigIndex.Document.Tree

/-!
A document tree as a value, tagged by the kind of each node.
-/

namespace ConfigIndex

def Position.toData (position : Position) : Data :=
  .record [("filename", .text position.filename), ("offset", .int position.offset),
    ("line", .int position.line), ("column", .int position.column)]

namespace Document

def Token.toData (token : Token) : Data :=
  .record [("type", .text token.kind.name), ("text", .text token.text),
    ("pos", token.position.toData)]

def Comment.toData (comment : Comment) : Data :=
  .record [("text", .text comment.text), ("pos", comment.position.toData)]

def literalData (token : Token) : Data :=
  .record [("kind", .text "LiteralType"), ("token", token.toData)]

def keyData (token : Token) : Data :=
  .record [("kind", .text "ObjectKey"), ("token", token.toData)]

def itemsData (items : List Data) : Data :=
  .record [("kind", .text "ObjectList"), ("items", .list items)]

def itemData (item : Item) (value : Data) : Data :=
  .record [("kind", .text "ObjectItem"), ("keys", .list (item.keys.map keyData)),
    ("assign", (item.assign.map Position.toData).getD .null), ("val", value),
    ("leadComment", .list (item.lead.map Comment.toData))]

mutual

def Node.toData : Node → Data
  | .literal token => literalData token
  | .key token => keyData token
  | .item item => item.toData
  | .items items => itemsData (Item.allToData items)
  | .object opening closing items =>
    .record [("kind", .text "ObjectType"), ("lbrace", opening.toData), ("rbrace", closing.toData),
      ("list", itemsData (Item.allToData items))]
  | .list opening closing elements =>
    .record [("kind", .text "ListType"), ("lbrack", opening.toData), ("rbrack", closing.toData),
      ("list", .list (Node.allToData elements))]

def Item.toData : Item → Data
  | ⟨keys, some value, assign, lead⟩ => itemData ⟨keys, none, assign, lead⟩ value.toData
  | ⟨keys, none, assign, lead⟩ => itemData ⟨keys, none, assign, lead⟩ .null

def Node.allToData : List Node → List Data
  | [] => []
  | node :: rest => node.toData :: Node.allToData rest

def Item.allToData : List Item → List Data
  | [] => []
  | item :: rest => item.toData :: Item.allToData rest

end

def File.toData (file : File) : Data :=
  .record [("node", file.root.toData), ("comments", .list (file.comments.map Comment.toData))]

end Document

end ConfigIndex
