import ConfigIndex.Document.Tree

/-!
Lead comments: the run of comments on lines of their own that ends right above an item. The
comments of a document are given last first throughout.
-/

namespace ConfigIndex.Document

def endingAt? (comments : List Comment) (line : Int) : Option Comment :=
  comments.find? fun comment => comment.endLine = line

/-- The run of comments that ends on a line, in front of those found already. Each comment stands
above the next one, so a run has no more of them than there are. -/
def runAbove (comments : List Comment) : Nat → Int → List Comment → List Comment
  | 0, _, found => found
  | fuel + 1, line, found =>
    match endingAt? comments line with
    | none => found
    | some comment => runAbove comments fuel (comment.position.line - 1) (comment :: found)

def leadOf (comments : List Comment) (item : Item) : List Comment :=
  if item.keys.isEmpty then item.lead
  else runAbove comments comments.length (item.position.line - 1) []

mutual

def Node.withLead (comments : List Comment) : Node → Node
  | .literal token => .literal token
  | .key token => .key token
  | .item item => .item (item.withLead comments)
  | .items items => .items (Item.allWithLead comments items)
  | .object opening closing items => .object opening closing (Item.allWithLead comments items)
  | .list opening closing elements => .list opening closing (Node.allWithLead comments elements)

def Item.withLead (comments : List Comment) : Item → Item
  | ⟨keys, some value, assign, lead⟩ =>
    ⟨keys, some (value.withLead comments), assign, leadOf comments ⟨keys, some value, assign, lead⟩⟩
  | ⟨keys, none, assign, lead⟩ => ⟨keys, none, assign, leadOf comments ⟨keys, none, assign, lead⟩⟩

def Node.allWithLead (comments : List Comment) : List Node → List Node
  | [] => []
  | node :: rest => node.withLead comments :: Node.allWithLead comments rest

def Item.allWithLead (comments : List Comment) : List Item → List Item
  | [] => []
  | item :: rest => item.withLead comments :: Item.allWithLead comments rest

end

end ConfigIndex.Document
