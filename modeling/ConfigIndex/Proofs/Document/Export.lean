import ConfigIndex.Proofs.Data.Shape
import ConfigIndex.Proofs.Document.Positions

/-!
What the tree of a document asks of the reader of the value that is written for it: how deep that
value nests, and which whole numbers it holds.
-/

namespace ConfigIndex

open Data

namespace Document

mutual

def Node.positions : Node → List Position
  | .literal token => [token.position]
  | .key token => [token.position]
  | .item item => item.positions
  | .items items => Item.allPositions items
  | .object opening closing items => opening :: closing :: Item.allPositions items
  | .list opening closing elements => opening :: closing :: Node.allPositions elements

def Item.positions : Item → List Position
  | ⟨keys, some value, assign, lead⟩ =>
    keys.map Token.position ++ assign.toList ++ value.positions ++ lead.map Comment.position
  | ⟨keys, none, assign, lead⟩ =>
    keys.map Token.position ++ assign.toList ++ lead.map Comment.position

def Node.allPositions : List Node → List Position
  | [] => []
  | node :: rest => node.positions ++ Node.allPositions rest

def Item.allPositions : List Item → List Position
  | [] => []
  | item :: rest => item.positions ++ Item.allPositions rest

end

mutual

/-- How many lists and records are written inside one another for a tree, at most. A block takes
four: its item, its object, and the object's list of items, which is a record with a list in it. -/
def Node.levels : Node → Nat
  | .literal _ => 3
  | .key _ => 3
  | .item item => item.levels
  | .items items => Item.allLevels items + 2
  | .object _ _ items => Item.allLevels items + 3
  | .list _ _ elements => Node.allLevels elements + 2

def Item.levels : Item → Nat
  | ⟨_, some value, _, _⟩ => max 4 value.levels + 1
  | ⟨_, none, _, _⟩ => 5

def Node.allLevels : List Node → Nat
  | [] => 0
  | node :: rest => max node.levels (Node.allLevels rest)

def Item.allLevels : List Item → Nat
  | [] => 0
  | item :: rest => max item.levels (Item.allLevels rest)

end

section

variable {levels : Nat}

theorem Token.shaped (token : Token) :
    token.toData.Shaped (levels + 2) token.position.integers :=
  (((shaped_text _).field ((shaped_text _).field
    (token.position.shaped.field shapedFields_nil))).record (by simp)).of_eq (by simp)

theorem Comment.shaped (comment : Comment) :
    comment.toData.Shaped (levels + 2) comment.position.integers :=
  (((shaped_text _).field (comment.position.shaped.field shapedFields_nil)).record
    (by simp)).of_eq (by simp)

theorem literalData_shaped (token : Token) :
    (literalData token).Shaped (levels + 3) token.position.integers :=
  (((shaped_text _).field (token.shaped.field shapedFields_nil)).record (by simp)).of_eq (by simp)

theorem keyData_shaped (token : Token) :
    (keyData token).Shaped (levels + 3) token.position.integers :=
  (((shaped_text _).field (token.shaped.field shapedFields_nil)).record (by simp)).of_eq (by simp)

theorem itemsData_shaped {numbers : List Int} {items : List Data}
    (shaped : ShapedItems levels numbers items) :
    (itemsData items).Shaped (levels + 2) numbers :=
  (((shaped_text _).field (shaped.list.field shapedFields_nil)).record (by simp)).of_eq (by simp)

theorem itemData_shaped {numbers : List Int} {value : Data} (keys : List Token)
    (assign : Option Position) (lead : List Comment) (bound : 4 ≤ levels)
    (shaped : value.Shaped levels numbers) :
    (itemData ⟨keys, none, assign, lead⟩ value).Shaped (levels + 1)
      ((keys.map Token.position ++ assign.toList).flatMap Position.integers ++ numbers ++
        (lead.map Comment.position).flatMap Position.integers) := by
  obtain ⟨more, rfl⟩ : ∃ more, levels = more + 4 := ⟨levels - 4, by omega⟩
  have sign : ((assign.map Position.toData).getD .null).Shaped (more + 4)
      (assign.toList.flatMap Position.integers) := by
    cases assign with
    | none => exact shaped_null
    | some position => exact position.shaped.of_eq (by simp)
  exact (((shaped_text _).field ((shaped_list keyData_shaped keys).field (sign.field
    (shaped.field ((shaped_list Comment.shaped lead).field shapedFields_nil))))).record
    (by simp)).of_eq (by simp [List.flatMap_map])

end

mutual

theorem Node.shaped (node : Node) :
    node.toData.Shaped node.levels (node.positions.flatMap Position.integers) := by
  cases node with
  | literal token => exact (literalData_shaped token).of_eq (by simp [Node.positions])
  | key token => exact (keyData_shaped token).of_eq (by simp [Node.positions])
  | item item => exact item.shaped
  | items items => exact itemsData_shaped (Item.allShaped items)
  | object opening closing items =>
      exact (((shaped_text _).field (opening.shaped.field (closing.shaped.field
        ((itemsData_shaped (Item.allShaped items)).field shapedFields_nil)))).record
        (by simp)).of_eq (by simp [Node.positions])
  | list opening closing elements =>
      exact (((shaped_text _).field (opening.shaped.field (closing.shaped.field
        ((Node.allShaped elements).list.field shapedFields_nil)))).record
        (by simp)).of_eq (by simp [Node.positions])

theorem Item.shaped (item : Item) :
    item.toData.Shaped item.levels (item.positions.flatMap Position.integers) := by
  match item with
  | ⟨keys, some value, assign, lead⟩ =>
      have inside := value.shaped.mono (Nat.le_max_right 4 value.levels)
      exact (itemData_shaped keys assign lead (Nat.le_max_left 4 _) inside).of_eq
        (by simp [Item.positions])
  | ⟨keys, none, assign, lead⟩ =>
      exact (itemData_shaped keys assign lead (Nat.le_refl 4) shaped_null).of_eq
        (by simp [Item.positions])

theorem Node.allShaped (nodes : List Node) :
    ShapedItems (Node.allLevels nodes) ((Node.allPositions nodes).flatMap Position.integers)
      (Node.allToData nodes) := by
  cases nodes with
  | nil => exact shapedItems_nil
  | cons node rest =>
      have first := node.shaped.mono (Nat.le_max_left _ (Node.allLevels rest))
      have others := (Node.allShaped rest).mono (Nat.le_max_right node.levels _)
      rw [Node.allPositions, List.flatMap_append]
      exact first.item others

theorem Item.allShaped (items : List Item) :
    ShapedItems (Item.allLevels items) ((Item.allPositions items).flatMap Position.integers)
      (Item.allToData items) := by
  cases items with
  | nil => exact shapedItems_nil
  | cons item rest =>
      have first := item.shaped.mono (Nat.le_max_left _ (Item.allLevels rest))
      have others := (Item.allShaped rest).mono (Nat.le_max_right item.levels _)
      rw [Item.allPositions, List.flatMap_append]
      exact first.item others

end

/-! ### Levels and brackets -/

mutual

theorem Node.levels_bare (node : Node) : node.bare.levels = node.levels := by
  cases node with
  | literal token => rfl
  | key token => rfl
  | item item => exact Item.levels_bare item
  | items items => simp only [Node.bare, Node.levels, Item.allLevels_bare items]
  | object opening closing items => simp only [Node.bare, Node.levels, Item.allLevels_bare items]
  | list opening closing elements =>
      simp only [Node.bare, Node.levels, Node.allLevels_bare elements]

theorem Item.levels_bare (item : Item) : item.bare.levels = item.levels := by
  match item with
  | ⟨keys, some value, assign, lead⟩ => simp only [Item.bare, Item.levels, Node.levels_bare value]
  | ⟨keys, none, assign, lead⟩ => rfl

theorem Node.allLevels_bare (nodes : List Node) :
    Node.allLevels (Node.allBare nodes) = Node.allLevels nodes := by
  cases nodes with
  | nil => rfl
  | cons node rest =>
      simp only [Node.allBare, Node.allLevels, Node.levels_bare node, Node.allLevels_bare rest]

theorem Item.allLevels_bare (items : List Item) :
    Item.allLevels (Item.allBare items) = Item.allLevels items := by
  cases items with
  | nil => rfl
  | cons item rest =>
      simp only [Item.allBare, Item.allLevels, Item.levels_bare item, Item.allLevels_bare rest]

end

mutual

theorem Node.depth_bare (node : Node) : node.bare.depth = node.depth := by
  cases node with
  | literal token => rfl
  | key token => rfl
  | item item => exact Item.depth_bare item
  | items items => exact Item.allDepth_bare items
  | object opening closing items => simp only [Node.bare, Node.depth, Item.allDepth_bare items]
  | list opening closing elements =>
      simp only [Node.bare, Node.depth, Node.allDepth_bare elements]

theorem Item.depth_bare (item : Item) : item.bare.depth = item.depth := by
  match item with
  | ⟨keys, some value, assign, lead⟩ => exact Node.depth_bare value
  | ⟨keys, none, assign, lead⟩ => rfl

theorem Node.allDepth_bare (nodes : List Node) :
    Node.allDepth (Node.allBare nodes) = Node.allDepth nodes := by
  cases nodes with
  | nil => rfl
  | cons node rest =>
      simp only [Node.allBare, Node.allDepth, Node.depth_bare node, Node.allDepth_bare rest]

theorem Item.allDepth_bare (items : List Item) :
    Item.allDepth (Item.allBare items) = Item.allDepth items := by
  cases items with
  | nil => rfl
  | cons item rest =>
      simp only [Item.allBare, Item.allDepth, Item.depth_bare item, Item.allDepth_bare rest]

end

def Phrase.Bounded : Phrase → Prop
  | .items all => Item.allLevels all ≤ 4 * Item.allDepth all + 5
  | .item one => one.levels ≤ 4 * one.depth + 5
  | .keys _ => True
  | .value node => node.levels ≤ 4 * node.depth + 4
  | .object node => node.levels ≤ 4 * node.depth + 4
  | .elements nodes => Node.allLevels nodes ≤ 4 * Node.allDepth nodes + 4

theorem Derives.bounded {start stop : List Lexeme} {phrase : Phrase}
    (derives : Derives start phrase stop) : phrase.Bounded := by
  induction derives with
  | noItems => simp [Phrase.Bounded, Item.allLevels]
  | moreItems _ _ item items =>
      simp only [Phrase.Bounded, Item.allLevels, Item.allDepth] at item items ⊢
      omega
  | separatedItems _ _ _ item items =>
      simp only [Phrase.Bounded, Item.allLevels, Item.allDepth] at item items ⊢
      omega
  | assignment _ _ _ value =>
      simp only [Phrase.Bounded, Item.levels, Item.depth] at value ⊢
      omega
  | block _ _ _ object =>
      simp only [Phrase.Bounded, Item.levels, Item.depth] at object ⊢
      omega
  | oneKey _ => trivial
  | moreKeys _ _ _ => trivial
  | literal _ => simp [Phrase.Bounded, Node.levels]
  | objectValue _ object => exact object
  | object _ _ _ items =>
      simp only [Phrase.Bounded, Node.levels, Node.depth] at items ⊢
      omega
  | list _ _ _ elements =>
      simp only [Phrase.Bounded, Node.levels, Node.depth] at elements ⊢
      omega
  | noElements => simp [Phrase.Bounded, Node.allLevels]
  | lastElement _ value =>
      simp only [Phrase.Bounded, Node.allLevels, Node.allDepth] at value ⊢
      omega
  | moreElements _ _ _ value elements =>
      simp only [Phrase.Bounded, Node.allLevels, Node.allDepth] at value elements ⊢
      omega

theorem parseChars_levels {text : List Char} {file : File} (read : parseChars text = .ok file) :
    Item.allLevels file.items ≤ 4 * Item.allDepth file.items + 5 := by
  obtain ⟨stretches, final, splits, derives, faultless⟩ := parseChars_splits read
  have bounded := derives.bounded
  simpa only [Phrase.Bounded, Item.allLevels_bare, Item.allDepth_bare] using bounded

/-! ### Places -/

def Placed (spans : List Span) (leads : List Comment) (position : Position) : Prop :=
  position ∈ spans.map Span.position ∨ position ∈ leads.map Comment.position

theorem position_keySpans (keys : List Token) :
    (keys.map Token.span).map Span.position = keys.map Token.position := by
  rw [List.map_map]
  rfl

theorem position_signSpans (assign : Option Position) :
    (assign.toList.map fun sign => (⟨sign, ['=']⟩ : Span)).map Span.position = assign.toList := by
  rw [List.map_map]
  exact List.map_id _

mutual

theorem Node.positions_placed (node : Node) :
    ∀ position ∈ node.positions, Placed node.spans node.leads position := by
  cases node with
  | literal token => simp [Node.positions, Placed, Node.spans, Token.span]
  | key token => simp [Node.positions, Placed, Node.spans, Token.span]
  | item item => exact Item.positions_placed item
  | items items => exact Item.allPositions_placed items
  | object opening closing items =>
      intro position member
      have inside := Item.allPositions_placed items position
      simp only [Node.positions, List.mem_cons, Placed, Node.spans, List.map_append, List.map_cons,
        List.mem_append, Node.leads] at member inside ⊢
      tauto
  | list opening closing elements =>
      intro position member
      have inside := Node.allPositions_placed elements position
      simp only [Node.positions, List.mem_cons, Placed, Node.spans, List.map_append, List.map_cons,
        List.mem_append, Node.leads] at member inside ⊢
      tauto

theorem Item.positions_placed (item : Item) :
    ∀ position ∈ item.positions, Placed item.spans item.leads position := by
  match item with
  | ⟨keys, some value, assign, lead⟩ =>
      intro position member
      have inside := Node.positions_placed value position
      simp only [Item.positions, Placed, Item.spans, List.map_append, position_keySpans,
        position_signSpans, List.mem_append, Item.leads] at member inside ⊢
      tauto
  | ⟨keys, none, assign, lead⟩ =>
      intro position member
      simp only [Item.positions, Placed, Item.spans, List.map_append, position_keySpans,
        position_signSpans, List.mem_append, Item.leads] at member ⊢
      tauto

theorem Node.allPositions_placed (nodes : List Node) :
    ∀ position ∈ Node.allPositions nodes,
      Placed (Node.allSpans nodes) (Node.allLeads nodes) position := by
  cases nodes with
  | nil => simp [Node.allPositions]
  | cons node rest =>
      intro position member
      have first := Node.positions_placed node position
      have others := Node.allPositions_placed rest position
      simp only [Node.allPositions, Placed, Node.allSpans, List.map_append, List.mem_append,
        Node.allLeads] at member first others ⊢
      tauto

theorem Item.allPositions_placed (items : List Item) :
    ∀ position ∈ Item.allPositions items,
      Placed (Item.allSpans items) (Item.allLeads items) position := by
  cases items with
  | nil => simp [Item.allPositions]
  | cons item rest =>
      intro position member
      have first := Item.positions_placed item position
      have others := Item.allPositions_placed rest position
      simp only [Item.allPositions, Placed, Item.allSpans, List.map_append, List.mem_append,
        Item.allLeads] at member first others ⊢
      tauto

end

/-! ### Whole documents -/

def File.positions (file : File) : List Position :=
  Item.allPositions file.items ++ file.comments.map Comment.position

theorem File.shaped (file : File) :
    file.toData.Shaped (max 1 (Item.allLevels file.items) + 3)
      (file.positions.flatMap Position.integers) := by
  obtain ⟨more, same⟩ : ∃ more, max 1 (Item.allLevels file.items) = more + 1 :=
    ⟨max 1 (Item.allLevels file.items) - 1, by omega⟩
  have root : file.root.toData.Shaped (more + 3)
      ((Item.allPositions file.items).flatMap Position.integers) :=
    (Node.shaped file.root).mono (by simp only [File.root, Node.levels]; omega)
  rw [same]
  exact ((root.field ((shaped_list Comment.shaped file.comments).field
    shapedFields_nil)).record (by simp)).of_eq (by simp [File.positions, List.flatMap_map])

theorem parseChars_denotes {text : List Char} {file : File} (read : parseChars text = .ok file) :
    ∀ position ∈ file.positions, ∃ index, position.Denotes text index := by
  have tiled := parseChars_tiled read
  have spans : ∀ span ∈ Item.allSpans file.items, ∃ index, span.position.Denotes text index := by
    intro span member
    obtain ⟨index, denotes, _⟩ := (tiled.span_occurs span member).denotes
    exact ⟨index, denotes⟩
  have comments : ∀ comment ∈ file.comments, ∃ index, comment.position.Denotes text index := by
    intro comment member
    obtain ⟨index, denotes, _⟩ := (tiled.comment_occurs comment member).denotes
    exact ⟨index, denotes⟩
  intro position member
  rcases List.mem_append.mp member with inside | aside
  · rcases Item.allPositions_placed file.items position inside with word | lead
    · obtain ⟨span, listed, rfl⟩ := List.mem_map.mp word
      exact spans span listed
    · obtain ⟨comment, listed, rfl⟩ := List.mem_map.mp lead
      exact comments comment (parseChars_leads read listed)
  · obtain ⟨comment, listed, rfl⟩ := List.mem_map.mp aside
    exact comments comment listed

end Document

end ConfigIndex
