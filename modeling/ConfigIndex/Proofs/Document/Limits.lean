import ConfigIndex.Document.Check
import ConfigIndex.Document.Lead

/-!
What the checks behind the grammar let through, and what lead comments leave as it was.
-/

namespace ConfigIndex.Document

mutual

def Node.depth : Node → Nat
  | .literal _ => 0
  | .key _ => 0
  | .item item => item.depth
  | .items items => Item.allDepth items
  | .object _ _ items => Item.allDepth items + 1
  | .list _ _ elements => Node.allDepth elements + 1

def Item.depth : Item → Nat
  | ⟨_, some value, _, _⟩ => value.depth
  | ⟨_, none, _, _⟩ => 0

def Node.allDepth : List Node → Nat
  | [] => 0
  | node :: rest => max node.depth (Node.allDepth rest)

def Item.allDepth : List Item → Nat
  | [] => 0
  | item :: rest => max item.depth (Item.allDepth rest)

end

def Node.listLiterals (nodes : List Node) : List Token :=
  (Node.visitedAll (fun _ => true) nodes).filterMap Node.literal?

def Item.literals (item : Item) : List Token :=
  (item.visited fun _ => true).filterMap Node.literal?

def Item.allLiterals (items : List Item) : List Token :=
  (Item.visitedAll (fun _ => true) items).filterMap Node.literal?

@[simp] theorem literals_literal (token : Token) : (Node.literal token).literals = [token] := rfl

@[simp] theorem literals_key (token : Token) : (Node.key token).literals = [] := rfl

@[simp] theorem literals_item (item : Item) : (Node.item item).literals = item.literals := rfl

@[simp] theorem literals_items (items : List Item) :
    (Node.items items).literals = Item.allLiterals items := rfl

@[simp] theorem literals_object (opening closing : Position) (items : List Item) :
    (Node.object opening closing items).literals = Item.allLiterals items := rfl

@[simp] theorem literals_list (opening closing : Position) (elements : List Node) :
    (Node.list opening closing elements).literals = Node.listLiterals elements := rfl

theorem filterMap_keys (keys : List Token) : (keys.map Node.key).filterMap Node.literal? = [] := by
  simp [Node.literal?]

@[simp] theorem literals_value (keys : List Token) (value : Node) (assign : Option Position)
    (lead : List Comment) : (Item.mk keys (some value) assign lead).literals = value.literals := by
  simp only [Item.literals, Item.visited, if_true, List.filterMap_cons, List.filterMap_append,
    filterMap_keys, List.nil_append]
  rfl

@[simp] theorem literals_none (keys : List Token) (assign : Option Position)
    (lead : List Comment) : (Item.mk keys none assign lead).literals = [] := by
  simp only [Item.literals, Item.visited, if_true, List.filterMap_cons, filterMap_keys]
  rfl

@[simp] theorem listLiterals_nil : Node.listLiterals [] = [] := rfl

@[simp] theorem listLiterals_cons (node : Node) (rest : List Node) :
    Node.listLiterals (node :: rest) = node.literals ++ Node.listLiterals rest := by
  simp [Node.listLiterals, Node.visitedAll, Node.literals]

@[simp] theorem allLiterals_nil : Item.allLiterals [] = [] := rfl

@[simp] theorem allLiterals_cons (item : Item) (rest : List Item) :
    Item.allLiterals (item :: rest) = item.literals ++ Item.allLiterals rest := by
  simp [Item.allLiterals, Item.visitedAll, Item.literals]

/-- What stands at a level keeps to the limits, and every bare word in it is `true` or `false`. -/
def Fits (level depth : Nat) (literals : List Token) : Prop :=
  level + depth ≤ maxLevels + 1 ∧ ∀ token ∈ literals, token.kind ≠ .ident

theorem fits_append {level depth other : Nat} {literals more : List Token} :
    Fits level (max depth other) (literals ++ more) ↔
      Fits level depth literals ∧ Fits level other more := by
  constructor
  · rintro ⟨high, plain⟩
    exact ⟨⟨by omega, fun token member => plain token (by simp [member])⟩, by omega,
      fun token member => plain token (by simp [member])⟩
  · rintro ⟨⟨high, plain⟩, low, others⟩
    refine ⟨by omega, fun token member => ?_⟩
    rcases List.mem_append.mp member with first | second
    · exact plain token first
    · exact others token second

theorem fits_inside {level depth : Nat} {literals : List Token} :
    Fits level (depth + 1) literals ↔ level ≤ maxLevels ∧ Fits (level + 1) depth literals := by
  constructor
  · rintro ⟨high, plain⟩
    exact ⟨by omega, by omega, plain⟩
  · rintro ⟨_, high, plain⟩
    exact ⟨by omega, plain⟩

mutual

theorem Node.fault?_eq_none_iff (level : Nat) (bound : level ≤ maxLevels + 1) (node : Node) :
    node.fault? level = none ↔ Fits level node.depth node.literals := by
  cases node with
  | literal token => simp [Node.fault?, Fits, Node.depth, bound]
  | key token => simp [Node.fault?, Fits, Node.depth, bound]
  | item item => exact Item.fault?_eq_none_iff level bound item
  | items items => exact Item.firstFault?_eq_none_iff level bound items
  | object opening closing items =>
      rw [Node.depth, fits_inside, Node.fault?]
      by_cases shallow : maxLevels < level
      · simp [shallow, Nat.not_le.mpr shallow]
      · have inside := Item.firstFault?_eq_none_iff (level + 1) (by omega) items
        simp [shallow, Nat.le_of_not_lt shallow, inside]
  | list opening closing elements =>
      rw [Node.depth, fits_inside, Node.fault?]
      by_cases shallow : maxLevels < level
      · simp [shallow, Nat.not_le.mpr shallow]
      · have inside := Node.firstFault?_eq_none_iff (level + 1) (by omega) elements
        simp [shallow, Nat.le_of_not_lt shallow, inside]

theorem Item.fault?_eq_none_iff (level : Nat) (bound : level ≤ maxLevels + 1) (item : Item) :
    item.fault? level = none ↔ Fits level item.depth item.literals := by
  match item with
  | ⟨keys, some value, assign, lead⟩ =>
      rw [literals_value]
      exact Node.fault?_eq_none_iff level bound value
  | ⟨keys, none, assign, lead⟩ => simp [Item.fault?, Fits, Item.depth, bound]

theorem Node.firstFault?_eq_none_iff (level : Nat) (bound : level ≤ maxLevels + 1)
    (nodes : List Node) :
    Node.firstFault? level nodes = none ↔
      Fits level (Node.allDepth nodes) (Node.listLiterals nodes) := by
  cases nodes with
  | nil => simp [Node.firstFault?, Fits, Node.allDepth, bound]
  | cons node rest =>
      have first := Node.fault?_eq_none_iff level bound node
      have others := Node.firstFault?_eq_none_iff level bound rest
      rw [listLiterals_cons, Node.allDepth, fits_append, ← first, ← others, Node.firstFault?]
      cases node.fault? level <;> simp

theorem Item.firstFault?_eq_none_iff (level : Nat) (bound : level ≤ maxLevels + 1)
    (items : List Item) :
    Item.firstFault? level items = none ↔
      Fits level (Item.allDepth items) (Item.allLiterals items) := by
  cases items with
  | nil => simp [Item.firstFault?, Fits, Item.allDepth, bound]
  | cons item rest =>
      have first := Item.fault?_eq_none_iff level bound item
      have others := Item.firstFault?_eq_none_iff level bound rest
      rw [allLiterals_cons, Item.allDepth, fits_append, ← first, ← others, Item.firstFault?]
      cases item.fault? level <;> simp

end

mutual

def Node.bare : Node → Node
  | .literal token => .literal token
  | .key token => .key token
  | .item item => .item item.bare
  | .items items => .items (Item.allBare items)
  | .object opening closing items => .object opening closing (Item.allBare items)
  | .list opening closing elements => .list opening closing (Node.allBare elements)

def Item.bare : Item → Item
  | ⟨keys, some value, assign, _⟩ => ⟨keys, some value.bare, assign, []⟩
  | ⟨keys, none, assign, _⟩ => ⟨keys, none, assign, []⟩

def Node.allBare : List Node → List Node
  | [] => []
  | node :: rest => node.bare :: Node.allBare rest

def Item.allBare : List Item → List Item
  | [] => []
  | item :: rest => item.bare :: Item.allBare rest

end

section

variable (comments : List Comment)

mutual

theorem Node.bare_withLead (node : Node) : (node.withLead comments).bare = node.bare := by
  cases node with
  | literal token => rfl
  | key token => rfl
  | item item => simp only [Node.withLead, Node.bare, Item.bare_withLead item]
  | items items => simp only [Node.withLead, Node.bare, Item.allBare_withLead items]
  | object opening closing items =>
      simp only [Node.withLead, Node.bare, Item.allBare_withLead items]
  | list opening closing elements =>
      simp only [Node.withLead, Node.bare, Node.allBare_withLead elements]

theorem Item.bare_withLead (item : Item) : (item.withLead comments).bare = item.bare := by
  match item with
  | ⟨keys, some value, assign, lead⟩ =>
      simp only [Item.withLead, Item.bare, Node.bare_withLead value]
  | ⟨keys, none, assign, lead⟩ => rfl

theorem Node.allBare_withLead (nodes : List Node) :
    Node.allBare (Node.allWithLead comments nodes) = Node.allBare nodes := by
  cases nodes with
  | nil => rfl
  | cons node rest =>
      simp only [Node.allWithLead, Node.allBare, Node.bare_withLead node,
        Node.allBare_withLead rest]

theorem Item.allBare_withLead (items : List Item) :
    Item.allBare (Item.allWithLead comments items) = Item.allBare items := by
  cases items with
  | nil => rfl
  | cons item rest =>
      simp only [Item.allWithLead, Item.allBare, Item.bare_withLead item,
        Item.allBare_withLead rest]

end

end

mutual

theorem Node.literals_bare (node : Node) : node.bare.literals = node.literals := by
  cases node with
  | literal token => rfl
  | key token => rfl
  | item item => exact Item.literals_bare item
  | items items => exact Item.allLiterals_bare items
  | object opening closing items => exact Item.allLiterals_bare items
  | list opening closing elements => exact Node.listLiterals_bare elements

theorem Item.literals_bare (item : Item) : item.bare.literals = item.literals := by
  match item with
  | ⟨keys, some value, assign, lead⟩ =>
      rw [Item.bare, literals_value, literals_value, Node.literals_bare value]
  | ⟨keys, none, assign, lead⟩ => rw [Item.bare, literals_none, literals_none]

theorem Node.listLiterals_bare (nodes : List Node) :
    Node.listLiterals (Node.allBare nodes) = Node.listLiterals nodes := by
  cases nodes with
  | nil => rfl
  | cons node rest =>
      rw [Node.allBare, listLiterals_cons, listLiterals_cons, Node.literals_bare node,
        Node.listLiterals_bare rest]

theorem Item.allLiterals_bare (items : List Item) :
    Item.allLiterals (Item.allBare items) = Item.allLiterals items := by
  cases items with
  | nil => rfl
  | cons item rest =>
      rw [Item.allBare, allLiterals_cons, allLiterals_cons, Item.literals_bare item,
        Item.allLiterals_bare rest]

end

end ConfigIndex.Document
