import ConfigIndex.Proofs.Document.Bytes
import ConfigIndex.Proofs.Document.Runs
import Mathlib.Data.List.Flatten

/-!
The walk through the tree of a document: it meets the nodes that no refused node stands above, each
once, a node before those inside it and these in the order in which they stand in the text.
-/

namespace ConfigIndex.Document

/-! ### Nodes and what is right inside them -/

def Node.children : Node → List Node
  | .items all => all.map .item
  | .item one => one.keys.map .key ++ one.value.toList
  | .object _ _ all => [.items all]
  | .list _ _ elements => elements
  | .literal _ | .key _ => []

/-- The node at an address, which gives a place among the children for each step down. -/
def Node.at? (node : Node) : List Nat → Option Node
  | [] => some node
  | place :: rest => (node.children[place]?).bind fun child => child.at? rest

def Node.Opens (enters : Node → Bool) (node : Node) (address : List Nat) : Prop :=
  ∀ front above, front <+: address → front ≠ address → node.at? front = some above →
    enters above = true

section

variable (enters : Node → Bool)

theorem Item.visitedAll_eq (items : List Item) :
    Item.visitedAll enters items =
      (items.map Node.item).flatMap (Node.visited enters) := by
  induction items with
  | nil => rfl
  | cons item rest ih => rw [Item.visitedAll, ih, List.map_cons, List.flatMap_cons, Node.visited]

theorem Node.visitedAll_eq (nodes : List Node) :
    Node.visitedAll enters nodes = nodes.flatMap (Node.visited enters) := by
  induction nodes with
  | nil => rfl
  | cons node rest ih => rw [Node.visitedAll, ih, List.flatMap_cons]

theorem visited_keys (keys : List Token) :
    (keys.map Node.key).flatMap (Node.visited enters) = keys.map .key := by
  induction keys with
  | nil => rfl
  | cons key rest ih =>
      rw [List.map_cons, List.flatMap_cons, ih, Node.visited, List.singleton_append]

/-- A node is met first, and then, unless it is refused, what is met inside its children. -/
theorem Node.visited_eq (node : Node) :
    node.visited enters =
      node :: if enters node then node.children.flatMap (Node.visited enters) else [] := by
  cases node with
  | literal token => simp [Node.visited, Node.children]
  | key token => simp [Node.visited, Node.children]
  | items items => rw [Node.visited, Item.visitedAll_eq, Node.children]
  | list opening closing elements => rw [Node.visited, Node.visitedAll_eq, Node.children]
  | object opening closing items =>
      rw [Node.visited, Node.children, List.flatMap_singleton, Node.visited]
  | item item =>
      obtain ⟨keys, value, assign, lead⟩ := item
      cases value with
      | none => simp [Node.visited, Item.visited, Node.children, visited_keys]
      | some value => simp [Node.visited, Item.visited, Node.children, visited_keys]

end

def Node.Rises (property : Node → Prop) : Prop :=
  ∀ node : Node, (∀ child ∈ node.children, property child) → property node

theorem Node.Rises.keys {property : Node → Prop} (rises : Node.Rises property)
    (keys : List Token) : ∀ child ∈ keys.map Node.key, property child := by
  intro child member
  obtain ⟨key, -, rfl⟩ := List.mem_map.mp member
  exact rises _ fun child inside => nomatch inside

mutual

theorem Node.Rises.all {property : Node → Prop} (rises : Node.Rises property) (node : Node) :
    property node := by
  cases node with
  | literal token => exact rises _ fun child inside => nomatch inside
  | key token => exact rises _ fun child inside => nomatch inside
  | item one => exact rises.ofItem one
  | items inner => exact rises _ (rises.ofItems inner)
  | object opening closing inner =>
      exact rises _ (List.forall_mem_singleton.mpr (rises _ (rises.ofItems inner)))
  | list opening closing elements => exact rises _ (rises.ofNodes elements)

theorem Node.Rises.ofItem {property : Node → Prop} (rises : Node.Rises property) (item : Item) :
    property (.item item) := by
  match item with
  | ⟨keys, some value, assign, lead⟩ =>
      exact rises _ (List.forall_mem_append.mpr
        ⟨rises.keys keys, List.forall_mem_singleton.mpr (rises.all value)⟩)
  | ⟨keys, none, assign, lead⟩ =>
      exact rises _ (List.forall_mem_append.mpr ⟨rises.keys keys, List.forall_mem_nil _⟩)

theorem Node.Rises.ofNodes {property : Node → Prop} (rises : Node.Rises property)
    (nodes : List Node) : ∀ child ∈ nodes, property child := by
  cases nodes with
  | nil => exact List.forall_mem_nil _
  | cons node rest => exact List.forall_mem_cons.mpr ⟨rises.all node, rises.ofNodes rest⟩

theorem Node.Rises.ofItems {property : Node → Prop} (rises : Node.Rises property)
    (items : List Item) : ∀ child ∈ items.map Node.item, property child := by
  cases items with
  | nil => exact List.forall_mem_nil _
  | cons item rest => exact List.forall_mem_cons.mpr ⟨rises.ofItem item, rises.ofItems rest⟩

end

/-! ### Addresses -/

section

variable {node child above : Node} {enters : Node → Bool} {place : Nat} {rest : List Nat}

theorem Node.at?_nil (node : Node) : node.at? [] = some node := by
  rw [Node.at?]

theorem Node.at?_cons (node : Node) (place : Nat) (rest : List Nat) :
    node.at? (place :: rest) = (node.children[place]?).bind fun child => child.at? rest := by
  rw [Node.at?]

theorem Node.opens_nil : node.Opens enters [] := by
  intro front above shorter other
  exact absurd (List.prefix_nil.mp shorter) other

/-- An address is open if the node that it starts from is, and so is what it goes on with. -/
theorem Node.opens_cons (found : node.children[place]? = some child) :
    node.Opens enters (place :: rest) ↔ enters node = true ∧ child.Opens enters rest := by
  constructor
  · intro opens
    refine ⟨opens [] node List.nil_prefix (List.cons_ne_nil place rest).symm node.at?_nil,
      fun front above shorter other leads => ?_⟩
    refine opens (place :: front) above (List.cons_prefix_cons.mpr ⟨rfl, shorter⟩)
      (fun same => other (List.cons.inj same).2) ?_
    rw [Node.at?_cons, found, Option.bind_some, leads]
  · rintro ⟨entered, opens⟩ front above shorter other leads
    cases front with
    | nil =>
        rw [Node.at?_nil] at leads
        exact Option.some.inj leads ▸ entered
    | cons first front =>
        obtain ⟨rfl, behind⟩ := List.cons_prefix_cons.mp shorter
        rw [Node.at?_cons, found, Option.bind_some] at leads
        exact opens front above behind (fun same => other (congrArg _ same)) leads

end

/-! ### The walk -/

/-- Nodes that are met on a walk from a node, each with its address: the open ones, in the order of
their addresses. -/
structure Node.Walk (enters : Node → Bool) (root : Node) (walk : List (List Nat × Node)) :
    Prop where
  ordered : (walk.map Prod.fst).Pairwise (· < ·)
  exact : ∀ address node, (address, node) ∈ walk ↔
    root.at? address = some node ∧ root.Opens enters address

structure Node.Walks (enters : Node → Bool) (first : Nat) (nodes : List Node)
    (walk : List (List Nat × Node)) : Prop where
  ordered : (walk.map Prod.fst).Pairwise (· < ·)
  exact : ∀ address node, (address, node) ∈ walk ↔ ∃ place rest child,
    address = (first + place) :: rest ∧ nodes[place]? = some child ∧
      child.at? rest = some node ∧ child.Opens enters rest

section

variable {enters : Node → Bool} {first : Nat} {node : Node} {nodes : List Node}
  {here others : List (List Nat × Node)}

theorem Node.Walks.nil : Node.Walks enters first [] [] where
  ordered := List.Pairwise.nil
  exact address node := by
    refine iff_of_false List.not_mem_nil ?_
    rintro ⟨place, rest, child, -, listed, -⟩
    cases listed

theorem Node.Walks.cons (walk : node.Walk enters here)
    (walks : Node.Walks enters (first + 1) nodes others) :
    Node.Walks enters first (node :: nodes)
      (here.map (fun met => (first :: met.1, met.2)) ++ others) where
  ordered := by
    rw [List.map_append, List.map_map, List.pairwise_append]
    refine ⟨?_, walks.ordered, fun early inFirst late inOthers => ?_⟩
    · have inside := walk.ordered
      rw [List.pairwise_map] at inside ⊢
      exact inside.imp fun less => List.cons_lt_cons_iff.mpr (Or.inr ⟨rfl, less⟩)
    · obtain ⟨met, -, rfl⟩ := List.mem_map.mp inFirst
      obtain ⟨⟨address, other⟩, member, rfl⟩ := List.mem_map.mp inOthers
      obtain ⟨place, rest, child, rfl, -⟩ := (walks.exact address other).mp member
      exact List.cons_lt_cons_iff.mpr (Or.inl (by omega))
  exact address found := by
    rw [List.mem_append, walks.exact]
    constructor
    · rintro (member | ⟨place, rest, child, rfl, listed, met⟩)
      · obtain ⟨⟨rest, other⟩, inside, same⟩ := List.mem_map.mp member
        cases same
        exact ⟨0, rest, node, rfl, rfl, (walk.exact rest other).mp inside⟩
      · exact ⟨place + 1, rest, child, by rw [Nat.add_assoc, Nat.add_comm 1], listed, met⟩
    · rintro ⟨place, rest, child, rfl, listed, met⟩
      cases place with
      | zero =>
          cases listed
          exact Or.inl (List.mem_map.mpr ⟨(rest, found), (walk.exact rest found).mpr met, rfl⟩)
      | succ place =>
          exact Or.inr ⟨place, rest, child, by rw [Nat.add_assoc, Nat.add_comm 1], listed, met⟩

theorem exists_walks (each : ∀ node ∈ nodes, ∃ walk : List (List Nat × Node),
      walk.map Prod.snd = node.visited enters ∧ node.Walk enters walk) (first : Nat) :
    ∃ walk : List (List Nat × Node), walk.map Prod.snd = nodes.flatMap (Node.visited enters) ∧
      Node.Walks enters first nodes walk := by
  induction nodes generalizing first with
  | nil => exact ⟨[], rfl, .nil⟩
  | cons node rest ih =>
      obtain ⟨⟨here, met, walk⟩, behind⟩ := List.forall_mem_cons.mp each
      obtain ⟨others, metThere, walks⟩ := ih behind (first + 1)
      refine ⟨_, ?_, .cons walk walks⟩
      rw [List.map_append, List.map_map, List.flatMap_cons, ← met, ← metThere]
      rfl

theorem Node.Walk.refused (refused : enters node = false) : node.Walk enters [([], node)] where
  ordered := List.pairwise_singleton _ _
  exact address found := by
    rw [List.mem_singleton, Prod.mk.injEq]
    constructor
    · rintro ⟨rfl, rfl⟩
      exact ⟨found.at?_nil, found.opens_nil⟩
    · rintro ⟨leads, opens⟩
      cases address with
      | nil =>
          rw [Node.at?_nil] at leads
          exact ⟨rfl, (Option.some.inj leads).symm⟩
      | cons place rest =>
          have entered :=
            opens [] node List.nil_prefix (List.cons_ne_nil place rest).symm node.at?_nil
          cases refused.symm.trans entered

theorem Node.Walk.entered (entered : enters node = true)
    (walks : Node.Walks enters 0 node.children others) :
    node.Walk enters (([], node) :: others) where
  ordered := by
    rw [List.map_cons, List.pairwise_cons]
    refine ⟨fun late member => ?_, walks.ordered⟩
    obtain ⟨⟨address, other⟩, inside, rfl⟩ := List.mem_map.mp member
    obtain ⟨place, rest, child, rfl, -⟩ := (walks.exact address other).mp inside
    exact List.nil_lt_cons _ _
  exact address found := by
    rw [List.mem_cons, walks.exact, Prod.mk.injEq]
    cases address with
    | nil =>
        rw [Node.at?_nil, Option.some.injEq]
        simp [Node.opens_nil, eq_comm]
    | cons place rest =>
        rw [Node.at?_cons, Option.bind_eq_some_iff]
        constructor
        · rintro (⟨same, -⟩ | ⟨other, behind, child, same, listed, leads, opens⟩)
          · cases same
          · obtain ⟨rfl, rfl⟩ := List.cons.inj same
            rw [Nat.zero_add] at *
            exact ⟨⟨child, listed, leads⟩, (Node.opens_cons listed).mpr ⟨entered, opens⟩⟩
        · rintro ⟨⟨child, listed, leads⟩, opens⟩
          exact Or.inr ⟨place, rest, child, by rw [Nat.zero_add], listed, leads,
            ((Node.opens_cons listed).mp opens).2⟩

end

theorem exists_walk (enters : Node → Bool) (root : Node) :
    ∃ walk : List (List Nat × Node), walk.map Prod.snd = root.visited enters ∧
      root.Walk enters walk := by
  have rises : Node.Rises fun node => ∃ walk : List (List Nat × Node),
      walk.map Prod.snd = node.visited enters ∧ node.Walk enters walk := by
    intro node each
    rw [Node.visited_eq]
    cases entered : enters node with
    | false => exact ⟨_, rfl, .refused entered⟩
    | true =>
        obtain ⟨others, met, walks⟩ := exists_walks each 0
        rw [if_pos rfl, ← met]
        exact ⟨_, rfl, .entered entered walks⟩
  exact rises.all root

/-! ### Positions -/

def Node.isNothing : Node → Bool
  | .items [] => true
  | _ => false

/-- What is met if nodes are refused is met in the same order if none is. -/
theorem visited_sublist (enters : Node → Bool) (root : Node) :
    (root.visited enters).Sublist (root.visited fun _ => true) := by
  have rises : Node.Rises fun node =>
      (node.visited enters).Sublist (node.visited fun _ => true) := by
    intro node each
    rw [Node.visited_eq, Node.visited_eq (fun _ => true), if_pos rfl]
    refine List.Sublist.cons_cons node ?_
    split
    · exact List.Sublist.flatMap_right _ each
    · exact List.nil_sublist _
  exact rises.all root

theorem Item.allSpans_eq (items : List Item) :
    Item.allSpans items = (items.map Node.item).flatMap Node.spans := by
  induction items with
  | nil => rfl
  | cons item rest ih => rw [Item.allSpans, ih, List.map_cons, List.flatMap_cons, Node.spans]

theorem Node.allSpans_eq (nodes : List Node) : Node.allSpans nodes = nodes.flatMap Node.spans := by
  induction nodes with
  | nil => rfl
  | cons node rest ih => rw [Node.allSpans, ih, List.flatMap_cons]

theorem spans_keys (keys : List Token) :
    (keys.map Node.key).flatMap Node.spans = keys.map Token.span := by
  induction keys with
  | nil => rfl
  | cons key rest ih => rw [List.map_cons, List.flatMap_cons, ih, Node.spans]; rfl

/-- What the children of a node have the place of, the node has the place of. -/
theorem Node.spans_children (node : Node) :
    (node.children.flatMap Node.spans).Sublist node.spans := by
  cases node with
  | literal token => exact List.nil_sublist _
  | key token => exact List.nil_sublist _
  | items inner => rw [Node.children, Node.spans, Item.allSpans_eq]
  | object opening closing inner =>
      rw [Node.children, List.flatMap_singleton, Node.spans, Node.spans, List.cons_append]
      exact (List.sublist_append_left _ _).cons _
  | list opening closing elements =>
      rw [Node.children, Node.spans, Node.allSpans_eq, List.cons_append]
      exact (List.sublist_append_left _ _).cons _
  | item one =>
      obtain ⟨keys, value, assign, lead⟩ := one
      rw [Node.children, Node.spans, List.flatMap_append, spans_keys]
      cases value with
      | none =>
          rw [Item.spans]
          exact (List.Sublist.refl _).append (List.nil_sublist _)
      | some value =>
          rw [Item.spans, Option.toList_some, List.flatMap_singleton]
          exact (List.sublist_append_left _ _).append (List.Sublist.refl _)

def Node.Keyed (node : Node) : Prop :=
  ∀ item, .item item ∈ node.visited (fun _ => true) → item.keys ≠ []

theorem Node.Keyed.child {node child : Node} (keyed : node.Keyed) (member : child ∈ node.children) :
    child.Keyed := by
  intro item inside
  apply keyed item
  rw [Node.visited_eq, if_pos rfl]
  exact List.mem_cons_of_mem _ (List.mem_flatMap.mpr ⟨child, member, inside⟩)

theorem Node.Keyed.item {item : Item} (keyed : (Node.item item).Keyed) :
    ∃ span rest, item.spans = span :: rest ∧ span.position = item.position := by
  have filled := keyed item (by rw [Node.visited_eq]; exact List.mem_cons_self)
  obtain ⟨keys, value, assign, lead⟩ := item
  cases keys with
  | nil => exact absurd rfl filled
  | cons key others => cases value <;> exact ⟨key.span, _, rfl, rfl⟩

/-- A node starts where the first thing does that it has the place of. -/
theorem Node.Keyed.starts {node : Node} (keyed : node.Keyed) (filled : node.isNothing = false) :
    ∃ span rest, node.spans = span :: rest ∧ span.position = node.position := by
  cases node with
  | literal token => exact ⟨token.span, [], rfl, rfl⟩
  | key token => exact ⟨token.span, [], rfl, rfl⟩
  | item one => exact keyed.item
  | object opening closing inner => exact ⟨_, _, rfl, rfl⟩
  | list opening closing elements => exact ⟨_, _, rfl, rfl⟩
  | items inner =>
      cases inner with
      | nil => cases filled
      | cons one others =>
          have first : (Node.item one).Keyed := keyed.child List.mem_cons_self
          obtain ⟨span, rest, spans, place⟩ := first.item
          refine ⟨span, rest ++ Item.allSpans others, ?_, place⟩
          rw [Node.spans, Item.allSpans, spans, List.cons_append]

def Node.placed (node : Node) : List Node :=
  (node.visited fun _ => true).filter fun met => !met.isNothing

theorem Node.placed_eq (node : Node) :
    node.placed = if node.isNothing then node.children.flatMap Node.placed
      else node :: node.children.flatMap Node.placed := by
  rw [Node.placed, Node.visited_eq, if_pos rfl, List.filter_cons, List.filter_flatMap]
  cases node.isNothing <;> rfl

def Span.Precedes (first second : Span) : Prop := first.position.offset < second.position.offset

/-- Nodes in the order in which they start, each with one of some stretches of text. -/
structure Lined (spans : List Span) (nodes : List Node) : Prop where
  ordered : nodes.Pairwise fun first second => first.position.offset ≤ second.position.offset
  placed : ∀ node ∈ nodes, ∃ span ∈ spans, span.position = node.position

theorem Lined.widen {spans more : List Span} {nodes : List Node} (lined : Lined spans nodes)
    (inside : spans ⊆ more) : Lined more nodes where
  ordered := lined.ordered
  placed node member := by
    obtain ⟨span, among, place⟩ := lined.placed node member
    exact ⟨span, inside among, place⟩

def Node.Precedes (first second : Node) : Prop :=
  ∀ span ∈ first.spans, ∀ other ∈ second.spans, span.Precedes other

/-- Nodes side by side are lined up if each is and they stand one behind the other. -/
theorem Lined.flatMap {nodes : List Node} (each : ∀ node ∈ nodes, Lined node.spans node.placed)
    (apart : nodes.Pairwise Node.Precedes) :
    Lined (nodes.flatMap Node.spans) (nodes.flatMap Node.placed) where
  ordered := by
    rw [List.pairwise_flatMap]
    refine ⟨fun node member => (each node member).ordered, ?_⟩
    refine apart.imp_of_mem fun {first second} here there follows early inFirst late inSecond => ?_
    obtain ⟨span, among, place⟩ := (each first here).placed early inFirst
    obtain ⟨other, amongThese, placeThere⟩ := (each second there).placed late inSecond
    rw [← place, ← placeThere]
    exact Int.le_of_lt (follows span among other amongThese)
  placed found member := by
    obtain ⟨node, listed, inside⟩ := List.mem_flatMap.mp member
    obtain ⟨span, among, place⟩ := (each node listed).placed found inside
    exact ⟨span, List.mem_flatMap.mpr ⟨node, listed, among⟩, place⟩

theorem Lined.cons {node : Node} {first : Span} {rest : List Span} {nodes : List Node}
    (lined : Lined (first :: rest) nodes) (follow : ∀ span ∈ rest, first.Precedes span)
    (place : first.position = node.position) : Lined (first :: rest) (node :: nodes) where
  ordered := by
    refine List.pairwise_cons.mpr ⟨fun late member => ?_, lined.ordered⟩
    obtain ⟨span, among, placeThere⟩ := lined.placed late member
    rw [← place, ← placeThere]
    rcases List.mem_cons.mp among with rfl | behind
    · exact Int.le_refl _
    · exact Int.le_of_lt (follow span behind)
  placed := List.forall_mem_cons.mpr ⟨⟨first, List.mem_cons_self, place⟩, lined.placed⟩

theorem Node.children_ordered {node : Node} (ordered : node.spans.Pairwise Span.Precedes) :
    (∀ child ∈ node.children, child.spans.Pairwise Span.Precedes) ∧
      node.children.Pairwise Node.Precedes :=
  List.pairwise_flatMap.mp (ordered.sublist node.spans_children)

theorem Node.Keyed.lined {root : Node} (keyed : root.Keyed)
    (ordered : root.spans.Pairwise Span.Precedes) : Lined root.spans root.placed := by
  have rises : Node.Rises fun node => node.Keyed → node.spans.Pairwise Span.Precedes →
      Lined node.spans node.placed := by
    intro node each keyed ordered
    obtain ⟨inside, apart⟩ := node.children_ordered ordered
    have children := (Lined.flatMap (fun child member =>
      each child member (keyed.child member) (inside child member)) apart).widen
        node.spans_children.subset
    rw [Node.placed_eq]
    cases filled : node.isNothing with
    | true => exact children
    | false =>
        obtain ⟨first, rest, spans, place⟩ := keyed.starts filled
        rw [spans] at children ordered ⊢
        exact children.cons (List.pairwise_cons.mp ordered).1 place
  exact rises.all root keyed ordered

theorem siblings_ordered {root : Node} (ordered : root.spans.Pairwise Span.Precedes) :
    ∀ node ∈ root.visited (fun _ => true), node.children.Pairwise Node.Precedes := by
  have rises : Node.Rises fun root => root.spans.Pairwise Span.Precedes →
      ∀ node ∈ root.visited (fun _ => true), node.children.Pairwise Node.Precedes := by
    intro root each ordered
    obtain ⟨inside, apart⟩ := root.children_ordered ordered
    rw [Node.visited_eq, if_pos rfl, List.forall_mem_cons]
    refine ⟨apart, fun node member => ?_⟩
    obtain ⟨child, listed, within⟩ := List.mem_flatMap.mp member
    exact each child listed (inside child listed) node within
  exact rises.all root ordered

/-! ### Documents -/

/-- What lies side by side in a text starts at ever larger offsets. -/
theorem Tiled.spans_ordered {position : Position} {text : List Char} {spans : List Span}
    {comments : List Comment} (tiled : Tiled position text spans comments) :
    (∀ span ∈ spans, position.offset ≤ span.position.offset) ∧ spans.Pairwise Span.Precedes := by
  induction tiled with
  | done => exact ⟨List.forall_mem_nil _, List.Pairwise.nil⟩
  | @filler position c _ _ _ _ _ ih =>
      have before := Int.le_of_lt (position.offset_lt_advance c)
      exact ⟨fun span member => Int.le_trans before (ih.1 span member), ih.2⟩
  | @comment comment _ _ _ _ _ _ ih =>
      have before := comment.position.offset_le_advanceBy comment.text.toList
      exact ⟨fun span member => Int.le_trans before (ih.1 span member), ih.2⟩
  | @span position word _ _ _ filled _ ih =>
      have before := position.offset_lt_advanceBy filled
      refine ⟨List.forall_mem_cons.mpr ⟨Int.le_refl _, fun span member => ?_⟩,
        List.pairwise_cons.mpr ⟨fun span member => ?_, ih.2⟩⟩
      · exact Int.le_trans (Int.le_of_lt before) (ih.1 span member)
      · exact Int.lt_of_lt_of_le before (ih.1 span member)

theorem parseChars_keyed {text : List Char} {file : File} (read : parseChars text = .ok file) :
    file.root.Keyed := by
  intro item inside
  obtain ⟨key, rest, keys, -⟩ := parseChars_item read inside
  rw [keys]
  exact List.cons_ne_nil key rest

/-- A walk through a document meets the nodes that no refused one stands above, each once and in the
order of their addresses: a node before those inside it, and these in the order of the text. So the
offsets at which nodes start never fall, where an empty run of items is left aside. -/
theorem parse_visited (content : Content) (file : File) (read : content.parse = .ok file)
    (enters : Node → Bool) :
    (∃ walk : List (List Nat × Node), walk.map Prod.snd = file.root.visited enters ∧
      (walk.map Prod.fst).Pairwise (· < ·) ∧
      ∀ address node, (address, node) ∈ walk ↔
        file.root.at? address = some node ∧ file.root.Opens enters address) ∧
    (∀ node ∈ file.root.visited enters, node.children.Pairwise Node.Precedes) ∧
    ((file.root.visited enters).filter fun node => !node.isNothing).Pairwise
      fun first second => first.position.offset ≤ second.position.offset := by
  obtain ⟨text, parsed⟩ := content.parse_parseChars read
  have ordered : file.root.spans.Pairwise Span.Precedes := (parseChars_tiled parsed).spans_ordered.2
  have fewer := visited_sublist enters file.root
  refine ⟨?walk, fun node member => siblings_ordered ordered node (fewer.subset member), ?offsets⟩
  case walk =>
    obtain ⟨walk, met, sound⟩ := exists_walk enters file.root
    exact ⟨walk, met, sound.ordered, sound.exact⟩
  case offsets =>
    exact ((parseChars_keyed parsed).lined ordered).ordered.sublist (fewer.filter _)

/-- A list that is not entered, between nodes that are. -/
theorem parse_visited_list :
    let content := Content.text "b \"c\" \x7b\n  d = [2]\n\x7d\ne = 1"
    let enters (node : Node) : Bool := node.tag != "ListType"
    ∃ file, content.parse = .ok file ∧
      (file.root.visited enters).map Node.tag = ["ObjectList", "ObjectItem", "ObjectKey",
        "ObjectKey", "ObjectType", "ObjectList", "ObjectItem", "ObjectKey", "ListType",
        "ObjectItem", "ObjectKey", "LiteralType"] ∧
      ((file.root.visited enters).filter fun node => !node.isNothing).Pairwise
        fun first second => first.position.offset ≤ second.position.offset := by
  intro content enters
  have met : (content.parse.toOption.map fun file => (file.root.visited enters).map Node.tag) =
      some ["ObjectList", "ObjectItem", "ObjectKey", "ObjectKey", "ObjectType", "ObjectList",
        "ObjectItem", "ObjectKey", "ListType", "ObjectItem", "ObjectKey", "LiteralType"] := by
    decide +kernel
  cases read : content.parse with
  | error error =>
      rw [read] at met
      cases met
  | ok file =>
      rw [read] at met
      exact ⟨file, rfl, Option.some.inj met, (parse_visited content file read enters).2.2⟩

end ConfigIndex.Document
