import ConfigIndex.Proofs.Position
import ConfigIndex.Proofs.Template.Accesses

/-!
The variables of a template: which ones its tree holds, and that they come in the order of the text.
-/

namespace ConfigIndex.Template

inductive Node.Reads (name : String) (point : Point) : Node → Prop
  | access : Node.Reads name point (.access name point)
  | argument {function arguments place node} : node ∈ arguments → Node.Reads name point node →
      Node.Reads name point (.call function arguments place)
  | target {target key place} : Node.Reads name point target →
      Node.Reads name point (.index target key place)
  | key {target key place} : Node.Reads name point key →
      Node.Reads name point (.index target key place)
  | operand {operator operands place node} : node ∈ operands → Node.Reads name point node →
      Node.Reads name point (.arithmetic operator operands place)
  | condition {condition yes no place} : Node.Reads name point condition →
      Node.Reads name point (.conditional condition yes no place)
  | yes {condition yes no place} : Node.Reads name point yes →
      Node.Reads name point (.conditional condition yes no place)
  | no {condition yes no place} : Node.Reads name point no →
      Node.Reads name point (.conditional condition yes no place)
  | part {parts place node} : node ∈ parts → Node.Reads name point node →
      Node.Reads name point (.output parts place)

theorem mem_allAccesses {access : String × Point} {nodes : List Node} :
    access ∈ Node.allAccesses nodes ↔ ∃ node ∈ nodes, access ∈ node.accesses := by
  induction nodes with
  | nil => simp
  | cons node rest ih => simp [ih]

section

variable {name : String} {point : Point}

mutual

theorem Node.reads_of_mem (node : Node) (member : (name, point) ∈ node.accesses) :
    node.Reads name point := by
  cases node with
  | literal value place => cases member
  | access other place =>
      rw [accesses_access, List.mem_singleton] at member
      cases member
      exact Node.Reads.access
  | call function arguments place =>
      rw [accesses_call] at member
      obtain ⟨argument, listed, reads⟩ := Node.reads_of_memAll arguments member
      exact Node.Reads.argument listed reads
  | index target key place =>
      rw [accesses_index] at member
      rcases List.mem_append.mp member with member | member
      · exact Node.Reads.target (Node.reads_of_mem target member)
      · exact Node.Reads.key (Node.reads_of_mem key member)
  | arithmetic operator operands place =>
      rw [accesses_arithmetic] at member
      obtain ⟨operand, listed, reads⟩ := Node.reads_of_memAll operands member
      exact Node.Reads.operand listed reads
  | conditional condition yes no place =>
      rw [accesses_conditional] at member
      rcases List.mem_append.mp member with member | member
      · rcases List.mem_append.mp member with member | member
        · exact Node.Reads.condition (Node.reads_of_mem condition member)
        · exact Node.Reads.yes (Node.reads_of_mem yes member)
      · exact Node.Reads.no (Node.reads_of_mem no member)
  | output parts place =>
      rw [accesses_output] at member
      obtain ⟨part, listed, reads⟩ := Node.reads_of_memAll parts member
      exact Node.Reads.part listed reads

theorem Node.reads_of_memAll (nodes : List Node) (member : (name, point) ∈ Node.allAccesses nodes) :
    ∃ node ∈ nodes, node.Reads name point := by
  cases nodes with
  | nil => cases member
  | cons node rest =>
      rw [allAccesses_cons] at member
      rcases List.mem_append.mp member with first | later
      · exact ⟨node, List.mem_cons_self, Node.reads_of_mem node first⟩
      · obtain ⟨other, listed, reads⟩ := Node.reads_of_memAll rest later
        exact ⟨other, List.mem_cons_of_mem _ listed, reads⟩

end

/-- Going through a tree in order leaves out no variable and makes up none. -/
theorem Node.mem_accesses_iff {node : Node} :
    (name, point) ∈ node.accesses ↔ node.Reads name point := by
  constructor
  · exact Node.reads_of_mem node
  · intro reads
    induction reads with
    | access => simp
    | argument listed _ ih =>
        rw [accesses_call]
        exact mem_allAccesses.mpr ⟨_, listed, ih⟩
    | target _ ih => simp [ih]
    | key _ ih => simp [ih]
    | operand listed _ ih =>
        rw [accesses_arithmetic]
        exact mem_allAccesses.mpr ⟨_, listed, ih⟩
    | condition _ ih => simp [ih]
    | yes _ ih => simp [ih]
    | no _ ih => simp [ih]
    | part listed _ ih =>
        rw [accesses_output]
        exact mem_allAccesses.mpr ⟨_, listed, ih⟩

end

def Spot.Precedes (start stop : Spot) : Prop :=
  ∃ front, front ≠ [] ∧ start.rest = front ++ stop.rest ∧
    stop.point = start.point.advanceBy front

theorem Word.precedes {terminal : Terminal} {start stop : Spot} {lexeme : Lexeme}
    (word : Word terminal start lexeme stop) : start.Precedes stop := by
  cases word with
  | @mk point word rest first =>
      exact ⟨word, (pattern_consumes terminal).first?_ne_nil first, rfl, rfl⟩

theorem Spot.Precedes.before {start stop : Spot} (precedes : start.Precedes stop) :
    start.point.Before stop.point := by
  obtain ⟨front, filled, _, moved⟩ := precedes
  rw [moved]
  exact Point.before_advanceBy filled start.point

theorem Spot.Leads.before {start stop : Spot} (leads : start.Leads stop) {point : Point}
    (before : point.Before start.point) : point.Before stop.point := by
  obtain ⟨front, cut, moved⟩ := leads
  cases front with
  | nil => rwa [moved]
  | cons c rest =>
      have precedes : start.Precedes stop := ⟨c :: rest, by simp, cut, moved⟩
      exact before.trans precedes.before

inductive Chain : Spot → List Point → Spot → Prop
  | none {start stop} : start.Leads stop → Chain start [] stop
  | more {start spot next points stop} : start.Leads spot → spot.Precedes next →
      Chain next points stop → Chain start (spot.point :: points) stop

namespace Chain

variable {start middle stop : Spot} {points more : List Point}

theorem behind (leads : start.Leads middle) (chain : Chain middle points stop) :
    Chain start points stop := by
  cases chain with
  | none further => exact Chain.none (leads.trans further)
  | more further precedes rest => exact Chain.more (leads.trans further) precedes rest

theorem append (chain : Chain start points middle) (further : Chain middle more stop) :
    Chain start (points ++ more) stop := by
  induction chain with
  | none leads => exact behind leads further
  | more leads precedes _ ih => exact Chain.more leads precedes (ih further)

theorem widen (chain : Chain start points middle) (leads : middle.Leads stop) :
    Chain start points stop := by
  have further := chain.append (Chain.none leads)
  rwa [List.append_nil] at further

theorem sorted (chain : Chain start points stop) :
    points.Pairwise Point.Before ∧ ∀ first : Point, first.Before start.point →
      ∀ point ∈ points, first.Before point := by
  induction chain with
  | none leads => exact ⟨List.Pairwise.nil, fun first _ point member => by cases member⟩
  | more leads precedes _ ih =>
      obtain ⟨sorted, above⟩ := ih
      refine ⟨List.pairwise_cons.mpr ⟨above _ precedes.before, sorted⟩, ?_⟩
      intro first before point member
      have here := leads.before before
      rcases List.mem_cons.mp member with rfl | later
      · exact here
      · exact above first (here.trans precedes.before) point later

end Chain

theorem Token.chain {start stop : Spot} {lexeme : Lexeme}
    (token : Token .ident start lexeme stop) : Chain start [lexeme.point] stop := by
  cases token with
  | @mk point gap rest _ _ gaps word =>
      have leads : Spot.Leads ⟨point, gap ++ rest⟩ ⟨point.advanceBy gap, rest⟩ := ⟨gap, rfl, rfl⟩
      rw [← word.stands.1]
      exact Chain.more leads word.precedes (Chain.none (Spot.Leads.refl stop))

theorem accesses_numberTree (text : List Char) (point : Point) :
    (numberTree text point).accesses = [] := by
  unfold numberTree
  split
  · rfl
  · rfl

theorem accesses_nameNode (name : String) (point : Point) :
    (nameNode name point).accesses = [] ∨ (nameNode name point).accesses = [(name, point)] := by
  unfold nameNode
  split
  · exact Or.inl rfl
  · split
    · exact Or.inl rfl
    · exact Or.inr rfl

def Phrase.accesses : Phrase → List (String × Point)
  | .text parts => Node.allAccesses (Part.trees id parts)
  | .quoted parts => Node.allAccesses (Part.trees unescape parts)
  | .expression _ operand => operand.expr.tree.accesses
  | .arguments exprs => Node.allAccesses (Expr.trees exprs)

theorem Derives.chain {start stop : Spot} {phrase : Phrase} (derives : Derives start phrase stop) :
    Chain start (phrase.accesses.map Prod.snd) stop := by
  -- The parts of a phrase lie side by side, and so do the variables in them.
  induction derives with
  | textEnd | quotedEnd => exact Chain.none (Spot.Leads.refl _)
  | textPart word _ ih | quotedPart word _ ih =>
      simp only [Phrase.accesses, Part.trees, allAccesses_cons, accesses_literal,
        List.nil_append] at ih ⊢
      exact ih.behind word.leads
  | interpolation opening _ closing _ inner ih | quotedInterpolation opening _ closing _ inner ih =>
      simp only [Phrase.accesses, Part.trees, allAccesses_cons, List.map_append] at inner ih ⊢
      exact (inner.behind opening.leads).append (ih.behind closing.leads)
  | number token =>
      simp only [Phrase.accesses, Expr.tree, accesses_numberTree]
      exact Chain.none token.leads
  | @name start lexeme stop token =>
      simp only [Phrase.accesses, Expr.tree]
      rcases accesses_nameNode lexeme.text lexeme.point with none | one
      · rw [none]
        exact Chain.none token.leads
      · rw [one]
        exact token.chain
  | emptyCall name opening closing =>
      exact Chain.none (name.leads.trans (opening.leads.trans closing.leads))
  | call name opening _ closing ih =>
      simp only [Phrase.accesses, Expr.tree, accesses_call] at ih ⊢
      exact (ih.behind (name.leads.trans opening.leads)).widen closing.leads
  | index name opening _ closing ih =>
      simp only [Phrase.accesses, Expr.tree, accesses_index, accesses_access,
        List.map_append] at ih ⊢
      exact name.chain.append ((ih.behind opening.leads).widen closing.leads)
  | group opening _ closing ih => exact (ih.behind opening.leads).widen closing.leads
  | string opening _ closing ih =>
      simp only [Phrase.accesses, Expr.tree, accesses_quotedNode] at ih ⊢
      exact (ih.behind opening.leads).widen closing.leads
  | unary _ sign _ ih =>
      simp only [Phrase.accesses, Expr.tree, accesses_arithmetic, allAccesses_cons,
        allAccesses_nil, List.append_nil] at ih ⊢
      exact ih.behind sign.leads
  | binary _ _ _ mark _ left right | comparison _ _ _ mark _ left right =>
      simp only [Phrase.accesses, Expr.tree, accesses_arithmetic, allAccesses_cons,
        allAccesses_nil, List.append_nil, List.map_append] at left right ⊢
      exact left.append (right.behind mark.leads)
  | conditional _ question _ colon _ condition yes no =>
      simp only [Phrase.accesses, Expr.tree, accesses_conditional,
        List.map_append] at condition yes no ⊢
      exact (condition.append (yes.behind question.leads)).append (no.behind colon.leads)
  | tighter _ _ ih => exact ih
  | lastArgument _ ih =>
      simp only [Phrase.accesses, Expr.trees, allAccesses_cons, allAccesses_nil,
        List.append_nil] at ih ⊢
      exact ih
  | moreArguments _ comma _ first ih =>
      simp only [Phrase.accesses, Expr.trees, allAccesses_cons, List.map_append] at first ih ⊢
      exact first.append (ih.behind comma.leads)

/-- The variables of a template come in the order of the text. -/
theorem parseChars_sorted {basis : Point} {text : List Char} {root : Node}
    (read : parseChars basis text = .ok root) :
    root.accesses.Pairwise fun first second => first.2.Before second.2 := by
  obtain ⟨parts, ⟨stop, derives⟩, _, _, rfl⟩ := parseChars_eq_ok_iff.mp read
  rw [accesses_output]
  exact List.pairwise_map.mp derives.chain.sorted.1

end ConfigIndex.Template
