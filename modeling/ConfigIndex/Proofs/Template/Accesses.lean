import ConfigIndex.Proofs.Template.Limits
import ConfigIndex.Proofs.Template.Places

/-!
The points that reading a template gives back: those of the variables in its tree, and those of its
errors.
-/

namespace ConfigIndex.Template

def Node.allAccesses (nodes : List Node) : List (String × Point) :=
  (Node.visitedAll nodes).filterMap Node.access?

section

variable (point : Point)

@[simp] theorem accesses_literal (value : Literal) : (Node.literal value point).accesses = [] := rfl

@[simp] theorem accesses_access (name : String) :
    (Node.access name point).accesses = [(name, point)] := rfl

@[simp] theorem accesses_call (function : String) (arguments : List Node) :
    (Node.call function arguments point).accesses = Node.allAccesses arguments := by
  simp [Node.accesses, Node.visited, Node.allAccesses, Node.access?]

@[simp] theorem accesses_index (target key : Node) :
    (Node.index target key point).accesses = target.accesses ++ key.accesses := by
  simp [Node.accesses, Node.visited, Node.access?]

@[simp] theorem accesses_arithmetic (operator : Operator) (operands : List Node) :
    (Node.arithmetic operator operands point).accesses = Node.allAccesses operands := by
  simp [Node.accesses, Node.visited, Node.allAccesses, Node.access?]

@[simp] theorem accesses_conditional (condition yes no : Node) :
    (Node.conditional condition yes no point).accesses =
      condition.accesses ++ yes.accesses ++ no.accesses := by
  simp [Node.accesses, Node.visited, Node.access?]

@[simp] theorem accesses_output (parts : List Node) :
    (Node.output parts point).accesses = Node.allAccesses parts := by
  simp [Node.accesses, Node.visited, Node.allAccesses, Node.access?]

end

@[simp] theorem allAccesses_nil : Node.allAccesses [] = [] := rfl

@[simp] theorem allAccesses_cons (node : Node) (rest : List Node) :
    Node.allAccesses (node :: rest) = node.accesses ++ Node.allAccesses rest := by
  simp [Node.allAccesses, Node.visitedAll, Node.accesses]

theorem accesses_quotedNode (parts : List Node) (point : Point) :
    (quotedNode parts point).accesses = Node.allAccesses parts := by
  unfold quotedNode
  split
  · rename_i part
    split
    · simp
    · simp
  · simp

def Known (accesses : List (String × Point)) (uses : List Use) : Prop :=
  ∀ name point, (name, point) ∈ accesses → ⟨point, some name⟩ ∈ uses

theorem Known.append {accesses more : List (String × Point)} {uses others : List Use}
    (first : Known accesses uses) (second : Known more others) :
    Known (accesses ++ more) (uses ++ others) := by
  intro name point member
  rcases List.mem_append.mp member with member | member
  · exact List.mem_append_left _ (first name point member)
  · exact List.mem_append_right _ (second name point member)

theorem Known.behind {accesses : List (String × Point)} {uses : List Use}
    (known : Known accesses uses) (use : Use) : Known accesses (use :: uses) :=
  fun name point member => List.mem_cons_of_mem use (known name point member)

theorem known_name (name : String) (point : Point) :
    Known (nameNode name point).accesses [⟨point, some name⟩] := by
  intro other place member
  unfold nameNode at member
  split at member
  · cases member
  · split at member
    · cases member
    · simp only [accesses_access, List.mem_singleton, Prod.mk.injEq] at member
      obtain ⟨rfl, rfl⟩ := member
      exact List.mem_singleton.mpr rfl

mutual

theorem Expr.known (expr : Expr) : Known expr.tree.accesses expr.uses := by
  cases expr with
  | number text point =>
      simp only [Expr.tree, numberTree]
      split
      · exact fun name point member => by cases member
      · exact fun name point member => by cases member
  | name text point => exact known_name text point
  | call name point arguments =>
      rw [Expr.tree, accesses_call, Expr.uses]
      exact (Expr.allKnown arguments).behind _
  | index name point key =>
      have target : Known (Node.access name point).accesses [⟨point, some name⟩] := by
        intro other place member
        simpa [and_comm] using member
      rw [Expr.tree, accesses_index, Expr.uses]
      exact target.append (Expr.known key)
  | unary operator point operand =>
      rw [Expr.tree, accesses_arithmetic, allAccesses_cons, allAccesses_nil, List.append_nil]
      exact (Expr.known operand).behind _
  | binary operator start left right =>
      rw [Expr.tree, accesses_arithmetic, allAccesses_cons, allAccesses_cons, allAccesses_nil,
        List.append_nil]
      exact ((Expr.known left).append (Expr.known right)).behind _
  | conditional start condition yes no =>
      rw [Expr.tree, accesses_conditional]
      exact (((Expr.known condition).append (Expr.known yes)).append (Expr.known no)).behind _
  | quoted point parts =>
      rw [Expr.tree, accesses_quotedNode]
      exact (Part.known unescape parts).behind _

theorem Expr.allKnown (exprs : List Expr) :
    Known (Node.allAccesses (Expr.trees exprs)) (Expr.allUses exprs) := by
  cases exprs with
  | nil => exact fun name point member => by cases member
  | cons expr rest =>
      rw [Expr.trees, allAccesses_cons]
      exact (Expr.known expr).append (Expr.allKnown rest)

theorem Part.known (free : List Char → List Char) (parts : List Part) :
    Known (Node.allAccesses (Part.trees free parts)) (Part.uses parts) := by
  match parts with
  | [] => exact fun name point member => by cases member
  | .text text point :: rest =>
      rw [Part.trees, allAccesses_cons, accesses_literal, List.nil_append]
      exact (Part.known free rest).behind _
  | .expr expr :: rest =>
      rw [Part.trees, allAccesses_cons]
      exact (Expr.known expr).append (Part.known free rest)

end

/-- The variables of a tree stand in its text, each with the point that the tree gives it. -/
theorem parseChars_accesses {basis point : Point} {text : List Char} {root : Node} {name : String}
    (read : parseChars basis text = .ok root) (member : (name, point) ∈ root.accesses) :
    ∃ front rest, text = front ++ rest ∧ point = basis.advanceBy front ∧ '}' ∈ rest ∧
      namePattern.first? rest = some name.toList := by
  obtain ⟨parts, ⟨stop, derives⟩, _, _, rfl⟩ := parseChars_eq_ok_iff.mp read
  rw [accesses_output] at member
  have used := Part.known id parts name point member
  obtain ⟨spot, ⟨front, cut, moved⟩, _, place, named⟩ := derives.uses _ used
  obtain ⟨first, brace⟩ := named name rfl
  exact ⟨front, spot.rest, cut, place.symm.trans moved, brace trivial, first⟩

def Inside (point basis : Point) (text : List Char) : Prop :=
  ∃ front rest, text = front ++ rest ∧ point = basis.advanceBy front

theorem Use.Within.inside {use : Use} {enclosed : Prop} {start stop : Spot}
    (within : use.Within enclosed start stop) : Inside use.point start.point start.rest := by
  obtain ⟨spot, ⟨front, cut, moved⟩, _, place, _⟩ := within
  exact ⟨front, spot.rest, cut, place.symm.trans moved⟩

theorem scan_parts_error {basis : Point} {text : List Char} {error : Error}
    (failed : (scan basis text).parts = .error error) : Inside error.point basis text := by
  rw [scan_parts] at failed
  obtain ⟨last, stop, gap, left, steps, cut, -, place, -⟩ := steps_of_error _ _ failed
  obtain ⟨front, reached, moved⟩ := steps.leads
  refine ⟨front ++ gap, left, ?_, ?_⟩
  · rw [List.append_assoc, ← cut]
    exact reached
  · rw [place, moved, Point.advanceBy_append]

theorem Expr.point_uses (expr : Expr) : ∃ use ∈ expr.uses, expr.point = use.point := by
  cases expr with
  | _ => exact ⟨_, List.mem_cons_self, rfl⟩

theorem numberNode_plain {text : List Char} {point : Point} {error : Error} :
    numberNode text point ≠ .error (.faulty error) := by
  unfold numberNode
  split
  · simp
  · split
    · simp
    · simp

theorem Expr.uses_subset {expr : Expr} {exprs : List Expr} (member : expr ∈ exprs) :
    expr.uses ⊆ Expr.allUses exprs := by
  induction member with
  | head => exact List.subset_append_left _ _
  | tail _ _ ih => exact List.subset_append_of_subset_right _ ih

theorem Part.uses_subset {expr : Expr} {parts : List Part} (member : expr ∈ Part.exprs parts) :
    expr.uses ⊆ Part.uses parts := by
  match parts with
  | [] => cases member
  | .text _ _ :: rest => exact List.subset_cons_of_subset _ (@Part.uses_subset _ rest member)
  | .expr one :: rest =>
      cases member with
      | head => exact List.subset_append_left _ _
      | tail _ among => exact List.subset_append_of_subset_right _ (Part.uses_subset among)

theorem Expr.uses_inner {expr part : Expr} (member : part ∈ expr.inner) :
    part.uses ⊆ expr.uses := by
  have among := Expr.uses_subset member
  cases expr with
  | number | name => cases member
  | quoted point parts => exact List.subset_cons_of_subset _ (Part.uses_subset member)
  | _ =>
      refine List.subset_cons_of_subset _ ?_
      simpa [Expr.inner, Expr.allUses] using among

/-- The tree builder itself finds no fault but nesting, at one of the expressions. -/
theorem Expr.node_faulty {level : Nat} {error : Error} (expr : Expr)
    (failed : expr.node level = .error (.faulty error)) :
    ∃ use ∈ expr.uses, error.point = use.point ∧ error.fault = .tooDeep := by
  rcases Expr.node_error failed with same | ⟨text, point, rfl, number⟩ |
    ⟨shallow, part, member, failed⟩
  · cases same
    obtain ⟨use, member, same⟩ := expr.point_uses
    exact ⟨use, member, same, rfl⟩
  · exact absurd number numberNode_plain
  · obtain ⟨use, among, same⟩ := Expr.node_faulty part failed
    exact ⟨use, Expr.uses_inner member among, same⟩
termination_by maxLevels + 1 - level

theorem Part.nodes_faulty {free : List Char → List Char} {level : Nat} {error : Error}
    (parts : List Part) (failed : Part.nodes free level parts = .error (.faulty error)) :
    ∃ use ∈ Part.uses parts, error.point = use.point ∧ error.fault = .tooDeep := by
  obtain ⟨expr, member, failed⟩ := Part.nodes_error failed
  obtain ⟨use, among, same⟩ := Expr.node_faulty expr failed
  exact ⟨use, Part.uses_subset member among, same⟩

theorem parseChars_faulty {basis : Point} {text : List Char} {error : Error}
    (failed : parseChars basis text = .error (.faulty error)) :
    Inside error.point basis text := by
  unfold parseChars at failed
  split at failed
  · rename_i rejected
    cases failed
    exact scan_parts_error rejected
  · rename_i parts accepted
    split at failed
    · rename_i failure faulty
      cases failed
      obtain ⟨stop, derives⟩ := scan_parts_eq_ok_iff.mp accepted
      obtain ⟨use, member, same, -⟩ := Part.nodes_faulty parts faulty
      rw [same]
      exact (derives.uses use member).inside
    · cases failed

/-- Apart from nesting that is too deep, the errors are those that the words themselves lead to. -/
theorem parts_of_faulty {basis : Point} {text : List Char} {error : Error}
    (failed : parseChars basis text = .error (.faulty error)) (nested : error.fault ≠ .tooDeep) :
    (scan basis text).parts = .error error := by
  unfold parseChars at failed
  split at failed
  · rename_i rejected
    cases failed
    exact rejected
  · split at failed
    · rename_i failure faulty
      cases failed
      obtain ⟨use, member, same, tooDeep⟩ := Part.nodes_faulty _ faulty
      exact absurd tooDeep nested
    · cases failed

end ConfigIndex.Template
