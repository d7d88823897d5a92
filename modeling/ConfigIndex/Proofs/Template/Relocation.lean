import ConfigIndex.Proofs.Position
import ConfigIndex.Proofs.Template.Accesses

/-!
Reading a template that does not stand at the start of a file. The points of its tree and of its
errors are those of the template by itself, moved to where it stands.
-/

namespace ConfigIndex

/-- Where a point of a template lies if the template starts at `basis`. Columns are shifted on the
first line only. -/
def Point.shift (basis point : Point) : Point :=
  ⟨basis.filename, basis.line + point.line - 1,
    if point.line = 1 then basis.column + point.column - 1 else point.column⟩

theorem Point.shift_start (basis : Point) : basis.shift .start = basis := by
  simp [Point.shift, Point.start]

theorem Point.shift_advance {basis point : Point} (below : 1 ≤ point.line) (c : Char) :
    basis.shift (point.advance c) = (basis.shift point).advance c := by
  by_cases newline : c = '\n'
  · simp [Point.shift, Point.advance, newline]
    omega
  · by_cases first : point.line = 1
    · simp [Point.shift, Point.advance, newline, first]
      omega
    · simp [Point.shift, Point.advance, newline, first]

theorem Point.line_advance {point : Point} (below : 1 ≤ point.line) (c : Char) :
    1 ≤ (point.advance c).line := by
  unfold Point.advance
  split
  · exact Int.le_add_one below
  · exact below

namespace Template

def movedResult {Value Fault : Type} (value : Value → Value) (fault : Fault → Fault) :
    Except Fault Value → Except Fault Value
  | .ok result => .ok (value result)
  | .error failure => .error (fault failure)

/-! What the parser builds is the same wherever its words stand. -/

section

variable (move : Point → Point)

def Lexeme.moved (lexeme : Lexeme) : Lexeme := { lexeme with point := move lexeme.point }

def Scan.moved (scan : Scan) : Scan :=
  ⟨scan.lexemes.map (Lexeme.moved move), scan.stray, move scan.final⟩

def Error.moved (error : Error) : Error := { error with point := move error.point }

def Failure.moved : Failure → Failure
  | .faulty error => .faulty (error.moved move)
  | .oversized digits => .oversized digits

mutual

def Node.moved : Node → Node
  | .literal value point => .literal value (move point)
  | .access name point => .access name (move point)
  | .call function arguments point => .call function (Node.allMoved arguments) (move point)
  | .index target key point => .index target.moved key.moved (move point)
  | .arithmetic operator operands point =>
    .arithmetic operator (Node.allMoved operands) (move point)
  | .conditional condition yes no point =>
    .conditional condition.moved yes.moved no.moved (move point)
  | .output parts point => .output (Node.allMoved parts) (move point)

def Node.allMoved : List Node → List Node
  | [] => []
  | node :: rest => node.moved :: Node.allMoved rest

end

mutual

def Expr.moved : Expr → Expr
  | .number text point => .number text (move point)
  | .name text point => .name text (move point)
  | .call name point arguments => .call name (move point) (Expr.allMoved arguments)
  | .index name point key => .index name (move point) key.moved
  | .unary operator point operand => .unary operator (move point) operand.moved
  | .binary operator start left right => .binary operator (move start) left.moved right.moved
  | .conditional start condition yes no =>
    .conditional (move start) condition.moved yes.moved no.moved
  | .quoted point parts => .quoted (move point) (Part.allMoved parts)

def Expr.allMoved : List Expr → List Expr
  | [] => []
  | expr :: rest => expr.moved :: Expr.allMoved rest

def Part.moved : Part → Part
  | .text text point => .text text (move point)
  | .expr expr => .expr expr.moved

def Part.allMoved : List Part → List Part
  | [] => []
  | part :: rest => part.moved :: Part.allMoved rest

end

def Operand.moved (operand : Operand) : Operand := ⟨move operand.start, operand.expr.moved move⟩

def Site.moved : Site → Site
  | .template before => .template (Part.allMoved move before)
  | .quoted outer quote before =>
    .quoted (Site.moved outer) (move quote) (Part.allMoved move before)
  | .group outer opening => .group (Site.moved outer) (move opening)
  | .argument outer name before =>
    .argument (Site.moved outer) (name.moved move) (Expr.allMoved move before)
  | .key outer name => .key (Site.moved outer) (name.moved move)
  | .unary outer operator point => .unary (Site.moved outer) operator (move point)
  | .right outer operator left => .right (Site.moved outer) operator (left.moved move)
  | .consequence outer condition => .consequence (Site.moved outer) (condition.moved move)
  | .alternative outer condition yes =>
    .alternative (Site.moved outer) (condition.moved move) (yes.moved move)

def Stage.moved : Stage → Stage
  | .text before => .text (Part.allMoved move before)
  | .quoted outer quote before =>
    .quoted (outer.moved move) (move quote) (Part.allMoved move before)
  | .awaiting site => .awaiting (site.moved move)
  | .arguments site name => .arguments (site.moved move) (name.moved move)
  | .named site name => .named (site.moved move) (name.moved move)
  | .complete site operand => .complete (site.moved move) (operand.moved move)

theorem Expr.allMoved_eq (exprs : List Expr) :
    Expr.allMoved move exprs = exprs.map (Expr.moved move) := by
  induction exprs with
  | nil => rfl
  | cons expr rest ih => rw [Expr.allMoved, ih, List.map_cons]

theorem Part.allMoved_eq (parts : List Part) :
    Part.allMoved move parts = parts.map (Part.moved move) := by
  induction parts with
  | nil => rfl
  | cons part rest ih => rw [Part.allMoved, ih, List.map_cons]

@[simp] theorem Part.allMoved_reverse (parts : List Part) :
    Part.allMoved move parts.reverse = (Part.allMoved move parts).reverse := by
  rw [Part.allMoved_eq, Part.allMoved_eq, List.map_reverse]

theorem bind_moved (level : Nat) (site : Site) (operand : Operand) :
    (site.moved move).bind level (operand.moved move) =
      ((site.bind level operand).1.moved move, (site.bind level operand).2.moved move) := by
  induction site generalizing operand with
  | unary outer operator point ih => exact ih ⟨point, .unary operator point operand.expr⟩
  | right outer operator left ih =>
      simp only [Site.moved, Site.bind]
      split
      · exact ih ⟨left.start, .binary operator left.start left.expr operand.expr⟩
      · rfl
  | _ => rfl

theorem stepBinary_moved (site : Site) (operand : Operand) (operator : Operator) :
    stepBinary (site.moved move) (operand.moved move) operator =
      (stepBinary site operand operator).map (Stage.moved move) := by
  unfold stepBinary
  rw [bind_moved]
  cases site.bind (if operator.isComparison then 4 else operator.level) operand with
  | mk outer left =>
      cases outer with
      | right further inner other =>
          simp only [Site.moved]
          split
          · rfl
          · rfl
      | _ => rfl

theorem close_moved (terminal : Terminal) (site : Site) (operand : Operand) :
    (site.moved move).close terminal (operand.moved move) =
      (site.close terminal operand).map (Stage.moved move) := by
  induction site generalizing operand with
  | unary outer operator point ih => exact ih ⟨point, .unary operator point operand.expr⟩
  | right outer operator left ih =>
      exact ih ⟨left.start, .binary operator left.start left.expr operand.expr⟩
  | alternative outer condition yes ih =>
      exact ih ⟨condition.start,
        .conditional condition.start condition.expr yes operand.expr⟩
  | argument outer name before =>
      simp only [Site.moved, Site.close]
      split
      · simp [Except.map, Stage.moved, Operand.moved, Expr.moved, Expr.allMoved_eq, Lexeme.moved]
      · split
        · rfl
        · rfl
  | _ =>
      simp only [Site.moved, Site.close]
      split
      · rfl
      · rfl

theorem stepOperator_moved (site : Site) (operand : Operand) (expected : Expected)
    (terminal : Terminal) :
    stepOperator (site.moved move) (operand.moved move) expected terminal =
      (stepOperator site operand expected terminal).map (Stage.moved move) := by
  unfold stepOperator
  split
  · exact stepBinary_moved move site operand _
  · split
    case h_1 =>
      rw [bind_moved]
      rfl
    case h_7 => rfl
    all_goals exact close_moved move _ site operand

theorem stepOperand_moved (site : Site) (expected : Expected) (lexeme : Lexeme) :
    stepOperand (site.moved move) expected (lexeme.moved move) =
      (stepOperand site expected lexeme).map (Stage.moved move) := by
  obtain ⟨terminal, text, point⟩ := lexeme
  cases terminal with
  | _ => rfl

theorem step_moved (stage : Stage) (lexeme : Lexeme) :
    (stage.moved move).step (lexeme.moved move) =
      (stage.step lexeme).map (Stage.moved move) := by
  cases stage with
  | text before =>
      obtain ⟨terminal, text, point⟩ := lexeme
      cases terminal with
      | _ => rfl
  | quoted outer quote before =>
      obtain ⟨terminal, text, point⟩ := lexeme
      cases terminal with
      | quote =>
          simp [Stage.step, Stage.moved, Lexeme.moved, Except.map, Operand.moved, Expr.moved]
      | _ => rfl
  | awaiting site => exact stepOperand_moved move site _ lexeme
  | arguments site name =>
      simp only [Stage.moved, Stage.step]
      have same : (lexeme.moved move).terminal = lexeme.terminal := rfl
      rw [same]
      split
      · rfl
      · exact stepOperand_moved move (.argument site name []) _ lexeme
  | named site name =>
      obtain ⟨terminal, text, point⟩ := lexeme
      simp only [Stage.moved, Stage.step, Lexeme.moved]
      split
      · rfl
      · rfl
      · exact stepOperator_moved move site ⟨name.point, .name name.text name.point⟩ _ terminal
  | complete site operand => exact stepOperator_moved move site operand _ lexeme.terminal

theorem run_moved (words : List Lexeme) : ∀ stage : Stage,
    (stage.moved move).run (words.map (Lexeme.moved move)) =
      movedResult (Stage.moved move) (Error.moved move) (stage.run words) := by
  induction words with
  | nil => exact fun stage => rfl
  | cons lexeme rest ih =>
      intro stage
      simp only [List.map_cons, Stage.run, step_moved]
      cases stage.step lexeme with
      | error expected => rfl
      | ok next => exact ih next

theorem expected_moved (stage : Stage) : (stage.moved move).expected = stage.expected := by
  cases stage with
  | _ => rfl

theorem parts_moved (scan : Scan) :
    (scan.moved move).parts =
      movedResult (Part.allMoved move) (Error.moved move) scan.parts := by
  unfold Scan.parts
  have ran := run_moved move scan.lexemes (.text [])
  rw [show (Stage.text []).moved move = .text [] from rfl] at ran
  rw [show (scan.moved move).lexemes = scan.lexemes.map (Lexeme.moved move) from rfl, ran]
  cases (Stage.text []).run scan.lexemes with
  | error error => rfl
  | ok stage =>
      simp only [Scan.moved, movedResult, expected_moved]
      cases scan.stray with
      | some word => rfl
      | none =>
          cases stage with
          | text before => simp [Stage.moved]
          | _ => rfl

/-! So are the trees, whether they come out or not. -/

def movedTree : Except Failure Node → Except Failure Node :=
  movedResult (Node.moved move) (Failure.moved move)

def movedTrees : Except Failure (List Node) → Except Failure (List Node) :=
  movedResult (Node.allMoved move) (Failure.moved move)

theorem numberNode_moved (text : List Char) (point : Point) :
    numberNode text (move point) = movedTree move (numberNode text point) := by
  unfold numberNode
  split
  · rfl
  · split
    · rfl
    · rfl

theorem nameNode_moved (name : String) (point : Point) :
    nameNode name (move point) = (nameNode name point).moved move := by
  unfold nameNode
  split
  · rfl
  · split
    · rfl
    · rfl

theorem quotedNode_moved (parts : List Node) (point : Point) :
    quotedNode (Node.allMoved move parts) (move point) =
      (quotedNode parts point).moved move := by
  match parts with
  | [] => rfl
  | [part] =>
      cases part with
      | _ => rfl
  | _ :: _ :: _ => rfl

theorem point_moved (expr : Expr) : (expr.moved move).point = move expr.point := by
  cases expr with
  | _ => rfl

mutual

theorem Expr.node_moved (level : Nat) (expr : Expr) :
    (expr.moved move).node level = movedTree move (expr.node level) := by
  have start := point_moved move expr
  -- Levels have nothing to do with points, so that the same expressions are too deep.
  by_cases deep : maxLevels < level
  · unfold Expr.node
    rw [if_pos deep, if_pos deep, start]
    rfl
  · cases expr with
    | number text point =>
        simp only [Expr.moved, Expr.node, if_neg deep]
        exact numberNode_moved move text.toList point
    | name text point =>
        simp only [Expr.moved, Expr.node, if_neg deep, nameNode_moved]
        rfl
    | call name point arguments =>
        simp only [Expr.moved, Expr.node, if_neg deep, Expr.nodes_moved (level + 1) arguments]
        cases Expr.nodes (level + 1) arguments with
        | _ => rfl
    | index name point key =>
        simp only [Expr.moved, Expr.node, if_neg deep, Expr.node_moved (level + 1) key]
        cases key.node (level + 1) with
        | _ => rfl
    | unary operator point operand =>
        simp only [Expr.moved, Expr.node, if_neg deep, Expr.node_moved (level + 1) operand]
        cases operand.node (level + 1) with
        | _ => rfl
    | binary operator start left right =>
        simp only [Expr.moved, Expr.node, if_neg deep, Expr.node_moved (level + 1) left,
          Expr.node_moved (level + 1) right]
        cases left.node (level + 1) with
        | error failure => rfl
        | ok left =>
            cases right.node (level + 1) with
            | _ => rfl
    | conditional start condition yes no =>
        simp only [Expr.moved, Expr.node, if_neg deep, Expr.node_moved (level + 1) condition,
          Expr.node_moved (level + 1) yes, Expr.node_moved (level + 1) no]
        cases condition.node (level + 1) with
        | error failure => rfl
        | ok condition =>
            cases yes.node (level + 1) with
            | error failure => rfl
            | ok yes =>
                cases no.node (level + 1) with
                | _ => rfl
    | quoted point parts =>
        simp only [Expr.moved, Expr.node, if_neg deep, Part.nodes_moved unescape (level + 1) parts]
        cases Part.nodes unescape (level + 1) parts with
        | error failure => rfl
        | ok nodes => exact congrArg Except.ok (quotedNode_moved move nodes point)

theorem Expr.nodes_moved (level : Nat) (exprs : List Expr) :
    Expr.nodes level (Expr.allMoved move exprs) = movedTrees move (Expr.nodes level exprs) := by
  cases exprs with
  | nil => rfl
  | cons expr rest =>
      simp only [Expr.allMoved, Expr.nodes, Expr.node_moved level expr,
        Expr.nodes_moved level rest]
      cases expr.node level with
      | error failure => rfl
      | ok node =>
          cases Expr.nodes level rest with
          | _ => rfl

theorem Part.nodes_moved (free : List Char → List Char) (level : Nat) (parts : List Part) :
    Part.nodes free level (Part.allMoved move parts) =
      movedTrees move (Part.nodes free level parts) := by
  match parts with
  | [] => rfl
  | .text text point :: rest =>
      simp only [Part.allMoved, Part.moved, Part.nodes, Part.nodes_moved free level rest]
      cases Part.nodes free level rest with
      | _ => rfl
  | .expr expr :: rest =>
      simp only [Part.allMoved, Part.moved, Part.nodes, Expr.node_moved level expr,
        Part.nodes_moved free level rest]
      cases expr.node level with
      | error failure => rfl
      | ok node =>
          cases Part.nodes free level rest with
          | _ => rfl

end

end

/-- The words of a text that stands elsewhere are its words, moved there. -/
theorem scanFrom_shift (basis : Point) (text : List Char) : ∀ (skip : Nat) (place : Place)
    (point : Point) (done : List Lexeme), 1 ≤ point.line →
    scanFrom skip place (basis.shift point) (done.map (Lexeme.moved basis.shift)) text =
      (scanFrom skip place point done text).moved basis.shift := by
  induction text with
  | nil =>
      intro skip place point done _
      simp [scanFrom, Scan.moved]
  | cons c rest ih =>
      intro skip place point done below
      have behind := Point.line_advance below c
      cases skip with
      | succ skip =>
          simp only [scanFrom, ← Point.shift_advance below]
          exact ih skip place _ done behind
      | zero =>
          simp only [scanFrom, ← Point.shift_advance below]
          split
          · exact ih 0 place _ done behind
          · split
            · simp [Scan.moved]
            · rename_i terminal word _
              exact ih _ _ _ (⟨terminal, String.ofList word, point⟩ :: done) behind

theorem scan_shift (basis : Point) (text : List Char) :
    scan basis text = (scan .start text).moved basis.shift := by
  have moved := scanFrom_shift basis text 0 .initial .start [] (Int.le_refl 1)
  rw [Point.shift_start] at moved
  exact moved

theorem parseChars_shift (basis : Point) (text : List Char) :
    parseChars basis text = movedTree basis.shift (parseChars .start text) := by
  unfold parseChars
  rw [scan_shift, parts_moved]
  cases (scan .start text).parts with
  | error error => rfl
  | ok parts =>
      simp only [movedResult, Part.nodes_moved]
      cases Part.nodes id 1 parts with
      | error failure => rfl
      | ok nodes =>
          refine congrArg Except.ok ?_
          rw [Node.moved, Point.shift_start]

def Placed (nodes : List Node) (uses : List Use) : Prop :=
  ∀ node ∈ nodes, ∃ use ∈ uses, node.point = use.point

theorem Placed.append {nodes more : List Node} {uses others : List Use}
    (first : Placed nodes uses) (second : Placed more others) :
    Placed (nodes ++ more) (uses ++ others) := by
  intro node member
  rcases List.mem_append.mp member with member | member
  · obtain ⟨use, used, place⟩ := first node member
    exact ⟨use, List.mem_append_left others used, place⟩
  · obtain ⟨use, used, place⟩ := second node member
    exact ⟨use, List.mem_append_right uses used, place⟩

theorem placed_one {node : Node} {use : Use} (place : node.point = use.point) :
    Placed [node] [use] := by
  intro other member
  rw [List.mem_singleton.mp member]
  exact ⟨use, List.mem_singleton.mpr rfl, place⟩

/-- A node is visited behind those inside it, but is used in front of them. -/
theorem Placed.around {nodes : List Node} {uses : List Use} {node : Node} {use : Use}
    (inside : Placed nodes uses) (place : node.point = use.point) :
    Placed (nodes ++ [node]) (use :: uses) := by
  intro other member
  obtain ⟨found, used, same⟩ := inside.append (placed_one place) other member
  exact ⟨found, by simpa [or_comm] using used, same⟩

theorem placed_quotedNode {parts : List Node} {uses : List Use} (point : Point)
    (inside : Placed (Node.visitedAll parts) uses) :
    Placed (quotedNode parts point).visited (⟨point, none⟩ :: uses) := by
  have output : Placed (Node.output parts point).visited (⟨point, none⟩ :: uses) :=
    inside.around rfl
  unfold quotedNode
  split
  · rename_i part
    split
    · intro node member
      exact output node (by simp [Node.visited, Node.visitedAll, member])
    · exact output
  · exact output

mutual

theorem Expr.placed (expr : Expr) : Placed expr.tree.visited expr.uses := by
  cases expr with
  | number text point =>
      simp only [Expr.tree, numberTree]
      split
      · exact placed_one rfl
      · exact placed_one rfl
  | name text point =>
      simp only [Expr.tree, nameNode]
      split
      · exact placed_one rfl
      · split
        · exact placed_one rfl
        · exact placed_one rfl
  | call name point arguments => exact (Expr.allPlaced arguments).around rfl
  | index name point key =>
      have target : Placed [.access name point] [⟨point, some name⟩] := placed_one rfl
      have whole : Placed (Expr.index name point key).tree.visited
          (⟨point, some name⟩ :: ([⟨point, some name⟩] ++ key.uses)) :=
        (target.append (Expr.placed key)).around rfl
      intro node member
      obtain ⟨use, used, place⟩ := whole node member
      exact ⟨use, by simpa [Expr.uses] using used, place⟩
  | unary operator point operand =>
      rw [Expr.tree, Node.visited, Node.visitedAll, Node.visitedAll, List.append_nil]
      exact (Expr.placed operand).around rfl
  | binary operator start left right =>
      rw [Expr.tree, Node.visited, Node.visitedAll, Node.visitedAll, Node.visitedAll,
        List.append_nil]
      exact ((Expr.placed left).append (Expr.placed right)).around rfl
  | conditional start condition yes no =>
      exact (((Expr.placed condition).append (Expr.placed yes)).append (Expr.placed no)).around rfl
  | quoted point parts => exact placed_quotedNode point (Part.placed unescape parts)

theorem Expr.allPlaced (exprs : List Expr) :
    Placed (Node.visitedAll (Expr.trees exprs)) (Expr.allUses exprs) := by
  cases exprs with
  | nil => exact fun node member => by cases member
  | cons expr rest => exact (Expr.placed expr).append (Expr.allPlaced rest)

theorem Part.placed (free : List Char → List Char) (parts : List Part) :
    Placed (Node.visitedAll (Part.trees free parts)) (Part.uses parts) := by
  match parts with
  | [] => exact fun node member => by cases member
  | .text text point :: rest => exact (placed_one rfl).append (Part.placed free rest)
  | .expr expr :: rest => exact (Expr.placed expr).append (Part.placed free rest)

end

theorem parseChars_placed {basis : Point} {text : List Char} {root : Node}
    (read : parseChars basis text = .ok root) :
    ∀ node ∈ root.visited, Inside node.point basis text := by
  obtain ⟨parts, ⟨stop, derives⟩, _, _, rfl⟩ := parseChars_eq_ok_iff.mp read
  intro node member
  rcases List.mem_append.mp member with inside | last
  · obtain ⟨use, used, place⟩ := Part.placed id parts node inside
    rw [place]
    exact (derives.uses use used).inside
  · rw [List.mem_singleton.mp last]
    exact ⟨[], text, rfl, rfl⟩

theorem Inside.stands {point : Point} {text : List Char} (inside : Inside point .start text) :
    ∃ index, (point.filed "").Stands text index := by
  obtain ⟨front, rest, rfl, rfl⟩ := inside
  exact ⟨front.length, filed_stands (Position.denotes_advanceBy front rest).1 ""⟩

/-- What a template is read as depends on where it stands in its points alone: those of the tree,
or of the error, are moved to the basis. By themselves they are places of the text. -/
theorem parseAt_relocated (basis : Point) (text : String) :
    match parse text with
    | .ok root =>
      parseAt basis text = .ok (root.moved basis.shift) ∧
        ∀ node ∈ root.visited, ∃ index, (node.point.filed "").Stands text.toList index
    | .error (.faulty error) =>
      parseAt basis text = .error (.faulty ⟨error.fault, basis.shift error.point⟩) ∧
        ∃ index, (error.point.filed "").Stands text.toList index
    | .error (.oversized digits) => parseAt basis text = .error (.oversized digits) := by
  have moved : parseAt basis text = movedTree basis.shift (parse text) :=
    parseChars_shift basis text.toList
  cases read : parse text with
  | ok root =>
      rw [read] at moved
      exact ⟨moved, fun node member => (parseChars_placed read node member).stands⟩
  | error failure =>
      rw [read] at moved
      cases failure with
      | faulty error => exact ⟨moved, (parseChars_faulty read).stands⟩
      | oversized digits => exact moved

end Template

end ConfigIndex
