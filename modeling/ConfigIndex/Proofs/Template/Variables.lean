import ConfigIndex.Proofs.Template.Order

/-!
The variables of a template told from its words alone. A name is one unless it is called, or is a
truth value that nothing indexes; the tree holds these names, in the order of the words.
-/

namespace ConfigIndex.Template

/-- A word is a variable if it is a name and the word behind it has it stand for one. -/
def Lexeme.isVariable (lexeme : Lexeme) (next : Option Terminal) : Bool :=
  lexeme.terminal = .ident && next ≠ some .openParen &&
    (next = some .openBracket || (lexeme.text ≠ "true" && lexeme.text ≠ "false"))

def variablesOf : List Lexeme → List (String × Point)
  | [] => []
  | lexeme :: rest =>
    if lexeme.isVariable (rest.head?.map Lexeme.terminal) then
      (lexeme.text, lexeme.point) :: variablesOf rest
    else variablesOf rest

section

variable {lexeme name : Lexeme} {rest : List Lexeme}

theorem variables_other (other : lexeme.terminal ≠ .ident) :
    variablesOf (lexeme :: rest) = variablesOf rest := by
  simp [variablesOf, Lexeme.isVariable, other]

theorem variables_behind (other : lexeme.terminal ≠ .ident) :
    variablesOf (name :: lexeme :: rest) =
      (if name.isVariable (some lexeme.terminal) then [(name.text, name.point)] else []) ++
        variablesOf rest := by
  have skipped : variablesOf (lexeme :: rest) = variablesOf rest := variables_other other
  rw [← skipped]
  cases chosen : name.isVariable (some lexeme.terminal) with
  | _ => simp [variablesOf, chosen]

theorem variables_called (called : lexeme.terminal = .openParen) :
    variablesOf (name :: lexeme :: rest) = variablesOf rest := by
  rw [variables_behind (by simp [called])]
  simp [Lexeme.isVariable, called]

theorem variables_indexed (ident : name.terminal = .ident)
    (indexed : lexeme.terminal = .openBracket) :
    variablesOf (name :: lexeme :: rest) = (name.text, name.point) :: variablesOf rest := by
  rw [variables_behind (by simp [indexed])]
  simp [Lexeme.isVariable, ident, indexed]

theorem accesses_nameNode_eq (text : String) (point : Point) :
    (nameNode text point).accesses =
      if text = "true" ∨ text = "false" then [] else [(text, point)] := by
  unfold nameNode
  by_cases yes : text = "true"
  · simp [yes]
  · by_cases no : text = "false"
    · simp [no]
    · simp [yes, no]

/-- A name that is neither called nor indexed is what its tree makes of it. -/
theorem variables_plain (ident : name.terminal = .ident) (other : lexeme.terminal ≠ .ident)
    (called : lexeme.terminal ≠ .openParen) (indexed : lexeme.terminal ≠ .openBracket) :
    variablesOf (name :: lexeme :: rest) =
      (nameNode name.text name.point).accesses ++ variablesOf rest := by
  rw [accesses_nameNode_eq, variables_behind other]
  by_cases truth : name.text = "true" ∨ name.text = "false"
  · rcases truth with same | same
    · simp [Lexeme.isVariable, indexed, same]
    · simp [Lexeme.isVariable, indexed, same]
  · obtain ⟨yes, no⟩ := not_or.mp truth
    simp [Lexeme.isVariable, ident, called, yes, no]

end

/-! What a stage has read so far holds its variables already, all but those of a name that the
next word decides on. -/

def Part.accesses (parts : List Part) : List (String × Point) :=
  Node.allAccesses (Part.trees id parts)

@[simp] theorem part_accesses_nil : Part.accesses [] = [] := rfl

@[simp] theorem part_accesses_text (text : String) (point : Point) (rest : List Part) :
    Part.accesses (.text text point :: rest) = Part.accesses rest := by
  simp [Part.accesses, Part.trees]

@[simp] theorem part_accesses_expr (expr : Expr) (rest : List Part) :
    Part.accesses (.expr expr :: rest) = expr.tree.accesses ++ Part.accesses rest := by
  simp [Part.accesses, Part.trees]

@[simp] theorem part_accesses_append (parts more : List Part) :
    Part.accesses (parts ++ more) = Part.accesses parts ++ Part.accesses more := by
  induction parts with
  | nil => rfl
  | cons part rest ih =>
      cases part with
      | text text point => simp [ih]
      | expr expr => simp [ih]

theorem accesses_parts (free : List Char → List Char) (parts : List Part) :
    Node.allAccesses (Part.trees free parts) = Part.accesses parts := by
  induction parts with
  | nil => rfl
  | cons part rest ih =>
      cases part with
      | text text point => simp [Part.trees, ih]
      | expr expr => simp [Part.trees, ih]

def Expr.allAccesses (exprs : List Expr) : List (String × Point) :=
  Node.allAccesses (Expr.trees exprs)

@[simp] theorem expr_allAccesses_nil : Expr.allAccesses [] = [] := rfl

@[simp] theorem expr_allAccesses_cons (expr : Expr) (rest : List Expr) :
    Expr.allAccesses (expr :: rest) = expr.tree.accesses ++ Expr.allAccesses rest := by
  simp [Expr.allAccesses, Expr.trees]

@[simp] theorem expr_allAccesses_append (exprs more : List Expr) :
    Expr.allAccesses (exprs ++ more) = Expr.allAccesses exprs ++ Expr.allAccesses more := by
  induction exprs with
  | nil => rfl
  | cons expr rest ih => simp [ih]

theorem accesses_trees (exprs : List Expr) :
    Node.allAccesses (Expr.trees exprs) = Expr.allAccesses exprs := rfl

def Site.accesses : Site → List (String × Point)
  | .template before => Part.accesses before.reverse
  | .quoted outer _ before => outer.accesses ++ Part.accesses before.reverse
  | .group outer _ => outer.accesses
  | .argument outer _ before => outer.accesses ++ Expr.allAccesses before.reverse
  | .key outer name => outer.accesses ++ [(name.text, name.point)]
  | .unary outer _ _ => outer.accesses
  | .right outer _ left => outer.accesses ++ left.expr.tree.accesses
  | .consequence outer condition => outer.accesses ++ condition.expr.tree.accesses
  | .alternative outer condition yes =>
    outer.accesses ++ condition.expr.tree.accesses ++ yes.tree.accesses

def Stage.accesses : Stage → List (String × Point)
  | .text before => Part.accesses before.reverse
  | .quoted outer _ before => outer.accesses ++ Part.accesses before.reverse
  | .awaiting site => site.accesses
  | .arguments site _ => site.accesses
  | .named site _ => site.accesses
  | .complete site operand => site.accesses ++ operand.expr.tree.accesses

def Stage.pending : Stage → List Lexeme
  | .named _ name => [name]
  | _ => []

theorem bind_accesses (level : Nat) (site : Site) (operand : Operand) :
    (site.bind level operand).1.accesses ++ (site.bind level operand).2.expr.tree.accesses =
      site.accesses ++ operand.expr.tree.accesses := by
  induction site generalizing operand with
  | unary outer operator point ih =>
      simp [Site.bind, ih, Site.accesses, Expr.tree]
  | right outer operator left ih =>
      simp only [Site.bind]
      split
      · simp [ih, Site.accesses, Expr.tree]
      · rfl
  | _ => rfl

/-- A bracket that closes takes the variables in it along. -/
theorem close_accesses {terminal : Terminal} {site : Site} {operand : Operand} {next : Stage}
    (closed : site.close terminal operand = .ok next) :
    next.pending = [] ∧ next.accesses = site.accesses ++ operand.expr.tree.accesses := by
  induction site generalizing operand with
  | unary outer operator point ih => simpa [Site.accesses, Expr.tree] using ih closed
  | right outer operator left ih => simpa [Site.accesses, Expr.tree] using ih closed
  | alternative outer condition yes ih => simpa [Site.accesses, Expr.tree] using ih closed
  | argument outer name before =>
      simp only [Site.close] at closed
      split at closed
      · cases closed
        simp [Stage.pending, Stage.accesses, Site.accesses, Expr.tree, accesses_trees]
      · obtain ⟨-, rfl⟩ := ite_ok_iff.mp closed
        simp [Stage.pending, Stage.accesses, Site.accesses]
  | _ =>
      obtain ⟨-, rfl⟩ := ite_ok_iff.mp closed
      simp [Stage.pending, Stage.accesses, Site.accesses, Expr.tree]

/-- An operator or a bracket behind an operand adds no variable to those in front of it. -/
theorem stepOperator_accesses {terminal : Terminal} {site : Site} {operand : Operand}
    {expected : Expected} {next : Stage}
    (stepped : stepOperator site operand expected terminal = .ok next) :
    next.pending = [] ∧ next.accesses = site.accesses ++ operand.expr.tree.accesses := by
  rcases stepOperator_cases stepped with
    ⟨operator, outer, left, _, bound, _, rfl⟩ | ⟨_, outer, condition, bound, rfl⟩ | ⟨_, closed⟩
  · have kept := bind_accesses operator.reach site operand
    rw [bound] at kept
    exact ⟨rfl, kept⟩
  · have kept := bind_accesses 1 site operand
    rw [bound] at kept
    exact ⟨rfl, kept⟩
  · exact close_accesses closed

/-- Behind an operand stands no other name, and no bracket that opens. -/
theorem stepOperator_terminal {terminal : Terminal} {site : Site} {operand : Operand}
    {expected : Expected} {next : Stage}
    (stepped : stepOperator site operand expected terminal = .ok next) :
    terminal ≠ .ident ∧ terminal ≠ .openParen ∧ terminal ≠ .openBracket := by
  rcases stepOperator_cases stepped with ⟨operator, _, _, binary, _⟩ | ⟨rfl, _⟩ | ⟨member, _⟩
  · refine ⟨?_, ?_, ?_⟩ <;> rintro rfl <;> cases binary
  · decide
  · refine ⟨?_, ?_, ?_⟩ <;> rintro rfl <;> simp at member

theorem stepOperand_accesses {site : Site} {expected : Expected} {lexeme : Lexeme} {next : Stage}
    (stepped : stepOperand site expected lexeme = .ok next) :
    next.accesses = site.accesses ∧
      next.pending = if lexeme.terminal = .ident then [lexeme] else [] := by
  unfold stepOperand at stepped
  split at stepped
  case h_7 => cases stepped
  all_goals
    rename_i same
    cases stepped
    simp [Stage.accesses, Stage.pending, Site.accesses, Expr.tree, accesses_numberTree, same]

def Stage.variablesWith (stage : Stage) (words : List Lexeme) : List (String × Point) :=
  stage.accesses ++ variablesOf (stage.pending ++ words)

def Stage.NamesPending (stage : Stage) : Prop := ∀ name ∈ stage.pending, name.terminal = .ident

theorem stepOperand_variables {site : Site} {expected : Expected} {lexeme : Lexeme} {next : Stage}
    (stepped : stepOperand site expected lexeme = .ok next) (rest : List Lexeme) :
    next.NamesPending ∧
      next.variablesWith rest = site.accesses ++ variablesOf (lexeme :: rest) := by
  obtain ⟨same, pending⟩ := stepOperand_accesses stepped
  unfold Stage.NamesPending Stage.variablesWith
  rw [same, pending]
  by_cases ident : lexeme.terminal = .ident
  · simp [ident]
  · simp [ident, variables_other ident]

theorem stepOperator_variables {lexeme : Lexeme} {site : Site} {operand : Operand}
    {expected : Expected} {next : Stage}
    (stepped : stepOperator site operand expected lexeme.terminal = .ok next)
    (rest : List Lexeme) :
    next.NamesPending ∧ next.variablesWith rest =
      site.accesses ++ (operand.expr.tree.accesses ++ variablesOf rest) := by
  obtain ⟨pending, same⟩ := stepOperator_accesses stepped
  unfold Stage.NamesPending Stage.variablesWith
  rw [same, pending]
  simp

/-- A word that is read is a variable in what was read, or in what is left, just as it is by the
words alone. -/
theorem step_variables {stage next : Stage} {lexeme : Lexeme} (names : stage.NamesPending)
    (stepped : stage.step lexeme = .ok next) (rest : List Lexeme) :
    next.NamesPending ∧ next.variablesWith rest = stage.variablesWith (lexeme :: rest) := by
  -- The word settles what a name before it stands for; all other stages have nothing to settle.
  cases stage with
  | text before =>
      simp only [Stage.step] at stepped
      split at stepped
      case h_3 => cases stepped
      all_goals
        rename_i same
        cases stepped
        simp [Stage.NamesPending, Stage.variablesWith, Stage.accesses, Stage.pending, Site.accesses,
          variables_other, same]
  | quoted outer quote before =>
      simp only [Stage.step] at stepped
      split at stepped
      case h_4 => cases stepped
      all_goals
        rename_i same
        cases stepped
        simp [Stage.NamesPending, Stage.variablesWith, Stage.accesses, Stage.pending, Site.accesses,
          variables_other, same, Expr.tree, accesses_quotedNode, accesses_parts]
  | awaiting site => exact stepOperand_variables stepped rest
  | arguments site name =>
      simp only [Stage.step] at stepped
      split at stepped
      · rename_i same
        cases stepped
        simp [Stage.NamesPending, Stage.variablesWith, Stage.accesses, Stage.pending,
          variables_other, same, Expr.tree, accesses_trees]
      · have first : (Site.argument site name []).accesses = site.accesses := by
          simp [Site.accesses]
        have read := stepOperand_variables stepped rest
        rw [first] at read
        exact read
  | named site name =>
      have ident : name.terminal = .ident := names name (List.mem_singleton.mpr rfl)
      simp only [Stage.step] at stepped
      split at stepped
      · rename_i called
        cases stepped
        simp [Stage.NamesPending, Stage.variablesWith, Stage.accesses, Stage.pending,
          variables_called called]
      · rename_i indexed
        cases stepped
        simp [Stage.NamesPending, Stage.variablesWith, Stage.accesses, Stage.pending, Site.accesses,
          variables_indexed ident indexed]
      · obtain ⟨other, called, indexed⟩ := stepOperator_terminal stepped
        obtain ⟨next, same⟩ := stepOperator_variables stepped rest
        refine ⟨next, ?_⟩
        rw [same, Expr.tree, ← variables_plain ident other called indexed]
        rfl
  | complete site operand =>
      obtain ⟨other, -, -⟩ := stepOperator_terminal stepped
      obtain ⟨next, same⟩ := stepOperator_variables stepped rest
      refine ⟨next, ?_⟩
      rw [same, ← variables_other other, ← List.append_assoc]
      rfl

theorem run_variables (words : List Lexeme) : ∀ {stage last : Stage}, stage.NamesPending →
    stage.run words = .ok last → last.variablesWith [] = stage.variablesWith words := by
  induction words with
  | nil =>
      intro stage last _ ran
      cases ran
      rfl
  | cons lexeme rest ih =>
      intro stage last names ran
      simp only [Stage.run] at ran
      split at ran
      · rename_i next stepped
        obtain ⟨names, same⟩ := step_variables names stepped rest
        rw [ih names ran, same]
      · cases ran

inductive Tokens : Spot → List Lexeme → Spot → Prop
  | none {spot} : Tokens spot [] spot
  | more {spot lexeme behind rest stop} : Token lexeme.terminal spot lexeme behind →
      Tokens behind rest stop → Tokens spot (lexeme :: rest) stop

/-- Steps over a text go through the words that it is taken apart into. -/
theorem Steps.tokens {stage last : Stage} {spot stop : Spot}
    (steps : Steps stage spot last stop) :
    ∃ words, Tokens spot words stop ∧ stage.run words = .ok last ∧ ∀ done,
      scanFrom 0 stage.place spot.point done spot.rest =
        scanFrom 0 last.place stop.point (words.reverse ++ done) stop.rest := by
  induction steps with
  | none => exact ⟨[], Tokens.none, rfl, fun done => rfl⟩
  | @more stage spot lexeme next behind last stop read stepped _ ih =>
      obtain ⟨words, tokens, ran, scanned⟩ := ih
      refine ⟨lexeme :: words, Tokens.more read.token.2 tokens, ?_, ?_⟩
      · simp only [Stage.run, stepped, ran]
      · intro done
        rw [scanFrom_next read, ← step_place stepped, scanned]
        simp

/-- The variables of a tree are those of the words of its text, none left out, none twice, and each
behind the one before it. -/
theorem parse_variables {text : String} {root : Node} (read : parse text = .ok root) :
    ∃ words stop, scan .start text.toList = ⟨words, none, stop⟩ ∧
      Tokens ⟨.start, text.toList⟩ words ⟨stop, []⟩ ∧ root.accesses = variablesOf words ∧
      root.accesses.Pairwise fun first second => first.2.Before second.2 := by
  obtain ⟨parts, written, _, _, rfl⟩ := parseChars_eq_ok_iff.mp read
  have accepted := scan_parts_eq_ok_iff.mpr written
  rw [scan_parts] at accepted
  obtain ⟨stop, steps⟩ := steps_of_partsAt _ _ accepted
  obtain ⟨words, tokens, ran, scanned⟩ := steps.tokens
  refine ⟨words, stop, ?_, tokens, ?_, parseChars_sorted read⟩
  · have taken := scanned []
    rw [List.append_nil, scanFrom, List.reverse_reverse] at taken
    exact taken
  · have names : (Stage.text []).NamesPending := fun name member => by cases member
    have same := run_variables words names ran
    simp only [Stage.variablesWith, Stage.accesses, Stage.pending, List.reverse_reverse,
      List.append_nil, List.nil_append, List.reverse_nil, part_accesses_nil, variablesOf] at same
    rw [accesses_output, accesses_parts]
    exact same

theorem parse_variables_nested :
    let text := "$\x7bf(a) + true[b] + \"x $\x7bc.d\x7d\"\x7d $\x7btrue\x7d"
    ∃ root words stop, parse text = .ok root ∧
      root.accesses = [("a", ⟨"", 1, 5⟩), ("true", ⟨"", 1, 10⟩), ("b", ⟨"", 1, 15⟩),
        ("c.d", ⟨"", 1, 25⟩)] ∧
      scan .start text.toList = ⟨words, none, stop⟩ ∧
      Tokens ⟨.start, text.toList⟩ words ⟨stop, []⟩ ∧ root.accesses = variablesOf words ∧
      root.accesses.Pairwise fun first second => first.2.Before second.2 := by
  intro text
  have listed : (parse text).toOption.map Node.accesses =
      some [("a", ⟨"", 1, 5⟩), ("true", ⟨"", 1, 10⟩), ("b", ⟨"", 1, 15⟩),
        ("c.d", ⟨"", 1, 25⟩)] := by decide +kernel
  cases read : parse text with
  | error failure =>
      rw [read] at listed
      cases listed
  | ok root =>
      rw [read] at listed
      obtain ⟨words, stop, facts⟩ := parse_variables read
      exact ⟨root, words, stop, rfl, Option.some.inj listed, facts⟩

end ConfigIndex.Template
