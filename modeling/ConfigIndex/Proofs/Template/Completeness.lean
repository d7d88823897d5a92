import ConfigIndex.Proofs.Template.Soundness

/-!
What derives from the grammar is accepted, with the parts of its derivation. The parser runs over
each phrase from wherever that phrase may stand; what it keeps open meanwhile is closed as soon as
a word asks for it.
-/

namespace ConfigIndex.Template

theorem Token.operand_head {terminal : Terminal} {spot behind : Spot} {lexeme : Lexeme}
    (token : Token terminal spot lexeme behind) (member : terminal ∈ Mode.operand.terminals) :
    ∀ more, spot.rest ≠ '=' :: more := by
  intro more same
  cases token with
  | @mk point gap rest _ _ gaps word =>
      cases gap with
      | cons c gap =>
          simp only [List.cons_append, List.cons.injEq] at same
          have blank := gaps c (by simp)
          rw [same.1] at blank
          exact absurd blank (by decide)
      | nil =>
          cases word with
          | mk first =>
              have found := operand?_complete member first
              simp only [List.nil_append] at same
              rw [same, operand?_cons more (by simp)] at found
              simp [numeral?_eq_none (c := '=') (by decide),
                show isNameStart '=' = false by decide] at found

/-- No expression starts with the second character of a mark. -/
theorem Derives.head {start stop : Spot} {rank : Nat} {operand : Operand}
    (derives : Derives start (.expression rank operand) stop) :
    ∀ more, start.rest ≠ '=' :: more := by
  generalize same : Phrase.expression rank operand = phrase at derives
  induction derives generalizing rank operand with
  | textEnd | textPart | interpolation | quotedEnd | quotedPart | quotedInterpolation
  | lastArgument | moreArguments => cases same
  | number token | name token | emptyCall token | call token | index token | group token
  | string token => exact token.operand_head (by simp [Mode.terminals])
  | @unary terminal _ _ _ _ _ _ sign token =>
      cases terminal with
      | bang | minus => exact token.operand_head (by simp [Mode.terminals])
      | _ => cases sign
  | binary _ _ _ _ _ ih => exact ih rfl
  | comparison _ _ _ _ _ ih => exact ih rfl
  | conditional _ _ _ _ _ ih => exact ih rfl
  | tighter _ _ ih => exact ih rfl

/-- Closing operations one after the other, as far as they bind at least as tightly as `level`,
leads from an operand at a site to another one further out. -/
inductive Folds (level : Nat) : Site → Operand → Site → Operand → Prop
  | none {site operand} : Folds level site operand site operand
  | unary {outer operator point operand site whole} :
      Folds level outer ⟨point, .unary operator point operand.expr⟩ site whole →
      Folds level (.unary outer operator point) operand site whole
  | right {outer operator left operand site whole} : level ≤ operator.level →
      Folds level outer ⟨left.start, .binary operator left.start left.expr operand.expr⟩
        site whole →
      Folds level (.right outer operator left) operand site whole
  | alternative {outer condition yes operand site whole} : level = 0 →
      Folds level outer
        ⟨condition.start, .conditional condition.start condition.expr yes operand.expr⟩
        site whole →
      Folds level (.alternative outer condition yes) operand site whole

theorem Folds.lower {level lower : Nat} {inner site : Site} {operand whole : Operand}
    (folds : Folds level inner operand site whole) (below : lower ≤ level) :
    Folds lower inner operand site whole := by
  induction folds with
  | none => exact Folds.none
  | unary _ ih => exact Folds.unary ih
  | right closes _ ih => exact Folds.right (by omega) ih
  | alternative loosest _ ih => exact Folds.alternative (by omega) ih

theorem Folds.trans {level : Nat} {inner site outer : Site} {operand middle whole : Operand}
    (first : Folds level inner operand site middle) (second : Folds level site middle outer whole) :
    Folds level inner operand outer whole := by
  induction first with
  | none => exact second
  | unary _ ih => exact Folds.unary (ih second)
  | right closes _ ih => exact Folds.right closes (ih second)
  | alternative loosest _ ih => exact Folds.alternative loosest (ih second)

theorem Folds.close {level : Nat} {inner site : Site} {operand whole : Operand}
    (folds : Folds level inner operand site whole) (terminal : Terminal) :
    inner.close terminal operand = site.close terminal whole := by
  induction folds with
  | none => rfl
  | unary _ ih => exact ih
  | right _ _ ih => exact ih
  | alternative _ _ ih => exact ih

/-- Where an expression of this rank may stand without the operations around it taking a part
of it. -/
def Site.Admits (rank : Nat) : Site → Prop
  | .unary _ _ _ => 6 ≤ rank
  | .right _ operator _ => operator.level < rank
  | _ => True

theorem Site.Admits.raise {rank higher : Nat} {site : Site} (admits : site.Admits rank)
    (above : rank ≤ higher) : site.Admits higher := by
  cases site with
  | unary => exact Nat.le_trans admits above
  | right => exact Nat.lt_of_lt_of_le admits above
  | _ => exact trivial

theorem Folds.bind {level : Nat} {inner site : Site} {operand whole : Operand}
    (folds : Folds level inner operand site whole) (positive : 1 ≤ level) (loose : level ≤ 5)
    (admits : site.Admits level) : inner.bind level operand = (site, whole) := by
  induction folds with
  | @none site operand =>
      cases site with
      | unary =>
          have tight : 6 ≤ level := admits
          omega
      | right outer operator left =>
          have below : operator.level < level := admits
          simp [Site.bind, Nat.not_le.mpr below]
      | _ => rfl
  | unary _ ih => exact ih admits
  | right closes _ ih =>
      simp only [Site.bind, if_pos closes]
      exact ih admits
  | alternative loosest _ ih => omega

/-- An expression of this rank has been read at the site and is about to be taken as a whole. -/
inductive Settled (rank : Nat) (site : Site) (operand : Operand) : Stage → Prop
  | complete {inner last} : Folds rank inner last site operand →
      Settled rank site operand (.complete inner last)
  | named {inner name} :
      Folds rank inner ⟨name.point, .name name.text name.point⟩ site operand →
      Settled rank site operand (.named inner name)

theorem Settled.fold {rank level : Nat} {site outer : Site} {operand whole : Operand}
    {stage : Stage} (settled : Settled rank site operand stage) (below : level ≤ rank)
    (folds : Folds level site operand outer whole) : Settled level outer whole stage := by
  cases settled with
  | complete inner => exact Settled.complete ((inner.lower below).trans folds)
  | named inner => exact Settled.named ((inner.lower below).trans folds)

theorem Settled.mode {rank : Nat} {site : Site} {operand : Operand} {stage : Stage}
    (settled : Settled rank site operand stage) : stage.place.mode = .operator := by
  cases settled <;> rfl

/-- Behind an expression only the words that open a call or an index care what it ends with. -/
theorem Settled.step {rank : Nat} {site : Site} {operand : Operand} {stage : Stage}
    (settled : Settled rank site operand stage) (lexeme : Lexeme)
    (plain : lexeme.terminal ≠ .openParen ∧ lexeme.terminal ≠ .openBracket) :
    ∃ inner last expected, Folds rank inner last site operand ∧
      stage.step lexeme = stepOperator inner last expected lexeme.terminal := by
  cases settled with
  | complete folds => exact ⟨_, _, _, folds, rfl⟩
  | named folds =>
      refine ⟨_, _, .name, folds, ?_⟩
      simp only [Stage.step]
      split
      · rename_i same
        exact absurd same plain.1
      · rename_i same
        exact absurd same plain.2
      · rfl

/-- A binary operator takes the expression in front of it as its left operand. -/
theorem Settled.binary {rank : Nat} {terminal : Terminal} {operator : Operator} {site : Site}
    {operand : Operand} {stage : Stage} {lexeme : Lexeme}
    (settled : Settled operator.reach site operand stage) (same : lexeme.terminal = terminal)
    (found : terminal.binary? = some operator) (level : rank = operator.level)
    (admits : site.Admits rank) :
    stage.step lexeme = .ok (.awaiting (.right site operator operand)) := by
  subst same level
  obtain ⟨inner, last, expected, folds, stepped⟩ := settled.step lexeme (by
    constructor
    · intro same
      simp [same, Terminal.binary?] at found
    · intro same
      simp [same, Terminal.binary?] at found)
  have limits := binary?_level found
  have reach := reach_eq operator
  have bound := folds.bind (by omega) (by omega) (admits.raise (by omega))
  have reached : (if operator.isComparison then 4 else operator.level) = operator.reach := rfl
  rw [stepped]
  simp only [stepOperator, found, stepBinary, reached, bound]
  split
  · rename_i further inside left
    have below : inside.level < operator.level := admits
    have apart : ¬(operator.isComparison && inside.isComparison) = true := by
      simp only [Operator.isComparison, Bool.and_eq_true, decide_eq_true_eq]
      omega
    rw [if_neg apart]
  · rfl

theorem Settled.question {site : Site} {operand : Operand} {stage : Stage} {lexeme : Lexeme}
    (settled : Settled 1 site operand stage) (same : lexeme.terminal = .question)
    (admits : site.Admits 0) :
    stage.step lexeme = .ok (.awaiting (.consequence site operand)) := by
  obtain ⟨inner, last, expected, folds, stepped⟩ := settled.step lexeme (by simp [same])
  have bound := folds.bind (Nat.le_refl 1) (by omega) (admits.raise (by omega))
  have level : Operator.or.level = 1 := rfl
  simp [stepped, stepOperator, same, Terminal.binary?, level, bound]

def closers : List Terminal := [.closing, .closeParen, .closeBracket, .comma, .colon]

theorem Settled.close {terminal : Terminal} {rank : Nat} {site : Site} {operand : Operand}
    {stage : Stage} {lexeme : Lexeme} (settled : Settled rank site operand stage)
    (same : lexeme.terminal = terminal) (member : terminal ∈ closers) :
    stage.step lexeme = site.close terminal operand := by
  subst same
  obtain ⟨inner, last, expected, folds, stepped⟩ := settled.step lexeme (by
    constructor
    · intro same
      simp [same, closers] at member
    · intro same
      simp [same, closers] at member)
  rw [stepped, ← folds.close]
  simp only [closers, List.mem_cons, List.not_mem_nil, or_false] at member
  unfold stepOperator
  rcases member with same | same | same | same | same
  all_goals
    rw [same]
    rfl

theorem Word.terminal_eq {terminal : Terminal} {spot behind : Spot} {lexeme : Lexeme}
    (word : Word terminal spot lexeme behind) : lexeme.terminal = terminal := by
  cases word
  rfl

theorem Token.terminal_eq {terminal : Terminal} {spot behind : Spot} {lexeme : Lexeme}
    (token : Token terminal spot lexeme behind) : lexeme.terminal = terminal := by
  cases token with
  | mk _ word => exact word.terminal_eq

theorem Word.steps {terminal : Terminal} {spot behind : Spot} {lexeme : Lexeme} {next : Stage}
    (word : Word terminal spot lexeme behind) (stage : Stage)
    (outside : stage.place.mode = .text ∨ stage.place.mode = .quoted)
    (member : terminal ∈ stage.place.mode.terminals)
    (stepped : stage.step lexeme = .ok next) : Steps stage spot next behind :=
  Steps.more (word.next outside member) stepped Steps.none

theorem Token.stepsBefore {terminal : Terminal} {spot behind : Spot} {lexeme : Lexeme}
    {next : Stage} (token : Token terminal spot lexeme behind) (stage : Stage)
    (awaited : stage.place.mode = .operand) (member : terminal ∈ Mode.operand.terminals)
    (apart : terminal.binary? = none ∨ ∀ more, behind.rest ≠ '=' :: more)
    (stepped : stage.step lexeme = .ok next) : Steps stage spot next behind := by
  rw [← awaited] at member
  exact Steps.more (token.next (Or.inl awaited) member apart) stepped Steps.none

theorem Token.stepsBehind {terminal : Terminal} {spot behind : Spot} {lexeme : Lexeme}
    {next : Stage} (token : Token terminal spot lexeme behind) (stage : Stage)
    (awaited : stage.place.mode = .operator) (member : terminal ∈ Mode.operator.terminals)
    (apart : terminal.binary? = none ∨ ∀ more, behind.rest ≠ '=' :: more)
    (stepped : stage.step lexeme = .ok next) : Steps stage spot next behind := by
  rw [← awaited] at member
  exact Steps.more (token.next (Or.inr awaited) member apart) stepped Steps.none

theorem Settled.closes {terminal : Terminal} {rank : Nat} {site : Site} {operand : Operand}
    {stage next : Stage} {spot behind : Spot} {lexeme : Lexeme}
    (settled : Settled rank site operand stage) (token : Token terminal spot lexeme behind)
    (member : terminal ∈ closers) (closed : site.close terminal operand = .ok next) :
    Steps stage spot next behind := by
  have listed : terminal ∈ Mode.operator.terminals ∧ terminal.binary? = none := by
    simp only [closers, List.mem_cons, List.not_mem_nil, or_false] at member
    rcases member with rfl | rfl | rfl | rfl | rfl <;> simp [Mode.terminals, Terminal.binary?]
  refine token.stepsBehind _ settled.mode listed.1 (Or.inl listed.2) ?_
  rw [settled.close token.terminal_eq member, closed]

theorem Settled.operates {terminal : Terminal} {operator : Operator} {site : Site}
    {operand right : Operand} {rank : Nat} {stage : Stage} {spot behind stop : Spot}
    {lexeme : Lexeme} (settled : Settled operator.reach site operand stage)
    (token : Token terminal spot lexeme behind) (found : terminal.binary? = some operator)
    (admits : site.Admits operator.level)
    (follows : Derives behind (.expression rank right) stop) :
    Steps stage spot (.awaiting (.right site operator operand)) behind := by
  have listed : terminal ∈ Mode.operator.terminals := by
    cases terminal with
    | text | quotedText | opening | closing | quote | ident | number | bang =>
        simp [Terminal.binary?] at found
    | _ => simp [Mode.terminals]
  exact token.stepsBehind _ settled.mode listed (Or.inr follows.head)
    (settled.binary token.terminal_eq found rfl admits)

def Phrase.Runs (start stop : Spot) : Phrase → Prop
  | .text parts => ∀ before, Steps (.text before) start (.text (parts.reverse ++ before)) stop
  | .quoted parts => ∀ outer quote before,
      Steps (.quoted outer quote before) start (.quoted outer quote (parts.reverse ++ before)) stop
  | .expression rank operand => ∀ site, site.Admits rank →
      ∃ stage, Settled rank site operand stage ∧ Steps (.awaiting site) start stage stop
  | .arguments all => ∀ outer name before, ∃ front last stage,
      last.expr :: front = all.reverse ++ before ∧
        Settled 0 (.argument outer name front) last stage ∧
        Steps (.awaiting (.argument outer name before)) start stage stop

theorem Phrase.Runs.closed {terminal : Terminal} {operand : Operand} {next : Stage}
    {start last stop : Spot} {lexeme : Lexeme}
    (runs : (Phrase.expression 0 operand).Runs start last) (site : Site)
    (token : Token terminal last lexeme stop) (admits : site.Admits 0) (member : terminal ∈ closers)
    (closed : site.close terminal operand = .ok next) : Steps (.awaiting site) start next stop := by
  obtain ⟨stage, settled, steps⟩ := runs site admits
  exact steps.trans (settled.closes token member closed)

theorem Steps.arguments {site : Site} {name : Lexeme} {stage : Stage} {start stop : Spot}
    {rank : Nat} {outer : Site} {operand : Operand}
    (steps : Steps (.awaiting (.argument site name [])) start stage stop)
    (settled : Settled rank outer operand stage) :
    Steps (.arguments site name) start stage stop := by
  cases steps with
  | none => cases settled
  | @more _ _ lexeme next _ _ _ read stepped rest =>
      refine Steps.more read ?_ rest
      have other : lexeme.terminal ≠ .closeParen := by
        intro same
        simp [Stage.step, stepOperand, same] at stepped
      simp only [Stage.step, if_neg other]
      simp only [Stage.step, stepOperand] at stepped ⊢
      split at stepped
      all_goals first
        | exact stepped
        | cases stepped

theorem Token.named {site : Site} {start stop : Spot} {name : Lexeme}
    (token : Token .ident start name stop) :
    Steps (.awaiting site) start (.named site name) stop :=
  token.stepsBefore _ rfl (by simp [Mode.terminals]) (Or.inl rfl)
    (by simp [Stage.step, stepOperand, token.terminal_eq])

theorem Token.calls {site : Site} {start first second : Spot} {name opening : Lexeme}
    (named : Token .ident start name first) (token : Token .openParen first opening second) :
    Steps (.awaiting site) start (.arguments site name) second :=
  named.named.trans (token.stepsBehind _ rfl (by simp [Mode.terminals]) (Or.inl rfl)
    (by simp [Stage.step, token.terminal_eq]))

/-- An operand that is complete whatever stands around it is an expression of every rank. -/
theorem Phrase.Runs.primary {rank : Nat} {operand : Operand} {start stop : Spot}
    (reads : ∀ site, Steps (.awaiting site) start (.complete site operand) stop) :
    (Phrase.expression rank operand).Runs start stop :=
  fun site _ => ⟨_, Settled.complete Folds.none, reads site⟩

theorem Token.opensOperand {terminal : Terminal} {next : Stage} {site : Site} {start stop : Spot}
    {lexeme : Lexeme} (token : Token terminal start lexeme stop)
    (member : terminal ∈ Mode.operand.terminals) (plain : terminal.binary? = none)
    (stepped : Stage.step lexeme (.awaiting site) = .ok next) :
    Steps (.awaiting site) start next stop :=
  token.stepsBefore _ rfl member (Or.inl plain) stepped

theorem Phrase.Runs.interpolated {operand : Operand} {opening closing : Lexeme}
    {start first last stop : Spot} (opened : Word .opening start opening first)
    (inside : (Phrase.expression 0 operand).Runs first last)
    (closed : Token .closing last closing stop) (before : List Part) :
    Steps (.text before) start (.text (.expr operand.expr :: before)) stop := by
  have step := opened.steps (.text before) (Or.inl rfl) (by simp [Mode.terminals, Stage.place])
    (by simp only [Stage.step, opened.terminal_eq]; rfl)
  exact step.trans (inside.closed (.template before) closed trivial (by simp [closers]) rfl)

theorem Phrase.Runs.interpolatedQuoted {operand : Operand} {opening closing : Lexeme}
    {start first last stop : Spot} (opened : Word .opening start opening first)
    (inside : (Phrase.expression 0 operand).Runs first last)
    (closed : Token .closing last closing stop) (outer : Site) (quote : Point)
    (before : List Part) :
    Steps (.quoted outer quote before) start
      (.quoted outer quote (.expr operand.expr :: before)) stop := by
  have step := opened.steps (.quoted outer quote before) (Or.inr rfl)
    (by simp [Mode.terminals, Stage.place]) (by simp only [Stage.step, opened.terminal_eq]; rfl)
  exact step.trans (inside.closed (.quoted outer quote before) closed trivial
    (by simp [closers]) rfl)

theorem Phrase.Runs.call {name opening closing : Lexeme} {arguments : List Expr}
    {start first second last stop : Spot} (named : Token .ident start name first)
    (opened : Token .openParen first opening second)
    (inside : (Phrase.arguments arguments).Runs second last)
    (closed : Token .closeParen last closing stop) (site : Site) :
    Steps (.awaiting site) start
      (.complete site ⟨name.point, .call name.text name.point arguments⟩) stop := by
  obtain ⟨front, argument, stage, parts, settled, steps⟩ := inside site name []
  refine (named.calls opened).trans
    ((steps.arguments settled).trans (settled.closes closed (by simp [closers]) ?_))
  simp [Site.close, parts]

theorem Phrase.Runs.index {name opening closing : Lexeme} {key : Operand}
    {start first second last stop : Spot} (named : Token .ident start name first)
    (opened : Token .openBracket first opening second)
    (inside : (Phrase.expression 0 key).Runs second last)
    (closed : Token .closeBracket last closing stop) (site : Site) :
    Steps (.awaiting site) start
      (.complete site ⟨name.point, .index name.text name.point key.expr⟩) stop := by
  have step := opened.stepsBehind (.named site name) rfl (by simp [Mode.terminals])
    (Or.inl rfl) (by simp only [Stage.step, opened.terminal_eq]; rfl)
  exact named.named.trans (step.trans (inside.closed _ closed trivial (by simp [closers]) rfl))

theorem Phrase.Runs.group {opening closing : Lexeme} {operand : Operand}
    {start first last stop : Spot} (opened : Token .openParen start opening first)
    (inside : (Phrase.expression 0 operand).Runs first last)
    (closed : Token .closeParen last closing stop) (site : Site) :
    Steps (.awaiting site) start (.complete site ⟨opening.point, operand.expr⟩) stop := by
  have step : Steps (.awaiting site) start (.awaiting (.group site opening.point)) first :=
    opened.opensOperand (by simp [Mode.terminals]) rfl
      (by simp only [Stage.step, stepOperand, opened.terminal_eq])
  exact step.trans (inside.closed _ closed trivial (by simp [closers]) rfl)

theorem Phrase.Runs.string {opening closing : Lexeme} {parts : List Part}
    {start first last stop : Spot} (opened : Token .quote start opening first)
    (inside : (Phrase.quoted parts).Runs first last) (closed : Word .quote last closing stop)
    (site : Site) :
    Steps (.awaiting site) start (.complete site ⟨opening.point, .quoted opening.point parts⟩)
      stop := by
  have step : Steps (.awaiting site) start (.quoted site opening.point []) first :=
    opened.opensOperand (by simp [Mode.terminals]) rfl
      (by simp only [Stage.step, stepOperand, opened.terminal_eq])
  have read := inside site opening.point []
  rw [List.append_nil] at read
  refine step.trans (read.trans (closed.steps _ (Or.inr rfl)
    (by simp [Mode.terminals, Stage.place]) ?_))
  simp only [Stage.step, closed.terminal_eq, List.reverse_reverse]

theorem Phrase.Runs.unary {terminal : Terminal} {operator : Operator} {sign : Lexeme}
    {operand : Operand} {start first stop : Spot} (found : terminal.unary? = some operator)
    (token : Token terminal start sign first)
    (follows : Derives first (.expression 6 operand) stop)
    (inside : (Phrase.expression 6 operand).Runs first stop) :
    (Phrase.expression 6 ⟨sign.point, .unary operator sign.point operand.expr⟩).Runs
      start stop := by
  intro site _
  have step : Steps (.awaiting site) start (.awaiting (.unary site operator sign.point)) first := by
    cases terminal with
    | bang | minus =>
        cases found
        exact token.stepsBefore _ rfl (by simp [Mode.terminals]) (Or.inr follows.head)
          (by simp only [Stage.step, stepOperand, token.terminal_eq])
    | _ => cases found
  obtain ⟨last, settled, steps⟩ := inside (.unary site operator sign.point) (Nat.le_refl 6)
  exact ⟨last, settled.fold (Nat.le_refl 6) (Folds.unary Folds.none), step.trans steps⟩

theorem Phrase.Runs.operation {terminal : Terminal} {operator : Operator} {left right : Operand}
    {start first second stop : Spot} {mark : Lexeme} (found : terminal.binary? = some operator)
    (before : (Phrase.expression operator.reach left).Runs start first)
    (token : Token terminal first mark second)
    (follows : Derives second (.expression (operator.level + 1) right) stop)
    (behind : (Phrase.expression (operator.level + 1) right).Runs second stop) :
    (Phrase.expression operator.level
      ⟨left.start, .binary operator left.start left.expr right.expr⟩).Runs start stop := by
  intro site admits
  have reach := reach_eq operator
  obtain ⟨stage, settled, front⟩ := before site (admits.raise (by omega))
  have middle := settled.operates token found admits follows
  obtain ⟨last, settled, back⟩ := behind (.right site operator left) (Nat.lt_succ_self _)
  exact ⟨last, settled.fold (Nat.le_succ _) (Folds.right (Nat.le_refl _) Folds.none),
    front.trans (middle.trans back)⟩

theorem Phrase.Runs.conditional {condition yes no : Operand} {question colon : Lexeme}
    {start first second third fourth stop : Spot}
    (before : (Phrase.expression 1 condition).Runs start first)
    (asked : Token .question first question second)
    (between : (Phrase.expression 0 yes).Runs second third)
    (parted : Token .colon third colon fourth)
    (behind : (Phrase.expression 0 no).Runs fourth stop) :
    (Phrase.expression 0
      ⟨condition.start, .conditional condition.start condition.expr yes.expr no.expr⟩).Runs
        start stop := by
  intro site admits
  obtain ⟨stage, settled, front⟩ := before site (admits.raise (Nat.zero_le 1))
  have opened := asked.stepsBehind _ settled.mode (by simp [Mode.terminals]) (Or.inl rfl)
    (settled.question asked.terminal_eq admits)
  have middle := between.closed (.consequence site condition) parted trivial (by simp [closers]) rfl
  obtain ⟨last, settled, back⟩ := behind (.alternative site condition yes.expr) trivial
  exact ⟨last, settled.fold (Nat.le_refl 0) (Folds.alternative rfl Folds.none),
    front.trans (opened.trans (middle.trans back))⟩

theorem Phrase.Runs.raise {rank higher : Nat} {operand : Operand} {start stop : Spot}
    (runs : (Phrase.expression higher operand).Runs start stop) (above : rank ≤ higher) :
    (Phrase.expression rank operand).Runs start stop := by
  intro site admits
  obtain ⟨stage, settled, steps⟩ := runs site (admits.raise above)
  exact ⟨stage, settled.fold above Folds.none, steps⟩

theorem Phrase.Runs.lastArgument {operand : Operand} {start stop : Spot}
    (runs : (Phrase.expression 0 operand).Runs start stop) :
    (Phrase.arguments [operand.expr]).Runs start stop := by
  intro outer name before
  obtain ⟨stage, settled, steps⟩ := runs (.argument outer name before) trivial
  exact ⟨before, operand, stage, rfl, settled, steps⟩

theorem Phrase.Runs.moreArguments {operand : Operand} {comma : Lexeme} {arguments : List Expr}
    {start first second stop : Spot} (runs : (Phrase.expression 0 operand).Runs start first)
    (parted : Token .comma first comma second)
    (follow : (Phrase.arguments arguments).Runs second stop) :
    (Phrase.arguments (operand.expr :: arguments)).Runs start stop := by
  intro outer name before
  obtain ⟨front, last, stage, parts, settled, steps⟩ := follow outer name (operand.expr :: before)
  have step := runs.closed (.argument outer name before) parted trivial (by simp [closers]) rfl
  exact ⟨front, last, stage, by simpa using parts, settled, step.trans steps⟩

theorem Derives.runs {start stop : Spot} {phrase : Phrase} (derives : Derives start phrase stop) :
    phrase.Runs start stop := by
  -- `Runs` speaks of every stage that the phrase may start at, so each case can place its parts.
  induction derives with
  | textEnd => exact fun before => Steps.none
  | textPart word _ ih =>
      intro before
      have step := word.steps (.text before) (Or.inl rfl) (by simp [Mode.terminals, Stage.place])
        (by simp only [Stage.step, word.terminal_eq]; rfl)
      simpa using step.trans (ih _)
  | interpolation opened _ closed _ inside ih =>
      intro before
      simpa using (inside.interpolated opened closed before).trans (ih _)
  | quotedEnd => exact fun outer quote before => Steps.none
  | quotedPart word _ ih =>
      intro outer quote before
      have step := word.steps (.quoted outer quote before) (Or.inr rfl)
        (by simp [Mode.terminals, Stage.place]) (by simp only [Stage.step, word.terminal_eq]; rfl)
      simpa using step.trans (ih _ _ _)
  | quotedInterpolation opened _ closed _ inside ih =>
      intro outer quote before
      simpa using (inside.interpolatedQuoted opened closed outer quote before).trans (ih _ _ _)
  | number token =>
      refine Phrase.Runs.primary fun site => token.opensOperand (by simp [Mode.terminals]) rfl ?_
      simp [Stage.step, stepOperand, token.terminal_eq]
  | name token => exact fun site _ => ⟨_, Settled.named Folds.none, token.named⟩
  | emptyCall named opened closed =>
      refine Phrase.Runs.primary fun site => (named.calls opened).trans ?_
      exact closed.stepsBefore _ rfl (by simp [Mode.terminals]) (Or.inl rfl)
        (by simp [Stage.step, closed.terminal_eq])
  | call named opened _ closed inside =>
      exact Phrase.Runs.primary (inside.call named opened closed)
  | index named opened _ closed inside =>
      exact Phrase.Runs.primary (inside.index named opened closed)
  | group opened _ closed inside => exact Phrase.Runs.primary (inside.group opened closed)
  | string opened _ closed inside => exact Phrase.Runs.primary (inside.string opened closed)
  | unary found token follows inside => exact inside.unary found token follows
  | @binary _ operator _ _ _ _ _ _ _ found plain _ token follows before behind =>
      have reach := reach_eq operator
      have same : operator.reach = operator.level := by simpa [plain] using reach
      rw [← same] at before
      exact before.operation found token follows behind
  | @comparison _ operator _ _ _ _ _ _ _ found comparison _ token follows before behind =>
      have reach := reach_eq operator
      obtain ⟨same, level⟩ : operator.reach = 4 ∧ operator.level = 3 := by
        simpa [comparison] using reach
      rw [← same] at before
      rw [← level]
      rw [show 4 = operator.level + 1 by omega] at follows behind
      exact before.operation found token follows behind
  | conditional _ asked _ parted _ before between behind =>
      exact before.conditional asked between parted behind
  | tighter _ _ ih => exact ih.raise (Nat.le_succ _)
  | lastArgument _ ih => exact ih.lastArgument
  | moreArguments _ parted _ inside follow => exact inside.moreArguments parted follow

theorem parts_of_written {basis : Point} {text : List Char} {parts : List Part}
    (written : Written basis text parts) : (scan basis text).parts = .ok parts := by
  obtain ⟨stop, derives⟩ := written
  have steps := derives.runs []
  rw [List.append_nil] at steps
  exact steps.complete

theorem scan_parts_eq_ok_iff {basis : Point} {text : List Char} {parts : List Part} :
    (scan basis text).parts = .ok parts ↔ Written basis text parts :=
  ⟨written_of_parts, parts_of_written⟩

end ConfigIndex.Template
