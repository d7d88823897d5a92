import ConfigIndex.Proofs.Template.Steps

/-!
What the parser accepts derives from the grammar. What it has read so far is kept as the derivation
of all that lies in front of the present spot.
-/

namespace ConfigIndex.Template

theorem Derives.lower {start stop : Spot} {rank : Nat} {operand : Operand}
    (derives : Derives start (.expression rank operand) stop) {lower : Nat}
    (below : lower ≤ rank) (bound : rank ≤ 7) : Derives start (.expression lower operand) stop := by
  induction rank with
  | zero =>
      have same : lower = 0 := by omega
      rwa [same]
  | succ rank ih =>
      by_cases same : lower = rank + 1
      · rwa [same]
      · exact ih (Derives.tighter (by omega) derives) (by omega) (by omega)

theorem binary?_level {terminal : Terminal} {operator : Operator}
    (binary : terminal.binary? = some operator) : 1 ≤ operator.level ∧ operator.level ≤ 5 := by
  cases terminal with
  | text | quotedText | opening | closing | quote | ident | number | bang | question | colon |
    comma | openParen | closeParen | openBracket | closeBracket =>
      cases binary
  | _ =>
      cases binary
      decide

theorem level_pos (operator : Operator) : 1 ≤ operator.level := by
  cases operator <;> decide

theorem reach_eq (operator : Operator) :
    operator.reach = operator.level ∧ operator.isComparison = false ∨
      operator.reach = 4 ∧ operator.level = 3 ∧ operator.isComparison = true := by
  cases operator <;> decide

theorem Derives.operation {terminal : Terminal} {operator : Operator} {left right : Operand}
    {start first second stop : Spot} {mark : Lexeme} (binary : terminal.binary? = some operator)
    (before : Derives start (.expression operator.reach left) first)
    (between : Token terminal first mark second)
    (behind : Derives second (.expression (operator.level + 1) right) stop) :
    Derives start (.expression operator.level
      ⟨left.start, .binary operator left.start left.expr right.expr⟩) stop := by
  rcases reach_eq operator with ⟨reach, plain⟩ | ⟨reach, level, comparison⟩
  · rw [reach] at before
    exact Derives.binary binary plain before between behind
  · rw [reach] at before
    rw [level] at behind ⊢
    exact Derives.comparison binary comparison before between behind

/-- The text from `start` to the spot has opened this site and still lacks an expression of at
least this rank. -/
inductive Site.Open (start : Spot) : Site → Nat → Spot → Prop
  | template {before first opening spot} :
      (∀ more stop, Derives first (.text more) stop →
        Derives start (.text (before.reverse ++ more)) stop) →
      Word .opening first opening spot → Site.Open start (.template before) 0 spot
  | quoted {outer rank first quote second before third opening spot} :
      Site.Open start outer rank first → Token .quote first quote second →
      (∀ more stop, Derives third (.quoted more) stop →
        Derives second (.quoted (before.reverse ++ more)) stop) →
      Word .opening third opening spot → Site.Open start (.quoted outer quote.point before) 0 spot
  | group {outer rank first opening spot} : Site.Open start outer rank first →
      Token .openParen first opening spot → Site.Open start (.group outer opening.point) 0 spot
  | argument {outer rank first name second opening third before spot} :
      Site.Open start outer rank first → Token .ident first name second →
      Token .openParen second opening third →
      (∀ more stop, Derives spot (.arguments more) stop →
        Derives third (.arguments (before.reverse ++ more)) stop) →
      Site.Open start (.argument outer name before) 0 spot
  | key {outer rank first name second opening spot} : Site.Open start outer rank first →
      Token .ident first name second → Token .openBracket second opening spot →
      Site.Open start (.key outer name) 0 spot
  | unary {outer rank first terminal operator sign spot} : Site.Open start outer rank first →
      rank ≤ 6 → terminal.unary? = some operator → Token terminal first sign spot →
      Site.Open start (.unary outer operator sign.point) 6 spot
  | right {outer rank first terminal operator left second mark spot} :
      Site.Open start outer rank first → rank ≤ operator.level →
      terminal.binary? = some operator → Derives first (.expression operator.reach left) second →
      Token terminal second mark spot →
      Site.Open start (.right outer operator left) (operator.level + 1) spot
  | consequence {outer first condition second question spot} : Site.Open start outer 0 first →
      Derives first (.expression 1 condition) second → Token .question second question spot →
      Site.Open start (.consequence outer condition) 0 spot
  | alternative {outer first condition second question third yes fourth colon spot} :
      Site.Open start outer 0 first → Derives first (.expression 1 condition) second →
      Token .question second question third → Derives third (.expression 0 yes) fourth →
      Token .colon fourth colon spot →
      Site.Open start (.alternative outer condition yes.expr) 0 spot

inductive Stage.Holds (start : Spot) : Stage → Spot → Prop
  | text {before spot} :
      (∀ more stop, Derives spot (.text more) stop →
        Derives start (.text (before.reverse ++ more)) stop) →
      Stage.Holds start (.text before) spot
  | quoted {outer rank first quote second before spot} :
      Site.Open start outer rank first → Token .quote first quote second →
      (∀ more stop, Derives spot (.quoted more) stop →
        Derives second (.quoted (before.reverse ++ more)) stop) →
      Stage.Holds start (.quoted outer quote.point before) spot
  | awaiting {site rank spot} : Site.Open start site rank spot →
      Stage.Holds start (.awaiting site) spot
  | arguments {site rank first name second opening spot} : Site.Open start site rank first →
      Token .ident first name second → Token .openParen second opening spot →
      Stage.Holds start (.arguments site name) spot
  | named {site rank first name spot} : Site.Open start site rank first →
      Token .ident first name spot → Stage.Holds start (.named site name) spot
  | complete {site rank first operand spot} : Site.Open start site rank first →
      Derives first (.expression 7 operand) spot → Stage.Holds start (.complete site operand) spot

theorem Site.Open.rank_le {start spot : Spot} {site : Site} {rank : Nat}
    (opened : Site.Open start site rank spot) : rank ≤ 6 := by
  cases opened with
  | right _ _ binary _ _ =>
      have level := (binary?_level binary).2
      omega
  | _ => decide

/-- Closing operations stops at a site that binds less tightly. -/
theorem bind_stops (level : Nat) (site : Site) (operand : Operand) :
    (∀ outer operator point, (site.bind level operand).1 ≠ .unary outer operator point) ∧
      ∀ outer operator left, (site.bind level operand).1 = .right outer operator left →
        operator.level < level := by
  induction site generalizing operand with
  | unary outer operator point ih => exact ih _
  | right outer operator left ih =>
      simp only [Site.bind]
      split
      · exact ih _
      · rename_i above
        refine ⟨by simp, ?_⟩
        rintro _ _ _ ⟨⟩
        omega
  | _ => simp [Site.bind]

theorem Site.Open.rank_of_bind {start spot : Spot} {level rank : Nat} {site : Site}
    {operand : Operand} (opened : Site.Open start (site.bind level operand).1 rank spot) :
    rank = 0 ∨ ∃ outer operator left, (site.bind level operand).1 = .right outer operator left ∧
      rank = operator.level + 1 ∧ operator.level < level := by
  have stops := bind_stops level site operand
  generalize (site.bind level operand).1 = closed at opened stops
  cases opened with
  | unary => exact absurd rfl (stops.1 _ _ _)
  | right => exact Or.inr ⟨_, _, _, rfl, rfl, stops.2 _ _ _ rfl⟩
  | _ => exact Or.inl rfl

/-- Closing operations keeps the text derived: what was an operand is then an operation. -/
theorem Site.Open.bind {start spot : Spot} {site : Site} {rank : Nat} {first : Spot}
    {operand : Operand} {own : Nat} (opened : Site.Open start site rank first) (level : Nat)
    (loose : level ≤ 5) (derives : Derives first (.expression own operand) spot) (fits : rank ≤ own)
    (tight : level ≤ own) (bound : own ≤ 7) :
    ∃ rank first own, Site.Open start (site.bind level operand).1 rank first ∧
      Derives first (.expression own (site.bind level operand).2) spot ∧
      rank ≤ own ∧ level ≤ own ∧ own ≤ 7 := by
  induction site generalizing rank first operand own with
  | unary outer operator point ih =>
      cases opened with
      | unary further low sign token =>
          have whole := Derives.unary sign token (derives.lower fits bound)
          exact ih further whole low (by omega) (by omega)
  | right outer operator left ih =>
      simp only [Site.bind]
      split
      · rename_i closes
        cases opened with
        | right further low binary before token =>
            have limits := binary?_level binary
            have whole := Derives.operation binary before token (derives.lower fits bound)
            exact ih further whole low closes (by omega)
      · exact ⟨rank, first, own, opened, derives, fits, tight, bound⟩
  | _ => exact ⟨rank, first, own, opened, derives, fits, tight, bound⟩

theorem Site.Open.endTemplate {start first spot behind : Spot} {rank : Nat} {before : List Part}
    {operand : Operand} {lexeme : Lexeme} (opened : Site.Open start (.template before) rank first)
    (derives : Derives first (.expression 0 operand) spot)
    (token : Token .closing spot lexeme behind) :
    Stage.Holds start (.text (.expr operand.expr :: before)) behind := by
  cases opened with
  | template base opening =>
      apply Stage.Holds.text
      intro more stop rest
      simpa using base _ stop (Derives.interpolation opening derives token rest)

theorem Site.Open.endQuoted {start first spot behind : Spot} {rank : Nat} {outer : Site}
    {quote : Point} {before : List Part} {operand : Operand} {lexeme : Lexeme}
    (opened : Site.Open start (.quoted outer quote before) rank first)
    (derives : Derives first (.expression 0 operand) spot)
    (token : Token .closing spot lexeme behind) :
    Stage.Holds start (.quoted outer quote (.expr operand.expr :: before)) behind := by
  cases opened with
  | quoted further quoteToken base opening =>
      apply Stage.Holds.quoted further quoteToken
      intro more stop rest
      simpa using base _ stop (Derives.quotedInterpolation opening derives token rest)

theorem Site.Open.endGroup {start first spot behind : Spot} {rank : Nat} {outer : Site}
    {opening : Point} {operand : Operand} {lexeme : Lexeme}
    (opened : Site.Open start (.group outer opening) rank first)
    (derives : Derives first (.expression 0 operand) spot)
    (token : Token .closeParen spot lexeme behind) :
    Stage.Holds start (.complete outer ⟨opening, operand.expr⟩) behind := by
  cases opened with
  | group further openToken =>
      exact Stage.Holds.complete further (Derives.group openToken derives token)

theorem Site.Open.endCall {start first spot behind : Spot} {rank : Nat} {outer : Site}
    {name : Lexeme} {before : List Expr} {operand : Operand} {lexeme : Lexeme}
    (opened : Site.Open start (.argument outer name before) rank first)
    (derives : Derives first (.expression 0 operand) spot)
    (token : Token .closeParen spot lexeme behind) :
    Stage.Holds start (.complete outer
      ⟨name.point, .call name.text name.point (operand.expr :: before).reverse⟩) behind := by
  cases opened with
  | argument further nameToken openToken base =>
      have arguments := base _ _ (Derives.lastArgument derives)
      simpa using Stage.Holds.complete further (Derives.call nameToken openToken arguments token)

theorem Site.Open.endArgument {start first spot behind : Spot} {rank : Nat} {outer : Site}
    {name : Lexeme} {before : List Expr} {operand : Operand} {lexeme : Lexeme}
    (opened : Site.Open start (.argument outer name before) rank first)
    (derives : Derives first (.expression 0 operand) spot)
    (token : Token .comma spot lexeme behind) :
    Stage.Holds start (.awaiting (.argument outer name (operand.expr :: before))) behind := by
  cases opened with
  | argument further nameToken openToken base =>
      apply Stage.Holds.awaiting
      apply Site.Open.argument further nameToken openToken
      intro more stop rest
      simpa using base _ stop (Derives.moreArguments derives token rest)

theorem Site.Open.endKey {start first spot behind : Spot} {rank : Nat} {outer : Site}
    {name : Lexeme} {operand : Operand} {lexeme : Lexeme}
    (opened : Site.Open start (.key outer name) rank first)
    (derives : Derives first (.expression 0 operand) spot)
    (token : Token .closeBracket spot lexeme behind) :
    Stage.Holds start (.complete outer ⟨name.point, .index name.text name.point operand.expr⟩)
      behind := by
  cases opened with
  | key further nameToken openToken =>
      exact Stage.Holds.complete further (Derives.index nameToken openToken derives token)

theorem Site.Open.endConsequence {start first spot behind : Spot} {rank : Nat} {outer : Site}
    {condition operand : Operand} {lexeme : Lexeme}
    (opened : Site.Open start (.consequence outer condition) rank first)
    (derives : Derives first (.expression 0 operand) spot)
    (token : Token .colon spot lexeme behind) :
    Stage.Holds start (.awaiting (.alternative outer condition operand.expr)) behind := by
  cases opened with
  | consequence further before question =>
      exact Stage.Holds.awaiting (Site.Open.alternative further before question derives token)

theorem Site.Open.close {start spot behind : Spot} {terminal : Terminal} {lexeme : Lexeme}
    {site : Site} {rank : Nat} {first : Spot} {operand : Operand} {own : Nat} {next : Stage}
    (opened : Site.Open start site rank first)
    (derives : Derives first (.expression own operand) spot) (fits : rank ≤ own)
    (bound : own ≤ 7) (token : Token terminal spot lexeme behind)
    (closed : site.close terminal operand = .ok next) : Stage.Holds start next behind := by
  induction site generalizing rank first operand own with
  -- The operations up to the bracket become operands of the sites around them.
  | unary outer operator point ih =>
      cases opened with
      | unary further low sign signToken =>
          exact ih further (Derives.unary sign signToken (derives.lower fits bound)) low (by omega)
            closed
  | right outer operator left ih =>
      cases opened with
      | right further low binary before mark =>
          have limits := binary?_level binary
          exact ih further (Derives.operation binary before mark (derives.lower fits bound)) low
            (by omega) closed
  | alternative outer condition yes ih =>
      cases opened with
      | alternative further before question middle colon =>
          have whole := Derives.conditional before question middle colon
            (derives.lower (Nat.zero_le _) bound)
          exact ih further whole (Nat.le_refl 0) (by omega) closed
  -- The bracket itself takes an expression of any rank.
  | template =>
      obtain ⟨rfl, rfl⟩ := ite_ok_iff.mp closed
      exact opened.endTemplate (derives.lower (Nat.zero_le own) bound) token
  | quoted =>
      obtain ⟨rfl, rfl⟩ := ite_ok_iff.mp closed
      exact opened.endQuoted (derives.lower (Nat.zero_le own) bound) token
  | group =>
      obtain ⟨rfl, rfl⟩ := ite_ok_iff.mp closed
      exact opened.endGroup (derives.lower (Nat.zero_le own) bound) token
  | argument =>
      simp only [Site.close] at closed
      split at closed
      case isTrue same =>
        cases closed
        subst same
        exact opened.endCall (derives.lower (Nat.zero_le own) bound) token
      case isFalse =>
        obtain ⟨rfl, rfl⟩ := ite_ok_iff.mp closed
        exact opened.endArgument (derives.lower (Nat.zero_le own) bound) token
  | key =>
      obtain ⟨rfl, rfl⟩ := ite_ok_iff.mp closed
      exact opened.endKey (derives.lower (Nat.zero_le own) bound) token
  | consequence =>
      obtain ⟨rfl, rfl⟩ := ite_ok_iff.mp closed
      exact opened.endConsequence (derives.lower (Nat.zero_le own) bound) token

theorem Stage.Holds.stepOperator {start first spot behind : Spot} {lexeme : Lexeme} {site : Site}
    {rank : Nat} {operand : Operand} {expected : Expected} {next : Stage}
    (opened : Site.Open start site rank first)
    (derives : Derives first (.expression 7 operand) spot)
    (token : Token lexeme.terminal spot lexeme behind)
    (stepped : stepOperator site operand expected lexeme.terminal = .ok next) :
    Stage.Holds start next behind := by
  have low := opened.rank_le
  rcases stepOperator_cases stepped with
    ⟨operator, outer, left, binary, bound, apart, rfl⟩ | ⟨same, outer, condition, bound, rfl⟩ |
    ⟨_, closed⟩
  · have limits := binary?_level binary
    have reach := reach_eq operator
    obtain ⟨rank', first', own, opened', derives', fits, tight, small⟩ :=
      opened.bind operator.reach (by omega) derives (by omega) (by omega) (by omega)
    have shallow : rank' ≤ operator.level := by
      rcases opened'.rank_of_bind with zero | ⟨further, inner, other, found, rank, below⟩
      · omega
      · rcases reach with ⟨reach, _⟩ | ⟨reach, level, comparison⟩
        · omega
        · rw [bound] at found
          have other := apart comparison _ _ _ found
          have different : inner.level ≠ 3 := by simpa [Operator.isComparison] using other
          omega
    rw [bound] at opened' derives'
    exact Stage.Holds.awaiting
      (Site.Open.right opened' shallow binary (derives'.lower tight small) token)
  · obtain ⟨rank', first', own, opened', derives', fits, tight, small⟩ :=
      opened.bind 1 (by omega) derives (by omega) (by omega) (by omega)
    have zero : rank' = 0 := by
      rcases opened'.rank_of_bind with zero | ⟨further, inner, other, found, rank, below⟩
      · exact zero
      · have positive := level_pos inner
        omega
    rw [bound] at opened' derives'
    subst zero
    rw [same] at token
    exact Stage.Holds.awaiting
      (Site.Open.consequence opened' (derives'.lower tight small) token)
  · exact opened.close derives (by omega) (by omega) token closed

theorem Stage.Holds.stepOperand {start spot behind : Spot} {lexeme : Lexeme} {site : Site}
    {rank : Nat} {expected : Expected} {next : Stage} (opened : Site.Open start site rank spot)
    (token : Token lexeme.terminal spot lexeme behind)
    (stepped : stepOperand site expected lexeme = .ok next) : Stage.Holds start next behind := by
  have low := opened.rank_le
  unfold Template.stepOperand at stepped
  split at stepped
  case h_7 => cases stepped
  all_goals
    rename_i same
    cases stepped
    rw [same] at token
  · exact Stage.Holds.named opened token
  · exact Stage.Holds.complete opened (Derives.number token)
  · exact Stage.Holds.awaiting (Site.Open.unary opened low rfl token)
  · exact Stage.Holds.awaiting (Site.Open.unary opened low rfl token)
  · exact Stage.Holds.awaiting (Site.Open.group opened token)
  · exact Stage.Holds.quoted opened token fun more stop rest => by simpa using rest

theorem Stage.Holds.step {start spot behind : Spot} {lexeme : Lexeme} {stage next : Stage}
    (holds : Stage.Holds start stage spot) (read : Next stage.place spot lexeme behind)
    (stepped : stage.step lexeme = .ok next) : Stage.Holds start next behind := by
  cases holds with
  | @text before _ base =>
      have word := (read.word (Or.inl rfl)).2
      simp only [Stage.step] at stepped
      split at stepped
      case h_3 => cases stepped
      all_goals
        rename_i same
        cases stepped
        rw [same] at word
      · apply Stage.Holds.text
        intro more stop rest
        simpa using base _ stop (Derives.textPart word rest)
      · exact Stage.Holds.awaiting (Site.Open.template base word)
  | @quoted outer rank first quote second before _ opened quoteToken base =>
      have word := (read.word (Or.inr rfl)).2
      simp only [Stage.step] at stepped
      split at stepped
      case h_4 => cases stepped
      all_goals
        rename_i same
        cases stepped
        rw [same] at word
      · apply Stage.Holds.quoted opened quoteToken
        intro more stop rest
        simpa using base _ stop (Derives.quotedPart word rest)
      · exact Stage.Holds.awaiting (Site.Open.quoted opened quoteToken base word)
      · have parts := base [] _ Derives.quotedEnd
        rw [List.append_nil] at parts
        exact Stage.Holds.complete opened (Derives.string quoteToken parts word)
  | awaiting opened => exact Stage.Holds.stepOperand opened read.token.2 stepped
  | @arguments site rank first name second opening _ opened nameToken openToken =>
      have token := read.token.2
      simp only [Stage.step] at stepped
      split at stepped
      · rename_i same
        cases stepped
        rw [same] at token
        exact Stage.Holds.complete opened (Derives.emptyCall nameToken openToken token)
      · exact Stage.Holds.stepOperand
          (Site.Open.argument opened nameToken openToken fun more stop rest => by simpa using rest)
          token stepped
  | @named site rank first name _ opened nameToken =>
      have token := read.token.2
      simp only [Stage.step] at stepped
      split at stepped
      · rename_i same
        cases stepped
        rw [same] at token
        exact Stage.Holds.arguments opened nameToken token
      · rename_i same
        cases stepped
        rw [same] at token
        exact Stage.Holds.awaiting (Site.Open.key opened nameToken token)
      · exact Stage.Holds.stepOperator opened (Derives.name nameToken) token stepped
  | complete opened derives => exact Stage.Holds.stepOperator opened derives read.token.2 stepped

theorem Stage.Holds.steps {start spot stop : Spot} {stage last : Stage}
    (steps : Steps stage spot last stop) (holds : Stage.Holds start stage spot) :
    Stage.Holds start last stop := by
  induction steps with
  | none => exact holds
  | more read stepped _ ih => exact ih (holds.step read stepped)

theorem written_of_parts {basis : Point} {text : List Char} {parts : List Part}
    (accepted : (scan basis text).parts = .ok parts) : Written basis text parts := by
  rw [scan_parts] at accepted
  obtain ⟨stop, steps⟩ := steps_of_partsAt _ _ accepted
  have initial : Stage.Holds ⟨basis, text⟩ (.text []) ⟨basis, text⟩ :=
    Stage.Holds.text fun more stop rest => by simpa using rest
  have final := initial.steps steps
  cases final with
  | text base =>
      have whole := base [] _ Derives.textEnd
      exact ⟨stop, by simpa using whole⟩

end ConfigIndex.Template
