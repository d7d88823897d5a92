import ConfigIndex.Proofs.Template.Words

/-!
Reading a template word by word. The place that the scanner keeps for itself is the one that the
parser is at, so both can be followed together over the text.
-/

namespace ConfigIndex.Template

def Site.strings : Site → Nat
  | template _ => 0
  | quoted outer _ _ => outer.strings + 1
  | group outer _ => outer.strings
  | argument outer _ _ => outer.strings
  | key outer _ => outer.strings
  | unary outer _ _ => outer.strings
  | right outer _ _ => outer.strings
  | consequence outer _ => outer.strings
  | alternative outer _ _ => outer.strings

def Stage.place : Stage → Place
  | text _ => ⟨.text, 0⟩
  | quoted outer _ _ => ⟨.quoted, outer.strings + 1⟩
  | awaiting site => ⟨.operand, site.strings⟩
  | arguments site _ => ⟨.operand, site.strings⟩
  | named site _ => ⟨.operator, site.strings⟩
  | complete site _ => ⟨.operator, site.strings⟩

theorem bind_strings (level : Nat) (site : Site) (operand : Operand) :
    (site.bind level operand).1.strings = site.strings := by
  induction site generalizing operand with
  | unary outer operator point ih => simpa [Site.bind, Site.strings] using ih _
  | right outer operator left ih =>
      simp only [Site.bind]
      split
      · simpa [Site.strings] using ih _
      · rfl
  | _ => rfl

theorem ite_ok_iff {ε α : Type} {p : Prop} [Decidable p] {fault : ε} {result other : α} :
    (if p then Except.ok result else .error fault) = .ok other ↔ p ∧ result = other := by
  split <;> simp_all

theorem close_place {terminal : Terminal} {site : Site} {operand : Operand} {next : Stage}
    (closed : site.close terminal operand = .ok next) :
    next.place = (Place.mk .operator site.strings).after terminal := by
  induction site generalizing operand with
  | unary outer operator point ih => exact ih closed
  | right outer operator left ih => exact ih closed
  | alternative outer condition yes ih => exact ih closed
  | argument outer name before =>
      simp only [Site.close] at closed
      split at closed
      · rename_i same
        cases closed
        rw [same]
        rfl
      · obtain ⟨rfl, rfl⟩ := ite_ok_iff.mp closed
        rfl
  | _ =>
      obtain ⟨rfl, rfl⟩ := ite_ok_iff.mp closed
      rfl

/-- How far an operator closes the operations in front of it. Comparisons stop behind another
comparison, which is then in the way. -/
def Operator.reach (operator : Operator) : Nat :=
  if operator.isComparison then 4 else operator.level

/-- All that can happen behind a complete operand. -/
theorem stepOperator_cases {terminal : Terminal} {site : Site} {operand : Operand}
    {expected : Expected} {next : Stage}
    (stepped : stepOperator site operand expected terminal = .ok next) :
    (∃ operator outer left, terminal.binary? = some operator ∧
      site.bind operator.reach operand = (outer, left) ∧
      (operator.isComparison = true → ∀ further inner other,
        outer = .right further inner other → inner.isComparison = false) ∧
      next = .awaiting (.right outer operator left)) ∨
    (terminal = .question ∧ ∃ outer condition, site.bind 1 operand = (outer, condition) ∧
      next = .awaiting (.consequence outer condition)) ∨
    (terminal ∈ [.closing, .closeParen, .closeBracket, .comma, .colon] ∧
      site.close terminal operand = .ok next) := by
  unfold stepOperator at stepped
  split at stepped
  · rename_i operator binary
    left
    unfold stepBinary at stepped
    split at stepped
    rename_i outer left bound
    refine ⟨operator, outer, left, binary, bound, ?_⟩
    split at stepped
    · rename_i further inner other
      split at stepped
      · cases stepped
      · rename_i apart
        cases stepped
        refine ⟨?_, rfl⟩
        rintro comparison _ _ _ ⟨⟩
        simpa [comparison] using apart
    · rename_i plain
      cases stepped
      exact ⟨fun _ further inner other same => absurd same (plain further inner other), rfl⟩
  · right
    split at stepped
    case h_1 =>
      left
      cases stepped
      exact ⟨rfl, _, _, rfl, rfl⟩
    case h_7 => cases stepped
    all_goals exact Or.inr ⟨by simp, stepped⟩

theorem binary?_after {terminal : Terminal} {operator : Operator} {place : Place}
    (binary : terminal.binary? = some operator) :
    place.after terminal = { place with mode := .operand } := by
  cases terminal with
  | text | quotedText | opening | closing | quote | ident | number | closeParen | closeBracket =>
      simp [Terminal.binary?] at binary
  | _ => rfl

theorem stepOperator_place {terminal : Terminal} {site : Site} {operand : Operand}
    {expected : Expected} {next : Stage}
    (stepped : stepOperator site operand expected terminal = .ok next) :
    next.place = (Place.mk .operator site.strings).after terminal := by
  rcases stepOperator_cases stepped with
    ⟨operator, outer, left, binary, bound, _, rfl⟩ | ⟨rfl, outer, condition, bound, rfl⟩ |
    ⟨_, closed⟩
  · have strings := bind_strings operator.reach site operand
    rw [bound] at strings
    rw [binary?_after binary, ← strings]
    rfl
  · have strings := bind_strings 1 site operand
    rw [bound] at strings
    simp [Stage.place, Site.strings, Place.after, ← strings]
  · exact close_place closed

theorem stepOperand_place {site : Site} {expected : Expected} {lexeme : Lexeme} {next : Stage}
    (stepped : stepOperand site expected lexeme = .ok next) :
    next.place = (Place.mk .operand site.strings).after lexeme.terminal := by
  unfold stepOperand at stepped
  split at stepped
  case h_7 => cases stepped
  all_goals
    rename_i same
    cases stepped
    rw [same]
    rfl

theorem step_place {stage next : Stage} {lexeme : Lexeme} (stepped : stage.step lexeme = .ok next) :
    next.place = stage.place.after lexeme.terminal := by
  cases stage with
  | text before =>
      simp only [Stage.step] at stepped
      split at stepped
      case h_3 => cases stepped
      all_goals
        rename_i same
        cases stepped
        rw [same]
        rfl
  | quoted outer quote before =>
      simp only [Stage.step] at stepped
      split at stepped
      case h_4 => cases stepped
      all_goals
        rename_i same
        cases stepped
        rw [same]
        rfl
  | awaiting site => exact stepOperand_place stepped
  | arguments site name =>
      simp only [Stage.step] at stepped
      split at stepped
      · rename_i same
        cases stepped
        rw [same]
        rfl
      · have strings : (Site.argument site name []).strings = site.strings := rfl
        rw [stepOperand_place stepped, strings]
        rfl
  | named site name =>
      simp only [Stage.step] at stepped
      split at stepped
      · rename_i same
        cases stepped
        rw [same]
        rfl
      · rename_i same
        cases stepped
        rw [same]
        rfl
      · exact stepOperator_place stepped
  | complete site operand => exact stepOperator_place stepped

inductive Next (place : Place) : Spot → Lexeme → Spot → Prop
  | mk {point} (gap) {word rest terminal} : (∀ c ∈ gap, place.skips c = true) →
      (∀ c more, word = c :: more → place.skips c = false) → word ≠ [] →
      word? place.mode (word ++ rest) = some (terminal, word) →
      Next place ⟨point, gap ++ (word ++ rest)⟩
        ⟨terminal, String.ofList word, point.advanceBy gap⟩
        ⟨(point.advanceBy gap).advanceBy word, rest⟩

theorem scanFrom_gap (place : Place) (done : List Lexeme) (gap : List Char)
    (skipped : ∀ c ∈ gap, place.skips c = true) : ∀ (point : Point) (rest : List Char),
    scanFrom 0 place point done (gap ++ rest) =
      scanFrom 0 place (point.advanceBy gap) done rest := by
  induction gap with
  | nil => exact fun point rest => rfl
  | cons c gap ih =>
      intro point rest
      have first : place.skips c = true := skipped c (by simp)
      have others : ∀ d ∈ gap, place.skips d = true := fun d member => skipped d (by simp [member])
      rw [List.cons_append, scanFrom, if_pos first, ih others]
      rfl

theorem scanFrom_skip (place : Place) (done : List Lexeme) (word : List Char) :
    ∀ (point : Point) (rest : List Char),
      scanFrom word.length place point done (word ++ rest) =
        scanFrom 0 place (point.advanceBy word) done rest := by
  induction word with
  | nil => exact fun point rest => rfl
  | cons c word ih =>
      intro point rest
      rw [List.length_cons, List.cons_append, scanFrom, ih]
      rfl

theorem scanFrom_next {place : Place} {spot behind : Spot} {lexeme : Lexeme}
    (next : Next place spot lexeme behind) (done : List Lexeme) :
    scanFrom 0 place spot.point done spot.rest =
      scanFrom 0 (place.after lexeme.terminal) behind.point (lexeme :: done) behind.rest := by
  obtain ⟨gap, skipped, kept, nonempty, found⟩ := next
  rename_i point word rest terminal
  rw [scanFrom_gap place done gap skipped]
  cases word with
  | nil => exact absurd rfl nonempty
  | cons c word =>
      rw [List.cons_append] at found ⊢
      rw [scanFrom, if_neg (by simp [kept c word rfl]), found]
      simp only [List.length_cons, Nat.add_sub_cancel]
      rw [scanFrom_skip]
      rfl

theorem scanFrom_done (text : List Char) : ∀ (skip : Nat) (place : Place) (point : Point)
    (done : List Lexeme),
    scanFrom skip place point done text =
      ⟨done.reverse ++ (scanFrom skip place point [] text).lexemes,
        (scanFrom skip place point [] text).stray, (scanFrom skip place point [] text).final⟩ := by
  induction text with
  | nil => exact fun skip place point done => by simp [scanFrom]
  | cons c rest ih =>
      intro skip place point done
      cases skip with
      | succ skip => simp only [scanFrom]; exact ih _ _ _ done
      | zero =>
          simp only [scanFrom]
          split
          · exact ih _ _ _ done
          · split
            · simp
            · rename_i terminal word _
              rw [ih _ _ _ (_ :: done), ih _ _ _ [_]]
              simp

theorem Next.skip {place : Place} {point : Point} {c : Char} {rest : List Char} {lexeme : Lexeme}
    {behind : Spot} (skipped : place.skips c = true)
    (next : Next place ⟨point.advance c, rest⟩ lexeme behind) :
    Next place ⟨point, c :: rest⟩ lexeme behind := by
  cases next with
  | @mk _ gap word rest terminal gaps kept nonempty found =>
      exact Next.mk (c :: gap) (by simpa [skipped] using gaps) kept nonempty found

theorem scan_cases (place : Place) (spot : Spot) :
    (∀ c ∈ spot.rest, place.skips c = true) ∨ (∃ lexeme behind, Next place spot lexeme behind) ∨
      ∃ gap c rest, spot.rest = gap ++ c :: rest ∧ (∀ c ∈ gap, place.skips c = true) ∧
        place.skips c = false ∧ word? place.mode (c :: rest) = none := by
  obtain ⟨point, text⟩ := spot
  simp only
  induction text generalizing point with
  | nil => simp
  | cons c rest ih =>
      by_cases skipped : place.skips c = true
      · rcases ih (point.advance c) with
          all | ⟨lexeme, behind, next⟩ | ⟨gap, d, more, cut, gaps, other⟩
        · exact Or.inl (by simpa [skipped] using all)
        · exact Or.inr (Or.inl ⟨lexeme, behind, next.skip skipped⟩)
        · exact Or.inr (Or.inr
            ⟨c :: gap, d, more, by simp [cut], by simpa [skipped] using gaps, other⟩)
      · right
        cases found : word? place.mode (c :: rest) with
        | none => exact Or.inr ⟨[], c, rest, rfl, by simp, by simpa using skipped, found⟩
        | some pair =>
            left
            obtain ⟨terminal, word⟩ := pair
            obtain ⟨_, first⟩ := word?_sound found
            obtain ⟨left, cut⟩ := Text.Pattern.first?_splits first
            have nonempty := (pattern_consumes terminal).first?_ne_nil first
            rw [cut] at found ⊢
            refine ⟨_, _, Next.mk [] (by simp) ?_ nonempty found⟩
            rintro d more rfl
            simp only [List.cons_append, List.cons.injEq] at cut
            rw [← cut.1]
            simpa using skipped

theorem Next.shorter {place : Place} {spot behind : Spot} {lexeme : Lexeme}
    (next : Next place spot lexeme behind) : behind.rest.length < spot.rest.length := by
  cases next with
  | mk gap gaps kept nonempty found =>
      have positive := List.length_pos_iff.mpr nonempty
      simp only [List.length_append]
      omega

inductive Steps : Stage → Spot → Stage → Spot → Prop
  | none {stage spot} : Steps stage spot stage spot
  | more {stage spot lexeme next behind last stop} : Next stage.place spot lexeme behind →
      stage.step lexeme = .ok next → Steps next behind last stop → Steps stage spot last stop

theorem Steps.trans {stage middle last : Stage} {spot between stop : Spot}
    (front : Steps stage spot middle between) (back : Steps middle between last stop) :
    Steps stage spot last stop := by
  induction front with
  | none => exact back
  | more next stepped _ ih => exact Steps.more next stepped (ih back)

def Stage.partsAt (stage : Stage) (spot : Spot) : Except Error (List Part) :=
  let scan := scanFrom 0 stage.place spot.point [] spot.rest
  match stage.run scan.lexemes with
  | .error error => .error error
  | .ok stage =>
    match scan.stray with
    | some word => .error ⟨.unexpected word stage.expected, scan.final⟩
    | none =>
      match stage with
      | .text before => .ok before.reverse
      | stage => .error ⟨.unfinished stage.expected, scan.final⟩

theorem scan_parts (basis : Point) (text : List Char) :
    (scan basis text).parts = (Stage.text []).partsAt ⟨basis, text⟩ := rfl

theorem partsAt_next {stage next : Stage} {spot behind : Spot} {lexeme : Lexeme}
    (read : Next stage.place spot lexeme behind) (stepped : stage.step lexeme = .ok next) :
    stage.partsAt spot = next.partsAt behind := by
  unfold Stage.partsAt
  rw [scanFrom_next read, scanFrom_done, ← step_place stepped]
  simp [Stage.run, stepped]

theorem partsAt_refused {stage : Stage} {spot behind : Spot} {lexeme : Lexeme}
    {expected : Expected} (read : Next stage.place spot lexeme behind)
    (refused : stage.step lexeme = .error expected) :
    stage.partsAt spot = .error ⟨.unexpected lexeme.shown expected, lexeme.point⟩ := by
  unfold Stage.partsAt
  rw [scanFrom_next read, scanFrom_done]
  simp [Stage.run, refused]

def Stage.atEnd (point : Point) : Stage → Except Error (List Part)
  | .text before => .ok before.reverse
  | stage => .error ⟨.unfinished stage.expected, point⟩

theorem partsAt_ended {stage : Stage} {spot : Spot}
    (ended : ∀ c ∈ spot.rest, stage.place.skips c = true) :
    stage.partsAt spot = stage.atEnd (spot.point.advanceBy spot.rest) := by
  have scanned := scanFrom_gap stage.place [] spot.rest ended spot.point []
  rw [List.append_nil] at scanned
  simp only [Stage.partsAt, scanned, scanFrom, List.reverse_nil, Stage.run]
  rfl

theorem partsAt_stray {stage : Stage} {spot : Spot} {gap rest : List Char} {c : Char}
    (cut : spot.rest = gap ++ c :: rest) (gaps : ∀ c ∈ gap, stage.place.skips c = true)
    (kept : stage.place.skips c = false) (stray : word? stage.place.mode (c :: rest) = none) :
    stage.partsAt spot = .error
      ⟨.unexpected (strayText (c :: rest)) stage.expected, spot.point.advanceBy gap⟩ := by
  have scanned := scanFrom_gap stage.place [] gap gaps spot.point (c :: rest)
  rw [← cut] at scanned
  simp [Stage.partsAt, scanned, scanFrom, kept, stray, Stage.run]

theorem Steps.partsAt_eq {stage last : Stage} {spot stop : Spot}
    (steps : Steps stage spot last stop) : stage.partsAt spot = last.partsAt stop := by
  induction steps with
  | none => rfl
  | more read stepped _ ih => rw [partsAt_next read stepped, ih]

theorem Steps.complete {parts : List Part} {basis stop : Point} {text : List Char}
    (steps : Steps (.text []) ⟨basis, text⟩ (.text parts.reverse) ⟨stop, []⟩) :
    (scan basis text).parts = .ok parts := by
  rw [scan_parts, steps.partsAt_eq]
  simp [Stage.partsAt, scanFrom, Stage.run]

theorem steps_of_partsAt {parts : List Part} (stage : Stage) (spot : Spot)
    (accepted : stage.partsAt spot = .ok parts) :
    ∃ stop, Steps stage spot (.text parts.reverse) ⟨stop, []⟩ := by
  -- On how much of the text is left, which each word that is read makes less.
  generalize size : spot.rest.length = length
  induction length using Nat.strongRecOn generalizing stage spot with
  | ind length ih =>
      rcases scan_cases stage.place spot with
        ended | ⟨lexeme, behind, read⟩ | ⟨gap, c, rest, cut, gaps, kept, stray⟩
      · rw [partsAt_ended ended, Stage.atEnd.eq_def] at accepted
        split at accepted
        · rename_i before
          cases accepted
          obtain ⟨point, text⟩ := spot
          cases text with
          | nil => exact ⟨point, by simpa using Steps.none⟩
          | cons c rest => simpa [Stage.place, Place.skips] using ended c (by simp)
        · cases accepted
      · cases stepped : stage.step lexeme with
        | error expected =>
            rw [partsAt_refused read stepped] at accepted
            cases accepted
        | ok next =>
            rw [partsAt_next read stepped] at accepted
            obtain ⟨stop, steps⟩ := ih _ (size ▸ read.shorter) next behind accepted rfl
            exact ⟨stop, Steps.more read stepped steps⟩
      · rw [partsAt_stray cut gaps kept stray] at accepted
        cases accepted

/-! What a place reads is what the grammar asks for there. -/

theorem Place.gap_nil {place : Place} (outside : place.mode = .text ∨ place.mode = .quoted)
    {gap : List Char} (skipped : ∀ c ∈ gap, place.skips c = true) : gap = [] := by
  cases gap with
  | nil => rfl
  | cons c gap =>
      have impossible := skipped c (by simp)
      rcases outside with mode | mode
      · simp [Place.skips, mode] at impossible
      · simp [Place.skips, mode] at impossible

theorem Next.word {place : Place} {spot behind : Spot} {lexeme : Lexeme}
    (read : Next place spot lexeme behind) (outside : place.mode = .text ∨ place.mode = .quoted) :
    lexeme.terminal ∈ place.mode.terminals ∧ Word lexeme.terminal spot lexeme behind := by
  cases read with
  | @mk point gap word rest terminal gaps kept nonempty found =>
      obtain rfl := Place.gap_nil outside gaps
      obtain ⟨member, first⟩ := word?_sound found
      exact ⟨member, Word.mk first⟩

theorem Next.token {place : Place} {spot behind : Spot} {lexeme : Lexeme}
    (read : Next place spot lexeme behind) :
    lexeme.terminal ∈ place.mode.terminals ∧ Token lexeme.terminal spot lexeme behind := by
  cases read with
  | @mk point gap word rest terminal gaps kept nonempty found =>
      obtain ⟨member, first⟩ := word?_sound found
      refine ⟨member, Token.mk ?_ (Word.mk first)⟩
      intro c inside
      have skipped := gaps c inside
      simp only [Place.skips, Bool.and_eq_true] at skipped
      exact skipped.1

theorem Word.next {place : Place} {terminal : Terminal} {spot behind : Spot} {lexeme : Lexeme}
    (word : Word terminal spot lexeme behind) (outside : place.mode = .text ∨ place.mode = .quoted)
    (member : terminal ∈ place.mode.terminals) : Next place spot lexeme behind := by
  cases word with
  | @mk point word rest first =>
      have whole : terminal.isCut (word ++ rest) = false := by
        rcases outside with mode | mode
        · rw [mode] at member
          simp only [Mode.terminals, List.mem_cons, List.not_mem_nil, or_false] at member
          rcases member with rfl | rfl <;> rfl
        · rw [mode] at member
          simp only [Mode.terminals, List.mem_cons, List.not_mem_nil, or_false] at member
          rcases member with rfl | rfl | rfl <;> rfl
      refine Next.mk [] (by simp) ?_ ((pattern_consumes terminal).first?_ne_nil first)
        (word?_complete member first whole)
      intro c more _
      rcases outside with mode | mode
      · simp [Place.skips, mode]
      · simp [Place.skips, mode]

theorem isCut_of_apart {terminal : Terminal} {word rest : List Char}
    (first : terminal.pattern.first? (word ++ rest) = some word)
    (apart : terminal.binary? = none ∨ ∀ more, rest ≠ '=' :: more) :
    terminal.isCut (word ++ rest) = false := by
  have short : ∀ c, word = [c] → (∀ more, rest ≠ '=' :: more) →
      ∀ more, word ++ rest ≠ c :: '=' :: more := by
    rintro c rfl other more same
    exact other more (by simpa using same)
  unfold Terminal.isCut
  split
  · rename_i cut
    have same := (Text.Pattern.literally_first?_iff.mp first).1
    rcases apart with impossible | other
    · cases impossible
    · exact absurd cut (short '<' same other _)
  · rename_i cut
    have same := (Text.Pattern.literally_first?_iff.mp first).1
    rcases apart with impossible | other
    · cases impossible
    · exact absurd cut (short '>' same other _)
  · rfl

theorem Token.next {place : Place} {terminal : Terminal} {spot behind : Spot} {lexeme : Lexeme}
    (token : Token terminal spot lexeme behind)
    (inside : place.mode = .operand ∨ place.mode = .operator)
    (member : terminal ∈ place.mode.terminals)
    (apart : terminal.binary? = none ∨ ∀ more, behind.rest ≠ '=' :: more) :
    Next place spot lexeme behind := by
  cases token with
  | @mk point gap rest _ _ gaps word =>
      cases word with
      | @mk _ word rest first =>
          have found := word?_complete member first (isCut_of_apart first apart)
          refine Next.mk gap ?_ ?_ ((pattern_consumes terminal).first?_ne_nil first) found
          · intro c between
            have gap := gaps c between
            rcases inside with mode | mode
            · simp [Place.skips, mode, gap]
            · simp [Place.skips, mode, gap]
          · rintro c more rfl
            cases gap : isGap c with
            | false => simp [Place.skips, gap]
            | true =>
                rw [List.cons_append, word?_gap gap inside] at found
                cases found

/-- Text around the expressions is never at fault. -/
theorem text_steps {before : List Part} {spot behind : Spot} {lexeme : Lexeme}
    (read : Next (Stage.text before).place spot lexeme behind) :
    ∃ next, (Stage.text before).step lexeme = .ok next := by
  obtain ⟨member, -⟩ := read.word (Or.inl rfl)
  simp only [Stage.place, Mode.terminals, List.mem_cons, List.not_mem_nil, or_false] at member
  rcases member with opening | text
  · exact ⟨_, by simp only [Stage.step, opening]; rfl⟩
  · exact ⟨_, by simp only [Stage.step, text]; rfl⟩

/-- In front of a fault, and of a gap before it, the words are read without one. -/
theorem steps_of_error {error : Error} (stage : Stage) (spot : Spot)
    (failed : stage.partsAt spot = .error error) :
    ∃ last stop gap left, Steps stage spot last stop ∧ stop.rest = gap ++ left ∧
      (∀ c ∈ gap, last.place.skips c = true) ∧ error.point = stop.point.advanceBy gap ∧
      ∀ before, last ≠ .text before := by
  -- On how much of the text is left, as for the texts that are accepted.
  generalize size : spot.rest.length = length
  induction length using Nat.strongRecOn generalizing stage spot with
  | ind length ih =>
      rcases scan_cases stage.place spot with
        ended | ⟨lexeme, behind, read⟩ | ⟨gap, c, rest, cut, gaps, kept, stray⟩
      · rw [partsAt_ended ended, Stage.atEnd.eq_def] at failed
        split at failed
        · cases failed
        · rename_i outside
          cases failed
          exact ⟨stage, spot, spot.rest, [], Steps.none, by simp, ended, rfl, outside⟩
      · cases stepped : stage.step lexeme with
        | error expected =>
            have outside : ∀ before, stage ≠ .text before := by
              rintro before rfl
              obtain ⟨next, fits⟩ := text_steps read
              rw [stepped] at fits
              cases fits
            rw [partsAt_refused read stepped] at failed
            cases failed
            cases read with
            | @mk point gap word rest terminal gaps kept nonempty found =>
                exact ⟨stage, _, gap, word ++ rest, Steps.none, rfl, gaps, rfl, outside⟩
        | ok next =>
            rw [partsAt_next read stepped] at failed
            obtain ⟨last, stop, gap, left, steps, facts⟩ :=
              ih _ (size ▸ read.shorter) next behind failed rfl
            exact ⟨last, stop, gap, left, Steps.more read stepped steps, facts⟩
      · have outside : ∀ before, stage ≠ .text before := by
          rintro before rfl
          exact word?_text c rest stray
        rw [partsAt_stray cut gaps kept stray] at failed
        cases failed
        exact ⟨stage, spot, gap, c :: rest, Steps.none, cut, gaps, rfl, outside⟩

end ConfigIndex.Template
