import ConfigIndex.Proofs.Document.Cut
import ConfigIndex.Proofs.Document.Positions
import ConfigIndex.Proofs.Text.Utf8

/-!
What the parser of documents has read can always be made whole: signs close all that is open.
-/

namespace ConfigIndex.Document

mutual

def Site.closing : Site → List Terminal
  | .value body _ _ => body.closing
  | .element outer _ _ => .closeBracket :: outer.closing

def Body.closing : Body → List Terminal
  | .document _ => []
  | .object outer _ _ => .closeBrace :: outer.closing

end

def Stage.closing : Stage → List Terminal
  | .item body _ => body.closing
  | .keys body _ _ => .openBrace :: .closeBrace :: body.closing
  | .value site => .openBrace :: .closeBrace :: site.closing
  | .element outer _ _ => .closeBracket :: outer.closing
  | .separator outer _ _ => .closeBracket :: outer.closing

@[simp] theorem Body.closing_add (body : Body) (item : Item) :
    (body.add item).closing = body.closing := by
  cases body with
  | document before => rfl
  | object outer opening before => rfl

@[simp] theorem Site.closing_fill (site : Site) (node : Node) :
    (site.fill node).closing = site.closing := by
  cases site with
  | value body keys assign => exact body.closing_add _
  | element outer opening before => rfl

def Stage.Entered : Stage → Prop
  | .item (.object _ _ _) last => last ≠ .nothing
  | _ => True

theorem entered_item (body : Body) {last : Last} (other : last ≠ .nothing) :
    (Stage.item body last).Entered := by
  cases body with
  | document before => trivial
  | object outer opening before => exact other

theorem Site.entered_fill (site : Site) (node : Node) : (site.fill node).Entered := by
  cases site with
  | value body keys assign => exact entered_item _ (by decide)
  | element outer opening before => trivial

theorem stepValue_entered {site : Site} {expected : Expected} {lexeme : Lexeme} {next : Stage}
    (stepped : stepValue site expected lexeme = .ok next) : next.Entered := by
  unfold stepValue at stepped
  split at stepped
  · cases stepped
    exact site.entered_fill _
  · split at stepped
    · cases stepped
      exact entered_item _ (by decide)
    · cases stepped
      trivial
    · cases stepped

theorem step_entered {stage next : Stage} {lexeme : Lexeme}
    (stepped : stage.step lexeme = .ok next) : next.Entered := by
  cases stage with
  | item body last =>
      simp only [Stage.step, stepItem] at stepped
      split at stepped
      · cases stepped
        trivial
      · split at stepped
        · cases stepped
        · split at stepped
          · cases stepped
          · cases stepped
            exact Site.entered_fill _ _
        · cases stepped
          exact entered_item _ (by decide)
        · cases stepped
        · cases stepped
  | keys body key before =>
      simp only [Stage.step, stepKeys] at stepped
      split at stepped
      · cases stepped
        trivial
      · split at stepped
        · cases stepped
          exact entered_item _ (by decide)
        · split at stepped
          · cases stepped
            trivial
          · cases stepped
        · cases stepped
  | value site => exact stepValue_entered stepped
  | element outer opening before =>
      simp only [Stage.step] at stepped
      split at stepped
      · cases stepped
        exact outer.entered_fill _
      · exact stepValue_entered stepped
  | separator outer opening before =>
      simp only [Stage.step, stepSeparator] at stepped
      split at stepped
      · cases stepped
        trivial
      · cases stepped
        exact outer.entered_fill _
      all_goals cases stepped

theorem Stage.Entered.run {lexemes : List Lexeme} {last : Stage} : ∀ {stage : Stage},
    stage.Entered → stage.run lexemes = .ok last → last.Entered := by
  induction lexemes with
  | nil =>
      intro stage entered run
      cases run
      exact entered
  | cons lexeme rest ih =>
      intro stage entered run
      rw [Stage.run] at run
      split at run
      · rename_i stepped
        exact ih (step_entered stepped) run
      · cases run

theorem Stage.closing_step {stage : Stage} (entered : stage.Entered) {terminal : Terminal}
    {rest : List Terminal} (closing : stage.closing = terminal :: rest) {lexeme : Lexeme}
    (same : lexeme.terminal = terminal) :
    ∃ next, stage.step lexeme = .ok next ∧ next.closing = rest := by
  cases stage with
  | item body last =>
      cases body with
      | document before => cases closing
      | object outer opening before =>
          obtain ⟨rfl, rfl⟩ := List.cons.inj closing
          exact ⟨_, step_closeBrace same entered, outer.closing_fill _⟩
  | keys body key before =>
      obtain ⟨rfl, rfl⟩ := List.cons.inj closing
      exact ⟨_, opens_keys body key before lexeme same, rfl⟩
  | value site =>
      obtain ⟨rfl, rfl⟩ := List.cons.inj closing
      exact ⟨_, Awaits.value.opens lexeme same, rfl⟩
  | element outer opening before =>
      obtain ⟨rfl, rfl⟩ := List.cons.inj closing
      exact ⟨closeList outer opening before lexeme, by rw [Stage.step, if_pos same],
        outer.closing_fill _⟩
  | separator outer opening before =>
      obtain ⟨rfl, rfl⟩ := List.cons.inj closing
      exact ⟨closeList outer opening before lexeme, by simp only [Stage.step, stepSeparator, same],
        outer.closing_fill _⟩

theorem closing_run {lexemes : List Lexeme} : ∀ {stage : Stage}, stage.Entered →
    lexemes.map Lexeme.terminal = stage.closing →
      ∃ last items, stage.run lexemes = .ok last ∧ last.finish = .ok items := by
  induction lexemes with
  | nil =>
      intro stage entered closed
      refine ⟨stage, ?_⟩
      cases stage with
      | item body last =>
          cases body with
          | document before => exact ⟨before.reverse, rfl, rfl⟩
          | object outer opening before => cases closed
      | _ => cases closed
  | cons lexeme rest ih =>
      intro stage entered closes
      obtain ⟨next, stepped, closing⟩ := Stage.closing_step entered closes.symm rfl
      obtain ⟨last, items, run, finished⟩ := ih (step_entered stepped) closing.symm
      exact ⟨last, items, by rw [run_step stepped, run], finished⟩

theorem run_append {front back : List Lexeme} {middle : Stage} : ∀ {stage : Stage},
    stage.run front = .ok middle → stage.run (front ++ back) = middle.run back := by
  induction front with
  | nil =>
      intro stage run
      cases run
      rfl
  | cons lexeme front ih =>
      intro stage run
      rw [Stage.run] at run
      split at run
      · rename_i next stepped
        rw [List.cons_append, run_step stepped, ih run]
      · cases run

theorem run_front {front back : List Lexeme} {last : Stage} : ∀ {stage : Stage},
    stage.run (front ++ back) = .ok last → ∃ middle, stage.run front = .ok middle := by
  induction front with
  | nil => exact fun {stage} _ => ⟨stage, rfl⟩
  | cons lexeme front ih =>
      intro stage run
      rw [List.cons_append, Stage.run] at run
      split at run
      · rename_i next stepped
        rw [run_step stepped]
        exact ih run
      · cases run

mutual

theorem Site.closing_signs (site : Site) :
    ∀ terminal ∈ site.closing, terminal.sign? ≠ none := by
  cases site with
  | value body keys assign => exact body.closing_signs
  | element outer opening before =>
      intro terminal member
      rcases List.mem_cons.mp member with rfl | member
      · simp [Terminal.sign?]
      · exact outer.closing_signs terminal member

theorem Body.closing_signs (body : Body) :
    ∀ terminal ∈ body.closing, terminal.sign? ≠ none := by
  cases body with
  | document before => simp [Body.closing]
  | object outer opening before =>
      intro terminal member
      rcases List.mem_cons.mp member with rfl | member
      · simp [Terminal.sign?]
      · exact outer.closing_signs terminal member

end

theorem Stage.closing_signs (stage : Stage) :
    ∀ terminal ∈ stage.closing, terminal.sign? ≠ none := by
  cases stage with
  | item body last => exact body.closing_signs
  | keys body key before => simpa [Stage.closing, Terminal.sign?] using body.closing_signs
  | value site => simpa [Stage.closing, Terminal.sign?] using site.closing_signs
  | element outer opening before =>
      simpa [Stage.closing, Terminal.sign?] using outer.closing_signs
  | separator outer opening before =>
      simpa [Stage.closing, Terminal.sign?] using outer.closing_signs

/-- A text splits into words that make up items, within limits or not. -/
def Derivable (text : List Char) : Prop :=
  ∃ stretches final items, Splits .start text stretches final [] ∧
    Derives (stretches.filterMap Stretch.lexeme?) (.items items) []

theorem Splits.append {position middle final : Position} {text rest left : List Char}
    {front back : List Stretch} (splits : Splits position text front middle rest)
    (behind : Splits middle rest back final left) :
    Splits position text (front ++ back) final left := by
  induction splits with
  | nil => exact behind
  | more first _ ih => exact Splits.more first (ih behind)

/-- What has been read without a fault is the front of a text that the grammar derives. -/
theorem Splits.viable {position : Position} {text left : List Char} {stretches : List Stretch}
    {stage : Stage} (splits : Splits .start text stretches position left)
    (run : Stage.initial.run (stretches.filterMap Stretch.lexeme?) = .ok stage) :
    ∃ front, text = front ++ left ∧ position = Position.start.advanceBy front ∧
      ∃ more, Derivable (front ++ more) := by
  obtain ⟨front, cut, place, others, last, again, same⟩ := splits.kept stage.closing
  obtain ⟨signs, final, behind, closing⟩ := Splits.signs stage.closing_signs last
  have initial : Stage.initial.Entered := trivial
  obtain ⟨whole, items, closed, finished⟩ := closing_run (initial.run run) closing
  refine ⟨front, cut, place, _, others ++ signs, final, items, again.append behind, ?_⟩
  rw [List.filterMap_append, same]
  exact derives_of_run ((run_append run).trans closed) finished

/-- In front of a fault of the text stands the front of a text of the grammar. -/
theorem parseChars_viable {text : List Char} {error : Error}
    (failed : parseChars text = .error error) (syntactic : error.fault.isSyntactic = true) :
    ∃ front left, text = front ++ left ∧ error.position = Position.start.advanceBy front ∧
      ∃ more, Derivable (front ++ more) := by
  unfold parseChars at failed
  simp only at failed
  split at failed
  · rename_i rejected
    cases failed
    obtain ⟨stretches, left, stage, splits, run⟩ := scan_items_error rejected
    obtain ⟨front, cut, place, derivable⟩ := splits.viable run
    exact ⟨front, left, cut, place, derivable⟩
  · rename_i items accepted
    split at failed
    · rename_i fault
      cases failed
      obtain ⟨span, -, -, limit⟩ := Item.firstFault?_span items fault
      rw [syntactic] at limit
      cases limit
    · cases failed

def Content.Holds (text : List Char) : Content → Prop
  | .text source => source.toList = text
  | .bytes source => Utf8.encode text = Utf8.dropMark source

theorem Content.parse_error {content : Content} {error : Error}
    (failed : content.parse = .error error) (syntactic : error.fault.isSyntactic = true) :
    ∃ text, content.Holds text ∧ parseChars text = .error error := by
  cases content with
  | text source => exact ⟨source.toList, rfl, failed⟩
  | bytes source =>
      simp only [parse, parseBytes] at failed
      split at failed
      · cases failed
        cases syntactic
      · rename_i text decoded
        exact ⟨text, Utf8.encode_decode decoded, failed⟩

end ConfigIndex.Document
