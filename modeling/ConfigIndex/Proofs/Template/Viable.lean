import ConfigIndex.Proofs.Template.Accesses
import ConfigIndex.Proofs.Template.Cut

/-!
What the parser of templates has read can always be made whole: an operand where one must follow,
then the marks that close all that is open.
-/

namespace ConfigIndex.Template

open Text.Pattern (literally_first?_iff)

def Site.closing : Site → List Char
  | .template _ => ['}']
  | .quoted outer _ _ => '}' :: '"' :: outer.closing
  | .group outer _ => ')' :: outer.closing
  | .argument outer _ _ => ')' :: outer.closing
  | .key outer _ => ']' :: outer.closing
  | .unary outer _ _ => outer.closing
  | .right outer _ _ => outer.closing
  | .consequence outer _ => ':' :: '0' :: ' ' :: outer.closing
  | .alternative outer _ _ => outer.closing

def Stage.closing : Stage → List Char
  | .text _ => []
  | .quoted outer _ _ => '"' :: outer.closing
  | .awaiting site => ' ' :: '0' :: ' ' :: site.closing
  | .arguments site _ => ' ' :: ')' :: site.closing
  | .named site _ => ' ' :: site.closing
  | .complete site _ => ' ' :: site.closing

theorem Stage.closing_starts {stage : Stage} (outside : ∀ before, stage ≠ .text before) :
    ∃ c more, stage.closing = c :: more ∧ (c = ' ' ∨ c = '"') ∧
      ∀ outer quote before, stage = .quoted outer quote before → c = '"' := by
  cases stage with
  | text before => exact absurd rfl (outside before)
  | quoted outer quote before => exact ⟨'"', _, rfl, Or.inr rfl, fun _ _ _ _ => rfl⟩
  | _ => exact ⟨' ', _, rfl, Or.inl rfl, fun _ _ _ same => nomatch same⟩

theorem token_mark {terminal : Terminal} {mark : Char}
    (pattern : terminal.pattern = .literally [mark]) (point : Point) (gap rest : List Char)
    (gaps : ∀ c ∈ gap, isGap c = true) :
    Token terminal ⟨point, gap ++ mark :: rest⟩
      ⟨terminal, String.ofList [mark], point.advanceBy gap⟩
      ⟨(point.advanceBy gap).advanceBy [mark], rest⟩ :=
  Token.mk gaps (mark_word terminal pattern (point.advanceBy gap) rest)

theorem token_zero (point : Point) (gap rest : List Char) (gaps : ∀ c ∈ gap, isGap c = true) :
    Token .number ⟨point, gap ++ '0' :: ' ' :: rest⟩
      ⟨.number, String.ofList ['0'], point.advanceBy gap⟩
      ⟨(point.advanceBy gap).advanceBy ['0'], ' ' :: rest⟩ := by
  have first : Terminal.number.pattern.first? (['0'] ++ ' ' :: rest) = some ['0'] := by
    rw [Terminal.pattern, Text.Pattern.numeral_decides.first?]
    rfl
  exact Token.mk gaps (Word.mk first)

def Stage.Finishes (stage : Stage) (spot : Spot) : Prop :=
  ∃ before stop, Steps stage spot (.text before) ⟨stop, []⟩

theorem Steps.finishes {stage next : Stage} {spot behind : Spot}
    (steps : Steps stage spot next behind) (finishes : next.Finishes behind) :
    stage.Finishes spot := by
  obtain ⟨before, stop, further⟩ := finishes
  exact ⟨before, stop, steps.trans further⟩

theorem Settled.whole {site : Site} {operand : Operand} :
    Settled 0 site operand (.complete site operand) := Settled.complete Folds.none

theorem Settled.closedBy {site : Site} {operand : Operand} {stage next : Stage} {mark : Char}
    (settled : Settled 0 site operand stage) (terminal : Terminal) (member : terminal ∈ closers)
    (pattern : terminal.pattern = .literally [mark])
    (closed : site.close terminal operand = .ok next) {rest : List Char}
    (finishes : ∀ point, next.Finishes ⟨point, rest⟩) (point : Point) (gap : List Char)
    (gaps : ∀ c ∈ gap, isGap c = true) : stage.Finishes ⟨point, gap ++ mark :: rest⟩ :=
  (settled.closes (token_mark pattern point gap rest gaps) member closed).finishes (finishes _)

section

variable {outer site : Site} {rest : List Char}

/-- A string is closed as soon as it may end. -/
theorem quoted_finishes {quote : Point} {before : List Part}
    (finishes : ∀ operand point, (Stage.complete outer operand).Finishes ⟨point, rest⟩)
    (point : Point) : (Stage.quoted outer quote before).Finishes ⟨point, '"' :: rest⟩ := by
  have first : Terminal.quote.pattern.first? (['"'] ++ rest) = some ['"'] :=
    literally_first?_iff.mpr ⟨rfl, rest, rfl⟩
  exact ((Word.mk first).steps _ (Or.inr rfl) (by simp [Stage.place, Mode.terminals]) rfl).finishes
    (finishes _ _)

/-- A number does where an operand must follow. -/
theorem awaiting_finishes
    (finishes : ∀ operand point, (Stage.complete site operand).Finishes ⟨point, ' ' :: rest⟩)
    (point : Point) (gap : List Char) (gaps : ∀ c ∈ gap, isGap c = true) :
    (Stage.awaiting site).Finishes ⟨point, gap ++ '0' :: ' ' :: rest⟩ :=
  ((token_zero point gap rest gaps).stepsBefore _ rfl (by simp [Mode.terminals]) (Or.inl rfl)
    rfl).finishes (finishes _ _)

end

/-- Behind an operand its sites are closed one after the other. -/
theorem Site.closing_finishes (site : Site) : ∀ {operand : Operand} {stage : Stage},
    Settled 0 site operand stage → ∀ (point : Point) (gap : List Char),
      (∀ c ∈ gap, isGap c = true) → stage.Finishes ⟨point, gap ++ site.closing⟩ := by
  induction site with
  | template before =>
      intro operand stage settled
      exact settled.closedBy .closing (by simp [closers]) rfl rfl fun point => ⟨_, _, Steps.none⟩
  | quoted outer quote before ih =>
      intro operand stage settled
      exact settled.closedBy .closing (by simp [closers]) rfl rfl
        (quoted_finishes fun _ point => ih Settled.whole point [] (by simp))
  | group outer opening ih | argument outer name before ih =>
      intro operand stage settled
      exact settled.closedBy .closeParen (by simp [closers]) rfl rfl
        fun point => ih Settled.whole point [] (by simp)
  | key outer name ih =>
      intro operand stage settled
      exact settled.closedBy .closeBracket (by simp [closers]) rfl rfl
        fun point => ih Settled.whole point [] (by simp)
  | unary outer operator start ih =>
      intro operand stage settled
      exact ih (settled.fold (Nat.le_refl 0) (Folds.unary Folds.none))
  | right outer operator left ih =>
      intro operand stage settled
      exact ih (settled.fold (Nat.le_refl 0) (Folds.right (Nat.zero_le _) Folds.none))
  | consequence outer condition ih =>
      intro operand stage settled
      refine settled.closedBy .colon (by simp [closers]) rfl rfl fun point => ?_
      refine awaiting_finishes (fun other point => ?_) point [] (by simp)
      exact ih (Settled.whole.fold (Nat.le_refl 0) (Folds.alternative rfl Folds.none)) point [' ']
        (by simp [isGap])
  | alternative outer condition yes ih =>
      intro operand stage settled
      exact ih (settled.fold (Nat.le_refl 0) (Folds.alternative rfl Folds.none))

/-- What makes a stage whole does so behind a gap too. -/
theorem Stage.closing_finishes (stage : Stage) (point : Point) (gap : List Char)
    (skipped : ∀ c ∈ gap, stage.place.skips c = true) :
    stage.Finishes ⟨point, gap ++ stage.closing⟩ := by
  have gaps : ∀ c ∈ gap ++ [' '], isGap c = true := by
    intro c member
    rcases List.mem_append.mp member with member | member
    · have skips := skipped c member
      simp only [Place.skips, Bool.and_eq_true] at skips
      exact skips.1
    · obtain rfl := List.mem_singleton.mp member
      rfl
  cases stage with
  | text before =>
      obtain rfl := Place.gap_nil (Or.inl rfl) skipped
      exact ⟨before, point, Steps.none⟩
  | quoted outer quote before =>
      obtain rfl := Place.gap_nil (Or.inr rfl) skipped
      exact quoted_finishes (fun _ point => outer.closing_finishes Settled.whole point [] (by simp))
        point
  | awaiting site =>
      rw [Stage.closing, List.append_cons]
      exact awaiting_finishes
        (fun _ point => site.closing_finishes Settled.whole point [' '] (by simp [isGap]))
        point _ gaps
  | arguments site name =>
      rw [Stage.closing, List.append_cons]
      have token := @token_mark .closeParen _ rfl point _ site.closing gaps
      have closes := token.stepsBefore (.arguments site name) rfl (by simp [Mode.terminals])
        (Or.inl rfl) rfl
      exact closes.finishes (site.closing_finishes Settled.whole _ [] (by simp))
  | named site name =>
      rw [Stage.closing, List.append_cons]
      exact site.closing_finishes (Settled.named Folds.none) point _ gaps
  | complete site operand =>
      rw [Stage.closing, List.append_cons]
      exact site.closing_finishes Settled.whole point _ gaps

/-- In front of a fault stands the front of a text of the grammar. -/
theorem parts_viable {basis : Point} {text : List Char} {error : Error}
    (failed : (scan basis text).parts = .error error) :
    ∃ front left, text = front ++ left ∧ error.point = basis.advanceBy front ∧
      ∃ more parts, Written basis (front ++ more) parts := by
  rw [scan_parts] at failed
  obtain ⟨last, stop, gap, left, steps, cut, skipped, place, outside⟩ := steps_of_error _ _ failed
  obtain ⟨front, reached, moved⟩ := steps.leads
  obtain ⟨c, more, closing, ends, quoted⟩ := Stage.closing_starts outside
  have kept : Steps (.text []) ⟨basis, front ++ (gap ++ c :: more)⟩ last
      ⟨stop.point, gap ++ c :: more⟩ := by
    refine steps.kept cut ends outside (fun outer quote before same => ?_) front reached
    refine ⟨?_, quoted outer quote before same⟩
    subst same
    exact Place.gap_nil (Or.inr rfl) skipped
  obtain ⟨before, final, closes⟩ := last.closing_finishes stop.point gap skipped
  rw [closing] at closes
  refine ⟨front ++ gap, left, ?_, ?_, c :: more, before.reverse, ?_⟩
  · rw [List.append_assoc, ← cut]
    exact reached
  · rw [place, moved, Point.advanceBy_append]
  · rw [List.append_assoc]
    apply scan_parts_eq_ok_iff.mp
    apply Steps.complete
    rw [List.reverse_reverse]
    exact kept.trans closes

end ConfigIndex.Template
