import ConfigIndex.Proofs.Document.Viable
import ConfigIndex.Proofs.Template.Viable

/-!
Errors come in time: up to the place that is reported, what was read could still have become a text
of the grammar.
-/

namespace ConfigIndex

/-- The place of an error of the grammar denotes one index. What stands before that index can be
continued to a text of the grammar, in documents as in templates. -/
theorem parse_error_viable :
    (∀ (content : Document.Content) (error : Document.Error),
      content.parse = .error error → error.fault.isSyntactic = true →
        ∃ text, content.Holds text ∧ (∃ index, error.position.Denotes text index) ∧
          ∀ index, error.position.Denotes text index →
            ∃ more, Document.Derivable (text.take index ++ more)) ∧
    ∀ (text : String) (error : Template.Error),
      Template.parse text = .error (.faulty error) → error.fault ≠ .tooDeep →
        (∃ index, (error.point.filed "").Stands text.toList index) ∧
          ∀ index, (error.point.filed "").Stands text.toList index →
            ∃ more parts, Template.Written .start (text.toList.take index ++ more) parts := by
  constructor
  · intro content error failed syntactic
    obtain ⟨text, holds, rejected⟩ := Document.Content.parse_error failed syntactic
    obtain ⟨front, left, rfl, place, more, derivable⟩ :=
      Document.parseChars_viable rejected syntactic
    have denotes := Position.denotes_advanceBy front left
    rw [← place] at denotes
    refine ⟨front ++ left, holds, ⟨front.length, denotes⟩, fun index other => ⟨more, ?_⟩⟩
    rw [other.1.front denotes.1]
    exact derivable
  · intro text error failed nested
    have rejected := Template.parts_of_faulty failed nested
    obtain ⟨front, left, cut, place, more, parts, written⟩ := Template.parts_viable rejected
    have stands : (error.point.filed "").Stands (front ++ left) front.length := by
      rw [place]
      exact filed_stands (Position.denotes_advanceBy front left).1 ""
    rw [cut]
    refine ⟨⟨front.length, stands⟩, fun index other => ⟨more, parts, ?_⟩⟩
    rw [other.front stands]
    exact written

theorem parse_error_viable_unclosed :
    (let content := Document.Content.text "a = [1, \x7d"
      ∃ error, content.parse = .error error ∧ error.fault.isSyntactic = true ∧
        ∃ text, content.Holds text ∧ (∃ index, error.position.Denotes text index) ∧
          ∀ index, error.position.Denotes text index →
            ∃ more, Document.Derivable (text.take index ++ more)) ∧
    let text := "$\x7bf(1 y"
    ∃ error, Template.parse text = .error (.faulty error) ∧ error.fault ≠ .tooDeep ∧
      (∃ index, (error.point.filed "").Stands text.toList index) ∧
        ∀ index, (error.point.filed "").Stands text.toList index →
          ∃ more parts, Template.Written .start (text.toList.take index ++ more) parts := by
  constructor
  · have rejected : (Document.Content.text "a = [1, \x7d").parse =
        .error ⟨.unexpected ⟨.closeBrace, "\x7d", ⟨"", 8, 1, 9⟩⟩ .element, ⟨"", 8, 1, 9⟩⟩ := rfl
    exact ⟨_, rejected, rfl, parse_error_viable.1 _ _ rejected rfl⟩
  · have rejected : Template.parse "$\x7bf(1 y" =
        .error (.faulty ⟨.unexpected "y" .operator, ⟨"", 1, 7⟩⟩) := rfl
    exact ⟨_, rejected, by decide, parse_error_viable.2 _ _ rejected (by decide)⟩

end ConfigIndex
