import ConfigIndex.Proofs.Text.Pattern

/-!
What all the words of a pattern have in common, from what its parts have in common.
-/

namespace ConfigIndex.Text.Pattern

def Yields (pattern : Pattern) (property : List Char → Prop) : Prop :=
  ∀ (seen text : List Char) (next : Next) (result : List Char),
    pattern.after seen text next = some result → ∃ word rest, property word ∧
      text = word ++ rest ∧ next (word.reverse ++ seen) rest = some result

section

variable {first second body : Pattern} {property other joined : List Char → Prop}

theorem Yields.first? (yields : body.Yields property) {text word : List Char}
    (found : body.first? text = some word) : property word := by
  obtain ⟨left, rest, holds, _, same⟩ := yields [] text _ word found
  simp only [List.append_nil, List.reverse_reverse, Option.some.injEq] at same
  exact same ▸ holds

theorem yields_empty (holds : property []) : empty.Yields property :=
  fun _ text _ _ found => ⟨[], text, holds, rfl, found⟩

theorem yields_one {accepts : Char → Bool} (holds : ∀ c, accepts c = true → property [c]) :
    (one accepts).Yields property := by
  intro seen text next result found
  cases text with
  | nil => cases found
  | cons c rest =>
      rw [one_after] at found
      split at found
      · rename_i accepted
        exact ⟨[c], rest, holds c accepted, rfl, found⟩
      · cases found

theorem yields_without (holds : property []) : (without body).Yields property := by
  intro seen text next result found
  simp only [after] at found
  split at found
  · cases found
  · exact ⟨[], text, holds, rfl, found⟩

theorem Yields.seq (left : first.Yields property) (right : second.Yields other)
    (joins : ∀ word more, property word → other more → joined (word ++ more)) :
    (seq first second).Yields joined := by
  intro seen text next result found
  rw [seq_after] at found
  obtain ⟨word, middle, holds, cut, found⟩ := left seen text _ result found
  obtain ⟨more, rest, further, cut', found⟩ := right _ middle next result found
  refine ⟨word ++ more, rest, joins word more holds further, ?_, ?_⟩
  · rw [cut, cut', List.append_assoc]
  · rwa [List.reverse_append, List.append_assoc]

theorem Yields.either (left : first.Yields property) (right : second.Yields property) :
    (either first second).Yields property := by
  intro seen text next result found
  rw [either_after, Option.or_eq_some_iff] at found
  rcases found with found | ⟨_, found⟩
  · exact left seen text next result found
  · exact right seen text next result found

/-- Words of a repetition are joined from those of its body. -/
theorem Yields.many (yields : body.Yields property) (holds : property [])
    (joins : ∀ word more, property word → property more → property (word ++ more)) :
    (many body).Yields property := by
  intro seen text next result found
  generalize size : text.length = length
  induction length using Nat.strongRecOn generalizing seen text with
  | ind length ih =>
      rw [many_unroll, Option.or_eq_some_iff] at found
      rcases found with found | ⟨_, found⟩
      · obtain ⟨word, middle, once, cut, found⟩ := yields seen text _ result found
        split at found
        · rename_i shorter
          obtain ⟨more, rest, again, cut', found⟩ :=
            ih middle.length (by omega) _ middle found rfl
          refine ⟨word ++ more, rest, joins word more once again, ?_, ?_⟩
          · rw [cut, cut', List.append_assoc]
          · rwa [List.reverse_append, List.append_assoc]
        · cases found
      · exact ⟨[], text, holds, rfl, found⟩

theorem Yields.several (yields : body.Yields property) (holds : property [])
    (joins : ∀ word more, property word → property more → property (word ++ more)) :
    (several body).Yields property :=
  yields.seq (yields.many holds joins) joins

theorem Yields.imp (yields : body.Yields property) (implies : ∀ word, property word → other word) :
    body.Yields other := by
  intro seen text next result found
  obtain ⟨word, rest, holds, cut, same⟩ := yields seen text next result found
  exact ⟨word, rest, implies word holds, cut, same⟩

end

theorem yields_any (pattern : Pattern) : pattern.Yields fun _ => True := by
  intro seen text next result found
  obtain ⟨word, rest, cut, same⟩ := after_splits pattern seen text next result found
  exact ⟨word, rest, trivial, cut, same⟩

theorem yields_char (c : Char) : (char c).Yields (· = [c]) :=
  yields_one fun d same => by rw [of_decide_eq_true same]

theorem yields_literally (text : List Char) : (literally text).Yields (· = text) := by
  induction text with
  | nil => exact yields_empty rfl
  | cons c rest ih =>
      refine (yields_char c).seq ih ?_
      rintro _ _ rfl rfl
      rfl

def avoids (marks : List Char) : Pattern → Bool
  | empty => true
  | one accepts => !marks.any accepts
  | seq first second => first.avoids marks && second.avoids marks
  | either first second => first.avoids marks && second.avoids marks
  | many body => body.avoids marks
  | without _ => true
  | _ => false

theorem yields_of_avoids {marks : List Char} (pattern : Pattern)
    (avoided : pattern.avoids marks = true) :
    pattern.Yields fun word => ∀ c ∈ marks, c ∉ word := by
  have nothing : ∀ c ∈ marks, c ∉ [] := fun c _ => List.not_mem_nil
  have joins : ∀ word more : List Char, (∀ c ∈ marks, c ∉ word) → (∀ c ∈ marks, c ∉ more) →
      ∀ c ∈ marks, c ∉ word ++ more := fun word more left right c mark =>
    List.not_mem_append (left c mark) (right c mark)
  induction pattern with
  | empty => exact yields_empty nothing
  | one accepts =>
      refine yields_one fun d accepted c mark => ?_
      rw [List.mem_singleton]
      rintro rfl
      have found : marks.any accepts = true := List.any_eq_true.mpr ⟨c, mark, accepted⟩
      simp [avoids, found] at avoided
  | seq first second ihFirst ihSecond =>
      rw [avoids, Bool.and_eq_true] at avoided
      exact (ihFirst avoided.1).seq (ihSecond avoided.2) joins
  | either first second ihFirst ihSecond =>
      rw [avoids, Bool.and_eq_true] at avoided
      exact (ihFirst avoided.1).either (ihSecond avoided.2)
  | many body ih => exact (ih avoided).many nothing joins
  | without body _ => exact yields_without nothing
  | few _ _ | ahead _ _ | finish | capture _ _ _ _ => cases avoided

end ConfigIndex.Text.Pattern
