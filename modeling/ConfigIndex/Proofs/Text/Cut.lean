import ConfigIndex.Proofs.Text.Pattern

/-!
What a pattern finds in the front of a text stays the same where another text follows that front,
if the pattern has no use for how that text begins.
-/

namespace ConfigIndex.Text.Pattern

/-- Two results are the same, or the first one reaches over a limit. -/
def Agrees (limit : Nat) (whole cut : Option (List Char)) : Prop :=
  whole = cut ∨ ∃ word, whole = some word ∧ limit < word.length

theorem Agrees.or {limit : Nat} {whole cut more other : Option (List Char)}
    (first : Agrees limit whole cut) (second : Agrees limit more other) :
    Agrees limit (whole.or more) (cut.or other) := by
  rcases first with rfl | ⟨word, rfl, long⟩
  · cases whole with
    | none => simpa using second
    | some word => exact Or.inl rfl
  · exact Or.inr ⟨word, rfl, long⟩

def Reaches (limit : Nat) (next : Next) : Prop :=
  ∀ seen text word : List Char, limit < seen.length → next seen text = some word →
    limit < word.length

theorem Splits.reaches {step : List Char → List Char → Next → Option (List Char)}
    (splits : Splits step) {limit : Nat} {next : Next} (reaches : Reaches limit next) :
    Reaches limit fun seen text => step seen text next := by
  intro seen text word far found
  obtain ⟨front, left, rfl, further⟩ := splits seen text next word found
  exact reaches _ left word (by simp only [List.length_append]; omega) further

def Fails (text : List Char) (next : Next) : Prop :=
  ∀ seen tail, tail <:+ text → next seen tail = none

theorem Splits.fails {step : List Char → List Char → Next → Option (List Char)}
    (splits : Splits step) {text : List Char} {next : Next} (fails : Fails text next) :
    Fails text fun seen rest => step seen rest next := by
  intro seen tail inside
  change step seen tail next = none
  cases found : step seen tail next with
  | none => rfl
  | some result =>
      obtain ⟨word, left, rfl, further⟩ := splits seen tail next result found
      rw [fails _ left ((List.suffix_append word left).trans inside)] at further
      cases further

def stopsAt (stop : Char) : Pattern → Bool
  | empty => true
  | one accepts => !accepts stop
  | seq first second => first.stopsAt stop && second.stopsAt stop
  | either first second => first.stopsAt stop && second.stopsAt stop
  | many body => body.stopsAt stop
  | _ => false

def isNear : Pattern → Bool
  | empty => true
  | one _ => true
  | seq first second => first.isNear && second.isNear
  | either first second => first.isNear && second.isNear
  | many body => body.isNear
  | without (one _) => true
  | _ => false

section

variable {limit : Nat} {stop : Char} {rest more : List Char}

def Ends (stop : Char) (more : List Char) (pattern : Pattern) (cut : Next) : Prop :=
  pattern.stopsAt stop = true ∨ pattern.isNear = true ∧ Fails (stop :: more) cut

/-- What goes on in a front of `limit` characters is the same whether `rest` or `other` follows
that front. -/
structure Alike (limit : Nat) (rest other : List Char) (whole cut : Next) : Prop where
  agrees : ∀ seen front : List Char, seen.length + front.length = limit →
    Agrees limit (whole seen (front ++ rest)) (cut seen (front ++ other))
  reaches : Reaches limit whole

def Keeps (limit : Nat) (stop : Char) (rest more : List Char) (pattern : Pattern) : Prop :=
  ∀ whole cut : Next, Alike limit rest (stop :: more) whole cut → Ends stop more pattern cut →
    ∀ seen front : List Char, seen.length + front.length = limit →
      Agrees limit (pattern.after seen (front ++ rest) whole)
        (pattern.after seen (front ++ stop :: more) cut)

theorem Keeps.alike {pattern : Pattern} (keeps : Keeps limit stop rest more pattern)
    {whole cut : Next} (alike : Alike limit rest (stop :: more) whole cut)
    (ends : Ends stop more pattern cut) :
    Alike limit rest (stop :: more) (fun seen text => pattern.after seen text whole)
      (fun seen text => pattern.after seen text cut) :=
  ⟨keeps whole cut alike ends, (after_splits pattern).reaches alike.reaches⟩

theorem keeps_one (accepts : Char → Bool) : Keeps limit stop rest more (one accepts) := by
  intro whole cut alike ends seen front size
  cases front with
  | cons c front =>
      simp only [List.cons_append, one_after]
      split
      · exact alike.agrees (c :: seen) front (by simp only [List.length_cons] at size ⊢; omega)
      · exact Or.inl rfl
  | nil =>
      have stuck : (one accepts).after seen (stop :: more) cut = none := by
        rcases ends with stops | ⟨_, fails⟩
        · have refused : accepts stop = false := by simpa [stopsAt] using stops
          simp [one_after, refused]
        · exact (after_splits (one accepts)).fails fails seen _ List.suffix_rfl
      rw [List.nil_append, List.nil_append, stuck]
      cases found : (one accepts).after seen rest whole with
      | none => exact Or.inl rfl
      | some word =>
          cases rest with
          | nil => cases found
          | cons c rest =>
              rw [one_after] at found
              split at found
              · refine Or.inr ⟨word, rfl, alike.reaches (c :: seen) rest word ?_ found⟩
                simp only [List.length_nil, List.length_cons] at size ⊢
                omega
              · cases found

theorem keeps_without (accepts : Char → Bool) :
    Keeps limit stop rest more (without (one accepts)) := by
  intro whole cut alike ends seen front size
  have fails := (ends.resolve_left (by simp [stopsAt])).2
  have agrees := alike.agrees seen front size
  cases front with
  | cons c front =>
      simp only [List.cons_append, after]
      split
      · exact Or.inl rfl
      · exact agrees
  | nil =>
      have stuck := (after_splits (without (one accepts))).fails fails seen _ List.suffix_rfl
      simp only [List.nil_append] at agrees stuck ⊢
      rw [fails seen _ List.suffix_rfl] at agrees
      rw [stuck, after]
      split
      · exact Or.inl rfl
      · exact agrees

theorem Keeps.seq {first second : Pattern} (before : Keeps limit stop rest more first)
    (behind : Keeps limit stop rest more second) :
    Keeps limit stop rest more (seq first second) := by
  intro whole cut alike ends
  have both : Ends stop more second cut ∧
      Ends stop more first fun seen rest => second.after seen rest cut := by
    simp only [Ends, stopsAt, isNear, Bool.and_eq_true] at ends ⊢
    exact ⟨ends.imp And.right fun near => ⟨near.1.2, near.2⟩,
      ends.imp And.left fun near => ⟨near.1.1, (after_splits second).fails near.2⟩⟩
  exact before _ _ (behind.alike alike both.1) both.2

theorem Keeps.either {first second : Pattern} (one : Keeps limit stop rest more first)
    (other : Keeps limit stop rest more second) :
    Keeps limit stop rest more (either first second) := by
  intro whole cut alike ends seen front size
  have both : Ends stop more first cut ∧ Ends stop more second cut := by
    simp only [Ends, stopsAt, isNear, Bool.and_eq_true] at ends ⊢
    exact ⟨ends.imp And.left fun near => ⟨near.1.1, near.2⟩,
      ends.imp And.right fun near => ⟨near.1.2, near.2⟩⟩
  exact (one whole cut alike both.1 seen front size).or
    (other whole cut alike both.2 seen front size)

theorem Keeps.repeated {body : Pattern} (keeps : Keeps limit stop rest more body)
    {whole cut : Next} (alike : Alike limit rest (stop :: more) whole cut)
    (ends : Ends stop more body cut) (times : Nat) :
    Alike limit rest (stop :: more)
      (fun seen text => Pattern.repeated true body.after times seen text whole)
      (fun seen text => Pattern.repeated true body.after times seen text cut) := by
  induction times with
  | zero => exact alike
  | succ times ih =>
      refine ⟨fun seen front size => ?_, (repeated_splits (after_splits body) _).reaches
        alike.reaches⟩
      simp only [Pattern.repeated, if_true]
      refine Agrees.or (keeps _ _ ⟨fun seen' front' size' => ?_, ?_⟩ ?_ seen front size)
        (alike.agrees seen front size)
      · -- A step takes something of both texts or of neither.
        simp only [List.length_append, Nat.add_lt_add_iff_right]
        split
        · exact ih.agrees seen' front' size'
        · exact Or.inl rfl
      · intro seen' text word far found
        dsimp only at found
        split at found
        · exact ih.reaches seen' text word far found
        · cases found
      · refine ends.imp_right fun near => ⟨near.1, fun seen' tail inside => ?_⟩
        have fails := (@repeated_splits true _ (after_splits body) times).fails near.2
        simp only [fails seen' tail inside, ite_self]

theorem Keeps.many {body : Pattern} (keeps : Keeps limit stop rest more body) :
    Keeps limit stop rest more (many body) := by
  intro whole cut alike ends seen front size
  -- Both texts are given the steps that suffice for either of them.
  have enough := repeated_enough true body
  have repeats := (keeps.repeated alike ends
    (front.length + rest.length + (stop :: more).length)).agrees seen front size
  simp only [after]
  rw [enough whole (front ++ rest).length (front.length + rest.length + (stop :: more).length)
      seen (front ++ rest) (Nat.le_refl _) (by simp only [List.length_append]; omega),
    enough cut (front ++ stop :: more).length
      (front.length + rest.length + (stop :: more).length) seen (front ++ stop :: more)
      (Nat.le_refl _) (by simp only [List.length_append]; omega)]
  exact repeats

theorem keeps_after (pattern : Pattern) : Keeps limit stop rest more pattern := by
  have refused {other : Pattern} (opaqueStop : other.stopsAt stop = false)
      (far : other.isNear = false) : Keeps limit stop rest more other := by
    intro whole cut alike ends
    simp [Ends, opaqueStop, far] at ends
  induction pattern with
  | empty => exact fun whole cut alike ends => alike.agrees
  | one accepts => exact keeps_one accepts
  | seq first second before behind => exact before.seq behind
  | either first second one other => exact one.either other
  | many body keeps => exact keeps.many
  | few body _ | ahead body _ => exact refused rfl rfl
  | finish => exact refused rfl rfl
  | capture body rest _ _ => exact refused rfl rfl
  | without body _ =>
      cases body with
      | one accepts => exact keeps_without accepts
      | _ => exact refused rfl rfl

theorem alike_reverse (limit : Nat) (rest other : List Char) :
    Alike limit rest other (fun seen _ => some seen.reverse) fun seen _ => some seen.reverse := by
  refine ⟨fun seen front size => Or.inl rfl, fun seen text word far found => ?_⟩
  simpa [← Option.some.inj found] using far

theorem Agrees.some {whole cut : Option (List Char)} {word : List Char}
    (agrees : Agrees limit whole cut) (found : whole = some word) (short : word.length ≤ limit) :
    cut = Option.some word := by
  rcases agrees with same | ⟨other, reached, long⟩
  · rw [← same, found]
  · rw [found, Option.some.injEq] at reached
    subst reached
    omega

/-- A word stays the first match if the text is cut behind it, before a character that no part of
the pattern takes. -/
theorem first?_cut {pattern : Pattern} (stops : pattern.stopsAt stop = true)
    {word back : List Char} (found : pattern.first? (word ++ (back ++ rest)) = some word) :
    pattern.first? (word ++ (back ++ stop :: more)) = some word := by
  rw [← List.append_assoc] at found ⊢
  have agrees := keeps_after pattern _ _ (alike_reverse (word ++ back).length rest (stop :: more))
    (Or.inl stops) [] (word ++ back) (by simp)
  exact agrees.some found (by simp)

end

end ConfigIndex.Text.Pattern
