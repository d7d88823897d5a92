/-!
Patterns of words, matched by trying alternatives in their order and going back where what follows
does not fit. The first match found is the word.
-/

namespace ConfigIndex.Text

inductive Pattern
  | empty
  | one (accepts : Char → Bool)
  | seq (first second : Pattern)
  | either (first second : Pattern)
  /-- Any number of times, as often as possible. -/
  | many (body : Pattern)
  /-- Any number of times, as seldom as possible. -/
  | few (body : Pattern)
  /-- Nothing, where the body does not match. -/
  | without (body : Pattern)
  /-- Nothing, where the body matches. -/
  | ahead (body : Pattern)
  /-- Nothing, at the end of the text or before a line break that ends it. -/
  | finish
  /-- A body, and a rest that depends on what the body has matched. -/
  | capture (body : Pattern) (rest : List Char → Pattern)

namespace Pattern

/-- What goes on behind a match, given what was matched so far, last first, and what is left. -/
abbrev Next := List Char → List Char → Option (List Char)

/-- Takes a step any number of times and then goes on; `eager` tells whether one more step or none
is tried first. Each step takes a character at least, so no text needs more of them than it has
characters. -/
def repeated (eager : Bool) (step : List Char → List Char → Next → Option (List Char)) :
    Nat → List Char → List Char → Next → Option (List Char)
  | 0, seen, text, next => next seen text
  | times + 1, seen, text, next =>
    let further := step seen text fun seen rest =>
      if rest.length < text.length then repeated eager step times seen rest next else none
    if eager then further.or (next seen text) else (next seen text).or further

def after : Pattern → List Char → List Char → Next → Option (List Char)
  | empty, seen, text, next => next seen text
  | one _, _, [], _ => none
  | one accepts, seen, c :: rest, next => if accepts c then next (c :: seen) rest else none
  | seq first second, seen, text, next =>
    first.after seen text fun seen rest => second.after seen rest next
  | either first second, seen, text, next =>
    (first.after seen text next).or (second.after seen text next)
  | many body, seen, text, next => repeated true body.after text.length seen text next
  | few body, seen, text, next => repeated false body.after text.length seen text next
  | without body, seen, text, next =>
    if (body.after [] text fun _ _ => some []).isSome then none else next seen text
  | ahead body, seen, text, next =>
    if (body.after [] text fun _ _ => some []).isSome then next seen text else none
  | finish, seen, text, next => if text = [] ∨ text = ['\n'] then next seen text else none
  | capture body rest, seen, text, next =>
    body.after [] text fun word left => (rest word.reverse).after (word ++ seen) left next

def first? (pattern : Pattern) (text : List Char) : Option (List Char) :=
  pattern.after [] text fun seen _ => some seen.reverse

def char (c : Char) : Pattern := one (· = c)

def literally : List Char → Pattern
  | [] => empty
  | c :: rest => seq (char c) (literally rest)

def several (body : Pattern) : Pattern := seq body (many body)

def maybe (body : Pattern) : Pattern := either body empty

-- The lemmas below share these equations and are elaborated side by side; derived here, they are
-- derived once.
attribute [grind =] repeated after

theorem one_after (accepts : Char → Bool) (seen : List Char) (c : Char) (rest : List Char)
    (next : Next) :
    (one accepts).after seen (c :: rest) next =
      if accepts c then next (c :: seen) rest else none := rfl

theorem seq_after (first second : Pattern) (seen text : List Char) (next : Next) :
    (seq first second).after seen text next =
      first.after seen text fun seen rest => second.after seen rest next := rfl

theorem either_after (first second : Pattern) (seen text : List Char) (next : Next) :
    (either first second).after seen text next =
      (first.after seen text next).or (second.after seen text next) := rfl

def Splits (step : List Char → List Char → Next → Option (List Char)) : Prop :=
  ∀ (seen text : List Char) (next : Next) (result : List Char),
    step seen text next = some result →
      ∃ word rest, text = word ++ rest ∧ next (word.reverse ++ seen) rest = some result

theorem repeated_splits {eager : Bool} {step : List Char → List Char → Next → Option (List Char)}
    (splits : Splits step) (times : Nat) : Splits (repeated eager step times) := by
  induction times with
  | zero => exact fun seen text next result found => ⟨[], text, rfl, found⟩
  | succ times ih =>
      intro seen text next result found
      have either : (step seen text fun seen rest =>
          if rest.length < text.length then repeated eager step times seen rest next else none) =
            some result ∨ next seen text = some result := by
        simp only [repeated] at found
        split at found
        · exact (Option.or_eq_some_iff.mp found).imp_right And.right
        · exact (Option.or_eq_some_iff.mp found).symm.imp_left And.right
      rcases either with further | stopped
      · obtain ⟨left, middle, cut, found⟩ := splits seen text _ result further
        split at found
        · obtain ⟨right, rest, cut', found⟩ := ih _ middle _ result found
          refine ⟨left ++ right, rest, by simp [cut, cut'], ?_⟩
          simpa [List.append_assoc] using found
        · cases found
      · exact ⟨[], text, rfl, stopped⟩

theorem after_splits (pattern : Pattern) : Splits pattern.after := by
  induction pattern with
  | empty => exact fun seen text next result found => ⟨[], text, rfl, found⟩
  | one accepts =>
      intro seen text next result found
      cases text with
      | nil => simp [after] at found
      | cons c rest =>
          simp only [after] at found
          split at found
          · exact ⟨[c], rest, rfl, found⟩
          · simp at found
  | seq first second ihFirst ihSecond =>
      intro seen text next result found
      obtain ⟨left, middle, cut, found⟩ := ihFirst seen text _ result found
      obtain ⟨right, rest, cut', found⟩ := ihSecond _ middle _ result found
      refine ⟨left ++ right, rest, by simp [cut, cut'], ?_⟩
      simpa [List.append_assoc] using found
  | either first second ihFirst ihSecond =>
      intro seen text next result found
      simp only [after, Option.or_eq_some_iff] at found
      rcases found with found | ⟨_, found⟩
      · exact ihFirst seen text next result found
      · exact ihSecond seen text next result found
  | many body ih => exact fun seen text => repeated_splits ih text.length seen text
  | few body ih => exact fun seen text => repeated_splits ih text.length seen text
  | without body _ =>
      intro seen text next result found
      simp only [after] at found
      split at found
      · simp at found
      · exact ⟨[], text, rfl, found⟩
  | ahead body _ =>
      intro seen text next result found
      simp only [after] at found
      split at found
      · exact ⟨[], text, rfl, found⟩
      · simp at found
  | finish =>
      intro seen text next result found
      simp only [after] at found
      split at found
      · exact ⟨[], text, rfl, found⟩
      · simp at found
  | capture body rest ihBody ihRest =>
      intro seen text next result found
      obtain ⟨left, middle, cut, found⟩ := ihBody [] text _ result found
      obtain ⟨right, last, cut', found⟩ := ihRest _ _ middle _ result found
      refine ⟨left ++ right, last, by simp [cut, cut'], ?_⟩
      simpa [List.append_assoc] using found

theorem first?_splits {pattern : Pattern} {text word : List Char}
    (found : pattern.first? text = some word) : ∃ rest, text = word ++ rest := by
  obtain ⟨left, rest, cut, same⟩ := after_splits pattern [] text _ word found
  simp only [List.append_nil, List.reverse_reverse, Option.some.injEq] at same
  exact ⟨rest, by rw [cut, same]⟩

theorem after_failing (pattern : Pattern) (seen text : List Char) :
    pattern.after seen text (fun _ _ => none) = none := by
  cases found : pattern.after seen text (fun _ _ => none) with
  | none => rfl
  | some result =>
      obtain ⟨_, _, _, impossible⟩ := after_splits pattern seen text _ result found
      simp at impossible

theorem repeated_enough (eager : Bool) (body : Pattern) (next : Next) :
    ∀ (times more : Nat) (seen text : List Char), text.length ≤ times → text.length ≤ more →
      repeated eager body.after times seen text next =
        repeated eager body.after more seen text next := by
  have nothing : ∀ (more : Nat) (seen : List Char),
      repeated eager body.after more seen [] next = next seen [] := by
    intro more seen
    cases more with
    | zero => rfl
    | succ more => simp [repeated, after_failing]
  intro times
  induction times with
  | zero =>
      intro more seen text short _
      have empty : text = [] := List.length_eq_zero_iff.mp (by omega)
      rw [empty, nothing, nothing]
  | succ times ih =>
      intro more seen text short enough
      cases more with
      | zero =>
          have empty : text = [] := List.length_eq_zero_iff.mp (by omega)
          rw [empty, nothing, nothing]
      | succ more =>
          have same : (fun seen (rest : List Char) =>
              if rest.length < text.length then repeated eager body.after times seen rest next
              else none) = fun seen rest =>
              if rest.length < text.length then repeated eager body.after more seen rest next
              else none := by
            funext seen rest
            split
            · exact ih more seen rest (by omega) (by omega)
            · rfl
          simp only [repeated]
          rw [same]

theorem repeated_unroll (eager : Bool) (body : Pattern) (seen text : List Char) (next : Next) :
    repeated eager body.after text.length seen text next =
      let further := body.after seen text fun seen rest =>
        if rest.length < text.length then repeated eager body.after rest.length seen rest next
        else none
      if eager then further.or (next seen text) else (next seen text).or further := by
  have same : (fun seen (rest : List Char) =>
      if rest.length < text.length then repeated eager body.after text.length seen rest next
      else none) = fun seen rest =>
      if rest.length < text.length then repeated eager body.after rest.length seen rest next
      else none := by
    funext seen rest
    split
    · exact repeated_enough eager body next _ _ seen rest (by omega) (Nat.le_refl _)
    · rfl
  rw [repeated_enough eager body next text.length (text.length + 1) seen text (by omega) (by omega)]
  simp only [repeated]
  rw [same]

theorem many_unroll (body : Pattern) (seen text : List Char) (next : Next) :
    (many body).after seen text next =
      (body.after seen text fun seen rest =>
        if rest.length < text.length then (many body).after seen rest next else none).or
      (next seen text) :=
  repeated_unroll true body seen text next

theorem few_unroll (body : Pattern) (seen text : List Char) (next : Next) :
    (few body).after seen text next =
      (next seen text).or (body.after seen text fun seen rest =>
        if rest.length < text.length then (few body).after seen rest next else none) :=
  repeated_unroll false body seen text next

def Local (step : List Char → List Char → Next → Option (List Char)) : Prop :=
  ∀ (seen text : List Char) (next other : Next),
    (∀ seen rest, rest.length ≤ text.length → next seen rest = other seen rest) →
      step seen text next = step seen text other

theorem repeated_local {eager : Bool} {step : List Char → List Char → Next → Option (List Char)}
    (near : Local step) (times : Nat) : Local (repeated eager step times) := by
  induction times with
  | zero => exact fun seen text next other same => same seen text (Nat.le_refl _)
  | succ times ih =>
      intro seen text next other same
      have further : (step seen text fun seen rest =>
          if rest.length < text.length then repeated eager step times seen rest next else none) =
          step seen text fun seen rest =>
            if rest.length < text.length then repeated eager step times seen rest other
            else none := by
        apply near
        intro seen rest _
        split
        · exact ih seen rest next other fun seen left shorter => same seen left (by omega)
        · rfl
      simp only [repeated]
      rw [further, same seen text (Nat.le_refl _)]

theorem after_local (pattern : Pattern) : Local pattern.after := by
  induction pattern with
  | empty => exact fun seen text next other same => same seen text (Nat.le_refl _)
  | one accepts =>
      intro seen text next other same
      cases text with
      | nil => rfl
      | cons c rest =>
          simp only [after]
          rw [same (c :: seen) rest (by simp)]
  | seq first second ihFirst ihSecond =>
      intro seen text next other same
      apply ihFirst
      intro seen rest short
      exact ihSecond seen rest next other fun seen left shorter => same seen left (by omega)
  | either first second ihFirst ihSecond =>
      intro seen text next other same
      simp only [after]
      rw [ihFirst seen text next other same, ihSecond seen text next other same]
  | many body ih => exact fun seen text => repeated_local ih text.length seen text
  | few body ih => exact fun seen text => repeated_local ih text.length seen text
  | without body _ =>
      intro seen text next other same
      simp only [after]
      rw [same seen text (Nat.le_refl _)]
  | ahead body _ =>
      intro seen text next other same
      simp only [after]
      rw [same seen text (Nat.le_refl _)]
  | finish =>
      intro seen text next other same
      simp only [after]
      rw [same seen text (Nat.le_refl _)]
  | capture body rest ihBody ihRest =>
      intro seen text next other same
      apply ihBody
      intro word left short
      exact ihRest _ _ left next other fun seen last shorter => same seen last (by omega)

theorem many_total {body : Pattern} {next : Next} (total : ∀ seen rest, (next seen rest).isSome)
    (seen text : List Char) : ((many body).after seen text next).isSome := by
  rw [many_unroll, Option.isSome_or, total seen text, Bool.or_true]

def Consumes (pattern : Pattern) : Prop :=
  ∀ (seen text : List Char) (next : Next),
    (pattern.after seen text fun seen rest =>
      if rest.length < text.length then next seen rest else none) = pattern.after seen text next

theorem consumes_one (accepts : Char → Bool) : Consumes (one accepts) := by
  intro seen text next
  cases text with
  | nil => rfl
  | cons c text => simp [after]

theorem Consumes.seq {first : Pattern} (consumes : Consumes first) (second : Pattern) :
    Consumes (seq first second) := by
  intro seen text next
  simp only [seq_after]
  rw [← consumes seen text fun seen rest => second.after seen rest next, ← consumes]
  congr 1
  funext seen rest
  split
  · apply after_local
    intro seen left short
    rw [if_pos (by omega)]
  · rfl

theorem Consumes.behind {second : Pattern} (consumes : Consumes second) (first : Pattern) :
    Consumes (Pattern.seq first second) := by
  intro seen text next
  simp only [seq_after]
  apply after_local
  intro seen rest short
  rw [← consumes seen rest fun seen left => if left.length < text.length then next seen left
    else none, ← consumes seen rest next]
  apply after_local
  intro seen left _
  split
  · rw [if_pos (by omega)]
  · rfl

theorem Consumes.either {first second : Pattern} (left : Consumes first)
    (right : Consumes second) : Consumes (either first second) := by
  intro seen text next
  simp only [after]
  rw [left seen text next, right seen text next]

/-- A repetition tries its body once more before it is content. -/
theorem Consumes.many_unroll {body : Pattern} (consumes : Consumes body) (seen text : List Char)
    (next : Next) :
    (many body).after seen text next =
      (body.after seen text fun seen rest => (many body).after seen rest next).or
      (next seen text) := by
  rw [Pattern.many_unroll, consumes seen text fun seen rest => (many body).after seen rest next]

/-- A repetition that stops as soon as it can tries its body only where nothing else fits. -/
theorem Consumes.few_unroll {body : Pattern} (consumes : Consumes body) (seen text : List Char)
    (next : Next) :
    (few body).after seen text next =
      (next seen text).or
        (body.after seen text fun seen rest => (few body).after seen rest next) := by
  rw [Pattern.few_unroll, consumes seen text fun seen rest => (few body).after seen rest next]

theorem Consumes.first?_ne_nil {pattern : Pattern} (consumes : Consumes pattern)
    {text word : List Char} (found : pattern.first? text = some word) : word ≠ [] := by
  rw [Pattern.first?, ← consumes] at found
  obtain ⟨left, rest, cut, same⟩ := after_splits pattern [] text _ word found
  split at same
  · rename_i shorter
    simp only [List.append_nil, List.reverse_reverse, Option.some.injEq] at same
    rintro rfl
    simp [cut, same] at shorter
  · simp at same

theorem Consumes.several_first? {body : Pattern} (consumes : Consumes body) {text word : List Char}
    (whole : (many body).first? text = some word) :
    (several body).first? text = if word.isEmpty then none else some word := by
  rw [Pattern.first?, consumes.many_unroll] at whole
  change ((several body).first? text).or (some []) = some word at whole
  cases found : (several body).first? text with
  | none =>
      have empty : [] = word := by simpa [found] using whole
      simp [← empty]
  | some other =>
      have same : other = word := by simpa [found] using whole
      have nonempty := (consumes.seq (many body)).first?_ne_nil found
      simp [← same, nonempty]

@[simp] theorem many_one_nil (accepts : Char → Bool) (seen : List Char) (next : Next) :
    (many (one accepts)).after seen [] next = next seen [] := rfl

theorem many_one_cons (accepts : Char → Bool) (seen : List Char) (c : Char) (rest : List Char)
    (next : Next) :
    (many (one accepts)).after seen (c :: rest) next =
      if accepts c then
        ((many (one accepts)).after (c :: seen) rest next).or (next seen (c :: rest))
      else next seen (c :: rest) := by
  rw [(consumes_one accepts).many_unroll]
  by_cases accepted : accepts c
  · simp [after, accepted]
  · simp [after, accepted]

theorem many_one_apart {accepts : Char → Bool} {next : Next}
    (apart : ∀ seen c rest, accepts c = true → next seen (c :: rest) = none)
    (seen text : List Char) :
    (many (one accepts)).after seen text next =
      next ((text.takeWhile accepts).reverse ++ seen) (text.dropWhile accepts) := by
  induction text generalizing seen with
  | nil => simp
  | cons c rest ih =>
      rw [many_one_cons]
      by_cases accepted : accepts c
      · simp [accepted, ih, apart seen c rest accepted]
      · simp [accepted]

theorem many_one_total {accepts : Char → Bool} {next : Next}
    (total : ∀ seen rest, (next seen rest).isSome) (seen text : List Char) :
    (many (one accepts)).after seen text next =
      next ((text.takeWhile accepts).reverse ++ seen) (text.dropWhile accepts) := by
  induction text generalizing seen with
  | nil => simp
  | cons c rest ih =>
      rw [many_one_cons]
      by_cases accepted : accepts c
      · obtain ⟨result, found⟩ := Option.isSome_iff_exists.mp
          (total ((rest.takeWhile accepts).reverse ++ c :: seen) (rest.dropWhile accepts))
        simp [accepted, ih, found]
      · simp [accepted]

theorem literally_after (word : List Char) (seen text : List Char) (next : Next) :
    (literally word).after seen text next =
      if word.isPrefixOf text then next (word.reverse ++ seen) (text.drop word.length)
      else none := by
  induction word generalizing seen text with
  | nil => rfl
  | cons c word ih =>
      cases text with
      | nil => rfl
      | cons d text =>
          by_cases same : d = c
          · subst same
            simp [literally, char, after, ih]
          · have other : ¬c = d := fun eq => same eq.symm
            simp [literally, char, after, same, other]

theorem literally_first?_iff {word text found : List Char} :
    (literally word).first? text = some found ↔ found = word ∧ ∃ rest, text = word ++ rest := by
  rw [first?, literally_after]
  constructor
  · intro same
    split at same
    · rename_i front
      obtain ⟨rest, cut⟩ := List.isPrefixOf_iff_prefix.mp front
      exact ⟨by simpa using same.symm, rest, cut.symm⟩
    · cases same
  · rintro ⟨rfl, rest, rfl⟩
    rw [if_pos (List.isPrefixOf_iff_prefix.mpr (List.prefix_append _ _))]
    simp

/-- Where a pattern is followed by nothing that may fail, it takes the word that `word?` finds. -/
def Decides (pattern : Pattern) (word? : List Char → Option (List Char)) : Prop :=
  ∀ (seen text : List Char) (next : Next), (∀ seen rest, (next seen rest).isSome) →
    pattern.after seen text next =
      (word? text).bind fun word => next (word.reverse ++ seen) (text.drop word.length)

theorem Decides.first? {pattern : Pattern} {word? : List Char → Option (List Char)}
    (decides : Decides pattern word?) (text : List Char) : pattern.first? text = word? text := by
  rw [Pattern.first?, decides [] text _ (fun _ _ => rfl)]
  cases word? text <;> simp

theorem drop_takeWhile_length (accepts : Char → Bool) (text : List Char) :
    text.drop (text.takeWhile accepts).length = text.dropWhile accepts := by
  have halves := congrArg (List.drop (text.takeWhile accepts).length)
    (List.takeWhile_append_dropWhile (p := accepts) (l := text))
  rw [List.drop_left] at halves
  exact halves.symm

theorem many_one_decides (accepts : Char → Bool) :
    Decides (many (one accepts)) fun text => some (text.takeWhile accepts) := by
  intro seen text next total
  rw [many_one_total total, Option.bind_some, drop_takeWhile_length]

theorem several_one_decides (accepts : Char → Bool) :
    Decides (several (one accepts)) fun text =>
      if (text.takeWhile accepts).isEmpty then none else some (text.takeWhile accepts) := by
  intro seen text next total
  cases text with
  | nil => simp [several, after]
  | cons c rest =>
      by_cases accepted : accepts c
      · have tail := many_one_decides accepts (c :: seen) rest next total
        simp only [several, after] at tail ⊢
        simp [accepted, tail]
      · simp [several, after, accepted]

theorem Decides.maybe {pattern : Pattern} {word? : List Char → Option (List Char)}
    (decides : Decides pattern word?) :
    Decides (maybe pattern) fun text => some ((word? text).getD []) := by
  intro seen text next total
  simp only [Pattern.maybe, after]
  rw [decides seen text next total]
  cases word? text with
  | none => simp
  | some word =>
      obtain ⟨result, found⟩ := Option.isSome_iff_exists.mp
        (total (word.reverse ++ seen) (text.drop word.length))
      simp [found]

theorem Decides.seq {first second : Pattern} {word? : List Char → Option (List Char)}
    {more : List Char → List Char} (decides : Decides first word?)
    (always : Decides second fun text => some (more text)) :
    Decides (seq first second) fun text =>
      (word? text).map fun word => word ++ more (text.drop word.length) := by
  intro seen text next total
  simp only [after]
  rw [decides]
  · cases word? text with
    | none => rfl
    | some word =>
        simp [always _ _ next total, List.append_assoc, List.drop_drop]
  · intro seen rest
    simp [always _ _ next total, total]

theorem Decides.either {first second : Pattern} {word? other? : List Char → Option (List Char)}
    (decides : Decides first word?) (otherwise : Decides second other?) :
    Decides (either first second) fun text => (word? text).or (other? text) := by
  intro seen text next total
  simp only [after]
  rw [decides seen text next total, otherwise seen text next total]
  cases word? text with
  | none => simp
  | some word =>
      obtain ⟨result, found⟩ := Option.isSome_iff_exists.mp
        (total (word.reverse ++ seen) (text.drop word.length))
      simp [found]

end Pattern

end ConfigIndex.Text
