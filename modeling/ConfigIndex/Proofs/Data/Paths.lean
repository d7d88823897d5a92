import ConfigIndex.Proofs.Data.Merge
import ConfigIndex.Proofs.Data.Written
import Mathlib.Data.List.Infix

/-!
What paths of keys find in merged records: the value of the record on top where it sets one, and
otherwise that of the record below.
-/

namespace ConfigIndex.Data

/-- In a record, and in every record that one of its keys leads to, each key stands once. -/
inductive Distinct : Data → Prop
  | record {fields : Fields} (once : (fields.map Prod.fst).Nodup)
      (inner : ∀ field ∈ fields, Distinct field.2) : Distinct (.record fields)
  | plain {value : Data} (other : value.isRecord = false) : Distinct value

def EndsAt (value : Data) (path : List String) (leaf : Data) : Prop :=
  value.at? path = some leaf ∧ leaf.isRecord = false

def Blocks (value : Data) (path : List String) : Prop :=
  ∃ front leaf, front <+: path ∧ front ≠ path ∧ value.EndsAt front leaf

section

variable {value leaf inner : Data} {fields base : Fields} {key : String} {rest : List String}

/-! ### Steps of a path -/

theorem at?_nil (value : Data) : value.at? [] = some value := by
  rw [at?]

theorem at?_record (fields : Fields) (key : String) :
    (record fields).at? [key] = fields.get? key := by
  rw [at?]
  cases fields.get? key with
  | none => rfl
  | some inner => rw [Option.bind_some, at?_nil]

theorem at?_plain (plain : value.isRecord = false) (key : String) : value.at? [key] = none := by
  cases value with
  | record fields => cases plain
  | _ => rfl

theorem at?_step (value : Data) (key : String) (rest : List String) :
    value.at? (key :: rest) = (value.at? [key]).bind fun inner => inner.at? rest := by
  cases value with
  | record fields => rw [at?_record, at?]
  | _ => rfl

theorem endsAt_nil : value.EndsAt [] leaf ↔ value = leaf ∧ leaf.isRecord = false := by
  rw [EndsAt, at?_nil, Option.some.injEq]

theorem endsAt_step : value.EndsAt (key :: rest) leaf ↔
    ∃ inner, value.at? [key] = some inner ∧ inner.EndsAt rest leaf := by
  rw [EndsAt, at?_step, Option.bind_eq_some_iff]
  constructor
  · rintro ⟨⟨inner, found, ends⟩, plain⟩
    exact ⟨inner, found, ends, plain⟩
  · rintro ⟨inner, found, ends, plain⟩
    exact ⟨⟨inner, found, ends⟩, plain⟩

theorem not_blocks_nil : ¬value.Blocks [] := by
  rintro ⟨front, leaf, shorter, other, -⟩
  exact other (List.prefix_nil.mp shorter)

theorem blocks_step : value.Blocks (key :: rest) ↔
    value.isRecord = false ∨ ∃ inner, value.at? [key] = some inner ∧ inner.Blocks rest := by
  constructor
  · rintro ⟨front, leaf, shorter, other, ends⟩
    cases front with
    | nil =>
        obtain ⟨rfl, plain⟩ := endsAt_nil.mp ends
        exact Or.inl plain
    | cons first front =>
        obtain ⟨rfl, behind⟩ := List.cons_prefix_cons.mp shorter
        obtain ⟨inner, found, ends⟩ := endsAt_step.mp ends
        exact Or.inr ⟨inner, found, front, leaf, behind, fun same => other (congrArg _ same), ends⟩
  · rintro (plain | ⟨inner, found, front, leaf, shorter, other, ends⟩)
    · exact ⟨[], value, List.nil_prefix, (List.cons_ne_nil key rest).symm,
        endsAt_nil.mpr ⟨rfl, plain⟩⟩
    · exact ⟨key :: front, leaf, List.cons_prefix_cons.mpr ⟨rfl, shorter⟩,
        fun same => other (List.cons.inj same).2, endsAt_step.mpr ⟨inner, found, ends⟩⟩

/-! ### Values laid on one another -/

theorem laidOn_plain (plain : value.isRecord = false) (below : Option Data) :
    value.laidOn below = value := by
  cases value with
  | record fields => cases plain
  | _ =>
      rw [laidOn]
      rintro _ _ ⟨⟩

/-- One step into a record that was laid on a value is one step into either. -/
theorem laidOn_step (once : (fields.map Prod.fst).Nodup) (below : Option Data) (key : String) :
    ((record fields).laidOn below).at? [key] =
      match fields.get? key with
      | some value => some (value.laidOn (below.bind fun base => base.at? [key]))
      | none => below.bind fun base => base.at? [key] := by
  cases below with
  | none =>
      rw [laidOn_none, at?_record, Option.bind_none]
      cases fields.get? key with
      | none => rfl
      | some value => exact congrArg some (laidOn_none value).symm
  | some base =>
      rw [Option.bind_some]
      cases base with
      | record lower =>
          rw [Fields.laidOn_record, at?_record, at?_record]
          exact Fields.get?_merge once
      | _ =>
          rw [laidOn]
          · rw [at?_record, at?_plain rfl]
            cases fields.get? key with
            | none => rfl
            | some value => exact congrArg some (laidOn_none value).symm
          · rintro _ _ _ ⟨⟩

/-- What a path finds in a value that was laid on another one, if there was one. -/
structure Overlaid (below : Option Data) (above merged : Data) (path : List String) : Prop where
  kept : ∀ leaf, above.EndsAt path leaf → merged.EndsAt path leaf
  shown : above.at? path = none → ¬above.Blocks path →
    ∀ leaf, merged.EndsAt path leaf ↔ ∃ base, below = some base ∧ base.EndsAt path leaf
  hidden : above.Blocks path → merged.at? path = none

section

variable {below : Option Data} {above merged lower : Data} {path : List String}

theorem exists_endsAt_step : (∃ base, below = some base ∧ base.EndsAt (key :: rest) leaf) ↔
    ∃ inner, (below.bind fun base => base.at? [key]) = some inner ∧ inner.EndsAt rest leaf := by
  simp only [endsAt_step, Option.bind_eq_some_iff]
  constructor
  · rintro ⟨base, here, inner, found, ends⟩
    exact ⟨inner, ⟨base, here, found⟩, ends⟩
  · rintro ⟨inner, ⟨base, here, found⟩, ends⟩
    exact ⟨base, here, inner, found, ends⟩

theorem Overlaid.plain (plain : above.isRecord = false) : Overlaid below above above path := by
  refine ⟨fun leaf ends => ends, fun missing passes => ?_, fun blocked => ?_⟩
  all_goals cases path with
    | nil => ?_
    | cons key rest => ?_
  · rw [at?_nil] at missing
    cases missing
  · exact absurd (blocks_step.mpr (Or.inl plain)) passes
  · exact absurd blocked not_blocks_nil
  · rw [at?_step, at?_plain plain, Option.bind_none]

theorem Overlaid.here (below : Option Data) (above : Data) :
    Overlaid below above (above.laidOn below) [] := by
  refine ⟨fun leaf ends => ?_, fun missing => ?_, fun blocked => absurd blocked not_blocks_nil⟩
  · obtain ⟨rfl, plain⟩ := endsAt_nil.mp ends
    exact endsAt_nil.mpr ⟨laidOn_plain plain below, plain⟩
  · rw [at?_nil] at missing
    cases missing

/-- Where the record on top does not set a key, all that is behind it is from below. -/
theorem Overlaid.absent (top : (record fields).at? [key] = none)
    (step : merged.at? [key] = below.bind fun base => base.at? [key]) :
    Overlaid below (record fields) merged (key :: rest) := by
  refine ⟨fun leaf ends => ?_, fun _ _ leaf => ?_, fun blocked => ?_⟩
  · obtain ⟨inner, found, -⟩ := endsAt_step.mp ends
    cases top.symm.trans found
  · rw [endsAt_step, exists_endsAt_step, step]
  · obtain plain | ⟨inner, found, -⟩ := blocks_step.mp blocked
    · cases plain
    · cases top.symm.trans found

/-- Where the record on top sets a key, what is behind it was laid on what is behind it below. -/
theorem Overlaid.behind (top : (record fields).at? [key] = some inner)
    (step : merged.at? [key] = some lower)
    (next : Overlaid (below.bind fun base => base.at? [key]) inner lower rest) :
    Overlaid below (record fields) merged (key :: rest) := by
  have topEnds (leaf : Data) :
      (record fields).EndsAt (key :: rest) leaf ↔ inner.EndsAt rest leaf := by
    simp [endsAt_step, top]
  have mergedEnds (leaf : Data) : merged.EndsAt (key :: rest) leaf ↔ lower.EndsAt rest leaf := by
    simp [endsAt_step, step]
  have blocks : (record fields).Blocks (key :: rest) ↔ inner.Blocks rest := by
    simp [blocks_step, top, isRecord]
  refine ⟨fun leaf ends => ?_, fun missing passes leaf => ?_, fun blocked => ?_⟩
  · exact (mergedEnds leaf).mpr (next.kept leaf ((topEnds leaf).mp ends))
  · rw [at?_step, top, Option.bind_some] at missing
    rw [mergedEnds, exists_endsAt_step]
    exact next.shown missing (fun blocked => passes (blocks.mpr blocked)) leaf
  · rw [at?_step, step, Option.bind_some]
    exact next.hidden (blocks.mp blocked)

end

theorem overlaid (distinct : value.Distinct) (below : Option Data) (path : List String) :
    Overlaid below value (value.laidOn below) path := by
  induction path generalizing value below with
  | nil => exact .here below value
  | cons key rest ih =>
      cases distinct with
      | plain plain =>
          rw [laidOn_plain plain]
          exact .plain plain
      | @record fields once inner =>
          have top := at?_record fields key
          have step := laidOn_step once below key
          cases set : fields.get? key with
          | none =>
              rw [set] at top step
              exact .absent top step
          | some value =>
              rw [set] at top step
              exact .behind top step (ih (inner _ (Fields.mem_of_get? set)) _)

/-! ### Merging a record with itself and with nothing -/

theorem Fields.put_of_get? (found : fields.get? key = some value) :
    fields.put key value = fields := by
  induction fields with
  | nil => cases found
  | cons field rest ih =>
      obtain ⟨first, other⟩ := field
      rw [Fields.get?_cons] at found
      by_cases same : first = key
      · rw [if_pos same] at found
        rw [Fields.put, if_pos (beq_iff_eq.mpr same), ← Option.some.inj found, same]
      · rw [if_neg same] at found
        rw [Fields.put, if_neg (by simpa using same), ih found]

/-- Merging changes nothing if each field on top leaves the one below as it is. -/
theorem Fields.merge_of_kept {higher : Fields} (kept : ∀ field ∈ higher,
      ∃ lower, base.get? field.1 = some lower ∧ field.2.laidOn (some lower) = lower) :
    Fields.merge base higher = base := by
  induction higher with
  | nil => exact Fields.merge_nil base
  | cons field rest ih =>
      obtain ⟨key, value⟩ := field
      obtain ⟨⟨lower, found, same⟩, others⟩ := List.forall_mem_cons.mp kept
      rw [Fields.merge_cons, found, same, Fields.put_of_get? found]
      exact ih others

theorem laidOn_self (distinct : value.Distinct) : value.laidOn (some value) = value := by
  induction distinct with
  | plain plain => exact laidOn_plain plain _
  | @record fields once inner ih =>
      rw [Fields.laidOn_record, Fields.merge_of_kept]
      exact fun field member => ⟨field.2, Fields.get?_of_mem once member, ih field member⟩

theorem Fields.merge_of_fresh {higher : Fields}
    (fresh : ((base ++ higher).map Prod.fst).Nodup) :
    Fields.merge base higher = base ++ higher := by
  induction higher generalizing base with
  | nil => rw [Fields.merge_nil, List.append_nil]
  | cons field rest ih =>
      obtain ⟨key, value⟩ := field
      have absent : key ∉ base.map Prod.fst := by
        rw [List.map_append, List.map_cons] at fresh
        exact fun member => (List.nodup_append.mp fresh).2.2 key member key List.mem_cons_self rfl
      rw [Fields.merge_cons, Fields.get?_eq_none.mpr absent, laidOn_none,
        Fields.put_of_absent absent, ih, List.append_assoc, List.singleton_append]
      rwa [List.append_assoc, List.singleton_append]

theorem Distinct.once (distinct : (Data.record fields).Distinct) :
    (fields.map Prod.fst).Nodup := by
  cases distinct with
  | record once inner => exact once
  | plain other => cases other

end

/-- A value of the record on top that is no record is what the merged record holds, and it hides all
that lies behind it. Elsewhere a value that is no record is that of the record below. Merging a
record with itself or with the empty one changes nothing. -/
theorem Fields.merge_paths {base higher : Fields} (lower : (record base).Distinct)
    (upper : (record higher).Distinct) :
    (∀ path,
      (∀ leaf, (record higher).EndsAt path leaf →
        (record (Fields.merge base higher)).EndsAt path leaf) ∧
      ((record higher).at? path = none → ¬(record higher).Blocks path → ∀ leaf,
        (record (Fields.merge base higher)).EndsAt path leaf ↔ (record base).EndsAt path leaf) ∧
      ((record higher).Blocks path → (record (Fields.merge base higher)).at? path = none)) ∧
    Fields.merge base base = base ∧ Fields.merge base [] = base ∧ Fields.merge [] base = base := by
  refine ⟨fun path => ?_, ?_, Fields.merge_nil base, Fields.merge_of_fresh lower.once⟩
  · have found := overlaid upper (some (record base)) path
    rw [Fields.laidOn_record] at found
    refine ⟨found.kept, fun missing passes leaf => ?_, found.hidden⟩
    rw [found.shown missing passes leaf]
    simp
  · have same := laidOn_self lower
    rw [Fields.laidOn_record] at same
    exact record.inj same

/-- Records that meet in every way: records in records, records over other values and under them. -/
theorem Fields.merge_paths_crossed :
    let base : Fields := [("a", .record [("x", .int 1), ("y", .record [("z", .int 2)])]),
      ("b", .int 3)]
    let higher : Fields := [("a", .record [("x", .record [("w", .int 4)]), ("y", .int 5)]),
      ("c", .record [])]
    let merged := record (Fields.merge base higher)
    merged.EndsAt ["a", "x", "w"] (.int 4) ∧ merged.at? ["a", "y", "z"] = none ∧
      merged.EndsAt ["b"] (.int 3) ∧ Fields.merge base base = base := by
  intro base higher merged
  have lower : (record base).Distinct := by
    refine .record (by decide) ?_
    simp only [base, List.forall_mem_cons]
    refine ⟨.record (by decide) ?_, .plain rfl, List.forall_mem_nil _⟩
    simp only [List.forall_mem_cons]
    refine ⟨.plain rfl, .record (by decide) ?_, List.forall_mem_nil _⟩
    exact List.forall_mem_singleton.mpr (.plain rfl)
  have upper : (record higher).Distinct := by
    refine .record (by decide) ?_
    simp only [higher, List.forall_mem_cons]
    refine ⟨.record (by decide) ?_, .record (by decide) (List.forall_mem_nil _),
      List.forall_mem_nil _⟩
    simp only [List.forall_mem_cons]
    refine ⟨.record (by decide) ?_, .plain rfl, List.forall_mem_nil _⟩
    exact List.forall_mem_singleton.mpr (.plain rfl)
  have laws := Fields.merge_paths lower upper
  refine ⟨(laws.1 _).1 _ ⟨rfl, rfl⟩, (laws.1 _).2.2 ?blocked, ?below, laws.2.1⟩
  case blocked => exact ⟨["a", "y"], .int 5, by decide, by decide, rfl, rfl⟩
  case below =>
    refine ((laws.1 ["b"]).2.1 rfl (fun blocked => ?_) _).mpr ⟨rfl, rfl⟩
    obtain plain | ⟨inner, found, -⟩ := blocks_step.mp blocked
    · cases plain
    · cases found

end ConfigIndex.Data
