import ConfigIndex.Data.Merge
import Mathlib.Data.List.Nodup

/-!
Records laid over one another. A field has the value of the record on top that sets it; only where
two records set it to records are these merged in their turn.
-/

namespace ConfigIndex.Data

namespace Fields

section

variable {fields base higher : Fields} {key name : String} {value : Data}

/-! ### Looking up a field -/

theorem get?_nil (name : String) : Fields.get? [] name = none := rfl

theorem get?_cons (key : String) (value : Data) (rest : Fields) (name : String) :
    Fields.get? ((key, value) :: rest) name =
      if key = name then some value else Fields.get? rest name := by
  by_cases same : key = name <;> simp [Fields.get?, same]

theorem mem_of_get? (found : fields.get? name = some value) : (name, value) ∈ fields := by
  induction fields with
  | nil => cases found
  | cons field rest ih =>
      obtain ⟨key, other⟩ := field
      rw [get?_cons] at found
      split at found
      · rename_i same
        cases found
        exact same ▸ List.mem_cons_self
      · exact List.mem_cons_of_mem _ (ih found)

theorem get?_eq_none : fields.get? name = none ↔ name ∉ fields.map Prod.fst := by
  induction fields with
  | nil => simp [get?_nil]
  | cons field rest ih =>
      obtain ⟨key, value⟩ := field
      rw [get?_cons, List.map_cons, List.mem_cons, not_or, ← ih, eq_comm (a := name)]
      by_cases same : key = name <;> simp [same]

theorem get?_of_mem (distinct : (fields.map Prod.fst).Nodup) (member : (name, value) ∈ fields) :
    fields.get? name = some value := by
  induction fields with
  | nil => cases member
  | cons field rest ih =>
      obtain ⟨key, other⟩ := field
      rw [List.map_cons, List.nodup_cons] at distinct
      rw [get?_cons]
      rcases List.mem_cons.mp member with here | behind
      · cases here
        exact if_pos rfl
      · have apart : key ≠ name := by
          rintro rfl
          exact distinct.1 (List.mem_map.mpr ⟨_, behind, rfl⟩)
        rw [if_neg apart, ih distinct.2 behind]

/-! ### Setting a field -/

theorem get?_put (fields : Fields) (key : String) (value : Data) (name : String) :
    (fields.put key value).get? name = if key = name then some value else fields.get? name := by
  induction fields with
  | nil => rw [Fields.put, get?_cons]
  | cons field rest ih =>
      obtain ⟨first, other⟩ := field
      by_cases same : first = key
      · subst same
        rw [Fields.put, if_pos (beq_self_eq_true first), get?_cons, get?_cons]
        split <;> rfl
      · rw [Fields.put, if_neg (by simpa using same), get?_cons, get?_cons, ih]
        by_cases here : first = name
        · rw [if_pos here, if_neg fun also => same (here.trans also.symm), if_pos here]
        · rw [if_neg here, if_neg here]

theorem mem_keys_put : name ∈ (fields.put key value).map Prod.fst ↔
    name = key ∨ name ∈ fields.map Prod.fst := by
  rw [← not_iff_not, not_or, ← get?_eq_none, ← get?_eq_none, get?_put, eq_comm (a := name)]
  by_cases same : key = name <;> simp [same]

theorem nodup_put (distinct : (fields.map Prod.fst).Nodup) :
    ((fields.put key value).map Prod.fst).Nodup := by
  induction fields with
  | nil => exact List.nodup_singleton key
  | cons field rest ih =>
      obtain ⟨first, other⟩ := field
      rw [List.map_cons, List.nodup_cons] at distinct
      by_cases same : first = key
      · subst same
        rw [Fields.put, if_pos (beq_self_eq_true first)]
        exact List.nodup_cons.mpr distinct
      · rw [Fields.put, if_neg (by simpa using same), List.map_cons, List.nodup_cons, mem_keys_put]
        exact ⟨not_or.mpr ⟨same, distinct.1⟩, ih distinct.2⟩

/-! ### Merging -/

theorem merge_nil (base : Fields) : Fields.merge base [] = base := by
  rw [Fields.merge]

theorem merge_cons (base : Fields) (key : String) (value : Data) (rest : Fields) :
    Fields.merge base ((key, value) :: rest) =
      Fields.merge (base.put key (value.laidOn (base.get? key))) rest := by
  rw [Fields.merge]

theorem laidOn_record (inner lower : Fields) :
    (record inner).laidOn (some (record lower)) = record (Fields.merge lower inner) := by
  rw [laidOn]

theorem nodup_merge (distinct : (base.map Prod.fst).Nodup) :
    ((Fields.merge base higher).map Prod.fst).Nodup := by
  induction higher generalizing base with
  | nil => rwa [merge_nil]
  | cons field rest ih =>
      rw [merge_cons]
      exact ih (nodup_put distinct)

/-- The value of a field after a merge, where no field of the record on top is set twice. -/
theorem get?_merge (distinct : (higher.map Prod.fst).Nodup) :
    Fields.get? (Fields.merge base higher) name =
      match higher.get? name with
      | some value => some (value.laidOn (base.get? name))
      | none => base.get? name := by
  induction higher generalizing base with
  | nil => rw [merge_nil, get?_nil]
  | cons field rest ih =>
      obtain ⟨key, value⟩ := field
      rw [List.map_cons, List.nodup_cons] at distinct
      rw [merge_cons, ih distinct.2, get?_put, get?_cons]
      by_cases same : key = name
      · subst same
        rw [get?_eq_none.mpr distinct.1, if_pos rfl, if_pos rfl]
      · rw [if_neg same, if_neg same]

end

end Fields

/-! ### Values up to what is merged into them -/

def Like (value other : Data) : Prop :=
  value = other ∨ value.isRecord = true ∧ other.isRecord = true

theorem Like.refl (value : Data) : value.Like value := Or.inl rfl

theorem Like.trans {first second third : Data} (left : first.Like second)
    (right : second.Like third) : first.Like third := by
  rcases left with rfl | ⟨record, other⟩
  · exact right
  · rcases right with rfl | ⟨-, last⟩
    · exact Or.inr ⟨record, other⟩
    · exact Or.inr ⟨record, last⟩

theorem rel_refl (given : Option Data) : Option.Rel Like given given := by
  cases given with
  | none => exact .none
  | some value => exact .some (Like.refl value)

theorem rel_trans {first second third : Option Data} (left : Option.Rel Like first second)
    (right : Option.Rel Like second third) : Option.Rel Like first third := by
  cases left with
  | none => exact right
  | some left =>
      cases right with
      | some right => exact .some (left.trans right)

theorem rel_or {first second other further : Option Data} (left : Option.Rel Like first second)
    (right : Option.Rel Like other further) :
    Option.Rel Like (first.or other) (second.or further) := by
  cases left with
  | none => exact right
  | some left => exact .some left

theorem laidOn_none (value : Data) : value.laidOn none = value := by
  rw [laidOn]
  exact fun _ _ _ same => nomatch same

theorem laidOn_like (value : Data) (base : Option Data) : (value.laidOn base).Like value := by
  unfold laidOn
  split
  · exact Or.inr ⟨rfl, rfl⟩
  · exact Like.refl _

end ConfigIndex.Data
