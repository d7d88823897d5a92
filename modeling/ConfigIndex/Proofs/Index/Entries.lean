import ConfigIndex.Index.Model

/-!
The entries that an index keeps by name: what adding to them does to the names and to each entry.
-/

namespace ConfigIndex.Index

def extendAll (references entries : List (String × Reference)) : List (String × Reference) :=
  entries.foldl (fun all entry => extend all entry.1 entry.2) references

def join (entry added : Reference) : Reference :=
  { entry with
    kind := added.kind, path := added.path, locations := entry.locations ++ added.locations }

theorem extend_cons_self (key : String) (entry added : Reference)
    (rest : List (String × Reference)) :
    extend ((key, entry) :: rest) key added = (key, join entry added) :: rest := by
  simp [extend, join]

theorem extend_cons_ne {name key : String} (other : name ≠ key) (entry added : Reference)
    (rest : List (String × Reference)) :
    extend ((name, entry) :: rest) key added = (name, entry) :: extend rest key added := by
  simp [extend, other]

theorem keys_extend (key : String) (added : Reference) (references : List (String × Reference)) :
    (extend references key added).map Prod.fst =
      if key ∈ references.map Prod.fst then references.map Prod.fst
      else references.map Prod.fst ++ [key] := by
  induction references with
  | nil => rfl
  | cons head rest ih =>
      obtain ⟨name, entry⟩ := head
      by_cases same : name = key
      · subst same
        simp [extend_cons_self]
      · rw [extend_cons_ne same, List.map_cons, ih]
        by_cases later : key ∈ rest.map Prod.fst
        · simp [later]
        · simp [later, Ne.symm same]

theorem mem_keys_extend (key : String) (added : Reference)
    (references : List (String × Reference)) :
    key ∈ (extend references key added).map Prod.fst := by
  rw [keys_extend]
  split
  · assumption
  · simp

theorem mem_keys_extend_of_mem {key : String} {references : List (String × Reference)}
    (member : key ∈ references.map Prod.fst) (other : String) (added : Reference) :
    key ∈ (extend references other added).map Prod.fst := by
  rw [keys_extend]
  split
  · exact member
  · exact List.mem_append_left _ member

theorem nodup_keys_extend {references : List (String × Reference)}
    (distinct : (references.map Prod.fst).Nodup) (key : String) (added : Reference) :
    ((extend references key added).map Prod.fst).Nodup := by
  rw [keys_extend]
  split
  · exact distinct
  · rename_i fresh
    exact List.nodup_append.mpr ⟨distinct, by simp, by
      intro name member other single same
      rw [List.mem_singleton.mp single] at same
      exact fresh (same ▸ member)⟩

theorem extend_extend (key : String) (first second : Reference)
    (references : List (String × Reference)) :
    extend (extend references key first) key second =
      extend references key (join first second) := by
  induction references with
  | nil => simp [extend, join]
  | cons head rest ih =>
      obtain ⟨name, entry⟩ := head
      by_cases same : name = key
      · subst same
        simp [extend_cons_self, join]
      · rw [extend_cons_ne same, extend_cons_ne same, extend_cons_ne same, ih]

/-- Entries of two names are added in either order, if one of the names is there already. -/
theorem extend_comm {key other : String} (apart : key ≠ other) (first second : Reference)
    (references : List (String × Reference)) (known : key ∈ references.map Prod.fst) :
    extend (extend references key first) other second =
      extend (extend references other second) key first := by
  induction references with
  | nil => cases known
  | cons head rest ih =>
      obtain ⟨name, entry⟩ := head
      by_cases same : name = key
      · subst same
        rw [extend_cons_self, extend_cons_ne apart, extend_cons_ne apart, extend_cons_self]
      · have later : key ∈ rest.map Prod.fst := by
          simpa [Ne.symm same] using known
        by_cases second' : name = other
        · subst second'
          rw [extend_cons_ne same, extend_cons_self, extend_cons_self, extend_cons_ne same]
        · rw [extend_cons_ne same, extend_cons_ne second', extend_cons_ne second',
            extend_cons_ne same, ih later]

theorem extendAll_cons (references rest : List (String × Reference)) (key : String)
    (entry : Reference) :
    extendAll references ((key, entry) :: rest) = extendAll (extend references key entry) rest :=
  rfl

theorem nodup_keys_extendAll (entries : List (String × Reference)) :
    ∀ references : List (String × Reference), (references.map Prod.fst).Nodup →
      ((extendAll references entries).map Prod.fst).Nodup := by
  induction entries with
  | nil => exact fun references distinct => distinct
  | cons entry rest ih =>
      intro references distinct
      exact ih _ (nodup_keys_extend distinct entry.1 entry.2)

theorem extendAll_comm {key : String} (added : Reference)
    (entries : List (String × Reference)) (fresh : key ∉ entries.map Prod.fst) :
    ∀ references : List (String × Reference), key ∈ references.map Prod.fst →
      extendAll (extend references key added) entries =
        extend (extendAll references entries) key added := by
  induction entries with
  | nil => exact fun references _ => rfl
  | cons head rest ih =>
      obtain ⟨name, entry⟩ := head
      intro references known
      have apart : key ≠ name := fun same => fresh (by simp [same])
      have later : key ∉ rest.map Prod.fst := fun member => fresh (by simp [member])
      rw [extendAll_cons, extend_comm apart _ _ _ known, extendAll_cons]
      exact ih later _ (mem_keys_extend_of_mem known name entry)

theorem extendAll_extend (key : String) (added : Reference)
    (entries : List (String × Reference)) (distinct : (entries.map Prod.fst).Nodup) :
    ∀ references : List (String × Reference),
      extendAll references (extend entries key added) =
        extend (extendAll references entries) key added := by
  induction entries with
  | nil => exact fun references => rfl
  | cons head rest ih =>
      obtain ⟨name, entry⟩ := head
      intro references
      rw [List.map_cons, List.nodup_cons] at distinct
      by_cases same : name = key
      · subst same
        have known := mem_keys_extend name entry references
        rw [extend_cons_self, extendAll_cons, extendAll_cons, ← extend_extend]
        exact extendAll_comm added rest distinct.1 _ known
      · rw [extend_cons_ne same, extendAll_cons, extendAll_cons]
        exact ih distinct.2 _

/-- Adding what was gathered elsewhere adds each piece of it in turn. -/
theorem extendAll_extendAll (entries : List (String × Reference)) :
    ∀ gathered references : List (String × Reference), (gathered.map Prod.fst).Nodup →
      extendAll references (extendAll gathered entries) =
        extendAll (extendAll references gathered) entries := by
  induction entries with
  | nil => exact fun gathered references _ => rfl
  | cons head rest ih =>
      obtain ⟨name, entry⟩ := head
      intro gathered references distinct
      rw [extendAll_cons, extendAll_cons, ih _ _ (nodup_keys_extend distinct name entry),
        extendAll_extend name entry gathered distinct]

theorem extend_of_fresh {key : String} {references : List (String × Reference)}
    (fresh : key ∉ references.map Prod.fst) (added : Reference) :
    extend references key added = references ++ [(key, added)] := by
  induction references with
  | nil => rfl
  | cons head rest ih =>
      obtain ⟨name, entry⟩ := head
      rw [List.map_cons, List.mem_cons, not_or] at fresh
      rw [extend_cons_ne (Ne.symm fresh.1), ih fresh.2, List.cons_append]

/-- Entries of names that are all new are put behind the others. -/
theorem extendAll_of_fresh (entries : List (String × Reference)) :
    ∀ references : List (String × Reference), ((references ++ entries).map Prod.fst).Nodup →
      extendAll references entries = references ++ entries := by
  induction entries with
  | nil => exact fun references _ => (List.append_nil references).symm
  | cons head rest ih =>
      obtain ⟨key, entry⟩ := head
      intro references distinct
      have fresh : key ∉ references.map Prod.fst := by
        rw [List.map_append, List.nodup_append] at distinct
        exact fun known => distinct.2.2 key known key (by simp) rfl
      rw [extendAll_cons, extend_of_fresh fresh, ih _ (by simpa using distinct)]
      simp

end ConfigIndex.Index
