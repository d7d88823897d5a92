import ConfigIndex.Settings.Environment

/-!
Environment variables that should hold JSON and do not. A whole section is read before its fields,
so what stands in the variable of the section decides whether those of its fields are looked at.
-/

namespace ConfigIndex

open Data (Fields)

def SectionNames.Plain (names : SectionNames) : Prop :=
  ∀ field ∈ names.lists, Environment.splitSteps field.toList = [field.toList]

theorem SectionNames.plain_logging : SectionNames.logging.Plain :=
  List.forall_mem_singleton.mpr rfl

theorem SectionNames.plain_index : SectionNames.index.Plain :=
  List.forall_mem_singleton.mpr rfl

namespace Environment

def Unread (levels : Nat) (text : String) : Prop := ∃ fault, json levels text = .error fault

def MarsList (levels : Nat) (names : SectionNames) (entry : String × String) : Prop :=
  ∃ field ∈ names.lists, entry.1 = names.variableName ++ "__" ++ field ∧
    entry.2 ≠ "" ∧ Unread levels entry.2

/-- The variable of a section is not read, or it is not set or holds a mapping and one of the
variables of its lists is not read. -/
def Garbled (levels : Nat) (environment : Environment) (names : SectionNames) : Prop :=
  match environment.find? (·.1 == names.variableName) with
  | none => ∃ entry ∈ environment, MarsList levels names entry
  | some (_, text) =>
    match json levels text with
    | .error _ => True
    | .ok (.record _) => ∃ entry ∈ environment, MarsList levels names entry
    -- JSON that is no mapping stands for the section as it is, and its fields are not read.
    | .ok _ => False

theorem splitSteps_ne_nil (text : List Char) : splitSteps text ≠ [] := by
  unfold splitSteps
  split
  · exact List.cons_ne_nil _ _
  · exact List.cons_ne_nil _ _
  · split <;> exact List.cons_ne_nil _ _

theorem eq_of_splitSteps {text step : List Char} (single : splitSteps text = [step]) :
    step = text := by
  induction text using splitSteps.induct generalizing step with
  | case1 => simpa [splitSteps] using single.symm
  | case2 rest ih =>
      rw [splitSteps, List.cons.injEq] at single
      exact absurd single.2 (splitSteps_ne_nil rest)
  | case3 c rest other none ih => exact absurd none (splitSteps_ne_nil rest)
  | case4 c rest other first steps same ih =>
      rw [splitSteps, same] at single
      · cases single
        rw [ih same]
      · exact other

/-- A variable that spells one key behind the name of a section. -/
theorem stepsIn?_eq_single {names : SectionNames} {name field : String}
    (plain : splitSteps field.toList = [field.toList]) :
    stepsIn? names name = some [field] ↔ name = names.variableName ++ "__" ++ field := by
  unfold stepsIn?
  extract_lets start
  constructor
  · intro found
    split at found
    · rename_i front
      obtain ⟨rest, whole⟩ := List.isPrefixOf_iff_prefix.mp front
      rw [← whole, List.drop_left, Option.some.injEq] at found
      obtain ⟨step, single, rfl⟩ := List.map_eq_singleton_iff.mp found
      rw [← String.toList_inj, String.toList_append, String.toList_ofList,
        eq_of_splitSteps single, ← whole]
    · cases found
  · rintro rfl
    have whole : (names.variableName ++ "__" ++ field).toList = start ++ field.toList :=
      String.toList_append
    rw [whole, if_pos (List.isPrefixOf_iff_prefix.mpr (List.prefix_append start field.toList)),
      List.drop_left, plain]
    simp

section

variable {levels : Nat} {names : SectionNames}

theorem fieldValue_eq_error {steps : List String} {value : String} :
    (∃ fault, fieldValue levels names steps value = .error fault) ↔
      ∃ field ∈ names.lists, steps = [field] ∧ value ≠ "" ∧ Unread levels value := by
  unfold fieldValue
  split
  · rename_i field
    by_cases due : (names.lists.contains field && !value.isEmpty) = true
    · rw [if_pos due]
      simp only [Bool.and_eq_true, List.contains_iff_mem, Bool.not_eq_true',
        String.isEmpty_eq_false_iff] at due
      constructor
      · exact fun broken => ⟨field, due.1, rfl, due.2, broken⟩
      · rintro ⟨_, -, same, -, broken⟩
        exact broken
    · rw [if_neg due]
      simp only [Bool.and_eq_true, List.contains_iff_mem, Bool.not_eq_true',
        String.isEmpty_eq_false_iff, not_and] at due
      constructor
      · rintro ⟨fault, failed⟩
        cases failed
      · rintro ⟨other, listed, same, some, -⟩
        cases same
        exact absurd some (due listed)
  · rename_i other
    constructor
    · rintro ⟨fault, failed⟩
      cases failed
    · rintro ⟨field, -, same, -⟩
      exact absurd same (other field)

theorem fieldsOf_eq_error (plain : names.Plain) {fields : Fields} {environment : Environment} :
    (∃ fault, fieldsOf levels names fields environment = .error fault) ↔
      ∃ entry ∈ environment, MarsList levels names entry := by
  induction environment generalizing fields with
  | nil => simp [fieldsOf]
  | cons entry rest ih =>
      obtain ⟨name, value⟩ := entry
      simp only [List.mem_cons, exists_eq_or_imp]
      have mars : MarsList levels names (name, value) ↔ ∃ steps, stepsIn? names name = some steps ∧
          ∃ fault, fieldValue levels names steps value = .error fault := by
        constructor
        · rintro ⟨field, listed, named, broken⟩
          exact ⟨[field], (stepsIn?_eq_single (plain field listed)).mpr named,
            fieldValue_eq_error.mpr ⟨field, listed, rfl, broken⟩⟩
        · rintro ⟨steps, spelled, broken⟩
          obtain ⟨field, listed, rfl, noJson⟩ := fieldValue_eq_error.mp broken
          exact ⟨field, listed, (stepsIn?_eq_single (plain field listed)).mp spelled, noJson⟩
      rw [mars, fieldsOf]
      cases spelled : stepsIn? names name with
      | none => simp [ih]
      | some steps =>
          cases read : fieldValue levels names steps value with
          | error fault => simp [read]
          | ok value => simp [read, ih]

theorem sectionOf_eq_error (plain : names.Plain) {environment : Environment} :
    (∃ fault, sectionOf levels environment names = .error fault) ↔
      Garbled levels environment names := by
  have mars : (∃ fault, fieldsOf levels names [] environment = .error fault) ↔ _ :=
    fieldsOf_eq_error plain
  unfold sectionOf Garbled
  cases environment.find? (·.1 == names.variableName) with
  | none =>
      rw [← mars]
      dsimp only
      cases fieldsOf levels names [] environment with
      | error fault => simp
      | ok fields => cases fields <;> simp
  | some entry =>
      dsimp only
      cases json levels entry.2 with
      | error fault => simp
      | ok value =>
          cases value with
          | record fields =>
              rw [← mars]
              cases fieldsOf levels names [] environment <;> simp
          | _ => simp

end

/-- What the variables say of the sections cannot be made out. -/
theorem toFields_eq_error {levels : Nat} {environment : Environment} :
    (∃ fault, toFields levels environment = .error fault) ↔
      Garbled levels environment.lowered .logging ∨
        Garbled levels environment.lowered .index := by
  rw [← sectionOf_eq_error SectionNames.plain_logging,
    ← sectionOf_eq_error SectionNames.plain_index]
  unfold toFields
  dsimp only
  cases sectionOf levels environment.lowered .logging with
  | error fault => exact iff_of_true ⟨_, rfl⟩ (.inl ⟨fault, rfl⟩)
  | ok logging =>
      cases sectionOf levels environment.lowered .index with
      | error fault => exact iff_of_true ⟨_, rfl⟩ (.inr ⟨fault, rfl⟩)
      | ok index => exact iff_of_false nofun (by simp)

end Environment

end ConfigIndex
