import ConfigIndex.Data.Field

/-!
What checks say of values. A check made of others accepts what all of them accept and complains of
what any of them complains of, and a check that refuses a value has something to complain of.
-/

namespace ConfigIndex.Checked

open Data (Fields)

section

variable {α β : Type}

/-! ### What is accepted -/

theorem required_ok {fields : Fields} {name : String} {value : Data} {check : Data → Checked α}
    (result : α) (found : fields.get? name = some value) (checked : check value = .ok result) :
    required fields name check = .ok result := by
  simp only [required, found, checked, under]

theorem optional_ok {fields : Fields} {name : String} {spellings : List String} {standard : α}
    {value : Data} {check : Data → Checked α} (result : α)
    (found : fields.get? name = some value) (checked : check value = .ok result) :
    Checked.optional fields (name :: spellings) standard check = .ok result := by
  simp only [Checked.optional, Fields.spelled?, found, checked, under]

theorem optional_absent {fields : Fields} {spellings : List String} {standard : α}
    {check : Data → Checked α} (absent : fields.spelled? spellings = none) :
    Checked.optional fields spellings standard check = .ok standard := by
  simp only [Checked.optional, absent]

theorem each_map {check : Data → Checked α} {write : α → Data} (start : Nat) {values : List α}
    (inverse : ∀ value ∈ values, check (write value) = .ok value) :
    each check start (values.map write) = .ok values := by
  induction values generalizing start with
  | nil => rfl
  | cons value rest ih =>
      rw [List.forall_mem_cons] at inverse
      simp only [List.map_cons, each, inverse.1, under, ih (start + 1) inverse.2, both]

theorem under_eq_ok {checked : Checked α} {step : String} {value : α} :
    checked.under step = .ok value ↔ checked = .ok value := by
  cases checked <;> simp [under]

theorem both_eq_ok {left : Checked α} {right : Checked β} {a : α} {b : β} :
    both left right = .ok (a, b) ↔ left = .ok a ∧ right = .ok b := by
  cases left <;> cases right <;> simp [both]

theorem bind_eq_ok {checked : Checked α} {make : α → β} {value : β} :
    (checked >>= fun read => .ok (make read)) = .ok value ↔
      ∃ read, checked = .ok read ∧ make read = value := by
  cases checked <;> simp [bind, Except.bind]

theorem optional_eq (fields : Fields) (name : String) (standard : α) (check : Data → Checked α) :
    Checked.optional fields [name] standard check =
      ((fields.get? name).elim (.ok standard) check).under name := by
  unfold Checked.optional Fields.spelled? Fields.spelled?
  cases fields.get? name <;> rfl

theorem optional_eq_ok {fields : Fields} {name : String} {standard : α}
    {check : Data → Checked α} {value : α} :
    Checked.optional fields [name] standard check = .ok value ↔
      (fields.get? name).elim (.ok standard) check = .ok value := by
  rw [optional_eq, under_eq_ok]

/-- What a field is read as, if its default and every value that is accepted have a property. -/
theorem optional_of_ok {fields : Fields} {name : String} {standard : α}
    {check : Data → Checked α} (property : α → Prop) (default : property standard)
    (accepted : ∀ given value, check given = .ok value → property value) {value : α}
    (read : Checked.optional fields [name] standard check = .ok value) : property value := by
  rw [optional_eq_ok] at read
  cases given : fields.get? name with
  | none =>
      rw [given] at read
      cases read
      exact default
  | some found =>
      rw [given] at read
      exact accepted found value read

theorem mem_each {check : Data → Checked α} {start : Nat} {items : List Data} {values : List α}
    (read : each check start items = .ok values) :
    ∀ value ∈ values, ∃ item ∈ items, check item = .ok value := by
  induction items generalizing start values with
  | nil =>
      cases read
      exact fun _ member => nomatch member
  | cons item rest ih =>
      rw [each] at read
      split at read
      · rename_i first others pair
        cases read
        obtain ⟨here, behind⟩ := both_eq_ok.mp pair
        rw [under_eq_ok] at here
        intro value member
        rcases List.mem_cons.mp member with rfl | later
        · exact ⟨item, List.mem_cons_self, here⟩
        · obtain ⟨source, inside, checked⟩ := ih behind value later
          exact ⟨source, List.mem_cons_of_mem item inside, checked⟩
      · cases read

theorem eq_ok_of_toOption {ε : Type} {read : Except ε α} {value : α}
    (found : read.toOption = some value) : read = .ok value := by
  cases read with
  | ok result => exact congrArg _ (Option.some.inj found)
  | error issues => cases found

/-- Enough of a result to tell that there is one. -/
theorem exists_ok_of_toOption {ε β : Type} {read : Except ε α} {shown : α → β} {seen : β}
    (found : read.toOption.map shown = some seen) :
    ∃ result, read = .ok result ∧ shown result = seen := by
  obtain ⟨result, there, same⟩ := Option.map_eq_some_iff.mp found
  exact ⟨result, eq_ok_of_toOption there, same⟩

/-! ### What is complained of -/

def Complains (kind : Complaint → Prop) (checked : Checked α) : Prop :=
  ∃ issues, checked = .error issues ∧ ∃ issue ∈ issues, kind issue.complaint

variable {kind : Complaint → Prop}

theorem complains_error {issues : List Issue} :
    Complains kind (.error issues : Checked α) ↔ ∃ issue ∈ issues, kind issue.complaint :=
  ⟨fun ⟨_, same, found⟩ => Except.error.inj same ▸ found, fun found => ⟨issues, rfl, found⟩⟩

theorem not_complains_ok {value : α} : ¬Complains kind (.ok value : Checked α) :=
  fun ⟨_, same, _⟩ => nomatch same

theorem complains_fail {complaint : Complaint} {input : Data} :
    Complains kind (fail complaint input : Checked α) ↔ kind complaint := by
  simp [fail, complains_error]

theorem complains_about {input : Data} {read : Except Complaint α} :
    Complains kind (about input read) ↔ ∃ complaint, read = .error complaint ∧ kind complaint := by
  cases read with
  | ok value => simp [about, not_complains_ok]
  | error complaint => simp [about, complains_fail]

theorem complains_under {checked : Checked α} {step : String} :
    Complains kind (checked.under step) ↔ Complains kind checked := by
  cases checked with
  | ok value => rfl
  | error issues =>
      rw [under, complains_error, complains_error]
      constructor
      · rintro ⟨issue, member, bad⟩
        obtain ⟨inner, inside, rfl⟩ := List.mem_map.mp member
        exact ⟨inner, inside, bad⟩
      · rintro ⟨issue, member, bad⟩
        exact ⟨issue.under step, List.mem_map_of_mem member, bad⟩

theorem complains_both {left : Checked α} {right : Checked β} :
    Complains kind (both left right) ↔ Complains kind left ∨ Complains kind right := by
  cases left <;> cases right <;>
    simp [both, complains_error, not_complains_ok, or_and_right, exists_or]

theorem complains_map {checked : Checked α} {make : α → β} :
    Complains kind (make <$> checked) ↔ Complains kind checked := by
  cases checked with
  | ok value => exact iff_of_false not_complains_ok not_complains_ok
  | error issues => exact complains_error.trans complains_error.symm

theorem complains_bind {checked : Checked α} {make : α → Checked β} :
    Complains kind (checked >>= make) ↔
      Complains kind checked ∨ ∃ read, checked = .ok read ∧ Complains kind (make read) := by
  cases checked with
  | ok value =>
      show Complains kind (make value) ↔ _
      simp [not_complains_ok]
  | error issues =>
      show Complains kind (.error issues) ↔ _
      simp [complains_error]

theorem complains_bind_ok {checked : Checked α} {make : α → β} :
    Complains kind (checked >>= fun read => .ok (make read)) ↔ Complains kind checked := by
  rw [complains_bind, or_iff_left fun ⟨_, _, complains⟩ => not_complains_ok complains]

theorem complains_optional {fields : Fields} {name : String} {standard : α}
    {check : Data → Checked α} :
    Complains kind (Checked.optional fields [name] standard check) ↔
      ∃ value, fields.get? name = some value ∧ Complains kind (check value) := by
  rw [optional_eq, complains_under]
  cases fields.get? name <;> simp [not_complains_ok]

theorem complains_each {check : Data → Checked α} {start : Nat} {items : List Data} :
    Complains kind (each check start items) ↔ ∃ item ∈ items, Complains kind (check item) := by
  induction items generalizing start with
  | nil => simp [each, not_complains_ok]
  | cons item rest ih =>
      have pair : Complains kind (both ((check item).under (toString start))
          (each check (start + 1) rest)) ↔ _ := complains_both
      rw [complains_under, ih] at pair
      simp only [List.mem_cons, exists_eq_or_imp]
      rw [← pair, each]
      cases both ((check item).under (toString start)) (each check (start + 1) rest) with
      | ok values => exact iff_of_false not_complains_ok not_complains_ok
      | error issues => rw [complains_error, complains_error]

/-! ### Refusals -/

def Reasoned (checked : Checked α) : Prop :=
  ∀ issues, checked = .error issues → issues ≠ []

theorem reasoned_ok (value : α) : Reasoned (.ok value : Checked α) :=
  fun _ same => nomatch same

theorem reasoned_error {issues : List Issue} (some : issues ≠ []) :
    Reasoned (.error issues : Checked α) :=
  fun _ same => Except.error.inj same ▸ some

theorem reasoned_fail (complaint : Complaint) (input : Data) :
    Reasoned (fail complaint input : Checked α) :=
  reasoned_error (List.cons_ne_nil _ _)

theorem reasoned_about (input : Data) (read : Except Complaint α) :
    (about input read).Reasoned := by
  cases read with
  | ok value => exact reasoned_ok value
  | error complaint => exact reasoned_fail complaint input

theorem Reasoned.under {checked : Checked α} (reasoned : checked.Reasoned) (step : String) :
    (checked.under step).Reasoned := by
  cases checked with
  | ok value => exact reasoned_ok value
  | error issues =>
      exact reasoned_error fun none => reasoned issues rfl (List.map_eq_nil_iff.mp none)

theorem Reasoned.both {left : Checked α} {right : Checked β} (leftReasoned : left.Reasoned)
    (rightReasoned : right.Reasoned) : (both left right).Reasoned := by
  cases left with
  | ok a =>
      cases right with
      | ok b => exact reasoned_ok (a, b)
      | error issues => exact reasoned_error (rightReasoned issues rfl)
  | error issues =>
      have some := leftReasoned issues rfl
      cases right with
      | ok b => exact reasoned_error some
      | error others => exact reasoned_error (List.append_ne_nil_of_left_ne_nil some others)

theorem Reasoned.bind {checked : Checked α} (reasoned : checked.Reasoned) {make : α → Checked β}
    (further : ∀ value, (make value).Reasoned) : (checked >>= make).Reasoned := by
  cases checked with
  | ok value => exact further value
  | error issues => exact reasoned_error (reasoned issues rfl)

theorem Reasoned.map {checked : Checked α} (reasoned : checked.Reasoned) (make : α → β) :
    (make <$> checked).Reasoned := by
  cases checked with
  | ok value => exact reasoned_ok (make value)
  | error issues => exact reasoned_error (reasoned issues rfl)

theorem reasoned_optional {fields : Fields} {name : String} {standard : α}
    {check : Data → Checked α} (reasoned : ∀ value, (check value).Reasoned) :
    (Checked.optional fields [name] standard check).Reasoned := by
  rw [optional_eq]
  refine Reasoned.under ?_ name
  cases fields.get? name with
  | none => exact reasoned_ok standard
  | some value => exact reasoned value

theorem reasoned_each {check : Data → Checked α} (reasoned : ∀ value, (check value).Reasoned)
    (start : Nat) (items : List Data) : (each check start items).Reasoned := by
  induction items generalizing start with
  | nil => exact reasoned_ok []
  | cons item rest ih =>
      rw [each]
      split
      · exact reasoned_ok _
      · rename_i issues same
        exact reasoned_error (((reasoned item).under _).both (ih (start + 1)) issues same)

end

end ConfigIndex.Checked
