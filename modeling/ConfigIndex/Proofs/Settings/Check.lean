import ConfigIndex.Proofs.Data.Checked
import ConfigIndex.Settings.Check

/-!
What the checks of settings accept and refuse. Each of them gives a reason when it refuses a value,
and none of those of a field accepts a record.
-/

namespace ConfigIndex

open Data (Fields)

namespace Checked

section

variable {α : Type} {kind : Complaint → Prop} {value : Data}

theorem section_eq_ok {name : String} {check : Fields → Checked α} {read : α} :
    Checked.section' name check value = .ok read ↔
      ∃ fields, value = .record fields ∧ check fields = .ok read := by
  cases value <;> simp [section', fail]

theorem complains_section {name : String} {check : Fields → Checked α}
    (other : ¬kind (.notSection name)) :
    (Checked.section' name check value).Complains kind ↔
      ∃ fields, value = .record fields ∧ (check fields).Complains kind := by
  cases value <;> simp [section', complains_fail, other]

theorem reasoned_section (name : String) {check : Fields → Checked α}
    (reasoned : ∀ fields, (check fields).Reasoned) (value : Data) :
    (Checked.section' name check value).Reasoned := by
  cases value with
  | record fields => exact reasoned fields
  | _ => exact reasoned_fail _ _

theorem word_eq_ok {choices : List String} {ofName? : String → Option α} {read : α} :
    word choices ofName? value = .ok read ↔
      ∃ name, value = .text name ∧ ofName? name = some read := by
  cases value with
  | text name => cases found : ofName? name <;> simp [word, found, fail]
  | _ => simp [word, fail]

theorem complains_word {choices : List String} {ofName? : String → Option α}
    (complains : (word choices ofName? value).Complains kind) : kind (.notOneOf choices) := by
  cases value with
  | text name =>
      cases found : ofName? name with
      | some choice => exact absurd complains (by simp [word, found, not_complains_ok])
      | none => simpa [word, found, complains_fail] using complains
  | _ => simpa [word, complains_fail] using complains

theorem reasoned_word (choices : List String) (ofName? : String → Option α) (value : Data) :
    (word choices ofName? value).Reasoned := by
  unfold word
  split
  · split
    · exact reasoned_ok _
    · exact reasoned_fail _ _
  · exact reasoned_fail _ _

theorem items_eq_ok {check : Data → Checked α} {read : List α} :
    items check value = .ok read ↔
      ∃ given, value = .list given ∧ each check 0 given = .ok read := by
  cases value <;> simp [items, fail]

theorem complains_items {check : Data → Checked α} (other : ¬kind .notList) :
    (items check value).Complains kind ↔
      ∃ given, value = .list given ∧ ∃ item ∈ given, (check item).Complains kind := by
  cases value <;> simp [items, complains_fail, complains_each, other]

theorem reasoned_items {check : Data → Checked α} (reasoned : ∀ value, (check value).Reasoned)
    (value : Data) : (items check value).Reasoned := by
  cases value with
  | list given => exact reasoned_each reasoned 0 given
  | _ => exact reasoned_fail _ _

end

end Checked

open Checked

/-! ### Refusals have reasons -/

theorem Data.reasoned_toText (value : Data) : (Data.toText value).Reasoned := by
  cases value with
  | text content => exact reasoned_ok content
  | _ => exact reasoned_fail _ _

theorem Data.reasoned_toInt (value : Data) : (Data.toInt value).Reasoned :=
  reasoned_about value _

theorem Data.reasoned_toBool (value : Data) : (Data.toBool value).Reasoned :=
  reasoned_about value _

theorem Level.reasoned_ofData (value : Data) : (Level.ofData value).Reasoned :=
  reasoned_word _ _ value

theorem Level.reasoned_ofDataOrNull (value : Data) : (Level.ofDataOrNull value).Reasoned := by
  cases value with
  | null => exact reasoned_ok none
  | _ => exact (Level.reasoned_ofData _).map some

theorem LogFormat.reasoned_ofData (value : Data) : (LogFormat.ofData value).Reasoned :=
  reasoned_word _ _ value

theorem Destination.reasoned_ofData (homes : Homes) (value : Data) :
    (Destination.ofData homes value).Reasoned := by
  refine (Data.reasoned_toText value).bind fun given => ?_
  split
  · exact reasoned_ok _
  · exact reasoned_ok _
  · dsimp only
    split
    · exact reasoned_fail _ _
    · split
      · exact reasoned_ok _
      · exact reasoned_fail _ _

theorem LogOutput.reasoned_ofData (homes : Homes) (value : Data) :
    (LogOutput.ofData homes value).Reasoned :=
  reasoned_section _ (fun _ =>
    ((reasoned_optional LogFormat.reasoned_ofData).both
      ((reasoned_optional (Destination.reasoned_ofData homes)).both
        (reasoned_optional Level.reasoned_ofDataOrNull))).bind fun _ => reasoned_ok _) value

theorem LogSettings.reasoned_ofData (homes : Homes) (value : Data) :
    (LogSettings.ofData homes value).Reasoned :=
  reasoned_section _ (fun _ =>
    ((reasoned_optional Level.reasoned_ofData).both
      (reasoned_optional (reasoned_items (LogOutput.reasoned_ofData homes)))).bind
        fun _ => reasoned_ok _) value

theorem IndexSettings.reasoned_extensionsOfData (value : Data) :
    (IndexSettings.extensionsOfData value).Reasoned := by
  refine (reasoned_items Data.reasoned_toText value).bind fun given => ?_
  split
  · exact reasoned_fail _ _
  · exact reasoned_ok _

theorem IndexSettings.reasoned_megabytesOfData (value : Data) :
    (IndexSettings.megabytesOfData value).Reasoned := by
  refine (Data.reasoned_toInt value).bind fun given => ?_
  split
  · exact reasoned_ok _
  · exact reasoned_fail _ _

theorem IndexSettings.reasoned_ofData (value : Data) : (IndexSettings.ofData value).Reasoned :=
  reasoned_section _ (fun _ =>
    ((reasoned_optional Data.reasoned_toBool).both
      ((reasoned_optional Data.reasoned_toBool).both
        ((reasoned_optional IndexSettings.reasoned_extensionsOfData).both
          (reasoned_optional IndexSettings.reasoned_megabytesOfData)))).bind
            fun _ => reasoned_ok _) value

theorem Settings.reasoned_ofFields (homes : Homes) (fields : Fields) :
    (Settings.ofFields homes fields).Reasoned :=
  ((reasoned_optional (LogSettings.reasoned_ofData homes)).both
    (reasoned_optional IndexSettings.reasoned_ofData)).bind fun _ => reasoned_ok _

theorem Settings.reasoned_ofKnownFields (homes : Homes) (fields : Fields) :
    (Settings.ofKnownFields homes fields).Reasoned := by
  unfold Settings.ofKnownFields
  split
  · exact reasoned_ok _
  · rename_i others some
    exact reasoned_error some
  · rename_i issues refused
    exact reasoned_error (List.append_ne_nil_of_left_ne_nil
      (Settings.reasoned_ofFields homes fields issues refused) _)

/-! ### What is read field by field -/

section

variable {value : Data}

theorem LogOutput.ofData_record (homes : Homes) (fields : Fields) :
    LogOutput.ofData homes (.record fields) =
      (Checked.both (Checked.optional fields ["format"] .console LogFormat.ofData)
        (Checked.both (Checked.optional fields ["destination"] .stderr (Destination.ofData homes))
          (Checked.optional fields ["level"] none Level.ofDataOrNull)) >>= fun read =>
        .ok ⟨read.1, read.2.1, read.2.2⟩) := rfl

theorem LogOutput.ofData_eq_ok {homes : Homes} {output : LogOutput} :
    LogOutput.ofData homes value = .ok output ↔ ∃ fields, value = .record fields ∧
      Checked.optional fields ["format"] .console LogFormat.ofData = .ok output.format ∧
      Checked.optional fields ["destination"] .stderr (Destination.ofData homes) =
        .ok output.destination ∧
      Checked.optional fields ["level"] none Level.ofDataOrNull = .ok output.level := by
  constructor
  · intro read
    obtain ⟨fields, rfl, -⟩ := section_eq_ok.mp read
    rw [LogOutput.ofData_record, bind_eq_ok] at read
    obtain ⟨⟨format, destination, level⟩, read, rfl⟩ := read
    obtain ⟨first, others⟩ := both_eq_ok.mp read
    exact ⟨fields, rfl, first, both_eq_ok.mp others⟩
  · rintro ⟨fields, rfl, format, destination, level⟩
    rw [LogOutput.ofData_record, bind_eq_ok]
    exact ⟨_, both_eq_ok.mpr ⟨format, both_eq_ok.mpr ⟨destination, level⟩⟩, rfl⟩

theorem LogSettings.ofData_record (homes : Homes) (fields : Fields) :
    LogSettings.ofData homes (.record fields) =
      (Checked.both (Checked.optional fields ["level"] .info Level.ofData)
        (Checked.optional fields ["outputs"] [{}] (Checked.items (LogOutput.ofData homes))) >>=
          fun read => .ok ⟨read.1, read.2⟩) := rfl

theorem LogSettings.ofData_eq_ok {homes : Homes} {settings : LogSettings} :
    LogSettings.ofData homes value = .ok settings ↔ ∃ fields, value = .record fields ∧
      Checked.optional fields ["level"] .info Level.ofData = .ok settings.level ∧
      Checked.optional fields ["outputs"] [{}] (Checked.items (LogOutput.ofData homes)) =
        .ok settings.outputs := by
  constructor
  · intro read
    obtain ⟨fields, rfl, -⟩ := section_eq_ok.mp read
    rw [LogSettings.ofData_record, bind_eq_ok] at read
    obtain ⟨⟨level, outputs⟩, read, rfl⟩ := read
    exact ⟨fields, rfl, both_eq_ok.mp read⟩
  · rintro ⟨fields, rfl, both⟩
    rw [LogSettings.ofData_record, bind_eq_ok]
    exact ⟨_, both_eq_ok.mpr both, rfl⟩

theorem IndexSettings.ofData_record (fields : Fields) :
    IndexSettings.ofData (.record fields) =
      (Checked.both (Checked.optional fields ["include_raw_ast"] false Data.toBool)
        (Checked.both (Checked.optional fields ["strict_references"] false Data.toBool)
          (Checked.both (Checked.optional fields ["extensions"] [".tf"] extensionsOfData)
            (Checked.optional fields ["max_file_size_mb"] 10 megabytesOfData))) >>= fun read =>
        .ok ⟨read.1, read.2.1, read.2.2.1, read.2.2.2⟩) := rfl

theorem IndexSettings.ofData_eq_ok {settings : IndexSettings} :
    IndexSettings.ofData value = .ok settings ↔ ∃ fields, value = .record fields ∧
      Checked.optional fields ["include_raw_ast"] false Data.toBool =
        .ok settings.includeTree ∧
      Checked.optional fields ["strict_references"] false Data.toBool =
        .ok settings.strictReferences ∧
      Checked.optional fields ["extensions"] [".tf"] extensionsOfData = .ok settings.extensions ∧
      Checked.optional fields ["max_file_size_mb"] 10 megabytesOfData =
        .ok settings.maxMegabytes := by
  constructor
  · intro read
    obtain ⟨fields, rfl, -⟩ := section_eq_ok.mp read
    rw [IndexSettings.ofData_record, bind_eq_ok] at read
    obtain ⟨⟨includeTree, strictReferences, extensions, maxMegabytes⟩, read, rfl⟩ := read
    obtain ⟨first, others⟩ := both_eq_ok.mp read
    obtain ⟨second, others⟩ := both_eq_ok.mp others
    exact ⟨fields, rfl, first, second, both_eq_ok.mp others⟩
  · rintro ⟨fields, rfl, includeTree, strictReferences, extensions, maxMegabytes⟩
    rw [IndexSettings.ofData_record, bind_eq_ok]
    exact ⟨_, both_eq_ok.mpr ⟨includeTree, both_eq_ok.mpr ⟨strictReferences,
      both_eq_ok.mpr ⟨extensions, maxMegabytes⟩⟩⟩, rfl⟩

theorem Settings.ofFields_eq (homes : Homes) (fields : Fields) :
    Settings.ofFields homes fields =
      (Checked.both (Checked.optional fields ["logging"] {} (LogSettings.ofData homes))
        (Checked.optional fields ["index"] {} IndexSettings.ofData) >>= fun read =>
          .ok ⟨read.1, read.2⟩) := rfl

theorem Settings.ofFields_eq_ok {homes : Homes} {fields : Fields} {settings : Settings} :
    Settings.ofFields homes fields = .ok settings ↔
      Checked.optional fields ["logging"] {} (LogSettings.ofData homes) = .ok settings.logging ∧
      Checked.optional fields ["index"] {} IndexSettings.ofData = .ok settings.index := by
  rw [Settings.ofFields_eq, bind_eq_ok]
  constructor
  · rintro ⟨⟨logging, index⟩, read, rfl⟩
    exact both_eq_ok.mp read
  · exact fun both => ⟨_, both_eq_ok.mpr both, rfl⟩

theorem Settings.ofData_eq_ok {homes : Homes} {settings : Settings} :
    Settings.ofData homes value = .ok settings ↔
      ∃ fields, value = .record fields ∧ Settings.ofFields homes fields = .ok settings :=
  section_eq_ok

end

end ConfigIndex
