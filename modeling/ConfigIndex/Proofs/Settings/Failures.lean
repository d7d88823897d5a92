import ConfigIndex.Proofs.Settings.Environment
import ConfigIndex.Proofs.Settings.Load
import ConfigIndex.Proofs.Settings.Overrun
import ConfigIndex.Proofs.Text.Utf8

/-!
Loading that ends without settings and without a report. A file, both files together, the variables,
a home directory or the value to be reported can each be the cause, and nothing else is.
-/

namespace ConfigIndex

open Data (Fields)
open Checked

/-! ### Complaints of missing homes -/

def Checked.Lost {α : Type} (checked : Checked α) : Prop := checked.Complains (· = .homeless)

namespace Data

theorem not_lost_toText (value : Data) : ¬(toText value).Lost := by
  cases value with
  | text content => exact not_complains_ok
  | _ => exact fun lost => nomatch complains_fail.mp lost

theorem plainInt?_error {text : List Char} {complaint : Complaint}
    (failed : plainInt? text = .error complaint) : complaint ≠ .homeless := by
  unfold plainInt? at failed
  extract_lets digits value at failed
  split at failed
  · cases failed
    exact Complaint.noConfusion
  · split at failed <;> cases failed
    exact Complaint.noConfusion

theorem intOfText_error {text : List Char} {complaint : Complaint}
    (failed : intOfText text = .error complaint) : complaint ≠ .homeless := by
  unfold intOfText at failed
  split at failed
  · cases failed
  · cases failed
    exact Complaint.noConfusion
  · extract_lets trimmed at failed
    split at failed
    · cases failed
      exact Complaint.noConfusion
    · exact plainInt?_error failed

theorem intOfFloat_error {value : Binary64} {complaint : Complaint}
    (failed : intOfFloat value = .error complaint) : complaint ≠ .homeless := by
  unfold intOfFloat at failed
  split at failed
  · cases failed
    exact Complaint.noConfusion
  · split at failed
    · split at failed <;> cases failed
      exact Complaint.noConfusion
    · cases failed
      exact Complaint.noConfusion

theorem not_lost_toInt (value : Data) : ¬(toInt value).Lost := by
  rw [toInt, Checked.Lost, complains_about]
  rintro ⟨complaint, failed, lost⟩
  cases value with
  | float value => exact intOfFloat_error failed lost
  | text content => exact intOfText_error failed lost
  | int value | bool value => cases failed
  | null | unpaired content | list items | record fields =>
      cases failed
      cases lost

theorem boolOfInt_error {value : Int} {complaint : Complaint}
    (failed : boolOfInt value = .error complaint) : complaint ≠ .homeless := by
  unfold boolOfInt at failed
  split at failed
  · cases failed
  · split at failed <;> cases failed
    exact Complaint.noConfusion

theorem boolOfText_error {text : String} {complaint : Complaint}
    (failed : boolOfText text = .error complaint) : complaint ≠ .homeless := by
  unfold boolOfText at failed
  extract_lets word at failed
  split at failed
  · cases failed
  · split at failed <;> cases failed
    exact Complaint.noConfusion

theorem not_lost_toBool (value : Data) : ¬(toBool value).Lost := by
  rw [toBool, Checked.Lost, complains_about]
  rintro ⟨complaint, failed, lost⟩
  cases value with
  | bool value => cases failed
  | text content => exact boolOfText_error failed lost
  | int value =>
      simp only [readBool] at failed
      split at failed
      · exact boolOfInt_error failed lost
      · cases failed
        cases lost
  | float value =>
      simp only [readBool] at failed
      split at failed
      · exact boolOfInt_error failed lost
      · cases failed
        cases lost
  | null | unpaired content | list items | record fields =>
      cases failed
      cases lost

end Data

theorem Level.not_lost_ofData (value : Data) : ¬(Level.ofData value).Lost :=
  fun lost => nomatch complains_word lost

theorem LogFormat.not_lost_ofData (value : Data) : ¬(LogFormat.ofData value).Lost :=
  fun lost => nomatch complains_word lost

theorem Level.not_lost_ofDataOrNull (value : Data) : ¬(Level.ofDataOrNull value).Lost := by
  cases value with
  | null => exact not_complains_ok
  | _ => exact fun lost => Level.not_lost_ofData _ (complains_map.mp lost)

namespace IndexSettings

theorem not_lost_extensionsOfData (value : Data) : ¬(extensionsOfData value).Lost := by
  rw [extensionsOfData, Checked.Lost, complains_bind]
  rintro (lost | ⟨texts, -, lost⟩)
  · obtain ⟨items, -, item, -, lost⟩ := (complains_items Complaint.noConfusion).mp lost
    exact Data.not_lost_toText item lost
  · split at lost
    · cases complains_fail.mp lost
    · exact not_complains_ok lost

theorem not_lost_megabytesOfData (value : Data) : ¬(megabytesOfData value).Lost := by
  rw [megabytesOfData, Checked.Lost, complains_bind]
  rintro (lost | ⟨whole, -, lost⟩)
  · exact Data.not_lost_toInt value lost
  · split at lost
    · exact not_complains_ok lost
    · cases complains_fail.mp lost

theorem not_lost_ofData (value : Data) : ¬(IndexSettings.ofData value).Lost := by
  intro lost
  obtain ⟨fields, rfl, -⟩ := (complains_section Complaint.noConfusion).mp lost
  rw [Checked.Lost, ofData_record, complains_bind_ok, complains_both, complains_both,
    complains_both, complains_optional, complains_optional, complains_optional,
    complains_optional] at lost
  rcases lost with ⟨value, -, lost⟩ | ⟨value, -, lost⟩ | ⟨value, -, lost⟩ | ⟨value, -, lost⟩
  · exact Data.not_lost_toBool value lost
  · exact Data.not_lost_toBool value lost
  · exact not_lost_extensionsOfData value lost
  · exact not_lost_megabytesOfData value lost

end IndexSettings

/-! ### Missing homes -/

/-- A path below a home directory that nobody knows, though its owner can be asked for. -/
def Homeless (homes : Homes) (given : String) : Prop :=
  (Path.ofText given).expandHome? homes = none ∧ (Path.ofText given).isUnnameable = false

theorem Destination.lost_ofData {homes : Homes} {value : Data} :
    (Destination.ofData homes value).Lost ↔
      ∃ given, value = .text given ∧ Homeless homes given := by
  cases value with
  | text given =>
      simp only [Data.text.injEq, exists_eq_left', Homeless]
      unfold Destination.ofData
      simp only [Data.toText, bind, Except.bind]
      split
      · exact iff_of_false not_complains_ok fun lost => Option.some_ne_none _ lost.1
      · exact iff_of_false not_complains_ok fun lost => Option.some_ne_none _ lost.1
      · split
        · rename_i unknown
          rw [Checked.Lost, complains_fail, and_iff_right unknown]
          cases (Path.ofText given).isUnnameable <;> simp
        · rename_i path found
          rw [found]
          refine iff_of_false ?_ fun lost => Option.some_ne_none path lost.1
          split
          · exact not_complains_ok
          · rw [Checked.Lost, complains_fail]
            exact Complaint.noConfusion
  | _ =>
      refine iff_of_false ?refused ?noText
      case refused =>
        intro lost
        cases complains_fail.mp lost
      case noText =>
        rintro ⟨given, same, -⟩
        cases same

theorem Data.at?_single {value found : Data} {name : String} :
    value.at? [name] = some found ↔
      ∃ fields, value = .record fields ∧ Fields.get? fields name = some found := by
  cases value with
  | record fields =>
      rw [Data.at?]
      cases set : Fields.get? fields name <;> simp [Data.at?, set]
  | _ => simp [Data.at?]

theorem LogOutput.lost_ofData {homes : Homes} {value : Data} :
    (LogOutput.ofData homes value).Lost ↔
      ∃ given, value.at? ["destination"] = some (.text given) ∧ Homeless homes given := by
  have record (fields : Fields) : (LogOutput.ofData homes (.record fields)).Lost ↔
      ∃ given, fields.get? "destination" = some (.text given) ∧ Homeless homes given := by
    rw [Checked.Lost, LogOutput.ofData_record, complains_bind_ok, complains_both, complains_both,
      complains_optional, complains_optional, complains_optional]
    constructor
    · rintro (⟨value, -, lost⟩ | ⟨value, set, lost⟩ | ⟨value, -, lost⟩)
      · exact absurd lost (LogFormat.not_lost_ofData value)
      · obtain ⟨given, rfl, homeless⟩ := Destination.lost_ofData.mp lost
        exact ⟨given, set, homeless⟩
      · exact absurd lost (Level.not_lost_ofDataOrNull value)
    · rintro ⟨given, set, homeless⟩
      exact Or.inr (Or.inl ⟨_, set, Destination.lost_ofData.mpr ⟨given, rfl, homeless⟩⟩)
  constructor
  · intro lost
    obtain ⟨fields, rfl, -⟩ := (complains_section Complaint.noConfusion).mp lost
    obtain ⟨given, set, homeless⟩ := (record fields).mp lost
    exact ⟨given, Data.at?_single.mpr ⟨fields, rfl, set⟩, homeless⟩
  · rintro ⟨given, set, homeless⟩
    obtain ⟨fields, rfl, found⟩ := Data.at?_single.mp set
    exact (record fields).mpr ⟨given, found, homeless⟩

theorem LogSettings.lost_ofData {homes : Homes} {value : Data} :
    (LogSettings.ofData homes value).Lost ↔ ∃ outputs output given,
      value.at? ["outputs"] = some (.list outputs) ∧ output ∈ outputs ∧
        output.at? ["destination"] = some (.text given) ∧ Homeless homes given := by
  have record (fields : Fields) : (LogSettings.ofData homes (.record fields)).Lost ↔
      ∃ outputs output, fields.get? "outputs" = some (.list outputs) ∧ output ∈ outputs ∧
        (LogOutput.ofData homes output).Lost := by
    rw [Checked.Lost, LogSettings.ofData_record, complains_bind_ok, complains_both,
      complains_optional, complains_optional]
    constructor
    · rintro (⟨value, -, lost⟩ | ⟨value, set, lost⟩)
      · exact absurd lost (Level.not_lost_ofData value)
      · obtain ⟨outputs, rfl, output, member, lost⟩ :=
          (complains_items Complaint.noConfusion).mp lost
        exact ⟨outputs, output, set, member, lost⟩
    · rintro ⟨outputs, output, set, member, lost⟩
      exact Or.inr ⟨_, set,
        (complains_items Complaint.noConfusion).mpr ⟨outputs, rfl, output, member, lost⟩⟩
  constructor
  · intro lost
    obtain ⟨fields, rfl, -⟩ := (complains_section Complaint.noConfusion).mp lost
    obtain ⟨outputs, output, set, member, lost⟩ := (record fields).mp lost
    obtain ⟨given, destination, homeless⟩ := LogOutput.lost_ofData.mp lost
    exact ⟨outputs, output, given, Data.at?_single.mpr ⟨fields, rfl, set⟩, member, destination,
      homeless⟩
  · rintro ⟨outputs, output, given, set, member, destination, homeless⟩
    obtain ⟨fields, rfl, found⟩ := Data.at?_single.mp set
    exact (record fields).mpr ⟨outputs, output, found, member,
      LogOutput.lost_ofData.mpr ⟨given, destination, homeless⟩⟩

def LosesOutput (homes : Homes) (fields : Fields) : Prop :=
  ∃ outputs output given, (Data.record fields).at? ["logging", "outputs"] = some (.list outputs) ∧
    output ∈ outputs ∧ output.at? ["destination"] = some (.text given) ∧ Homeless homes given

theorem Settings.lost_ofFields {homes : Homes} {fields : Fields} :
    (Settings.ofFields homes fields).Lost ↔ LosesOutput homes fields := by
  rw [Checked.Lost, Settings.ofFields_eq, complains_bind_ok, complains_both, complains_optional,
    complains_optional]
  constructor
  · rintro (⟨logging, set, lost⟩ | ⟨index, -, lost⟩)
    · obtain ⟨outputs, output, given, listed, rest⟩ := LogSettings.lost_ofData.mp lost
      exact ⟨outputs, output, given, Data.at?_cons.mpr ⟨logging, set, listed⟩, rest⟩
    · exact absurd lost (IndexSettings.not_lost_ofData index)
  · rintro ⟨outputs, output, given, listed, rest⟩
    obtain ⟨logging, set, listed⟩ := Data.at?_cons.mp listed
    exact Or.inl ⟨logging, set, LogSettings.lost_ofData.mpr ⟨outputs, output, given, listed, rest⟩⟩

theorem Settings.lost_ofKnownFields {homes : Homes} {fields : Fields} :
    (Settings.ofKnownFields homes fields).Lost ↔ LosesOutput homes fields := by
  have unknown : ∀ issue ∈ Settings.strangers fields, issue.complaint ≠ .homeless := by
    intro issue member
    obtain ⟨field, -, rfl⟩ := List.mem_map.mp member
    exact Complaint.noConfusion
  rw [← Settings.lost_ofFields]
  unfold Settings.ofKnownFields
  split
  · rename_i read none
    rw [read]
  · rename_i read some
    rw [read]
    refine iff_of_false ?_ not_complains_ok
    rw [Checked.Lost, complains_error]
    exact fun ⟨issue, member, lost⟩ => unknown issue member lost
  · rename_i issues read
    rw [read, Checked.Lost, Checked.Lost, complains_error, complains_error]
    constructor
    · rintro ⟨issue, member, lost⟩
      rcases List.mem_append.mp member with here | there
      · exact ⟨issue, here, lost⟩
      · exact absurd lost (unknown issue there)
    · exact fun ⟨issue, member, lost⟩ => ⟨issue, List.mem_append_left _ member, lost⟩

/-! ### Files -/

/-- The reading of a file breaks off: its bytes are no text, or its text spells a value that cannot
be built or nests too deep. -/
inductive SettingsFile.BreaksOff (reader : List Char → Except Yaml.Breach Yaml.Document)
    (file : SettingsFile) : Prop
  | undecodable {bytes : ByteArray} (content : file.content = .ok bytes)
      (broken : ¬Utf8.WellFormed bytes.data.toList)
  | unbuilt {bytes : ByteArray} {text : List Char} {breach : Yaml.Breach}
      (content : file.content = .ok bytes) (encoded : Utf8.encode text = bytes.data.toList)
      (broken : reader (unifyBreaks text) = .error breach)
      (noFault : ∀ fault, breach ≠ .fault fault)

theorem SettingsFile.breaksOff_iff {reader : List Char → Except Yaml.Breach Yaml.Document}
    {file : SettingsFile} : file.BreaksOff reader ↔
      ∃ failure, file.read reader = .error failure ∧ failure.report? = none := by
  constructor
  · rintro (⟨content, broken⟩ | ⟨content, encoded, broken, noFault⟩)
    · obtain ⟨fault, decoded⟩ := Utf8.exists_fault broken
      exact ⟨.undecodable fault, by simp only [read, content, decoded], rfl⟩
    · rename_i bytes text breach
      have decoded := Utf8.decode_encode text
      rw [encoded] at decoded
      cases breach with
      | fault fault => exact absurd rfl (noFault fault)
      | brokenOff message =>
          exact ⟨.brokenOff message, by simp only [read, content, decoded, broken], rfl⟩
      | tooDeep =>
          refine ⟨.overrun (Data.tooDeepMessage ""), ?_, rfl⟩
          simp only [read, content, decoded, broken]
  · rintro ⟨failure, failed, silent⟩
    unfold read at failed
    split at failed
    · cases failed
    · cases failed
      cases silent
    · rename_i bytes content
      split at failed
      · rename_i fault decoded
        refine .undecodable content fun whole => ?_
        obtain ⟨text, whole⟩ := Utf8.wellFormed_iff.mp whole
        cases decoded.symm.trans whole
      · rename_i text decoded
        have encoded := Utf8.encode_decode decoded
        dsimp only at failed
        split at failed
        · cases failed
          cases silent
        · rename_i broken
          exact .unbuilt content encoded broken nofun
        · rename_i broken
          exact .unbuilt content encoded broken nofun
        · split at failed
          · cases failed
          · cases failed
          · cases failed
            cases silent

namespace Sources

/-! ### Both files -/

/-- The two files cannot be laid over one another: one of them breaks off, or their mappings lead on
together for longer than the stack bears. -/
inductive FilesBreakOff (sources : Sources) : Prop
  | user (broken : sources.user.BreaksOff sources.reader)
  | project {user : Yaml.Document} (userRead : sources.user.read sources.reader = .ok user)
      (broken : sources.project.BreaksOff sources.reader)
  | merging {user project : Yaml.Document}
      (userRead : sources.user.read sources.reader = .ok user)
      (projectRead : sources.project.read sources.reader = .ok project)
      (endless : user.loops.Share project.loops (sources.stack.merging + 1))

theorem filesBreakOff_iff {sources : Sources} : sources.FilesBreakOff ↔
    ∃ failure, sources.files = .error failure ∧ failure.report? = none := by
  constructor
  · intro breaks
    cases breaks with
    | user broken =>
        obtain ⟨failure, failed, silent⟩ := SettingsFile.breaksOff_iff.mp broken
        exact ⟨failure, files_of_user failed, silent⟩
    | project userRead broken =>
        obtain ⟨failure, failed, silent⟩ := SettingsFile.breaksOff_iff.mp broken
        exact ⟨failure, files_of_project userRead failed, silent⟩
    | merging userRead projectRead endless =>
        refine ⟨.overrun (Data.tooDeepMessage ""), ?_, rfl⟩
        rw [files_of_read userRead projectRead, if_pos (Yaml.Loops.meet_iff.mpr endless)]
  · rintro ⟨failure, failed, silent⟩
    cases userRead : sources.user.read sources.reader with
    | error fault =>
        cases (files_of_user userRead).symm.trans failed
        exact .user (SettingsFile.breaksOff_iff.mpr ⟨_, userRead, silent⟩)
    | ok user =>
        cases projectRead : sources.project.read sources.reader with
        | error fault =>
            cases (files_of_project userRead projectRead).symm.trans failed
            exact .project userRead (SettingsFile.breaksOff_iff.mpr ⟨_, projectRead, silent⟩)
        | ok project =>
            rw [files_of_read userRead projectRead] at failed
            split at failed
            · rename_i endless
              exact .merging userRead projectRead (Yaml.Loops.meet_iff.mp endless)
            · cases failed

/-! ### The value refused -/

theorem refusal_silent {showing : Nat} {issue : Issue} :
    (refusal showing issue).report? = none ↔ issue.input.Unshowable showing := by
  have shown : issue.input.unshown? showing = none ↔ ¬issue.input.Unshowable showing :=
    Data.unshown?_eq_none
  unfold refusal
  cases unshown : issue.input.unshown? showing with
  | none => exact iff_of_false nofun (shown.mp unshown)
  | some cause =>
      rw [unshown] at shown
      have hidden : issue.input.Unshowable showing :=
        Classical.not_not.mp fun visible => nomatch shown.mpr visible
      cases cause <;> exact iff_of_true rfl hidden

/-- Some fields are refused, and the first value that is refused cannot be shown. -/
def RefusesHidden (homes : Homes) (showing : Nat) (fields : Fields) : Prop :=
  ∃ issue others, Settings.ofKnownFields homes fields = .error (issue :: others) ∧
    issue.input.Unshowable showing

theorem checked_silent {homes : Homes} {showing : Nat} {fields : Fields} :
    (∃ failure, checked homes showing fields = .error failure ∧ failure.report? = none) ↔
      LosesOutput homes fields ∨ RefusesHidden homes showing fields := by
  rw [← Settings.lost_ofKnownFields]
  unfold checked RefusesHidden
  cases read : Settings.ofKnownFields homes fields with
  | ok settings =>
      refine iff_of_false (fun ⟨_, failed, _⟩ => nomatch failed) ?_
      rintro (lost | ⟨issue, others, refused, -⟩)
      · exact not_complains_ok lost
      · cases refused
  | error issues =>
      -- A refusal with no issue in it would be silent, too.
      have some := Settings.reasoned_ofKnownFields homes fields issues read
      rw [Checked.Lost, complains_error]
      dsimp only
      split
      · rename_i lost
        simp only [List.any_eq_true, decide_eq_true_eq] at lost
        exact iff_of_true ⟨.homeless, rfl, rfl⟩ (Or.inl lost)
      · rename_i known
        simp only [List.any_eq_true, decide_eq_true_eq] at known
        cases issues with
        | nil => contradiction
        | cons issue others =>
            rw [or_iff_right known]
            simp only [Except.error.injEq, exists_eq_left', refusal_silent, List.cons.injEq]
            constructor
            · exact fun hidden => ⟨issue, others, ⟨rfl, rfl⟩, hidden⟩
            · rintro ⟨_, _, ⟨rfl, rfl⟩, hidden⟩
              exact hidden

/-! ### Layers over one another -/

/-- Two mappings that are laid over one another lead on together for longer than the stack bears:
the variable of a section and those of its fields, or two layers. -/
inductive Overlapping (sources : Sources) (files environment : Fields) : Prop
  | fields {names : SectionNames} {whole own : Fields}
      (listed : names ∈ [SectionNames.logging, .index])
      (given : sources.environment.lowered.layersOf? sources.stack.json names = some (whole, own))
      (shared : Fields.Share whole own (sources.stack.merging + 1))
  | overrides (shared : Fields.Share environment sources.overrides (sources.stack.merging + 1))
  | files (shared : Fields.Share files (Fields.merge environment sources.overrides)
      (sources.stack.merging + 1))

theorem overlaps_iff {sources : Sources} {files environment : Fields} :
    sources.overlaps files environment = true ↔ sources.Overlapping files environment := by
  unfold overlaps
  simp only [Bool.or_eq_true, List.any_eq_true, List.mem_filterMap, Fields.meet_iff]
  constructor
  · rintro ((⟨⟨whole, own⟩, ⟨names, listed, given⟩, shared⟩ | shared) | shared)
    · exact .fields listed given shared
    · exact .overrides shared
    · exact .files shared
  · rintro (⟨listed, given, shared⟩ | shared | shared)
    · exact Or.inl (Or.inl ⟨_, ⟨_, listed, given⟩, shared⟩)
    · exact Or.inl (Or.inr shared)
    · exact Or.inr shared

/-! ### Loading -/

/-- What makes loading break off, in the order in which it is met. -/
inductive BreaksOff (sources : Sources) : Prop
  | files (broken : sources.FilesBreakOff)
  /-- A variable is no JSON where JSON is due, or nests too deep. -/
  | environment {files : Fields} {isNamed : Bool}
      (filesRead : sources.files = .ok (files, isNamed))
      (garbled : sources.environment.lowered.Garbled sources.stack.json .logging ∨
        sources.environment.lowered.Garbled sources.stack.json .index)
  | overlapping {files environment : Fields} {isNamed : Bool}
      (filesRead : sources.files = .ok (files, isNamed))
      (environmentRead : sources.environment.toFields sources.stack.json = .ok environment)
      (endless : sources.Overlapping files environment)
  /-- A key at the top of a file is no text. -/
  | foreignKey {files environment : Fields} (filesRead : sources.files = .ok (files, false))
      (environmentRead : sources.environment.toFields sources.stack.json = .ok environment)
  /-- An output of the log goes to a file in a home that nobody knows. -/
  | output {files environment : Fields} (filesRead : sources.files = .ok (files, true))
      (environmentRead : sources.environment.toFields sources.stack.json = .ok environment)
      (lost : LosesOutput sources.homes (layered files environment sources.overrides))
  /-- The first value that is refused cannot be shown. -/
  | refusal {files environment : Fields} (filesRead : sources.files = .ok (files, true))
      (environmentRead : sources.environment.toFields sources.stack.json = .ok environment)
      (hidden : RefusesHidden sources.homes sources.stack.showing
        (layered files environment sources.overrides))

/-- On an endless stack, what is left to break off once all layers are read. -/
theorem load_silent {sources : Sources} {files environment : Fields} {isNamed : Bool}
    (filesRead : sources.files = .ok (files, isNamed))
    (environmentRead : sources.environment.toFields sources.stack.json = .ok environment) :
    (∃ failure, sources.load = .error failure ∧ failure.report? = none) ↔
      isNamed = false ∨
        LosesOutput sources.homes (layered files environment sources.overrides) ∨
        RefusesHidden sources.homes sources.stack.showing
          (layered files environment sources.overrides) := by
  cases isNamed with
  | false =>
      rw [load_of_foreign environmentRead filesRead]
      exact iff_of_true ⟨.foreignKey, rfl, rfl⟩ (Or.inl rfl)
  | true =>
      rw [load_of_named environmentRead filesRead, checked_silent]
      simp

theorem loadWithin_silent {sources : Sources} {files environment : Fields} {isNamed : Bool}
    (filesRead : sources.files = .ok (files, isNamed))
    (environmentRead : sources.environment.toFields sources.stack.json = .ok environment) :
    (∃ failure, sources.loadWithin = .error failure ∧ failure.report? = none) ↔
      sources.Overlapping files environment ∨
        ∃ failure, sources.load = .error failure ∧ failure.report? = none := by
  rw [loadWithin_of_read environmentRead filesRead, ← overlaps_iff]
  split
  · rename_i endless
    exact iff_of_true ⟨_, rfl, rfl⟩ (Or.inl endless)
  · rename_i apart
    rw [or_iff_right apart]

theorem breaksOff_iff {sources : Sources} : sources.BreaksOff ↔
    ∃ failure, sources.loadWithin = .error failure ∧ failure.report? = none := by
  constructor
  · intro breaks
    cases breaks with
    | files broken =>
        obtain ⟨failure, failed, silent⟩ := filesBreakOff_iff.mp broken
        exact ⟨failure, loadWithin_of_files_error failed, silent⟩
    | environment filesRead garbled =>
        obtain ⟨fault, failed⟩ := Environment.toFields_eq_error.mpr garbled
        refine ⟨_, loadWithin_of_variables filesRead failed, ?_⟩
        cases fault <;> rfl
    | overlapping filesRead environmentRead endless =>
        exact (loadWithin_silent filesRead environmentRead).mpr (Or.inl endless)
    | foreignKey filesRead environmentRead =>
        exact (loadWithin_silent filesRead environmentRead).mpr
          (Or.inr ((load_silent filesRead environmentRead).mpr (Or.inl rfl)))
    | output filesRead environmentRead lost =>
        exact (loadWithin_silent filesRead environmentRead).mpr
          (Or.inr ((load_silent filesRead environmentRead).mpr (Or.inr (Or.inl lost))))
    | refusal filesRead environmentRead hidden =>
        exact (loadWithin_silent filesRead environmentRead).mpr
          (Or.inr ((load_silent filesRead environmentRead).mpr (Or.inr (Or.inr hidden))))
  · rintro ⟨failure, failed, silent⟩
    cases filesRead : sources.files with
    | error fault =>
        cases (loadWithin_of_files_error filesRead).symm.trans failed
        exact .files (filesBreakOff_iff.mpr ⟨_, filesRead, silent⟩)
    | ok read =>
        obtain ⟨files, isNamed⟩ := read
        cases environmentRead : sources.environment.toFields sources.stack.json with
        | error fault =>
            exact .environment filesRead
              (Environment.toFields_eq_error.mp ⟨fault, environmentRead⟩)
        | ok environment =>
            rcases (loadWithin_silent filesRead environmentRead).mp ⟨failure, failed, silent⟩ with
              endless | broken
            · exact .overlapping filesRead environmentRead endless
            · cases isNamed with
              | false => exact .foreignKey filesRead environmentRead
              | true =>
                  rcases (load_silent filesRead environmentRead).mp broken with
                    foreign | lost | hidden
                  · cases foreign
                  · exact .output filesRead environmentRead lost
                  · exact .refusal filesRead environmentRead hidden

end Sources

end ConfigIndex
