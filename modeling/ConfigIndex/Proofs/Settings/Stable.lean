import ConfigIndex.Proofs.Files.Path
import ConfigIndex.Proofs.Settings.Check
import ConfigIndex.Proofs.Text.Lower
import Mathlib.Data.List.Basic

/-!
Settings that were accepted are accepted again as they are. Their extensions and the paths of their
log files are in a form that no further check changes.
-/

namespace ConfigIndex

open Checked

/-! ### Destinations -/

inductive Destination.Settled : Destination → Prop
  | stderr : Settled .stderr
  | stdout : Settled .stdout
  | file {path : Path} (proper : path.Proper) (absolute : path.isAbsolute = true) :
      Settled (.file path.text)

theorem Path.Proper.expandHome {homes : Homes} {path expanded : Path} (proper : path.Proper)
    (found : path.expandHome? homes = some expanded) : expanded.Proper := by
  unfold Path.expandHome? at found
  split at found
  · rename_i first rest _ same
    split at found
    · split at found
      · cases found
      · rename_i home _
        split at found
        · cases found
        · cases found
          have behind : ∀ part ∈ rest, IsPart part := fun part member =>
            proper.parts part (same ▸ List.mem_cons_of_mem first member)
          split
          · exact (proper_ofText "/").append behind
          · exact (proper_ofText home).append behind
    · cases found
      exact proper
  · cases found
    exact proper

theorem Path.expandHome?_of_isAbsolute {path : Path} (absolute : path.isAbsolute = true)
    (homes : Homes) : path.expandHome? homes = some path := by
  obtain ⟨slashes, parts⟩ := path
  cases slashes with
  | zero => cases absolute
  | succ count => rfl

theorem Path.head?_text {path : Path} (absolute : path.isAbsolute = true) :
    path.text.toList.head? = some '/' := by
  obtain ⟨slashes, parts⟩ := path
  cases slashes with
  | zero => cases absolute
  | succ count => simp [Path.text, List.replicate_succ]

theorem Destination.settled_of_ofData {homes : Homes} {value : Data} {destination : Destination}
    (read : Destination.ofData homes value = .ok destination) : destination.Settled := by
  unfold Destination.ofData at read
  cases given : Data.toText value with
  | error issues =>
      rw [given] at read
      cases read
  | ok text =>
      rw [given] at read
      simp only [bind, Except.bind] at read
      split at read
      · cases read
        exact .stderr
      · cases read
        exact .stdout
      · split at read
        · cases read
        · rename_i path found
          split at read
          · rename_i absolute
            cases read
            exact .file ((Path.proper_ofText text).expandHome found) absolute
          · cases read

theorem Destination.Settled.ofData_text {destination : Destination}
    (settled : destination.Settled) (homes : Homes) :
    Destination.ofData homes (.text destination.text) = .ok destination := by
  cases settled with
  | stderr => rfl
  | stdout => rfl
  | @file path proper absolute =>
      -- It starts with a slash, so it is not taken for the name of a stream.
      have front := Path.head?_text absolute
      unfold Destination.ofData
      simp only [Data.toText, bind, Except.bind, Destination.text]
      split
      · rename_i same
        rw [same] at front
        cases front
      · rename_i same
        rw [same] at front
        cases front
      · rw [Path.ofText_text proper, Path.expandHome?_of_isAbsolute absolute]
        simp only [absolute, if_true]
        rfl

/-! ### Extensions -/

/-- An extension with a point in front, without blanks at its ends and in small letters. -/
structure IsExtension (text : String) : Prop where
  pointed : text.startsWith "." = true
  stripped : Text.strip text = text
  lowered : Text.lower text = text

theorem Text.strip_eq {text : String} (trimmed : Trimmed text.toList) : strip text = text := by
  rw [strip, trimBy_of_trimmed trimmed, String.ofList_toList]

theorem Text.lower_eq {text : String} (small : ∀ c ∈ text.toList, IsSmall c) :
    lower text = text := by
  rw [lower, lowerFrom_small [] small, String.ofList_toList]

theorem Text.trimmed_lower_strip (text : String) : Trimmed (lower (strip text)).toList := by
  rw [lower, strip, String.toList_ofList, String.toList_ofList]
  exact trimmed_lowerFrom (trimmed_trimBy text.toList)

theorem Text.small_lower (text : String) : ∀ c ∈ (lower text).toList, IsSmall c := by
  rw [lower, String.toList_ofList]
  exact small_lowerFrom [] text.toList

/-- A point in front of a text without blanks at its ends leaves it so. -/
theorem Text.trimmed_point {text : List Char} (trimmed : Trimmed text) (some : text ≠ []) :
    Trimmed ('.' :: text) := by
  refine ⟨fun c first => ?_, fun c last => ?_⟩
  · cases first
    rfl
  · rw [List.getLast?_cons, List.getLast?_eq_some_getLast some] at last
    exact trimmed.2 c (by rw [List.getLast?_eq_some_getLast some]; exact last)

namespace IndexSettings

theorem isExtension_of_extension? {given extension : String}
    (found : extension? given = some extension) : IsExtension extension := by
  have trimmed := Text.trimmed_lower_strip given
  have small := Text.small_lower (Text.strip given)
  simp only [extension?] at found
  generalize Text.lower (Text.strip given) = bare at found trimmed small
  split at found
  · cases found
  rename_i some
  cases found
  split
  · rename_i pointed
    exact ⟨pointed, Text.strip_eq trimmed, Text.lower_eq small⟩
  · have text : ("." ++ bare).toList = '.' :: bare.toList := String.toList_append
    have nonempty : bare.toList ≠ [] := by simpa using some
    refine ⟨?_, Text.strip_eq ?_, Text.lower_eq ?_⟩
    · rw [String.startsWith_string_iff, text]
      exact List.prefix_append ['.'] bare.toList
    · rw [text]
      exact Text.trimmed_point trimmed nonempty
    · rw [text, List.forall_mem_cons]
      exact ⟨Text.toLower_smallOf (c := '.') (by decide) |>.1, small⟩

theorem extension?_of_isExtension {extension : String} (is : IsExtension extension) :
    extension? extension = some extension := by
  have nonempty : extension.isEmpty = false := by
    apply Bool.eq_false_iff.mpr
    intro empty
    have nothing : extension = "" := by simpa using empty
    exact absurd is.pointed (by rw [nothing]; decide)
  simp [extension?, is.stripped, is.lowered, is.pointed, nonempty]

theorem extensions_of_ofData {value : Data} {extensions : List String}
    (read : extensionsOfData value = .ok extensions) :
    extensions ≠ [] ∧ ∀ extension ∈ extensions, IsExtension extension := by
  unfold extensionsOfData at read
  cases given : Checked.items Data.toText value with
  | error issues =>
      rw [given] at read
      cases read
  | ok texts =>
      rw [given] at read
      simp only [bind, Except.bind] at read
      split at read
      · cases read
      · rename_i some
        cases read
        refine ⟨some, fun extension member => ?_⟩
        obtain ⟨text, -, found⟩ := List.mem_filterMap.mp member
        exact isExtension_of_extension? found

theorem extensionsOfData_texts {extensions : List String} (some : extensions ≠ [])
    (are : ∀ extension ∈ extensions, IsExtension extension) :
    extensionsOfData (.list (extensions.map .text)) = .ok extensions := by
  have texts : Checked.items Data.toText (.list (extensions.map .text)) = .ok extensions :=
    each_map 0 fun _ _ => rfl
  have kept : extensions.filterMap extension? = extensions := by
    rw [List.filterMap_congr fun extension member =>
      extension?_of_isExtension (are extension member), List.filterMap_some]
  unfold extensionsOfData
  rw [texts]
  simp only [bind, Except.bind, kept]
  rfl

theorem pos_of_megabytesOfData {value : Data} {megabytes : Nat}
    (read : megabytesOfData value = .ok megabytes) : 0 < megabytes := by
  unfold megabytesOfData at read
  cases given : Data.toInt value with
  | error issues =>
      rw [given] at read
      cases read
  | ok whole =>
      rw [given] at read
      simp only [bind, Except.bind] at read
      split at read
      · rename_i positive
        cases read
        omega
      · cases read

theorem megabytesOfData_int {megabytes : Nat} (positive : 0 < megabytes) :
    megabytesOfData (.int megabytes) = .ok megabytes := by
  simp [megabytesOfData, Data.toInt, Data.readInt, about, bind, Except.bind, positive, pure,
    Except.pure]

end IndexSettings

/-! ### Settings -/

/-- Settings in the form that a check leaves them in. -/
structure Settings.Settled (settings : Settings) : Prop where
  destinations : ∀ output ∈ settings.logging.outputs, output.destination.Settled
  someExtension : settings.index.extensions ≠ []
  extensions : ∀ extension ∈ settings.index.extensions, IsExtension extension
  positive : 0 < settings.index.maxMegabytes

theorem LogOutput.settled_of_ofData {homes : Homes} {value : Data} {output : LogOutput}
    (read : LogOutput.ofData homes value = .ok output) : output.destination.Settled := by
  obtain ⟨fields, -, -, destination, -⟩ := LogOutput.ofData_eq_ok.mp read
  exact optional_of_ok Destination.Settled .stderr (fun _ _ => Destination.settled_of_ofData)
    destination

theorem LogOutput.ofData_toData {output : LogOutput} (settled : output.destination.Settled)
    (homes : Homes) : LogOutput.ofData homes output.toData = .ok output := by
  refine LogOutput.ofData_eq_ok.mpr ⟨_, rfl, ?format, ?destination, ?level⟩
  case format =>
    exact optional_ok output.format rfl
      (word_eq_ok.mpr ⟨_, rfl, LogFormat.ofName?_name output.format⟩)
  case destination => exact optional_ok output.destination rfl (settled.ofData_text homes)
  case level =>
    refine optional_ok output.level rfl ?_
    cases output.level with
    | none => rfl
    | some level => cases level <;> rfl

theorem LogSettings.settled_of_ofData {homes : Homes} {value : Data} {settings : LogSettings}
    (read : LogSettings.ofData homes value = .ok settings) :
    ∀ output ∈ settings.outputs, output.destination.Settled := by
  obtain ⟨fields, -, -, outputs⟩ := LogSettings.ofData_eq_ok.mp read
  refine optional_of_ok (fun outputs : List LogOutput =>
    ∀ output ∈ outputs, output.destination.Settled) ?_ ?_ outputs
  · exact List.forall_mem_singleton.mpr .stderr
  · intro given outputs read output member
    obtain ⟨items, rfl, each⟩ := items_eq_ok.mp read
    obtain ⟨item, -, read⟩ := mem_each each output member
    exact LogOutput.settled_of_ofData read

theorem LogSettings.ofData_toData {settings : LogSettings}
    (settled : ∀ output ∈ settings.outputs, output.destination.Settled) (homes : Homes) :
    LogSettings.ofData homes settings.toData = .ok settings := by
  refine LogSettings.ofData_eq_ok.mpr ⟨_, rfl, ?level, ?outputs⟩
  case level =>
    refine optional_ok settings.level rfl ?_
    cases settings.level <;> rfl
  case outputs =>
    exact optional_ok settings.outputs rfl
      (each_map 0 fun output member => LogOutput.ofData_toData (settled output member) homes)

theorem isExtension_default : IsExtension ".tf" :=
  IndexSettings.isExtension_of_extension?
    (show IndexSettings.extension? ".tf" = some ".tf" by decide +kernel)

theorem Settings.settled_of_ofFields {homes : Homes} {fields : Data.Fields} {settings : Settings}
    (read : Settings.ofFields homes fields = .ok settings) : settings.Settled := by
  obtain ⟨logging, index⟩ := Settings.ofFields_eq_ok.mp read
  have sound : settings.index.extensions ≠ [] ∧
      (∀ extension ∈ settings.index.extensions, IsExtension extension) ∧
      0 < settings.index.maxMegabytes := by
    refine optional_of_ok (fun index : IndexSettings => index.extensions ≠ [] ∧
      (∀ extension ∈ index.extensions, IsExtension extension) ∧ 0 < index.maxMegabytes)
      ?default ?accepted index
    case default =>
      exact ⟨List.cons_ne_nil _ _, List.forall_mem_singleton.mpr isExtension_default, by decide⟩
    case accepted =>
      intro given index read
      obtain ⟨fields, -, -, -, extensions, megabytes⟩ := IndexSettings.ofData_eq_ok.mp read
      have listed := optional_of_ok (fun extensions : List String =>
          extensions ≠ [] ∧ ∀ extension ∈ extensions, IsExtension extension)
        ⟨List.cons_ne_nil _ _, List.forall_mem_singleton.mpr isExtension_default⟩
        (fun _ _ => IndexSettings.extensions_of_ofData) extensions
      exact ⟨listed.1, listed.2, optional_of_ok (0 < ·) (by decide)
        (fun _ _ => IndexSettings.pos_of_megabytesOfData) megabytes⟩
  refine ⟨?_, sound.1, sound.2.1, sound.2.2⟩
  exact optional_of_ok (fun logging : LogSettings =>
      ∀ output ∈ logging.outputs, output.destination.Settled)
    (List.forall_mem_singleton.mpr .stderr) (fun _ _ => LogSettings.settled_of_ofData) logging

theorem Settings.Settled.ofData_toData {settings : Settings} (settled : settings.Settled)
    (homes : Homes) : Settings.ofData homes settings.toData = .ok settings := by
  refine Settings.ofData_eq_ok.mpr ⟨_, rfl, Settings.ofFields_eq_ok.mpr ⟨?logging, ?index⟩⟩
  case logging =>
    exact optional_ok settings.logging rfl
      (LogSettings.ofData_toData settled.destinations homes)
  case index =>
    refine optional_ok settings.index rfl (IndexSettings.ofData_eq_ok.mpr ⟨_, rfl, ?_, ?_, ?_, ?_⟩)
    · exact optional_ok settings.index.includeTree rfl rfl
    · exact optional_ok settings.index.strictReferences rfl rfl
    · exact optional_ok settings.index.extensions rfl
        (IndexSettings.extensionsOfData_texts settled.someExtension settled.extensions)
    · exact optional_ok settings.index.maxMegabytes rfl
        (IndexSettings.megabytesOfData_int settled.positive)

/-- Settings that were accepted are accepted again and stay as they are, even by one who has other
homes. -/
theorem Settings.ofData_stable {homes : Homes} {value : Data} {settings : Settings}
    (accepted : Settings.ofData homes value = .ok settings) :
    (∀ others, Settings.ofData others settings.toData = .ok settings) ∧
      (∀ extension ∈ settings.index.extensions, extension.startsWith "." = true ∧
        Text.strip extension = extension ∧ Text.lower extension = extension) ∧
      settings.index.extensions ≠ [] ∧
      0 < settings.index.maxMegabytes ∧
      ∀ output ∈ settings.logging.outputs, output.destination = .stderr ∨
        output.destination = .stdout ∨
        ∃ path, output.destination = .file path ∧ (Path.ofText path).isAbsolute = true := by
  obtain ⟨fields, -, read⟩ := Settings.ofData_eq_ok.mp accepted
  have settled := Settings.settled_of_ofFields read
  refine ⟨settled.ofData_toData, fun extension member => ?_, settled.someExtension,
    settled.positive, fun output member => ?_⟩
  · have is := settled.extensions extension member
    exact ⟨is.pointed, is.stripped, is.lowered⟩
  · cases output with
    | mk format destination level =>
        cases settled.destinations _ member with
        | stderr => exact Or.inl rfl
        | stdout => exact Or.inr (Or.inl rfl)
        | @file path proper absolute =>
            exact Or.inr (Or.inr ⟨path.text, rfl, by rwa [Path.ofText_text proper]⟩)

/-- Extensions with blanks and in capital letters, one of which ends in a sigma, and a log file
below the home of the one who runs the program. -/
theorem Settings.ofData_stable_home :
    ∃ settings : Settings,
      Settings.ofData ⟨some "/home/u/", []⟩ (.record
        [("index", .record [("extensions",
            .list [.text "TF", .text " .Hcl\n", .text " ", .text "ΟΔΟΣ"])]),
          ("logging", .record [("outputs", .list
            [.record [("destination", .text "~//x/./y/"), ("format", .text "json")]])])]) =
        .ok settings ∧
      settings.index.extensions = [".tf", ".hcl", ".οδος"] ∧
      settings.logging.outputs = [⟨.json, .file "/home/u/x/y", none⟩] ∧
      (∀ others, Settings.ofData others settings.toData = .ok settings) ∧
      ∀ extension ∈ settings.index.extensions, Text.lower extension = extension := by
  have accepted : Settings.ofData ⟨some "/home/u/", []⟩ (.record
      [("index", .record [("extensions",
          .list [.text "TF", .text " .Hcl\n", .text " ", .text "ΟΔΟΣ"])]),
        ("logging", .record [("outputs", .list
          [.record [("destination", .text "~//x/./y/"), ("format", .text "json")]])])]) =
      .ok ⟨⟨.info, [⟨.json, .file "/home/u/x/y", none⟩]⟩,
        ⟨false, false, [".tf", ".hcl", ".οδος"], 10⟩⟩ :=
    eq_ok_of_toOption (by decide +kernel)
  have stable := Settings.ofData_stable accepted
  exact ⟨_, accepted, rfl, rfl, stable.1, fun extension member => (stable.2.1 extension member).2.2⟩

end ConfigIndex
