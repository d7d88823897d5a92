import ConfigIndex.Proofs.Data.Equal
import ConfigIndex.Proofs.Data.Merge
import ConfigIndex.Proofs.Settings.Load

/-!
Settings field by field. Each field is read from the highest layer that sets it, and what lies below
is not looked at.
-/

namespace ConfigIndex

open Data (Fields)
open Checked

/-! ### The fields of the sections -/

inductive Setting
  | level
  | outputs
  | includeTree
  | strictReferences
  | extensions
  | maxMegabytes
deriving DecidableEq, Repr

namespace Setting

abbrev Value : Setting → Type
  | level => Level
  | outputs => List LogOutput
  | includeTree => Bool
  | strictReferences => Bool
  | extensions => List String
  | maxMegabytes => Nat

def path : Setting → List String
  | level => ["logging", "level"]
  | outputs => ["logging", "outputs"]
  | includeTree => ["index", "include_raw_ast"]
  | strictReferences => ["index", "strict_references"]
  | extensions => ["index", "extensions"]
  | maxMegabytes => ["index", "max_file_size_mb"]

def standard : (setting : Setting) → setting.Value
  | level => .info
  | outputs => [{}]
  | includeTree => false
  | strictReferences => false
  | extensions => [".tf"]
  | maxMegabytes => 10

def check (homes : Homes) : (setting : Setting) → Data → Checked setting.Value
  | level => Level.ofData
  | outputs => Checked.items (LogOutput.ofData homes)
  | includeTree => Data.toBool
  | strictReferences => Data.toBool
  | extensions => IndexSettings.extensionsOfData
  | maxMegabytes => IndexSettings.megabytesOfData

def of (settings : Settings) : (setting : Setting) → setting.Value
  | level => settings.logging.level
  | outputs => settings.logging.outputs
  | includeTree => settings.index.includeTree
  | strictReferences => settings.index.strictReferences
  | extensions => settings.index.extensions
  | maxMegabytes => settings.index.maxMegabytes

/-- What the highest of some layers that sets a field sets it to. -/
def winner? (setting : Setting) (layers : List Fields) : Option Data :=
  layers.findSome? fun layer => (Data.record layer).at? setting.path

theorem winner?_cons (setting : Setting) (layer : Fields) (rest : List Fields) :
    setting.winner? (layer :: rest) =
      ((Data.record layer).at? setting.path).or (setting.winner? rest) := by
  rw [winner?, List.findSome?_cons]
  cases (Data.record layer).at? setting.path <;> rfl

def read (homes : Homes) (setting : Setting) (given : Option Data) : Checked setting.Value :=
  given.elim (.ok setting.standard) (setting.check homes)

theorem read_eq_ok {homes : Homes} {setting : Setting} {given : Option Data}
    {result : setting.Value} : setting.read homes given = .ok result ↔
      match given with
      | none => result = setting.standard
      | some value => setting.check homes value = .ok result := by
  cases given with
  | none => exact ⟨fun same => (Except.ok.inj same).symm, fun same => congrArg _ same.symm⟩
  | some value => rfl

theorem not_read_iff {homes : Homes} {setting : Setting} {given : Option Data} :
    (¬∃ result, setting.read homes given = .ok result) ↔
      ∃ value issues, given = some value ∧ setting.check homes value = .error issues := by
  cases given with
  | none => simp [read]
  | some value => cases checked : setting.check homes value <;> simp [read, checked]

theorem forall_iff {property : Setting → Prop} :
    (∀ setting, property setting) ↔ (property level ∧ property outputs) ∧ property includeTree ∧
      property strictReferences ∧ property extensions ∧ property maxMegabytes := by
  constructor
  · exact fun all => ⟨⟨all _, all _⟩, all _, all _, all _, all _⟩
  · rintro ⟨⟨a, b⟩, c, d, e, f⟩ setting
    cases setting <;> assumption

def gather (values : (setting : Setting) → setting.Value) : Settings :=
  ⟨⟨values level, values outputs⟩,
    ⟨values includeTree, values strictReferences, values extensions, values maxMegabytes⟩⟩

theorem of_gather (values : (setting : Setting) → setting.Value) (setting : Setting) :
    setting.of (gather values) = values setting := by
  cases setting <;> rfl

/-- No field takes a record. -/
theorem check_record (homes : Homes) (setting : Setting) {value : Data}
    (record : value.isRecord = true) (result : setting.Value) :
    setting.check homes value ≠ .ok result := by
  cases value with
  | record fields => cases setting <;> exact fun read => nomatch read
  | _ => cases record

/-- Fields are read alike from values that differ in nothing but what is merged into them. -/
theorem read_congr (homes : Homes) (setting : Setting) {given other : Option Data}
    (alike : Option.Rel Data.Like given other) (result : setting.Value) :
    setting.read homes given = .ok result ↔ setting.read homes other = .ok result := by
  cases alike with
  | none => rfl
  | some like =>
      rcases like with rfl | ⟨record, other⟩
      · rfl
      · exact iff_of_false (check_record homes setting record result)
          (check_record homes setting other result)

end Setting

/-! ### Layers of sections -/

structure Sectioned (layer : Fields) : Prop where
  distinct : (layer.map Prod.fst).Nodup
  sections : ∀ field ∈ layer, (field.1 = "logging" ∨ field.1 = "index") ∧
    ∃ inner : Fields, field.2 = .record inner ∧ (inner.map Prod.fst).Nodup

instance (value : Data) :
    Decidable (∃ inner : Fields, value = .record inner ∧ (inner.map Prod.fst).Nodup) :=
  match value with
  | .record fields =>
    decidable_of_iff (fields.map Prod.fst).Nodup
      ⟨fun distinct => ⟨fields, rfl, distinct⟩,
        fun ⟨_, same, distinct⟩ => Data.record.inj same ▸ distinct⟩
  | .null | .bool _ | .int _ | .float _ | .text _ | .unpaired _ | .list _ =>
    isFalse fun ⟨_, same, _⟩ => nomatch same

instance (layer : Fields) : Decidable (Sectioned layer) :=
  decidable_of_iff (_ ∧ _) ⟨fun both => ⟨both.1, both.2⟩, fun both => ⟨both.1, both.2⟩⟩

namespace Sectioned

variable {layer base higher : Fields}

theorem get? (sectioned : Sectioned layer) {name : String} {value : Data}
    (found : layer.get? name = some value) :
    ∃ inner : Fields, value = .record inner ∧ (inner.map Prod.fst).Nodup :=
  (sectioned.sections _ (Fields.mem_of_get? found)).2

theorem strangers (sectioned : Sectioned layer) : Settings.strangers layer = [] := by
  rw [Settings.strangers, List.map_eq_nil_iff, List.filter_eq_nil_iff]
  intro field member
  rcases (sectioned.sections field member).1 with same | same <;> simp [same]

theorem merge (lower : Sectioned base) (upper : Sectioned higher) :
    Sectioned (Fields.merge base higher) := by
  have distinct : ((Fields.merge base higher).map Prod.fst).Nodup :=
    Fields.nodup_merge lower.distinct
  refine ⟨distinct, fun (name, value) member => ?_⟩
  have found := Fields.get?_of_mem distinct member
  rw [Fields.get?_merge upper.distinct] at found
  split at found
  · rename_i top set
    cases found
    obtain ⟨named, inner, rfl, unique⟩ := upper.sections _ (Fields.mem_of_get? set)
    refine ⟨named, ?_⟩
    cases below : base.get? name with
    | none => exact ⟨inner, by rw [Data.laidOn]; simp, unique⟩
    | some value =>
        obtain ⟨under, rfl, only⟩ := lower.get? below
        exact ⟨_, Data.Fields.laidOn_record inner under, Fields.nodup_merge only⟩
  · exact lower.sections _ (Fields.mem_of_get? found)

def inner (layer : Fields) (name : String) : Fields :=
  match layer.get? name with
  | some (.record fields) => fields
  | _ => []

theorem inner_of_get? {name : String} {fields : Fields}
    (found : layer.get? name = some (.record fields)) : inner layer name = fields := by
  rw [inner, found]

theorem inner_of_absent {name : String} (absent : layer.get? name = none) :
    inner layer name = [] := by
  rw [inner, absent]

theorem at?_eq (sectioned : Sectioned layer) (name field : String) :
    (Data.record layer).at? [name, field] = (inner layer name).get? field := by
  rw [Data.at?]
  cases found : layer.get? name with
  | none => rw [inner_of_absent found, Option.bind_none, Fields.get?_nil]
  | some value =>
      obtain ⟨fields, rfl, -⟩ := sectioned.get? found
      rw [inner_of_get? found, Option.bind_some, Data.at?]
      cases fields.get? field with
      | none => rfl
      | some value => rw [Option.bind_some, Data.at?]

/-- Merged layers set a field to what the upper one sets it to, or else to what the lower one sets
it to, apart from records that are merged into records. -/
theorem at?_merge (lower : Sectioned base) (upper : Sectioned higher) (name field : String) :
    Option.Rel Data.Like ((Data.record (Fields.merge base higher)).at? [name, field])
      (((Data.record higher).at? [name, field]).or ((Data.record base).at? [name, field])) := by
  rw [(lower.merge upper).at?_eq, upper.at?_eq, lower.at?_eq]
  have merged : Fields.get? (Fields.merge base higher) name = _ := Fields.get?_merge upper.distinct
  cases above : higher.get? name with
  | none =>
      rw [above] at merged
      rw [inner_of_absent above, Fields.get?_nil, Option.none_or, inner, inner, merged]
      exact Data.rel_refl _
  | some top =>
      obtain ⟨fields, rfl, distinct⟩ := upper.get? above
      rw [above] at merged
      rw [inner_of_get? above]
      cases below : base.get? name with
      | none =>
          simp only [below, Data.laidOn_none] at merged
          rw [inner_of_get? merged, inner_of_absent below, Fields.get?_nil, Option.or_none]
          exact Data.rel_refl _
      | some bottom =>
          obtain ⟨under, rfl, -⟩ := lower.get? below
          simp only [below, Fields.laidOn_record] at merged
          rw [inner_of_get? merged, inner_of_get? below, Fields.get?_merge distinct]
          cases fields.get? field with
          | none => exact Data.rel_refl _
          | some value => exact .some (Data.laidOn_like value _)

end Sectioned

/-! ### Reading the sections -/

theorem Setting.path_eq (setting : Setting) : ∃ name field, setting.path = [name, field] := by
  cases setting <;> exact ⟨_, _, rfl⟩

/-- A section that is not set is read like one in which nothing is set. -/
theorem Sectioned.elim_section {α : Type} {layer : Fields} (sectioned : Sectioned layer)
    (name : String) {standard : α} {check : Data → Checked α}
    (empty : check (.record []) = .ok standard) :
    (layer.get? name).elim (.ok standard) check = check (.record (inner layer name)) := by
  cases found : layer.get? name with
  | none => rw [Sectioned.inner_of_absent found, empty, Option.elim_none]
  | some value =>
      obtain ⟨fields, rfl, -⟩ := sectioned.get? found
      rw [Sectioned.inner_of_get? found, Option.elim_some]

theorem LogSettings.ofData_record_eq_ok {homes : Homes} {fields : Fields} {settings : LogSettings} :
    LogSettings.ofData homes (.record fields) = .ok settings ↔
      Setting.level.read homes (fields.get? "level") = .ok settings.level ∧
        Setting.outputs.read homes (fields.get? "outputs") = .ok settings.outputs := by
  rw [LogSettings.ofData_eq_ok]
  simp only [Data.record.injEq, exists_eq_left', optional_eq_ok]
  rfl

theorem IndexSettings.ofData_record_eq_ok (homes : Homes) {fields : Fields}
    {settings : IndexSettings} : IndexSettings.ofData (.record fields) = .ok settings ↔
      Setting.includeTree.read homes (fields.get? "include_raw_ast") = .ok settings.includeTree ∧
        Setting.strictReferences.read homes (fields.get? "strict_references") =
          .ok settings.strictReferences ∧
        Setting.extensions.read homes (fields.get? "extensions") = .ok settings.extensions ∧
        Setting.maxMegabytes.read homes (fields.get? "max_file_size_mb") =
          .ok settings.maxMegabytes := by
  rw [IndexSettings.ofData_eq_ok]
  simp only [Data.record.injEq, exists_eq_left', optional_eq_ok]
  rfl

theorem Settings.ofFields_eq_ok_iff {homes : Homes} {fields : Fields} {settings : Settings}
    (sectioned : Sectioned fields) :
    Settings.ofFields homes fields = .ok settings ↔ ∀ setting : Setting,
      setting.read homes ((Data.record fields).at? setting.path) = .ok (setting.of settings) := by
  have logging := sectioned.elim_section "logging"
    (show LogSettings.ofData homes (.record []) = .ok {} from rfl)
  have index := sectioned.elim_section "index"
    (show IndexSettings.ofData (.record []) = .ok {} from rfl)
  rw [Settings.ofFields_eq_ok, optional_eq_ok, optional_eq_ok, logging, index,
    LogSettings.ofData_record_eq_ok, IndexSettings.ofData_record_eq_ok homes,
    Setting.forall_iff]
  simp only [Setting.path, sectioned.at?_eq]
  rfl

/-! ### Loading layers -/

deriving instance DecidableEq for Yaml.Document

namespace Sources

/-- The mappings that some sources hold, the one that counts most first. -/
inductive Holds (sources : Sources) : List Fields → Prop
  | layers {user project environment : Fields}
      (userRead : sources.user.read sources.reader = .ok (.ofFields user))
      (projectRead : sources.project.read sources.reader = .ok (.ofFields project))
      (environmentRead : sources.environment.toFields sources.stack.json = .ok environment) :
      Holds sources [sources.overrides, environment, project, user]

theorem Holds.load_eq_ok {sources : Sources} {layers : List Fields} (held : sources.Holds layers)
    (sectioned : ∀ layer ∈ layers, Sectioned layer) {settings : Settings} :
    sources.load = .ok settings ↔ ∀ setting : Setting,
      setting.read sources.homes (setting.winner? layers) = .ok (setting.of settings) := by
  obtain ⟨userRead, projectRead, environmentRead⟩ := held
  rename_i user project environment
  simp only [List.forall_mem_cons, List.not_mem_nil, false_implies, implies_true, and_true]
    at sectioned
  obtain ⟨overridesSectioned, environmentSectioned, projectSectioned, userSectioned⟩ := sectioned
  have files := userSectioned.merge projectSectioned
  have given := environmentSectioned.merge overridesSectioned
  have filesRead : sources.files = .ok (Fields.merge user project, true) :=
    files_of_read userRead projectRead
  rw [load_of_named environmentRead filesRead, layered, checked_eq_ok,
    Settings.ofKnownFields_eq_ok, and_iff_left (files.merge given).strangers,
    Settings.ofFields_eq_ok_iff (files.merge given)]
  -- The files are merged on their own, and so are the two layers above them.
  refine forall_congr' fun setting => Setting.read_congr _ setting ?_ _
  obtain ⟨name, field, path⟩ := setting.path_eq
  have winner : setting.winner? [sources.overrides, environment, project, user] =
      ((((Data.record sources.overrides).at? setting.path).or
        ((Data.record environment).at? setting.path)).or
          (((Data.record project).at? setting.path).or ((Data.record user).at? setting.path))) := by
    rw [Setting.winner?_cons, Setting.winner?_cons, Setting.winner?_cons, Setting.winner?_cons,
      Option.or_assoc, Setting.winner?, List.findSome?_nil, Option.or_none]
  rw [winner, path]
  exact Data.rel_trans (files.at?_merge given name field)
    (Data.rel_or (environmentSectioned.at?_merge overridesSectioned name field)
      (userSectioned.at?_merge projectSectioned name field))

/-- Settings are loaded if every field can be read. -/
theorem Holds.exists_load_iff {sources : Sources} {layers : List Fields}
    (held : sources.Holds layers) (sectioned : ∀ layer ∈ layers, Sectioned layer) :
    (∃ settings, sources.load = .ok settings) ↔ ∀ setting : Setting,
      ∃ result, setting.read sources.homes (setting.winner? layers) = .ok result := by
  constructor
  · rintro ⟨settings, loaded⟩ setting
    exact ⟨_, (held.load_eq_ok sectioned).mp loaded setting⟩
  · intro readable
    choose values read using readable
    refine ⟨Setting.gather values, (held.load_eq_ok sectioned).mpr fun setting => ?_⟩
    rw [read setting, Setting.of_gather]

/-- Each field has the value of the highest layer that sets it, and its default if none does.
Loading fails exactly if one of these values is refused, whatever lies below them. -/
theorem load_layers {sources : Sources} {layers : List Fields} (held : sources.Holds layers)
    (sectioned : ∀ layer ∈ layers, Sectioned layer) :
    (∀ settings, sources.load = .ok settings ↔ ∀ setting : Setting,
      match setting.winner? layers with
      | none => setting.of settings = setting.standard
      | some value => setting.check sources.homes value = .ok (setting.of settings)) ∧
    ((∃ failure, sources.load = .error failure) ↔ ∃ (setting : Setting) (value : Data)
      (issues : List Issue), setting.winner? layers = some value ∧
        setting.check sources.homes value = .error issues) := by
  refine ⟨fun settings => ?_, ?_⟩
  · rw [held.load_eq_ok sectioned]
    exact forall_congr' fun setting => Setting.read_eq_ok
  · have total : (∃ failure, sources.load = .error failure) ↔
        ¬∃ settings, sources.load = .ok settings := by
      cases sources.load <;> simp
    rw [total, held.exists_load_iff sectioned, not_forall]
    exact exists_congr fun setting => Setting.not_read_iff

def shadowing : Sources where
  user := ⟨"config.yaml", .ok
    "index:\n  max_file_size_mb: -5\n  extensions: [TF]\nlogging:\n  level: LOUD\n".toUTF8⟩
  project := ⟨".tfindex.yaml", .ok "index:\n  max_file_size_mb: 7\n".toUTF8⟩
  environment := [("TFINDEX__LOGGING", "\x7b\"level\": \"DEBUG\"\x7d"),
    ("TFINDEX__INDEX__STRICT_REFERENCES", "maybe")]
  overrides := [("index", .record [("strict_references", .bool true)])]

theorem load_layers_shadowing :
    shadowing.load = .ok ⟨⟨.debug, [{}]⟩, ⟨false, true, [".tf"], 7⟩⟩ ∧
      ¬∃ failure, shadowing.load = .error failure := by
  have held : shadowing.Holds
      [[("index", .record [("strict_references", .bool true)])],
        [("logging", .record [("level", .text "DEBUG")]),
          ("index", .record [("strict_references", .text "maybe")])],
        [("index", .record [("max_file_size_mb", .int 7)])],
        [("index", .record [("max_file_size_mb", .int (-5)), ("extensions", .list [.text "TF"])]),
          ("logging", .record [("level", .text "LOUD")])]] :=
    .layers (eq_ok_of_toOption (by decide +kernel)) (eq_ok_of_toOption (by decide +kernel))
      (eq_ok_of_toOption (by decide +kernel))
  have layers := load_layers held (by decide +kernel)
  have loaded := (layers.1 ⟨⟨.debug, [{}]⟩, ⟨false, true, [".tf"], 7⟩⟩).mpr fun setting =>
    Setting.read_eq_ok.mp (eq_ok_of_toOption (by cases setting <;> decide +kernel))
  exact ⟨loaded, fun ⟨failure, failed⟩ => nomatch loaded.symm.trans failed⟩

end Sources

end ConfigIndex
