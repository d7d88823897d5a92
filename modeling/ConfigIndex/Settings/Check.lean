import ConfigIndex.Data.Coerce
import ConfigIndex.Data.Field
import ConfigIndex.Data.Plain
import ConfigIndex.Files.Path
import ConfigIndex.Settings.Model
import ConfigIndex.Text.Lower

/-!
Settings from a value. Fields that are not given take their defaults, unknown fields are passed
over, and everything that is wrong is reported in the order of the fields.
-/

namespace ConfigIndex

open Data (Fields)

namespace Checked

def section' {α : Type} (name : String) (check : Fields → Checked α) (value : Data) : Checked α :=
  match value with
  | .record fields => check fields
  | _ => .fail (.notSection name) value

def word {α : Type} (choices : List String) (ofName? : String → Option α) (value : Data) :
    Checked α :=
  match value with
  | .text name =>
    match ofName? name with
    | some choice => .ok choice
    | none => .fail (.notOneOf choices) value
  | _ => .fail (.notOneOf choices) value

def items {α : Type} (check : Data → Checked α) (value : Data) : Checked (List α) :=
  match value with
  | .list items => Checked.each check 0 items
  | _ => .fail .notList value

end Checked

def Level.ofData (value : Data) : Checked Level :=
  Checked.word (Level.all.map Level.name) Level.ofName? value

def Level.ofDataOrNull (value : Data) : Checked (Option Level) :=
  match value with
  | .null => .ok none
  | value => some <$> Level.ofData value

def LogFormat.ofData (value : Data) : Checked LogFormat :=
  Checked.word (LogFormat.all.map LogFormat.name) LogFormat.ofName? value

def Destination.ofData (homes : Homes) (value : Data) : Checked Destination := do
  match ← Data.toText value with
  | "stderr" => return .stderr
  | "stdout" => return .stdout
  | given =>
    let path := Path.ofText given
    match path.expandHome? homes with
    | none =>
      .fail (if path.isUnnameable then .refused "embedded null byte" else .homeless) value
    | some path =>
      if path.isAbsolute then return .file path.text
      else .fail (.refused ("File destination must be absolute path: " ++ given)) value

def LogOutput.ofData (homes : Homes) : Data → Checked LogOutput :=
  Checked.section' "LogOutputConfig" fun fields => do
    let (format, destination, level) ←
      Checked.both (Checked.optional fields ["format"] .console LogFormat.ofData)
        (Checked.both
          (Checked.optional fields ["destination"] .stderr (Destination.ofData homes))
          (Checked.optional fields ["level"] none Level.ofDataOrNull))
    return ⟨format, destination, level⟩

def LogSettings.ofData (homes : Homes) : Data → Checked LogSettings :=
  Checked.section' "LoggingConfig" fun fields => do
    let (level, outputs) ←
      Checked.both (Checked.optional fields ["level"] .info Level.ofData)
        (Checked.optional fields ["outputs"] [{}] (Checked.items (LogOutput.ofData homes)))
    return ⟨level, outputs⟩

def capital (c : Char) : Char :=
  if c = '\u0131' then 'I' else if c = '\u017f' then 'S' else c.toUpper

def LogSettings.single (format : LogFormat) (level : String) : Checked LogSettings := do
  let level ← (Level.ofData (.text (level.map capital))).under "level"
  return ⟨level, [{ format := format }]⟩

namespace IndexSettings

def extension? (given : String) : Option String :=
  let bare := Text.lower (Text.strip given)
  if bare.isEmpty then none else some (if bare.startsWith "." then bare else "." ++ bare)

def extensionsOfData (value : Data) : Checked (List String) := do
  let given ← Checked.items Data.toText value
  match given.filterMap extension? with
  | [] => .fail (.refused "At least one extension is required") value
  | extensions => return extensions

def megabytesOfData (value : Data) : Checked Nat := do
  let given ← Data.toInt value
  if 0 < given then return given.toNat
  else
    -- The number may be too long to be named in the complaint.
    let reason := match (Data.int given).unshown? 1 with
      | none => "max_file_size_mb must be positive, got " ++ toString given
      | some unshown => unshown.message
    .fail (.refused reason) value

def ofData : Data → Checked IndexSettings :=
  Checked.section' "IndexConfig" fun fields => do
    let (includeTree, strictReferences, extensions, maxMegabytes) ←
      Checked.both (Checked.optional fields ["include_raw_ast"] false Data.toBool)
        (Checked.both (Checked.optional fields ["strict_references"] false Data.toBool)
          (Checked.both (Checked.optional fields ["extensions"] [".tf"] extensionsOfData)
            (Checked.optional fields ["max_file_size_mb"] 10 megabytesOfData)))
    return ⟨includeTree, strictReferences, extensions, maxMegabytes⟩

end IndexSettings

namespace Settings

def ofFields (homes : Homes) (fields : Fields) : Checked Settings := do
  let (logging, index) ←
    Checked.both (Checked.optional fields ["logging"] {} (LogSettings.ofData homes))
      (Checked.optional fields ["index"] {} IndexSettings.ofData)
  return ⟨logging, index⟩

def ofData (homes : Homes) : Data → Checked Settings :=
  Checked.section' "TfIndexConfig" (ofFields homes)

def strangers (fields : Fields) : List Issue :=
  (fields.filter fun field => field.1 != "logging" && field.1 != "index").map fun field =>
    ⟨[field.1], .unknownField, field.2⟩

def ofKnownFields (homes : Homes) (fields : Fields) : Checked Settings :=
  match ofFields homes fields, strangers fields with
  | .ok settings, [] => .ok settings
  | .ok _, issues => .error issues
  | .error issues, others => .error (issues ++ others)

end Settings

end ConfigIndex
