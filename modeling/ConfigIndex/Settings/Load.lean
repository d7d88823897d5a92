import ConfigIndex.Files.Tree
import ConfigIndex.Report
import ConfigIndex.Settings.Check
import ConfigIndex.Settings.Environment
import ConfigIndex.Text.Utf8
import ConfigIndex.Yaml.Read

/-!
The settings in force. Direct overrides go before environment variables, these before the file of
the project, and that before the file of the user; what none of them sets has its default.
-/

namespace ConfigIndex

open Data (Fields)

structure SettingsFile where
  path : String
  content : Except Obstacle ByteArray

/-- How deep values may nest until the work on them runs out of calls. The runtime lets a thousand
calls stand inside one another, unless it is told otherwise; to read a level of a file takes two. -/
structure Stack where
  reading : Nat := 500
  /-- For the JSON of variables. -/
  json : Nat := 1000
  /-- For mappings laid over one another. -/
  merging : Nat := 1000
  /-- For the value that a report shows. -/
  showing : Nat := 1000

structure Sources where
  user : SettingsFile
  project : SettingsFile
  environment : Environment := []
  overrides : Fields := []
  homes : Homes := {}
  stack : Stack := {}
  /-- What makes a value of the text of a file. -/
  reader : List Char → Except Yaml.Breach Yaml.Document := Yaml.read stack.reading

inductive LoadFailure
  | unreadable (path : String) (obstacle : Obstacle)
  | undecodable (fault : Utf8.Fault)
  | malformed (path : String) (text : List Char) (fault : Yaml.Fault)
  /-- A file spells a value that cannot be built, or the value refused cannot be shown. -/
  | brokenOff (message : String)
  /-- Too many calls stood inside one another. -/
  | overrun (message : String)
  | notMapping (path : String)
  /-- A variable of a section is no JSON where JSON is due. -/
  | notJson (names : SectionNames)
  /-- A key at the top of a file is no text. -/
  | foreignKey
  | refused (issue : Issue)
  /-- A path starts at a home directory that nobody knows. -/
  | homeless
  /-- Settings that were accepted are not accepted again. -/
  | unstable (issues : List Issue)

namespace LoadFailure

def undecodableMessage (fault : Utf8.Fault) : String :=
  let place :=
    if fault.stop = fault.start + 1 then
      "byte 0x" ++ String.ofList (Text.hex 2 fault.byte.toNat) ++ " in position " ++
        toString fault.start
    else "bytes in position " ++ toString fault.start ++ "-" ++ toString (fault.stop - 1)
  "'utf-8' codec can't decode " ++ place ++ ": " ++ fault.reason.text

def report? : LoadFailure → Option Report
  | unreadable path obstacle => some (.settingsUnreadable path obstacle.text)
  | malformed path text fault => some (.settingsUnreadable path (fault.message text))
  | notMapping path => some (.settingsUnreadable path "top level must be a mapping")
  | refused issue =>
    some (.settingRefused (".".intercalate issue.path) issue.input issue.complaint.message)
  | _ => none

def message : LoadFailure → String
  | undecodable fault => undecodableMessage fault
  | notJson names =>
    "error parsing value for field \"" ++ names.name ++ "\" from source \"EnvSettingsSource\""
  | brokenOff message | overrun message => message
  | foreignKey => "keywords must be strings"
  | homeless => Complaint.homeless.message
  | unstable issues => "\n".intercalate (issues.map fun issue => issue.complaint.message)
  | failure => (failure.report?.map Report.message).getD ""

end LoadFailure

def unifyBreaks : List Char → List Char
  | '\r' :: '\n' :: rest => '\n' :: unifyBreaks rest
  | '\r' :: rest => '\n' :: unifyBreaks rest
  | c :: rest => c :: unifyBreaks rest
  | [] => []

/-- A document whose mappings have text for keys and do not lead round. -/
def Yaml.Document.ofFields (fields : Fields) : Yaml.Document :=
  { value := .record fields, isNamed := true }

/-- What a file sets. A file that is missing or empty sets nothing. -/
def SettingsFile.read (reader : List Char → Except Yaml.Breach Yaml.Document)
    (file : SettingsFile) : Except LoadFailure Yaml.Document :=
  match file.content with
  | .error .missing => .ok (.ofFields [])
  | .error obstacle => .error (.unreadable file.path obstacle)
  | .ok bytes =>
    match Utf8.decode bytes.data.toList with
    | .error fault => .error (.undecodable fault)
    | .ok chars =>
      let text := unifyBreaks chars
      match reader text with
      | .error (.fault fault) => .error (.malformed file.path text fault)
      | .error (.brokenOff message) => .error (.brokenOff message)
      | .error .tooDeep => .error (.overrun (Data.tooDeepMessage ""))
      | .ok document =>
        match document.value with
        | .null => .ok (.ofFields [])
        | .record _ => .ok document
        | _ => .error (.notMapping file.path)

def Yaml.Document.fields (document : Yaml.Document) : Fields :=
  match document.value with
  | .record fields => fields
  | _ => []

namespace Sources

def layered (files environment overrides : Fields) : Fields :=
  Fields.merge files (Fields.merge environment overrides)

def files (sources : Sources) : Except LoadFailure (Fields × Bool) := do
  let user ← sources.user.read sources.reader
  let project ← sources.project.read sources.reader
  if user.loops.meet project.loops (sources.stack.merging + 1) 0 0 then
    throw (.overrun (Data.tooDeepMessage ""))
  else return (Fields.merge user.fields project.fields, user.isNamed && project.isNamed)

def refusal (showing : Nat) (issue : Issue) : LoadFailure :=
  match issue.input.unshown? showing with
  | none => .refused issue
  | some .oversized => .brokenOff Data.Unshown.oversized.message
  | some .tooDeep => .overrun Data.Unshown.tooDeep.message

def checked (homes : Homes) (showing : Nat) (fields : Fields) : Except LoadFailure Settings :=
  match Settings.ofKnownFields homes fields with
  | .ok settings => .ok settings
  | .error issues =>
    if issues.any (·.complaint = .homeless) then .error .homeless
    else match issues with
      | [] => .ok {}
      | issue :: _ => .error (refusal showing issue)

/-- Settings that were accepted are written as a value and read from it once more. -/
def rechecked (homes : Homes) (settings : Settings) : Except LoadFailure Settings :=
  match Settings.ofData homes settings.toData with
  | .ok settings => .ok settings
  | .error issues => .error (.unstable issues)

def variableFailure : Environment.Fault → LoadFailure
  | .notJson names => .notJson names
  | .tooDeep isList =>
    let kind := if isList then "array" else "object"
    .overrun (Data.tooDeepMessage (" while decoding a JSON " ++ kind ++ " from a unicode string"))

def load (sources : Sources) : Except LoadFailure Settings := do
  let (files, isNamed) ← sources.files
  match sources.environment.toFields sources.stack.json with
  | .error fault => .error (variableFailure fault)
  | .ok environment =>
    if isNamed then do
      let settings ← checked sources.homes sources.stack.showing
        (layered files environment sources.overrides)
      rechecked sources.homes settings
    else .error .foreignKey

/-- Whether laying the variables and the layers over one another takes too many calls inside one
another, one for each level of mappings that two of them share. -/
def overlaps (sources : Sources) (files environment : Fields) : Bool :=
  let steps := sources.stack.merging + 1
  let sections := [SectionNames.logging, .index].filterMap
    (sources.environment.lowered.layersOf? sources.stack.json)
  sections.any (fun (whole, own) => Fields.meet steps whole own) ||
    Fields.meet steps environment sources.overrides ||
    Fields.meet steps files (Fields.merge environment sources.overrides)

/-- Loading on a stack that may run out while layers are laid over one another. Without direct
overrides no two of them share so many levels, since files and JSON do not go that deep. -/
def loadWithin (sources : Sources) : Except LoadFailure Settings := do
  let (files, _) ← sources.files
  match sources.environment.toFields sources.stack.json with
  | .error _ => sources.load
  | .ok environment =>
    if sources.overlaps files environment then throw (.overrun (Data.tooDeepMessage ""))
    else sources.load

end Sources

end ConfigIndex
