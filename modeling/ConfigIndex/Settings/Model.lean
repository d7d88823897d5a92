import ConfigIndex.Log.Event

/-!
The settings of the program, with their defaults, and settings as a value.
-/

namespace ConfigIndex

inductive LogFormat
  | json
  | console
deriving DecidableEq, Repr

namespace LogFormat

def name : LogFormat → String
  | json => "json"
  | console => "console"

def all : List LogFormat := [json, console]

def ofName? (name : String) : Option LogFormat := all.find? fun format => format.name == name

theorem ofName?_name (format : LogFormat) : ofName? format.name = some format := by
  cases format <;> rfl

end LogFormat

inductive Destination
  | stderr
  | stdout
  | file (path : String)
deriving DecidableEq, Repr

namespace Destination

def text : Destination → String
  | stderr => "stderr"
  | stdout => "stdout"
  | file path => path

/-- Whether a person reads along, so that a progress display must not be disturbed. -/
def isConsole : Destination → Bool
  | file _ => false
  | _ => true

end Destination

/-- One place that log events go to. Without a level of its own it takes that of the log. -/
structure LogOutput where
  format : LogFormat := .console
  destination : Destination := .stderr
  level : Option Level := none
deriving DecidableEq, Repr

structure LogSettings where
  level : Level := .info
  outputs : List LogOutput := [{}]
deriving DecidableEq, Repr

structure IndexSettings where
  /-- Keep the tree of the last file in the index. -/
  includeTree : Bool := false
  /-- Count references that name nothing as problems. -/
  strictReferences : Bool := false
  /-- What the names of files end in that are looked for in folders. -/
  extensions : List String := [".tf"]
  /-- Larger files in folders are skipped. -/
  maxMegabytes : Nat := 10
deriving DecidableEq, Repr

structure Settings where
  logging : LogSettings := {}
  index : IndexSettings := {}
deriving DecidableEq, Repr

def LogOutput.toData (output : LogOutput) : Data :=
  .record [("format", .text output.format.name), ("destination", .text output.destination.text),
    ("level", (output.level.map fun level => Data.text level.name).getD .null)]

def LogSettings.toData (settings : LogSettings) : Data :=
  .record [("level", .text settings.level.name),
    ("outputs", .list (settings.outputs.map LogOutput.toData))]

def IndexSettings.toData (settings : IndexSettings) : Data :=
  .record [("include_raw_ast", .bool settings.includeTree),
    ("strict_references", .bool settings.strictReferences),
    ("extensions", .list (settings.extensions.map .text)),
    ("max_file_size_mb", .int settings.maxMegabytes)]

def Settings.toData (settings : Settings) : Data :=
  .record [("logging", settings.logging.toData), ("index", settings.index.toData)]

end ConfigIndex
