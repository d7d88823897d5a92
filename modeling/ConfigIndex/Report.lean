import ConfigIndex.Data.Plain
import ConfigIndex.Position

/-!
Errors as they are reported: a numbered kind, a message, and details by name.
-/

namespace ConfigIndex

inductive ReportCode
  | settingsUnreadable
  | settingRefused
  | documentFaulty
  | templateFaulty
  | sourceUnreadable
deriving DecidableEq, Repr

namespace ReportCode

def number : ReportCode → Nat
  | settingsUnreadable => 2001
  | settingRefused => 2002
  | documentFaulty => 3001
  | templateFaulty => 3002
  | sourceUnreadable => 3003

def name : ReportCode → String
  | settingsUnreadable => "CONFIG_PARSE_ERROR"
  | settingRefused => "CONFIG_INVALID_VALUE"
  | documentFaulty => "SOURCE_SYNTAX_ERROR"
  | templateFaulty => "EXPRESSION_SYNTAX_ERROR"
  | sourceUnreadable => "SOURCE_READ_ERROR"

def all : List ReportCode :=
  [settingsUnreadable, settingRefused, documentFaulty, templateFaulty, sourceUnreadable]

def ofNumber? (number : Int) : Option ReportCode := all.find? fun code => code.number = number

end ReportCode

structure Report where
  code : ReportCode
  message : String
  details : List (String × String) := []
deriving DecidableEq, Repr

namespace Report

def summary (report : Report) : String :=
  "[" ++ toString report.code.number ++ "] " ++ report.code.name ++ ": " ++ report.message

def hasPosition (report : Report) : Bool := report.details.any (·.1 == "pos")

def settingsUnreadable (path reason : String) : Report :=
  ⟨.settingsUnreadable, "Cannot read config " ++ path ++ ": " ++ reason,
    [("path", path), ("reason", reason)]⟩

def settingRefused (field : String) (value : Data) (reason : String) : Report :=
  ⟨.settingRefused, "Invalid value for '" ++ field ++ "': " ++ reason,
    [("field", field), ("value", value.display), ("reason", reason)]⟩

def documentFaulty (message : String) (position : Position) : Report :=
  ⟨.documentFaulty, message, [("pos", position.describe)]⟩

def templateFaulty (message : String) (point : Point) : Report :=
  ⟨.templateFaulty, message, [("pos", point.describe)]⟩

def sourceUnreadable (path reason : String) : Report :=
  ⟨.sourceUnreadable, "Cannot open path '" ++ path ++ "': " ++ reason,
    [("path", path), ("reason", reason)]⟩

end Report

end ConfigIndex
