import ConfigIndex.Data.Json
import ConfigIndex.Data.Plain
import ConfigIndex.Settings.Model

/-!
An event as a line of a log: as JSON, for a reader at a console, or as a bare record when no output
has been set up.
-/

namespace ConfigIndex

namespace Event

def record (event : Event) : Data.Fields :=
  ((Data.Fields.ofList event.fields).put "event" (.text event.name)).put "level"
    (.text event.level.label)

def timed (event : Event) (time : String) : Data.Fields := event.record.put "timestamp" (.text time)

def jsonLine (event : Event) (time : String) : String :=
  (Data.record (event.timed time)).toJson .line

def needsQuotes (text : String) : Bool :=
  text.toList.any fun c =>
    c = ' ' || c = '\t' || c = '=' || c = '\r' || c = '\n' || c = '"' || c = '\''

def fieldText : Data → String
  | .text value => if needsQuotes value then Text.quoted value else value
  | other => other.plain

def columns : List (String × (String → String)) :=
  [("timestamp", id), ("level", fun text => "[" ++ text ++ "]"), ("event", id),
    ("logger", fun text => "[" ++ text ++ "]"), ("logger_name", fun text => "[" ++ text ++ "]")]

def consoleLine (event : Event) (time : String) : String :=
  let all := event.timed time
  let leading := columns.filterMap fun (key, write) =>
    (all.get? key).map fun value => write value.display
  let others := all.filter fun field => !(columns.any (·.1 == field.1))
  let sorted := others.mergeSort fun left right => decide (left.1 ≤ right.1)
  let words := leading ++ sorted.map fun (key, value) => key ++ "=" ++ fieldText value
  let line := " ".intercalate (words.filter fun word => !word.isEmpty)
  String.ofList ((line.toList.reverse.dropWhile (· = ' ')).reverse)

def recordLine (event : Event) (time : String) : String := (Data.record (event.timed time)).plain

def earlyLine (event : Event) : String :=
  let others := event.record.filter (·.1 != "event")
  " ".intercalate (("event=" ++ Text.quoted event.name) ::
    others.map fun (key, value) => key ++ "=" ++ value.plain)

def line (event : Event) (format : LogFormat) (time : String) : String :=
  match format with
  | .json => event.jsonLine time
  | .console => event.consoleLine time

end Event

end ConfigIndex
