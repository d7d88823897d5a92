import ConfigIndex.Log.Line

/-!
What a program says and logs while it runs. Setting up the log replaces all its outputs; each event
goes to every output that takes its level, but to no console while a progress display is on.
-/

namespace ConfigIndex

inductive Channel
  | stdout
  | stderr
  | file (path : String)
deriving DecidableEq, Repr

def Destination.channel : Destination → Channel
  | .stdout => .stdout
  | .stderr => .stderr
  | .file path => .file path

/-- An output that has been set up, with its number among all that ever were. -/
structure Handler where
  number : Nat
  output : LogOutput
  level : Level
deriving DecidableEq, Repr

def Handler.takes (handler : Handler) (isQuiet : Bool) (event : Event) : Bool :=
  handler.level.rank ≤ event.level.rank && !(isQuiet && handler.output.destination.isConsole)

inductive Action
  /-- Text that is no part of the log. -/
  | say (channel : Channel) (text : String)
  | log (event : Event)
  | configure (settings : LogSettings)
  /-- Sets up what holds before any settings are known. -/
  | installDefaults
  /-- Notes whether the console is quiet. -/
  | observe
  /-- Keeps the console quiet meanwhile. -/
  | quietly (actions : List Action)

inductive Happening
  | said (channel : Channel) (text : String)
  | opened (path : String)
  | logged (handler : Handler) (event : Event)
  /-- An event that went to nobody, though it matters, and whether the log was set up. -/
  | unhandled (event : Event) (isConfigured : Bool)
  | observed (isQuiet : Bool)

structure Session where
  settings : Option LogSettings := none
  handlers : List Handler := []
  installed : Nat := 0
  happenings : List Happening := []

namespace Session

def handlersOf (settings : LogSettings) (first : Nat) : List Handler :=
  (settings.outputs.zip (List.range' first settings.outputs.length)).map fun (output, number) =>
    ⟨number, output, output.level.getD settings.level⟩

def filePath? (output : LogOutput) : Option String :=
  match output.destination with
  | .file path => some path
  | _ => none

def configure (session : Session) (settings : LogSettings) : Session :=
  { settings := some settings
    handlers := handlersOf settings session.installed
    installed := session.installed + settings.outputs.length
    happenings := session.happenings ++
      (settings.outputs.filterMap filePath?).map Happening.opened }

def level (session : Session) : Level :=
  match session.settings with
  | some settings => settings.level
  | none => .warning

/-- What comes of an event. Without any handler, one that is at least a warning still shows. -/
def eventHappenings (session : Session) (isQuiet : Bool) (event : Event) : List Happening :=
  if event.level.rank < session.level.rank then []
  else if session.handlers.isEmpty then
    if Level.warning.rank ≤ event.level.rank then [.unhandled event session.settings.isSome]
    else []
  else (session.handlers.filter fun handler => handler.takes isQuiet event).map fun handler =>
    .logged handler event

def add (session : Session) (happenings : List Happening) : Session :=
  { session with happenings := session.happenings ++ happenings }

mutual

def act (isQuiet : Bool) (session : Session) : Action → Session
  | .say channel text => session.add [.said channel text]
  | .log event => session.add (session.eventHappenings isQuiet event)
  | .configure settings => session.configure settings
  | .installDefaults => session
  | .observe => session.add [.observed isQuiet]
  | .quietly actions => run true session actions

def run (isQuiet : Bool) (session : Session) : List Action → Session
  | [] => session
  | action :: rest => run isQuiet (session.act isQuiet action) rest

end

def logFile? (session : Session) : Option String :=
  session.settings.bind fun settings => settings.outputs.findSome? filePath?

end Session

namespace Happening

def text? (time : String) : Happening → Option (Channel × String)
  | said channel text => some (channel, text)
  | opened path => some (.file path, "")
  | logged handler event =>
    some (handler.output.destination.channel, event.line handler.output.format time ++ "\n")
  | unhandled event isConfigured =>
    let line := if isConfigured then event.recordLine time else event.earlyLine
    some (.stderr, line ++ "\n")
  | observed _ => none

end Happening

abbrev Transcript := List (Channel × String)

def Session.transcript (session : Session) (time : String) : Transcript :=
  session.happenings.filterMap (Happening.text? time)

namespace Transcript

def on (transcript : Transcript) (channel : Channel) : String :=
  String.join ((transcript.filter (·.1 = channel)).map (·.2))

def files (transcript : Transcript) : List String :=
  (transcript.filterMap fun entry =>
    match entry.1 with
    | .file path => some path
    | _ => none).eraseDups

end Transcript

end ConfigIndex
