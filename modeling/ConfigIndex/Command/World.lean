import ConfigIndex.Files.Sources
import ConfigIndex.Log.Session
import ConfigIndex.Settings.Load

/-!
What a run of the program finds around it: files, environment variables, standard input.
-/

namespace ConfigIndex.Command

def projectSettingsName : String := ".tfindex.yaml"

def userSettingsPath (homes : Homes) : Path :=
  let path := Path.ofText "~/.config/tfindex/config.yaml"
  (path.expandHome? homes).getD path

/-- The files after some lines were written on those of them that are log files. -/
def Transcript.written (transcript : Transcript) (system : FileSystem) : FileSystem :=
  transcript.foldl (fun system (channel, text) =>
    match channel with
    | .file path => system.grow (Path.ofText path) text.toUTF8
    | _ => system) system

structure World where
  system : FileSystem
  userSettings : Path
  environment : Environment := []
  homes : Homes := {}
  input : ByteArray := .empty
  isTerminal : Bool := false
  /-- What the lines of the log have for the time. -/
  time : String := ""
  /-- The settings of the log, once it is set up. -/
  logging : Option LogSettings := none

namespace World

def settingsFile (world : World) (path : Path) : SettingsFile :=
  ⟨path.text, world.system.read path⟩

def sources (world : World) (overrides : Data.Fields) : Sources where
  user := world.settingsFile world.userSettings
  project := world.settingsFile (world.system.here.child projectSettingsName)
  environment := world.environment
  overrides := overrides
  homes := world.homes

/-- Reads a source. Standard input can be read to its end once; after that it is empty. -/
def source (world : World) (isInputRead : Bool) (path : String) :
    Except SourceFailure ByteArray :=
  if path == standardInput then .ok (if isInputRead then .empty else world.input)
  else world.system.source path

/-- The world after some work, whose log is written as the work goes on. -/
def after (world : World) (work : List Action) : World :=
  match world.logging with
  | none => world
  | some logging =>
    let session := Session.run false {} (.configure logging :: work)
    { world with system := Transcript.written (session.transcript world.time) world.system }

end World

end ConfigIndex.Command
