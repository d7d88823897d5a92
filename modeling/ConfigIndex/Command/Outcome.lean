import ConfigIndex.Files.Sources
import ConfigIndex.Index.Export
import ConfigIndex.Log.Files
import ConfigIndex.Log.Session
import ConfigIndex.Settings.Load
import ConfigIndex.Template.Read

/-!
What comes of a run: what was said and logged, and how it ended.
-/

namespace ConfigIndex.Command

inductive Crash
  | settings (failure : LoadFailure)
  | logFile (fault : LogFileFault)
  | oversized (digits : Nat)
  | unwritable
  /-- A path that no system can hold. -/
  | unnameable
  | refused (refusal : Refusal)

def Crash.message : Crash → String
  | settings failure => failure.message
  | logFile fault => fault.message
  | oversized digits => Template.oversizedMessage digits
  | unwritable => Index.unwritableMessage
  | unnameable => "embedded null byte"
  | refused refusal => refusal.obstacle.message refusal.path

structure Outcome where
  actions : List Action := []
  exitCode : Nat := 0
  crash : Option Crash := none

namespace Outcome

def ended (actions : List Action) (exitCode : Nat) : Outcome := ⟨actions, exitCode, none⟩

def crashed (actions : List Action) (crash : Crash) : Outcome := ⟨actions, 1, some crash⟩

def after (outcome : Outcome) (actions : List Action) : Outcome :=
  { outcome with actions := actions ++ outcome.actions }

def transcript (outcome : Outcome) (time : String) : Transcript :=
  (Session.run false {} outcome.actions).transcript time

end Outcome

end ConfigIndex.Command
