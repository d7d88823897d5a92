import ConfigIndex.Command.Outcome
import ConfigIndex.Command.Status
import ConfigIndex.Command.Tracking
import ConfigIndex.Command.World
import ConfigIndex.Index.Collect

/-!
Indexing many sources at once. A source that cannot be parsed is reported and the others are still
indexed; one that cannot be read ends the run, and no index is printed.
-/

namespace ConfigIndex.Command

def errorLine (message : String) : Action := .say .stderr ("ERROR: " ++ message ++ "\n")

def unparsable (path message : String) : Action :=
  errorLine ("Could not parse '" ++ path ++ "': " ++ message)

def unreadable (path : String) (obstacle : Obstacle) : Action :=
  errorLine (Report.sourceUnreadable path obstacle.text).message

inductive Breach
  | unreadable
  | crash (crash : Crash)

structure Gathering where
  index : Index := {}
  actions : List Action := []
  failures : Nat := 0
  isInputRead : Bool := false
  breach : Option Breach := none

namespace Gathering

def addContent (state : Gathering) (rules : Rules) (path : String) (content : ByteArray) :
    Gathering :=
  let (progress, error) := state.index.collect rules path (.bytes content.data.toList)
  let logged := state.actions ++ progress.events.map .log
  let state := { state with
    index := progress.index
    isInputRead := state.isInputRead || path == standardInput }
  match progress.oversized, error with
  | some digits, _ => { state with actions := logged, breach := some (.crash (.oversized digits)) }
  | none, some error =>
    { state with
      actions := logged ++ [unparsable path error.message], failures := state.failures + 1 }
  | none, none => { state with actions := logged }

def add (around : List Action → World) (rules : Rules) (state : Gathering) (path : String) :
    Gathering :=
  match (around state.actions).source state.isInputRead path with
  | .ok content => state.addContent rules path content
  | .error .unnameable => { state with breach := some (.crash .unnameable) }
  | .error (.unreadable path obstacle) =>
    { state with
      actions := state.actions ++ [Command.unreadable path obstacle], breach := some .unreadable }

/-- Adds sources in turn, each as it is found after the work up to there. -/
def addAll (around : List Action → World) (rules : Rules) (state : Gathering) :
    List String → Gathering
  | [] => state
  | path :: rest =>
    let state := state.add around rules path
    if state.breach.isSome then state else addAll around rules state rest

def closing (state : Gathering) : List Action :=
  if state.failures = 0 then []
  else
    let message := counted state.failures "file" none ++ " could not be parsed"
    match status message "warning" with
    | .ok actions => actions
    | .error _ => []

def print (state : Gathering) (indent : Option Nat) : Outcome :=
  match state.index.toJson? indent with
  | some json => .ended [.say .stdout (json ++ "\n")] 0
  | none => .crashed [] .unwritable

end Gathering

/-- The work on the sources with all that goes with it. -/
def worked (world : World) (expansion : Expansion) (work : List Action) (isFinished : Bool) :
    List Action :=
  expansion.events.map .log ++
    track world.isTerminal false "Indexing" expansion.paths.length work isFinished

/-- The world as the work on the sources goes on. -/
def World.during (world : World) (expansion : Expansion) (work : List Action) : World :=
  world.after (worked world expansion work false)

def gather (world : World) (settings : IndexSettings) (rules : Rules) (indent : Option Nat)
    (given : List String) : Outcome :=
  let expansion := Expansion.ofPaths world.system settings given
  match expansion.refusal with
  | some refusal => .crashed (expansion.events.map .log) (.refused refusal)
  | none =>
    let state := Gathering.addAll (world.during expansion) rules {} expansion.paths
    let tracked := worked world expansion state.actions state.breach.isNone
    match state.breach with
    | some .unreadable => .ended tracked 2
    | some (.crash crash) => .crashed tracked crash
    | none => (state.print indent).after (tracked ++ state.closing)

end ConfigIndex.Command
