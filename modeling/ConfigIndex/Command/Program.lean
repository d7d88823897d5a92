import ConfigIndex.Command.Help
import ConfigIndex.Command.Outline

/-!
The program: it reads its arguments, loads the settings, sets up the log and runs a command.
-/

namespace ConfigIndex.Command

inductive Task
  | index
  | outline
deriving DecidableEq, Repr

namespace Task

def ofName? (name : String) : Option Task :=
  if name == "index" then some index else if name == "ast" then some outline else none

def rule : Task → CommandRule
  | index => indexCommand
  | outline => outlineCommand

end Task

def misused (command : CommandRule) (fault : UsageFault) : Outcome :=
  .ended [.say .stderr (command.report fault)] 2

def versionText : String := programName ++ ", version " ++ indexVersion ++ "\n"

def Arguments.question? (arguments : Arguments) : Option String :=
  (arguments.options.find? fun option => option.1 == "--help" || option.1 == "--version").map (·.1)

def runIndex (world : World) (settings : IndexSettings) (arguments : Arguments) : Outcome :=
  if arguments.others.isEmpty then .ended [.say .stderr (indexCommand.help [])] 1
  else
    gather world settings
      ⟨arguments.has "--raw-ast" || settings.includeTree, settings.strictReferences⟩
      (if arguments.has "--compact" then none else some 2) arguments.others

def runOutline (world : World) (arguments : Arguments) : Outcome :=
  if arguments.others.isEmpty then
    outline world ((arguments.value? "--file").getD standardInput) (arguments.has "--raw-ast")
  else misused outlineCommand (.extraArguments arguments.others)

def Task.run (task : Task) (world : World) (settings : Settings) (given : List String) : Outcome :=
  match readArguments task.rule.options true {} given with
  | .error fault => misused task.rule fault
  | .ok arguments =>
    if arguments.question?.isSome then .ended [.say .stdout (task.rule.help [])] 0
    else match task with
      | .index => runIndex world settings.index arguments
      | .outline => runOutline world arguments

def Task.start (task : Task) (world : World) (isVerbose : Bool) (given : List String) : Outcome :=
  match (world.sources []).load with
  | .error failure =>
    match failure.report? with
    | some report => .ended [.say .stderr ("Error: " ++ report.message ++ "\n")] 1
    | none => .crashed [] (.settings failure)
  | .ok settings =>
    let logging := if isVerbose then { settings.logging with level := .debug } else settings.logging
    let opened := logging.openFiles world.system
    match opened.fault with
    | some fault =>
      .crashed [.configure { logging with outputs := opened.outputs }] (.logFile fault)
    | none =>
      let around := { world with system := opened.system, logging := some logging }
      (task.run around settings given).after [.configure logging]

def answer? (arguments : Arguments) : Option String :=
  arguments.question?.map fun name =>
    if name == "--version" then versionText else program.help commandNames

/-- A name that no command has. The name may be an option that two dashes have hidden; then it is
read as one. -/
def unknown (name : String) (given : List String) : Outcome :=
  match readArguments program.options false {} given with
  | .error fault => misused program fault
  | .ok arguments =>
    match answer? arguments with
    | some text => .ended [.say .stdout text] 0
    | none => misused program (.noSuchCommand name (similar name (commandNames.map (·.1))))

def run (world : World) (given : List String) : Outcome :=
  if given.isEmpty then .ended [.say .stderr (program.help commandNames)] 2
  else match readArguments program.options false {} given with
    | .error fault => misused program fault
    | .ok arguments =>
      match answer? arguments, arguments.others with
      | some text, _ => .ended [.say .stdout text] 0
      | none, [] => misused program .commandMissing
      | none, name :: rest =>
        match Task.ofName? name with
        | some task => task.start world (arguments.has "--verbose") rest
        | none => unknown name (name :: rest)

def mayReadInput (given : List String) : Bool :=
  given.contains standardInput || given.contains "ast"

end ConfigIndex.Command
