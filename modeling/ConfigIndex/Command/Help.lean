import ConfigIndex.Command.Options

/-!
The commands, their options, and how they explain themselves.
-/

namespace ConfigIndex.Command

def programName : String := "terraform-index"

structure CommandRule where
  path : String
  usage : String
  /-- The lines of the description, without margins. -/
  description : List String
  options : List OptionRule

def helpOption : OptionRule := { name := "--help", help := "Show this message and exit." }

def program : CommandRule where
  path := programName
  usage := "[OPTIONS] COMMAND [ARGS]..."
  description := ["Extract declarations and references from Terraform files."]
  options := [
    { name := "--version", help := "Show the version and exit." },
    { name := "--verbose", letter := some 'v', help := "Enable debug logging" },
    helpOption]

def indexCommand : CommandRule where
  path := programName ++ " index"
  usage := "[OPTIONS] [PATHS]..."
  description := [
    "Extract references and declarations from Terraform files.",
    "",
    "PATHS are files, directories (searched for configured extensions) or '-' for",
    "stdin. All of them are merged into one index."]
  options := [
    { name := "--raw-ast", help := "Include the raw syntax tree of the last file" },
    { name := "--compact", help := "Print JSON on a single line" },
    helpOption]

def outlineCommand : CommandRule where
  path := programName ++ " ast"
  usage := "[OPTIONS]"
  description := ["Dump variable, resource and output declarations of one file."]
  options := [
    { name := "--file", value := some "TEXT", help := "File to parse  [default: -]" },
    { name := "--raw-ast", help := "Include the raw syntax tree" },
    helpOption]

def commandNames : List (String × String) :=
  [("ast", "Dump variable, resource and output declarations of one file."),
    ("index", "Extract references and declarations from Terraform files.")]

def OptionRule.shown (rule : OptionRule) : String :=
  (rule.letter.elim "" fun letter => String.ofList ['-', letter, ',', ' ']) ++ rule.name ++
    rule.value.elim "" fun value => " " ++ value

def columns (rows : List (String × String)) : String :=
  let width := (rows.map fun row => row.1.length).foldl max 0
  String.join (rows.map fun (left, right) =>
    "  " ++ left ++ String.ofList (List.replicate (width - left.length + 2) ' ') ++ right ++ "\n")

namespace CommandRule

def usageLine (command : CommandRule) : String :=
  "Usage: " ++ command.path ++ " " ++ command.usage ++ "\n"

def help (command : CommandRule) (commands : List (String × String)) : String :=
  let description := command.description.map fun line =>
    (if line.isEmpty then "" else "  " ++ line) ++ "\n"
  let options := command.options.map fun rule => (rule.shown, rule.help)
  command.usageLine ++ "\n" ++ String.join description ++ "\nOptions:\n" ++ columns options ++
    (if commands.isEmpty then "" else "\nCommands:\n" ++ columns commands)

def report (command : CommandRule) (fault : UsageFault) : String :=
  let reminder :=
    if fault.showsUsage then
      command.usageLine ++ "Try '" ++ command.path ++ " --help' for help.\n\n"
    else ""
  reminder ++ "Error: " ++ fault.message ++ "\n"

end CommandRule

end ConfigIndex.Command
