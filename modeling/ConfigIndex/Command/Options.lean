import ConfigIndex.Command.Similar
import ConfigIndex.Text.Quoted

/-!
Reading the arguments of a command: options by their long names or, behind a single dash, by their
letters, and the other arguments in their order.
-/

namespace ConfigIndex.Command

structure OptionRule where
  /-- The long name, dashes included. -/
  name : String
  letter : Option Char := none
  /-- What the value is called; an option without one is a flag. -/
  value : Option String := none
  help : String

inductive UsageFault
  | noSuchOption (name : String) (similar : List String)
  | valueMissing (name : String)
  | valueNotAllowed (name : String)
  | extraArguments (arguments : List String)
  | commandMissing
  | noSuchCommand (name : String) (similar : List String)
deriving DecidableEq, Repr

namespace UsageFault

def suggestion (names : List String) : String :=
  match names with
  | [] => ""
  | [name] => " Did you mean " ++ Text.quoted name ++ "?"
  | names => " (Did you mean one of: " ++ ", ".intercalate (names.map Text.quoted) ++ "?)"

def message : UsageFault → String
  | noSuchOption name similar =>
    "No such option " ++ Text.quoted name ++ "." ++ suggestion similar
  | valueMissing name => "Option " ++ Text.quoted name ++ " requires an argument."
  | valueNotAllowed name => "Option " ++ Text.quoted name ++ " does not take a value."
  | extraArguments arguments =>
    "Got unexpected extra argument" ++ (if arguments.length = 1 then "" else "s") ++ " (" ++
      " ".intercalate arguments ++ ")"
  | commandMissing => "Missing command."
  | noSuchCommand name similar =>
    "No such command " ++ Text.quoted name ++ "." ++ suggestion similar

def showsUsage : UsageFault → Bool
  | valueMissing _ | valueNotAllowed _ => false
  | _ => true

end UsageFault

/-- Options in the order in which they were given, each with its value if it has one, and the
other arguments. -/
structure Arguments where
  options : List (String × String) := []
  others : List String := []

namespace Arguments

def addOption (arguments : Arguments) (name value : String) : Arguments :=
  { arguments with options := arguments.options ++ [(name, value)] }

def addOther (arguments : Arguments) (text : String) : Arguments :=
  { arguments with others := arguments.others ++ [text] }

def has (arguments : Arguments) (name : String) : Bool := arguments.options.any (·.1 == name)

def value? (arguments : Arguments) (name : String) : Option String :=
  (arguments.options.reverse.find? (·.1 == name)).map (·.2)

end Arguments

def readLetters (rules : List OptionRule) (read : Arguments) :
    List Char → Except UsageFault Arguments
  | [] => .ok read
  | letter :: rest =>
    match rules.find? fun rule => rule.letter = some letter with
    | none => .error (.noSuchOption (String.ofList ['-', letter]) [])
    | some rule => readLetters rules (read.addOption rule.name "") rest

/-- Reads arguments. If options may not follow other arguments, the first of these ends the
reading, and so do two dashes alone. -/
def readArguments (rules : List OptionRule) (mixed : Bool) (read : Arguments) :
    List String → Except UsageFault Arguments
  | [] => .ok read
  | argument :: rest =>
    let text := argument.toList
    if argument == "--" then .ok { read with others := read.others ++ rest }
    else if text.head? = some '-' && text.length ≠ 1 then
      if text.tail.head? = some '-' then
        let name := String.ofList (text.takeWhile (· ≠ '='))
        let attached := text.dropWhile (· ≠ '=')
        match rules.find? fun rule => rule.name == name with
        | none => .error (.noSuchOption name (similar name (rules.map OptionRule.name)))
        | some rule =>
          match rule.value, attached with
          | some _, [] =>
            match rest with
            | [] => .error (.valueMissing rule.name)
            | value :: rest => readArguments rules mixed (read.addOption rule.name value) rest
          | some _, _ :: value =>
            readArguments rules mixed (read.addOption rule.name (String.ofList value)) rest
          | none, [] => readArguments rules mixed (read.addOption rule.name "") rest
          | none, _ => .error (.valueNotAllowed rule.name)
      else match readLetters rules read text.tail with
        | .error fault => .error fault
        | .ok read => readArguments rules mixed read rest
    else if mixed then readArguments rules mixed (read.addOther argument) rest
    else .ok { read with others := read.others ++ argument :: rest }

end ConfigIndex.Command
