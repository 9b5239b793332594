import CheckedActions.Cli.Options

/-!
The commands of the program and their help.
-/

namespace CheckedActions.Cli

inductive Command where
  | list
  | describe
  | run
  deriving DecidableEq

namespace Command

def all : List Command := [describe, list, run]

def name : Command → String
  | list => "list"
  | describe => "describe"
  | run => "run"

def ofName? (s : String) : Option Command := all.find? (·.name = s)

/-- Whether the command takes the name of an action. -/
def takesName : Command → Bool
  | list => false
  | _ => true

def purpose : Command → String
  | list => "List registered actions."
  | describe => "Show an action's description, fields, and validators."
  | run => "Validate JACKS/PROPS against action NAME and run it."

def examples : Command → List String
  | list =>
    ["  jackprop list",
     "  jackprop --module myapp.actions list",
     "  jackprop --json list"]
  | describe =>
    ["  jackprop describe CreateUser",
     "  jackprop --json describe CreateUser"]
  | run =>
    ["  jackprop run CreateUser --props '\x7b\"email\": \"a@b.c\"\x7d'",
     "  jackprop run SendInvite --jacks '\x7b\"mailer\": \"smtp\"\x7d' " ++
       "--props '\x7b\"to\": \"a@b.c\"\x7d'",
     "  jackprop --json run CreateUser --props '\x7b\x7d'"]

end Command

def jacksOption : OptionForm := { long := "--jacks", takesValue := true }
def propsOption : OptionForm := { long := "--props", takesValue := true }
def examplesOption : OptionForm := { long := "--examples" }
def helpOption : OptionForm := { long := "--help" }
def versionOption : OptionForm := { long := "--version" }
def jsonOption : OptionForm := { long := "--json" }
def quietOption : OptionForm := { long := "--quiet", short? := some 'q' }
def verboseOption : OptionForm := { long := "--verbose", short? := some 'v' }
def logJsonOption : OptionForm := { long := "--log-json" }
def configOption : OptionForm := { long := "--config", short? := some 'c', takesValue := true }
def moduleOption : OptionForm := { long := "--module", short? := some 'm', takesValue := true }

/-- The options of the program itself. -/
def programOptions : List OptionForm :=
  [versionOption, jsonOption, quietOption, verboseOption, logJsonOption, configOption,
   moduleOption, helpOption]

/-- The options that take an object, if the command has any. -/
def Command.objectOptions : Command → List OptionForm
  | run => [jacksOption, propsOption]
  | _ => []

def Command.options (c : Command) : List OptionForm :=
  c.objectOptions ++ [examplesOption, helpOption]

def programName : String := "jackprop"
def versionText : String := "jackprop, version 0.3.0"

/-- How the program or one of its commands is called. -/
def usageLine : Option Command → String
  | none => "Usage: " ++ programName ++ " [OPTIONS] [COMMAND] [ARGS]..."
  | some c => "Usage: " ++ programName ++ " " ++ c.name ++ " [OPTIONS]" ++
    (if c.takesName then " NAME" else "")

/-- The words with which help on the program or one of its commands is asked for. -/
def helpCall : Option Command → String
  | none => programName ++ " --help"
  | some c => programName ++ " " ++ c.name ++ " --help"

/-- Two columns, the first filled up to its longest entry. -/
def columns (rows : List (String × String)) : List String :=
  let width := (rows.map (·.1.length)).foldl max 0
  rows.map fun (a, b) =>
    "  " ++ a ++ String.ofList (List.replicate (width - a.length) ' ') ++ "  " ++ b

/-- Lines as a text whose last line is ended too. -/
def endedLines (ls : List String) : String := String.join (ls.map (· ++ "\n"))

def programHelp : String :=
  endedLines (
    [usageLine none, "", "  jackprop: inspect and run typed, validated actions.", "", "Options:"]
    ++ columns
      [("--version", "Show the version and exit."),
       ("--json", "Structured JSON output."),
       ("-q, --quiet", "Minimal output."),
       ("-v, --verbose", "Detailed output with debug logging."),
       ("--log-json", "Structured JSON log output to stderr."),
       ("-c, --config TEXT", "Override config file path."),
       ("-m, --module TEXT", "Import actions from this module (repeatable)."),
       ("--help", "Show this message and exit.")]
    ++ ["", "Commands:"]
    ++ columns (Command.all.map fun c => (c.name, c.purpose)))

def Command.help (c : Command) : String :=
  endedLines (
    [usageLine (some c), "", "  " ++ c.purpose, "", "Options:"]
    ++ columns ((match c with
      | run => [("--jacks JSON", "Jacks as a JSON object."),
                ("--props JSON", "Props as a JSON object.")]
      | _ => [])
      ++ [("--examples", "Show usage examples."), ("--help", "Show this message and exit.")]))

def Command.examplesText (c : Command) : String :=
  endedLines (["Examples for " ++ quoteText (programName ++ " " ++ c.name) ++ ":", ""] ++
    c.examples)

/-- What is shown when a command line cannot be understood. -/
def problemText (command? : Option Command) (p : UsageProblem) : String :=
  let usage := [usageLine command?, "Try " ++ quoteText (helpCall command?) ++ " for help.", ""]
  endedLines ((if p.showsUsage then usage else []) ++ ["Error: " ++ p.message])

end CheckedActions.Cli
