import CheckedActions.Cli.Command
import CheckedActions.Cli.JsonParameter
import CheckedActions.Config.Settings
import CheckedActions.Display.Report
import CheckedActions.Log.Setup
import CheckedActions.Service.Actions

/-!
The program. It reads its own options, finds the command, reads the settings, reads the command's
options, and only then loads the registry and carries the command out. Whatever cannot be
understood ends it before that.
-/

namespace CheckedActions.Cli

/-- What a run of the program leaves behind. -/
structure Outcome where
  exitCode : Nat
  stdout : String := ""
  stderr : String := ""
  /-- The failure that nothing in the program deals with. -/
  raised? : Option Failure := none
  /-- How log records are shown, once that is settled. -/
  setup? : Option LogSetup := none

namespace Outcome

def shown (text : String) : Outcome := { exitCode := 0, stdout := text }

def misuse (command? : Option Command) (p : UsageProblem) : Outcome :=
  { exitCode := 2, stderr := problemText command? p }

/-- The end of a program that fails: a configuration file that cannot be read is told to the user,
and nothing else is dealt with. -/
def failed (f : Failure) : Outcome :=
  match f with
  | .badConfigFile _ => { exitCode := 1, stderr := endedLines ["Error: " ++ f.wording] }
  | f => { exitCode := 1, raised? := some f }

end Outcome

/-- What the first option that asks for a text asks for. -/
def requestedText? (line : Line) (texts : List (OptionForm × String)) : Option String :=
  (line.order (texts.map (·.1))).head?.bind fun form => texts.lookup form

def programTexts : List (OptionForm × String) :=
  [(versionOption, versionText ++ "\n"), (helpOption, programHelp)]

/-- The settings that the program's options give. -/
def flagsOf (line : Line) : Entries :=
  [(.str "json_output", .bool (line.has jsonOption)), (.str "quiet", .bool (line.has quietOption)),
   (.str "verbose", .bool (line.has verboseOption)),
   (.str "log_json", .bool (line.has logJsonOption)),
   (.str "modules", .tuple ((line.values moduleOption).map .str))]

/-- The end of a program that is asked for a command it does not have. A name that looks like an
option is read as one first. -/
def unknownCommand (name : String) (args : List String) : Outcome :=
  let refusal := Outcome.misuse none
    (.noSuchCommand name (closeMatches name (Command.all.map (·.name))))
  if name.toList.head? = some '-' then
    match readLine programOptions false none args with
    | .error p => .misuse none p
    | .ok line => match requestedText? line programTexts with
      | some text => .shown text
      | none => refusal
  else refusal

/-- What a command is asked to do. -/
inductive Request where
  | list
  | describe (name : String)
  | run (name : String) (jacks props : Value)

/-- Why a command is not carried out. -/
inductive Refusal where
  | usage (p : UsageProblem)
  | failure (f : Failure)

/-- The objects that options give. -/
def readObjects (line : Line) : List OptionForm → Except Refusal (List (OptionForm × Value))
  | [] => .ok []
  | form :: forms => do
    let v ← (objectOfText ((line.value? form).getD "")).mapError fun
      | .badParameter reason => .usage (.invalidValue form.long reason)
      | f => .failure f
    return (form, v) :: (← readObjects line forms)

/-- The name of the action, the one argument. -/
def readName (line : Line) : Except Refusal String :=
  match line.arguments with
  | [] => .error (.usage (.argumentMissing "NAME"))
  | [name] => .ok name
  | _ :: extra => .error (.usage (.extraArguments extra))

/-- The request of a command line. Objects are read in the order in which their options came. -/
def readRequest (c : Command) (line : Line) : Except Refusal Request := do
  let objects ← readObjects line (line.order c.objectOptions)
  let object (form : OptionForm) : Value := (objects.lookup form).getD .null
  match c with
  | .list =>
    if line.arguments.isEmpty then return .list
    else throw (.usage (.extraArguments line.arguments))
  | .describe => return .describe (← readName line)
  | .run => return .run (← readName line) (object jacksOption) (object propsOption)

/-- Prints a result: on the standard output if it is one of success, and otherwise as an error. -/
def emit (s : Settings) (r : ServiceResult) : Except Failure Outcome := do
  let output : OutputSettings :=
    { json := s.json, quiet := s.quiet, verbose := s.verbose, width? := some s.output.width }
  let text ← r.format output
  if r.ok then
    let warnings := if s.json then [] else r.warnings.map ("WARNING: " ++ ·)
    return { exitCode := 0, stdout := text ++ "\n", stderr := endedLines warnings }
  else return { exitCode := 1, stderr := text ++ "\n" }

variable {σ : Type}

/-- Loads the registry and does what is requested. Installed plugins are used if the settings say
so. -/
def answer (s : Settings) (shelf : ModuleShelf σ) (installed : Call σ (PluginRoster σ))
    (request : Request) : Call σ ServiceResult := do
  let roster ← if s.registry.entryPoints then installed else pure .empty
  let (registry, _) ← (Registry.ofPlugins roster).load shelf s.actionModules
    s.registry.entryPoints
  match request with
  | .list => Call.ofExcept (Service.list registry)
  | .describe name => Call.ofExcept (Service.describe registry name)
  | .run name jacks props => Service.run registry name jacks props

/-- Carries a command out, with its name bound in the log. -/
def carryOut (s : Settings) (shelf : ModuleShelf σ) (installed : Call σ (PluginRoster σ))
    (c : Command) (request : Request) : Call σ Outcome := do
  let outcome ← Call.attempt (Call.withCommand c.name do
    Call.ofExcept (emit s (← answer s shelf installed request)))
  match outcome with
  | .ok o => return o
  | .error f => return .failed f

/-- Reads a command's options and carries it out. -/
def runCommand (s : Settings) (shelf : ModuleShelf σ) (installed : Call σ (PluginRoster σ))
    (c : Command) (args : List String) : Call σ Outcome := do
  match readLine c.options true none args with
  | .error p => return .misuse (some c) p
  | .ok line =>
    match requestedText? line [(examplesOption, c.examplesText), (helpOption, c.help)] with
    | some text => return .shown text
    | none => match readRequest c line with
      | .error (.usage p) => return .misuse (some c) p
      | .error (.failure f) => return .failed f
      | .ok request => carryOut s shelf installed c request

/-- Reads the settings and goes on with them. -/
def withSettings (surroundings : Surroundings) (line : Line) (next : Settings → Call σ Outcome) :
    Call σ Outcome := do
  match Settings.load surroundings (line.value? configOption) none (flagsOf line) with
  | .error f => return .failed f
  | .ok s =>
    let outcome ← next s
    return { outcome with setup? := some { verbose := s.verbose, json := s.logJson } }

/-- The program on a command line, with the plugins that installed packages bring, if any do. -/
def program (surroundings : Surroundings) (shelf : ModuleShelf σ) (args : List String)
    (installed : Call σ (PluginRoster σ) := pure .empty) : Call σ Outcome := do
  match readLine programOptions false none args with
  | .error p => return .misuse none p
  | .ok line =>
    match requestedText? line programTexts with
    | some text => return .shown text
    | none => match line.arguments with
      | [] => withSettings surroundings line fun _ => return .shown programHelp
      | name :: rest => match Command.ofName? name with
        | some c => withSettings surroundings line fun s => runCommand s shelf installed c rest
        | none => return unknownCommand name (name :: rest)

/-- The lines of the log that are shown after a run. -/
def shownRecords (o : Outcome) (journal : List LogRecord) : List LogRecord :=
  match o.setup? with
  | some setup => journal.filter setup.shows
  | none => []

/-- A record as a line of the log. A record that JSON has no form for is shown as it is for
people. -/
def recordLine (o : Outcome) (r : LogRecord) : String :=
  match o.setup? with
  | some setup =>
    if setup.json then
      match r.jsonLine with
      | .ok line => line
      | .error _ => r.consoleLine
    else r.consoleLine
  | none => r.consoleLine

end CheckedActions.Cli
