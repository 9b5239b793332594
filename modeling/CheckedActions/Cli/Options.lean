import CheckedActions.Text.Blank
import CheckedActions.Text.Quoted
import CheckedActions.Text.Similar

/-!
Options on a command line. An option has a long name and may have a short one of one letter; it
takes a value or is a flag. A value follows its option, or is attached to it: after an equals sign
to a long name, directly to a short one. Short flags can be written together, and two dashes end
the options.
-/

namespace CheckedActions.Cli

structure OptionForm where
  /-- The long name with its dashes. -/
  long : String
  short? : Option Char := none
  takesValue : Bool := false
  deriving DecidableEq

/-- What is wrong with a command line. -/
inductive UsageProblem where
  | noSuchOption (name : String) (alternatives : List String)
  | noSuchCommand (name : String) (alternatives : List String)
  | valueMissing (option : String)
  | valueNotTaken (option : String)
  | argumentMissing (name : String)
  | extraArguments (args : List String)
  | invalidValue (option reason : String)

namespace UsageProblem

def suggestion : List String → String
  | [] => ""
  | [a] => " Did you mean " ++ quoteText a ++ "?"
  | as => " (Did you mean one of: " ++ ", ".intercalate (as.map quoteText) ++ "?)"

def message : UsageProblem → String
  | noSuchOption name alternatives =>
    "No such option " ++ quoteText name ++ "." ++ suggestion alternatives
  | noSuchCommand name alternatives =>
    "No such command " ++ quoteText name ++ "." ++ suggestion alternatives
  | valueMissing option => "Option " ++ quoteText option ++ " requires an argument."
  | valueNotTaken option => "Option " ++ quoteText option ++ " does not take a value."
  | argumentMissing name => "Missing argument " ++ quoteText name ++ "."
  | extraArguments args =>
    "Got unexpected extra argument" ++ (if args.length = 1 then "" else "s") ++ " (" ++
      " ".intercalate args ++ ")"
  | invalidValue option reason => "Invalid value for " ++ quoteText option ++ ": " ++ reason

/-- Whether the usage of the command is shown with the problem. -/
def showsUsage : UsageProblem → Bool
  | valueMissing _ => false
  | valueNotTaken _ => false
  | _ => true

end UsageProblem

/-- An option as it was given. -/
structure Given where
  form : OptionForm
  value? : Option String

/-- A command line in parts. -/
structure Line where
  /-- The options in the order in which they were given. -/
  given : List Given
  arguments : List String

namespace Line

def prepend (g : List Given) (l : Line) : Line := { l with given := g ++ l.given }

/-- Whether an option was given. -/
def has (l : Line) (form : OptionForm) : Bool := l.given.any fun g => g.form = form

/-- The values of an option in order. -/
def values (l : Line) (form : OptionForm) : List String :=
  l.given.filterMap fun g => if g.form = form then g.value? else none

/-- The value of an option, of several the last. -/
def value? (l : Line) (form : OptionForm) : Option String := (l.values form).getLast?

/-- The given options among some, each once, in the order in which they first came. -/
def order (l : Line) (forms : List OptionForm) : List OptionForm :=
  ((l.given.map (·.form)).filter forms.contains).foldl
    (fun seen f => if seen.contains f then seen else seen ++ [f]) []

end Line

/-- Short options written together: those that are complete, and one that still needs a value. -/
def readCluster (forms : List OptionForm) : List Char →
    Except UsageProblem (List Given × Option (OptionForm × String))
  | [] => .ok ([], none)
  | c :: rest =>
    let name := String.ofList ['-', c]
    match forms.find? (·.short? = some c) with
    | none => .error (.noSuchOption name [])
    | some form =>
      if form.takesValue then
        if rest.isEmpty then .ok ([], some (form, name))
        else .ok ([⟨form, some (String.ofList rest)⟩], none)
      else (readCluster forms rest).map fun (given, open?) => (⟨form, none⟩ :: given, open?)

/-- One argument that begins with a dash. -/
def readOption (forms : List OptionForm) (arg : String) :
    Except UsageProblem (List Given × Option (OptionForm × String)) :=
  let cs := arg.toList
  let name := String.ofList (cs.takeWhile (· ≠ '='))
  let attached? := match cs.dropWhile (· ≠ '=') with
    | [] => none
    | _ :: value => some (String.ofList value)
  match forms.find? (·.long = name) with
  | some form =>
    match form.takesValue, attached? with
    | true, some v => .ok ([⟨form, some v⟩], none)
    | true, none => .ok ([], some (form, name))
    | false, some _ => .error (.valueNotTaken name)
    | false, none => .ok ([⟨form, none⟩], none)
  | none =>
    match cs with
    | '-' :: '-' :: _ => .error (.noSuchOption name (closeMatches name (forms.map (·.long))))
    | _ => readCluster forms (cs.drop 1)

/-- Whether an argument is taken for an option. -/
def isOption (arg : String) : Bool :=
  match arg.toList with
  | '-' :: _ :: _ => true
  | _ => false

/-- A command line read from left to right, `open?` being an option that needs a value. With
`mixed`, options may follow arguments; otherwise the first argument ends them. -/
def readLine (forms : List OptionForm) (mixed : Bool) :
    Option (OptionForm × String) → List String → Except UsageProblem Line
  | some (_, name), [] => .error (.valueMissing name)
  | none, [] => .ok ⟨[], []⟩
  | some (form, _), arg :: args =>
    (readLine forms mixed none args).map (Line.prepend [⟨form, some arg⟩])
  | none, arg :: args =>
    if arg = "--" then .ok ⟨[], args⟩
    else if isOption arg then do
      let (given, open?) ← readOption forms arg
      return (← readLine forms mixed open? args).prepend given
    else if mixed then do
      let line ← readLine forms mixed none args
      return { line with arguments := arg :: line.arguments }
    else .ok ⟨[], arg :: args⟩

end CheckedActions.Cli
