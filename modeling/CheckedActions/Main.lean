import CheckedActions.Cli.Program

/-!
The command line of the program. It collects what the program looks at, runs it without any module
of actions, and prints what it leaves behind.
-/

namespace CheckedActions

/-- The environment variables that are set, of those the program knows. -/
def readVariables : IO (List (String × String)) := do
  let names := Config.fileVariable :: Config.knownVariables
  names.filterMapM fun name => do
    return (← IO.getEnv name).map fun text => (name, text)

/-- The text of a file, if there is one. -/
def readFile? (path : String) : IO (Option String) := do
  try
    return some (← IO.FS.readFile path)
  catch _ =>
    return none

/-- The files among the given ones, by the parts of their absolute paths. -/
def readFiles (paths : List (List String)) : IO (List (List String × String)) :=
  paths.filterMapM fun parts => do
    return (← readFile? ("/" ++ "/".intercalate parts)).map fun text => (parts, text)

/-- The program's surroundings, as far as the command line makes it look at them. -/
def readSurroundings (args : List String) : IO Surroundings := do
  let directory := (Path.ofString (← IO.currentDir).toString).parts
  let environment ← readVariables
  let bare : Surroundings := { directory, environment, files := [] }
  let named := (environment.lookup Config.fileVariable).toList ++ args
  let paths := (named.map fun text => bare.resolve (Path.ofString text)) ++
    (Config.directoriesUpFrom directory).map fun d => d ++ [Config.fileName]
  return { bare with files := ← readFiles paths }

/-- The last line about a failure that nothing deals with. -/
def Failure.report (f : Failure) : String :=
  f.kind ++ ": " ++ match f.message with
    | .ok text => text
    | .error _ => "<exception str() failed>"

end CheckedActions

open CheckedActions in
def main (args : List String) : IO UInt32 := do
  let surroundings ← readSurroundings args
  let shelf : ModuleShelf Unit := .ofSources []
  let (outcome, scene) := (Cli.program surroundings shelf args).runIn ⟨[], [], 0, ()⟩
  match outcome with
  | .error f =>
    IO.eprintln f.report
    return 1
  | .ok o =>
    for r in Cli.shownRecords o scene.journal do
      IO.eprintln (Cli.recordLine o r)
    IO.print o.stdout
    IO.eprint o.stderr
    match o.raised? with
    | some f => IO.eprintln f.report
    | none => pure ()
    return o.exitCode.toUInt32
