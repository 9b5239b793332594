import CheckedActions.Config.Surroundings

/-!
Finding the configuration file: the one an environment variable names, or else the nearest one at
or above a directory. A variable that names no file leaves the program without configuration.
-/

namespace CheckedActions.Config

def fileName : String := "jackprop.toml"
def fileVariable : String := "JACKPROP_CONFIG"

/-- The directory and those above it, the nearest first. -/
def directoriesUpFrom (parts : List String) : List (List String) :=
  (List.range (parts.length + 1)).map fun i => parts.take (parts.length - i)

/-- The configuration file nearest to a directory. -/
def nearest? (s : Surroundings) (start : List String) : Option Path :=
  ((directoriesUpFrom start).map fun d => (⟨true, d ++ [fileName]⟩ : Path)).find? fun p =>
    (s.read? p).isSome

/-- A path, if it leads to a file. -/
def existing? (s : Surroundings) (text : String) : Option Path :=
  let p := Path.ofString text
  if (s.read? p).isSome then some p else none

/-- The configuration file for a directory, without one for the current directory. -/
def find? (s : Surroundings) (start? : Option Path) : Option Path :=
  match s.lookup? fileVariable with
  | some text =>
    if text.isEmpty then nearest? s (s.resolve (start?.getD ⟨false, []⟩)) else existing? s text
  | none => nearest? s (s.resolve (start?.getD ⟨false, []⟩))

end CheckedActions.Config
