import CheckedActions.Module.Basic

/-!
Modules by dotted name. A module runs when it is first asked for, after the packages its name goes
through; one that has run is kept and becomes an attribute of its package, and one that failed is
tried again the next time.
-/

namespace CheckedActions

structure ModuleShelf (σ : Type) where
  /-- The modules there are, with what runs them. -/
  sources : List (String × Call σ (ModuleContent σ))
  /-- The modules that have run. -/
  loaded : List (String × ModuleContent σ)

namespace ModuleShelf

variable {σ : Type}

def ofSources (sources : List (String × Call σ (ModuleContent σ))) : ModuleShelf σ := ⟨sources, []⟩

/-- The parts of a dotted name up to each of its dots, and the name itself. -/
def pathTo (name : String) : List String :=
  let parts := cutAt (· = '.') name.toList
  (List.range parts.length).map fun i => String.ofList (['.'].intercalate (parts.take (i + 1)))

/-- The name up to its last dot, if it has one. -/
def parent? (name : String) : Option String :=
  let parts := cutAt (· = '.') name.toList
  if parts.length ≤ 1 then none else some (String.ofList (['.'].intercalate parts.dropLast))

/-- The name from its last dot on. -/
def lastPart (name : String) : String :=
  String.ofList ((cutAt (· = '.') name.toList).getLast?.getD [])

/-- Whether some module's name goes on from the given one. -/
def isPackage (s : ModuleShelf σ) (name : String) : Bool :=
  s.sources.any fun (n, _) => (name.toList ++ ['.']).isPrefixOf n.toList

/-- What runs a module; a package that is no module is empty. -/
def source? (s : ModuleShelf σ) (name : String) : Option (Call σ (ModuleContent σ)) :=
  match s.sources.lookup name with
  | some run => some run
  | none => if s.isPackage name then some (pure .empty) else none

/-- The module of a name whose parents have run. -/
def find (s : ModuleShelf σ) (name : String) : Except Failure (Call σ (ModuleContent σ)) :=
  let missing := "No module named " ++ quoteText name
  match parent? name with
  | some parent =>
    if s.isPackage parent then
      match s.source? name with
      | some run => .ok run
      | none => .error (.importFailed missing)
    else .error (.importFailed (missing ++ "; " ++ quoteText parent ++ " is not a package"))
  | none => match s.source? name with
    | some run => .ok run
    | none => .error (.importFailed missing)

/-- Keeps a module that has run, and makes it an attribute of its package. -/
def keep (s : ModuleShelf σ) (name : String) (content : ModuleContent σ) : ModuleShelf σ :=
  let loaded := s.loaded.map fun (n, m) =>
    (n, if parent? name = some n then m.bindInner (lastPart name) else m)
  { s with loaded := loaded ++ [(name, content)] }

/-- Runs the modules of the given names that have not run yet, up to the first failure. -/
def runAll (s : ModuleShelf σ) : List String → Call σ (Except Failure Unit × ModuleShelf σ)
  | [] => return (.ok (), s)
  | name :: names =>
    if (s.loaded.lookup name).isSome then runAll s names
    else do
      match s.find name with
      | .error f => return (.error f, s)
      | .ok run =>
        match ← Call.attempt run with
        | .error f => return (.error f, s)
        | .ok content => runAll (s.keep name content) names

/-- The module of a dotted name, and the shelf afterwards, on which its packages stay if it
fails. -/
def load (s : ModuleShelf σ) (name : String) :
    Call σ (Except Failure (ModuleContent σ) × ModuleShelf σ) := do
  if name.isEmpty then
    return (.error (.host "ValueError" [.str "Empty module name"]), s)
  else if name.toList.head? = some '.' then
    return (.error (.misused ("the 'package' argument is required to perform a relative import for "
      ++ quoteText name)), s)
  else
    let (outcome, s) ← s.runAll (pathTo name)
    return (outcome.map fun _ => (s.loaded.lookup name).getD .empty, s)

end ModuleShelf
end CheckedActions
