import CheckedActions.Failure
import CheckedActions.Log.Record

/-!
Calls: computations that may fail, write log records, and change the data of the program around
the library, whose type is left open. A failing call keeps the effects it has had. A value that
several parties hold and can change lies in a cell beside that data.
-/

namespace CheckedActions

/-- What a call works on. -/
structure Scene (σ : Type) where
  /-- The keys that every log record carries for now. -/
  bound : LogKeys
  /-- The records written so far, oldest first. -/
  journal : List LogRecord
  /-- How many actions have been made. -/
  made : Nat
  /-- The data of the surrounding program. -/
  host : σ

/-- The data of the surrounding program with a cell beside it. -/
structure Celled (σ : Type) where
  data : σ
  cell : Value

namespace Scene

variable {σ : Type}

/-- The scene with a value in a cell. -/
def celled (s : Scene σ) (v : Value) : Scene (Celled σ) := ⟨s.bound, s.journal, s.made, ⟨s.host, v⟩⟩

/-- The scene without the cell. -/
def uncelled (s : Scene (Celled σ)) : Scene σ := ⟨s.bound, s.journal, s.made, s.host.data⟩

end Scene

abbrev Call (σ : Type) := ExceptT Failure (StateM (Scene σ))

namespace Call

variable {σ α : Type}

/-- The outcome of a call and the scene it leaves. -/
def runIn (c : Call σ α) (s : Scene σ) : Except Failure α × Scene σ := StateT.run (ExceptT.run c) s

/-- Runs a call and returns its outcome, whatever it is. -/
def attempt (c : Call σ α) : Call σ (Except Failure α) :=
  ExceptT.mk do
    let outcome ← ExceptT.run c
    pure (.ok outcome)

/-- A call with the given outcome and no effect. -/
def ofExcept (r : Except Failure α) : Call σ α := ExceptT.mk (pure r)

@[simp] theorem runIn_pure (a : α) (s : Scene σ) : runIn (pure a : Call σ α) s = (.ok a, s) := rfl

@[simp] theorem runIn_throw (f : Failure) (s : Scene σ) :
    runIn (throw f : Call σ α) s = (.error f, s) := rfl

@[simp] theorem runIn_attempt (c : Call σ α) (s : Scene σ) :
    runIn (attempt c) s = (.ok (runIn c s).1, (runIn c s).2) := rfl

@[simp] theorem runIn_ofExcept (r : Except Failure α) (s : Scene σ) :
    runIn (ofExcept r) s = (r, s) := rfl

theorem runIn_bind {β : Type} (c : Call σ α) (k : α → Call σ β) (s : Scene σ) :
    runIn (c >>= k) s = match runIn c s with
      | (.ok a, s') => runIn (k a) s'
      | (.error f, s') => (.error f, s') := by
  simp only [runIn, bind, ExceptT.bind, ExceptT.run, ExceptT.mk, StateT.bind, StateT.run]
  rcases c s with ⟨_ | _, s'⟩ <;> rfl

/-- Writes a record with the keys bound now and further keys, which go over them. -/
def logWith (level : LogLevel) (logger event : String) (keys : LogKeys) : Call σ Unit :=
  modify fun s =>
    { s with journal := s.journal ++ [⟨level, logger, event, s.bound.overlay keys⟩] }

/-- Writes a record with the keys bound now. -/
def log (level : LogLevel) (logger event : String) : Call σ Unit := logWith level logger event []

/-- A number no action has been given yet. -/
def freshId : Call σ Nat :=
  modifyGet fun s => (s.made, { s with made := s.made + 1 })

/-- Runs a call with a name bound in its log records, and afterwards gives the name back the value
it had before, also when the call fails. -/
def withKey (name : String) (v : Value) (c : Call σ α) : Call σ α := do
  let before := (← get).bound.get? name
  modify fun s => { s with bound := s.bound.put name v }
  let outcome ← attempt c
  modify fun s => { s with bound := match before with
    | some old => s.bound.put name old
    | none => s.bound.erase name }
  ofExcept outcome

/-- Runs a call with an action's name bound in its log records. -/
def withAction (name : String) (c : Call σ α) : Call σ α := withKey "action" (.str name) c

/-- Runs a call with a command's name bound in its log records. -/
def withCommand (name : String) (c : Call σ α) : Call σ α := withKey "command" (.str name) c

def readCell : Call (Celled σ) Value := do return (← get).host.cell

/-- Runs a call with a value in a cell. Whatever the outcome, it comes with what is in the cell at
the end. -/
def withCell (v : Value) (c : Call (Celled σ) α) : Call σ (Except Failure α × Value) :=
  ExceptT.mk fun s =>
    let (outcome, t) := c.runIn (s.celled v)
    (.ok (outcome, t.host.cell), t.uncelled)

/-- A call that leaves the cell alone. -/
def besideCell (c : Call σ α) : Call (Celled σ) α :=
  ExceptT.mk fun s =>
    let (outcome, t) := c.runIn s.uncelled
    (outcome, t.celled s.host.cell)

end Call
end CheckedActions
