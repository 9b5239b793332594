import CheckedActions.Named
import CheckedActions.Validator.Label

/-!
A workbench of named validators and named field tables. Validators are defined from others. A table
is a dictionary that changes entry by entry; it lies in a cell, and whoever has the address of the
cell sees what the dictionary holds at the moment. A shape copies the dictionary of a table to a
cell of its own, which no table has, so nothing changes a validator after its definition.
-/

namespace CheckedActions

variable {σ : Type}

/-- A step of a validator on the bench. The fields of a shape lie in a cell. -/
inductive BenchStep (σ : Type) where
  | made (s : Step σ)
  | fieldsAt (address : Nat)

/-- What a dictionary has under a key: a field that is made, or a validator on the bench. -/
inductive BenchField (σ : Type) where
  | made (f : Field σ)
  | chain (steps : List (BenchStep σ))

abbrev FieldCell (σ : Type) := List (String × BenchField σ)

/-- What looking for the fields comes to when the addresses go in a circle. -/
def endlessFields : Step σ :=
  .optional ⟨none, fun _ =>
    throw (.host "RecursionError" [.str "maximum recursion depth exceeded"])⟩ none

/-- The step that a step on the bench stands for while the cells are as they are. More addresses
than there are cells can only be followed in a circle. -/
def BenchStep.follow (cells : List (FieldCell σ)) : Nat → BenchStep σ → Step σ
  | _, .made s => s
  | 0, .fieldsAt _ => endlessFields
  | depth + 1, .fieldsAt a => .fields ((cells[a]?.getD []).map fun (key, f) => (key, match f with
    | .made f => f
    | .chain steps => .checked (steps.map (follow cells depth))))

/-- A validator on the bench; two names hold the same one when the numbers agree. -/
structure BenchItem (σ : Type) where
  number : Nat
  steps : List (BenchStep σ)
  label : String

structure Workbench (σ : Type) where
  items : List (String × BenchItem σ)
  /-- The addresses of the tables. -/
  tables : List (String × Nat)
  cells : List (FieldCell σ)
  next : Nat

/-- What can be asked of a bench. -/
inductive BenchCommand (σ : Type) where
  /-- Names a validator extended by steps, if these could be made. -/
  | define (name base : String) (steps : Except Failure (Validator σ))
  /-- Names a validator extended by a shape of a table's entries. -/
  | defineShape (name base table : String)
  | setField (table key : String) (field : Except Failure (Field σ))
  /-- Sets a table's entry to a named validator. -/
  | setFieldNamed (table key name : String)
  | check (name : String) (v : Value)
  | label (name : String)
  | same (left right : String)
  | assign (name field : String)

inductive BenchAnswer where
  | text (s : String)
  | keys (names : List String)
  | value (v : Value)
  | same (identical equal : Bool)

namespace Workbench

/-- The bench to start with: the validator that accepts everything, and a second one like it. -/
def initial (first second : String) : Workbench σ :=
  { items := [(first, ⟨0, [], ""⟩), (second, ⟨1, [], ""⟩)]
    tables := []
    cells := []
    next := 2 }

/-- The dictionary of a table. -/
def table (w : Workbench σ) (name : String) : FieldCell σ :=
  ((w.tables.lookup name).bind fun a => w.cells[a]?).getD []

/-- The validator that steps on the bench make up. -/
def validatorOf (w : Workbench σ) (steps : List (BenchStep σ)) : Validator σ :=
  steps.map (BenchStep.follow w.cells w.cells.length)

/-- The fields that a dictionary declares. -/
def fieldsOf (w : Workbench σ) (cell : FieldCell σ) : List (String × Field σ) :=
  cell.map fun (key, f) => (key, match f with
    | .made f => f
    | .chain steps => .checked (w.validatorOf steps))

/-- Puts a validator under a name: another one extended by steps. Extended by none it is that one
itself. -/
def store (w : Workbench σ) (name : String) (base : BenchItem σ) (steps : List (BenchStep σ))
    (label : String) : Workbench σ :=
  if steps.isEmpty then { w with items := putNamed w.items name base }
  else
    { w with
      items := putNamed w.items name ⟨w.next, base.steps ++ steps, label⟩
      next := w.next + 1 }

/-- Puts a copy of a dictionary into a cell of its own. -/
def copy (w : Workbench σ) (cell : FieldCell σ) : Workbench σ :=
  { w with cells := w.cells ++ [cell] }

/-- Sets an entry of a table, which is made if it is not there. -/
def setEntry (w : Workbench σ) (table key : String) (f : BenchField σ) : Workbench σ :=
  match w.tables.lookup table with
  | some a => { w with cells := w.cells.set a (putNamed (w.table table) key f) }
  | none =>
    { w with
      tables := w.tables ++ [(table, w.cells.length)]
      cells := w.cells ++ [[(key, f)]] }

end Workbench

/-- Work on a bench. It can fail, and what it has done to the bench before stays done. -/
abbrev BenchWork (σ : Type) := ExceptT Failure (StateT (Workbench σ) (StateM (Scene σ)))

namespace BenchWork

variable {α : Type}

/-- The outcome of work on a bench, with the bench and the scene that it leaves. -/
def runOn (c : BenchWork σ α) (w : Workbench σ) (s : Scene σ) :
    (Except Failure α × Workbench σ) × Scene σ := ((ExceptT.run c).run w).run s

def ofCall (c : Call σ α) : BenchWork σ α := ExceptT.mk (StateT.lift (ExceptT.run c))

def ofExcept (r : Except Failure α) : BenchWork σ α := ExceptT.mk (pure r)

def item (name : String) : BenchWork σ (BenchItem σ) := do
  match (← get).items.lookup name with
  | some i => return i
  | none => throw (.missingKey (.str name))

/-- Names a validator extended by steps that are added to its label, and answers with the label. -/
def store (name : String) (base : BenchItem σ) (steps : List (BenchStep σ))
    (named : Validator σ) : BenchWork σ BenchAnswer := do
  let label := named.labelAfter base.label
  modify fun w => w.store name base steps label
  return .text label

def setEntry (table key : String) (f : BenchField σ) : BenchWork σ BenchAnswer := do
  modify fun w => w.setEntry table key f
  return .keys (((← get).table table).map (·.1))

/-- What setting a field of a validator fails with: it has two fields, which stay as they are, and
room for no other. -/
def assignFailure (field : String) : Failure :=
  if field = "fn" ∨ field = "label" then .frozenField field
  else .misused "super(type, obj): obj must be an instance or subtype of type"

/-- Carries a command out. -/
def carryOut : BenchCommand σ → BenchWork σ BenchAnswer
  | .define name base steps => do
    let b ← item base
    let steps ← ofExcept steps
    store name b (steps.map .made) steps
  | .defineShape name base table => do
    let b ← item base
    let w ← get
    let cell := w.table table
    modify fun w => w.copy cell
    store name b [.made (.typeOf .object), .fieldsAt w.cells.length]
      (Validator.root.shape (w.fieldsOf cell))
  | .setField table key f => do setEntry table key (.made (← ofExcept f))
  | .setFieldNamed table key name => do setEntry table key (.chain (← item name).steps)
  | .check name v => do
    let i ← item name
    let w ← get
    return .value (← ofCall ((w.validatorOf i.steps).validate v))
  | .label name => return .text (← item name).label
  | .same left right => do
    let a ← item left
    let b ← item right
    let identical := a.number = b.number
    let bothRoot := a.steps.isEmpty && b.steps.isEmpty
    return .same identical (identical || bothRoot)
  | .assign name field => do
    let _ ← item name
    throw (assignFailure field)

end BenchWork

namespace Workbench

/-- The answer to a command and the bench after it. -/
def step (w : Workbench σ) (c : BenchCommand σ) : Call σ (BenchAnswer × Workbench σ) :=
  ExceptT.mk fun s =>
    match (BenchWork.carryOut c).runOn w s with
    | ((.ok answer, w'), t) => (.ok (answer, w'), t)
    | ((.error f, _), t) => (.error f, t)

end Workbench
end CheckedActions
