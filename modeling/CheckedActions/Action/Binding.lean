import CheckedActions.Call
import CheckedActions.Validator.Workbench

/-!
Binding actions to a store: every function of a table takes the store as its first argument. The
table is copied when the binder is made, so later changes of the table do not reach it. What an
argument is does not matter here: it can be a value alone, or one that comes with a name.
-/

namespace CheckedActions

variable {σ α : Type}

/-- A function of any number of arguments. -/
abbrev Procedure (σ : Type) (α : Type := Value) := List α → Call σ Value

/-- Named functions in order. -/
abbrev ProcedureTable (σ : Type) (α : Type := Value) := List (String × Procedure σ α)

/-- The functions with the store as their first argument. -/
def bindToStore (actions : ProcedureTable σ α) (store : α) : ProcedureTable σ α :=
  actions.map fun (name, f) => (name, fun args => f (store :: args))

/-- A table that can change, the copy its binder was made from, and the tables bound so far. -/
structure BindingRun (σ : Type) (α : Type := Value) where
  table : ProcedureTable σ α
  snapshot : ProcedureTable σ α
  bound : List (ProcedureTable σ α)

inductive BindingCommand (σ : Type) (α : Type := Value) where
  | bind (store : α)
  | add (name : String) (f : Procedure σ α)
  | call (table : Nat) (name : String) (args : List α)

inductive BindingAnswer where
  | names (names : List String)
  | value (v : Value)

namespace BindingRun

def start (actions : ProcedureTable σ α) : BindingRun σ α := ⟨actions, actions, []⟩

/-- The function of a name in a bound table. -/
def find (r : BindingRun σ α) (table : Nat) (name : String) : Except Failure (Procedure σ α) :=
  match (r.bound[table]?.getD []).lookup name with
  | some f => .ok f
  | none => .error (.missingKey (.str name))

def step (r : BindingRun σ α) : BindingCommand σ α → Call σ (BindingAnswer × BindingRun σ α)
  | .bind store =>
    let t := bindToStore r.snapshot store
    pure (.names (t.map (·.1)), { r with bound := r.bound ++ [t] })
  | .add name f =>
    let t := putNamed r.table name f
    pure (.names (t.map (·.1)), { r with table := t })
  | .call table name args => do
    let f ← Call.ofExcept (r.find table name)
    return (.value (← f args), r)

end BindingRun
end CheckedActions
