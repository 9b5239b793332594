import CheckedActions.Action.Binding
import CheckedActions.Proofs.Runs

/-!
Tables bound to stores. Whatever is bound, added or called, a bound table has the names of the table
that its binder was made from, and a call on it is one of that table's own function on the bound
store.
-/

namespace CheckedActions

variable {σ α : Type}

theorem names_bindToStore (actions : ProcedureTable σ α) (store : α) :
    (bindToStore actions store).map (·.1) = actions.map (·.1) := by
  rw [bindToStore, List.map_map]
  rfl

theorem lookup_bindToStore (actions : ProcedureTable σ α) (store : α) (name : String) :
    (bindToStore actions store).lookup name =
      (actions.lookup name).map fun f args => f (store :: args) :=
  lookup_map (fun (f : Procedure σ α) args => f (store :: args)) actions name

/-- A call of the function of a name on a store and further arguments. -/
def callOn (actions : ProcedureTable σ α) (store : α) (name : String) (args : List α) :
    Call σ Value :=
  match actions.lookup name with
  | some f => f (store :: args)
  | none => throw (.missingKey (.str name))

/-- The store that a command binds, if it binds one. -/
def BindingCommand.store? : BindingCommand σ α → Option α
  | bind store => some store
  | _ => none

/-- Commands that were carried out, each with its outcome. -/
abbrev BindingLog (σ α : Type) := List (BindingCommand σ α × Except Failure BindingAnswer)

namespace BindingRun

/-- Commands are carried out one after another, and one that fails leaves the tables as they are. -/
inductive Runs : BindingRun σ α → Scene σ → BindingLog σ α → BindingRun σ α → Scene σ → Prop
  | done (r : BindingRun σ α) (s : Scene σ) : Runs r s [] r s
  | returned {r q p : BindingRun σ α} {s t u : Scene σ} {c : BindingCommand σ α}
      {answer : BindingAnswer} {rest : BindingLog σ α}
      (h : (r.step c).runIn s = (.ok (answer, q), t)) (hrest : Runs q t rest p u) :
      Runs r s ((c, .ok answer) :: rest) p u
  | failed {r p : BindingRun σ α} {s t u : Scene σ} {c : BindingCommand σ α} {f : Failure}
      {rest : BindingLog σ α}
      (h : (r.step c).runIn s = (.error f, t)) (hrest : Runs r t rest p u) :
      Runs r s ((c, .error f) :: rest) p u

/-- Any commands can be carried out. -/
theorem exists_runs (commands : List (BindingCommand σ α)) (r : BindingRun σ α) (s : Scene σ) :
    ∃ steps q t, Runs r s steps q t ∧ steps.map (·.1) = commands := by
  induction commands generalizing r s with
  | nil => exact ⟨[], r, s, .done r s, rfl⟩
  | cons c commands ih =>
    rcases h : (r.step c).runIn s with ⟨f | ⟨answer, q⟩, t⟩
    · obtain ⟨rest, p, u, hrest, hcommands⟩ := ih r t
      exact ⟨_, p, u, .failed h hrest, by rw [List.map_cons, hcommands]⟩
    · obtain ⟨rest, p, u, hrest, hcommands⟩ := ih q t
      exact ⟨_, p, u, .returned h hrest, by rw [List.map_cons, hcommands]⟩

section Runs

variable {r p : BindingRun σ α} {s t u : Scene σ}

/-- What was carried out first leads to where the rest starts. -/
theorem Runs.split {before after : BindingLog σ α} (h : Runs r s (before ++ after) p u) :
    ∃ q t, Runs r s before q t ∧ Runs q t after p u := by
  induction before generalizing r s with
  | nil => exact ⟨r, s, .done r s, h⟩
  | cons x before ih =>
    cases h with
    | returned hstep hrest =>
      obtain ⟨q, t, hbefore, hafter⟩ := ih hrest
      exact ⟨q, t, .returned hstep hbefore, hafter⟩
    | failed hstep hrest =>
      obtain ⟨q, t, hbefore, hafter⟩ := ih hrest
      exact ⟨q, t, .failed hstep hbefore, hafter⟩

/-- A first command that leaves the tables as they are has its own outcome, and the rest starts from
the same tables. -/
theorem Runs.of_unchanged {β : Type} {c : BindingCommand σ α}
    {outcome : Except Failure BindingAnswer} {rest : BindingLog σ α} {x : Except Failure β}
    {f : β → BindingAnswer} (h : Runs r s ((c, outcome) :: rest) p u)
    (hstep : (r.step c).runIn s = (x.map fun a => (f a, r), t)) :
    outcome = x.map f ∧ Runs r t rest p u := by
  cases x with
  | error e =>
    cases h with
    | returned hs hrest => cases hstep.symm.trans hs
    | failed hs hrest =>
      cases hstep.symm.trans hs
      exact ⟨rfl, hrest⟩
  | ok a =>
    cases h with
    | returned hs hrest =>
      cases hstep.symm.trans hs
      exact ⟨rfl, hrest⟩
    | failed hs hrest => cases hstep.symm.trans hs

end Runs

/-- The stores that were bound, in order. -/
def stores (steps : BindingLog σ α) : List α := steps.filterMap (·.1.store?)

theorem stores_cons (c : BindingCommand σ α) (outcome : Except Failure BindingAnswer)
    (steps : BindingLog σ α) :
    stores ((c, outcome) :: steps) = c.store?.toList ++ stores steps := by
  rw [stores, List.filterMap_cons]
  cases h : c.store? <;> rfl

/-- The copy is still that of the actions, and it has been bound to the given stores. -/
structure Holds (r : BindingRun σ α) (actions : ProcedureTable σ α) (given : List α) : Prop where
  snapshot : r.snapshot = actions
  bound : r.bound = given.map (bindToStore actions)

section Holds

variable {r q : BindingRun σ α} {actions : ProcedureTable σ α} {given : List α}

theorem holds_start (actions : ProcedureTable σ α) : (start actions).Holds actions [] := ⟨rfl, rfl⟩

/-- Only a call can fail, and it changes no table. -/
theorem Holds.step {s t : Scene σ} {c : BindingCommand σ α} {answer : BindingAnswer}
    (h : r.Holds actions given) (hstep : (r.step c).runIn s = (.ok (answer, q), t)) :
    q.Holds actions (given ++ c.store?.toList) := by
  cases c with
  | bind store =>
    cases hstep
    refine ⟨h.snapshot, ?_⟩
    change r.bound ++ [bindToStore r.snapshot store] = _
    rw [h.bound, h.snapshot, List.map_append]
    rfl
  | add name f =>
    cases hstep
    change Holds _ actions (given ++ [])
    rw [List.append_nil]
    exact ⟨h.snapshot, h.bound⟩
  | call table name args =>
    obtain ⟨f, u, -, hcall⟩ := Call.runIn_bind_eq_ok_iff.1 hstep
    obtain ⟨v, w, -, hlast⟩ := Call.runIn_bind_eq_ok_iff.1 hcall
    cases hlast
    change r.Holds actions (given ++ [])
    rwa [List.append_nil]

theorem store?_of_failed {s t : Scene σ} {c : BindingCommand σ α} {f : Failure}
    (hstep : (r.step c).runIn s = (.error f, t)) : c.store? = none := by
  cases c with
  | bind store => cases hstep
  | add name f => rfl
  | call table name args => rfl

theorem Runs.holds {s t : Scene σ} {steps : BindingLog σ α} (hr : Runs r s steps q t)
    (h : r.Holds actions given) : q.Holds actions (given ++ stores steps) := by
  induction hr generalizing given with
  | done r s => rwa [stores, List.filterMap_nil, List.append_nil]
  | returned hstep hrest ih =>
    rw [stores_cons, ← List.append_assoc]
    exact ih (h.step hstep)
  | failed hstep hrest ih =>
    rw [stores_cons, store?_of_failed hstep]
    exact ih h

/-- The names of bound tables are those of the copied one. -/
theorem Holds.names (h : r.Holds actions given) :
    r.bound.map (fun table => table.map (·.1)) = given.map fun _ => actions.map (·.1) := by
  rw [h.bound, List.map_map]
  exact List.map_congr_left fun store _ => names_bindToStore actions store

/-- A call on a bound table is one of the copied function on its store. -/
theorem Holds.step_call (h : r.Holds actions given) {i : Nat} {store : α}
    (hi : given[i]? = some store) (name : String) (args : List α) :
    r.step (.call i name args) =
      (fun v => (BindingAnswer.value v, r)) <$> callOn actions store name args := by
  have hfind : r.find i name = match actions.lookup name with
      | some f => .ok fun args => f (store :: args)
      | none => .error (.missingKey (.str name)) := by
    rw [find, h.bound, List.getElem?_map, hi]
    change (match (bindToStore actions store).lookup name with | some f => _ | none => _) = _
    rw [lookup_bindToStore]
    cases actions.lookup name <;> rfl
  rw [BindingRun.step, hfind, callOn, map_eq_pure_bind]
  cases actions.lookup name <;> rfl

end Holds

/-- Any commands can be carried out after a binder is made. Then there is one bound table for every
store, with the names of the table as it was when the binder was made. A call on the table of a
store is one of that table's function on the store and the arguments, now as at any time before,
whatever has been bound, added, replaced or called, and it leaves all tables as they are. -/
theorem bound_tables_stay (actions : ProcedureTable σ α) (s₀ : Scene σ) :
    (∀ commands, ∃ steps r s, Runs (start actions) s₀ steps r s ∧ steps.map (·.1) = commands) ∧
    ∀ {steps r s}, Runs (start actions) s₀ steps r s →
      r.bound.map (fun table => table.map (·.1)) =
        (stores steps).map (fun _ => actions.map (·.1)) ∧
      (∀ i store name args, (stores steps)[i]? = some store →
        r.step (.call i name args) =
          (fun v => (.value v, r)) <$> callOn actions store name args) ∧
      ∀ before i name args outcome after store,
        steps = before ++ (.call i name args, outcome) :: after →
        (stores before)[i]? = some store →
        ∃ q u x t, Runs (start actions) s₀ before q u ∧
          (callOn actions store name args).runIn u = (x, t) ∧ outcome = x.map .value ∧
          Runs q t after r s := by
  refine ⟨fun commands => exists_runs commands _ s₀, fun {steps r s} hruns => ?_⟩
  have hholds := hruns.holds (holds_start actions)
  refine ⟨hholds.names, fun i store name args hi => hholds.step_call hi name args, ?_⟩
  rintro before i name args outcome after store rfl hi
  obtain ⟨q, u, hbefore, hrest⟩ := hruns.split
  have hcall := (hbefore.holds (holds_start actions)).step_call hi name args
  have hstep := (congrArg (Call.runIn · u) hcall).trans (Call.runIn_map _ _ u)
  obtain ⟨houtcome, hafter⟩ := hrest.of_unchanged hstep
  exact ⟨q, u, _, _, hbefore, rfl, houtcome, hafter⟩

/-- A value by position, or one with a name. -/
inductive Argument where
  | item (v : Value)
  | named (name : String) (v : Value)

/-- Tells what it is given, and counts how often it was called. -/
def recount : Procedure Nat Argument := fun args => do
  modify fun s => { s with host := s.host + 1 }
  return .list (args.map fun
    | .item v => v
    | .named name v => .tuple [.str name, v])

/-- Fails, whatever it is given. -/
def forget : Procedure Nat Argument := fun _ => throw (.host "RuntimeError" [.str "forgotten"])

/-- Two tables are bound, the function in the table they come from being replaced in between, and
the second is called. Each still calls the first function, on its own store. -/
theorem recount_stays : ∃ r s, Runs (start [("recount", recount)]) (.initial 0)
      [(.bind (.item (.str "first")), .ok (.names ["recount"])),
        (.add "recount" forget, .ok (.names ["recount"])),
        (.bind (.item (.str "second")), .ok (.names ["recount"])),
        (.call 1 "recount" [.item .null], .ok (.value (.list [.str "second", .null])))] r s ∧
    r.bound.map (fun table => table.map (·.1)) = [["recount"], ["recount"]] ∧
    r.step (.call 0 "recount" [.named "suffix" (.str "!")]) = (fun v => (.value v, r)) <$>
      recount [.item (.str "first"), .named "suffix" (.str "!")] ∧
    ∃ u t, (recount [.item (.str "second"), .item .null]).runIn u =
      (.ok (.list [.str "second", .null]), t) := by
  have hruns : Runs (start [("recount", recount)]) (.initial 0)
      [(.bind (.item (.str "first")), .ok (.names ["recount"])),
        (.add "recount" forget, .ok (.names ["recount"])),
        (.bind (.item (.str "second")), .ok (.names ["recount"])),
        (.call 1 "recount" [.item .null], .ok (.value (.list [.str "second", .null])))] _ _ :=
    .returned rfl (.returned rfl (.returned rfl (.returned rfl (.done _ _))))
  obtain ⟨hnames, hcalls, hcarried⟩ := (bound_tables_stay _ _).2 hruns
  obtain ⟨q, u, x, t, -, hcall, houtcome, -⟩ :=
    hcarried [_, _, _] 1 "recount" [.item .null] _ [] _ rfl rfl
  refine ⟨_, _, hruns, hnames, hcalls 0 _ "recount" _ rfl, u, t, ?_⟩
  cases x with
  | error f => cases houtcome
  | ok v =>
    cases houtcome
    exact hcall

end BindingRun
end CheckedActions
