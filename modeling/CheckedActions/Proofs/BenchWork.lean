import CheckedActions.Proofs.Runs
import CheckedActions.Validator.Workbench

/-!
Work on a bench. Carrying out a command either reads the bench only, or reads it first and then
changes it without failing. So a command that fails leaves the bench as it is.
-/

namespace CheckedActions

variable {σ α β : Type}

namespace BenchWork

theorem runOn_get (w : Workbench σ) (s : Scene σ) :
    runOn (get : BenchWork σ (Workbench σ)) w s = ((.ok w, w), s) := rfl

theorem runOn_ofCall (c : Call σ α) (w : Workbench σ) (s : Scene σ) :
    runOn (ofCall c) w s = (((c.runIn s).1, w), (c.runIn s).2) := rfl

theorem runOn_bind (c : BenchWork σ α) (k : α → BenchWork σ β) (w : Workbench σ) (s : Scene σ) :
    runOn (c >>= k) w s = match runOn c w s with
      | ((.ok a, w'), s') => runOn (k a) w' s'
      | ((.error f, w'), s') => ((.error f, w'), s') := by
  simp only [runOn, bind, ExceptT.bind, ExceptT.run, ExceptT.mk, StateT.bind, StateT.run]
  rcases c w s with ⟨⟨_ | _, w'⟩, s'⟩ <;> rfl

theorem runOn_item (name : String) (w : Workbench σ) (s : Scene σ) :
    runOn (item name) w s = ((match w.items.lookup name with
      | some i => .ok i
      | none => .error (.missingKey (.str name)), w), s) := by
  unfold item
  rw [runOn_bind, runOn_get]
  dsimp only
  cases w.items.lookup name <;> rfl

theorem runOn_item_bind_some {name : String} {w : Workbench σ} {i : BenchItem σ}
    (h : w.items.lookup name = some i) (k : BenchItem σ → BenchWork σ α) (s : Scene σ) :
    runOn (item name >>= k) w s = runOn (k i) w s := by
  rw [runOn_bind, runOn_item, h]

theorem runOn_item_bind_none {name : String} {w : Workbench σ} (h : w.items.lookup name = none)
    (k : BenchItem σ → BenchWork σ α) (s : Scene σ) :
    runOn (item name >>= k) w s = ((.error (.missingKey (.str name)), w), s) := by
  rw [runOn_bind, runOn_item, h]

/-- The work leaves the bench as it is. -/
def Reads (c : BenchWork σ α) : Prop := ∀ w s, (c.runOn w s).1.2 = w

/-- The work leaves the bench as it is if it fails. -/
def FailsClean (c : BenchWork σ α) : Prop :=
  ∀ w s, (c.runOn w s).1.1.isOk = false → (c.runOn w s).1.2 = w

theorem reads_pure (a : α) : Reads (pure a : BenchWork σ α) := fun _ _ => rfl

theorem reads_throw (f : Failure) : Reads (throw f : BenchWork σ α) := fun _ _ => rfl

theorem reads_get : Reads (get : BenchWork σ (Workbench σ)) := fun _ _ => rfl

theorem reads_ofExcept (r : Except Failure α) : Reads (ofExcept r : BenchWork σ α) :=
  fun _ _ => rfl

theorem reads_ofCall (c : Call σ α) : Reads (ofCall c) := fun _ _ => rfl

theorem reads_item (name : String) : Reads (item name : BenchWork σ (BenchItem σ)) := by
  intro w s
  rw [runOn_item]

theorem Reads.bind {c : BenchWork σ α} {k : α → BenchWork σ β} (hc : c.Reads)
    (hk : ∀ a, (k a).Reads) : (c >>= k).Reads := by
  intro w s
  have hw := hc w s
  rw [runOn_bind]
  generalize c.runOn w s = ran at hw ⊢
  rcases ran with ⟨⟨f | a, w'⟩, t⟩
  · exact hw
  · exact (hk a w' t).trans hw

theorem Reads.failsClean {c : BenchWork σ α} (hc : c.Reads) : c.FailsClean :=
  fun w s _ => hc w s

/-- Reading comes before the work that changes something. -/
theorem Reads.bind_failsClean {c : BenchWork σ α} {k : α → BenchWork σ β} (hc : c.Reads)
    (hk : ∀ a, (k a).FailsClean) : (c >>= k).FailsClean := by
  intro w s
  have hw := hc w s
  rw [runOn_bind]
  generalize c.runOn w s = ran at hw ⊢
  rcases ran with ⟨⟨f | a, w'⟩, t⟩
  · exact fun _ => hw
  · exact fun hfailed => (hk a w' t hfailed).trans hw

theorem failsClean_store (name : String) (b : BenchItem σ) (steps : List (BenchStep σ))
    (named : Validator σ) : (store name b steps named).FailsClean :=
  fun _ _ hfailed => nomatch hfailed

theorem failsClean_setEntry (table key : String) (f : BenchField σ) :
    (setEntry table key f).FailsClean := fun _ _ hfailed => nomatch hfailed

theorem reads_check (name : String) (v : Value) : (carryOut (σ := σ) (.check name v)).Reads :=
  (reads_item name).bind fun _ => reads_get.bind fun _ => (reads_ofCall _).bind fun _ =>
    reads_pure _

theorem reads_label (name : String) : (carryOut (σ := σ) (.label name)).Reads :=
  (reads_item name).bind fun _ => reads_pure _

theorem reads_same (left right : String) : (carryOut (σ := σ) (.same left right)).Reads :=
  (reads_item left).bind fun _ => (reads_item right).bind fun _ => reads_pure _

theorem reads_assign (name field : String) : (carryOut (σ := σ) (.assign name field)).Reads :=
  (reads_item name).bind fun _ => reads_throw _

/-- A command that fails leaves the bench as it is. -/
theorem failsClean_carryOut (c : BenchCommand σ) : (carryOut c).FailsClean := by
  cases c with
  | define name base steps =>
    exact (reads_item base).bind_failsClean fun b => (reads_ofExcept steps).bind_failsClean fun _ =>
      failsClean_store name b _ _
  | defineShape name base table =>
    apply (reads_item base).bind_failsClean
    intro b w s hfailed
    nomatch hfailed
  | setField table key f =>
    exact (reads_ofExcept f).bind_failsClean fun _ => failsClean_setEntry table key _
  | setFieldNamed table key name =>
    exact (reads_item name).bind_failsClean fun _ => failsClean_setEntry table key _
  | check name v => exact (reads_check name v).failsClean
  | label name => exact (reads_label name).failsClean
  | same left right => exact (reads_same left right).failsClean
  | assign name field => exact (reads_assign name field).failsClean

end BenchWork

end CheckedActions
