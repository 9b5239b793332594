import CheckedActions.Proofs.Runs

/-!
The journal. Scenes are alike when they differ in their journals at most, and a call ignores the
journal when it does the same in all scenes that are alike. Writing records is ignoring them.
-/

namespace CheckedActions

variable {σ α β : Type}

namespace Scene

/-- Two scenes differ in their journals at most. -/
def Alike (s t : Scene σ) : Prop := ∃ journal, t = { s with journal }

theorem Alike.refl (s : Scene σ) : s.Alike s := ⟨s.journal, rfl⟩

theorem Alike.symm {s t : Scene σ} (h : s.Alike t) : t.Alike s := by
  obtain ⟨journal, rfl⟩ := h
  exact ⟨s.journal, rfl⟩

theorem Alike.trans {s t u : Scene σ} (hst : s.Alike t) (htu : t.Alike u) : s.Alike u := by
  obtain ⟨journal, rfl⟩ := hst
  obtain ⟨journal', rfl⟩ := htu
  exact ⟨journal', rfl⟩

theorem alike_logged (s : Scene σ) (level : LogLevel) (logger event : String) :
    s.Alike (s.logged level logger event) := ⟨_, rfl⟩

/-- Records can be written to both sides. -/
theorem Alike.logged {s t : Scene σ} (h : s.Alike t) (level : LogLevel) (logger event : String) :
    (s.logged level logger event).Alike (t.logged level logger event) :=
  ((alike_logged s level logger event).symm.trans h).trans (alike_logged t level logger event)

end Scene

namespace Call

/-- The call does the same in scenes that are alike. -/
def IgnoresJournal (c : Call σ α) : Prop :=
  ∀ s t : Scene σ, s.Alike t →
    (c.runIn s).1 = (c.runIn t).1 ∧ (c.runIn s).2.Alike (c.runIn t).2

/-- What an ignoring call does in one scene it does in one that is alike. -/
theorem IgnoresJournal.runIn {c : Call σ α} (h : c.IgnoresJournal) {s t u : Scene σ}
    {outcome : Except Failure α} (hrun : c.runIn s = (outcome, u)) (hst : s.Alike t) :
    ∃ v, c.runIn t = (outcome, v) ∧ u.Alike v := by
  obtain ⟨houtcome, hafter⟩ := h s t hst
  rw [hrun] at houtcome hafter
  exact ⟨(c.runIn t).2, Prod.ext houtcome.symm rfl, hafter⟩

theorem ignoresJournal_pure (a : α) : IgnoresJournal (pure a : Call σ α) :=
  fun _ _ h => ⟨rfl, h⟩

theorem ignoresJournal_log (level : LogLevel) (logger event : String) :
    IgnoresJournal (log level logger event : Call σ Unit) :=
  fun _ _ h => ⟨rfl, h.logged level logger event⟩

theorem IgnoresJournal.attempt {c : Call σ α} (h : c.IgnoresJournal) :
    (Call.attempt c).IgnoresJournal := fun s t hst =>
  ⟨congrArg Except.ok (h s t hst).1, (h s t hst).2⟩

theorem IgnoresJournal.bind {c : Call σ α} {k : α → Call σ β} (hc : c.IgnoresJournal)
    (hk : ∀ a, (k a).IgnoresJournal) : (c >>= k).IgnoresJournal := by
  intro s t hst
  rcases hs : c.runIn s with ⟨outcome, s'⟩
  obtain ⟨t', ht, hafter⟩ := hc.runIn hs hst
  cases outcome with
  | error f =>
    rw [runIn_bind_error hs, runIn_bind_error ht]
    exact ⟨rfl, hafter⟩
  | ok a =>
    rw [runIn_bind_ok hs, runIn_bind_ok ht]
    exact hk a s' t' hafter

end Call
end CheckedActions
