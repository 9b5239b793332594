import CheckedActions.Call

/-!
How calls run. A call followed by another runs it in the scene it leaves, and a failing call keeps
it from running.
-/

namespace CheckedActions

@[simp] theorem isOk_ok {α : Type} (a : α) : (Except.ok a : Except Failure α).isOk := rfl

@[simp] theorem isOk_error {α : Type} (f : Failure) :
    (Except.error f : Except Failure α).isOk = false := rfl

theorem isOk_iff {α : Type} {x : Except Failure α} : x.isOk ↔ ∃ a, x = .ok a := by
  cases x with
  | error e => simp
  | ok a => simp

theorem bind_eq_ok_iff {ε α β : Type} {x : Except ε α} {f : α → Except ε β} {b : β} :
    (x >>= f) = .ok b ↔ ∃ a, x = .ok a ∧ f a = .ok b := by
  cases x with
  | error e => simp [bind, Except.bind]
  | ok a => simp [bind, Except.bind]

theorem bind_eq_error_iff {ε α β : Type} {x : Except ε α} {f : α → Except ε β} {e : ε} :
    (x >>= f) = .error e ↔ x = .error e ∨ ∃ a, x = .ok a ∧ f a = .error e := by
  cases x with
  | error e => simp [bind, Except.bind]
  | ok a => simp [bind, Except.bind]

theorem isOk_bind_iff {α β : Type} {x : Except Failure α} {f : α → Except Failure β} :
    (x >>= f).isOk ↔ ∃ a, x = .ok a ∧ (f a).isOk := by
  cases x with
  | error e => simp [bind, Except.bind]
  | ok a => simp [bind, Except.bind]

/-- If what the first returns does not decide whether the second does, the two can be looked at one
by one. -/
theorem isOk_bind_and {α β : Type} {x : Except Failure α} {f : α → Except Failure β} {p : Prop}
    (h : ∀ a, (f a).isOk ↔ p) : (x >>= f).isOk ↔ x.isOk ∧ p := by
  simp only [isOk_bind_iff, h, exists_and_right, ← isOk_iff]

@[simp] theorem isOk_map {α β : Type} (x : Except Failure α) (f : α → β) :
    (x.map f).isOk = x.isOk := by
  cases x with
  | error e => rfl
  | ok a => rfl

theorem isOk_bind_pure {α β : Type} (x : Except Failure α) (f : α → β) :
    (x >>= fun a => pure (f a)).isOk = x.isOk := isOk_map x f

theorem map_eq_ok_iff {ε α β : Type} {x : Except ε α} {f : α → β} {b : β} :
    x.map f = .ok b ↔ ∃ a, x = .ok a ∧ f a = b := by
  cases x with
  | error e => simp [Except.map]
  | ok a => simp [Except.map]

theorem map_eq_error_iff {ε α β : Type} {x : Except ε α} {f : α → β} {e : ε} :
    x.map f = .error e ↔ x = .error e := by
  cases x with
  | error e => simp [Except.map]
  | ok a => simp [Except.map]

namespace Scene

variable {σ : Type}

/-- The scene in which nothing has happened yet. -/
def initial (host : σ) : Scene σ := ⟨[], [], 0, host⟩

/-- The scene with a record written under the keys that are bound. -/
def logged (s : Scene σ) (level : LogLevel) (logger event : String) : Scene σ :=
  { s with journal := s.journal ++ [⟨level, logger, event, s.bound⟩] }

/-- The scene with a name bound in its log records. -/
def binding (s : Scene σ) (name : String) (v : Value) : Scene σ :=
  { s with bound := s.bound.put name v }

/-- The scene with the value a name had in another one, or none if it had none there. -/
def restoring (s : Scene σ) (name : String) (before : Scene σ) : Scene σ :=
  { s with bound := match before.bound.get? name with
    | some old => s.bound.put name old
    | none => s.bound.erase name }

end Scene

namespace Call

variable {σ α β : Type}

theorem runIn_bind_ok {c : Call σ α} {s t : Scene σ} {a : α} (h : c.runIn s = (.ok a, t))
    (k : α → Call σ β) : runIn (c >>= k) s = (k a).runIn t := by
  rw [runIn_bind, h]

theorem runIn_bind_error {c : Call σ α} {s t : Scene σ} {f : Failure}
    (h : c.runIn s = (.error f, t)) (k : α → Call σ β) :
    runIn (c >>= k) s = (.error f, t) := by
  rw [runIn_bind, h]

/-- Two calls in a row return when the first one does, and then the second one. -/
theorem runIn_bind_eq_ok_iff {c : Call σ α} {k : α → Call σ β} {s u : Scene σ} {b : β} :
    runIn (c >>= k) s = (.ok b, u) ↔
      ∃ a t, c.runIn s = (.ok a, t) ∧ (k a).runIn t = (.ok b, u) := by
  rw [runIn_bind]
  rcases c.runIn s with ⟨_ | a, t⟩
  · simp
  · constructor
    · exact fun h => ⟨a, t, rfl, h⟩
    · rintro ⟨_, _, ⟨⟩, h⟩
      exact h

/-- A function applied to what a call returns changes neither its failures nor its effects. -/
theorem runIn_map (f : α → β) (c : Call σ α) (s : Scene σ) :
    runIn (f <$> c) s = ((c.runIn s).1.map f, (c.runIn s).2) := by
  rw [map_eq_pure_bind, runIn_bind]
  rcases c.runIn s with ⟨_ | a, t⟩ <;> rfl

/-- Calls that agree on a view of what they return may be followed by calls that need no more than
the view. -/
theorem runIn_bind_congr {α' γ : Type} {c : Call σ α} {d : Call σ α'} {g : α → γ} {h : α' → γ}
    {k : α → Call σ β} {l : α' → Call σ β} (hview : ∀ s, (g <$> c).runIn s = (h <$> d).runIn s)
    (hrest : ∀ a b, g a = h b → ∀ s, (k a).runIn s = (l b).runIn s) (s : Scene σ) :
    runIn (c >>= k) s = runIn (d >>= l) s := by
  have hs := hview s
  rw [runIn_map, runIn_map] at hs
  rw [runIn_bind, runIn_bind]
  rcases hc : c.runIn s with ⟨f | a, t⟩ <;> rcases hd : d.runIn s with ⟨f' | b, t'⟩ <;>
    rw [hc, hd] at hs <;> obtain ⟨hreturned, rfl⟩ := Prod.mk.inj hs
  · cases hreturned
    rfl
  · cases hreturned
  · cases hreturned
  · exact hrest a b (Except.ok.inj hreturned) t

@[simp] theorem runIn_log (level : LogLevel) (logger event : String) (s : Scene σ) :
    runIn (log level logger event) s = (.ok (), s.logged level logger event) := rfl

/-- A call within a binding runs with the name bound, and gives the name back its value after. -/
theorem runIn_withKey (name : String) (v : Value) (c : Call σ α) (s : Scene σ) :
    runIn (withKey name v c) s =
      ((c.runIn (s.binding name v)).1, (c.runIn (s.binding name v)).2.restoring name s) := by
  unfold withKey
  simp only [runIn_bind, runIn_attempt, runIn_ofExcept]
  rfl

/-- The call never fails. -/
def Returns (c : Call σ α) : Prop := ∀ s, ∃ a t, c.runIn s = (.ok a, t)

theorem returns_pure (a : α) : Returns (pure a : Call σ α) := fun s => ⟨a, s, rfl⟩

theorem returns_attempt (c : Call σ α) : Returns (attempt c) := fun s => ⟨_, _, runIn_attempt c s⟩

theorem returns_log (level : LogLevel) (logger event : String) :
    Returns (log level logger event : Call σ Unit) :=
  fun s => ⟨_, _, runIn_log level logger event s⟩

theorem Returns.bind {c : Call σ α} {k : α → Call σ β} (hc : c.Returns) (hk : ∀ a, (k a).Returns) :
    (c >>= k).Returns := by
  intro s
  obtain ⟨a, t, ha⟩ := hc s
  rw [runIn_bind_ok ha]
  exact hk a t

theorem returns_foldlM {f : β → α → Call σ β} (hf : ∀ b a, (f b a).Returns) (xs : List α) (b : β) :
    (xs.foldlM f b).Returns := by
  induction xs generalizing b with
  | nil => exact returns_pure b
  | cons x xs ih =>
    rw [List.foldlM_cons]
    exact (hf b x).bind ih

/-- What every step of a row of calls keeps is kept by the whole row. -/
theorem foldlM_keeps {I : β → Prop} {f : β → α → Call σ β} {xs : List α}
    (h : ∀ x ∈ xs, ∀ b s c t, I b → (f b x).runIn s = (.ok c, t) → I c) {b c : β} {s t : Scene σ}
    (hb : I b) (hrun : (xs.foldlM f b).runIn s = (.ok c, t)) : I c := by
  induction xs generalizing b s with
  | nil =>
    cases hrun
    exact hb
  | cons x xs ih =>
    obtain ⟨hx, hxs⟩ := List.forall_mem_cons.1 h
    rw [List.foldlM_cons] at hrun
    obtain ⟨d, u, hstep, hrest⟩ := runIn_bind_eq_ok_iff.1 hrun
    exact ih hxs (hx b s d u hb hstep) hrest

end Call
end CheckedActions
