import CheckedActions.Action.Basic
import CheckedActions.Proofs.Runs

/-!
Frames: what calls leave as it is. Calls in a row leave of a scene what each of them does, and a
call of an action leaves what the code does that the action has been given. There are two frames
here: the log context, and the value of a name in the context and in the records that are written.
-/

namespace CheckedActions

variable {σ α β : Type}

/-! ### Binding a name and unbinding it -/

namespace LogKeys

theorem get?_put (ks : LogKeys) (m : String) (v : Value) (n : String) :
    (ks.put m v).get? n = if n = m then some v else ks.get? n := lookup_putNamed ks m v n

theorem get?_erase (ks : LogKeys) (m n : String) :
    (ks.erase m).get? n = if n = m then none else ks.get? n := by
  induction ks with
  | nil => simp [erase, get?]
  | cons e ks ih =>
    obtain ⟨k, w⟩ := e
    unfold get? at ih ⊢
    rw [lookup_pair]
    by_cases hk : k = m
    · have herase : erase ((k, w) :: ks) m = erase ks m := by simp [erase, hk]
      rw [herase, ih, hk]
      split <;> rfl
    · have herase : erase ((k, w) :: ks) m = (k, w) :: erase ks m := by simp [erase, hk]
      rw [herase, lookup_pair, ih]
      by_cases hn : n = k
      · simp [hn, hk]
      · simp [hn]

end LogKeys

namespace Scene

/-- A name that is bound for a while has its own value back, whatever has become of the context
meanwhile, and the other names have the values they have got. -/
theorem get?_restoring (s t : Scene σ) (m n : String) :
    (t.restoring m s).bound.get? n = if n = m then s.bound.get? m else t.bound.get? n := by
  unfold restoring
  cases s.bound.get? m with
  | none => exact LogKeys.get?_erase t.bound m n
  | some old => exact LogKeys.get?_put t.bound m old n

/-- From one scene to another the journal grows, by records that have under the name such a
value. -/
def Tagged (n : String) (P : Option Value → Prop) (s t : Scene σ) : Prop :=
  ∃ records, t.journal = s.journal ++ records ∧ ∀ r ∈ records, P (r.keys.get? n)

variable {n : String} {P : Option Value → Prop}

theorem Tagged.refl (s : Scene σ) : Tagged n P s s := ⟨[], by simp, by simp⟩

theorem Tagged.trans {s t u : Scene σ} (hst : Tagged n P s t) (htu : Tagged n P t u) :
    Tagged n P s u := by
  obtain ⟨before, hbefore, hxs⟩ := hst
  obtain ⟨after, hafter, hys⟩ := htu
  refine ⟨before ++ after, ?_, List.forall_mem_append.2 ⟨hxs, hys⟩⟩
  rw [hafter, hbefore, List.append_assoc]

theorem Tagged.mono {P' : Option Value → Prop} {s t : Scene σ} (h : Tagged n P s t)
    (hP : ∀ v, P v → P' v) : Tagged n P' s t := by
  obtain ⟨records, hjournal, hrecords⟩ := h
  exact ⟨records, hjournal, fun r hr => hP _ (hrecords r hr)⟩

end Scene

/-! ### Frames -/

/-- Something that calls may keep of a scene. Writing a record keeps it, and so does binding a name
for a while, if it is one of the names that may be bound. -/
structure Frame (σ : Type) where
  Kept : Scene σ → Scene σ → Prop
  MayBind : String → Prop
  refl : ∀ s, Kept s s
  trans : ∀ {s t u}, Kept s t → Kept t u → Kept s u
  logged : ∀ s level logger event, Kept s (s.logged level logger event)
  restoring : ∀ {m v s t}, MayBind m → Kept (s.binding m v) t → Kept s (t.restoring m s)

namespace Frame

/-- The value of a name in the log context, which is also its value in all records. -/
def value (n : String) : Frame σ where
  Kept s t := t.bound.get? n = s.bound.get? n ∧ s.Tagged n (· = s.bound.get? n) t
  MayBind m := n ≠ m
  refl s := ⟨rfl, .refl s⟩
  trans := by
    rintro s t u ⟨hst, htagged⟩ ⟨htu, htagged'⟩
    rw [hst] at htu htagged'
    exact ⟨htu, htagged.trans htagged'⟩
  logged s level logger event := ⟨rfl, [_], rfl, by simp⟩
  restoring := by
    rintro m v s t hm ⟨hvalue, htagged⟩
    have hbinding : (s.binding m v).bound.get? n = s.bound.get? n :=
      (LogKeys.get?_put s.bound m v n).trans (if_neg hm)
    rw [hbinding] at hvalue htagged
    rw [Scene.get?_restoring, if_neg hm]
    exact ⟨hvalue, htagged⟩

/-- The frame of a scene with a cell: what is kept of the scene without it. -/
def celled (F : Frame σ) : Frame (Celled σ) where
  Kept s t := F.Kept s.uncelled t.uncelled
  MayBind := F.MayBind
  refl s := F.refl s.uncelled
  trans hst htu := F.trans hst htu
  logged s level logger event := F.logged s.uncelled level logger event
  restoring {_ v s t} hm h := F.restoring (s := s.uncelled) (t := t.uncelled) (v := v) hm h

end Frame

/-- The call keeps the frame, however it ends, and what it returns has the property. -/
def Call.Framed (F : Frame σ) (c : Call σ α) (Q : α → Prop) : Prop :=
  ∀ s, F.Kept s (c.runIn s).2 ∧ ∀ a, (c.runIn s).1 = .ok a → Q a

/-- The call keeps the frame, whatever it returns. -/
abbrev Call.Keeps (F : Frame σ) (c : Call σ α) : Prop := c.Framed F fun _ => True

variable {F : Frame σ}

namespace Call

variable {Q : α → Prop} {R : β → Prop}

theorem framed_pure {a : α} (h : Q a) : (pure a : Call σ α).Framed F Q :=
  fun s => ⟨F.refl s, fun _ ha => Except.ok.inj ha ▸ h⟩

theorem framed_throw (f : Failure) : (throw f : Call σ α).Framed F Q := fun s => ⟨F.refl s, nofun⟩

theorem keeps_ofExcept (r : Except Failure α) : (ofExcept r : Call σ α).Keeps F :=
  fun s => ⟨F.refl s, fun _ _ => trivial⟩

theorem keeps_readCell {F : Frame σ} : readCell.Keeps F.celled :=
  fun s => ⟨F.celled.refl s, fun _ _ => trivial⟩

/-- A call with a cell beside the scene keeps of the scene what it keeps of the two. -/
theorem keeps_withCell {c : Call (Celled σ) α} (h : c.Keeps F.celled) (v : Value) :
    (withCell v c).Keeps F := by
  intro s
  have hkept : F.Kept s (c.runIn (s.celled v)).2.uncelled := (h (s.celled v)).1
  exact ⟨hkept, fun _ _ => trivial⟩

theorem keeps_log (level : LogLevel) (logger event : String) :
    (log level logger event : Call σ Unit).Keeps F :=
  fun s => ⟨F.logged s level logger event, fun _ _ => trivial⟩

theorem Framed.mono {Q' : α → Prop} {c : Call σ α} (h : c.Framed F Q) (hQ : ∀ a, Q a → Q' a) :
    c.Framed F Q' := fun s => ⟨(h s).1, fun a ha => hQ a ((h s).2 a ha)⟩

theorem Framed.bind {c : Call σ α} {k : α → Call σ β} (hc : c.Framed F Q)
    (hk : ∀ a, Q a → (k a).Framed F R) : (c >>= k).Framed F R := by
  intro s
  obtain ⟨hkept, hvalue⟩ := hc s
  rcases hrun : c.runIn s with ⟨f | a, t⟩
  · rw [runIn_bind_error hrun]
    rw [hrun] at hkept
    exact ⟨hkept, nofun⟩
  · rw [runIn_bind_ok hrun]
    rw [hrun] at hkept hvalue
    obtain ⟨hrest, hlast⟩ := hk a (hvalue a rfl) t
    exact ⟨F.trans hkept hrest, hlast⟩

theorem Framed.attempt {c : Call σ α} (h : c.Framed F Q) :
    (Call.attempt c).Framed F fun r => ∀ a, r = .ok a → Q a := by
  intro s
  refine ⟨(h s).1, ?_⟩
  rintro r ⟨⟩
  exact (h s).2

theorem Framed.withKey {c : Call σ α} (h : c.Framed F Q) {m : String} (hm : F.MayBind m)
    (v : Value) : (Call.withKey m v c).Framed F Q := by
  intro s
  obtain ⟨hkept, hvalue⟩ := h (s.binding m v)
  rw [runIn_withKey]
  exact ⟨F.restoring hm hkept, hvalue⟩

/-- While a name is bound, its value is that of all records. -/
theorem Keeps.tagged_withKey {n : String} {c : Call σ α} (h : c.Keeps (.value n)) (v : Value)
    (s : Scene σ) : s.Tagged n (· = some v) ((Call.withKey n v c).runIn s).2 := by
  obtain ⟨⟨-, htagged⟩, -⟩ := h (s.binding n v)
  have hbinding : (s.binding n v).bound.get? n = some v :=
    (LogKeys.get?_put s.bound n v n).trans (if_pos rfl)
  rw [hbinding] at htagged
  rw [runIn_withKey]
  exact htagged

/-! ### Calls in a row -/

theorem framed_foldlM {γ : Type} {I : β → Prop} {f : β → γ → Call σ β} {xs : List γ}
    (h : ∀ b, I b → ∀ x ∈ xs, (f b x).Framed F I) {b : β} (hb : I b) :
    (xs.foldlM f b).Framed F I := by
  induction xs generalizing b with
  | nil => exact framed_pure hb
  | cons x xs ih =>
    rw [List.foldlM_cons]
    exact (h b hb x List.mem_cons_self).bind fun b' hb' =>
      ih (fun b hb y hy => h b hb y (List.mem_cons_of_mem x hy)) hb'

theorem keeps_forM {γ : Type} {f : γ → Call σ Unit} {xs : List γ} (h : ∀ x ∈ xs, (f x).Keeps F) :
    (xs.forM f).Keeps F := by
  induction xs with
  | nil => exact framed_pure trivial
  | cons x xs ih =>
    exact (h x List.mem_cons_self).bind fun _ _ => ih fun y hy => h y (List.mem_cons_of_mem x hy)

end Call

/-! ### Validators -/

/-- The step applies the custom function, itself or through a field that it declares. -/
inductive Step.Applies (f : CustomStep σ) : Step σ → Prop
  | compose {label?} : Applies f (.compose f label?)
  | optional {label?} : Applies f (.optional f label?)
  | field {declared key steps s} (hfield : (key, Field.checked steps) ∈ declared) (hs : s ∈ steps)
      (h : Applies f s) : Applies f (.fields declared)

/-- The chain of a field applies the custom function. -/
inductive Field.Applies (f : CustomStep σ) : Field σ → Prop
  | step {steps s} (hs : s ∈ steps) (h : s.Applies f) : Applies f (.checked steps)

/-- A shape applies what the fields apply that it declares. -/
theorem Field.applies_shape {declared : List (String × Field σ)} {f : CustomStep σ}
    (h : (Field.checked (Validator.root.shape declared)).Applies f) :
    ∃ e ∈ declared, e.2.Applies f := by
  cases h with | step hs h =>
  rcases List.mem_cons.1 hs with rfl | hs
  · nomatch h
  · cases List.mem_singleton.1 hs
    cases h with | field hfield hs h => exact ⟨_, hfield, .step hs h⟩

def CustomStep.Keeps (F : Frame σ) (f : CustomStep σ) : Prop := ∀ v, (f.apply v).Keeps F

mutual
/-- A step keeps what the custom functions keep that it applies. -/
theorem Step.keeps : (s : Step σ) → (∀ f, s.Applies f → f.Keeps F) → (v : Value) →
    (s.run v).Keeps F
  | .typeOf _, _, _ => Call.keeps_ofExcept _
  | .array, _, _ => Call.keeps_ofExcept _
  | .date, _, _ => Call.keeps_ofExcept _
  | .required, _, _ => Call.keeps_ofExcept _
  | .fields declared, h, v => by
    unfold Step.run
    split
    · exact Call.framed_pure trivial
    · have hfields := runFields_keeps declared (fun e he f hf => by
        rcases e with ⟨key, _⟩
        cases hf with | step hs happlies => exact h f (.field he hs happlies)) v
      exact hfields.bind fun _ _ => Call.keeps_ofExcept _
  | .compose f _, h, v => h f .compose v
  | .optional f _, h, v => by
    unfold Step.run
    split
    · exact Call.framed_pure trivial
    · exact h f .optional v
termination_by structural s => s

theorem runSteps_keeps : (steps : List (Step σ)) →
    (∀ s ∈ steps, ∀ f, s.Applies f → f.Keeps F) → (v : Value) → (runSteps steps v).Keeps F
  | [], _, _ => Call.framed_pure trivial
  | s :: steps, h, v => by
    obtain ⟨hs, hsteps⟩ := List.forall_mem_cons.1 h
    exact (s.keeps hs v).bind fun w _ => runSteps_keeps steps hsteps w
termination_by structural steps => steps

theorem Field.keeps : (f : Field σ) → (∀ g, f.Applies g → g.Keeps F) → (v : Value) →
    (key : String) → (f.run v key).Keeps F
  | .checked steps, h, v, key => by
    have hread : (Call.ofExcept (v.readField key) : Call σ Value).Keeps F := Call.keeps_ofExcept _
    exact hread.bind fun w _ => runSteps_keeps steps (fun s hs f hf => h f (.step hs hf)) w
  | .raw _, _, _, _ => Call.framed_throw _
termination_by structural f => f

theorem runFields_keeps : (fields : List (String × Field σ)) →
    (∀ e ∈ fields, ∀ f, e.2.Applies f → f.Keeps F) → (v : Value) → (runFields fields v).Keeps F
  | [], _, _ => Call.framed_pure trivial
  | (key, f) :: fields, h, v => by
    obtain ⟨hf, hfields⟩ := List.forall_mem_cons.1 h
    have hreport : ∀ r, (Call.ofExcept (reportOf r) : Call σ FieldReport).Keeps F :=
      fun r => Call.keeps_ofExcept _
    exact (f.keeps hf v key).attempt.bind fun _ _ => (hreport _).bind fun _ _ =>
      (runFields_keeps fields hfields v).bind fun _ _ => Call.framed_pure trivial
termination_by structural fields => fields
end

/-! ### Actions -/

/-- The code that an action is given keeps the frame: its custom functions, its handler and its
providers. -/
structure Descriptor.Keeps (F : Frame σ) (d : Descriptor σ) : Prop where
  custom : ∀ e ∈ d.jackTypes ++ d.propTypes, ∀ f, e.2.Applies f → f.Keeps F
  perform : ∀ jacks props, (d.perform jacks props).Keeps F
  defaultJacks : ∀ provide ∈ d.defaultJacks?, Call.Keeps F provide
  defaultProps : ∀ provide ∈ d.defaultProps?, Call.Keeps F provide

namespace Action

def Keeps (F : Frame σ) (a : Action σ) : Prop := a.descriptor.Keeps F

theorem keeps_defaultsFrom {provider? : Option (Provider σ)}
    (h : ∀ provide ∈ provider?, Call.Keeps F provide) : (defaultsFrom provider?).Keeps F := by
  cases provider? with
  | none => exact Call.framed_pure trivial
  | some provide => exact (h provide rfl).bind fun _ _ => Call.keeps_ofExcept _

variable {a : Action σ}

theorem Keeps.defaults (h : a.Keeps F) : a.defaults.Keeps F :=
  (keeps_defaultsFrom h.defaultJacks).bind fun _ _ =>
    (keeps_defaultsFrom h.defaultProps).bind fun _ _ => Call.framed_pure trivial

theorem Keeps.input (h : a.Keeps F) (v : Value) :
    ((inputType a.descriptor).validate v).Keeps F := by
  refine runSteps_keeps _ (fun s hs f hf => ?_) v
  obtain ⟨side, hside, hf⟩ := Field.applies_shape (.step hs hf)
  rcases List.mem_cons.1 hside with rfl | hside
  · obtain ⟨e, he, hf⟩ := Field.applies_shape hf
    exact h.custom e (List.mem_append_left _ he) f hf
  · cases List.mem_singleton.1 hside
    obtain ⟨e, he, hf⟩ := Field.applies_shape hf
    exact h.custom e (List.mem_append_right _ he) f hf

theorem Keeps.sanitize (h : a.Keeps F) (defaults : Entries × Entries) (jacks props : Value) :
    (a.sanitize defaults jacks props).Keeps F := by
  have hextend : ∀ d v, (Call.ofExcept (Entries.extend d v) : Call σ Entries).Keeps F :=
    fun d v => Call.keeps_ofExcept _
  have hread : ∀ (v : Value) side, (Call.ofExcept (v.readField side) : Call σ Value).Keeps F :=
    fun v side => Call.keeps_ofExcept _
  unfold Action.sanitize
  exact (hextend _ _).bind fun _ _ => (hextend _ _).bind fun _ _ => (h.input _).bind fun _ _ =>
    (hread _ _).bind fun _ _ => (hread _ _).bind fun _ _ => Call.framed_pure trivial

/-- A call of an action, however it ends, keeps what the action's own code keeps. -/
theorem Keeps.call (h : a.Keeps F) (jacks props : Value) : (a.call jacks props).Keeps F := by
  unfold Action.call
  refine h.defaults.bind fun defaults _ =>
    (h.sanitize defaults jacks props).attempt.bind fun outcome _ => ?_
  cases outcome with
  | error f =>
    dsimp only
    split
    · exact (Call.keeps_log _ _ _).bind fun _ _ => Call.framed_throw f
    · exact Call.framed_throw f
  | ok both => exact (Call.keeps_log _ _ _).bind fun _ _ => h.perform both.1 both.2

end Action
end CheckedActions
