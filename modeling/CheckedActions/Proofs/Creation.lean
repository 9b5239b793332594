import CheckedActions.Action.Basic
import CheckedActions.Proofs.Runs

/-!
When an action is made of a proposal. The parts of an action are looked for in a fixed order, and
the first that is missing or of the wrong kind is named. But two more things have to fit, the names
of the fields and the providers of defaults, and what is wrong with these is no missing part.
-/

namespace CheckedActions

variable {σ : Type}

/-! ### The parts of a proposal -/

/-- The place of a part in the order in which the parts are looked for. -/
def ActionPart.rank : ActionPart → Nat
  | descriptor => 0
  | name => 1
  | description => 2
  | jackTypes => 3
  | propTypes => 4
  | perform => 5

theorem ActionPart.missingText_inj {p q : ActionPart} (h : p.missingText = q.missingText) :
    p = q := by
  revert h
  cases p <;> cases q <;> decide

/-- The part of a draft is missing or of the wrong kind. -/
def Draft.Lacks (d : Draft σ) : ActionPart → Prop
  | .descriptor => False
  | .name => ¬ ∃ s, d.name? = some (.str s)
  | .description => ¬ ∃ s, d.description? = some (.str s)
  | .jackTypes => ¬ ∃ fs, d.jackTypes? = some (.fields fs)
  | .propTypes => ¬ ∃ fs, d.propTypes? = some (.fields fs)
  | .perform => ¬ ∃ f, d.perform? = some (.code f)

/-- The part of a proposal is missing or of the wrong kind. What is no mapping has no part. -/
def Proposal.Lacks : Proposal σ → ActionPart → Prop
  | .value _, _ => True
  | .draft d, q => d.Lacks q
  | .descriptor _, _ => False

/-- The part is the first that a proposal lacks. -/
def Proposal.FirstLacking (p : Proposal σ) (q : ActionPart) : Prop :=
  p.Lacks q ∧ ∀ q', p.Lacks q' → q.rank ≤ q'.rank

/-- A key that can name a field: a text, or bytes that write one. -/
def Value.NamesField : Value → Prop
  | .str _ => True
  | .bytes bs => (Schema.textOfBytes? bs).isSome
  | _ => False

/-- What a draft holds for a provider, if anything, is a function or the null value. -/
def Callable.CanProvide : Option (Callable σ) → Prop
  | none => True
  | some (.code _) => True
  | some (.value v) => v = .null

/-- All keys of a table can name fields. -/
def FieldTable.Names (table? : Option (FieldTable σ)) : Prop :=
  ∀ fs, table? = some (.fields fs) → ∀ e ∈ fs, e.1.NamesField

/-- What a draft has to have right beside its parts. -/
structure Draft.Fits (d : Draft σ) : Prop where
  jackNames : FieldTable.Names d.jackTypes?
  propNames : FieldTable.Names d.propTypes?
  jackProvider : Callable.CanProvide d.defaultJacks?
  propProvider : Callable.CanProvide d.defaultProps?

def Proposal.Fits : Proposal σ → Prop
  | .draft d => d.Fits
  | _ => True

/-! ### Checks -/

namespace Checked

variable {α β : Type}

/-- The check passes exactly when `fits` holds, and else finds one or more problems of a sort. -/
structure Decides (c : Checked α) (fits : Prop) (sort : Problem → Prop) : Prop where
  passes : (∃ a, c = .ok a) ↔ fits
  finds : ∀ problems, c = .error problems → problems ≠ [] ∧ ∀ x ∈ problems, sort x

theorem decides_ok (a : α) (sort : Problem → Prop) : Decides (.ok a) True sort :=
  ⟨⟨fun _ => trivial, fun _ => ⟨a, rfl⟩⟩, nofun⟩

theorem decides_problem {kind : ProblemKind} {sort : Problem → Prop} (h : sort ⟨[], kind⟩) :
    Decides (problem kind : Checked α) False sort := by
  refine ⟨⟨nofun, False.elim⟩, ?_⟩
  rintro problems ⟨⟩
  exact ⟨by simp, by simpa using h⟩

theorem Decides.both {a : Checked α} {b : Checked β} {p q : Prop} {sort : Problem → Prop}
    (ha : a.Decides p sort) (hb : b.Decides q sort) : (a.both b).Decides (p ∧ q) sort := by
  rw [← ha.passes, ← hb.passes]
  cases a with
  | ok x =>
    cases b with
    | ok y => exact ⟨by simp [Checked.both], nofun⟩
    | error ps =>
      refine ⟨by simp [Checked.both], ?_⟩
      rintro problems ⟨⟩
      exact hb.finds _ rfl
  | error ps =>
    have hps := ha.finds _ rfl
    cases b with
    | ok y =>
      refine ⟨by simp [Checked.both], ?_⟩
      rintro problems ⟨⟩
      exact hps
    | error qs =>
      have hqs := hb.finds _ rfl
      refine ⟨by simp [Checked.both], ?_⟩
      rintro problems ⟨⟩
      exact ⟨by simp [hps.1], List.forall_mem_append.2 ⟨hps.2, hqs.2⟩⟩

theorem Decides.map {a : Checked α} {p : Prop} {sort : Problem → Prop} (h : a.Decides p sort)
    (f : α → β) : Decides (a.map f) p sort := by
  rw [← h.passes]
  cases a with
  | ok x => exact ⟨by simp [Except.map], nofun⟩
  | error ps =>
    refine ⟨by simp [Except.map], ?_⟩
    rintro problems ⟨⟩
    exact h.finds _ rfl

/-- Problems seen from one step further out. -/
theorem Decides.inside {a : Checked α} {p : Prop} {sort outer : Problem → Prop}
    (h : a.Decides p sort) {place : Place} (hsort : ∀ x, sort x → outer (x.inside place)) :
    (a.inside place).Decides p outer := by
  rw [← h.passes]
  cases a with
  | ok x => exact ⟨⟨fun _ => ⟨x, rfl⟩, fun _ => ⟨x, rfl⟩⟩, nofun⟩
  | error ps =>
    obtain ⟨hne, hps⟩ := h.finds _ rfl
    refine ⟨⟨?_, ?_⟩, ?_⟩
    · rintro ⟨x, ⟨⟩⟩
    · rintro ⟨x, ⟨⟩⟩
    rintro problems ⟨⟩
    refine ⟨by simpa using hne, ?_⟩
    rw [List.forall_mem_map]
    exact fun x hx => hsort x (hps x hx)

end Checked

open Checked

/-- A problem of a field's name, told from inside its table. -/
def NameProblem (x : Problem) : Prop :=
  (∃ place, x.place = [place, .name "[key]"]) ∧ (x.kind = .stringType ∨ x.kind = .stringUnicode)

/-- A problem of a provider. -/
def ProviderProblem (x : Problem) : Prop := x.place = [] ∧ x.kind = .callableType

/-- A problem that lies beside the parts of an action: in a name of one of its tables of fields, or
in one of its providers. -/
def BesideParts (x : Problem) : Prop :=
  ∃ y, (NameProblem y ∧ ∃ table ∈ ["jack_types", "prop_types"], x = y.inside (.name table)) ∨
    (ProviderProblem y ∧
      ∃ provider ∈ ["get_default_jacks", "get_default_props"], x = y.inside (.name provider))

theorem decides_str (v : Value) : (Schema.str v).Decides v.NamesField fun x =>
    x.place = [] ∧ (x.kind = .stringType ∨ x.kind = .stringUnicode) := by
  unfold Schema.str
  split
  · exact decides_ok _ _
  · rename_i bs
    cases h : Schema.textOfBytes? bs with
    | some s =>
      have hnames : (Value.bytes bs).NamesField = True := by simp [Value.NamesField, h]
      rw [hnames]
      exact decides_ok _ _
    | none =>
      have hnames : (Value.bytes bs).NamesField = False := by simp [Value.NamesField, h]
      rw [hnames]
      exact decides_problem ⟨rfl, .inr rfl⟩
  · rename_i hstr hbytes
    have hnames : v.NamesField = False := by
      cases v with
      | str s => exact absurd rfl (hstr s)
      | bytes bs => exact absurd rfl (hbytes bs)
      | _ => rfl
    rw [hnames]
    exact decides_problem ⟨rfl, .inl rfl⟩

theorem decides_textKeys {α : Type} (es : List (Value × α)) :
    (Schema.textKeys es).Decides (∀ e ∈ es, e.1.NamesField) NameProblem := by
  induction es with
  | nil => simpa [Schema.textKeys] using decides_ok [] NameProblem
  | cons e es ih =>
    have hkey : ((Schema.str e.1).inside (.name "[key]")).Decides e.1.NamesField fun x =>
        x.place = [.name "[key]"] ∧ (x.kind = .stringType ∨ x.kind = .stringUnicode) :=
      (decides_str e.1).inside fun x hx => ⟨congrArg (_ :: ·) hx.1, hx.2⟩
    have hentry : (((Schema.str e.1).inside (.name "[key]")).inside (.ofKey e.1)).Decides
        e.1.NamesField NameProblem :=
      hkey.inside fun x hx => ⟨⟨_, congrArg (_ :: ·) hx.1⟩, hx.2⟩
    rw [List.forall_mem_cons]
    exact (hentry.both ih).map _

/-- The names of a table that is there. -/
theorem decides_table {name : String} (hname : name ∈ ["jack_types", "prop_types"])
    (fs : List (Value × Field σ)) (default : Checked (List (String × Field σ))) :
    (Draft.part name (some (.fields fs)) default FieldTable.check).Decides
      (FieldTable.Names (some (.fields fs))) BesideParts := by
  have hnames : FieldTable.Names (some (.fields fs)) ↔ ∀ e ∈ fs, e.1.NamesField := by
    simp [FieldTable.Names]
  rw [hnames]
  exact ((decides_textKeys fs).map putAllNamed).inside fun x hx => ⟨x, .inl ⟨hx, name, hname, rfl⟩⟩

theorem decides_provider {name : String}
    (hname : name ∈ ["get_default_jacks", "get_default_props"]) (given : Option (Callable σ)) :
    (Draft.part name given (.ok none) Callable.checkProvider).Decides
      (Callable.CanProvide given) BesideParts := by
  refine Decides.inside (?_ : Decides _ _ ProviderProblem)
    fun x hx => ⟨x, .inr ⟨hx, name, hname, rfl⟩⟩
  match given with
  | none => exact decides_ok _ _
  | some (.code f) => exact decides_ok _ _
  | some (.value v) =>
    by_cases hv : v = .null
    · have hprovides : Callable.CanProvide (some (.value v : Callable σ)) = True := by
        simp [Callable.CanProvide, hv]
      rw [hprovides, hv]
      exact decides_ok _ _
    · have hcheck : Callable.checkProvider (.value v : Callable σ) = problem .callableType := by
        cases v with
        | null => exact absurd rfl hv
        | _ => rfl
      simp only [Callable.CanProvide, hv, hcheck]
      exact decides_problem ⟨rfl, rfl⟩

/-! ### Drafts -/

namespace Draft

theorem isText_iff (v? : Option Value) : isText v? ↔ ∃ s, v? = some (.str s) := by
  unfold isText
  split <;> simp_all

theorem isTable_iff (table? : Option (FieldTable σ)) :
    isTable table? ↔ ∃ fs, table? = some (.fields fs) := by
  unfold isTable
  split <;> simp_all

theorem isFunction_iff (c? : Option (Callable σ)) : isFunction c? ↔ ∃ f, c? = some (.code f) := by
  unfold isFunction
  split <;> simp_all

theorem lacks_iff (d : Draft σ) (q : ActionPart) : d.Lacks q ↔ match q with
    | .descriptor => False
    | .name => isText d.name? = false
    | .description => isText d.description? = false
    | .jackTypes => isTable d.jackTypes? = false
    | .propTypes => isTable d.propTypes? = false
    | .perform => isFunction d.perform? = false := by
  cases q <;> simp only [Lacks, ← isText_iff, ← isTable_iff, ← isFunction_iff, Bool.not_eq_true]

/-- The checks name the first lacking part. -/
theorem firstLacking_of_firstMissing? {d : Draft σ} {q : ActionPart}
    (h : d.firstMissing? = some q) : (Proposal.draft d).FirstLacking q := by
  have hlacks : ∀ q', (Proposal.draft d).Lacks q' ↔ _ := d.lacks_iff
  simp only [Proposal.FirstLacking, hlacks]
  unfold firstMissing? at h
  simp only [Bool.not_eq_true'] at h
  -- One case for each part that can be the first to fail its check.
  split at h
  · rename_i hname
    cases h
    refine ⟨hname, fun q' => ?_⟩
    cases q' <;> simp [ActionPart.rank]
  split at h
  · rename_i hname hdescription
    cases h
    refine ⟨hdescription, fun q' => ?_⟩
    cases q' <;> simp [ActionPart.rank, hname]
  split at h
  · rename_i hname hdescription hjacks
    cases h
    refine ⟨hjacks, fun q' => ?_⟩
    cases q' <;> simp [ActionPart.rank, hname, hdescription]
  split at h
  · rename_i hname hdescription hjacks hprops
    cases h
    refine ⟨hprops, fun q' => ?_⟩
    cases q' <;> simp [ActionPart.rank, hname, hdescription, hjacks]
  split at h
  · rename_i hname hdescription hjacks hprops hperform
    cases h
    refine ⟨hperform, fun q' => ?_⟩
    cases q' <;> simp [ActionPart.rank, hname, hdescription, hjacks, hprops]
  · nomatch h

/-- Where the checks name no part, none is lacking. -/
theorem not_lacks_of_firstMissing? {d : Draft σ} (h : d.firstMissing? = none) (q : ActionPart) :
    ¬ d.Lacks q := by
  rw [lacks_iff]
  unfold firstMissing? at h
  cases q <;> grind

/-- A draft that has all its parts is completed exactly when the rest of it fits. -/
theorem decides_complete {d : Draft σ} (h : ∀ q, ¬ d.Lacks q) :
    d.complete.Decides d.Fits BesideParts := by
  obtain ⟨name, hname⟩ := Classical.not_not.1 (h .name)
  obtain ⟨description, hdescription⟩ := Classical.not_not.1 (h .description)
  obtain ⟨jacks, hjacks⟩ := Classical.not_not.1 (h .jackTypes)
  obtain ⟨props, hprops⟩ := Classical.not_not.1 (h .propTypes)
  obtain ⟨perform, hperform⟩ := Classical.not_not.1 (h .perform)
  have hfits : d.Fits ↔ True ∧ True ∧ FieldTable.Names (some (.fields jacks)) ∧
      FieldTable.Names (some (.fields props)) ∧ True ∧ Callable.CanProvide d.defaultJacks? ∧
      Callable.CanProvide d.defaultProps? := by
    rw [← hjacks, ← hprops]
    exact ⟨fun ⟨h₁, h₂, h₃, h₄⟩ => ⟨trivial, trivial, h₁, h₂, trivial, h₃, h₄⟩,
      fun ⟨_, _, h₁, h₂, _, h₃, h₄⟩ => ⟨h₁, h₂, h₃, h₄⟩⟩
  rw [hfits]
  unfold complete
  rw [hname, hdescription, hjacks, hprops, hperform]
  exact Decides.map ((decides_ok name BesideParts).both ((decides_ok description BesideParts).both
    ((decides_table (by decide) jacks _).both ((decides_table (by decide) props _).both
      ((decides_ok perform BesideParts).both ((decides_provider (by decide) _).both
        (decides_provider (by decide) _))))))) _

end Draft

/-! ### Proposals -/

namespace Action

theorem runIn_create (p : Proposal σ) (wording : Wording) (s : Scene σ) :
    (create p wording).runIn s = match p.check wording with
    | .ok d => (.ok ⟨s.made, d⟩,
        { s.logged .debug logger ("Created action " ++ d.name) with made := s.made + 1 })
    | .error f => (.error f, s) := by
  unfold create
  rw [Call.runIn_bind, Call.runIn_ofExcept]
  cases p.check wording with
  | ok d => rfl
  | error f => rfl

end Action

namespace Proposal

theorem FirstLacking.unique {p : Proposal σ} {q q' : ActionPart} (h : p.FirstLacking q)
    (h' : p.FirstLacking q') : q = q' := by
  have hrank : q.rank = q'.rank := Nat.le_antisymm (h.2 q' h'.1) (h'.2 q h.1)
  revert hrank
  cases q <;> cases q' <;> decide

/-- What the check of a proposal finds: the first part that it lacks, or if it lacks none, whether
the rest of it fits. -/
theorem check_outcome (p : Proposal σ) (wording : Wording) :
    (∃ q, p.FirstLacking q ∧ p.check wording = .error (.missingPart q)) ∨
    (∀ q, ¬ p.Lacks q) ∧
      ((p.Fits ∧ ∃ d, p.check wording = .ok d) ∨
        ¬ p.Fits ∧ ∃ problems, problems ≠ [] ∧ (∀ x ∈ problems, BesideParts x) ∧
          p.check wording = .error (.unfit problems (wording problems))) := by
  cases p with
  | value v => exact .inl ⟨.descriptor, ⟨trivial, fun q _ => Nat.zero_le q.rank⟩, rfl⟩
  | descriptor d => exact .inr ⟨fun _ h => h, .inl ⟨trivial, d, rfl⟩⟩
  | draft d =>
    cases hmissing : d.firstMissing? with
    | some q =>
      have hcheck : (draft d).check wording = .error (.missingPart q) := by
        simp only [Proposal.check, hmissing]
      exact .inl ⟨q, Draft.firstLacking_of_firstMissing? hmissing, hcheck⟩
    | none =>
      have hnone := Draft.not_lacks_of_firstMissing? hmissing
      have hdecides := Draft.decides_complete hnone
      have hcheck : (draft d).check wording = d.complete.toExcept wording := by
        simp only [Proposal.check, hmissing]
      refine .inr ⟨hnone, ?_⟩
      cases hcomplete : d.complete with
      | ok descriptor =>
        rw [hcomplete] at hcheck
        exact .inl ⟨hdecides.passes.1 ⟨descriptor, hcomplete⟩, descriptor, hcheck⟩
      | error problems =>
        rw [hcomplete] at hcheck
        obtain ⟨hne, hsort⟩ := hdecides.finds problems hcomplete
        refine .inr ⟨fun hfits => ?_, problems, hne, hsort, hcheck⟩
        obtain ⟨descriptor, hok⟩ := hdecides.passes.2 hfits
        rw [hcomplete] at hok
        cases hok

end Proposal

namespace Action

/-- How making an action ends. It fails with the message of a part exactly when that part is the
first to be missing or of the wrong kind, and it returns an action exactly when no part is and the
names of the fields and the providers fit as well. If these alone do not fit, then it fails with
problems of theirs, which are no message of a missing part. A failure leaves nothing behind. -/
theorem create_outcome (p : Proposal σ) (wording : Wording) (s : Scene σ) :
    (∀ q, (create p wording).runIn s = (.error (.malformed (.str q.missingText)), s) ↔
      p.FirstLacking q) ∧
    ((∃ a t, (create p wording).runIn s = (.ok a, t)) ↔ (∀ q, ¬ p.Lacks q) ∧ p.Fits) ∧
    ((∀ q, ¬ p.Lacks q) → ¬ p.Fits → ∃ problems, problems ≠ [] ∧
      (∀ x ∈ problems, BesideParts x) ∧
      (create p wording).runIn s = (.error (.unfit problems (wording problems)), s)) := by
  rw [runIn_create]
  rcases p.check_outcome wording with
    ⟨q, hq, hcheck⟩ | ⟨hnone, ⟨hfits, d, hcheck⟩ | ⟨hfits, problems, hne, hsort, hcheck⟩⟩
  · rw [hcheck]
    refine ⟨fun q' => ⟨fun h => ?_, fun h => ?_⟩, ⟨nofun, fun h => absurd hq.1 (h.1 q)⟩,
      fun h => absurd hq.1 (h q)⟩
    · have htext : q.missingText = q'.missingText := by
        simpa [Failure.missingPart] using h
      exact ActionPart.missingText_inj htext ▸ hq
    · rw [hq.unique h]
      rfl
  · rw [hcheck]
    exact ⟨fun q => ⟨nofun, fun h => absurd h.1 (hnone q)⟩,
      ⟨fun _ => ⟨hnone, hfits⟩, fun _ => ⟨_, _, rfl⟩⟩, fun _ h => absurd hfits h⟩
  · rw [hcheck]
    exact ⟨fun q => ⟨nofun, fun h => absurd h.1 (hnone q)⟩,
      ⟨nofun, fun h => absurd h.2 hfits⟩, fun _ _ => ⟨problems, hne, hsort, rfl⟩⟩

/-- A draft with every part, but with a number for a provider. -/
def numberProvided : Draft Unit :=
  { name? := some (.str "Greet")
    description? := some (.str "Greets someone")
    jackTypes? := some (.fields [])
    propTypes? := some (.fields [])
    perform? := some (.code fun _ => pure .null)
    defaultJacks? := some (.value (.int 5)) }

/-- A draft can lack no part, and no action is made of it. -/
theorem number_provided_unfit :
    (∀ q, ¬ (Proposal.draft numberProvided).Lacks q) ∧
    ∀ wording, (create (.draft numberProvided) wording).runIn (.initial ()) =
      (.error (.unfit [⟨[.name "get_default_jacks"], .callableType⟩]
        (wording [⟨[.name "get_default_jacks"], .callableType⟩])), .initial ()) :=
  ⟨Draft.not_lacks_of_firstMissing? (d := numberProvided) rfl, fun _ => rfl⟩

end Action
end CheckedActions
