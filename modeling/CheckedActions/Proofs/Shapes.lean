import CheckedActions.Proofs.Telling

/-!
Shapes and their error trees. A shape runs every declared field, each in the scene the one before
it leaves. If all of them pass, the result holds their results in declared order. Otherwise the
error tree holds the failing names and no others, and so it is at every level of nested shapes. But
a field that fails with what cannot be told ends the shape there and then, and what other fields
have come to is lost.
-/

namespace CheckedActions

variable {σ : Type}

namespace Value

/-- What stands at the end of a path of names through nested dictionaries. -/
def along? : Value → List String → Option Value
  | v, [] => some v
  | v, k :: ks => (v.entries?.bind fun es => es.field? k).bind fun x => x.along? ks

@[simp] theorem along?_nil (v : Value) : v.along? [] = some v := by unfold along?; rfl

@[simp] theorem along?_str (s k : String) (ks : List String) :
    (str s).along? (k :: ks) = none := rfl

theorem field?_record (fields : List (String × Value)) (k : String) :
    Entries.field? (fields.map fun (k, v) => (str k, v)) k = fields.lookup k := by
  unfold Entries.field?
  induction fields with
  | nil => rfl
  | cons e es ih =>
    obtain ⟨m, x⟩ := e
    rw [List.map_cons, Keyed.get?_cons, ih, sameKey_str, lookup_pair]
    by_cases h : k = m
    · simp [h]
    · simp [h, Ne.symm h]

theorem along?_record (fields : List (String × Value)) (k : String) (ks : List String) :
    (record fields).along? (k :: ks) = (fields.lookup k).bind fun x => x.along? ks := by
  rw [← field?_record]
  rfl

end Value

/-- The error tree of a validation that rejected its input. -/
def treeOf : Except Failure Value → Option Value
  | .ok _ => none
  | .error f => f.errors?

/-- What the tree of a shape says about a field with the given report. -/
def entryOf : FieldReport → Option Value
  | .ok _ => none
  | .error entry => some entry

/-- The fields that failed, in order, with what the tree says about them. -/
def faults (reports : List (String × FieldReport)) : List (String × Value) :=
  reports.filterMap fun e => (entryOf e.2).map fun x => (e.1, x)

@[simp] theorem faults_cons_ok (k : String) (x : Value) (rest : List (String × FieldReport)) :
    faults ((k, .ok x) :: rest) = faults rest := rfl

@[simp] theorem faults_cons_error (k : String) (entry : Value)
    (rest : List (String × FieldReport)) :
    faults ((k, .error entry) :: rest) = (k, entry) :: faults rest := rfl

/-- The report of an outcome has an entry exactly if the outcome is a failure. -/
theorem entryOf_eq_some_iff {r : Except Failure Value} {report : FieldReport}
    (hr : reportOf r = .ok report) {e : Value} :
    entryOf report = some e ↔ ∃ f, r = .error f ∧ f.entry = .ok e := by
  obtain ⟨v, rfl, rfl⟩ | ⟨f, entry, rfl, hentry, rfl⟩ := reportOf_eq_ok_iff.1 hr
  · simp [entryOf]
  · simp [entryOf, hentry]

/-- Below a field's entry the tree goes on only where the field's own validation had a tree. -/
theorem entryOf_along? {r : Except Failure Value} {report : FieldReport}
    (hr : reportOf r = .ok report) (k : String) (ks : List String) :
    ((entryOf report).bind fun x => x.along? (k :: ks)) =
      (treeOf r).bind fun x => x.along? (k :: ks) := by
  obtain ⟨v, rfl, rfl⟩ | ⟨f, entry, rfl, hentry, rfl⟩ := reportOf_eq_ok_iff.1 hr
  · rfl
  · cases h : f.errors? with
    | none =>
      rw [Failure.entry_of_other h] at hentry
      obtain ⟨text, -, rfl⟩ := map_eq_ok_iff.1 hentry
      simp [entryOf, treeOf, h]
    | some tree =>
      rw [Failure.entry_of_rejection h] at hentry
      cases hentry
      simp [entryOf, treeOf, h]

/-- A name that no report has is not among the faults. -/
theorem lookup_faults_none {reports : List (String × FieldReport)} {k : String}
    (h : k ∉ reports.map (·.1)) : (faults reports).lookup k = none := by
  induction reports with
  | nil => rfl
  | cons e es ih =>
    obtain ⟨m, r⟩ := e
    obtain ⟨hm, hes⟩ : ¬ k = m ∧ k ∉ es.map (·.1) := by simpa using h
    cases r with
    | ok x => exact ih hes
    | error entry => rw [faults_cons_error, lookup_pair, if_neg hm, ih hes]

theorem lookup_faults {reports : List (String × FieldReport)}
    (hd : (reports.map (·.1)).Nodup) (k : String) :
    (faults reports).lookup k = (reports.lookup k).bind entryOf := by
  induction reports with
  | nil => rfl
  | cons e es ih =>
    obtain ⟨m, r⟩ := e
    obtain ⟨hm, hes⟩ := List.nodup_cons.1 hd
    rw [lookup_pair]
    cases r with
    | ok x =>
      rw [faults_cons_ok]
      split
      · rename_i hk
        exact lookup_faults_none (hk ▸ hm)
      · exact ih hes
    | error entry =>
      rw [faults_cons_error, lookup_pair]
      split
      · rfl
      · exact ih hes

/-- The fields that passed, in order, with their results. -/
def passes (reports : List (String × FieldReport)) : List (String × Value) :=
  reports.filterMap fun e => e.2.toOption.map fun x => (e.1, x)

theorem collectFields_eq (reports : List (String × FieldReport)) :
    collectFields reports =
      if (faults reports).isEmpty then .ok (.record (passes reports))
      else .error (.rejected (.record (faults reports))) := by
  -- Both sides are decided by two lists, the faults and the results, which agree entry by entry.
  refine congr (congrArg (fun errors results : List (String × Value) =>
    if errors.isEmpty then Except.ok (Value.record results)
    else .error (Failure.rejected (Value.record errors))) ?faults) ?passes
  case faults =>
    refine congrArg (List.filterMap · reports) (funext fun e => ?_)
    obtain ⟨k, f | x⟩ := e <;> rfl
  case passes =>
    refine congrArg (List.filterMap · reports) (funext fun e => ?_)
    obtain ⟨k, f | x⟩ := e <;> rfl

/-- Without a fault every report is a result. -/
theorem reports_eq_of_faults_nil {reports : List (String × FieldReport)}
    (h : faults reports = []) : reports = (passes reports).map fun e => (e.1, .ok e.2) := by
  induction reports with
  | nil => rfl
  | cons e es ih =>
    obtain ⟨k, _ | x⟩ := e
    · simp at h
    · exact congrArg (List.cons (k, .ok x)) (ih h)

theorem faults_results (results : List (String × Value)) :
    faults (results.map fun e => (e.1, .ok e.2)) = [] := by
  induction results with
  | nil => rfl
  | cons e es ih => exact ih

theorem passes_results (results : List (String × Value)) :
    passes (results.map fun e => (e.1, .ok e.2)) = results := by
  induction results with
  | nil => rfl
  | cons e es ih => exact congrArg (List.cons e) ih

/-- A shape returns exactly when no field fails, and then the results by name. -/
theorem collectFields_eq_ok_iff {reports : List (String × FieldReport)} {x : Value} :
    collectFields reports = .ok x ↔
      ∃ results, reports = results.map (fun e => (e.1, .ok e.2)) ∧ x = .record results := by
  rw [collectFields_eq]
  constructor
  · intro h
    split at h
    · rename_i hn
      cases h
      exact ⟨passes reports, reports_eq_of_faults_nil (List.isEmpty_iff.1 hn), rfl⟩
    · cases h
  · rintro ⟨results, rfl, rfl⟩
    rw [faults_results, passes_results]
    rfl

theorem collectFields_eq_error_iff {reports : List (String × FieldReport)}
    {f : Failure} :
    collectFields reports = .error f ↔
      faults reports ≠ [] ∧ f = .rejected (.record (faults reports)) := by
  rw [collectFields_eq]
  by_cases h : faults reports = []
  · simp [h]
  · have hn : (faults reports).isEmpty = false := by simpa using h
    rw [hn]
    constructor
    · rintro ⟨⟩
      exact ⟨h, rfl⟩
    · rintro ⟨-, rfl⟩
      rfl

/-- The fields of a shape run one after the other on a value, each in the scene the one before it
leaves; the report of every outcome stands under the name of its field. -/
inductive FieldRuns (v : Value) : List (String × Field σ) → Scene σ →
    List (String × FieldReport) → Scene σ → Prop
  | nil (s) : FieldRuns v [] s [] s
  | cons {k f rest s r s' report reports t} (h : (f.run v k).runIn s = (r, s'))
      (hr : reportOf r = .ok report) (hs : FieldRuns v rest s' reports t) :
      FieldRuns v ((k, f) :: rest) s ((k, report) :: reports) t

/-- The fields of a shape run up to one that fails with what cannot be told, and no further. -/
inductive FieldsHalt (v : Value) : List (String × Field σ) → Scene σ → Scene σ → Prop
  | here {k f rest s fault s'} (h : (f.run v k).runIn s = (.error fault, s')) (hu : fault.Untold) :
      FieldsHalt v ((k, f) :: rest) s s'
  | later {k f rest s r s' report t} (h : (f.run v k).runIn s = (r, s'))
      (hr : reportOf r = .ok report) (hs : FieldsHalt v rest s' t) :
      FieldsHalt v ((k, f) :: rest) s t

theorem FieldRuns.names {v : Value} {declared : List (String × Field σ)} {s t : Scene σ}
    {reports : List (String × FieldReport)} (h : FieldRuns v declared s reports t) :
    reports.map (·.1) = declared.map (·.1) := by
  induction h with
  | nil s => rfl
  | cons h hr hs ih => rw [List.map_cons, List.map_cons, ih]

/-- No field keeps those after it from running but by what cannot be told. -/
theorem fieldRuns_or_halt (v : Value) (declared : List (String × Field σ)) (s : Scene σ) :
    (∃ reports t, FieldRuns v declared s reports t) ∨ ∃ t, FieldsHalt v declared s t := by
  induction declared generalizing s with
  | nil => exact .inl ⟨[], s, .nil s⟩
  | cons e rest ih =>
    obtain ⟨k, f⟩ := e
    rcases h : (f.run v k).runIn s with ⟨r, s'⟩
    cases hr : reportOf r with
    | error e =>
      obtain ⟨fault, rfl, hu, -⟩ := reportOf_eq_error_iff.1 hr
      exact .inr ⟨s', .here h hu⟩
    | ok report =>
      obtain ⟨reports, t, hs⟩ | ⟨t, hs⟩ := ih s'
      · exact .inl ⟨_, t, .cons h hr hs⟩
      · exact .inr ⟨t, .later h hr hs⟩

/-- Running the fields of a shape begins with the first and its report. -/
theorem runIn_runFields_cons {v : Value} {k : String} {f : Field σ}
    {rest : List (String × Field σ)} {s s' : Scene σ} {r : Except Failure Value}
    {report : FieldReport} (h : (f.run v k).runIn s = (r, s')) (hr : reportOf r = .ok report) :
    (runFields ((k, f) :: rest) v).runIn s =
      (runFields rest v >>= fun reports => pure ((k, report) :: reports)).runIn s' := by
  have ha : (Call.attempt (f.run v k)).runIn s = (.ok r, s') := by rw [Call.runIn_attempt, h]
  have hreport : (Call.ofExcept (reportOf r)).runIn s' = (.ok report, s') := by
    rw [Call.runIn_ofExcept, hr]
  change Call.runIn (Call.attempt (f.run v k) >>= fun r => Call.ofExcept (reportOf r) >>=
    fun report => runFields rest v >>= fun reports => pure ((k, report) :: reports)) s = _
  rw [Call.runIn_bind_ok ha, Call.runIn_bind_ok hreport]

theorem runIn_runFields {v : Value} {declared : List (String × Field σ)} {s t : Scene σ}
    {reports : List (String × FieldReport)} (h : FieldRuns v declared s reports t) :
    (runFields declared v).runIn s = (.ok reports, t) := by
  induction h with
  | nil s => rfl
  | cons h hr hs ih =>
    rw [runIn_runFields_cons h hr, Call.runIn_bind_ok ih]
    rfl

theorem runIn_runFields_halt {v : Value} {declared : List (String × Field σ)} {s t : Scene σ}
    (h : FieldsHalt v declared s t) :
    (runFields declared v).runIn s = (.error .tooLongToWrite, t) := by
  induction h with
  | @here k f rest s fault s' h hu =>
    have ha : (Call.attempt (f.run v k)).runIn s = (.ok (.error fault), s') := by
      rw [Call.runIn_attempt, h]
    have hreport : (Call.ofExcept (reportOf (.error fault))).runIn s' =
        (.error .tooLongToWrite, s') := by
      rw [Call.runIn_ofExcept, reportOf_eq_error_iff.2 ⟨fault, rfl, hu, rfl⟩]
    change Call.runIn (Call.attempt (f.run v k) >>= fun r => Call.ofExcept (reportOf r) >>=
      fun report => runFields rest v >>= fun reports => pure ((k, report) :: reports)) s = _
    rw [Call.runIn_bind_ok ha, Call.runIn_bind_error hreport]
  | later h hr hs ih =>
    rw [runIn_runFields_cons h hr, Call.runIn_bind_error ih]

/-- Whether the fields of a shape run to the last on a value. -/
def fieldsTold (declared : List (String × Field σ)) (v : Value) (s : Scene σ) : Bool :=
  ((runFields declared v).runIn s).1.isOk

theorem fieldsTold_iff {declared : List (String × Field σ)} {v : Value} {s : Scene σ} :
    fieldsTold declared v s ↔ ∃ reports t, FieldRuns v declared s reports t := by
  unfold fieldsTold
  constructor
  · intro h
    refine (fieldRuns_or_halt v declared s).resolve_right fun ⟨t, ht⟩ => ?_
    rw [runIn_runFields_halt ht] at h
    cases h
  · rintro ⟨reports, t, h⟩
    rw [runIn_runFields h]
    rfl

/-- The scene in which the field of a name is run. -/
def sceneAt (v : Value) (name : String) : List (String × Field σ) → Scene σ → Scene σ
  | [], s => s
  | (k, f) :: rest, s => if name = k then s else sceneAt v name rest ((f.run v k).runIn s).2

theorem FieldRuns.lookup {v : Value} {declared : List (String × Field σ)} {s t : Scene σ}
    {reports : List (String × FieldReport)} (h : FieldRuns v declared s reports t)
    {name : String} {f : Field σ} (hf : declared.lookup name = some f) :
    ∃ report, reports.lookup name = some report ∧
      reportOf ((f.run v name).runIn (sceneAt v name declared s)).1 = .ok report := by
  induction h with
  | nil s => cases hf
  | @cons k g rest s r s' report reports t h hr hs ih =>
    rw [lookup_pair] at hf ⊢
    unfold sceneAt
    by_cases hk : name = k
    · simp only [hk, if_pos] at hf ⊢
      cases hf
      exact ⟨report, rfl, by rw [h, hr]⟩
    · simp only [hk, if_false] at hf ⊢
      rw [h]
      exact ih hf

def Step.isRequired : Step σ → Bool
  | .required => true
  | _ => false

/-- The declared fields of a chain that is a shape, which may be required but goes on in no other
way. -/
def Validator.shapeFields? : Validator σ → Option (List (String × Field σ))
  | .typeOf .object :: .fields declared :: rest =>
    if rest.all Step.isRequired then some declared else none
  | _ => none

/-- The declared fields of a field that is a shape. -/
def Field.shapeFields? : Field σ → Option (List (String × Field σ))
  | .checked steps => Validator.shapeFields? steps
  | .raw _ => none

namespace Validator

@[simp] theorem shapeFields?_shape (declared : List (String × Field σ)) :
    shapeFields? (root.shape declared) = some declared := rfl

theorem shapeFields?_eq_some_iff {v : Validator σ} {declared : List (String × Field σ)} :
    v.shapeFields? = some declared ↔
      ∃ rest, v = root.shape declared ++ rest ∧ rest.all Step.isRequired := by
  unfold shapeFields?
  split
  · rename_i inner rest
    constructor
    · intro h
      split at h
      · cases h
        exact ⟨rest, rfl, ‹_›⟩
      · cases h
    · rintro ⟨rest', h, hr⟩
      cases h
      exact if_pos hr
  · rename_i hv
    constructor
    · intro h
      cases h
    · rintro ⟨rest, rfl, -⟩
      exact (hv declared rest rfl).elim

end Validator

/-- Requiring a present value changes nothing. -/
theorem runIn_required {rest : List (Step σ)} (hr : rest.all Step.isRequired) {v : Value}
    (hv : v.isUndefined = false) (s : Scene σ) : (runSteps rest v).runIn s = (.ok v, s) := by
  induction rest with
  | nil => rfl
  | cons st rest ih =>
    obtain ⟨hst, hrest⟩ : st.isRequired ∧ rest.all Step.isRequired := by simpa using hr
    cases st with
    | required =>
      have h : (Step.run .required v : Call σ Value).runIn s = (.ok v, s) := by
        rw [Step.run, Call.runIn_ofExcept, checkPresent, hv]
        rfl
      rw [runSteps_cons, Call.runIn_bind_ok h, ih hrest]
    | _ => cases hst

theorem Value.isUndefined_iff {v : Value} : v.isUndefined ↔ v = .undefined := by
  cases v <;> simp [isUndefined]

theorem isUndefined_of_tag {v : Value} (h : v.tag = .object) : v.isUndefined = false := by
  cases hu : v.isUndefined with
  | false => rfl
  | true =>
    rw [Value.isUndefined_iff.1 hu] at h
    nomatch h

/-- The fields of a shape give together what they come to one by one. -/
theorem runIn_fields {declared : List (String × Field σ)} {v : Value} (hv : v.isUndefined = false)
    {s t : Scene σ} {reports : List (String × FieldReport)}
    (h : FieldRuns v declared s reports t) :
    (Step.run (.fields declared) v).runIn s = (collectFields reports, t) := by
  rw [Step.run, hv]
  exact Call.runIn_bind_ok (runIn_runFields h) _

theorem runIn_fields_halt {declared : List (String × Field σ)} {v : Value}
    (hv : v.isUndefined = false) {s t : Scene σ} (h : FieldsHalt v declared s t) :
    (Step.run (.fields declared) v).runIn s = (.error .tooLongToWrite, t) := by
  rw [Step.run, hv]
  exact Call.runIn_bind_error (runIn_runFields_halt h) _

/-- A shape fails on an object as its fields do. Otherwise it does no more with the object than its
fields, since what they return is present. -/
theorem runIn_shape_fields {steps : Validator σ} {declared : List (String × Field σ)}
    (hs : steps.shapeFields? = some declared) {v : Value} (hv : v.tag = .object)
    {s t : Scene σ} {r : Except Failure Value}
    (h : (Step.run (.fields declared) v).runIn s = (r, t))
    (hr : ∀ x, r = .ok x → x.isUndefined = false) : (steps.validate v).runIn s = (r, t) := by
  obtain ⟨rest, rfl, hrest⟩ := Validator.shapeFields?_eq_some_iff.1 hs
  have hobject : (Step.run (.typeOf .object) v : Call σ Value).runIn s = (.ok v, s) := by
    rw [Step.run, Call.runIn_ofExcept, checkTag, if_pos (.inr hv)]
  change Call.runIn (Step.run (.typeOf .object) v >>= fun v => Step.run (.fields declared) v >>=
    runSteps rest) s = _
  rw [Call.runIn_bind_ok hobject]
  cases r with
  | error f => exact Call.runIn_bind_error h _
  | ok x =>
    rw [Call.runIn_bind_ok h]
    exact runIn_required hrest (hr x rfl) t

/-- A shape does with an object what its declared fields do with it. -/
theorem runIn_shape {steps : Validator σ} {declared : List (String × Field σ)}
    (hs : steps.shapeFields? = some declared) {v : Value} (hv : v.tag = .object)
    {s t : Scene σ} {reports : List (String × FieldReport)}
    (h : FieldRuns v declared s reports t) :
    (steps.validate v).runIn s = (collectFields reports, t) := by
  refine runIn_shape_fields hs hv (runIn_fields (isUndefined_of_tag hv) h) fun x hx => ?_
  obtain ⟨results, -, rfl⟩ := collectFields_eq_ok_iff.1 hx
  rfl

/-- A shape fails when one of its fields cannot be told about, and not by a rejection. -/
theorem runIn_shape_halt {steps : Validator σ} {declared : List (String × Field σ)}
    (hs : steps.shapeFields? = some declared) {v : Value} (hv : v.tag = .object)
    {s t : Scene σ} (h : FieldsHalt v declared s t) :
    (steps.validate v).runIn s = (.error .tooLongToWrite, t) :=
  runIn_shape_fields hs hv (runIn_fields_halt (isUndefined_of_tag hv) h) nofun

mutual
/-- Whether no shape within a step declares a name twice. -/
def Step.namesDistinct : Step σ → Bool
  | .fields declared => decide (declared.map (·.1)).Nodup && fieldNamesDistinct declared
  | _ => true
termination_by structural s => s

def stepNamesDistinct : List (Step σ) → Bool
  | [] => true
  | s :: ss => s.namesDistinct && stepNamesDistinct ss
termination_by structural ss => ss

def Field.namesDistinct : Field σ → Bool
  | .checked steps => stepNamesDistinct steps
  | .raw _ => true
termination_by structural f => f

def fieldNamesDistinct : List (String × Field σ) → Bool
  | [] => true
  | (_, f) :: rest => f.namesDistinct && fieldNamesDistinct rest
termination_by structural fs => fs
end

/-- Whether a table of fields declares no name twice, and no shape within it does. -/
def tableNamesDistinct (declared : List (String × Field σ)) : Bool :=
  (Step.fields declared).namesDistinct

theorem tableNamesDistinct_iff {declared : List (String × Field σ)} :
    tableNamesDistinct declared ↔
      (declared.map (·.1)).Nodup ∧ fieldNamesDistinct declared := by
  simp [tableNamesDistinct, Step.namesDistinct]

theorem fieldNamesDistinct_lookup {declared : List (String × Field σ)}
    (h : fieldNamesDistinct declared) {k : String} {f : Field σ}
    (hf : declared.lookup k = some f) : f.namesDistinct := by
  induction declared with
  | nil => cases hf
  | cons e rest ih =>
    obtain ⟨m, g⟩ := e
    obtain ⟨hg, hrest⟩ : g.namesDistinct ∧ fieldNamesDistinct rest := by
      simpa [fieldNamesDistinct] using h
    rw [lookup_pair] at hf
    split at hf
    · cases hf
      exact hg
    · exact ih hrest hf

/-- The names within a field that is a shape are distinct when those of the field are. -/
theorem tableNamesDistinct_inner {f : Field σ} (h : f.namesDistinct)
    {inner : List (String × Field σ)} (hf : f.shapeFields? = some inner) :
    tableNamesDistinct inner := by
  cases f with
  | raw v => cases hf
  | checked steps =>
    obtain ⟨rest, rfl, -⟩ := Validator.shapeFields?_eq_some_iff.1 hf
    unfold Field.namesDistinct at h
    have hs : (Step.typeOf .object : Step σ).namesDistinct ∧
        (Step.fields inner).namesDistinct ∧ stepNamesDistinct rest := by
      simpa [Validator.shape, Validator.object, Validator.typeOf, Validator.root,
        stepNamesDistinct] using h
    exact hs.2.1

/-- A field that is run: the value it is read from, its name there, and the scene. -/
structure Visit (σ : Type) where
  field : Field σ
  owner : Value
  name : String
  scene : Scene σ

/-- The outcome of the field and the scene it leaves. -/
def Visit.run (x : Visit σ) : Except Failure Value × Scene σ :=
  (x.field.run x.owner x.name).runIn x.scene

/-- The field that the run of a shape's fields on a value comes to at the end of a path, if the path
is declared, the values on the way are objects, and the fields on every level run to the last. -/
def visit? : List String → List (String × Field σ) → Value → Scene σ → Option (Visit σ)
  | [], _, _, _ => none
  | [k], declared, v, s =>
    if fieldsTold declared v s then
      (declared.lookup k).map fun f => ⟨f, v, k, sceneAt v k declared s⟩
    else none
  | k :: ks, declared, v, s =>
    if fieldsTold declared v s then
      match (declared.lookup k).bind Field.shapeFields?, v.readField k with
      | some inner, .ok w =>
        if w.tag = .object then visit? ks inner w (sceneAt v k declared s) else none
      | _, _ => none
    else none

theorem fieldsTold_of_visit? {path : List String} {declared : List (String × Field σ)} {v : Value}
    {s : Scene σ} {x : Visit σ} (h : visit? path declared v s = some x) :
    fieldsTold declared v s := by
  unfold visit? at h
  split at h
  · cases h
  · split at h
    · assumption
    · cases h
  · split at h
    · assumption
    · cases h

/-- What comes of running all declared fields of a shape on a value: the results in declared order
if every field passes, or else a rejection whose tree holds the failing names only. -/
def CollectedFrom (v : Value) (declared : List (String × Field σ)) (s : Scene σ)
    (r : Except Failure Value × Scene σ) : Prop :=
  ∃ reports, FieldRuns v declared s reports r.2 ∧
    (∀ x, r.1 = .ok x ↔ ∃ results, reports = results.map (fun e => (e.1, .ok e.2)) ∧
      results.map (·.1) = declared.map (·.1) ∧ x = .record results) ∧
    ∀ f, r.1 = .error f ↔ faults reports ≠ [] ∧ f = .rejected (.record (faults reports))

/-- What comes of a shape on a value: what its fields come to if all of them run, or else that one
of them failed with what cannot be told. -/
def Collected (v : Value) (declared : List (String × Field σ)) (s : Scene σ)
    (r : Except Failure Value × Scene σ) : Prop :=
  CollectedFrom v declared s r ∨ FieldsHalt v declared s r.2 ∧ r.1 = .error .tooLongToWrite

theorem collectedFrom_shape {steps : Validator σ} {declared : List (String × Field σ)}
    (hs : steps.shapeFields? = some declared) {v : Value} (hv : v.tag = .object) {s t : Scene σ}
    {reports : List (String × FieldReport)} (h : FieldRuns v declared s reports t) :
    CollectedFrom v declared s ((steps.validate v).runIn s) := by
  rw [runIn_shape hs hv h]
  refine ⟨reports, h, fun x => ?_, fun f => collectFields_eq_error_iff⟩
  rw [collectFields_eq_ok_iff]
  constructor
  · rintro ⟨results, rfl, rfl⟩
    refine ⟨results, rfl, ?_, rfl⟩
    rw [← h.names, List.map_map]
    rfl
  · rintro ⟨results, hr, -, rfl⟩
    exact ⟨results, hr, rfl⟩

theorem collected_shape {steps : Validator σ} {declared : List (String × Field σ)}
    (hs : steps.shapeFields? = some declared) {v : Value} (hv : v.tag = .object) (s : Scene σ) :
    Collected v declared s ((steps.validate v).runIn s) := by
  obtain ⟨reports, t, h⟩ | ⟨t, h⟩ := fieldRuns_or_halt v declared s
  · exact .inl (collectedFrom_shape hs hv h)
  · rw [runIn_shape_halt hs hv h]
    exact .inr ⟨h, rfl⟩

/-- A field that is a shape does with an object under its name what its own fields do with it. -/
theorem Field.run_shape {f : Field σ} {inner : List (String × Field σ)}
    (hf : f.shapeFields? = some inner) {v w : Value} {k : String} (hw : v.readField k = .ok w) :
    ∃ steps, Validator.shapeFields? steps = some inner ∧
      f.run v k = Validator.validate steps w := by
  cases f with
  | raw x => cases hf
  | checked steps =>
    refine ⟨steps, hf, ?_⟩
    rw [Field.run, hw]
    rfl

theorem treeOf_collectFields (reports : List (String × FieldReport)) :
    treeOf (collectFields reports) =
      if (faults reports).isEmpty then none else some (.record (faults reports)) := by
  rw [collectFields_eq]
  split <;> rfl

/-- The tree of a shape has an entry for each field that failed. -/
theorem along?_treeOf_collectFields {reports : List (String × FieldReport)}
    (hd : (reports.map (·.1)).Nodup) (k : String) (ks : List String) :
    ((treeOf (collectFields reports)).bind fun tree => tree.along? (k :: ks)) =
      ((reports.lookup k).bind entryOf).bind fun x => x.along? ks := by
  rw [← lookup_faults hd, treeOf_collectFields]
  cases h : faults reports with
  | nil => rfl
  | cons e es => exact Value.along?_record (e :: es) k ks

/-- The tree has an entry at the end of a path exactly if the field there failed. -/
theorem along?_treeOf_visit {path : List String} {declared : List (String × Field σ)}
    (hd : tableNamesDistinct declared) {steps : Validator σ}
    (hs : steps.shapeFields? = some declared) {v : Value} (hv : v.tag = .object) {s : Scene σ}
    {x : Visit σ} (hx : visit? path declared v s = some x) (e : Value) :
    ((treeOf ((steps.validate v).runIn s).1).bind fun tree => tree.along? path) = some e ↔
      ∃ f, x.run.1 = .error f ∧ f.entry = .ok e := by
  -- The entry at a name is that of the field's own report, so the rest of the path is looked up
  -- in the tree of the field itself.
  induction path generalizing declared steps v s with
  | nil => cases hx
  | cons k ks ih =>
    obtain ⟨hnames, hfields⟩ := tableNamesDistinct_iff.1 hd
    have htold := fieldsTold_of_visit? hx
    obtain ⟨reports, t, h⟩ := fieldsTold_iff.1 htold
    rw [runIn_shape hs hv h, along?_treeOf_collectFields (h.names ▸ hnames)]
    cases ks with
    | nil =>
      rw [visit?, if_pos htold] at hx
      obtain ⟨f, hf, rfl⟩ := Option.map_eq_some_iff.1 hx
      obtain ⟨report, hreport, hr⟩ := h.lookup hf
      rw [hreport, Visit.run]
      simpa using entryOf_eq_some_iff hr
    | cons k' ks =>
      unfold visit? at hx
      rw [if_pos htold] at hx
      split at hx
      · rename_i inner w hinner hw
        split at hx
        · rename_i hobject
          obtain ⟨f, hf, hshape⟩ := Option.bind_eq_some_iff.1 hinner
          obtain ⟨steps', hs', hrun⟩ := Field.run_shape hshape hw
          have hd' := tableNamesDistinct_inner (fieldNamesDistinct_lookup hfields hf) hshape
          obtain ⟨report, hreport, hr⟩ := h.lookup hf
          rw [hreport, Option.bind_some, entryOf_along? hr, hrun]
          exact ih hd' hs' hobject hx
        · cases hx
      · cases hx

/-- Validation by a shape loses no failure and invents none, as long as its failures can be told. At
every level of nested shapes it collects what the fields of that level come to, and the error tree
has an entry at the end of a path exactly if the field there rejects the value read for it, whatever
other fields do. A level on which a field fails with what cannot be told fails as a whole, without a
tree. -/
theorem collected_at_every_level {declared : List (String × Field σ)}
    (hd : tableNamesDistinct declared) {steps : Validator σ}
    (hs : steps.shapeFields? = some declared) {v : Value} (hv : v.tag = .object) (s : Scene σ) :
    Collected v declared s ((steps.validate v).runIn s) ∧
      ∀ path x, visit? path declared v s = some x →
        (∀ e, ((treeOf ((steps.validate v).runIn s).1).bind fun tree => tree.along? path) = some e ↔
          ∃ f, x.run.1 = .error f ∧ f.entry = .ok e) ∧
        ∀ inner w, x.field.shapeFields? = some inner → x.owner.readField x.name = .ok w →
          w.tag = .object → Collected w inner x.scene x.run := by
  refine ⟨collected_shape hs hv s, fun path x hx => ⟨along?_treeOf_visit hd hs hv hx, ?_⟩⟩
  intro inner w hinner hw hobject
  obtain ⟨steps', hs', hrun⟩ := Field.run_shape hinner hw
  rw [Visit.run, hrun]
  exact collected_shape hs' hobject x.scene

/-- A check that refuses everything without a reason. -/
def refusal : CustomStep Unit := ⟨some "refuse", fun _ => throw (.rejected (.dict []))⟩

/-- The fields of an order, with those of a buyer among them. -/
def orderFields : List (String × Field Unit) :=
  [("buyer", .checked (Validator.root.shape
      [("name", .checked Validator.root.string.required),
       ("age", .checked Validator.root.number)]).required),
   ("paid", .checked Validator.root.boolean),
   ("note", .checked (Validator.root.compose refusal none))]

/-- An order of a buyer without a name. -/
def namelessOrder : Value :=
  .record [("buyer", .record [("age", .str "x")]), ("paid", .bool true), ("note", .int 3)]

theorem nameless_order_rejected :
    let r := ((Validator.root.shape orderFields).validate namelessOrder).runIn (.initial ())
    ((treeOf r.1).bind fun tree => tree.along? ["buyer", "name"]) = some (.str "Required") ∧
      ((treeOf r.1).bind fun tree => tree.along? ["note"]) = some (.dict []) := by
  have h := (collected_at_every_level (by decide)
    (Validator.shapeFields?_shape orderFields) (v := namelessOrder) rfl (.initial ())).2
  exact ⟨((h ["buyer", "name"] _ rfl).1 _).2 ⟨.required, rfl, rfl⟩,
    ((h ["note"] _ rfl).1 _).2 ⟨.rejected (.dict []), rfl, rfl⟩⟩

/-- A check that fails with a number of too many digits. -/
def overflow : CustomStep Unit := ⟨some "overflow", fun _ => throw .longNumber⟩

/-- Two fields, of which the first one fails with what cannot be told and the second one is
required. -/
def overflowFields : List (String × Field Unit) :=
  [("item", .checked (Validator.root.compose overflow none)),
   ("count", .checked Validator.root.required)]

/-- The error of the second field is lost with that of the first one, and so is the tree. -/
theorem overflow_uncollected :
    ((Validator.root.shape overflowFields).validate (.record [])).runIn (.initial ()) =
        (.error .tooLongToWrite, .initial ()) ∧
      ((Field.checked Validator.root.required).run (.record []) "count").runIn (.initial ()) =
        (.error .required, .initial ()) :=
  ⟨runIn_shape_halt (Validator.shapeFields?_shape overflowFields) rfl
    (.here rfl Failure.untold_longNumber), rfl⟩

end CheckedActions
