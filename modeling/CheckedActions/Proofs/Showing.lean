import CheckedActions.Proofs.Listing
import CheckedActions.Proofs.Printing
import CheckedActions.Proofs.Reportable

/-!
Which answers of the service can be shown. Listings always can. What a run gives is plain data, and
a report holds all of it that is not too deep. But the reasons for a rejection are kept as they were
raised, or as observers have left them, and no report holds those that have no form there. A display
writes whole numbers of so many digits only, and labels that are texts.
-/

namespace CheckedActions

variable {σ : Type}

theorem isOk_mapM_iff {α β : Type} {f : α → Except Failure β} (xs : List α) :
    (xs.mapM f).isOk ↔ ∀ x ∈ xs, (f x).isOk := by
  induction xs with
  | nil => simp [pure, Except.pure]
  | cons x xs ih =>
    have hrest : ∀ b, (xs.mapM f >>= fun bs => pure (b :: bs)).isOk ↔ ∀ y ∈ xs, (f y).isOk :=
      fun b => by rw [isOk_bind_pure, ih]
    rw [List.mapM_cons, isOk_bind_and hrest, List.forall_mem_cons]

theorem mapM_map_ok {α β γ : Type} {f : β → Except Failure γ} {g : α → β} {h : α → γ}
    (hf : ∀ a, f (g a) = .ok (h a)) (xs : List α) : (xs.map g).mapM f = .ok (xs.map h) := by
  induction xs with
  | nil => rfl
  | cons x xs ih =>
    rw [List.map_cons, List.mapM_cons, hf, ih]
    rfl

/-- What a description says of an action's fields. -/
def Action.fieldLabels (a : Action σ) : List Value :=
  (a.descriptor.jackTypes ++ a.descriptor.propTypes).map (·.2.label)

namespace ServiceResult

variable (s : OutputSettings)

theorem isOk_render (verbose : Bool) (width? : Option Int) (r : ServiceResult) :
    (r.render verbose width?).isOk = (r.lines (displayWidth width?) verbose).isOk :=
  isOk_bind_pure _ _

theorem isOk_reportError (error? : Option ServiceError) :
    (reportError error?).isOk ↔
      ∀ error, error? = some error → ∀ e ∈ error.detail, e.2.Reportable Value.reportDepth := by
  cases error? with
  | none => exact iff_of_true rfl nofun
  | some error =>
    rw [reportError, isOk_map, Value.isOk_reportTable]
    simp only [Option.some.injEq, forall_eq']

theorem isOk_reportMetadata (metadata? : Option (List (String × Value))) :
    (reportMetadata metadata?).isOk ↔
      ∀ fields, metadata? = some fields → ∀ e ∈ fields, e.2.Reportable Value.reportDepth := by
  cases metadata? with
  | none => exact iff_of_true rfl nofun
  | some fields =>
    rw [reportMetadata, Value.isOk_reportTable]
    simp only [Option.some.injEq, forall_eq']

/-- A report shows a result if it holds its data, the detail of its error and its metadata. -/
theorem isOk_reportText (r : ServiceResult) :
    r.reportText.isOk ↔ (∀ e ∈ r.data, e.2.Reportable Value.reportDepth) ∧
      (∀ error, r.error? = some error → ∀ e ∈ error.detail, e.2.Reportable Value.reportDepth) ∧
      ∀ fields, r.metadata? = some fields → ∀ e ∈ fields, e.2.Reportable Value.reportDepth := by
  rw [reportText, isOk_map, report, ← isOk_reportError, ← isOk_reportMetadata,
    ← Value.isOk_reportTable]
  exact isOk_bind_and fun _ => isOk_bind_and fun _ => iff_of_eq (congrArg (· = true)
    (isOk_bind_pure _ _))

/-- A report shows a result without an error and metadata if it holds its data. -/
theorem isOk_reportText_of_data {r : ServiceResult} (he : r.error? = none)
    (hm : r.metadata? = none) :
    r.reportText.isOk ↔ ∀ e ∈ r.data, e.2.Reportable Value.reportDepth := by
  rw [isOk_reportText, he, hm]
  simp

/-- A failed result is displayed if its errors can be written. -/
theorem isOk_errorLines (display : Nat) (verbose : Bool) {r : ServiceResult} {e : ServiceError}
    (he : r.error? = some e) :
    (r.errorLines display verbose).isOk ↔
      ∀ errors, e.detail.lookup "errors" = some errors → errors.isWritable := by
  unfold errorLines
  rw [he]
  simp only
  cases e.detail.lookup "errors" with
  | none => simp [bind, Except.bind, pure, Except.pure]
  | some errors =>
    rw [isOk_bind_pure, Value.isOk_ifWritable]
    simp

/-- A failed result can be shown if a report holds its detail, and a display writes its errors. -/
theorem isOk_format_failure (op code message : String) (detail : List (String × Value))
    (warnings : List String) :
    ((failure op code message detail warnings).format s).isOk ↔
      if s.json then ∀ e ∈ detail, e.2.Reportable Value.reportDepth
      else s.quiet ∨ ∀ errors, detail.lookup "errors" = some errors → errors.isWritable := by
  unfold format
  by_cases hj : s.json
  · rw [if_pos hj, if_pos hj, isOk_reportText]
    simp [failure]
  · rw [if_neg hj, if_neg hj]
    by_cases hq : s.quiet
    · simp [hq, quietText, failure]
    · have herror : (failure op code message detail warnings).error? =
          some { code, message, detail } := rfl
      rw [if_neg hq, isOk_render, or_iff_right hq,
        ← isOk_errorLines (displayWidth s.width?) s.verbose herror]
      rfl

/-- What a listing holds of a name and a description. -/
def listed (item : String × String) : Value :=
  Value.record [("name", .str item.1), ("description", .str item.2)]

/-- The answer to a listing. -/
def ofListing (items : List (String × String)) (warnings : List String) : ServiceResult :=
  { ok := true, op := "list_actions", warnings, data := Service.listing items }

theorem isOk_quietText_listing (items : List (String × String)) (warnings : List String) :
    (ofListing items warnings).quietText.isOk := by
  have hnames : (items.map listed).mapM (·.subscript "name") =
      .ok (items.map fun item => .str item.1) := mapM_map_ok (fun _ => by rfl) items
  have htexts := Value.textsFrom_str 0 (items.map (·.1))
  rw [List.map_map] at htexts
  have hquiet : (ofListing items warnings).quietText =
      ((items.map listed).mapM (·.subscript "name") >>= fun names =>
        Value.texts names >>= fun ss => pure ("\n".intercalate ss)) := rfl
  rw [hquiet, hnames]
  exact (isOk_bind_pure _ _).trans (congrArg Except.isOk htexts)

theorem isOk_listLines_listing (display : Nat) (items : List (String × String))
    (warnings : List String) : ((ofListing items warnings).listLines display).isOk := by
  have hrows : ((items.map listed).mapM fun item => do
      let name ← (← item.subscript "name").displayText
      let description ← (← item.subscript "description").displayText
      pure [displayed name, displayed description]) =
        .ok (items.map fun item => [displayed item.1, displayed item.2]) :=
    mapM_map_ok (fun _ => by rfl) items
  cases items with
  | nil => rfl
  | cons item items =>
    have hlines : (ofListing (item :: items) warnings).listLines display =
      (((item :: items).map listed).mapM fun item => do
        let name ← (← item.subscript "name").displayText
        let description ← (← item.subscript "description").displayText
        pure [displayed name, displayed description]) >>= _ := rfl
    rw [hlines, hrows]
    rfl

/-- A listing can always be shown. -/
theorem isOk_format_listing (items : List (String × String)) (warnings : List String) :
    ((ofListing items warnings).format s).isOk := by
  have hitem : ∀ item, (listed item).Reportable (Value.reportDepth - 1) := fun item =>
    Value.reportable_record.2 (by simp)
  have hitems : (Value.list (items.map listed)).Reportable Value.reportDepth :=
    Value.reportable_list.2 (List.forall_mem_map.2 fun item _ => hitem item)
  unfold format
  split
  · rw [isOk_reportText_of_data rfl rfl]
    exact List.forall_mem_cons.2 ⟨Value.reportable_int _ _, List.forall_mem_singleton.2 hitems⟩
  · split
    · exact isOk_quietText_listing items warnings
    · rw [isOk_render]
      exact isOk_listLines_listing _ items warnings

/-! ### Descriptions -/

theorem isOk_displayText (v : Value) : v.displayText.isOk = v.isString := by
  cases v <;> rfl

/-- The fields of a side are displayed if their labels are texts. -/
theorem isOk_sideLines (display : Nat) {r : ServiceResult} {side : String}
    {fields : List (String × Field σ)} (h : r.field? side = some (Action.labels fields)) :
    (r.sideLines display side).isOk ↔ ∀ f ∈ fields, f.2.label.isString := by
  have hentries : ((r.field? side).getD (.dict [])).entriesOf =
      .ok (fields.map fun f => (Value.str f.1, f.2.label)) := by
    rw [h, Option.getD_some, Action.labels, Value.record, List.map_map]
    rfl
  unfold sideLines
  rw [hentries]
  refine (iff_of_eq (congrArg (· = true) (isOk_bind_pure _ _))).trans ?_
  rw [isOk_mapM_iff, List.forall_mem_map]
  refine forall₂_congr fun f _ => ?_
  rw [← isOk_displayText]
  exact iff_of_eq (congrArg (· = true) (isOk_bind_pure f.2.label.displayText _))

/-- The answer to a description. -/
def ofDescription (a : Action σ) : ServiceResult :=
  { ok := true, op := "describe_action", data := a.describe }

theorem isOk_describeLines (display : Nat) (a : Action σ) :
    ((ofDescription a).describeLines display).isOk ↔ ∀ l ∈ a.fieldLabels, l.isString := by
  have hjacks : (ofDescription a).field? "jacks" =
      some (Action.labels a.descriptor.jackTypes) := rfl
  have hprops : (ofDescription a).field? "props" =
      some (Action.labels a.descriptor.propTypes) := rfl
  have hlines : (ofDescription a).describeLines display =
      (ofDescription a).sideLines display "jacks" >>= fun jacks =>
        (ofDescription a).sideLines display "props" >>= fun props =>
          pure (Lines.ofText display a.name ++ Lines.ofText display a.description ++ jacks ++
            props) := rfl
  have hrest : ∀ jacks, ((ofDescription a).sideLines display "props" >>= fun props =>
      pure (Lines.ofText display a.name ++ Lines.ofText display a.description ++ jacks ++
        props)).isOk ↔ ∀ f ∈ a.descriptor.propTypes, f.2.label.isString := fun jacks => by
    rw [isOk_bind_pure, isOk_sideLines display hprops]
  rw [hlines, isOk_bind_and hrest, isOk_sideLines display hjacks, Action.fieldLabels,
    List.forall_mem_map, List.forall_mem_append]

/-- A description can be shown if a report holds its labels, and they are texts for a display. -/
theorem isOk_format_description (a : Action σ) :
    ((ofDescription a).format s).isOk ↔
      if s.json then ∀ l ∈ a.fieldLabels, l.Reportable (Value.reportDepth - 1)
      else s.quiet ∨ ∀ l ∈ a.fieldLabels, l.isString := by
  unfold format
  by_cases hj : s.json
  · have hlabels : ∀ fields : List (String × Field σ),
        (Action.labels fields).Reportable Value.reportDepth ↔
          ∀ f ∈ fields, f.2.label.Reportable (Value.reportDepth - 1) := fun fields =>
      Value.reportable_record.trans List.forall_mem_map
    have htext : ∀ text, (Value.str text).Reportable Value.reportDepth := fun text =>
      Value.reportable_str text _
    have hbool : ∀ b, (Value.bool b).Reportable Value.reportDepth := fun b =>
      Value.reportable_bool b _
    have hdata : (ofDescription a).data = a.describe := rfl
    rw [if_pos hj, if_pos hj, isOk_reportText_of_data rfl rfl, hdata]
    simp only [Action.describe, List.forall_mem_cons, htext, hbool, hlabels, Action.fieldLabels,
      List.forall_mem_map, List.forall_mem_append, List.not_mem_nil, false_implies, implies_true,
      true_and, and_true]
  · rw [if_neg hj, if_neg hj]
    by_cases hq : s.quiet
    · simp [hq, quietText, ofDescription]
    · rw [if_neg hq, isOk_render, or_iff_right hq, ← isOk_describeLines (displayWidth s.width?)]
      rfl

/-! ### Runs -/

/-- What a run gave can be shown in a report if it is not too deep, and elsewhere if it can be
written. -/
theorem isOk_format_doneRun (name : String) (warnings : List String) {x : Value} (hx : x.AnyData) :
    ((Service.doneRun name warnings x).format s).isOk ↔
      if s.json then x.levels ≤ Value.reportDepth else x.isWritable := by
  by_cases hj : s.json
  · rw [Service.format_report hj hx, if_pos hj, Value.inReport]
    split <;> simp [*]
  · rw [if_neg hj, ← Value.isOk_ifWritable x ((x.document true).render Json.Style.result)]
    rw [Bool.not_eq_true] at hj
    by_cases hq : s.quiet
    · rw [Service.format_quiet_eq hj hq hx]
    · have hlines : ∀ display, (Service.doneRun name warnings x).lines display s.verbose =
          x.resultText >>= fun text =>
            pure ((Service.doneRun name warnings x).headerLines display ++
              Lines.ofText display ("  action: " ++ name) ++ Lines.ofText display text) :=
        fun _ => rfl
      rw [format, hj, if_neg Bool.false_ne_true, if_neg hq, isOk_render, hlines, isOk_bind_pure,
        hx.resultText]

end ServiceResult

namespace Service

/-- The way in which a run ended can be shown. The value of a run is plain by then. -/
def Ending.Showable (s : OutputSettings) : Ending → Prop
  | done v => ∀ x, v.toPlain = .ok x →
    if s.json then x.levels ≤ Value.reportDepth else x.isWritable
  | rejected errors _ =>
    if s.json then errors.Reportable Value.reportDepth else s.quiet ∨ errors.isWritable
  | failed _ => True

/-- That a name is unknown can be shown with the names that are known. -/
def NamesShow (r : Registry σ) (s : OutputSettings) : Prop :=
  s.json → ∀ k ∈ r.actions.keys, k.Reportable (Value.reportDepth - 1)

/-- A description can be shown: the labels in it can. -/
def LabelsShow (a : Action σ) (s : OutputSettings) : Prop :=
  if s.json then ∀ l ∈ a.fieldLabels, l.Reportable (Value.reportDepth - 1)
  else s.quiet ∨ ∀ l ∈ a.fieldLabels, l.isString

theorem isOk_format_unknown {r : Registry σ} {op name : String} {result : ServiceResult}
    (h : unknownAction r op name = .ok result) (s : OutputSettings) :
    (result.format s).isOk ↔ NamesShow r s := by
  obtain ⟨names, hnames, rfl⟩ := map_eq_ok_iff.1 h
  obtain ⟨sorted, hsorted, rfl⟩ := map_eq_ok_iff.1 hnames
  have hperm : (Keyed.keys sorted).Perm r.actions.keys := (Keyed.sort_perm hsorted).map Prod.fst
  rw [ServiceResult.isOk_format_failure, NamesShow]
  by_cases hj : s.json
  · have hname : (Value.str name).Reportable Value.reportDepth := Value.reportable_str name _
    have hnames : (Value.list (Keyed.keys sorted)).Reportable Value.reportDepth ↔
        ∀ k ∈ Keyed.keys sorted, k.Reportable (Value.reportDepth - 1) := Value.reportable_list
    rw [if_pos hj, List.forall_mem_cons, List.forall_mem_singleton, hnames]
    simp only [hperm.mem_iff, hname, true_and, hj, forall_const]
  · have herrors : [("name", Value.str name), ("available", .list (Keyed.keys sorted))].lookup
        "errors" = none := rfl
    simp [hj, herrors]

theorem isOk_format_ending {name : String} {warnings : List String} {ending : Ending}
    {result : ServiceResult} (h : ending.result "run_action" name warnings = .ok result)
    (s : OutputSettings) : (result.format s).isOk ↔ ending.Showable s := by
  cases ending with
  | done v =>
    obtain ⟨x, hx, hresult⟩ := bind_eq_ok_iff.1 h
    cases hresult
    refine (ServiceResult.isOk_format_doneRun s name warnings (Value.data_toPlain v hx)).trans ?_
    simp [Ending.Showable, hx]
  | rejected errors summary =>
    cases h
    rw [ServiceResult.isOk_format_failure, Ending.Showable]
    have hname : (Value.str name).Reportable Value.reportDepth := Value.reportable_str name _
    have herrors : [("action", Value.str name), ("errors", errors)].lookup "errors" =
        some errors := rfl
    rw [List.forall_mem_cons, List.forall_mem_singleton, herrors]
    simp [hname]
  | failed text =>
    cases h
    rw [ServiceResult.isOk_format_failure, Ending.Showable, List.forall_mem_singleton]
    split
    · exact iff_of_true (Value.reportable_str name _) trivial
    · exact iff_of_true (.inr nofun) trivial

/-- Which answers can be shown. A listing always can. Where a name is unknown, a report has to hold
the known ones. A description can be shown if its labels can. What a run gave is shown in a report
if it has no more levels than that follows, and elsewhere if its whole numbers are short. The
reasons for which a run was rejected, as the observers have left them, are shown in a report only if
that can hold them, and in a display if their whole numbers are short. -/
theorem shown_iff (r : Registry σ) (name : String) (jacks props : Value) (scene : Scene σ)
    (s : OutputSettings) :
    (∀ result, list r = .ok result → (result.format s).isOk) ∧
    (∀ result, describe r name = .ok result →
      ((result.format s).isOk ↔ match r.get? (.str name) with
        | none => NamesShow r s
        | some a => LabelsShow a s)) ∧
    (∀ result t, (run r name jacks props).runIn scene = (.ok result, t) →
      ((result.format s).isOk ↔ match r.get? (.str name) with
        | none => NamesShow r s
        | some a => ∃ outcome u ending,
          (a.call jacks props).runIn (scene.binding "action" (.str name)) = (outcome, u) ∧
            endingOf r.plugins name outcome u = .ok ending ∧ ending.Showable s)) := by
  refine ⟨fun result h => ?_, fun result h => ?_, fun result t h => ?_⟩
  · rw [list_eq] at h
    obtain ⟨sorted, -, rfl⟩ := map_eq_ok_iff.1 h
    exact ServiceResult.isOk_format_listing s _ _
  · cases hget : r.get? (.str name) with
    | none =>
      rw [describe, hget] at h
      exact isOk_format_unknown h s
    | some a =>
      rw [describe_of_known hget] at h
      cases h
      exact ServiceResult.isOk_format_description s a
  · cases hget : r.get? (.str name) with
    | none =>
      rw [runIn_run_unknown hget] at h
      exact isOk_format_unknown (congrArg Prod.fst h) s
    | some a =>
      rcases hcall : (a.call jacks props).runIn (scene.binding "action" (.str name)) with
        ⟨outcome, u⟩
      obtain ⟨ending, _, hending, hresult⟩ := ending_of_run hget hcall (congrArg Prod.fst h)
      rw [isOk_format_ending hresult]
      constructor
      · exact fun hshow => ⟨outcome, u, ending, hcall, hending, hshow⟩
      · rintro ⟨_, _, other, hother, hsame, hshow⟩
        cases hcall.symm.trans hother
        cases hending.symm.trans hsame
        exact hshow

/-- A check that rejects everything because of something that is absent. -/
def refusing : CustomStep Unit :=
  ⟨none, fun _ => throw (.rejected (.record [("item", .undefined)]))⟩

def ordering : Action Unit :=
  ⟨0, ⟨"Order", "Orders an item", [], [("item", .checked (Validator.root.compose refusing none))],
    fun _ _ => pure .null, none, none⟩⟩

def orderRegistry : Registry Unit := ⟨.empty, [(.str "Order", ordering)], []⟩

/-- A rejected run answers with a result that no report can show. -/
theorem absent_reason_unshown :
    ∃ result, ((run orderRegistry "Order" .null .null).runIn (.initial ())).1 = .ok result ∧
      result.code? = some "VALIDATION_FAILED" ∧
      result.format { json := true } = .error (Value.unreported .undefined) :=
  ⟨_, rfl, rfl, rfl⟩

end Service
end CheckedActions
