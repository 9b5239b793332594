import CheckedActions.Cli.JsonParameter
import CheckedActions.Display.Report
import CheckedActions.Proofs.BareTexts
import CheckedActions.Proofs.Endings
import CheckedActions.Proofs.JsonReading
import CheckedActions.Proofs.Meanings

/-!
How the results of successful runs are printed. On its own a result is printed as JSON with sorted
names, and can be given back to a run as a parameter. A report holds the same data, if that has no
more levels than a report follows.
-/

namespace CheckedActions

open Value (Same)
open Json (IsText)

variable {σ : Type}

/-- The answer of a run that succeeded with the given plain form. -/
def Service.doneRun (name : String) (warnings : List String) (x : Value) : ServiceResult :=
  { ok := true, op := "run_action", warnings, data := [("action", .str name), ("result", x)] }

namespace ServiceResult

/-- The result is the answer of a run, in some registry and some scene, that succeeded. -/
def Gives (result : ServiceResult) (x : Value) : Prop :=
  ∃ (σ : Type) (r : Registry σ) (name : String) (jacks props : Value) (s : Scene σ),
    ((Service.run r name jacks props).runIn s).1 = .ok result ∧ result.ok ∧
      result.field? "result" = some x

/-- What a successful run gives is plain data, and its answer holds nothing else. -/
theorem Gives.done {result : ServiceResult} {x : Value} (h : result.Gives x) :
    x.AnyData ∧ ∃ name warnings, result = Service.doneRun name warnings x := by
  obtain ⟨σ, r, name, jacks, props, s, hrun, hok, hx⟩ := h
  cases hget : r.get? (.str name) with
  | none =>
    rw [Service.runIn_run_unknown hget, Service.unknownAction] at hrun
    obtain ⟨names, -, rfl⟩ := map_eq_ok_iff.1 hrun
    nomatch hok
  | some a =>
    obtain ⟨ending, warnings, -, hresult⟩ := Service.ending_of_run hget rfl hrun
    cases ending with
    | done v =>
      obtain ⟨plain, hplain, hdone⟩ := bind_eq_ok_iff.1 hresult
      cases hdone
      cases hx
      exact ⟨Value.data_toPlain v hplain, _, _, rfl⟩
    | rejected errors summary =>
      cases hresult
      nomatch hok
    | failed text =>
      cases hresult
      nomatch hok

end ServiceResult

namespace Service

/-- A run whose action returns plain data gives that data. -/
theorem run_of_returns {r : Registry σ} {name : String} {a : Action σ}
    (h : r.get? (.str name) = some a) {jacks props x : Value} {s t : Scene σ}
    (hcall : (a.call jacks props).runIn (s.binding "action" (.str name)) = (.ok x, t))
    (hx : x.AnyData) :
    ((run r name jacks props).runIn s).1 =
      .ok (doneRun name (toldWarnings (telling r.plugins ⟨name, true, .null⟩ t).1) x) := by
  have hresult : ∀ warnings, (Ending.done x).result "run_action" name warnings =
      .ok (doneRun name warnings x) := fun warnings => by
    rw [Ending.result, hx.toPlain_eq]
    rfl
  rw [runIn_run_known h hcall rfl]
  exact hresult _

variable {s : OutputSettings} {name : String} {warnings : List String} {x : Value}

/-! ### Results on their own -/

/-- The minimum of a run that succeeded is its result. -/
theorem format_quiet (hj : s.json = false) (hq : s.quiet) :
    (doneRun name warnings x).format s = x.resultText := by
  rw [ServiceResult.format, hj, if_neg Bool.false_ne_true, if_pos hq]
  rfl

theorem format_quiet_eq (hj : s.json = false) (hq : s.quiet) (hx : x.AnyData) (name : String)
    (warnings : List String) :
    (doneRun name warnings x).format s =
      x.ifWritable ((x.document true).render Json.Style.result) := by
  rw [format_quiet hj hq, hx.resultText]

/-- Plain data of short numbers that a style can write is written as a JSON text. -/
theorem isText_document {st : Json.Style} (hst : st.IsFaithful) {floats : Binary64 → Prop}
    (hf : ∀ y, floats y → st.Shows y) (hx : x.Data (isShort ·) floats) (sorted : Bool) :
    IsText .short ((x.document sorted).render st).toList (x.document sorted).meaning := by
  have hshort : ∀ n, isShort n → (Nat.toDigits 10 n.natAbs).length ≤ digitLimit := fun n h => by
    simpa [isShort] using h
  exact (hx.fits hshort hf sorted).isText hst

theorem isText_result (hx : x.Data (isShort ·) fun y => y.isFinite) :
    IsText .short ((x.document true).render Json.Style.result).toList
      (x.document true).meaning :=
  isText_document Json.Style.isFaithful_result (fun _ => .inl) hx true

/-- What a run gives can be fed back. A dictionary of plain data without doubles is printed as a
text that stands for it as a parameter, and any run that gives the same data is printed alike. -/
theorem printed_reads_back {result : ServiceResult} {es : Entries}
    (h : result.Gives (.dict es)) (hx : (Value.dict es).Data (isShort ·) fun _ => False)
    (hj : s.json = false) (hq : s.quiet) :
    ∃ text, result.format s = .ok text ∧
      (∃ y, Cli.objectOfValue (.str text) = .ok y ∧ Same y (.dict es)) ∧
      ∀ (other : ServiceResult) (fs : Entries), other.Gives (.dict fs) →
        ((Value.dict fs).Data (isShort ·) fun _ => False) → Same (.dict es) (.dict fs) →
        other.format s = .ok text := by
  obtain ⟨-, name, warnings, rfl⟩ := h.done
  have hwritable := hx.any.isWritable_iff.2 (hx.mono (fun _ => id) fun _ => False.elim)
  have hformat := format_quiet_eq hj hq hx.any name warnings
  rw [Value.ifWritable, if_pos hwritable] at hformat
  refine ⟨_, hformat, ?_, ?_⟩
  · have htext := isText_result (hx.mono (fun _ => id) fun _ => False.elim)
    have hsame := hx.any.same_meaning
    rw [hx.meaning_eq] at hsame
    refine ⟨_, ?_, hsame⟩
    cases hx with | dict hn hd _ =>
    obtain ⟨gs, hgs, -⟩ := Value.meaning_dict hn hd true
    rw [Cli.objectOfValue, Cli.objectOfText, htext.read, hgs, Cli.objectOf]
  · intro other fs hother hy hsame
    obtain ⟨-, name', warnings', rfl⟩ := hother.done
    have hwritable' := hy.any.isWritable_iff.2 (hy.mono (fun _ => id) fun _ => False.elim)
    rw [format_quiet_eq hj hq hy.any name' warnings', Value.ifWritable, if_pos hwritable',
      hsame.document_eq hx.any hy.any]

/-- An action that answers with a given value. -/
def answering (v : Value) : Action Unit :=
  ⟨0, ⟨"Answer", "Answers with a given value", [], [], fun _ _ => pure v, none, none⟩⟩

def answeringRegistry (v : Value) : Registry Unit := ⟨.empty, [(.str "Answer", answering v)], []⟩

/-- An action that answers with plain data gives it. -/
theorem answering_gives {v : Value} (hv : v.AnyData) : (doneRun "Answer" [] v).Gives v := by
  have hcall : ((answering v).call .null .null).runIn
      ((Scene.initial ()).binding "action" (.str "Answer")) = (.ok v, _) := rfl
  have hknown : (answeringRegistry v).get? (.str "Answer") = some (answering v) := rfl
  exact ⟨_, _, _, _, _, _, run_of_returns hknown hcall hv, rfl, rfl⟩

def street : Entries :=
  [(.str "name", .str "Zürcher Gasse"), (.str "numbers", .list [.int 12, .int (-3)])]

theorem data_street : (Value.dict street).Data (isShort ·) fun _ => False := by
  have hnumbers : (Value.list [.int 12, .int (-3)]).Data (isShort ·) fun _ => False :=
    .list (by simpa using ⟨.int (by decide), .int (by decide)⟩)
  refine .dict ?_ (by decide) ?_
  · simp [Keyed.Named, street]
  · simpa [street] using ⟨.str _, hnumbers⟩

/-- A street is read back, and is printed alike when its entries are turned round. -/
theorem street_reads_back :
    ∃ text, (doneRun "Answer" [] (.dict street)).format { quiet := true } = .ok text ∧
      (∃ y, Cli.objectOfValue (.str text) = .ok y ∧ Same y (.dict street)) ∧
      (doneRun "Answer" [] (.dict street.reverse)).format { quiet := true } = .ok text := by
  have hperm : street.Perm street.reverse := (List.reverse_perm street).symm
  have hdata := data_street.perm hperm
  have hsame : Same (.dict street) (.dict street.reverse) := Value.same_of_perm (by decide) hperm
  obtain ⟨text, hformat, hread, hother⟩ :=
    printed_reads_back (answering_gives data_street.any) data_street (s := { quiet := true })
      rfl rfl
  exact ⟨text, hformat, hread, hother _ _ (answering_gives hdata.any) hdata hsame⟩

/-! ### Reports -/

/-- A report of a successful run is plain data if what the run gave is. -/
theorem data_fields {ints : Int → Prop} {floats : Binary64 → Prop} (hx : x.Data ints floats)
    (name : String) (warnings : List String) :
    (Value.record (doneRun name warnings x).fields).Data ints floats := by
  have hdata : (Value.record [("action", .str name), ("result", x)]).Data ints floats :=
    .record (by simp) (List.forall_mem_cons.2 ⟨.str name, by simpa using hx⟩)
  have hwarnings : (Value.list (warnings.map .str)).Data ints floats :=
    .list (List.forall_mem_map.2 fun s _ => .str s)
  refine .record ?_ ?_
  · simp [ServiceResult.fields]
  · simp only [ServiceResult.fields, List.forall_mem_cons]
    exact ⟨.bool _, .str _, hdata, hwarnings, .null, .null, nofun⟩

/-- What is printed in whole is all of a result as plain data, if what the run gave is not too deep
for a report. -/
theorem format_report {t : OutputSettings} (ht : t.json) (hx : x.AnyData) (name : String)
    (warnings : List String) :
    (doneRun name warnings x).format t =
      Value.inReport x.levels Value.reportDepth
        (((Value.record (doneRun name warnings x).fields).document false).render
          Json.Style.report) := by
  have hwarnings : Value.documents false (warnings.map .str) = warnings.map .text := by
    rw [Value.documents_eq_map, List.map_map]
    rfl
  have hdocument : (Value.record (doneRun name warnings x).fields).document false = .object
      [("ok", .bool true), ("op", .text "run_action"),
       ("data", .object [("action", .text name), ("result", x.document false)]),
       ("warnings", .array (warnings.map .text)), ("error", .null), ("meta", .null)] := by
    rw [← hwarnings]
    rfl
  have hresult := hx.toReport Value.reportDepth
  have haction : (Value.str name).toReport Value.reportDepth = .ok (.text name) := rfl
  rw [ServiceResult.format, if_pos ht, ServiceResult.reportText, hdocument]
  unfold Value.inReport at hresult ⊢
  by_cases hdeep : x.levels ≤ Value.reportDepth
  · rw [if_pos hdeep] at hresult ⊢
    simp only [ServiceResult.report, doneRun, Value.reportTable, Value.reportFields, haction,
      hresult]
    rfl
  · rw [if_neg hdeep] at hresult ⊢
    simp only [ServiceResult.report, doneRun, Value.reportTable, Value.reportFields, haction,
      hresult]
    rfl

theorem read_report (hx : x.AnyData) (hw : x.isWritable) (name : String) (warnings : List String) :
    Json.read (((Value.record (doneRun name warnings x).fields).document false).render
      Json.Style.report).toList =
        .ok ((Value.record (doneRun name warnings x).fields).document false).meaning :=
  (isText_document Json.Style.isFaithful_report (fun y _ => Json.Style.report_shows y)
    (data_fields (hx.isWritable_iff.1 hw) name warnings) false).read

/-- The data of a report stands for what the run gave. -/
theorem along?_meaning_report (name : String) (warnings : List String) (x : Value) :
    ((Value.record (doneRun name warnings x).fields).document false).meaning.along?
      ["data", "result"] = some (x.document false).meaning := by
  have hfields : ((doneRun name warnings x).fields.map (·.1)).Nodup := by
    simp [ServiceResult.fields]
  have hdata : (doneRun name warnings x).fields.lookup "data" =
      some (.record [("action", .str name), ("result", x)]) := rfl
  have hresult : [("action", Value.str name), ("result", x)].lookup "result" = some x := rfl
  rw [Value.along?_meaning_record hfields, hdata, Option.bind_some,
    Value.along?_meaning_record (by simp), hresult, Option.bind_some, Value.along?_nil]

/-- A result on its own is printed as a JSON text exactly if its numbers are finite. -/
theorem isText_quiet_iff (hx : x.AnyData) :
    (∃ v, IsText .grammar ((x.document true).render Json.Style.result).toList v) ↔
      x.Data (fun _ => True) fun y => y.isFinite := by
  have hfits : (x.document true).Fits (fun _ => True) fun _ => True :=
    hx.fits (fun _ => id) (fun _ => id) true
  rw [Json.Document.isText_result_iff hfits]
  exact ⟨fun h => hx.data_of_fits h, fun h => h.fits (fun _ => id) (fun _ => id) true⟩

/-- What is printed of a successful run. A report is a JSON text, whose data is what the run gave,
if that is not too deep for it, and fails otherwise. On its own a result is printed if its whole
numbers are short, however deep it is. That is a JSON text exactly if its doubles are finite, and
then it stands for the same data as the report. -/
theorem printed_agree {result : ServiceResult} (h : result.Gives x) (hj : s.json = false)
    (hq : s.quiet) {t : OutputSettings} (ht : t.json) :
    ∃ report doc d,
      (x.levels ≤ Value.reportDepth → result.format t = .ok report) ∧
      (Value.reportDepth < x.levels → result.format t = .error Value.endlessReport) ∧
      IsText .exact report.toList doc ∧ doc.along? ["data", "result"] = some d ∧
      (¬ x.isWritable → result.format s = .error .tooLongToWrite) ∧
      (x.isWritable → Json.read report.toList = .ok doc ∧
        ∃ text, result.format s = .ok text ∧
          ((∃ v, IsText .grammar text.toList v) ↔
            x.Data (fun _ => True) fun y => y.isFinite) ∧
          (x.Data (fun _ => True) (fun y => y.isFinite) → ∃ v,
            IsText .short text.toList v ∧ Json.read text.toList = .ok v ∧ Same v d)) := by
  obtain ⟨hx, name, warnings, rfl⟩ := h.done
  have hformat := format_quiet_eq hj hq hx name warnings
  have hreport := data_fields hx name warnings
  have hwhole := format_report ht hx name warnings
  refine ⟨((Value.record (doneRun name warnings x).fields).document false).render
      Json.Style.report, _, _, fun hl => ?_, fun hl => ?_, ?_,
    along?_meaning_report name warnings x, fun hw => ?_, fun hw => ⟨?_, ?_⟩⟩
  · rw [hwhole, Value.inReport, if_pos hl]
  · rw [hwhole, Value.inReport, if_neg (Nat.not_le.2 hl)]
  · exact (hreport.fits (fun _ => id) (fun y _ => Json.Style.report_shows y) false).isText
      Json.Style.isFaithful_report
  · rw [hformat, Value.ifWritable, if_neg hw]
  · exact read_report hx hw name warnings
  · rw [Value.ifWritable, if_pos hw] at hformat
    refine ⟨_, hformat, isText_quiet_iff hx, fun hfinite => ?_⟩
    have htext := isText_result (hfinite.isWritable_iff.1 hw)
    exact ⟨_, htext, htext.read, hx.same_meaning⟩

/-- The number one, in a list. -/
def ones : Value := .list [.float (.finite false (pow2 52) 1022)]

/-- The two texts of that list stand for the same data. -/
theorem ones_agree :
    ∃ report doc d text v,
      (doneRun "Answer" [] ones).format { json := true } = .ok report ∧
      Json.read report.toList = .ok doc ∧ doc.along? ["data", "result"] = some d ∧
      (doneRun "Answer" [] ones).format { quiet := true } = .ok text ∧
      IsText .short text.toList v ∧ Json.read text.toList = .ok v ∧ Same v d := by
  have hones : ones.Data (fun _ => True) fun y => y.isFinite := .list (by simpa using .float rfl)
  obtain ⟨report, doc, d, hreport, -, -, hd, -, hprinted⟩ :=
    printed_agree (answering_gives hones.any) (s := { quiet := true }) rfl rfl
      (t := { json := true }) rfl
  obtain ⟨hread, text, htext, -, hagree⟩ := hprinted rfl
  obtain ⟨v, hv, hreadv, hsame⟩ := hagree hones
  exact ⟨report, doc, d, text, v, hreport (by decide), hread, hd, htext, hv, hreadv, hsame⟩

/-- What no number is printed as is no JSON text, and stands for nothing that a report holds. -/
theorem nan_printed_apart :
    ∃ result : ServiceResult,
      ((run (answeringRegistry (.float .nan)) "Answer" .null .null).runIn (.initial ())).1 =
        .ok result ∧ result.ok ∧
      result.format { quiet := true } = .ok "NaN" ∧
      (∀ l v, ¬ IsText l "NaN".toList v) ∧
      ∃ report doc, result.format { json := true } = .ok report ∧
        Json.read report.toList = .ok doc ∧ doc.along? ["data", "result"] = some .null := by
  refine ⟨doneRun "Answer" [] (.float .nan), rfl, rfl, rfl, fun l v h => ?_, ?_⟩
  · nomatch h.bare
  · have hx : (Value.float .nan).AnyData := .float trivial
    exact ⟨_, _, format_report (t := { json := true }) rfl hx "Answer" [],
      read_report hx rfl "Answer" [], along?_meaning_report "Answer" [] (.float .nan)⟩

end Service
end CheckedActions
