import CheckedActions.Json.Report
import CheckedActions.Json.Sorted
import CheckedActions.Proofs.PlainForms
import CheckedActions.Proofs.Reportable

/-!
Documents of plain data. A report and a result that is printed on its own hold the same document of
plain data, but for the order of members: the one keeps the order of the entries and the other sorts
them. So results that are equal as mappings are printed alike. Only the report has a limit to its
levels.
-/

namespace CheckedActions

open Json (Document)

namespace Json

/-- Members in the order of their names. -/
def sortMembers (ms : List (String × Document)) : List (String × Document) :=
  ms.mergeSort fun a b => !decide (b.1 < a.1)

theorem sortMembers_perm (ms : List (String × Document)) : (sortMembers ms).Perm ms :=
  List.mergeSort_perm ms _

theorem pairwise_sortMembers {ms : List (String × Document)} (h : (ms.map (·.1)).Nodup) :
    (sortMembers ms).Pairwise fun a b => a.1 < b.1 := by
  have hnames : (sortMembers ms).map (·.1) =
      (ms.map (·.1)).mergeSort fun s t => !decide (t < s) :=
    List.map_mergeSort fun a _ b _ => rfl
  have hnodup : ((sortMembers ms).map (·.1)).Nodup :=
    (((sortMembers_perm ms).map (·.1)).nodup_iff).2 h
  have hle : ((sortMembers ms).map (·.1)).Pairwise (· ≤ ·) :=
    hnames ▸ Keyed.pairwise_sorted_texts _
  refine List.pairwise_map.1 ?_
  exact (List.pairwise_and_iff.2 ⟨hle, hnodup⟩).imp fun ⟨hle, hne⟩ => Std.lt_of_le_of_ne hle hne

/-- How members with different names were ordered does not show once they are sorted. -/
theorem sortMembers_eq {ms ns : List (String × Document)} (h : (ms.map (·.1)).Nodup)
    (hp : ms.Perm ns) : sortMembers ms = sortMembers ns := by
  have hn : (ns.map (·.1)).Nodup := ((hp.map (·.1)).nodup_iff).1 h
  refine List.Perm.eq_of_pairwise ?_ (pairwise_sortMembers h) (pairwise_sortMembers hn)
    ((sortMembers_perm ms).trans (hp.trans (sortMembers_perm ns).symm))
  intro a b _ _ hab hba
  exact absurd (String.lt_trans hab hba) (String.lt_irrefl a.1)

end Json

namespace Value

mutual
/-- The document of plain data, with sorted members if wanted. -/
def document (sorted : Bool) : Value → Document
  | bool b => .bool b
  | int n => .int n
  | float x => .float x
  | str s => .text s
  | list xs => .array (documents sorted xs)
  | dict es =>
    .object (if sorted then Json.sortMembers (memberDocuments sorted es)
      else memberDocuments sorted es)
  | _ => .null
termination_by structural v => v

def documents (sorted : Bool) : List Value → List Document
  | [] => []
  | x :: xs => x.document sorted :: documents sorted xs
termination_by structural xs => xs

def memberDocuments (sorted : Bool) : List (Value × Value) → List (String × Document)
  | [] => []
  | (k, v) :: es => (k.text, v.document sorted) :: memberDocuments sorted es
termination_by structural es => es
end

theorem documents_eq_map (sorted : Bool) (xs : List Value) :
    documents sorted xs = xs.map (document sorted) := by
  induction xs with
  | nil => rfl
  | cons x xs ih => rw [documents, ih, List.map_cons]

theorem memberDocuments_eq_map (sorted : Bool) (es : Entries) :
    memberDocuments sorted es = es.map fun e => (e.1.text, e.2.document sorted) := by
  induction es with
  | nil => rfl
  | cons e es ih => rw [memberDocuments, ih, List.map_cons]

theorem names_memberDocuments (sorted : Bool) (es : Entries) :
    (memberDocuments sorted es).map (·.1) = es.map (·.1.text) := by
  rw [memberDocuments_eq_map, List.map_map]
  rfl

/-! ### Reports -/

/-- What a report that goes on for so many levels makes of a value that has a document. -/
def inReport {α : Type} (levels room : Nat) (d : α) : Except Failure α :=
  if levels ≤ room then .ok d else .error endlessReport

/-- A report that goes on in two places goes on for the levels of the deeper one. -/
theorem inReport_both {α β γ : Type} {m n room : Nat} (a : α) (b : β) (f : α → β → γ) :
    (do
      let x ← inReport m room a
      let y ← inReport n room b
      pure (f x y)) = inReport (max m n) room (f a b) := by
  unfold inReport
  by_cases hm : m ≤ room
  · by_cases hn : n ≤ room
    · rw [if_pos hm, if_pos hn, if_pos (Nat.max_le.2 ⟨hm, hn⟩)]
      rfl
    · rw [if_pos hm, if_neg hn, if_neg fun h => hn (Nat.max_le.1 h).2]
      rfl
  · rw [if_neg hm, if_neg fun h => hm (Nat.max_le.1 h).1]
    rfl

theorem reportItems_eq {xs : List Value} {room : Nat}
    (h : ∀ x ∈ xs, x.toReport room = inReport x.levels room (x.document false)) :
    reportItems xs room = inReport (levelsAmong xs) room (documents false xs) := by
  induction xs with
  | nil => rfl
  | cons x xs ih =>
    have hx := h x List.mem_cons_self
    have hxs := ih fun y hy => h y (List.mem_cons_of_mem x hy)
    rw [reportItems, hx, hxs]
    exact inReport_both _ _ _

theorem reportEntries_eq {es : Entries} (hn : es.Named) {room : Nat}
    (h : ∀ e ∈ es, e.2.toReport room = inReport e.2.levels room (e.2.document false)) :
    reportEntries es room = inReport (levelsInEntries es) room (memberDocuments false es) := by
  induction es with
  | nil => rfl
  | cons e es ih =>
    obtain ⟨k, v⟩ := e
    obtain ⟨name, rfl⟩ := hn (k, v) List.mem_cons_self
    have hv : v.toReport room = inReport v.levels room (v.document false) :=
      h _ List.mem_cons_self
    have hes := ih (fun d hd => hn d (List.mem_cons_of_mem _ hd))
      fun d hd => h d (List.mem_cons_of_mem _ hd)
    have hname : (str name).reportKey = .ok name := rfl
    rw [reportEntries, hname, hv, hes]
    exact inReport_both _ _ _

theorem map_inReport {α β : Type} (f : α → β) (n room : Nat) (d : α) :
    (inReport n room d).map f = inReport (n + 1) (room + 1) (f d) := by
  unfold inReport
  by_cases h : n ≤ room <;> simp [h, Except.map]

/-- A report can hold plain data that has no more levels than it goes on for, and holds it in its
order. -/
theorem AnyData.toReport {v : Value} (h : v.AnyData) (room : Nat) :
    v.toReport room = inReport v.levels room (v.document false) := by
  induction h generalizing room with
  | list _ ih =>
    cases room with
    | zero => rfl
    | succ room => rw [Value.toReport, reportItems_eq fun x hx => ih x hx room, map_inReport]; rfl
  | dict hn _ _ ih =>
    cases room with
    | zero => rfl
    | succ room =>
      rw [Value.toReport, reportEntries_eq hn fun e he => ih e he room, map_inReport]; rfl
  | _ => cases room <;> rfl

/-! ### Results on their own -/

theorem documentItems_eq {xs : List Value}
    (h : ∀ x ∈ xs, x.toSorted = x.ifWritable (x.document true)) :
    documentItems true written xs =
      if areWritable xs then .ok (documents true xs) else .error .tooLongToWrite := by
  induction xs with
  | nil => rfl
  | cons x xs ih =>
    have hx : x.toDocument true written = x.ifWritable (x.document true) :=
      h x List.mem_cons_self
    have hxs := ih fun y hy => h y (List.mem_cons_of_mem x hy)
    rw [documentItems, hx, hxs]
    by_cases hw : x.isWritable
    · by_cases hws : areWritable xs
      · simp only [ifWritable, areWritable, hw, hws, Bool.and_self, if_true]
        rfl
      · simp [ifWritable, areWritable, hw, hws, bind, Except.bind]
    · simp [ifWritable, areWritable, hw, bind, Except.bind]

theorem documentEntries_eq_map (es : Entries) :
    documentEntries true written es = es.map fun e => (e.1, e.2.toSorted) := by
  induction es with
  | nil => rfl
  | cons e es ih => rw [documentEntries, ih, List.map_cons]; rfl

theorem collectMembers_eq {es : Entries} (hn : es.Named)
    (h : ∀ e ∈ es, e.2.toSorted = e.2.ifWritable (e.2.document true)) :
    Json.collectMembers (es.map fun e => (e.1, e.2.toSorted)) =
      if areWritableEntries es then .ok (es.map fun e => (e.1.text, e.2.document true))
      else .error .tooLongToWrite := by
  induction es with
  | nil => rfl
  | cons e es ih =>
    obtain ⟨k, v⟩ := e
    obtain ⟨name, rfl⟩ := hn (k, v) List.mem_cons_self
    have hv : v.toSorted = v.ifWritable (v.document true) := h _ List.mem_cons_self
    have hes := ih (fun d hd => hn d (List.mem_cons_of_mem _ hd))
      fun d hd => h d (List.mem_cons_of_mem _ hd)
    simp only [List.map_cons, Json.collectMembers, hv, hes, keyText]
    by_cases hw : v.isWritable
    · by_cases hws : areWritableEntries es
      · simp only [ifWritable, areWritableEntries, isWritable, hw, hws, Bool.and_self, if_true]
        rfl
      · simp [ifWritable, areWritableEntries, isWritable, hw, hws, bind, Except.bind]
    · simp [ifWritable, areWritableEntries, isWritable, hw, bind, Except.bind]

/-- The members of a dictionary are sorted with what has become of their values, and that is
collected from the sorted ones. -/
theorem objectOf_eq {es : Entries} (hn : es.Named)
    (h : ∀ e ∈ es, e.2.toSorted = e.2.ifWritable (e.2.document true)) :
    Json.objectOf true (documentEntries true written es) =
      (dict es).ifWritable ((dict es).document true) := by
  let sorted := es.mergeSort fun a b => !b.1.keyLess a.1
  have hperm : sorted.Perm es := List.mergeSort_perm es _
  have hsorted : Keyed.Named sorted := fun e he => hn e (hperm.mem_iff.1 he)
  have hmembers : (es.map fun e => (e.1, e.2.toSorted)).mergeSort
      (fun a b => !b.1.keyLess a.1) = sorted.map fun e => (e.1, e.2.toSorted) :=
    (List.map_mergeSort (f := fun e : Value × Value => (e.1, e.2.toSorted)) fun _ _ _ _ => rfl).symm
  have hnamed : Keyed.Named (es.map fun e => (e.1, e.2.toSorted)) := by
    intro m hm
    obtain ⟨e, he, rfl⟩ := List.mem_map.1 hm
    exact hn e he
  have hdocument : Json.sortMembers (memberDocuments true es) =
      sorted.map fun e => (e.1.text, e.2.document true) := by
    rw [memberDocuments_eq_map]
    refine (List.map_mergeSort fun a ha b hb => ?_).symm
    obtain ⟨m, hm⟩ := hn a ha
    obtain ⟨n, hn⟩ := hn b hb
    simp only [hm, hn, text, keyLess]
  have hwritable : areWritableEntries sorted = areWritableEntries es := by
    rw [Bool.eq_iff_iff, areWritableEntries_iff hsorted, areWritableEntries_iff hn]
    simp only [hperm.mem_iff]
  have hcollect := collectMembers_eq hsorted fun e he => h e (hperm.mem_iff.1 he)
  rw [Json.objectOf, documentEntries_eq_map, hnamed.sort_eq, hmembers]
  simp only [if_true, bind, Except.bind, hcollect, hwritable, ← hdocument]
  by_cases hw : areWritableEntries es
  · simp [ifWritable, isWritable, document, hw, pure, Except.pure]
  · simp [ifWritable, isWritable, hw]

/-- Plain data is printed with sorted members, or not at all if a whole number in it is too long. -/
theorem AnyData.toSorted {v : Value} (h : v.AnyData) :
    v.toSorted = v.ifWritable (v.document true) := by
  induction h with
  | @list xs _ ih =>
    rw [Value.toSorted, toDocument, documentItems_eq ih]
    simp only [ifWritable, isWritable, document]
    by_cases hw : areWritable xs
    · simp [hw, Except.map]
    · simp [hw, Except.map]
  | dict hn _ _ ih =>
    rw [Value.toSorted, toDocument]
    exact objectOf_eq hn ih
  | _ => rfl

theorem AnyData.resultText {v : Value} (h : v.AnyData) :
    v.resultText = v.ifWritable ((v.document true).render Json.Style.result) := by
  rw [Value.resultText, h.toSorted]
  unfold ifWritable
  split <;> rfl

/-! ### Equal mappings -/

/-- The same data, dictionaries being compared as mappings at every level. Truth values are no
numbers. -/
inductive Same : Value → Value → Prop
  | refl (v : Value) : Same v v
  | list {xs ys : List Value} (hl : xs.length = ys.length)
    (h : ∀ (i : Nat) (x y : Value), xs[i]? = some x → ys[i]? = some y → Same x y) :
    Same (list xs) (list ys)
  | dict {es fs : Entries} (hk : ∀ k, (es.get? k).isSome = (fs.get? k).isSome)
    (h : ∀ k x y, es.get? k = some x → fs.get? k = some y → Same x y) : Same (dict es) (dict fs)

/-- In which order entries were made does not matter. -/
theorem same_of_perm {es fs : Entries} (hd : es.Distinct) (hp : es.Perm fs) :
    Same (dict es) (dict fs) := by
  have hget := Keyed.get?_perm hd hp
  refine .dict (fun k => by rw [hget]) fun k x y hx hy => ?_
  rw [hget, hy] at hx
  cases hx
  exact .refl x

/-- What is in one of two equal mappings is in the other under the same name. -/
theorem mem_of_get?_isSome {es fs : Entries} (hn : es.Named) (hd : es.Distinct)
    (hd' : fs.Distinct) (hk : ∀ k, (es.get? k).isSome = (fs.get? k).isSome) {e : Value × Value}
    (he : e ∈ es) :
    es.get? e.1 = some e.2 ∧ ∃ y, fs.get? e.1 = some y ∧ (e.1, y) ∈ fs := by
  obtain ⟨name, hname⟩ := hn e he
  have hfound : es.get? e.1 = some e.2 := by
    rw [hname, Keyed.get?_str_eq_some_iff hd, ← hname]
    exact he
  have hother := hk e.1
  rw [hfound, Option.isSome_some, eq_comm, Option.isSome_iff_exists] at hother
  obtain ⟨y, hy⟩ := hother
  refine ⟨hfound, y, hy, ?_⟩
  rw [hname] at hy ⊢
  exact (Keyed.get?_str_eq_some_iff hd').1 hy

theorem nodup_memberDocuments {es : Entries} (hn : es.Named) (hd : es.Distinct) :
    ((memberDocuments true es).map (·.1)).Nodup := by
  rw [names_memberDocuments]
  exact hn.nodup hd

theorem mem_memberDocuments_of_same {es fs : Entries} (hn : es.Named) (hd : es.Distinct)
    (hd' : fs.Distinct) (hk : ∀ k, (es.get? k).isSome = (fs.get? k).isSome)
    (h : ∀ k x y, es.get? k = some x → fs.get? k = some y → x.document true = y.document true)
    {m : String × Document} (hm : m ∈ memberDocuments true es) : m ∈ memberDocuments true fs := by
  rw [memberDocuments_eq_map] at hm ⊢
  obtain ⟨e, he, rfl⟩ := List.mem_map.1 hm
  obtain ⟨hfound, y, hy, hmem⟩ := mem_of_get?_isSome hn hd hd' hk he
  have hdocument : e.2.document true = y.document true := h e.1 e.2 y hfound hy
  rw [hdocument]
  exact List.mem_map_of_mem (f := fun e : Value × Value => (e.1.text, e.2.document true)) hmem

/-- The same data is printed as the same document. -/
theorem Same.document_eq {v w : Value} (h : Same v w) (hv : v.AnyData) (hw : w.AnyData) :
    v.document true = w.document true := by
  induction h with
  | refl v => rfl
  | @list xs ys hl _ ih =>
    cases hv with | list hx =>
    cases hw with | list hy =>
    have hitems : xs.map (document true) = ys.map (document true) := by
      apply List.ext_getElem (by simpa using hl)
      intro i hi hj
      rw [List.length_map] at hi hj
      rw [List.getElem_map, List.getElem_map]
      exact ih i _ _ (List.getElem?_eq_getElem hi) (List.getElem?_eq_getElem hj)
        (hx _ (List.getElem_mem hi)) (hy _ (List.getElem_mem hj))
    rw [document, document, documents_eq_map, documents_eq_map, hitems]
  | @dict es fs hk _ ih =>
    cases hv with | dict hn hd hx =>
    cases hw with | dict hn' hd' hy =>
    have hvalues : ∀ k x y, es.get? k = some x → fs.get? k = some y →
        x.document true = y.document true := by
      intro k x y hxk hyk
      obtain ⟨j, hj, -⟩ := Keyed.mem_of_get? hxk
      obtain ⟨j', hj', -⟩ := Keyed.mem_of_get? hyk
      exact ih k x y hxk hyk (hx _ hj) (hy _ hj')
    have hnodup := nodup_memberDocuments hn hd
    have hnodup' := nodup_memberDocuments hn' hd'
    have hperm : (memberDocuments true es).Perm (memberDocuments true fs) := by
      refine (List.perm_ext_iff_of_nodup (List.Pairwise.of_map _ ?_ hnodup)
        (List.Pairwise.of_map _ ?_ hnodup')).2 fun m => ⟨?_, ?_⟩
      · rintro a b hab rfl
        exact hab rfl
      · rintro a b hab rfl
        exact hab rfl
      · exact mem_memberDocuments_of_same hn hd hd' hk hvalues
      · exact mem_memberDocuments_of_same hn' hd' hd (fun k => (hk k).symm)
          fun k x y hxk hyk => (hvalues k y x hyk hxk).symm
    simp only [document, if_true, Json.sortMembers_eq hnodup hperm]

end Value
end CheckedActions
