import CheckedActions.Proofs.DocumentTexts
import CheckedActions.Proofs.Shapes

/-!
What documents of plain data stand for. The two documents of one value stand for the same data,
whether their members are sorted or not. Without doubles that is the value itself.
-/

namespace CheckedActions

open Json (Document)

namespace Value

variable {ints : Int → Prop} {floats : Binary64 → Prop}

/-! ### Members -/

theorem memberMeanings_memberDocuments {es : Entries} (hn : es.Named) (sorted : Bool) :
    Document.memberMeanings (memberDocuments sorted es) =
      es.map fun e => (e.1, (e.2.document sorted).meaning) := by
  rw [Document.memberMeanings_eq_map, memberDocuments_eq_map, List.map_map]
  refine List.map_congr_left fun e he => ?_
  obtain ⟨name, hname⟩ := hn e he
  simp only [Function.comp_apply, hname, text]

/-- The document of a dictionary stands for a dictionary of what its values' documents stand
for. -/
theorem meaning_dict {es : Entries} (hn : es.Named) (hd : es.Distinct) (sorted : Bool) :
    ∃ fs : Entries, ((dict es).document sorted).meaning = .dict fs ∧
      ∀ k, fs.get? k = (es.get? k).map fun v => (v.document sorted).meaning := by
  have hmembers := memberMeanings_memberDocuments hn sorted
  have hdistinct := hd.map fun v => (v.document sorted).meaning
  have hget := Keyed.get?_map (fun v => (v.document sorted).meaning) es
  rw [document]
  cases sorted with
  | false =>
    refine ⟨_, rfl, fun k => ?_⟩
    rw [if_neg Bool.false_ne_true, Keyed.get?_ofPairs_perm hdistinct (.of_eq hmembers), hget]
  | true =>
    have hperm : (Document.memberMeanings (Json.sortMembers (memberDocuments true es))).Perm
        (es.map fun e => (e.1, (e.2.document true).meaning)) := by
      rw [← hmembers, Document.memberMeanings_eq_map, Document.memberMeanings_eq_map]
      exact (Json.sortMembers_perm _).map _
    refine ⟨_, rfl, fun k => ?_⟩
    rw [if_pos rfl, Keyed.get?_ofPairs_perm hdistinct hperm, hget]

/-! ### Values -/

/-- Sorting members changes nothing in what a document stands for. -/
theorem AnyData.same_meaning {v : Value} (h : v.AnyData) :
    Same (v.document true).meaning (v.document false).meaning := by
  induction h with
  | @list xs _ ih =>
    simp only [document, Document.meaning, Document.meanings_eq_map, documents_eq_map]
    refine .list (by simp) fun i x y hx hy => ?_
    simp only [List.getElem?_map, Option.map_eq_some_iff] at hx hy
    obtain ⟨_, ⟨v, hv, rfl⟩, rfl⟩ := hx
    obtain ⟨_, ⟨w, hw, rfl⟩, rfl⟩ := hy
    cases hv.symm.trans hw
    exact ih v (List.mem_of_getElem? hv)
  | @dict es hn hd _ ih =>
    obtain ⟨fs, hfs, hget⟩ := meaning_dict hn hd true
    obtain ⟨gs, hgs, hget'⟩ := meaning_dict hn hd false
    rw [hfs, hgs]
    refine .dict (fun k => by rw [hget, hget', Option.isSome_map, Option.isSome_map])
      fun k x y hx hy => ?_
    rw [hget, Option.map_eq_some_iff] at hx
    rw [hget', Option.map_eq_some_iff] at hy
    obtain ⟨v, hv, rfl⟩ := hx
    obtain ⟨w, hw, rfl⟩ := hy
    cases hv.symm.trans hw
    obtain ⟨j, hj, -⟩ := Keyed.mem_of_get? hv
    exact ih _ hj
  | _ => exact .refl _

/-- The document of plain data without doubles stands for that data. -/
theorem Data.meaning_eq {v : Value} (h : v.Data ints fun _ => False) :
    (v.document false).meaning = v := by
  induction h with
  | float h => exact h.elim
  | @list xs _ ih =>
    rw [document, Document.meaning, Document.meanings_eq_map, documents_eq_map, List.map_map]
    exact congrArg Value.list ((List.map_congr_left ih).trans (List.map_id' xs))
  | @dict es hn hd _ ih =>
    have hmembers : Document.memberMeanings (memberDocuments false es) = es := by
      rw [memberMeanings_memberDocuments hn]
      exact (List.map_congr_left fun e he => by rw [ih e he]).trans (List.map_id' es)
    rw [document, if_neg Bool.false_ne_true, Document.meaning, hmembers, Keyed.ofPairs,
      Keyed.overlay_nil hd]
  | _ => rfl

/-- The numbers in a document are those of the data. -/
theorem Data.fits {sizes : Nat → Prop} {floats' : Binary64 → Prop}
    (hi : ∀ n, ints n → sizes (Nat.toDigits 10 n.natAbs).length)
    (hf : ∀ x, floats x → floats' x) {v : Value} (h : v.Data ints floats) (sorted : Bool) :
    (v.document sorted).Fits sizes floats' := by
  induction h with
  | null => exact .null
  | bool b => exact .bool b
  | str s => exact .text s
  | int h => exact .int (hi _ h)
  | float h => exact .float (hf _ h)
  | @list xs _ ih =>
    rw [document, documents_eq_map]
    exact .array (List.forall_mem_map.2 ih)
  | @dict es _ _ _ ih =>
    have hmembers : ∀ m ∈ memberDocuments sorted es, m.2.Fits sizes floats' := by
      rw [memberDocuments_eq_map]
      exact List.forall_mem_map.2 ih
    rw [document]
    refine .object fun m hm => hmembers m ?_
    split at hm
    · exact (Json.sortMembers_perm _).mem_iff.1 hm
    · exact hm

/-- The numbers of the data are those in its document. -/
theorem AnyData.data_of_fits {sizes : Nat → Prop} {v : Value} (h : v.AnyData) {sorted : Bool}
    (hd : (v.document sorted).Fits sizes floats) :
    v.Data (fun n => sizes (Nat.toDigits 10 n.natAbs).length) floats := by
  induction h with
  | null => exact .null
  | bool b => exact .bool b
  | str s => exact .str s
  | int _ => cases hd with | int h => exact .int h
  | float _ => cases hd with | float h => exact .float h
  | @list xs _ ih =>
    rw [document, documents_eq_map] at hd
    cases hd with | array h =>
    exact .list fun x hx => ih x hx (h _ (List.mem_map_of_mem hx))
  | @dict es hn hdistinct _ ih =>
    rw [document] at hd
    cases hd with | object h =>
    refine .dict hn hdistinct fun e he => ih e he (h (e.1.text, e.2.document sorted) ?_)
    have hmem : (e.1.text, e.2.document sorted) ∈ memberDocuments sorted es := by
      rw [memberDocuments_eq_map]
      exact List.mem_map_of_mem (f := fun e => (e.1.text, e.2.document sorted)) he
    split
    · exact (Json.sortMembers_perm _).mem_iff.2 hmem
    · exact hmem

/-! ### Records -/

theorem named_record (fields : List (String × Value)) :
    Keyed.Named (fields.map fun (k, v) => (str k, v)) :=
  List.forall_mem_map.2 fun e _ => ⟨e.1, rfl⟩

theorem distinct_record {fields : List (String × Value)} (h : (fields.map (·.1)).Nodup) :
    Keyed.Distinct (fields.map fun (k, v) => (str k, v)) := by
  refine List.pairwise_map.2 ((List.pairwise_map.1 h).imp fun hne => ?_)
  rw [sameKey_str, decide_eq_true_eq]
  exact hne

theorem Data.record {fields : List (String × Value)} (hd : (fields.map (·.1)).Nodup)
    (h : ∀ e ∈ fields, e.2.Data ints floats) : (record fields).Data ints floats :=
  .dict (named_record fields) (distinct_record hd) (List.forall_mem_map.2 h)

/-- The document of a record stands for one with the same names. -/
theorem along?_meaning_record {fields : List (String × Value)} (hd : (fields.map (·.1)).Nodup)
    (k : String) (ks : List String) :
    ((record fields).document false).meaning.along? (k :: ks) =
      (fields.lookup k).bind fun v => (v.document false).meaning.along? ks := by
  obtain ⟨fs, hfs, hget⟩ := meaning_dict (named_record fields) (distinct_record hd) false
  rw [Value.record, hfs, along?, ← field?_record]
  simp only [entries?, Option.bind_some, Entries.field?, hget, Option.bind_map]
  rfl

end Value
end CheckedActions
