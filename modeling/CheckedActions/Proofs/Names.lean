import CheckedActions.Proofs.Overlay
import CheckedActions.Proofs.KeyOrder

/-!
Things under names, that is under keys that are texts. A name is no other value's key, and things
under names can always be sorted; sorted, their names ascend. Laid over others, they keep the places
in which the names first came up.
-/

namespace CheckedActions

theorem Binary64.keyAtom_ne_text (x : Binary64) (s : String) : x.keyAtom ≠ .text s := by
  cases x <;> nofun

theorem Decimal.keyAtom_ne_text (d : Decimal) (s : String) : d.keyAtom ≠ .text s := by
  cases d <;> nofun

namespace Value

@[simp] theorem text_str (s : String) : (str s).text = s := rfl

theorem key_eq_text_iff {v : Value} {s : String} : v.key = .ok [.text s] ↔ v = .str s := by
  cases v with
  | float x => simp [key, Binary64.keyAtom_ne_text]
  | decimal d => simp [key, Decimal.keyAtom_ne_text]
  | complex re im =>
    simp only [key]
    split <;> simp [Binary64.keyAtom_ne_text]
  | tuple xs => cases h : keys xs <;> simp [key, h, Except.map]
  | frozenset xs => cases h : keys xs <;> simp [key, h, Except.map]
  | datetime t => cases h : t.offset <;> simp [key, h]
  | _ => simp [key]

/-- Only the text itself is the same key as a text. -/
theorem sameKey_str_iff {v : Value} {s : String} : v.sameKey (.str s) ↔ v = .str s := by
  constructor
  · intro h
    obtain ⟨k, hv, hs, -⟩ := sameKey_iff.1 h
    cases hs
    exact key_eq_text_iff.1 hv
  · rintro rfl
    simp

end Value

namespace Keyed

variable {α : Type}

/-- What is found under a text. -/
theorem get?_str_eq_some_iff {xs : Keyed α} (h : xs.Distinct) {name : String} {a : α} :
    xs.get? (.str name) = some a ↔ (.str name, a) ∈ xs := by
  constructor
  · intro ha
    obtain ⟨j, hj, hk⟩ := mem_of_get? ha
    rwa [Value.sameKey_str_iff.1 hk] at hj
  · intro ha
    induction xs with
    | nil => nomatch ha
    | cons x xs ih =>
      obtain ⟨hx, hxs⟩ := List.pairwise_cons.1 h
      rw [get?_cons]
      rcases List.mem_cons.1 ha with rfl | ha
      · simp
      · rw [if_neg (hx _ ha)]
        exact ih hxs ha

/-- All keys are texts. -/
def Named (xs : Keyed α) : Prop := ∀ e ∈ xs, ∃ name, e.1 = .str name

theorem Named.keys_eq {xs : Keyed α} (h : xs.Named) : xs.keys = (xs.map (·.1.text)).map .str := by
  rw [keys, List.map_map]
  refine List.map_congr_left fun e he => ?_
  obtain ⟨name, hname⟩ := h e he
  simp only [Function.comp_apply, hname, Value.text]

/-- What is laid over other things under names is found among those of either side. -/
theorem Named.mem_overlay {xs ys : Keyed α} (h : ys.Named) {e : Value × α}
    (he : e ∈ xs.overlay ys) : e ∈ xs ∨ e ∈ ys := by
  induction ys generalizing xs with
  | nil => exact .inl he
  | cons y ys ih =>
    obtain ⟨name, hname⟩ := h y List.mem_cons_self
    rcases ih (fun d hd => h d (List.mem_cons_of_mem y hd)) he with he | he
    · rcases mem_put he with he | ⟨hk, ha⟩
      · exact .inl he
      · have hkey : e.1 = y.1 := by
          rcases hk with hk | hk
          · exact hk
          · rw [hname] at hk ⊢
            exact Value.sameKey_str_iff.1 hk
        exact .inr (Prod.ext hkey ha ▸ List.mem_cons_self)
    · exact .inr (List.mem_cons_of_mem y he)

theorem Named.mem_ofPairs {xs : Keyed α} (h : xs.Named) {e : Value × α} (he : e ∈ ofPairs xs) :
    e ∈ xs := (h.mem_overlay he).resolve_left List.not_mem_nil

theorem Named.isString {xs : Keyed α} (h : xs.Named) : ∀ k ∈ xs.keys, k.isString := by
  rw [h.keys_eq]
  intro k hk
  obtain ⟨name, -, rfl⟩ := List.mem_map.1 hk
  rfl

theorem Named.nodup {xs : Keyed α} (h : xs.Named) (hd : xs.Distinct) :
    (xs.map (·.1.text)).Nodup := by
  refine List.pairwise_map.2 (hd.imp_of_mem fun {a b} ha hb hab heq => hab ?_)
  obtain ⟨m, hm⟩ := h a ha
  obtain ⟨n, hn⟩ := h b hb
  rw [hm, hn] at heq
  rw [hm, hn, show m = n from heq]
  simp

theorem Named.distinct_iff {xs : Keyed α} (h : xs.Named) :
    xs.Distinct ↔ (xs.map (·.1.text)).Nodup := by
  refine ⟨h.nodup, fun hn => ?_⟩
  refine (List.pairwise_map.1 hn).imp_of_mem fun {a b} ha hb hab hsame => ?_
  obtain ⟨m, hm⟩ := h a ha
  obtain ⟨n, hn⟩ := h b hb
  rw [hm, hn] at hab hsame
  exact hab (by simpa using hsame)

/-- Names sort as texts do. -/
theorem Named.map_mergeSort {xs : Keyed α} (h : xs.Named) :
    (xs.mergeSort fun a b => !b.1.keyLess a.1).map (·.1.text) =
      (xs.map (·.1.text)).mergeSort fun s t => !decide (t < s) := by
  refine List.map_mergeSort fun a ha b hb => ?_
  obtain ⟨m, hm⟩ := h a ha
  obtain ⟨n, hn⟩ := h b hb
  simp only [hm, hn, Value.text, Value.keyLess]

theorem pairwise_sorted_texts (names : List String) :
    (names.mergeSort fun s t => !decide (t < s)).Pairwise (· ≤ ·) := by
  have htrans : ∀ a b c : String, (!decide (b < a)) → (!decide (c < b)) → !decide (c < a) := by
    simp only [Bool.not_eq_true', decide_eq_false_iff_not, String.not_lt]
    exact fun a b c => String.le_trans
  have htotal : ∀ a b : String, (!decide (b < a)) || !decide (a < b) := by
    simp only [Bool.or_eq_true, Bool.not_eq_true', decide_eq_false_iff_not, String.not_lt]
    exact String.le_total
  refine (List.pairwise_mergeSort htrans htotal names).imp fun {a b} hab => ?_
  rwa [Bool.not_eq_true', decide_eq_false_iff_not, String.not_lt] at hab

@[simp] theorem sort_singleton (e : Value × α) : sort [e] = .ok [e] := by
  simp [sort, keys, Value.sortKeys, Except.map]

theorem Named.sort_eq {xs : Keyed α} (h : xs.Named) :
    xs.sort = .ok (xs.mergeSort fun a b => !b.1.keyLess a.1) := by
  obtain ⟨ks, hks⟩ := isOk_iff.1 (Value.isOk_sortKeys_texts h.isString)
  rw [Keyed.sort, hks]
  rfl

/-- Things under names can be sorted, and then their names ascend. -/
theorem Named.sort {xs : Keyed α} (h : xs.Named) (hd : xs.Distinct) :
    ∃ ys : Keyed α, xs.sort = .ok ys ∧ ys.Perm xs ∧
      ys.keys = (ys.map (·.1.text)).map .str ∧ (ys.map (·.1.text)).Pairwise (· < ·) := by
  have hsort := h.sort_eq
  have hperm := sort_perm hsort
  have hnodup := ((hperm.map (·.1.text)).nodup_iff).2 (h.nodup hd)
  refine ⟨_, hsort, hperm, Named.keys_eq fun e he => h e (hperm.mem_iff.1 he), ?_⟩
  rw [h.map_mergeSort] at hnodup ⊢
  exact (List.pairwise_and_iff.2 ⟨pairwise_sorted_texts _, hnodup⟩).imp
    fun ⟨hle, hne⟩ => Std.lt_of_le_of_ne hle hne

/-! ### Names laid over others -/

/-- New names come behind the keys that are there, each where it comes first. -/
theorem Named.keys_overlay {ys : Keyed α} (h : ys.Named) (xs : Keyed α) :
    (xs.overlay ys).keys = xs.keys ++
      (((ys.map (·.1.text)).filter fun n => (xs.get? (.str n)).isNone).eraseDups.map .str) := by
  induction ys generalizing xs with
  | nil => exact (List.append_nil _).symm
  | cons y ys ih =>
    obtain ⟨⟨k, hk⟩, hrest⟩ := List.forall_mem_cons.1 h
    obtain ⟨j, a⟩ := y
    obtain rfl : j = .str k := hk
    have hnone : ∀ n, (get? (put xs (.str k) a) (.str n)).isNone =
        (!n == k && (xs.get? (.str n)).isNone) := by
      intro n
      rw [get?_put, Value.sameKey_str]
      by_cases hn : k = n
      · simp [hn]
      · simp [hn, Ne.symm hn]
    have hstep : (xs.overlay ((.str k, a) :: ys)).keys = _ := ih hrest (put xs (.str k) a)
    simp only [hnone] at hstep
    rw [hstep, keys_put, List.map_cons, List.filter_cons]
    cases hx : xs.get? (.str k) with
    | none => simp [List.eraseDups_cons, List.filter_filter, hx]
    | some b =>
      -- A name that is there already is no new one, so that leaving it out changes nothing.
      have hsame : ((ys.map (·.1.text)).filter fun n => !n == k && (xs.get? (.str n)).isNone) =
          (ys.map (·.1.text)).filter fun n => (xs.get? (.str n)).isNone := by
        refine List.filter_congr fun n _ => ?_
        by_cases hn : n = k
        · simp [hn, hx]
        · simp [hn]
      simp [hsame, hx]

end Keyed
end CheckedActions
