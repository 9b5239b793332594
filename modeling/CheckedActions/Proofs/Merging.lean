import CheckedActions.Config.Variables
import CheckedActions.Proofs.Overlay
import CheckedActions.Schema.Check

/-!
Merged entries. What is found under a key after a merge is the upper value if there is one. Only
dictionaries take something over from the lower one.
-/

namespace CheckedActions

namespace Config

/-- A check takes no dictionary, and so does not see what a merge does to one. -/
def RefusesDicts {α : Type} (check : Value → Checked α) : Prop :=
  ∀ a b, check (.dict a) = check (.dict b)

theorem RefusesDicts.mergeValue {α : Type} {check : Value → Checked α} (h : RefusesDicts check)
    (old? : Option Value) (v : Value) : check (mergeValue old? v) = check v := by
  cases v with
  | dict upper =>
    unfold Config.mergeValue
    split
    · exact h _ _
    · rfl
  | _ => rfl

theorem get?_merge {upper : Entries} (h : Keyed.Distinct upper) (lower : Entries) (k : Value) :
    (merge lower upper).get? k =
      ((upper.get? k).map (mergeValue (lower.get? k))).or (lower.get? k) := by
  induction upper generalizing lower with
  | nil => rfl
  | cons e upper ih =>
    rcases e with ⟨j, v⟩
    obtain ⟨hj, hupper⟩ := List.pairwise_cons.1 h
    have hput := Keyed.get?_put lower j (mergeValue (lower.get? j) v) k
    have hstep : (merge lower ((j, v) :: upper)).get? k = _ :=
      ih hupper (lower.put j (mergeValue (lower.get? j) v))
    rw [hstep, Keyed.get?_cons]
    by_cases hk : j.sameKey k
    · -- No later key is the same, so what the first entry put there stays.
      have hnone : Keyed.get? upper k = none := by
        apply Keyed.get?_eq_none
        intro e he hek
        exact hj e he (Value.sameKey_trans hk (Value.sameKey_symm hek))
      rw [if_pos hk] at hput ⊢
      rw [hput, hnone, Keyed.get?_congr hk]
      rfl
    · rw [if_neg hk] at hput ⊢
      rw [hput]

theorem distinct_merge {lower : Entries} (h : Keyed.Distinct lower) (upper : Entries) :
    Keyed.Distinct (merge lower upper) := by
  induction upper generalizing lower with
  | nil => exact h
  | cons e upper ih => exact ih (h.put _ _)

end Config

/-! ### Values under names, some of which are there -/

namespace Entries

/-- The entries for those names that have a value. -/
def ofNamed (xs : List (String × Option Value)) : Entries :=
  xs.filterMap fun x => x.2.map fun v => (.str x.1, v)

theorem mem_ofNamed {xs : List (String × Option Value)} {e : Value × Value}
    (h : e ∈ ofNamed xs) : ∃ name ∈ xs.map (·.1), e.1 = .str name := by
  obtain ⟨x, hx, he⟩ := List.mem_filterMap.1 h
  obtain ⟨v, -, rfl⟩ := Option.map_eq_some_iff.1 he
  exact ⟨x.1, List.mem_map_of_mem hx, rfl⟩

theorem distinct_ofNamed {xs : List (String × Option Value)} (h : (xs.map (·.1)).Nodup) :
    Keyed.Distinct (ofNamed xs) := by
  induction xs with
  | nil => exact .nil
  | cons x xs ih =>
    obtain ⟨hx, hxs⟩ := List.nodup_cons.1 h
    rcases x with ⟨name, _ | v⟩
    · exact ih hxs
    · refine List.pairwise_cons.2 ⟨?_, ih hxs⟩
      intro e he hsame
      obtain ⟨other, hother, hkey⟩ := mem_ofNamed he
      have hname : name = other := by simpa [hkey] using hsame
      exact hx (hname ▸ hother)

theorem field?_ofNamed {xs : List (String × Option Value)} (h : (xs.map (·.1)).Nodup)
    {name : String} {v? : Option Value} (hmem : (name, v?) ∈ xs) :
    (ofNamed xs).field? name = v? := by
  induction xs with
  | nil => nomatch hmem
  | cons x xs ih =>
    obtain ⟨hx, hxs⟩ := List.nodup_cons.1 h
    rcases List.mem_cons.1 hmem with rfl | hrest
    · have hnone : (ofNamed xs).field? name = none := by
        apply Keyed.get?_eq_none
        intro e he hsame
        obtain ⟨other, hother, hkey⟩ := mem_ofNamed he
        have hname : other = name := by simpa [hkey] using hsame
        exact hx (hname ▸ hother)
      rcases v? with _ | v
      · exact hnone
      · exact (Keyed.get?_cons _ _ _).trans (if_pos (by simp))
    · have hne : x.1 ≠ name := by
        rintro rfl
        have hname := List.mem_map_of_mem (f := Prod.fst) hrest
        exact hx hname
      rcases x with ⟨other, _ | v⟩
      · exact ih hxs hrest
      · refine (Keyed.get?_cons _ _ _).trans ((if_neg ?_).trans (ih hxs hrest))
        simpa using hne

end Entries
end CheckedActions
