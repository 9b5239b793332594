import CheckedActions.Proofs.Runs
import CheckedActions.Value.Order

/-!
Which keys can be sorted. Keys sort when any two of them have an order, and keys that are no tuples
sort only then, whatever pairs the insertion happens to compare.
-/

namespace CheckedActions
namespace Value

/-- Two keys have an order. -/
def Comparable (a b : Value) : Prop := a.conflict? b = none

def isTuple : Value → Bool
  | tuple _ => true
  | _ => false

/-- Whether a value is a moment with an offset. -/
def hasOffset : Value → Bool
  | datetime t => t.offset.isSome
  | _ => false

theorem keyKind?_eq_datetime {v : Value} (h : v.keyKind? = some .datetime) :
    ∃ t, v = datetime t := by
  cases v with
  | datetime t => exact ⟨t, rfl⟩
  | _ => nomatch h

theorem keyKind?_eq_tuple {v : Value} (h : v.keyKind? = some .tuple) : v.isTuple := by
  cases v with
  | tuple xs => rfl
  | _ => nomatch h

/-- Keys have an order when they are of one kind, and moments both have an offset or both none. -/
theorem comparable_iff {a b : Value} (h : ¬ (a.isTuple ∧ b.isTuple)) :
    Comparable a b ↔
      a.keyKind?.isSome ∧ a.keyKind? = b.keyKind? ∧ a.hasOffset = b.hasOffset := by
  unfold Comparable conflict?
  split
  · exact absurd ⟨rfl, rfl⟩ h
  · simp [keyKind?, hasOffset]
  · simp [keyKind?]
  · simp [keyKind?]
  · rename_i hmoments _ _
    have hoffset : a.keyKind? = b.keyKind? → a.hasOffset = b.hasOffset := by
      intro hk
      cases a with
      | datetime t =>
        obtain ⟨u, rfl⟩ := keyKind?_eq_datetime hk.symm
        exact absurd rfl (hmoments t u rfl)
      | _ =>
        cases b with
        | datetime u =>
          obtain ⟨t, ht⟩ := keyKind?_eq_datetime hk
          nomatch ht
        | _ => rfl
    simp only [ite_eq_left_iff, reduceCtorEq, imp_false, Decidable.not_not]
    exact ⟨fun ⟨hs, hk⟩ => ⟨hs, hk, hoffset hk⟩, fun ⟨hs, hk, _⟩ => ⟨hs, hk⟩⟩

/-- Only tuples have an order with tuples. -/
theorem Comparable.isTuple {a b : Value} (h : Comparable a b) (hb : b.isTuple) : a.isTuple := by
  by_cases ha : a.isTuple
  · exact ha
  · obtain ⟨-, hk, -⟩ := (comparable_iff fun h => ha h.1).1 h
    cases b with
    | tuple ys => exact keyKind?_eq_tuple hk
    | _ => nomatch hb

theorem Comparable.trans {a b c : Value} (hc : ¬ c.isTuple) (hab : Comparable a b)
    (hbc : Comparable b c) : Comparable a c := by
  obtain ⟨hs, hk, ho⟩ := (comparable_iff fun h => hc h.2).1 hbc
  have hb : ¬ b.isTuple := by
    intro h
    cases b with
    | tuple ys => exact hc (keyKind?_eq_tuple hk.symm)
    | _ => nomatch h
  obtain ⟨hs', hk', ho'⟩ := (comparable_iff fun h => hb h.2).1 hab
  exact (comparable_iff fun h => hc h.2).2 ⟨hs', hk'.trans hk, ho'.trans ho⟩

mutual
theorem Comparable.symm {a b : Value} (h : Comparable a b) : Comparable b a := by
  by_cases ht : a.isTuple ∧ b.isTuple
  · match a, b, ht with
    | tuple xs, tuple ys, _ =>
      unfold Comparable conflict? at h ⊢
      exact conflictIn?_symm h
  · obtain ⟨hs, hk, ho⟩ := (comparable_iff ht).1 h
    exact (comparable_iff fun h => ht h.symm).2 ⟨hk ▸ hs, hk.symm, ho.symm⟩
termination_by sizeOf a

theorem conflictIn?_symm {xs ys : List Value} (h : conflictIn? xs ys = none) :
    conflictIn? ys xs = none := by
  match xs, ys with
  | [], [] => rfl
  | [], _ :: _ => rfl
  | _ :: _, [] => rfl
  | x :: xs, y :: ys =>
    unfold conflictIn? at h ⊢
    rw [sameKey_comm y x]
    split
    · rename_i hxy
      rw [if_pos hxy] at h
      exact conflictIn?_symm h
    · rename_i hxy
      rw [if_neg hxy] at h
      exact Comparable.symm h
termination_by sizeOf xs
end

theorem isOk_isLess {a b : Value} : (a.isLess b).isOk ↔ Comparable a b := by
  unfold isLess Comparable
  cases a.conflict? b with
  | none => simp
  | some f => simp

/-! ### Keys that have an order -/

/-- A key that has an order with all others finds its place among them. -/
theorem isOk_placeOf {xs : List Value} {k : Value} (h : ∀ x ∈ xs, Comparable k x) (lo hi : Nat) :
    (placeOf xs k lo hi).isOk := by
  fun_induction placeOf xs k lo hi with
  | case1 lo hi _ middle x hx ihLeft ihRight =>
    obtain ⟨less, hless⟩ := isOk_iff.1 (isOk_isLess.2 (h x (List.mem_of_getElem? hx)))
    refine isOk_bind_iff.2 ⟨less, hless, ?_⟩
    split
    · exact ihLeft
    · exact ihRight
  | case2 => rfl
  | case3 => rfl

theorem insertKey_perm {xs ys : List Value} {k : Value} (h : insertKey xs k = .ok ys) :
    ys.Perm (k :: xs) := by
  unfold insertKey at h
  cases hi : placeOf xs k 0 xs.length with
  | error f =>
    rw [hi] at h
    nomatch h
  | ok i =>
    rw [hi] at h
    cases h
    have hmiddle : (xs.take i ++ k :: xs.drop i).Perm (k :: (xs.take i ++ xs.drop i)) :=
      List.perm_middle
    rwa [List.take_append_drop] at hmiddle

theorem isOk_insertKeys {xs ys : List Value} (h : (xs ++ ys).Pairwise Comparable) :
    (ys.foldlM insertKey xs).isOk := by
  induction ys generalizing xs with
  | nil => rfl
  | cons y ys ih =>
    have hy : ∀ x ∈ xs, Comparable y x := fun x hx =>
      ((List.pairwise_append.1 h).2.2 x hx y List.mem_cons_self).symm
    have hplace : (insertKey xs y).isOk := by
      rw [insertKey, isOk_map]
      exact isOk_placeOf hy 0 xs.length
    obtain ⟨zs, hzs⟩ := isOk_iff.1 hplace
    have hperm : (xs ++ y :: ys).Perm (zs ++ ys) :=
      List.perm_middle.trans ((insertKey_perm hzs).symm.append_right ys)
    rw [List.foldlM_cons]
    exact isOk_bind_iff.2 ⟨zs, hzs, ih ((hperm.pairwise_iff Comparable.symm).1 h)⟩

/-- A run goes on with a key that is compared as its direction asks, and ends before any other. -/
theorem splitRun_cons_eq_ok {falling : Bool} {a b : Value} {xs run rest : List Value}
    (h : splitRun falling a (b :: xs) = .ok (run, rest)) :
    Comparable b a ∧ ((∃ tail, splitRun falling b xs = .ok (tail, rest) ∧ run = b :: tail) ∨
      run = [] ∧ rest = b :: xs) := by
  rw [splitRun] at h
  cases hless : b.isLess a with
  | error f =>
    rw [hless] at h
    nomatch h
  | ok less =>
    refine ⟨isOk_isLess.1 (isOk_iff.2 ⟨less, hless⟩), ?_⟩
    rw [hless] at h
    simp only [bind, Except.bind] at h
    split at h
    · cases htail : splitRun falling b xs with
      | error f =>
        rw [htail] at h
        nomatch h
      | ok parts =>
        rw [htail] at h
        cases h
        exact .inl ⟨parts.1, rfl, rfl⟩
    · cases h
      exact .inr ⟨rfl, rfl⟩

theorem splitRun_append {falling : Bool} {a : Value} {xs run rest : List Value}
    (h : splitRun falling a xs = .ok (run, rest)) : run ++ rest = xs := by
  induction xs generalizing a run with
  | nil =>
    cases h
    rfl
  | cons b xs ih =>
    obtain ⟨-, ⟨tail, htail, rfl⟩ | ⟨rfl, rfl⟩⟩ := splitRun_cons_eq_ok h
    · rw [List.cons_append, ih htail]
    · rfl

theorem isOk_splitRun {falling : Bool} {a : Value} {xs : List Value}
    (h : (a :: xs).Pairwise Comparable) : (splitRun falling a xs).isOk := by
  induction xs generalizing a with
  | nil => rfl
  | cons b xs ih =>
    obtain ⟨ha, hxs⟩ := List.pairwise_cons.1 h
    obtain ⟨less, hless⟩ := isOk_iff.1 (isOk_isLess.2 (ha b List.mem_cons_self).symm)
    rw [splitRun]
    refine isOk_bind_iff.2 ⟨less, hless, ?_⟩
    split
    · obtain ⟨parts, hparts⟩ := isOk_iff.1 (ih hxs)
      exact isOk_bind_iff.2 ⟨parts, hparts, rfl⟩
    · rfl

theorem start_perm (falling : Bool) (xs : List Value) :
    (if falling then xs.reverse else xs).Perm xs := by
  split
  · exact List.reverse_perm xs
  · exact .refl xs

/-- Keys any two of which have an order can be sorted. -/
theorem isOk_sortKeys {xs : List Value} (h : xs.Pairwise Comparable) : (sortKeys xs).isOk := by
  match xs with
  | [] => rfl
  | [_] => rfl
  | a :: b :: xs =>
    have hab : Comparable a b := (List.pairwise_cons.1 h).1 b List.mem_cons_self
    obtain ⟨falling, hfalling⟩ := isOk_iff.1 (isOk_isLess.2 hab.symm)
    have hsplit : (splitRun falling a (b :: xs)).isOk := isOk_splitRun h
    obtain ⟨⟨run, rest⟩, hrun⟩ := isOk_iff.1 hsplit
    rw [sortKeys]
    refine isOk_bind_iff.2 ⟨falling, hfalling, isOk_bind_iff.2 ⟨(run, rest), hrun, ?_⟩⟩
    have hperm := (start_perm falling (a :: run)).append_right rest
    refine isOk_insertKeys ((hperm.pairwise_iff Comparable.symm).2 ?_)
    rw [List.cons_append, splitRun_append hrun]
    exact h

/-! ### What sorted keys have in common

Every key is compared with one before it. So what goes over from one key to those that have an
order with it holds of all keys if it holds of the first.
-/

theorem comparable_of_placeOf {xs : List Value} {k : Value} (hne : xs ≠ [])
    (h : (placeOf xs k 0 xs.length).isOk) : ∃ x ∈ xs, Comparable k x := by
  have hpos : 0 < xs.length := List.length_pos_iff.2 hne
  have hmiddle : (0 + xs.length) / 2 < xs.length := by omega
  rw [placeOf, if_pos hpos] at h
  simp only [List.getElem?_eq_getElem hmiddle] at h
  obtain ⟨less, hless, -⟩ := isOk_bind_iff.1 h
  exact ⟨_, List.getElem_mem hmiddle, isOk_isLess.1 (isOk_iff.2 ⟨less, hless⟩)⟩

section Spread

variable {P : Value → Prop} (hP : ∀ {a b}, Comparable a b → P b → P a)
include hP

theorem forall_of_insertKeys {xs ys : List Value} (hne : xs ≠ []) (hxs : ∀ x ∈ xs, P x)
    (h : (ys.foldlM insertKey xs).isOk) : ∀ y ∈ ys, P y := by
  induction ys generalizing xs with
  | nil => exact nofun
  | cons y ys ih =>
    rw [List.foldlM_cons] at h
    obtain ⟨zs, hzs, h⟩ := isOk_bind_iff.1 h
    have hplace : (placeOf xs y 0 xs.length).isOk := by
      rw [← isOk_map _ fun i => xs.take i ++ y :: xs.drop i]
      exact isOk_iff.2 ⟨zs, hzs⟩
    obtain ⟨x, hx, hyx⟩ := comparable_of_placeOf hne hplace
    have hy : P y := hP hyx (hxs x hx)
    have hperm := insertKey_perm hzs
    have hne' : zs ≠ [] := fun hnil => by simp [hnil] at hperm
    have hzs' : ∀ z ∈ zs, P z := by
      intro z hz
      rcases List.mem_cons.1 (hperm.mem_iff.1 hz) with rfl | hz
      · exact hy
      · exact hxs z hz
    exact List.forall_mem_cons.2 ⟨hy, ih hne' hzs' h⟩

theorem forall_of_splitRun {falling : Bool} {a : Value} {xs run rest : List Value} (ha : P a)
    (h : splitRun falling a xs = .ok (run, rest)) : ∀ x ∈ run, P x := by
  induction xs generalizing a run with
  | nil =>
    cases h
    exact nofun
  | cons b xs ih =>
    obtain ⟨hba, ⟨tail, htail, rfl⟩ | ⟨rfl, rfl⟩⟩ := splitRun_cons_eq_ok h
    · have hb : P b := hP hba ha
      exact List.forall_mem_cons.2 ⟨hb, ih hb htail⟩
    · exact nofun

theorem forall_of_sortKeys {a : Value} {xs : List Value} (ha : P a)
    (h : (sortKeys (a :: xs)).isOk) : ∀ x ∈ xs, P x := by
  match xs with
  | [] => exact nofun
  | b :: xs =>
    rw [sortKeys] at h
    obtain ⟨falling, -, h⟩ := isOk_bind_iff.1 h
    obtain ⟨⟨run, rest⟩, hrun, h⟩ := isOk_bind_iff.1 h
    have hrunP : ∀ x ∈ run, P x := forall_of_splitRun hP ha hrun
    have hperm := start_perm falling (a :: run)
    have hne : (if falling then (a :: run).reverse else a :: run) ≠ [] := by
      split <;> simp
    have hstart : ∀ x ∈ if falling then (a :: run).reverse else a :: run, P x := fun x hx =>
      List.forall_mem_cons.2 ⟨ha, hrunP⟩ x (hperm.mem_iff.1 hx)
    have hrestP : ∀ x ∈ rest, P x := forall_of_insertKeys hP hne hstart h
    rw [← splitRun_append hrun]
    exact List.forall_mem_append.2 ⟨hrunP, hrestP⟩

end Spread

/-- Keys that are not all tuples can be sorted exactly when any two of them have an order. -/
theorem isOk_sortKeys_iff {xs : List Value} (ht : ∃ x ∈ xs, ¬ x.isTuple) :
    (sortKeys xs).isOk ↔ xs.Pairwise Comparable := by
  refine ⟨fun h => ?_, isOk_sortKeys⟩
  match xs with
  | [] => exact .nil
  | [a] => exact List.pairwise_singleton Comparable a
  | a :: b :: xs =>
    have ha : ¬ a.isTuple := by
      intro ha
      obtain ⟨x, hx, hn⟩ := ht
      have htuples := forall_of_sortKeys (P := (·.isTuple)) Comparable.isTuple ha h
      rcases List.mem_cons.1 hx with rfl | hx
      · exact hn ha
      · exact hn (htuples x hx)
    have hba : Comparable b a := by
      rw [sortKeys] at h
      obtain ⟨falling, hfalling, -⟩ := isOk_bind_iff.1 h
      exact isOk_isLess.1 (isOk_iff.2 ⟨falling, hfalling⟩)
    have haa : Comparable a a := hba.symm.trans ha hba
    have hall : ∀ x ∈ b :: xs, Comparable x a :=
      forall_of_sortKeys (fun hxy hya => hxy.trans ha hya) haa h
    refine List.pairwise_cons.2 ⟨fun x hx => (hall x hx).symm, ?_⟩
    refine List.pairwise_iff_forall_sublist.2 fun {x y} hxy => ?_
    have hx : x ∈ b :: xs := hxy.subset List.mem_cons_self
    have hy : y ∈ b :: xs := hxy.subset (by simp)
    have hya : ¬ y.isTuple := fun h => ha ((hall y hy).symm.isTuple h)
    exact (hall x hx).trans hya (hall y hy).symm

/-- Texts can be sorted. -/
theorem isOk_sortKeys_texts {xs : List Value} (h : ∀ x ∈ xs, x.isString) :
    (sortKeys xs).isOk := by
  refine isOk_sortKeys (List.pairwise_iff_forall_sublist.2 fun {x y} hxy => ?_)
  have hx : x.isString := h x (hxy.subset List.mem_cons_self)
  have hy : y.isString := h y (hxy.subset (by simp))
  cases x with
  | str s =>
    cases y with
    | str t =>
      have htuple : ¬ ((str s).isTuple ∧ (str t).isTuple) := by simp [isTuple]
      exact (comparable_iff htuple).2 ⟨rfl, rfl, rfl⟩
    | _ => nomatch hy
  | _ => nomatch hx

end Value
end CheckedActions
