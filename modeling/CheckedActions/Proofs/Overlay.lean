import CheckedActions.Value.Pairs

/-!
Overlays of keyed things. No key occurs twice in a dictionary, laying things over others keeps it
so, and what is found under a key afterwards is the later thing if there is one.
-/

namespace CheckedActions

namespace Keyed

variable {α : Type}

/-- No two things have the same key. -/
def Distinct (xs : Keyed α) : Prop := xs.Pairwise fun a b => ¬ a.1.sameKey b.1

instance (xs : Keyed α) : Decidable xs.Distinct :=
  inferInstanceAs (Decidable (List.Pairwise (fun a b => ¬ a.1.sameKey b.1) xs))

theorem get?_eq_none {xs : Keyed α} {k : Value} (h : ∀ e ∈ xs, ¬ e.1.sameKey k) :
    xs.get? k = none := by
  unfold get?
  rw [List.find?_eq_none.2 h]
  rfl

/-- The spelling of a key does not matter. -/
theorem get?_congr {j k : Value} (h : j.sameKey k) (xs : Keyed α) : xs.get? j = xs.get? k := by
  induction xs with
  | nil => rfl
  | cons e es ih =>
    have he : e.1.sameKey j = e.1.sameKey k := by
      rw [Value.sameKey_comm, Value.sameKey_congr h, Value.sameKey_comm]
    rw [get?_cons, get?_cons, he, ih]

/-- A thing under a new key goes to the end. -/
theorem put_new {xs : Keyed α} {k : Value} (h : ∀ e ∈ xs, ¬ e.1.sameKey k) (a : α) :
    xs.put k a = xs ++ [(k, a)] := by
  induction xs with
  | nil => rfl
  | cons e es ih =>
    have he : ¬ e.1.sameKey k := h e List.mem_cons_self
    rw [put, if_neg he, ih fun d hd => h d (List.mem_cons_of_mem e hd)]
    rfl

theorem overlay_append_new {xs ys : Keyed α} (h : Distinct (xs ++ ys)) :
    xs.overlay ys = xs ++ ys := by
  induction ys generalizing xs with
  | nil => simp [overlay]
  | cons y ys ih =>
    have hy : ∀ e ∈ xs, ¬ e.1.sameKey y.1 := fun e he =>
      (List.pairwise_append.1 h).2.2 e he y List.mem_cons_self
    have hxs : xs ++ y :: ys = xs ++ [y] ++ ys := by simp
    rw [hxs] at h ⊢
    calc xs.overlay (y :: ys) = (xs.put y.1 y.2).overlay ys := rfl
      _ = (xs ++ [y]).overlay ys := by rw [put_new hy]
      _ = xs ++ [y] ++ ys := ih h

/-- Things without a key in common, stored one after another, stand as they were. -/
theorem overlay_nil {xs : Keyed α} (h : xs.Distinct) : overlay [] xs = xs :=
  overlay_append_new h

/-- What is laid over other things is found first. -/
theorem get?_overlay {ys : Keyed α} (h : ys.Distinct) (xs : Keyed α) (k : Value) :
    (xs.overlay ys).get? k = (ys.get? k).or (xs.get? k) := by
  induction ys generalizing xs with
  | nil => rfl
  | cons y ys ih =>
    obtain ⟨hy, hys⟩ := List.pairwise_cons.1 h
    have hstep : (xs.overlay (y :: ys)).get? k = (get? ys k).or (get? (put xs y.1 y.2) k) :=
      ih hys (xs.put y.1 y.2)
    rw [hstep, get?_put, get?_cons]
    by_cases hk : y.1.sameKey k
    · have hnone : get? ys k = none := by
        refine get?_eq_none fun e he hek => hy e he ?_
        exact Value.sameKey_trans hk (Value.sameKey_symm hek)
      simp [hk, hnone]
    · simp [hk]

theorem get?_append (xs ys : Keyed α) (k : Value) :
    get? (xs ++ ys) k = (xs.get? k).or (ys.get? k) := by
  unfold get?
  rw [List.find?_append]
  cases List.find? (fun e => e.1.sameKey k) xs <;> rfl

theorem get?_map {β : Type} (f : α → β) (xs : Keyed α) (k : Value) :
    get? (xs.map fun e => (e.1, f e.2)) k = (xs.get? k).map f := by
  induction xs with
  | nil => rfl
  | cons e es ih =>
    rw [List.map_cons, get?_cons, get?_cons, ih]
    split <;> rfl

theorem Distinct.map {β : Type} {xs : Keyed α} (h : xs.Distinct) (f : α → β) :
    Distinct (xs.map fun e => (e.1, f e.2)) := List.pairwise_map.2 h

theorem Distinct.perm {xs ys : Keyed α} (h : xs.Distinct) (hp : xs.Perm ys) : ys.Distinct :=
  (hp.pairwise_iff fun hab hba => hab (Value.sameKey_symm hba)).1 h

/-- In which order things come does not matter when no key comes twice. -/
theorem get?_perm {xs ys : Keyed α} (h : xs.Distinct) (hp : xs.Perm ys) (k : Value) :
    xs.get? k = ys.get? k := by
  induction hp with
  | nil => rfl
  | cons e _ ih => rw [get?_cons, get?_cons, ih (List.pairwise_cons.1 h).2]
  | swap d e xs =>
    have hde := (List.pairwise_cons.1 h).1 d List.mem_cons_self
    rw [get?_cons, get?_cons, get?_cons, get?_cons]
    by_cases hd : d.1.sameKey k
    · have he : ¬ e.1.sameKey k := fun he => hde (Value.sameKey_trans he (Value.sameKey_symm hd))
      simp [hd, he]
    · simp [hd]
  | trans hxy _ ihx ihy => rw [ihx h, ihy (h.perm hxy)]

/-- Things without a key in common are found in any order in which they are stored. -/
theorem get?_ofPairs_perm {xs ys : Keyed α} (h : xs.Distinct) (hp : ys.Perm xs) (k : Value) :
    (ofPairs ys).get? k = xs.get? k := by
  rw [ofPairs, overlay_nil (h.perm hp.symm), get?_perm h hp.symm]

/-- The last thing under a key. -/
def last? (xs : Keyed α) (k : Value) : Option α := get? xs.reverse k

theorem last?_append (xs ys : Keyed α) (k : Value) :
    last? (xs ++ ys) k = (ys.last? k).or (xs.last? k) := by
  rw [last?, List.reverse_append, get?_append]
  rfl

/-- What is laid over other things last is found first, also when a key comes more than once. -/
theorem get?_overlay_last (xs ys : Keyed α) (k : Value) :
    (xs.overlay ys).get? k = (ys.last? k).or (xs.get? k) := by
  induction ys generalizing xs with
  | nil => rfl
  | cons y ys ih =>
    have hone : get? (put xs y.1 y.2) k = (last? [y] k).or (xs.get? k) := by
      rw [get?_put, last?, List.reverse_singleton, get?_cons]
      split <;> rfl
    calc (xs.overlay (y :: ys)).get? k
        = (last? ys k).or (get? (put xs y.1 y.2) k) := ih (xs.put y.1 y.2)
      _ = ((last? ys k).or (last? [y] k)).or (xs.get? k) := by rw [hone, Option.or_assoc]
      _ = (last? (y :: ys) k).or (xs.get? k) := by rw [← last?_append, List.singleton_append]

theorem get?_ofPairs (pairs : Keyed α) (k : Value) : (ofPairs pairs).get? k = last? pairs k := by
  rw [ofPairs, get?_overlay_last]
  exact Option.or_none

/-- Only one thing can be the last under its key when no key comes twice. -/
theorem Distinct.last? {xs : Keyed α} (h : xs.Distinct) (k : Value) : xs.last? k = xs.get? k := by
  rw [← get?_ofPairs, ofPairs, overlay_nil h]

theorem overlay_append (xs ys zs : Keyed α) :
    xs.overlay (ys ++ zs) = (xs.overlay ys).overlay zs := List.foldl_append

theorem ofPairs_append (xs ys : Keyed α) : ofPairs (xs ++ ys) = (ofPairs xs).overlay ys :=
  overlay_append [] xs ys

theorem mem_of_get? {xs : Keyed α} {k : Value} {a : α} (h : xs.get? k = some a) :
    ∃ j, (j, a) ∈ xs ∧ j.sameKey k := by
  obtain ⟨e, he, rfl⟩ := Option.map_eq_some_iff.1 h
  have hk := List.find?_some he
  exact ⟨e.1, List.mem_of_find?_eq_some he, hk⟩

/-- What lies in an overlay comes from either side, but for the spelling of its key. -/
theorem mem_put {xs : Keyed α} {k : Value} {a : α} {e : Value × α} (h : e ∈ xs.put k a) :
    e ∈ xs ∨ (e.1 = k ∨ e.1.sameKey k) ∧ e.2 = a := by
  induction xs with
  | nil =>
    rw [List.mem_singleton.1 h]
    exact .inr ⟨.inl rfl, rfl⟩
  | cons x xs ih =>
    unfold put at h
    split at h
    · rename_i hx
      rcases List.mem_cons.1 h with rfl | h
      · exact .inr ⟨.inr hx, rfl⟩
      · exact .inl (List.mem_cons_of_mem x h)
    · rcases List.mem_cons.1 h with rfl | h
      · exact .inl List.mem_cons_self
      · exact (ih h).imp (List.mem_cons_of_mem x) id

/-- What all things on both sides of an overlay are, all things in it are. -/
theorem forall_mem_overlay {P : α → Prop} {xs ys : Keyed α} (hxs : ∀ e ∈ xs, P e.2)
    (hys : ∀ e ∈ ys, P e.2) : ∀ e ∈ xs.overlay ys, P e.2 := by
  induction ys generalizing xs with
  | nil => exact hxs
  | cons y ys ih =>
    obtain ⟨hy, hrest⟩ := List.forall_mem_cons.1 hys
    refine ih (fun e he => ?_) hrest
    rcases mem_put he with he | ⟨-, ha⟩
    · exact hxs e he
    · exact ha ▸ hy

theorem Distinct.put {xs : Keyed α} (h : xs.Distinct) (k : Value) (a : α) :
    (xs.put k a).Distinct := by
  induction xs with
  | nil => exact List.pairwise_singleton _ _
  | cons x xs ih =>
    obtain ⟨hx, hxs⟩ := List.pairwise_cons.1 h
    unfold Keyed.put
    split
    · exact List.pairwise_cons.2 ⟨hx, hxs⟩
    · rename_i hk
      refine List.pairwise_cons.2 ⟨fun e he hxe => ?_, ih hxs⟩
      rcases mem_put he with he | ⟨rfl | hek, -⟩
      · exact hx e he hxe
      · exact hk hxe
      · exact hk (Value.sameKey_trans hxe hek)

theorem Distinct.overlay {xs : Keyed α} (h : xs.Distinct) (ys : Keyed α) :
    (xs.overlay ys).Distinct := by
  induction ys generalizing xs with
  | nil => exact h
  | cons y ys ih => exact ih (h.put y.1 y.2)

theorem distinct_ofPairs (pairs : Keyed α) : (ofPairs pairs).Distinct :=
  Distinct.overlay .nil pairs

/-- Storing things one after another keeps them as they are exactly if no two have one key. -/
theorem ofPairs_eq_self_iff {xs : Keyed α} : ofPairs xs = xs ↔ xs.Distinct := by
  constructor
  · intro h
    rw [← h]
    exact distinct_ofPairs xs
  · exact overlay_nil

/-! ### Order and grouping -/

/-- A thing stored under a key takes the place of the one there, or else comes last. -/
theorem keys_put (xs : Keyed α) (k : Value) (a : α) :
    (xs.put k a).keys = if (xs.get? k).isSome then xs.keys else xs.keys ++ [k] := by
  induction xs with
  | nil => rfl
  | cons e es ih =>
    unfold put
    rw [get?_cons]
    by_cases he : e.1.sameKey k
    · rw [if_pos he, if_pos he]
      rfl
    · rw [if_neg he, if_neg he]
      calc keys (e :: put es k a) = e.1 :: (put es k a).keys := rfl
        _ = _ := by
          rw [ih]
          split <;> rfl

/-- The lower keys stay in their places, and the new ones follow in their own order. -/
theorem keys_overlay {ys : Keyed α} (h : ys.Distinct) (xs : Keyed α) :
    (xs.overlay ys).keys = xs.keys ++ ys.keys.filter fun k => (xs.get? k).isNone := by
  induction ys generalizing xs with
  | nil => exact (List.append_nil _).symm
  | cons y ys ih =>
    obtain ⟨hy, hys⟩ := List.pairwise_cons.1 h
    -- The first key is none of the later ones, which are therefore as new as before.
    have hrest : ((keys ys).filter fun k => (get? (put xs y.1 y.2) k).isNone) =
        (keys ys).filter fun k => (xs.get? k).isNone := by
      refine List.filter_congr fun k hk => ?_
      obtain ⟨e, he, rfl⟩ := List.mem_map.1 hk
      rw [get?_put, if_neg (hy e he)]
    calc (xs.overlay (y :: ys)).keys
        = (xs.put y.1 y.2).keys ++ (keys ys).filter fun k => (xs.get? k).isNone := by
          rw [← hrest]
          exact ih hys (xs.put y.1 y.2)
      _ = _ := by
          rw [keys_put]
          cases hx : xs.get? y.1 with
          | none => simp [keys, hx]
          | some a => simp [keys, hx]

theorem put_put {j k : Value} (h : j.sameKey k) (xs : Keyed α) (a b : α) :
    (xs.put j a).put k b = xs.put j b := by
  induction xs with
  | nil => simp [put, h]
  | cons e es ih =>
    have he : e.1.sameKey j = e.1.sameKey k := by
      rw [Value.sameKey_comm, Value.sameKey_congr h, Value.sameKey_comm]
    by_cases hk : e.1.sameKey k
    · simp [put, he, hk]
    · simp [put, he, hk, ih]

/-- In which order two things are stored does not matter if one of them is there already. -/
theorem put_comm {xs : Keyed α} {j k : Value} (hk : (xs.get? k).isSome) (hjk : ¬ j.sameKey k)
    (a b : α) : (xs.put j b).put k a = (xs.put k a).put j b := by
  induction xs with
  | nil => nomatch hk
  | cons e es ih =>
    by_cases hej : e.1.sameKey j
    · have hek : ¬ e.1.sameKey k := fun hek =>
        hjk (Value.sameKey_trans (Value.sameKey_symm hej) hek)
      simp [put, hej, hek]
    · by_cases hek : e.1.sameKey k
      · simp [put, hej, hek]
      · rw [get?_cons, if_neg hek] at hk
        simp [put, hej, hek, ih hk]

theorem put_overlay {ys : Keyed α} {k : Value} (hys : ∀ e ∈ ys, ¬ e.1.sameKey k) {xs : Keyed α}
    (hk : (xs.get? k).isSome) (a : α) : (xs.overlay ys).put k a = (xs.put k a).overlay ys := by
  induction ys generalizing xs with
  | nil => rfl
  | cons y ys ih =>
    obtain ⟨hy, hrest⟩ := List.forall_mem_cons.1 hys
    have hk' : ((xs.put y.1 y.2).get? k).isSome := by
      rw [get?_put, if_neg hy]
      exact hk
    calc (xs.overlay (y :: ys)).put k a
        = ((xs.put y.1 y.2).put k a).overlay ys := ih hrest hk'
      _ = ((xs.put k a).put y.1 y.2).overlay ys := by rw [put_comm hk hy]
      _ = (xs.put k a).overlay (y :: ys) := rfl

/-- Storing a thing in the upper entries stores it last. -/
theorem overlay_put {ys : Keyed α} (h : ys.Distinct) (xs : Keyed α) (k : Value) (a : α) :
    xs.overlay (ys.put k a) = (xs.overlay ys).put k a := by
  induction ys generalizing xs with
  | nil => rfl
  | cons y ys ih =>
    obtain ⟨hy, hys⟩ := List.pairwise_cons.1 h
    by_cases hk : y.1.sameKey k
    · have hnew : ∀ e ∈ ys, ¬ e.1.sameKey k := fun e he hek =>
        hy e he (Value.sameKey_trans hk (Value.sameKey_symm hek))
      have hthere : ((xs.put y.1 y.2).get? k).isSome := by rw [get?_put, if_pos hk]; rfl
      calc xs.overlay (put (y :: ys) k a)
          = (xs.put y.1 a).overlay ys := by rw [put, if_pos hk]; rfl
        _ = ((xs.put y.1 y.2).put k a).overlay ys := by rw [put_put hk]
        _ = (xs.overlay (y :: ys)).put k a := (put_overlay hnew hthere a).symm
    · calc xs.overlay (put (y :: ys) k a)
          = (xs.put y.1 y.2).overlay (put ys k a) := by rw [put, if_neg hk]; rfl
        _ = (xs.overlay (y :: ys)).put k a := ih hys (xs.put y.1 y.2)

/-- Three layers come to the same in any grouping. -/
theorem overlay_assoc {ys : Keyed α} (h : ys.Distinct) (xs zs : Keyed α) :
    (xs.overlay ys).overlay zs = xs.overlay (ys.overlay zs) := by
  induction zs generalizing ys with
  | nil => rfl
  | cons z zs ih =>
    calc (xs.overlay ys).overlay (z :: zs)
        = ((xs.overlay ys).put z.1 z.2).overlay zs := rfl
      _ = (xs.overlay (ys.put z.1 z.2)).overlay zs := by rw [overlay_put h]
      _ = xs.overlay (ys.overlay (z :: zs)) := ih (h.put z.1 z.2)

end Keyed

namespace Value

/-- A dictionary or a read-only mapping with the given entries, no key twice. -/
def IsMapping (v : Value) (es : Entries) : Prop := v.entries? = some es ∧ Keyed.Distinct es

end Value

namespace Entries

theorem ofValue_mapping {v : Value} {es : Entries} (h : v.IsMapping es) : ofValue v = .ok es := by
  unfold ofValue update
  rw [h.1]
  exact congrArg Except.ok (Keyed.overlay_nil h.2)

/-- Supplied values as entries: a mapping has its own, and nothing supplied has none. -/
inductive Given : Value → Entries → Prop
  | null : Given .null []
  | undefined : Given .undefined []
  | mapping {v es} (h : v.IsMapping es) : Given v es

theorem Given.distinct {v : Value} {es : Entries} (h : Given v es) : Keyed.Distinct es := by
  cases h with
  | null => exact .nil
  | undefined => exact .nil
  | mapping h => exact h.2

theorem extend_given {defaults given : Entries} {values : Value} (hd : Keyed.Distinct defaults)
    (hg : Given values given) :
    extend (.dict defaults) values = .ok (defaults.overlay given) := by
  have hm : ofValue (.dict defaults) = .ok defaults := ofValue_mapping ⟨rfl, hd⟩
  cases hg with
  | null => simp [extend, hm, Keyed.overlay]
  | undefined => simp [extend, hm, Keyed.overlay]
  | mapping h =>
    have hu : update defaults values = .ok (defaults.overlay given) := by
      unfold update
      rw [h.1]
    rw [extend, hm]
    simp only [bind, Except.bind]
    split
    · cases h.1
    · cases h.1
    · exact hu

end Entries
end CheckedActions
