import CheckedActions.Proofs.Names
import CheckedActions.Proofs.PlainData

/-!
What plain forms look like. A plain form is put together from the null value, truth values, numbers
and texts by lists and by dictionaries with distinct text keys.
-/

namespace CheckedActions

namespace Value

/-- Plain data whose numbers are those that `ints` and `floats` allow. -/
inductive Data (ints : Int → Prop) (floats : Binary64 → Prop) : Value → Prop
  | null : Data ints floats null
  | bool (b : Bool) : Data ints floats (bool b)
  | str (s : String) : Data ints floats (str s)
  | int {n : Int} (h : ints n) : Data ints floats (int n)
  | float {x : Binary64} (h : floats x) : Data ints floats (float x)
  | list {xs : List Value} (h : ∀ x ∈ xs, Data ints floats x) : Data ints floats (list xs)
  | dict {es : Entries} (hn : es.Named) (hd : es.Distinct)
    (h : ∀ e ∈ es, Data ints floats e.2) : Data ints floats (dict es)

/-- Plain data with numbers of any size. -/
abbrev AnyData : Value → Prop := Data (fun _ => True) (fun _ => True)

theorem Data.mono {ints ints' : Int → Prop} {floats floats' : Binary64 → Prop}
    (hi : ∀ n, ints n → ints' n) (hf : ∀ x, floats x → floats' x) {v : Value}
    (h : v.Data ints floats) : v.Data ints' floats' := by
  induction h with
  | null => exact .null
  | bool b => exact .bool b
  | str s => exact .str s
  | int h => exact .int (hi _ h)
  | float h => exact .float (hf _ h)
  | list _ ih => exact .list ih
  | dict hn hd _ ih => exact .dict hn hd ih

theorem Data.any {ints : Int → Prop} {floats : Binary64 → Prop} {v : Value}
    (h : v.Data ints floats) : v.AnyData :=
  h.mono (fun _ _ => trivial) (fun _ _ => trivial)

theorem Data.perm {ints : Int → Prop} {floats : Binary64 → Prop} {es fs : Entries}
    (h : (Value.dict es).Data ints floats) (hp : es.Perm fs) :
    (Value.dict fs).Data ints floats := by
  cases h with | dict hn hd h =>
  exact .dict (fun e he => hn e (hp.mem_iff.2 he)) (hd.perm hp) fun e he => h e (hp.mem_iff.2 he)

/-! ### Plain forms are plain data -/

/-- What has been collected of a dictionary's plain form. -/
structure Collects (done : Entries) : Prop where
  named : done.Named
  distinct : done.Distinct
  data : ∀ e ∈ done, e.2.AnyData

theorem collects_nil : Collects [] := ⟨nofun, .nil, nofun⟩

theorem Collects.put {done : Entries} (hd : Collects done) (k : String) {v : Value}
    (hv : v.AnyData) : Collects (done.put (.str k) v) := by
  refine ⟨fun e he => ?_, hd.distinct.put _ v, fun e he => ?_⟩
  · rcases Keyed.mem_put he with he | ⟨hk | hk, -⟩
    · exact hd.named e he
    · exact ⟨k, hk⟩
    · exact ⟨k, sameKey_str_iff.1 hk⟩
  · rcases Keyed.mem_put he with he | ⟨-, rfl⟩
    · exact hd.data e he
    · exact hv

theorem Collects.anyData {done : Entries} (hd : Collects done) : (dict done).AnyData :=
  .dict hd.named hd.distinct hd.data

theorem data_of_map {α : Type} {x : Except Failure α} {f : α → Value} {w : Value}
    (h : x.map f = .ok w) (hx : ∀ a, x = .ok a → (f a).AnyData) : w.AnyData := by
  obtain ⟨a, ha, rfl⟩ := map_eq_ok_iff.1 h
  exact hx a ha

mutual
theorem data_toPlain : (v : Value) → {w : Value} → v.toPlain = .ok w → w.AnyData
  | undefined, _, rfl => .null
  | null, _, rfl => .null
  | bool b, _, rfl => .bool b
  | str s, _, rfl => .str s
  | int _, _, rfl => .int trivial
  | float _, _, rfl => .float trivial
  | decimal _, _, rfl => .str _
  | complex _ _, _, rfl => .str _
  | bytes _, _, rfl => .str _
  | date _, _, rfl => .str _
  | func _, _, rfl => .str _
  | fraction num den, w, h => by
    change (fraction num den).ifWritable _ = .ok w at h
    unfold ifWritable at h
    split at h
    · cases h
      exact .str _
    · nomatch h
  | datetime t, w, h => by
    rw [toPlain] at h
    split at h
    · cases h
      exact .str _
    · nomatch h
  | obj fields, w, h => by
    rw [toPlain, plainObject] at h
    split at h
    · nomatch h
    · cases h
      exact .str _
  | list xs, _, h => data_of_map h fun _ hys => .list (data_plainItems xs hys)
  | tuple xs, _, h => data_of_map h fun _ hys => .list (data_plainItems xs hys)
  | set xs, _, h => data_of_map h fun _ hys => .list (data_plainItems xs hys)
  | frozenset xs, _, h => data_of_map h fun _ hys => .list (data_plainItems xs hys)
  | dict es, _, h => data_of_map h fun _ hes => (collects_plainEntries es collects_nil hes).anyData
  | mapping es, _, h =>
    data_of_map h fun _ hes => (collects_plainEntries es collects_nil hes).anyData
  | model fields, _, h =>
    data_of_map h fun _ hes => (collects_plainFields fields collects_nil hes).anyData
termination_by structural v => v

theorem data_plainItems : (xs : List Value) → {ys : List Value} → plainItems xs = .ok ys →
    ∀ y ∈ ys, y.AnyData
  | [], _, rfl => nofun
  | x :: xs, _, h => by
    rw [plainItems] at h
    obtain ⟨y, hy, h⟩ := bind_eq_ok_iff.1 h
    obtain ⟨ys, hys, h⟩ := bind_eq_ok_iff.1 h
    cases h
    exact List.forall_mem_cons.2 ⟨data_toPlain x hy, data_plainItems xs hys⟩
termination_by structural xs => xs

theorem collects_plainEntries : (es : List (Value × Value)) → {done out : Entries} →
    Collects done → plainEntries es done = .ok out → Collects out
  | [], _, _, hd, rfl => hd
  | (k, v) :: es, done, _, hd, h => by
    rw [plainEntries] at h
    split at h
    · exact collects_plainEntries es hd h
    · obtain ⟨name, -, h⟩ := bind_eq_ok_iff.1 h
      obtain ⟨y, hy, h⟩ := bind_eq_ok_iff.1 h
      exact collects_plainEntries es (hd.put name (data_toPlain v hy)) h
termination_by structural es => es

theorem collects_plainFields : (fs : List (String × Value)) → {done out : Entries} →
    Collects done → plainFields fs done = .ok out → Collects out
  | [], _, _, hd, rfl => hd
  | (k, v) :: fs, done, _, hd, h => by
    rw [plainFields] at h
    split at h
    · exact collects_plainFields fs hd h
    · obtain ⟨y, hy, h⟩ := bind_eq_ok_iff.1 h
      exact collects_plainFields fs (hd.put k (data_toPlain v hy)) h
termination_by structural fs => fs
end

/-! ### Plain data is its own plain form -/

theorem AnyData.isUndefined {v : Value} (h : v.AnyData) : v.isUndefined = false := by
  cases h <;> rfl

theorem plainItems_eq {xs : List Value} (h : ∀ x ∈ xs, x.toPlain = .ok x) :
    plainItems xs = .ok xs := by
  induction xs with
  | nil => rfl
  | cons x xs ih =>
    have hx := h x List.mem_cons_self
    have hxs := ih fun y hy => h y (List.mem_cons_of_mem x hy)
    rw [plainItems, hx, hxs]
    rfl

theorem plainEntries_eq {es : Entries} (hn : es.Named) (hu : ∀ e ∈ es, e.2.isUndefined = false)
    (h : ∀ e ∈ es, e.2.toPlain = .ok e.2) (done : Entries) :
    plainEntries es done = .ok (done.overlay es) := by
  induction es generalizing done with
  | nil => rfl
  | cons e es ih =>
    obtain ⟨k, v⟩ := e
    obtain ⟨name, rfl⟩ := hn (k, v) List.mem_cons_self
    have hv : v.toPlain = .ok v := h _ List.mem_cons_self
    have hpresent : ¬ v.isUndefined := by simp [hu _ List.mem_cons_self]
    have hrest := ih (fun d hd => hn d (List.mem_cons_of_mem _ hd))
      (fun d hd => hu d (List.mem_cons_of_mem _ hd))
      (fun d hd => h d (List.mem_cons_of_mem _ hd)) (done.put (.str name) v)
    have hname : (str name).written = .ok name := rfl
    rw [plainEntries, if_neg hpresent, hname, hv]
    exact hrest

theorem AnyData.toPlain_eq {v : Value} (h : v.AnyData) : v.toPlain = .ok v := by
  induction h with
  | list _ ih => rw [toPlain, plainItems_eq ih]; rfl
  | dict hn hd h ih =>
    have hpresent := fun e he => AnyData.isUndefined (h e he)
    rw [toPlain, plainEntries_eq hn hpresent ih, Keyed.overlay_nil hd]
    rfl
  | _ => rfl

/-! ### Numbers that are written -/

theorem areWritable_iff (xs : List Value) : areWritable xs ↔ ∀ x ∈ xs, x.isWritable := by
  induction xs with
  | nil => simp [areWritable]
  | cons x xs ih => simp [areWritable, ih]

theorem areWritableEntries_iff {es : Entries} (h : es.Named) :
    areWritableEntries es ↔ ∀ e ∈ es, e.2.isWritable := by
  induction es with
  | nil => simp [areWritableEntries]
  | cons e es ih =>
    obtain ⟨name, hname⟩ := h e List.mem_cons_self
    have hrest := ih fun d hd => h d (List.mem_cons_of_mem e hd)
    obtain ⟨k, v⟩ := e
    simp only at hname
    simp [areWritableEntries, hname, isWritable, hrest]

/-- Plain data can be written when its whole numbers are short. -/
theorem Data.isWritable_iff {ints : Int → Prop} {floats : Binary64 → Prop} {v : Value}
    (h : v.Data ints floats) : v.isWritable ↔ v.Data (isShort ·) floats := by
  constructor
  · intro hw
    induction h with
    | null => exact .null
    | bool b => exact .bool b
    | str s => exact .str s
    | int _ => exact .int hw
    | float h => exact .float h
    | list _ ih => exact .list fun x hx => ih x hx ((areWritable_iff _).1 hw x hx)
    | dict hn hd _ ih =>
      exact .dict hn hd fun e he => ih e he ((areWritableEntries_iff hn).1 hw e he)
  · intro hw
    clear h
    induction hw with
    | int h => exact h
    | list _ ih => exact (areWritable_iff _).2 ih
    | dict hn _ _ ih => exact (areWritableEntries_iff hn).2 ih
    | _ => rfl

end Value
end CheckedActions
