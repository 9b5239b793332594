import CheckedActions.Json.Report
import CheckedActions.Proofs.PlainData

/-!
Which values a report can hold. An absent value, a function, an object, a fraction, a read-only
mapping and bytes that are no text have no form in it, nor has anything that holds one of these. A
key needs a name, which collections do not have, tuples apart, nor whole numbers of too many digits.
And no value may have more levels than a report follows.
-/

namespace CheckedActions

namespace Value

/-- Values that have no form in a report, whatever they hold. -/
def Formless : Value → Prop
  | undefined => True
  | fraction _ _ => True
  | mapping _ => True
  | func _ => True
  | obj _ => True
  | bytes bs => Schema.textOfBytes? bs = none
  | _ => False

theorem isOk_reportBytes (bs : List UInt8) : (reportBytes bs).isOk ↔ ¬ (bytes bs).Formless := by
  unfold reportBytes
  rw [Formless]
  cases Schema.textOfBytes? bs with
  | none => simp
  | some s => simp

/-! ### Names of keys -/

/-- Values that are not the name of a key, whatever they hold. -/
def Unnamed : Value → Prop
  | list _ => True
  | set _ => True
  | frozenset _ => True
  | dict _ => True
  | model _ => True
  | int n => ¬ isShort n
  | v => v.Formless

/-- The values that the name of a key is put together from. -/
def nameParts : Value → List Value
  | tuple xs => xs
  | _ => []

/-- Values that are not the name of a key. -/
inductive Nameless : Value → Prop
  | unnamed {v : Value} (h : v.Unnamed) : Nameless v
  | inside {v x : Value} (hx : x ∈ v.nameParts) (h : Nameless x) : Nameless v

theorem not_nameless_iff {v : Value} :
    ¬ v.Nameless ↔ ¬ v.Unnamed ∧ ∀ x ∈ v.nameParts, ¬ x.Nameless := by
  constructor
  · exact fun h => ⟨fun hu => h (.unnamed hu), fun x hx hn => h (.inside hx hn)⟩
  · rintro ⟨hu, hp⟩ hn
    cases hn with
    | unnamed h => exact hu h
    | inside hx h => exact hp _ hx h

mutual
/-- Exactly the nameless values fail to be made the name of a key. -/
theorem isOk_reportKey (v : Value) : v.reportKey.isOk ↔ ¬ v.Nameless := by
  rw [not_nameless_iff]
  cases v with
  | tuple xs =>
    rw [reportKey, isOk_map, isOk_reportKeys xs]
    exact (and_iff_right not_false).symm
  | bytes bs =>
    rw [reportKey, isOk_reportBytes]
    simp [Unnamed, nameParts]
  | int n =>
    rw [reportKey]
    by_cases h : isShort n <;> simp [Unnamed, nameParts, h]
  | _ => simp [reportKey, Unnamed, Formless, nameParts]
termination_by structural v

theorem isOk_reportKeys (xs : List Value) : (reportKeys xs).isOk ↔ ∀ x ∈ xs, ¬ x.Nameless := by
  cases xs with
  | nil => simp [reportKeys]
  | cons x xs =>
    have hrest : ∀ k, (reportKeys xs >>= fun ks => pure (k :: ks)).isOk ↔
        ∀ y ∈ xs, ¬ y.Nameless := fun k => by
      rw [isOk_bind_pure, isOk_reportKeys xs]
    rw [reportKeys, isOk_bind_and hrest, isOk_reportKey x, List.forall_mem_cons]
termination_by structural xs
end

/-! ### Values -/

/-- The keys that need a name in a report. -/
def namedKeys : Value → List Value
  | dict es => es.map (·.1)
  | _ => []

/-- Values that no report can hold. -/
inductive Unreportable : Value → Prop
  | formless {v : Value} (h : v.Formless) : Unreportable v
  | inside {v x : Value} (hx : x ∈ v.parts) (h : Unreportable x) : Unreportable v
  | key {v k : Value} (hk : k ∈ v.namedKeys) (h : k.Nameless) : Unreportable v

theorem not_unreportable_iff {v : Value} :
    ¬ v.Unreportable ↔ ¬ v.Formless ∧ (∀ x ∈ v.parts, ¬ x.Unreportable) ∧
      ∀ k ∈ v.namedKeys, ¬ k.Nameless := by
  constructor
  · exact fun h => ⟨fun hf => h (.formless hf), fun x hx hu => h (.inside hx hu),
      fun k hk hn => h (.key hk hn)⟩
  · rintro ⟨hf, hp, hk⟩ hu
    cases hu with
    | formless h => exact hf h
    | inside hx h => exact hp _ hx h
    | key hmem h => exact hk _ hmem h

/-! ### Levels -/

mutual
/-- How many levels of values a value has, its own one counted. -/
def levels : Value → Nat
  | list xs => levelsAmong xs + 1
  | tuple xs => levelsAmong xs + 1
  | set xs => levelsAmong xs + 1
  | frozenset xs => levelsAmong xs + 1
  | dict es => levelsInEntries es + 1
  | mapping es => levelsInEntries es + 1
  | model fields => levelsInFields fields + 1
  | _ => 1
termination_by structural v => v

def levelsAmong : List Value → Nat
  | [] => 0
  | x :: xs => max x.levels (levelsAmong xs)
termination_by structural xs => xs

def levelsInEntries : List (Value × Value) → Nat
  | [] => 0
  | (_, v) :: es => max v.levels (levelsInEntries es)
termination_by structural es => es

def levelsInFields : List (String × Value) → Nat
  | [] => 0
  | (_, v) :: fs => max v.levels (levelsInFields fs)
termination_by structural fs => fs
end

theorem levelsAmong_le_iff {xs : List Value} {n : Nat} :
    levelsAmong xs ≤ n ↔ ∀ x ∈ xs, x.levels ≤ n := by
  induction xs with
  | nil => simp [levelsAmong]
  | cons x xs ih => rw [levelsAmong, Nat.max_le, ih, List.forall_mem_cons]

theorem levelsInEntries_le_iff {es : Entries} {n : Nat} :
    levelsInEntries es ≤ n ↔ ∀ x ∈ es.map (·.2), x.levels ≤ n := by
  induction es with
  | nil => simp [levelsInEntries]
  | cons e es ih => rw [levelsInEntries, Nat.max_le, ih, List.map_cons, List.forall_mem_cons]

theorem levelsInFields_le_iff {fs : List (String × Value)} {n : Nat} :
    levelsInFields fs ≤ n ↔ ∀ x ∈ fs.map (·.2), x.levels ≤ n := by
  induction fs with
  | nil => simp [levelsInFields]
  | cons f fs ih => rw [levelsInFields, Nat.max_le, ih, List.map_cons, List.forall_mem_cons]

theorem not_levels_le_zero (v : Value) : ¬ v.levels ≤ 0 := by
  cases v <;> simp [levels]

/-- The levels of a value are those of its parts and its own one. -/
theorem levels_le_iff {v : Value} {n : Nat} : v.levels ≤ n + 1 ↔ ∀ x ∈ v.parts, x.levels ≤ n := by
  cases v with
  | list | tuple | set | frozenset =>
    rw [levels, Nat.add_le_add_iff_right, levelsAmong_le_iff]
    rfl
  | dict | mapping =>
    rw [levels, Nat.add_le_add_iff_right, levelsInEntries_le_iff]
    rfl
  | model =>
    rw [levels, Nat.add_le_add_iff_right, levelsInFields_le_iff]
    rfl
  | _ => simp [levels, parts]

/-- The value can stand in a report where that goes on for so many levels. -/
def Reportable (v : Value) (room : Nat) : Prop := v.levels ≤ room ∧ ¬ v.Unreportable

theorem not_reportable_zero (v : Value) : ¬ v.Reportable 0 := fun h => not_levels_le_zero v h.1

theorem reportable_succ_iff {v : Value} {room : Nat} :
    v.Reportable (room + 1) ↔ ¬ v.Formless ∧ (∀ x ∈ v.parts, x.Reportable room) ∧
      ∀ k ∈ v.namedKeys, ¬ k.Nameless := by
  rw [Reportable, levels_le_iff, not_unreportable_iff]
  constructor
  · rintro ⟨hl, hf, hp, hk⟩
    exact ⟨hf, fun x hx => ⟨hl x hx, hp x hx⟩, hk⟩
  · rintro ⟨hf, hp, hk⟩
    exact ⟨fun x hx => (hp x hx).1, hf, fun x hx => (hp x hx).2, hk⟩

mutual
/-- Exactly the values that cannot stand in a report fail to be put there. -/
theorem isOk_toReport (v : Value) (room : Nat) : (v.toReport room).isOk ↔ v.Reportable room := by
  cases room with
  | zero =>
    refine iff_of_false ?_ (not_reportable_zero v)
    cases v <;> exact nofun
  | succ room =>
    rw [reportable_succ_iff]
    cases v with
    | list xs =>
      rw [toReport, isOk_map, isOk_reportItems xs]
      simp [Formless, parts, namedKeys]
    | tuple xs =>
      rw [toReport, isOk_map, isOk_reportItems xs]
      simp [Formless, parts, namedKeys]
    | set xs =>
      rw [toReport, isOk_map, isOk_reportItems xs]
      simp [Formless, parts, namedKeys]
    | frozenset xs =>
      rw [toReport, isOk_map, isOk_reportItems xs]
      simp [Formless, parts, namedKeys]
    | model fields =>
      rw [toReport, isOk_map, isOk_reportFields fields]
      simp [Formless, parts, namedKeys]
    | dict es =>
      rw [toReport, isOk_map, isOk_reportEntries es]
      simp [Formless, parts, namedKeys]
    | bytes bs =>
      rw [toReport, isOk_map, isOk_reportBytes]
      simp [parts, namedKeys]
    | _ => simp [toReport, Formless, parts, namedKeys]
termination_by structural v

theorem isOk_reportItems (xs : List Value) (room : Nat) :
    (reportItems xs room).isOk ↔ ∀ x ∈ xs, x.Reportable room := by
  cases xs with
  | nil => simp [reportItems]
  | cons x xs =>
    have hrest : ∀ d, (reportItems xs room >>= fun ds => pure (d :: ds)).isOk ↔
        ∀ y ∈ xs, y.Reportable room := fun d => by
      rw [isOk_bind_pure, isOk_reportItems xs]
    rw [reportItems, isOk_bind_and hrest, isOk_toReport x, List.forall_mem_cons]
termination_by structural xs

theorem isOk_reportEntries (es : List (Value × Value)) (room : Nat) :
    (reportEntries es room).isOk ↔
      (∀ x ∈ es.map (·.2), x.Reportable room) ∧ ∀ k ∈ es.map (·.1), ¬ k.Nameless := by
  cases es with
  | nil => simp [reportEntries]
  | cons e es =>
    obtain ⟨k, v⟩ := e
    have hrest : ∀ name d, (reportEntries es room >>= fun ms => pure ((name, d) :: ms)).isOk ↔
        (∀ x ∈ es.map (·.2), x.Reportable room) ∧ ∀ j ∈ es.map (·.1), ¬ j.Nameless := by
      intro name d
      rw [isOk_bind_pure, isOk_reportEntries es]
    have hv := fun name => isOk_bind_and (x := v.toReport room) (hrest name)
    rw [reportEntries, isOk_bind_and hv, isOk_reportKey, isOk_toReport v, List.map_cons,
      List.map_cons, List.forall_mem_cons, List.forall_mem_cons]
    exact ⟨fun ⟨hk, hv, hvs, hks⟩ => ⟨⟨hv, hvs⟩, hk, hks⟩, fun ⟨⟨hv, hvs⟩, hk, hks⟩ =>
      ⟨hk, hv, hvs, hks⟩⟩
termination_by structural es

theorem isOk_reportFields (fs : List (String × Value)) (room : Nat) :
    (reportFields fs room).isOk ↔ ∀ x ∈ fs.map (·.2), x.Reportable room := by
  cases fs with
  | nil => simp [reportFields]
  | cons f fs =>
    obtain ⟨k, v⟩ := f
    have hrest : ∀ d, (reportFields fs room >>= fun ms => pure ((k, d) :: ms)).isOk ↔
        ∀ x ∈ fs.map (·.2), x.Reportable room := fun d => by
      rw [isOk_bind_pure, isOk_reportFields fs]
    rw [reportFields, isOk_bind_and hrest, isOk_toReport v, List.map_cons, List.forall_mem_cons]
termination_by structural fs
end

/-- A table of values can be reported if each of them can from its first level on. -/
theorem isOk_reportTable (fields : List (String × Value)) :
    (reportTable fields).isOk ↔ ∀ e ∈ fields, e.2.Reportable reportDepth := by
  rw [reportTable, isOk_map, isOk_reportFields, List.forall_mem_map]

@[simp] theorem reportable_bool (b : Bool) (room : Nat) : (bool b).Reportable (room + 1) :=
  (isOk_toReport (bool b) (room + 1)).1 rfl

@[simp] theorem reportable_int (n : Int) (room : Nat) : (int n).Reportable (room + 1) :=
  (isOk_toReport (int n) (room + 1)).1 rfl

@[simp] theorem reportable_str (s : String) (room : Nat) : (str s).Reportable (room + 1) :=
  (isOk_toReport (str s) (room + 1)).1 rfl

/-- A report holds a record if it holds what is in it. -/
theorem reportable_record {fields : List (String × Value)} {room : Nat} :
    (record fields).Reportable (room + 1) ↔ ∀ e ∈ fields, e.2.Reportable room := by
  have hnames : ∀ name, ¬ (str name).Nameless := fun name => by
    rw [← isOk_reportKey]
    rfl
  rw [record, reportable_succ_iff]
  simp only [Formless, parts, namedKeys, List.map_map, List.forall_mem_map, Function.comp_apply,
    hnames, not_false_eq_true, implies_true, true_and, and_true]

theorem reportable_list {xs : List Value} {room : Nat} :
    (list xs).Reportable (room + 1) ↔ ∀ x ∈ xs, x.Reportable room := by
  rw [reportable_succ_iff]
  simp [Formless, parts, namedKeys]

end Value
end CheckedActions
