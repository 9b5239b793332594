import CheckedActions.Proofs.Runs
import CheckedActions.Value.Field
import CheckedActions.Value.Plain

/-!
Which values have a plain form. A moment whose universal time lies outside the calendar has none,
nor has an object with an attribute for dumping itself. A fraction has none if it is too long to be
written, nor has a dictionary with such a key. A value that holds one of these at any depth has none
either. Every other value has one.
-/

namespace CheckedActions

namespace DateTime

/-- The fields have an offset, and taking it off leaves the years of the calendar. -/
def BeyondCalendar (t : DateTime) : Prop :=
  t.offset.isSome ∧ ¬ (0 ≤ t.instantMicros ∧ t.instantMicros < endMicros)

instance (t : DateTime) : Decidable t.BeyondCalendar := by unfold BeyondCalendar; infer_instance

theorem timestamp?_eq_none_iff (t : DateTime) : t.timestamp? = none ↔ t.BeyondCalendar := by
  unfold timestamp? BeyondCalendar
  cases ho : t.offset with
  | none => simp
  | some o =>
    have hu : t.toUniversal? = ofMicros? t.instantMicros := by
      simp [toUniversal?, instantMicros, ho]
    rw [hu]
    unfold ofMicros?
    split
    · rename_i h
      simp [h]
    · rename_i h
      simp [h]

end DateTime

namespace Value

/-- The values that the plain form of a value is put together from. -/
def parts : Value → List Value
  | list xs => xs
  | tuple xs => xs
  | set xs => xs
  | frozenset xs => xs
  | dict es => es.map (·.2)
  | mapping es => es.map (·.2)
  | model fields => fields.map (·.2)
  | _ => []

/-- One of the entries that are present has a key that is too long to be written. -/
def LongKey (es : Entries) : Prop := ∃ e ∈ es, e.2.isUndefined = false ∧ ¬ e.1.isWritable

/-- Values that have no plain form whatever their parts: a moment beyond the calendar, an object
with an attribute for dumping itself, a fraction that is too long to be written, and a dictionary or
mapping with such a key. -/
def Blocked : Value → Prop
  | datetime t => t.BeyondCalendar
  | obj fields => ∃ dump, (obj fields).attribute? "model_dump" = some dump
  | fraction num den => ¬ (fraction num den).isWritable
  | dict es => LongKey es
  | mapping es => LongKey es
  | _ => False

/-- Values without a plain form. -/
inductive Unplain : Value → Prop
  | blocked {v : Value} (h : v.Blocked) : Unplain v
  | inside {v x : Value} (hx : x ∈ v.parts) (h : Unplain x) : Unplain v

theorem not_unplain_iff {v : Value} : ¬ v.Unplain ↔ ¬ v.Blocked ∧ ∀ x ∈ v.parts, ¬ x.Unplain := by
  constructor
  · exact fun h => ⟨fun hb => h (.blocked hb), fun x hx hu => h (.inside hx hu)⟩
  · rintro ⟨hb, hp⟩ hu
    cases hu with
    | blocked h => exact hb h
    | inside hx h => exact hp _ hx h

theorem not_unplain_of_isUndefined {v : Value} (h : v.isUndefined) : ¬ v.Unplain := by
  cases v with
  | undefined => exact not_unplain_iff.2 ⟨not_false, nofun⟩
  | _ => nomatch h

theorem isOk_leaf {v : Value} (hb : ¬ v.Blocked) (hp : v.parts = []) (h : v.toPlain.isOk) :
    v.toPlain.isOk ↔ ¬ v.Unplain := by
  rw [not_unplain_iff, hp]
  simp [h, hb]

theorem isOk_ifWritable {α : Type} (v : Value) (a : α) : (v.ifWritable a).isOk = v.isWritable := by
  unfold ifWritable
  cases v.isWritable <;> rfl

/-- A value that is put together from the plain forms of its parts has one if they do. -/
theorem isOk_container {α : Type} {v : Value} {x : Except Failure α} {f : α → Value}
    (hv : v.toPlain = x.map f) (hx : x.isOk ↔ ¬ v.Blocked ∧ ∀ y ∈ v.parts, ¬ y.Unplain) :
    v.toPlain.isOk ↔ ¬ v.Unplain := by
  rw [hv, isOk_map, hx, not_unplain_iff]

/-- Nothing but its parts can keep an unblocked value from having a plain form. -/
theorem isOk_of_parts {α : Type} {v : Value} {x : Except Failure α} {f : α → Value}
    (hv : v.toPlain = x.map f) (hb : ¬ v.Blocked) (hx : x.isOk ↔ ∀ y ∈ v.parts, ¬ y.Unplain) :
    v.toPlain.isOk ↔ ¬ v.Unplain :=
  isOk_container hv (hx.trans (and_iff_right hb).symm)

theorem not_longKey_cons {k v : Value} {es : Entries} :
    ¬ LongKey ((k, v) :: es) ↔ (v.isUndefined = false → k.isWritable) ∧ ¬ LongKey es := by
  simp [LongKey]

mutual
/-- Exactly the values without a plain form fail to be brought into it. -/
theorem isOk_toPlain : (v : Value) → (v.toPlain.isOk ↔ ¬ v.Unplain)
  | undefined => isOk_leaf not_false rfl rfl
  | null => isOk_leaf not_false rfl rfl
  | bool _ => isOk_leaf not_false rfl rfl
  | str _ => isOk_leaf not_false rfl rfl
  | int _ => isOk_leaf not_false rfl rfl
  | float _ => isOk_leaf not_false rfl rfl
  | decimal _ => isOk_leaf not_false rfl rfl
  | complex _ _ => isOk_leaf not_false rfl rfl
  | bytes _ => isOk_leaf not_false rfl rfl
  | date _ => isOk_leaf not_false rfl rfl
  | func _ => isOk_leaf not_false rfl rfl
  | fraction num den => by
    have hok : (fraction num den).toPlain.isOk = (fraction num den).isWritable :=
      isOk_ifWritable _ _
    rw [not_unplain_iff, hok]
    simp [Blocked, parts]
  | datetime t => by
    rw [not_unplain_iff, toPlain]
    cases ht : t.timestamp? with
    | none => simp [Blocked, ← t.timestamp?_eq_none_iff, ht]
    | some s => simp [Blocked, parts, ← t.timestamp?_eq_none_iff, ht]
  | obj fields => by
    rw [not_unplain_iff, toPlain, plainObject]
    cases hd : fields.lookup "model_dump" with
    | none => simp [Blocked, parts, attribute?, hd]
    | some dump => simp [Blocked, attribute?, hd]
  | list xs => isOk_of_parts rfl not_false (isOk_plainItems xs)
  | tuple xs => isOk_of_parts rfl not_false (isOk_plainItems xs)
  | set xs => isOk_of_parts rfl not_false (isOk_plainItems xs)
  | frozenset xs => isOk_of_parts rfl not_false (isOk_plainItems xs)
  | dict es => isOk_container rfl (isOk_plainEntries es [])
  | mapping es => isOk_container rfl (isOk_plainEntries es [])
  | model fields => isOk_of_parts rfl not_false (isOk_plainFields fields [])
termination_by structural v => v

theorem isOk_plainItems : (xs : List Value) → ((plainItems xs).isOk ↔ ∀ x ∈ xs, ¬ x.Unplain)
  | [] => by simp [plainItems]
  | x :: xs => by
    have hx := isOk_toPlain x
    have hxs := isOk_plainItems xs
    have hrest : ∀ y, (plainItems xs >>= fun ys => pure (y :: ys)).isOk ↔
        ∀ z ∈ xs, ¬ z.Unplain := by
      intro y
      rw [← hxs]
      exact Bool.eq_iff_iff.1 (isOk_map (plainItems xs) (y :: ·))
    rw [plainItems, isOk_bind_and hrest, hx, List.forall_mem_cons]
termination_by structural xs => xs

theorem isOk_plainEntries : (es : List (Value × Value)) → (done : Entries) →
    ((plainEntries es done).isOk ↔ ¬ LongKey es ∧ ∀ x ∈ es.map (·.2), ¬ x.Unplain)
  | [], done => by simp [plainEntries, LongKey]
  | (k, v) :: es, done => by
    have hv := isOk_toPlain v
    have hes := isOk_plainEntries es
    rw [plainEntries, List.map_cons, List.forall_mem_cons, not_longKey_cons]
    -- An absent entry is passed over, and nothing keeps it from having a plain form.
    split
    · rename_i hu
      rw [hes]
      simp [hu, not_unplain_of_isUndefined hu]
    · rename_i hu
      have hrest : ∀ name, (v.toPlain >>= fun y => plainEntries es (done.put (str name) y)).isOk ↔
          ¬ v.Unplain ∧ ¬ LongKey es ∧ ∀ x ∈ es.map (·.2), ¬ x.Unplain := by
        intro name
        rw [isOk_bind_and fun y => hes _, hv]
      rw [isOk_bind_and hrest, written, isOk_ifWritable]
      simp only [Bool.not_eq_true] at hu
      simp only [hu, forall_const]
      exact ⟨fun ⟨hk, hv, hes, hparts⟩ => ⟨⟨hk, hes⟩, hv, hparts⟩,
        fun ⟨⟨hk, hes⟩, hv, hparts⟩ => ⟨hk, hv, hes, hparts⟩⟩
termination_by structural es => es

theorem isOk_plainFields : (fs : List (String × Value)) → (done : Entries) →
    ((plainFields fs done).isOk ↔ ∀ x ∈ fs.map (·.2), ¬ x.Unplain)
  | [], done => by simp [plainFields]
  | (k, v) :: fs, done => by
    have hv := isOk_toPlain v
    have hfs := isOk_plainFields fs
    rw [plainFields, List.map_cons, List.forall_mem_cons]
    split
    · rename_i hu
      rw [hfs]
      exact (and_iff_right (not_unplain_of_isUndefined hu)).symm
    · rw [isOk_bind_and fun y => hfs _, hv]
termination_by structural fs => fs
end

end Value
end CheckedActions
