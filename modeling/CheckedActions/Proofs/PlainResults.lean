import CheckedActions.Proofs.PlainForms
import Mathlib.Data.List.Forall2

/-!
Plain forms of values at every depth. The plain form of a value is plain data, and plain data is its
own plain form. A dictionary's plain form has an entry for each present one, under the text of its
key; where two keys have one text, the later entry stands in the place of the first.
-/

namespace CheckedActions

namespace Value

theorem arePlain_iff {xs : List Value} : arePlain xs ↔ ∀ x ∈ xs, x.isPlain := by
  induction xs with
  | nil => simp [arePlain]
  | cons x xs ih => simp [arePlain, ih]

theorem arePlainEntries_iff {es : Entries} :
    arePlainEntries es ↔ ∀ e ∈ es, e.1.isString ∧ e.2.isPlain := by
  induction es with
  | nil => simp [arePlainEntries]
  | cons e es ih => simp [arePlainEntries, ih]

theorem Data.isPlain {ints : Int → Prop} {floats : Binary64 → Prop} {v : Value}
    (h : v.Data ints floats) : v.isPlain := by
  induction h with
  | list _ ih => exact arePlain_iff.2 ih
  | dict hn _ _ ih =>
    refine arePlainEntries_iff.2 fun e he => ⟨?_, ih e he⟩
    obtain ⟨name, hname⟩ := hn e he
    rw [hname]
    rfl
  | _ => rfl

/-- Every value has a plain form unless a part of it has none. The plain form is plain data at every
level, and its own plain form; so it is with all plain data, and with no other value. -/
theorem toPlain_settles (v : Value) :
    (v.toPlain.isOk ↔ ¬ v.Unplain) ∧
    (∀ w, v.toPlain = .ok w → w.AnyData ∧ w.isPlain ∧ w.toPlain = .ok w) ∧
    (v.toPlain = .ok v ↔ v.AnyData) := by
  refine ⟨isOk_toPlain v, fun w hw => ?_, data_toPlain v, AnyData.toPlain_eq⟩
  have hdata := data_toPlain v hw
  exact ⟨hdata, hdata.isPlain, hdata.toPlain_eq⟩

/-- A parcel with values of many kinds, some of them absent. -/
def parcel : Value :=
  dict [(int 1, tuple [bool true, undefined]), (str "gone", undefined),
    (str "sent", datetime ⟨⟨2000, 1, 1⟩, 0, 0, 0, 456789, some 0⟩),
    (null, model [("tags", set [str "fragile"]), ("box", mapping [(int 2, frozenset [obj []])])])]

/-- The parcel's plain form. -/
def plainParcel : Value :=
  dict [(str "1", list [bool true, null]), (str "sent", str "2000-01-01T00:00:00.456Z"),
    (str "None", dict [(str "tags", list [str "fragile"]),
      (str "box", dict [(str "2", list [str "<Obj>"])])])]

theorem parcel_settles : parcel.toPlain = .ok plainParcel ∧ plainParcel.AnyData ∧
    plainParcel.isPlain ∧ plainParcel.toPlain = .ok plainParcel := by
  have hparcel : parcel.toPlain = .ok plainParcel := rfl
  exact ⟨hparcel, (toPlain_settles parcel).2.1 plainParcel hparcel⟩

/-! ### Entries -/

/-- The value is the other one, or lies at some depth in what that one's plain form is put together
from. -/
inductive Within : Value → Value → Prop
  | self (v : Value) : Within v v
  | part {v x u : Value} (hx : x ∈ v.parts) (h : Within x u) : Within v u

/-- What lies within a value that has a plain form has one too. -/
theorem Within.not_unplain {v u : Value} (h : v.Within u) (hv : ¬ v.Unplain) : ¬ u.Unplain := by
  induction h with
  | self v => exact hv
  | part hx _ ih => exact ih ((not_unplain_iff.1 hv).2 _ hx)

/-- A record as the dictionary that it is dumped into; any other value as it is. -/
def dumped : Value → Value
  | model fields => record fields
  | v => v

theorem plainFields_eq (fields : List (String × Value)) (done : Entries) :
    plainFields fields done = plainEntries (fields.map fun (k, v) => (str k, v)) done := by
  induction fields generalizing done with
  | nil => rfl
  | cons f fields ih =>
    rw [plainFields, List.map_cons, plainEntries]
    simp only [ih]
    rfl

theorem toPlain_dumped (v : Value) : v.dumped.toPlain = v.toPlain := by
  cases v with
  | model fields => rw [dumped, record, toPlain, toPlain, plainFields_eq]
  | _ => rfl

theorem toPlain_of_entries? {v : Value} {es : Entries} (h : v.entries? = some es) :
    v.toPlain = (plainEntries es []).map dict := by
  cases v with
  | dict fs => cases h; rfl
  | mapping fs => cases h; rfl
  | _ => nomatch h

theorem written_eq_ok_iff {v : Value} {s : String} :
    v.written = .ok s ↔ v.isWritable ∧ v.text = s := by
  unfold written ifWritable
  split <;> simp_all

end Value

namespace Entries

/-- The entries whose value is not the absent one. -/
def present (es : Entries) : Entries := es.filter fun e => !e.2.isUndefined

/-- Each entry has one counterpart, in the same order: the plain form of its value under the text of
its key. -/
def Mirrored (es out : Entries) : Prop :=
  List.Forall₂ (fun e p => p.1 = .str e.1.text ∧ e.2.toPlain = .ok p.2) es out

theorem Mirrored.unique {es out out' : Entries} (h : Mirrored es out) (h' : Mirrored es out') :
    out = out' := by
  induction h generalizing out' with
  | nil => exact (List.forall₂_nil_left_iff.1 h').symm
  | cons hp _ ih =>
    obtain ⟨p', rest', hp', hrest', rfl⟩ := List.forall₂_cons_left_iff.1 h'
    have hvalue := hp.2.symm.trans hp'.2
    rw [ih hrest', Prod.ext (hp.1.trans hp'.1.symm) (Except.ok.inj hvalue)]

theorem Mirrored.named {es out : Entries} (h : Mirrored es out) : Keyed.Named out := by
  induction h with
  | nil => exact nofun
  | cons hp _ ih => exact List.forall_mem_cons.2 ⟨⟨_, hp.1⟩, ih⟩

theorem Mirrored.texts {es out : Entries} (h : Mirrored es out) :
    out.map (·.1.text) = es.map (·.1.text) := by
  induction h with
  | nil => rfl
  | cons hp _ ih => rw [List.map_cons, List.map_cons, ih, hp.1]; rfl

/-- The plain form of a dictionary is made by storing the counterparts of its present entries, whose
keys all have to be short enough to be written. -/
theorem plainEntries_eq_ok_iff {es done out : Entries} :
    Value.plainEntries es done = .ok out ↔
      (∀ e ∈ present es, e.1.isWritable) ∧ ∃ ps, Mirrored (present es) ps ∧
        done.overlay ps = out := by
  induction es generalizing done with
  | nil => simp [Value.plainEntries, present, Mirrored, Keyed.overlay]
  | cons e es ih =>
    obtain ⟨k, v⟩ := e
    rw [Value.plainEntries]
    by_cases hv : v.isUndefined
    · rw [if_pos hv, ih]
      simp [present, hv]
    · have hpresent : present ((k, v) :: es) = (k, v) :: present es := by simp [present, hv]
      rw [if_neg hv, hpresent, bind_eq_ok_iff]
      constructor
      · rintro ⟨name, hname, h⟩
        obtain ⟨hk, rfl⟩ := Value.written_eq_ok_iff.1 hname
        obtain ⟨y, hy, h⟩ := bind_eq_ok_iff.1 h
        obtain ⟨hkeys, ps, hps, rfl⟩ := ih.1 h
        exact ⟨List.forall_mem_cons.2 ⟨hk, hkeys⟩, (.str k.text, y) :: ps, .cons ⟨rfl, hy⟩ hps, rfl⟩
      · rintro ⟨hkeys, ps, hps, rfl⟩
        obtain ⟨hk, hkeys⟩ := List.forall_mem_cons.1 hkeys
        obtain ⟨⟨_, y⟩, rest, ⟨rfl, hy⟩, hrest, rfl⟩ := List.forall₂_cons_left_iff.1 hps
        exact ⟨k.text, Value.written_eq_ok_iff.2 ⟨hk, rfl⟩,
          bind_eq_ok_iff.2 ⟨y, hy, ih.2 ⟨hkeys, rest, hrest, rfl⟩⟩⟩

/-- The counterpart of an entry in the middle. -/
theorem Mirrored.split {before after ps : Entries} {e : Value × Value}
    (h : Mirrored (before ++ e :: after) ps) :
    ∃ first p rest, ps = first ++ p :: rest ∧ p.1 = .str e.1.text ∧ e.2.toPlain = .ok p.2 ∧
      Mirrored after rest := by
  induction before generalizing ps with
  | nil =>
    obtain ⟨p, rest, hp, hrest, rfl⟩ := List.forall₂_cons_left_iff.1 h
    exact ⟨[], p, rest, rfl, hp.1, hp.2, hrest⟩
  | cons d before ih =>
    obtain ⟨q, tail, -, htail, rfl⟩ := List.forall₂_cons_left_iff.1 h
    obtain ⟨first, p, rest, rfl, hp⟩ := ih htail
    exact ⟨q :: first, p, rest, rfl, hp⟩

/-- A text without later counterparts is found where its last entry was stored. -/
theorem Mirrored.field?_ofPairs {before after ps : Entries} {e : Value × Value}
    (h : Mirrored (before ++ e :: after) ps) (hlast : ∀ d ∈ after, d.1.text ≠ e.1.text) :
    ∃ x, e.2.toPlain = .ok x ∧ field? (Keyed.ofPairs ps) e.1.text = some x := by
  obtain ⟨first, p, rest, rfl, hkey, hvalue, hrest⟩ := h.split
  have hnone : Keyed.last? rest (.str e.1.text) = none := by
    apply Keyed.get?_eq_none
    intro q hq hsame
    obtain ⟨d, hd, htext⟩ : ∃ d ∈ after, d.1.text = q.1.text := by
      rw [← List.mem_map, ← hrest.texts]
      exact List.mem_map_of_mem (List.mem_reverse.1 hq)
    refine hlast d hd (htext.trans ?_)
    rw [Value.sameKey_str_iff.1 hsame]
    rfl
  have hone : Keyed.last? [p] (.str e.1.text) = some p.2 := by
    rw [Keyed.last?, List.reverse_singleton, Keyed.get?_cons, hkey]
    simp
  refine ⟨p.2, hvalue, ?_⟩
  rw [field?, Keyed.get?_ofPairs, Keyed.last?_append, ← List.singleton_append, Keyed.last?_append,
    hnone, hone]
  rfl

end Entries

namespace Value

/-- Wherever a dictionary, a mapping or a record lies in a value that has a plain form, its own
plain form is a dictionary with the texts of the keys that are present, each where it comes first,
and under each of them the plain form of the last value whose key has that text. So it has one entry
for each that is present, in their order, exactly if no two keys that are present have one text. -/
theorem toPlain_entries {v u : Value} {es : Entries} (hv : v.toPlain.isOk) (hu : v.Within u)
    (hes : u.dumped.entries? = some es) :
    ∃ out : Entries, u.toPlain = .ok (dict out) ∧
      (es.present.Mirrored out ↔ (es.present.map (·.1.text)).Nodup) ∧
      out.keys = (es.present.map (·.1.text)).eraseDups.map str ∧
      ∀ before e after, es.present = before ++ e :: after →
        (∀ d ∈ after, d.1.text ≠ e.1.text) →
        ∃ x, e.2.toPlain = .ok x ∧ out.field? e.1.text = some x := by
  have hok : u.toPlain.isOk := (isOk_toPlain u).2 (hu.not_unplain ((isOk_toPlain v).1 hv))
  have hform : u.toPlain = (plainEntries es []).map dict := by
    rw [← toPlain_dumped, toPlain_of_entries? hes]
  rw [hform, isOk_map] at hok
  obtain ⟨out, hout⟩ := isOk_iff.1 hok
  obtain ⟨-, ps, hps, rfl⟩ := Entries.plainEntries_eq_ok_iff.1 hout
  refine ⟨Keyed.ofPairs ps, by rw [hform, hout]; rfl, ?_, ?_, ?_⟩
  · rw [← hps.texts, ← hps.named.distinct_iff, ← Keyed.ofPairs_eq_self_iff]
    constructor
    · exact fun h => h.unique hps
    · exact fun h => h.symm ▸ hps
  · have hkeys := hps.named.keys_overlay []
    rw [hps.texts] at hkeys
    simpa [Keyed.ofPairs, Keyed.keys, Keyed.get?] using hkeys
  · intro before e after hsplit hlast
    rw [hsplit] at hps
    exact hps.field?_ofPairs hlast

/-- Marks under numbers and texts, the last of which says the same as the first number. -/
def marks : Entries :=
  [(int 1, str "first"), (null, undefined), (str "2", date ⟨2000, 1, 2⟩), (str "1", tuple [undefined])]

/-- Deep in a list, the marks keep the places of their texts, and the first one gives way. -/
theorem marks_entries : ∃ out : Entries,
    (list [model [("marks", mapping marks)]]).toPlain.isOk ∧
    (list [model [("marks", mapping marks)]]).Within (mapping marks) ∧
    (mapping marks).toPlain = .ok (dict out) ∧ ¬ marks.present.Mirrored out ∧
    out.keys = [str "1", str "2"] ∧ out.field? "1" = some (list [null]) := by
  have hok : (list [model [("marks", mapping marks)]]).toPlain.isOk := rfl
  have hwithin : (list [model [("marks", mapping marks)]]).Within (mapping marks) :=
    .part List.mem_cons_self (.part List.mem_cons_self (.self _))
  have hentries : (mapping marks).dumped.entries? = some marks := rfl
  obtain ⟨out, hout, hmirrored, hkeys, hlast⟩ := toPlain_entries hok hwithin hentries
  have htexts : marks.present.map (·.1.text) = ["1", "2", "1"] := rfl
  obtain ⟨x, hx, hone⟩ := hlast [(int 1, str "first"), (str "2", date ⟨2000, 1, 2⟩)]
    (str "1", tuple [undefined]) [] rfl nofun
  cases hx
  refine ⟨out, hok, hwithin, hout, ?_, ?_, hone⟩
  · rw [hmirrored, htexts]
    decide
  · rw [hkeys, htexts]
    rfl

/-- A number and its text are two keys of a dictionary, and its plain form keeps one of their
entries. -/
theorem number_overwritten :
    (dict [(int 1, str "first"), (str "1", str "second")]).IsMapping
      [(int 1, str "first"), (str "1", str "second")] ∧
    (dict [(int 1, str "first"), (str "1", str "second")]).toPlain =
      .ok (dict [(str "1", str "second")]) ∧
    ¬ Entries.Mirrored (Entries.present [(int 1, str "first"), (str "1", str "second")])
      [(str "1", str "second")] := by
  refine ⟨⟨rfl, by decide⟩, rfl, fun h => ?_⟩
  exact absurd h.length_eq (by decide)

end Value
end CheckedActions
