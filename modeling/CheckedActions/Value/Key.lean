import CheckedActions.Value.Show

/-!
Values as dictionary keys. Two values are the same key when their canonical forms agree: numbers
count by their value, so that `1`, `1.0` and `true` are one key, and date-times by their instant.
Objects, functions and what is not a number are no other value's key, however alike. Collections
that can change have no canonical form.
-/

namespace CheckedActions

/-- A piece of a canonical form. A tuple announces its length, and its items follow; a complex
number is followed by its two parts. -/
inductive KeyAtom where
  | undefined
  | null
  | number (q : Rat)
  | infinity (negative : Bool)
  | complex
  | text (s : String)
  | bytes (bs : List UInt8)
  | tuple (size : Nat)
  | frozenset (size : Nat)
  | instant (micros : Int)
  | civil (t : DateTime)
  | date (d : Date)
  /-- What is the same key as no other value. -/
  | unique
  deriving DecidableEq

abbrev Key := List KeyAtom

def Binary64.keyAtom : Binary64 → KeyAtom
  | .nan => .unique
  | .infinity negative => .infinity negative
  | .finite negative m u =>
    let n : Int := Binary64.magnitude m u
    .number (mkRat (if negative then -n else n) Binary64.scale)

def Decimal.keyAtom (d : Decimal) : KeyAtom :=
  match d with
  | .nan .. => .unique
  | .infinity negative => .infinity negative
  | .finite .. => .number (d.toRat?.getD 0)

namespace Value

mutual
/-- The canonical form of a key, or the kind of value that cannot be one. -/
def key : Value → Except String Key
  | undefined => .ok [.undefined]
  | null => .ok [.null]
  | bool b => .ok [.number (if b then 1 else 0)]
  | str s => .ok [.text s]
  | int n => .ok [.number n]
  | float x => .ok [x.keyAtom]
  | decimal d => .ok [d.keyAtom]
  | fraction n d => .ok [.number (mkRat n d)]
  | complex re im =>
    .ok (if im.isZero then [re.keyAtom] else [.complex, re.keyAtom, im.keyAtom])
  | bytes bs => .ok [.bytes bs]
  | tuple xs => (keys xs).map fun ks => .tuple xs.length :: ks
  | frozenset xs => (keys xs).map fun ks => .frozenset xs.length :: ks
  | datetime t => match t.offset with
    | none => .ok [.civil t]
    | some _ => .ok [.instant t.instantMicros]
  | date d => .ok [.date d]
  | func _ => .ok [.unique]
  | obj _ => .ok [.unique]
  | list _ => .error "list"
  | set _ => .error "set"
  | dict _ => .error "dict"
  | mapping _ => .error "mappingproxy"
  | model _ => .error "Model"
termination_by structural v => v

def keys : List Value → Except String Key
  | [] => .ok []
  | x :: xs => do
    let k ← x.key
    let ks ← keys xs
    .ok (k ++ ks)
termination_by structural xs => xs
end

/-- Whether two values are one key. -/
def sameKey (a b : Value) : Bool :=
  match a.key, b.key with
  | .ok x, .ok y => decide (x = y ∧ .unique ∉ x)
  | _, _ => false

@[simp] theorem sameKey_str (a b : String) : sameKey (str a) (str b) = decide (a = b) := by
  simp [sameKey, key]

theorem sameKey_iff {a b : Value} :
    sameKey a b ↔ ∃ k, a.key = .ok k ∧ b.key = .ok k ∧ .unique ∉ k := by
  unfold sameKey
  cases a.key with
  | error e => simp
  | ok x =>
    cases b.key with
    | error e => simp
    | ok y =>
      constructor
      · intro h
        obtain ⟨rfl, hx⟩ := of_decide_eq_true h
        exact ⟨x, rfl, rfl, hx⟩
      · rintro ⟨k, hx, hy, hk⟩
        cases hx
        cases hy
        exact decide_eq_true ⟨rfl, hk⟩

theorem sameKey_symm {a b : Value} (h : sameKey a b) : sameKey b a := by
  obtain ⟨k, ha, hb, hk⟩ := sameKey_iff.1 h
  exact sameKey_iff.2 ⟨k, hb, ha, hk⟩

theorem sameKey_comm (a b : Value) : sameKey a b = sameKey b a :=
  Bool.eq_iff_iff.2 ⟨sameKey_symm, sameKey_symm⟩

theorem sameKey_trans {a b c : Value} (hab : sameKey a b) (hbc : sameKey b c) : sameKey a c := by
  obtain ⟨k, ha, hb, hk⟩ := sameKey_iff.1 hab
  obtain ⟨j, hb', hc, _⟩ := sameKey_iff.1 hbc
  rw [hb] at hb'
  cases hb'
  exact sameKey_iff.2 ⟨k, ha, hc, hk⟩

/-- Values that are one key are the same key as the same others. -/
theorem sameKey_congr {a b : Value} (h : sameKey a b) (c : Value) : sameKey a c = sameKey b c :=
  Bool.eq_iff_iff.2 ⟨sameKey_trans (sameKey_symm h), sameKey_trans h⟩

end Value

namespace Keyed

variable {α : Type}

def keys (xs : Keyed α) : List Value := xs.map (·.1)

/-- The thing under a key. -/
def get? (xs : Keyed α) (k : Value) : Option α :=
  (xs.find? fun e => e.1.sameKey k).map (·.2)

/-- Stores a thing: in place of the one under the same key, whose key stays as it was first
written, or else at the end. -/
def put : Keyed α → Value → α → Keyed α
  | [], k, a => [(k, a)]
  | e :: es, k, a => if e.1.sameKey k then (e.1, a) :: es else e :: put es k a

/-- The things of `xs` with those of `ys` stored over them. -/
def overlay (xs ys : Keyed α) : Keyed α := ys.foldl (fun es e => es.put e.1 e.2) xs

/-- Things stored one after another. -/
def ofPairs (pairs : List (Value × α)) : Keyed α := overlay [] pairs

theorem get?_cons (e : Value × α) (xs : Keyed α) (k : Value) :
    get? (e :: xs) k = if e.1.sameKey k then some e.2 else xs.get? k := by
  unfold get?
  rw [List.find?_cons]
  cases e.1.sameKey k <;> rfl

/-- Storing changes what is found under that key and under no other. -/
theorem get?_put (xs : Keyed α) (k : Value) (a : α) (j : Value) :
    (xs.put k a).get? j = if k.sameKey j then some a else xs.get? j := by
  induction xs with
  | nil => exact get?_cons (k, a) [] j
  | cons e es ih =>
    unfold put
    split
    · rename_i he
      rw [get?_cons, get?_cons, Value.sameKey_congr he j]
      split <;> rfl
    · rename_i he
      rw [get?_cons, get?_cons, ih]
      by_cases hk : k.sameKey j
      · have hn : ¬ e.1.sameKey j := fun hj =>
          he (Value.sameKey_trans hj (Value.sameKey_comm k j ▸ hk))
        simp [hk, hn]
      · simp [hk]

end Keyed

namespace Entries

/-- The value under a text key. -/
def field? (es : Entries) (k : String) : Option Value := es.get? (.str k)

theorem field?_put (es : Entries) (k : String) (v : Value) (j : String) :
    field? (es.put (.str k) v) j = if k = j then some v else es.field? j := by
  unfold field?
  rw [Keyed.get?_put]
  simp

end Entries
end CheckedActions
