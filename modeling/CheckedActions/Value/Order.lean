import CheckedActions.Failure
import CheckedActions.Value.Key

/-!
The order of keys. Keys of different kinds have none, and sorting them fails with the first two that
are compared and have none.
-/

namespace CheckedActions
namespace Value

/-- A real number's size: its side, which is zero for the finite ones, and its value. -/
def magnitude? : Value → Option (Int × Rat)
  | bool b => some (0, if b then 1 else 0)
  | int n => some (0, n)
  | float x => ofAtom? x.keyAtom
  | decimal d => ofAtom? d.keyAtom
  | fraction n d => some (0, mkRat n d)
  | _ => none
where
  ofAtom? : KeyAtom → Option (Int × Rat)
    | .number q => some (0, q)
    | .infinity negative => some (if negative then -1 else 1, 0)
    | _ => none

/-- Kinds of keys; keys of one kind are ordered, and no others. -/
inductive KeyKind where
  | number
  | text
  | bytes
  | tuple
  | frozenset
  | datetime
  | date
  deriving DecidableEq

def keyKind? : Value → Option KeyKind
  | bool _ => some .number
  | int _ => some .number
  | float _ => some .number
  | decimal _ => some .number
  | fraction .. => some .number
  | str _ => some .text
  | bytes _ => some .bytes
  | tuple _ => some .tuple
  | frozenset _ => some .frozenset
  | datetime _ => some .datetime
  | date _ => some .date
  | _ => none

mutual
/-- What asking whether the first key is less than the second fails with. Tuples are compared by
the first items that differ. -/
def conflict? : Value → Value → Option Failure
  | tuple xs, tuple ys => conflictIn? xs ys
  | datetime t, datetime u =>
    if t.offset.isSome = u.offset.isSome then none
    else some (.misused "can't compare offset-naive and offset-aware datetimes")
  | datetime _, date _ => some (.misused "can't compare datetime.datetime to datetime.date")
  | date _, datetime _ => some (.misused "can't compare datetime.datetime to datetime.date")
  | a, b =>
    if a.keyKind?.isSome ∧ a.keyKind? = b.keyKind? then none
    else some (.unorderedKeys a.kindName b.kindName)
termination_by structural a => a

def conflictIn? : List Value → List Value → Option Failure
  | x :: xs, y :: ys => if x.sameKey y then conflictIn? xs ys else x.conflict? y
  | _, _ => none
termination_by structural xs => xs
end

mutual
/-- Whether one key is less than another of its kind: numbers by size, texts by code points, tuples
by the first items that differ, dates by time, and sets by what they hold. -/
def keyLess : Value → Value → Bool
  | str s, str t => decide (s < t)
  | bytes xs, bytes ys => decide (xs < ys)
  | tuple xs, tuple ys => keysLess xs ys
  | frozenset xs, frozenset ys =>
    decide (xs.length < ys.length) && xs.all fun x => ys.any fun y => x.sameKey y
  | datetime t, datetime u => decide (t.instantMicros < u.instantMicros)
  | date d, date e => decide (d.dayNumber < e.dayNumber)
  | a, b => match a.magnitude?, b.magnitude? with
    | some (s, p), some (t, q) => decide (s < t ∨ s = t ∧ p < q)
    | _, _ => false
termination_by structural a => a

def keysLess : List Value → List Value → Bool
  | x :: xs, y :: ys => if x.sameKey y then keysLess xs ys else x.keyLess y
  | [], _ :: _ => true
  | _, _ => false
termination_by structural xs => xs
end

/-- Whether one key is less than another, if they have an order. -/
def isLess (a b : Value) : Except Failure Bool :=
  match a.conflict? b with
  | some f => .error f
  | none => .ok (a.keyLess b)

/-- The place of a key among sorted ones between two places, found by halving. -/
def placeOf (xs : List Value) (k : Value) (lo hi : Nat) : Except Failure Nat :=
  if lo < hi then
    let middle := (lo + hi) / 2
    match xs[middle]? with
    | some x => do
      if ← k.isLess x then placeOf xs k lo middle else placeOf xs k (middle + 1) hi
    | none => .ok lo
  else .ok lo
termination_by hi - lo

def insertKey (xs : List Value) (k : Value) : Except Failure (List Value) :=
  (placeOf xs k 0 xs.length).map fun i => xs.take i ++ k :: xs.drop i

/-- The keys that go on from a key in one direction, and those behind them. -/
def splitRun (falling : Bool) (a : Value) : List Value → Except Failure (List Value × List Value)
  | [] => .ok ([], [])
  | b :: rest => do
    if (← b.isLess a) = falling then
      let (run, rest) ← splitRun falling b rest
      return (b :: run, rest)
    else return ([], b :: rest)

/-- Sorts keys by insertion into the longest run they begin with. The order of the comparisons says
which of two failures wins. -/
def sortKeys : List Value → Except Failure (List Value)
  | a :: b :: rest => do
    let falling ← b.isLess a
    let (run, rest) ← splitRun falling a (b :: rest)
    rest.foldlM insertKey (if falling then (a :: run).reverse else a :: run)
  | xs => .ok xs

end Value

namespace Keyed

variable {α : Type}

/-- Things in the order of their keys, if these have one. -/
def sort (xs : Keyed α) : Except Failure (Keyed α) :=
  (Value.sortKeys xs.keys).map fun _ => xs.mergeSort fun a b => !b.1.keyLess a.1

theorem sort_perm {xs ys : Keyed α} (h : xs.sort = .ok ys) : ys.Perm xs := by
  unfold sort at h
  cases hk : Value.sortKeys xs.keys with
  | error f =>
    rw [hk] at h
    nomatch h
  | ok ks =>
    rw [hk] at h
    cases h
    exact List.mergeSort_perm xs _

end Keyed
end CheckedActions
