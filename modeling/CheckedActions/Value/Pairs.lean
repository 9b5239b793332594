import CheckedActions.Failure
import CheckedActions.Value.Key

/-!
Dictionaries made from values: a copy of a mapping's entries, or the pairs of a sequence whose
every element has two items. `extend` lays supplied values over defaults.
-/

namespace CheckedActions

namespace Value

/-- The items a value yields one by one, if it can be gone through. -/
def items? : Value → Option (List Value)
  | list xs => some xs
  | tuple xs => some xs
  | set xs => some xs
  | frozenset xs => some xs
  | str s => some (s.toList.map fun c => str (String.singleton c))
  | bytes bs => some (bs.map fun b => int b.toNat)
  | dict es => some (es.map (·.1))
  | mapping es => some (es.map (·.1))
  | model fields => some (fields.map fun (k, v) => tuple [str k, v])
  | _ => none

end Value

namespace Entries

/-- Stores the pairs of a sequence, the first element having the given index. -/
def putPairs : Nat → Entries → List Value → Except Failure Entries
  | _, es, [] => .ok es
  | i, es, x :: xs => do
    let pair ← match x.items? with
      | some items => pure items
      | none => throw (.elementNotSequence i)
    match pair with
    | [k, v] =>
      let _ ← k.key.mapError Failure.unhashable
      putPairs (i + 1) (es.put k v) xs
    | _ => throw (.elementLength i pair.length)

/-- Stores what a value holds as a dictionary. -/
def update (es : Entries) (v : Value) : Except Failure Entries :=
  match v.entries? with
  | some new => .ok (es.overlay new)
  | none => match v.items? with
    | some xs => putPairs 0 es xs
    | none => .error (.notIterable v.kindName)

/-- The entries of a value as a dictionary. -/
def ofValue (v : Value) : Except Failure Entries := update [] v

/-- The defaults with the supplied values over them; nothing supplied leaves them as they are. -/
def extend (defaults values : Value) : Except Failure Entries := do
  let merged ← ofValue defaults
  match values with
  | .null => pure merged
  | .undefined => pure merged
  | v => merged.update v

end Entries
end CheckedActions
