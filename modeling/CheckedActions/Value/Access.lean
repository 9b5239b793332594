import CheckedActions.Value.Pairs

/-!
Uses of a value that only some kinds allow: going through its items, looking up an entry, taking it
for a text. A value of another kind makes the use fail.
-/

namespace CheckedActions.Value

/-- The items of a value that can be gone through. -/
def iterate (v : Value) : Except Failure (List Value) :=
  match v.items? with
  | some xs => .ok xs
  | none => .error (.notIterable v.kindName)

/-- The entry of a value under a text key. -/
def subscript (v : Value) (key : String) : Except Failure Value :=
  match v.entries? with
  | some es => match es.field? key with
    | some x => .ok x
    | none => .error (.missingKey (.str key))
  | none => match v with
    | str _ => .error (.misused "string indices must be integers, not 'str'")
    | bytes _ => .error (.misused "byte indices must be integers or slices, not str")
    | list _ => .error (.misused "list indices must be integers or slices, not str")
    | tuple _ => .error (.misused "tuple indices must be integers or slices, not str")
    | v => .error (.misused (quoteText v.kindName ++ " object is not subscriptable"))

/-- The entries of a value that has any. -/
def entriesOf (v : Value) : Except Failure Entries :=
  match v.entries? with
  | some es => .ok es
  | none => .error (.noAttribute v.kindName "items")

/-- The text of a value that stands where a text is displayed. -/
def displayText (v : Value) : Except Failure String :=
  match v with
  | str s => .ok s
  | bytes _ => .error (.misused "a bytes-like object is required, not 'dict'")
  | v => .error (.noAttribute v.kindName "translate")

/-- Looks a value up among the styles of a text. Any text names one, and what a condition takes for
false is none. -/
def asStyle (v : Value) : Except Failure Unit :=
  match v with
  | str _ => .ok ()
  | v => if v.truthy then do
      let _ ← v.key.mapError Failure.unhashable
      match v with
      | bytes bs =>
        if bs.all fun b => b = 32 ∨ (9 ≤ b ∧ b ≤ 13) then pure ()
        else throw (.misused "cannot use a string pattern on a bytes-like object")
      | v => throw (.noAttribute v.kindName "strip")
    else .ok ()

/-- The text of a value that stands where a piece of a text is displayed: a text, or items of which
the first is a text and the second its style. An empty text needs no style. -/
def pieceText (v : Value) : Except Failure String :=
  match v with
  | str s => .ok s
  | v => match v.items? with
    | none => .error (.misused
        ("rich.text.Text.append() argument after * must be an iterable, not " ++ v.kindName))
    | some [] => .error (.misused "Text.append() missing 1 required positional argument: 'text'")
    | some [str s] => .ok s
    | some [str s, style] => if s.isEmpty then .ok s else style.asStyle.map fun _ => s
    | some xs =>
      if 2 < xs.length then
        .error (.misused ("Text.append() takes from 2 to 3 positional arguments but " ++
          toString (xs.length + 1) ++ " were given"))
      else .error (.misused "Only str or Text can be appended to Text")

/-- What is made of a value's text, which fails where the text cannot be written. -/
def ifWritable {α : Type} (v : Value) (a : α) : Except Failure α :=
  if v.isWritable then .ok a else .error .tooLongToWrite

/-- The text of a value, if it can be written. -/
def written (v : Value) : Except Failure String := v.ifWritable v.text

/-- How many items a value has, if that can be told without going through them. -/
def size (v : Value) : Except Failure Nat :=
  match v, v.items? with
  | model _, _ => .error (.misused "object of type 'Model' has no len()")
  | _, some xs => .ok xs.length
  | v, none => .error (.misused ("object of type " ++ quoteText v.kindName ++ " has no len()"))

/-- The texts that values are, the first value having the given index. -/
def textsFrom : Nat → List Value → Except Failure (List String)
  | _, [] => .ok []
  | i, str s :: vs => (textsFrom (i + 1) vs).map (s :: ·)
  | i, v :: _ => .error (.notText i v.kindName)

/-- The texts that values are, each of which has to be one. -/
def texts (vs : List Value) : Except Failure (List String) := textsFrom 0 vs

theorem textsFrom_str (i : Nat) (ss : List String) : textsFrom i (ss.map str) = .ok ss := by
  induction ss generalizing i with
  | nil => rfl
  | cons s ss ih => simp [textsFrom, ih, Except.map]

end CheckedActions.Value
