import CheckedActions.Value.Key

/-!
Tables under construction. Values are stored under key paths; marks on key paths say which tables
must not be declared again and which values must not be extended.
-/

namespace CheckedActions.Toml

abbrev KeyPath := List String

/-- Changes the table at a key path, making tables on the way where nothing is. Of an array the
last table is meant, if arrays may be entered. -/
def updateAt (enterArrays : Bool) (change : Entries → Option Entries) :
    KeyPath → Entries → Option Entries
  | [], es => change es
  | k :: ks, es =>
    match es.field? k with
    | none => (updateAt enterArrays change ks []).map fun sub => es.put (.str k) (.dict sub)
    | some (.dict sub) =>
      (updateAt enterArrays change ks sub).map fun sub => es.put (.str k) (.dict sub)
    | some (.list xs) =>
      if enterArrays then
        match xs.getLast? with
        | some (.dict sub) => (updateAt enterArrays change ks sub).map fun sub =>
            es.put (.str k) (.list (xs.dropLast ++ [.dict sub]))
        | _ => none
      else none
    | some _ => none

/-- Stores a value under a key that is new. -/
def insertNew (key : String) (v : Value) (es : Entries) : Option Entries :=
  if (es.field? key).isSome then none else some (es.put (.str key) v)

/-- Appends an empty table to the array under a key. -/
def appendTable (key : String) (es : Entries) : Option Entries :=
  match es.field? key with
  | none => some (es.put (.str key) (.list [.dict []]))
  | some (.list xs) => some (es.put (.str key) (.list (xs ++ [.dict []])))
  | some _ => none

/-- What a mark says of a key path. -/
inductive MarkKind where
  /-- The table is declared. -/
  | declared
  /-- The value is complete, and so is all that lies inside it. -/
  | complete
  deriving DecidableEq

structure Mark where
  path : KeyPath
  kind : MarkKind

/-- Whether marks say something of a key path. -/
def isMarked (marks : List Mark) (path : KeyPath) (kind : MarkKind) : Bool :=
  marks.any fun m => m.kind = kind &&
    (m.path = path || (kind = .complete && m.path.isPrefixOf path))

/-- A document as far as it is read. -/
structure Draft where
  data : Entries
  marks : List Mark
  /-- Paths that count as declared from the next header on. -/
  opened : List KeyPath
  /-- The path of the header that statements stand under. -/
  header : KeyPath

namespace Draft

def empty : Draft := ⟨[], [], [], []⟩

/-- Marks the tables opened since the last header as declared. -/
def settle (d : Draft) : Draft :=
  { d with marks := d.marks ++ d.opened.map fun p => ⟨p, .declared⟩, opened := [] }

/-- Declares a table. -/
def declareTable (d : Draft) (path : KeyPath) : Option Draft := do
  let d := d.settle
  if isMarked d.marks path .declared || isMarked d.marks path .complete then none
  else
    let data ← updateAt true some path d.data
    some { d with data, marks := d.marks ++ [⟨path, .declared⟩], header := path }

/-- Declares one more table of an array. What was marked inside the array is free again. -/
def declareArrayTable (d : Draft) (path : KeyPath) : Option Draft := do
  let d := d.settle
  if isMarked d.marks path .complete then none
  else
    let key ← path.getLast?
    let data ← updateAt true (appendTable key) path.dropLast d.data
    let kept := d.marks.filter fun m => !path.isPrefixOf m.path
    some { d with data, marks := kept ++ [⟨path, .declared⟩], header := path }

/-- The tables that a dotted key opens under a header. -/
def openedBy (header path : KeyPath) : List KeyPath :=
  (List.range (path.length - 1)).map fun i => header ++ path.take (i + 1)

def isCollection : Value → Bool
  | .dict _ => true
  | .list _ => true
  | _ => false

/-- Stores a value under a dotted key. -/
def assign (d : Draft) (path : KeyPath) (v : Value) : Option Draft := do
  let opened := openedBy d.header path
  let parent := d.header ++ path.dropLast
  if opened.any (isMarked d.marks · .declared) || isMarked d.marks parent .complete then none
  else
    let key ← path.getLast?
    let data ← updateAt true (insertNew key v) parent d.data
    let marks := if isCollection v then d.marks ++ [⟨d.header ++ path, .complete⟩] else d.marks
    some { d with data, marks, opened := d.opened ++ opened }

end Draft

/-- A table written in one line, with the marks on its parts. -/
structure Inline where
  data : Entries
  marks : List Mark

/-- Stores a value under a dotted key of a table written in one line. -/
def Inline.assign (t : Inline) (path : KeyPath) (v : Value) : Option Inline := do
  if isMarked t.marks path .complete then none
  else
    let key ← path.getLast?
    let data ← updateAt false (insertNew key v) path.dropLast t.data
    let marks := if Draft.isCollection v then t.marks ++ [⟨path, .complete⟩] else t.marks
    some { data, marks }

end CheckedActions.Toml
