import CheckedActions.Toml.Scalar
import CheckedActions.Toml.Table

/-!
Reading TOML 1.0: statements line by line, each a table header or a key with its value. A text that
is no TOML is refused as a whole.
-/

namespace CheckedActions.Toml

def orMalformed {α : Type} (a : Option α) : Except Fault α :=
  match a with
  | some a => .ok a
  | none => .error .malformed

def isBareKeyChar (c : Char) : Bool := c.isAlphanum || c = '-' || c = '_'

/-- One part of a dotted key. -/
def keyPart (cs : List Char) : Except Fault (String × List Char) :=
  match cs with
  | '\'' :: rest => literal rest
  | '"' :: rest => basic rest
  | _ =>
    let part := cs.takeWhile isBareKeyChar
    if part.isEmpty then .error .malformed else .ok (String.ofList part, cs.drop part.length)

/-- A dotted key with the blanks after it. -/
def keyPath : Nat → List Char → Except Fault (KeyPath × List Char)
  | 0, _ => .error .malformed
  | fuel + 1, cs => do
    let (part, rest) ← keyPart cs
    match skipSpace rest with
    | '.' :: rest => do
      let (parts, rest) ← keyPath fuel (skipSpace rest)
      .ok (part :: parts, rest)
    | rest => .ok ([part], rest)

def key (cs : List Char) : Except Fault (KeyPath × List Char) := keyPath (cs.length + 1) cs

/-- A comment, if one begins the text, left out up to the end of its line. -/
def skipComment (cs : List Char) : Except Fault (List Char) :=
  match cs with
  | '#' :: rest =>
    let body := rest.takeWhile (· ≠ '\n')
    if body.any isBarred then .error .malformed else .ok (rest.drop body.length)
  | cs => .ok cs

/-- Blanks, line feeds and comments left out. -/
def skipFiller : Nat → List Char → Except Fault (List Char)
  | 0, cs => .ok cs
  | fuel + 1, cs => do
    match cs.dropWhile fun c => isSpace c || c = '\n' with
    | '#' :: rest => skipFiller fuel (← skipComment ('#' :: rest))
    | rest => .ok rest

def filler (cs : List Char) : Except Fault (List Char) := skipFiller (cs.length + 1) cs

/-- A date, a time or a number. -/
def plainValue (cs : List Char) : Except Fault (Value × List Char) :=
  match dateTime? cs with
  | some r => r
  | none => match timeOfDay? cs with
    | some r => .ok r
    | none => match based? cs with
      | some (n, rest) => .ok (.int n, rest)
      | none => match decimal? cs with
        | some r => r
        | none => orMalformed (special? cs)

mutual
/-- The value that begins a text. -/
def value : Nat → List Char → Except Fault (Value × List Char)
  | 0, _ => .error .malformed
  | fuel + 1, cs =>
    match cs with
    | '"' :: '"' :: '"' :: rest => (basicLines rest).map fun (s, rest) => (.str s, rest)
    | '"' :: rest => (basic rest).map fun (s, rest) => (.str s, rest)
    | '\'' :: '\'' :: '\'' :: rest => (literalLines rest).map fun (s, rest) => (.str s, rest)
    | '\'' :: rest => (literal rest).map fun (s, rest) => (.str s, rest)
    | 't' :: 'r' :: 'u' :: 'e' :: rest => .ok (.bool true, rest)
    | 'f' :: 'a' :: 'l' :: 's' :: 'e' :: rest => .ok (.bool false, rest)
    | '[' :: rest => do
      let (xs, rest) ← items fuel (← filler rest)
      .ok (.list xs, rest)
    | '{' :: rest =>
      match skipSpace rest with
      | '}' :: rest => .ok (.dict [], rest)
      | rest => (members fuel ⟨[], []⟩ rest).map fun (es, rest) => (.dict es, rest)
    | cs => plainValue cs
termination_by structural fuel => fuel

/-- The items of an array up to its end; a comma may follow the last one. -/
def items : Nat → List Char → Except Fault (List Value × List Char)
  | 0, _ => .error .malformed
  | fuel + 1, cs =>
    match cs with
    | ']' :: rest => .ok ([], rest)
    | cs => do
      let (v, rest) ← value fuel cs
      match ← filler rest with
      | ']' :: rest => .ok ([v], rest)
      | ',' :: rest => do
        let (vs, rest) ← items fuel (← filler rest)
        .ok (v :: vs, rest)
      | _ => .error .malformed
termination_by structural fuel => fuel

/-- The members of a table written in one line up to its end. -/
def members : Nat → Inline → List Char → Except Fault (Entries × List Char)
  | 0, _, _ => .error .malformed
  | fuel + 1, table, cs => do
    let (path, rest) ← key cs
    let rest ← orMalformed (after? '=' rest)
    let (v, rest) ← value fuel (skipSpace rest)
    let table ← orMalformed (table.assign path v)
    match skipSpace rest with
    | '}' :: rest => .ok (table.data, rest)
    | ',' :: rest => members fuel table (skipSpace rest)
    | _ => .error .malformed
termination_by structural fuel => fuel
end

/-- One statement, which does not begin with a blank. -/
def statement (d : Draft) (cs : List Char) : Except Fault (Draft × List Char) :=
  match cs with
  | '[' :: '[' :: rest => do
    let (path, rest) ← key (skipSpace rest)
    let d ← orMalformed (d.declareArrayTable path)
    .ok (d, ← orMalformed (do after? ']' (← after? ']' rest)))
  | '[' :: rest => do
    let (path, rest) ← key (skipSpace rest)
    let d ← orMalformed (d.declareTable path)
    .ok (d, ← orMalformed (after? ']' rest))
  | cs => do
    let (path, rest) ← key cs
    let rest ← orMalformed (after? '=' rest)
    let (v, rest) ← value (rest.length + 1) (skipSpace rest)
    .ok (← orMalformed (d.assign path v), rest)

/-- The statements of a text, line by line. -/
def statements : Nat → Draft → List Char → Except Fault Draft
  | 0, _, _ => .error .malformed
  | fuel + 1, d, cs => do
    match skipSpace cs with
    | [] => .ok d
    | '\n' :: rest => statements fuel d rest
    | c :: rest =>
      let (d, rest) ← if c = '#' then .ok (d, c :: rest) else statement d (c :: rest)
      match ← skipComment (skipSpace rest) with
      | [] => .ok d
      | '\n' :: rest => statements fuel d rest
      | _ => .error .malformed

/-- Every line end as a line feed. -/
def unifyLineEnds : List Char → List Char
  | '\r' :: '\n' :: rest => '\n' :: unifyLineEnds rest
  | '\r' :: rest => '\n' :: unifyLineEnds rest
  | c :: rest => c :: unifyLineEnds rest
  | [] => []

/-- The table a text writes. -/
def read (s : String) : Except Fault Entries :=
  let cs := unifyLineEnds s.toList
  (statements (cs.length + 1) Draft.empty cs).map (·.data)

end CheckedActions.Toml
