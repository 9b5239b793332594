import CheckedActions.Calendar.DateTime
import CheckedActions.Json.Reader

/-!
Values of TOML that hold no others: texts in their four notations, numbers, dates and times. Each
reader takes the text from the value on and leaves what follows.
-/

namespace CheckedActions.Toml

inductive Fault where
  /-- The text is no TOML. -/
  | malformed
  /-- A whole number has more digits than are read. -/
  | tooManyDigits (count : Nat)

def isControl (c : Char) : Bool := c.toNat < 32 || c.toNat = 127

/-- Characters that a text in one line cannot hold. -/
def isBarred (c : Char) : Bool := isControl c && c ≠ '\t'

/-- Characters that a text in several lines cannot hold. -/
def isBarredInLines (c : Char) : Bool := isBarred c && c ≠ '\n'

def isSpace (c : Char) : Bool := c = ' ' || c = '\t'

def skipSpace (cs : List Char) : List Char := cs.dropWhile isSpace

/-- A literal text after its opening quote. -/
def literal (cs : List Char) : Except Fault (String × List Char) :=
  let body := cs.takeWhile (· ≠ '\'')
  match cs.drop body.length with
  | _ :: rest => if body.any isBarred then .error .malformed else .ok (String.ofList body, rest)
  | [] => .error .malformed

/-- The text before the first three quotes, and what comes after them. -/
def upToTriple (quote : Char) : List Char → Option (List Char × List Char)
  | [] => none
  | c :: cs =>
    if c = quote && [quote, quote].isPrefixOf cs then some ([], cs.drop 2)
    else (upToTriple quote cs).map fun (body, rest) => (c :: body, rest)

/-- Up to two quotes right after the closing ones belong to the text. -/
def moreQuotes (quote : Char) (body rest : List Char) : String × List Char :=
  let extra := ((rest.take 2).takeWhile (· = quote)).length
  (String.ofList (body ++ List.replicate extra quote), rest.drop extra)

/-- The line feed right after opening quotes is no part of the text. -/
def dropFirstLineFeed : List Char → List Char
  | '\n' :: rest => rest
  | cs => cs

/-- A literal text in several lines after its opening quotes. -/
def literalLines (cs : List Char) : Except Fault (String × List Char) :=
  match upToTriple '\'' (dropFirstLineFeed cs) with
  | none => .error .malformed
  | some (body, rest) =>
    if body.any isBarredInLines then .error .malformed else .ok (moreQuotes '\'' body rest)

/-- The character that so many hexadecimal digits write. -/
def hexChar (size : Nat) (cs : List Char) : Except Fault (Char × List Char) :=
  let digits := cs.take size
  match digits.mapM Json.hexValue? with
  | none => .error .malformed
  | some ns =>
    let n := ns.foldl (fun n d => n * 16 + d) 0
    if digits.length = size ∧ n.isValidChar then .ok (Char.ofNat n, cs.drop size)
    else .error .malformed

def simpleEscape? : Char → Option Char
  | 'b' => some '\x08'
  | 't' => some '\t'
  | 'n' => some '\n'
  | 'f' => some '\x0c'
  | 'r' => some '\r'
  | '"' => some '"'
  | '\\' => some '\\'
  | _ => none

/-- What a backslash stands for, given the text after it. In several lines it can join two lines,
and then stands for nothing. -/
def escape (lines : Bool) (cs : List Char) : Except Fault (List Char × List Char) :=
  match cs with
  | 'u' :: rest => (hexChar 4 rest).map fun (c, rest) => ([c], rest)
  | 'U' :: rest => (hexChar 8 rest).map fun (c, rest) => ([c], rest)
  | c :: rest =>
    if lines && (isSpace c || c = '\n') then
      match skipSpace (c :: rest) with
      | [] => .ok ([], [])
      | '\n' :: rest => .ok ([], rest.dropWhile fun c => isSpace c || c = '\n')
      | _ => .error .malformed
    else match simpleEscape? c with
      | some c => .ok ([c], rest)
      | none => .error .malformed
  | [] => .error .malformed

/-- A text with escapes up to its closing quotes. -/
def basicBody (lines : Bool) : Nat → List Char → Except Fault (List Char × List Char)
  | 0, _ => .error .malformed
  | _, [] => .error .malformed
  | fuel + 1, '"' :: rest =>
    if !lines then .ok ([], rest)
    else if ['"', '"'].isPrefixOf rest then .ok ([], rest.drop 2)
    else (basicBody lines fuel rest).map fun (cs, rest) => ('"' :: cs, rest)
  | fuel + 1, '\\' :: rest => do
    let (c, rest) ← escape lines rest
    let (cs, rest) ← basicBody lines fuel rest
    .ok (c ++ cs, rest)
  | fuel + 1, c :: rest =>
    if (if lines then isBarredInLines c else isBarred c) then .error .malformed
    else (basicBody lines fuel rest).map fun (cs, rest) => (c :: cs, rest)

/-- A text with escapes after its opening quote. -/
def basic (cs : List Char) : Except Fault (String × List Char) :=
  (basicBody false (cs.length + 1) cs).map fun (body, rest) => (String.ofList body, rest)

/-- A text with escapes in several lines after its opening quotes. -/
def basicLines (cs : List Char) : Except Fault (String × List Char) :=
  let cs := dropFirstLineFeed cs
  (basicBody true (cs.length + 1) cs).map fun (body, rest) => moreQuotes '"' body rest

/-- The longest run of digits with single underscores between them; the digits and what follows. -/
def digitRun (isDigit : Char → Bool) : List Char → List Char × List Char
  | '_' :: c :: rest =>
    if isDigit c then
      let (ds, rest) := digitRun isDigit rest
      (c :: ds, rest)
    else ([], '_' :: c :: rest)
  | c :: rest =>
    if isDigit c then
      let (ds, rest) := digitRun isDigit rest
      (c :: ds, rest)
    else ([], c :: rest)
  | [] => ([], [])

/-- A run of digits that begins with a digit. -/
def digits? (isDigit : Char → Bool) (cs : List Char) : Option (List Char × List Char) :=
  match cs with
  | c :: _ => if isDigit c then some (digitRun isDigit cs) else none
  | [] => none

/-- The base that a letter after a zero announces. -/
def baseOf? : Char → Option Nat
  | 'x' => some 16
  | 'o' => some 8
  | 'b' => some 2
  | _ => none

def isDigitOf (base : Nat) (c : Char) : Bool := (Json.hexValue? c).any (· < base)

/-- A whole number in base 16, 8 or 2. -/
def based? (cs : List Char) : Option (Int × List Char) :=
  match cs with
  | '0' :: letter :: rest => do
    let base ← baseOf? letter
    let (ds, rest) ← digits? (isDigitOf base) rest
    let n := ds.foldl (fun n c => n * base + (Json.hexValue? c).getD 0) 0
    some (n, rest)
  | _ => none

/-- The sign a text begins with, a minus being true. -/
def sign? (cs : List Char) : Option (Bool × List Char) :=
  match cs with
  | '-' :: rest => some (true, rest)
  | '+' :: rest => some (false, rest)
  | _ => none

/-- The exponent of a decimal number, if there is one. -/
def exponent? (cs : List Char) : Option (Int × List Char) :=
  match cs with
  | e :: rest =>
    if e = 'e' || e = 'E' then do
      let (negative, rest) := (sign? rest).getD (false, rest)
      let (ds, rest) ← digits? Char.isDigit rest
      let n : Int := Decimal.natOf ds
      some (if negative then -n else n, rest)
    else none
  | [] => none

/-- The places after the point of a decimal number, if there are any. -/
def places? (cs : List Char) : Option (List Char × List Char) :=
  match cs with
  | '.' :: rest => digits? Char.isDigit rest
  | _ => none

/-- The whole part of a decimal number, which has no leading zeros. -/
def wholePart? (cs : List Char) : Option (List Char × List Char) :=
  match cs with
  | '0' :: rest => some (['0'], rest)
  | _ => digits? Char.isDigit cs

/-- A number in base ten. -/
def decimal? (cs : List Char) : Option (Except Fault (Value × List Char)) := do
  let (negative, unsigned) := (sign? cs).getD (false, cs)
  let (whole, afterWhole) ← wholePart? unsigned
  let places := places? afterWhole
  let afterPlaces := (places.map (·.2)).getD afterWhole
  let exponent := exponent? afterPlaces
  let rest := (exponent.map (·.2)).getD afterPlaces
  if places.isNone && exponent.isNone then
    if digitLimit < whole.length then some (.error (.tooManyDigits whole.length))
    else
      let n : Int := Decimal.natOf whole
      some (.ok (.int (if negative then -n else n), rest))
  else
    let fraction := (places.map (·.1)).getD []
    let power := (exponent.map (·.1)).getD 0 - fraction.length
    some (.ok
      (.float (Binary64.ofDecimal negative (Decimal.natOf (whole ++ fraction)) power), rest))

/-- Infinity or no number at all. -/
def special? (cs : List Char) : Option (Value × List Char) :=
  let (negative, unsigned) := (sign? cs).getD (false, cs)
  if "inf".toList.isPrefixOf unsigned then some (.float (.infinity negative), unsigned.drop 3)
  else if "nan".toList.isPrefixOf unsigned then some (.float .nan, unsigned.drop 3)
  else none

/-- A number of exactly so many digits within bounds. -/
def fixed? (size least most : Nat) (cs : List Char) : Option (Nat × List Char) :=
  let ds := cs.take size
  let n := Decimal.natOf ds
  if ds.length = size && ds.all Char.isDigit && least ≤ n && n ≤ most then some (n, cs.drop size)
  else none

/-- The text after an expected character. -/
def after? (c : Char) (cs : List Char) : Option (List Char) :=
  match cs with
  | d :: rest => if c = d then some rest else none
  | [] => none

/-- The microseconds of a fraction of a second, if one follows. -/
def fraction (cs : List Char) : Nat × List Char :=
  match cs with
  | '.' :: rest =>
    let ds := rest.takeWhile Char.isDigit
    if ds.isEmpty then (0, cs)
    else
      let kept := ds.take 6
      (Decimal.natOf kept * pow10 (6 - kept.length), rest.drop ds.length)
  | _ => (0, cs)

/-- Hours, minutes, seconds and microseconds. -/
def clock? (cs : List Char) : Option ((Nat × Nat × Nat × Nat) × List Char) := do
  let (h, cs) ← fixed? 2 0 23 cs
  let (mi, cs) ← fixed? 2 0 59 (← after? ':' cs)
  let (s, cs) ← fixed? 2 0 59 (← after? ':' cs)
  let (us, cs) := fraction cs
  some ((h, mi, s, us), cs)

/-- The offset after a time in seconds, if one follows. -/
def offset (cs : List Char) : Option Int × List Char :=
  match cs with
  | c :: rest =>
    if c = 'Z' || c = 'z' then (some 0, rest)
    else
      let read : Option (Int × List Char) := do
        let (negative, rest) ← sign? cs
        let (h, rest) ← fixed? 2 0 23 rest
        let (mi, rest) ← fixed? 2 0 59 (← after? ':' rest)
        let seconds : Int := (h * 3600 + mi * 60 : Nat)
        some (if negative then -seconds else seconds, rest)
      match read with
      | some (o, rest) => (some o, rest)
      | none => (none, cs)
  | [] => (none, cs)

/-- Year, month and day as they are written. -/
def calendarDate? (cs : List Char) : Option ((Nat × Nat × Nat) × List Char) := do
  let (y, cs) ← fixed? 4 0 9999 cs
  let (m, cs) ← fixed? 2 1 12 (← after? '-' cs)
  let (d, cs) ← fixed? 2 1 31 (← after? '-' cs)
  some ((y, m, d), cs)

/-- A date, or a date and time. -/
def dateTime? (cs : List Char) : Option (Except Fault (Value × List Char)) := do
  let ((y, m, d), cs) ← calendarDate? cs
  match Date.of? y m d with
  | none => some (.error .malformed)
  | some date =>
    let time : Option ((Nat × Nat × Nat × Nat) × List Char) := match cs with
      | c :: rest => if c = 'T' || c = 't' || c = ' ' then clock? rest else none
      | [] => none
    match time with
    | none => some (.ok (.date date, cs))
    | some ((h, mi, s, us), rest) =>
      let (zone, rest) := offset rest
      some (.ok (.datetime ⟨date, h, mi, s, us, zone⟩, rest))

/-- A time of day. No setting takes one, so it counts as an object without attributes. -/
def timeOfDay? (cs : List Char) : Option (Value × List Char) :=
  (clock? cs).map fun (_, rest) => (.obj [], rest)

end CheckedActions.Toml
