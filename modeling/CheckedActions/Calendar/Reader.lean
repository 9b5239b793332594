import CheckedActions.Calendar.DateTime

/-!
Reading ISO 8601 dates and times: calendar and week dates, with or without separators, a time of
one to three parts with a fraction, and an offset. Reading goes over the bytes of the text, and
past its end there are zeros.
-/

namespace CheckedActions.IsoReader

/-- The bytes of a text. -/
abbrev Bytes := Array Nat

def bytesOf (s : String) : Bytes := (s.toUTF8.toList.map (·.toNat)).toArray

def byteAt (b : Bytes) (i : Nat) : Nat := b[i]?.getD 0

def isDigit (n : Nat) : Bool := 48 ≤ n && n ≤ 57

/-- The number written by `count` digits at a position. -/
def digits? (b : Bytes) : Nat → Nat → Option Nat
  | 0, _ => some 0
  | count + 1, i => do
    let high ← digits? b count i
    let d := byteAt b (i + count)
    if isDigit d then some (10 * high + (d - 48)) else none

def dash : Nat := 45
def weekMark : Nat := 87

/-- The first position from `i` on that holds no digit, or the end. -/
def digitsEnd (b : Bytes) (i : Nat) : Nat :=
  i + ((b.toList.drop i).takeWhile isDigit).length

/-- Where the date ends. Between a week and a weekday the reading is a guess: a digit after the
next character makes that character the separator. -/
def separator? (b : Bytes) : Option Nat :=
  let n := b.size
  if n = 7 then some 7
  else if byteAt b 4 = dash then
    if byteAt b 5 = weekMark then
      if n < 8 then none
      else if 8 < n ∧ byteAt b 8 = dash then
        if n = 9 then none
        else if 10 < n ∧ isDigit (byteAt b 10) then some 8
        else some 10
      else some 8
    else some 10
  else if byteAt b 4 = weekMark then
    let stop := digitsEnd b 7
    if stop < 9 then some stop else if stop % 2 = 0 then some 7 else some 8
  else some 8

/-- The date before the separator. -/
def date? (b : Bytes) (stop : Nat) : Option Date := do
  let year ← digits? b 4 0
  let dashed := byteAt b 4 = dash
  let i := if dashed then 5 else 4
  if byteAt b i = weekMark then
    let week ← digits? b 2 (i + 1)
    let i := i + 3
    if i < stop then
      if dashed ∧ byteAt b i ≠ dash then none
      else
        let day ← digits? b 1 (if dashed then i + 1 else i)
        Date.ofWeek? year week day
    else Date.ofWeek? year week 1
  else
    let month ← digits? b 2 i
    let i := i + 2
    if dashed ∧ byteAt b i ≠ dash then none
    else
      let i := if dashed then i + 1 else i
      let day ← digits? b 2 i
      if i + 2 = stop then Date.of? year month day else none

/-- Hours, minutes, seconds and microseconds as written, and whether text is left over. -/
structure Clock where
  hour : Nat
  minute : Nat
  second : Nat
  micro : Nat
  leftover : Bool

/-- The fraction of a second at a position: at most six digits before `stop` count, and digits
after them are passed over. -/
def fraction? (b : Bytes) (i stop : Nat) : Option (Nat × Bool) := do
  let count := min 6 (stop - i)
  let n ← digits? b count i
  let after := digitsEnd b (i + count)
  some (n * pow10 (6 - count), byteAt b after ≠ 0)

def Clock.ofParts (parts : List Nat) (micro : Nat) (leftover : Bool) : Clock :=
  ⟨parts[0]?.getD 0, parts[1]?.getD 0, parts[2]?.getD 0, micro, leftover⟩

/-- The parts of a clock time from a position on, given how many may still follow, whether colons
separate them, and those read so far. -/
def clockParts (b : Bytes) (stop : Nat) : Nat → Nat → Option Bool → List Nat → Option Clock
  | 0, i, _, parts => do
    let (micro, leftover) ← fraction? b i stop
    some (Clock.ofParts parts micro leftover)
  | more + 1, i, colons?, parts => do
    let part ← digits? b 2 i
    let parts := parts ++ [part]
    let c := byteAt b (i + 2)
    let colons := colons?.getD (c = 58)
    if stop ≤ i + 3 then some (Clock.ofParts parts 0 (c ≠ 0))
    else if colons ∧ c = 58 then clockParts b stop more (i + 3) (some colons) parts
    else if c = 46 ∨ c = 44 then
      let (micro, leftover) ← fraction? b (i + 3) stop
      some (Clock.ofParts parts micro leftover)
    else if colons then none
    else clockParts b stop more (i + 2) (some colons) parts

def clock? (b : Bytes) (i stop : Nat) : Option Clock := clockParts b stop 3 i none []

def isZoneMark (n : Nat) : Bool := n = 43 || n = dash || n = 90

/-- The position of the first sign or `Z`, looked for at one position at least, or the end. -/
def zoneStart (b : Bytes) (i : Nat) : Nat :=
  min (i + ((b.toList.drop i).takeWhile (!isZoneMark ·)).length) b.size

/-- The microseconds of an offset. One without hours, minutes and seconds is zero, whatever its
fraction. -/
def offsetMicros (negative : Bool) (c : Clock) : Int :=
  let seconds := (c.hour * 60 + c.minute) * 60 + c.second
  let n : Int := if seconds = 0 then 0 else (seconds * DateTime.microsPerSecond + c.micro : Nat)
  if negative then -n else n

/-- The time after the separator: the clock and, if one is written, the offset in microseconds. -/
def time? (b : Bytes) (i : Nat) : Option (Clock × Option Int) := do
  let zone := zoneStart b i
  let clock ← clock? b i zone
  if zone = b.size then
    if clock.leftover then none else some (clock, none)
  else if byteAt b zone = 90 then
    if byteAt b (zone + 1) = 0 then some (clock, some 0) else none
  else
    let offset ← clock? b (zone + 1) b.size
    if offset.leftover then none
    else
      let micros := offsetMicros (byteAt b zone = dash) offset
      if micros.natAbs < DateTime.microsPerDay then some (clock, some micros) else none

/-- The bytes of the character that starts with the given one. -/
def charSize (n : Nat) : Nat :=
  if n < 128 then 1
  else if n / 16 = 14 then 3
  else if n / 16 = 15 then 4
  else 2

/-- The date and time of a text, and the microseconds it is ahead of universal time if it says. -/
def read? (s : String) : Option (DateTime × Option Int) := do
  if s.length < 7 then none
  else
    let b := bytesOf s
    let stop ← separator? b
    let date ← date? b stop
    let (clock, offset) ←
      if stop < b.size then
        let i := stop + charSize (byteAt b stop)
        if i < b.size then time? b i else none
      else some (⟨0, 0, 0, 0, false⟩, none)
    let t : DateTime := ⟨date, clock.hour, clock.minute, clock.second, clock.micro, none⟩
    if t.TimeValid then some (t, offset) else none

end CheckedActions.IsoReader
