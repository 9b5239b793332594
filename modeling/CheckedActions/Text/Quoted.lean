import CheckedActions.Text.Printable

/-!
Quoted text, the form in which diagnostics show a string or a run of bytes. Single quotes stand
around it unless it holds one and no double quote; the quote in use and the backslash are
escaped, and a character that is not printable is shown by its number.
-/

namespace CheckedActions

def hexDigit (n : Nat) : Char :=
  if n < 10 then Char.ofNat (48 + n) else Char.ofNat (87 + n)

/-- The last `width` hexadecimal digits of a number, in lower case. -/
def hexDigits : Nat → Nat → List Char
  | 0, _ => []
  | width + 1, n => hexDigits width (n / 16) ++ [hexDigit (n % 16)]

namespace Quoted

/-- The quote that needs no escape where one of the two does. -/
def quoteFor (single double : Bool) : Char := if single && !double then '"' else '\''

def escapeChar (quote c : Char) : List Char :=
  if c = quote ∨ c = '\\' then ['\\', c]
  else if c = '\n' then ['\\', 'n']
  else if c = '\r' then ['\\', 'r']
  else if c = '\t' then ['\\', 't']
  else if isPrintable c then [c]
  else
    let n := c.toNat
    if n < 0x100 then '\\' :: 'x' :: hexDigits 2 n
    else if n < 0x10000 then '\\' :: 'u' :: hexDigits 4 n
    else '\\' :: 'U' :: hexDigits 8 n

/-- Bytes outside printable ASCII are shown by their number. -/
def escapeByte (quote : Char) (b : UInt8) : List Char :=
  if 127 ≤ b.toNat then '\\' :: 'x' :: hexDigits 2 b.toNat
  else escapeChar quote (Char.ofNat b.toNat)

end Quoted

/-- A text in quotes. -/
def quoteText (s : String) : String :=
  let q := Quoted.quoteFor (s.contains '\'') (s.contains '"')
  String.ofList (q :: s.toList.flatMap (Quoted.escapeChar q) ++ [q])

/-- A run of bytes in quotes, marked as such. -/
def quoteBytes (bs : List UInt8) : String :=
  let q := Quoted.quoteFor (bs.contains 39) (bs.contains 34)
  String.ofList ('b' :: q :: bs.flatMap (Quoted.escapeByte q) ++ [q])

end CheckedActions
