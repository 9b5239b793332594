import CheckedActions.Json.Reader
import CheckedActions.Json.Sorted
import CheckedActions.Text.Coding

/-!
Parameters that are JSON objects. A dictionary stands for itself; a text has to be JSON with an
object as its value, and so have bytes, whose coding is told from their first ones.
-/

namespace CheckedActions.Cli

/-- The object that was read from a text. -/
def objectOf (text : List Char) : Except Json.Fault Value → Except Failure Value
  | .ok (.dict es) => .ok (.dict es)
  | .ok _ => .error (.badParameter "expected a JSON object")
  | .error (.malformed reason rest) =>
    .error (.badParameter ("invalid JSON: " ++ Json.faultText text reason rest))
  | .error (.tooManyDigits n) => .error (.tooManyDigits n)

/-- The object that a JSON text writes. -/
def objectOfText (text : String) : Except Failure Value :=
  objectOf text.toList (Json.read text.toList)

/-- The coding of a JSON text and the size of the byte order mark in front of it. Without a mark
the zeros among the first bytes tell, as a JSON text begins with ASCII. -/
def codingOf : List UInt8 → Coding × Nat
  | 0x00 :: 0x00 :: 0xfe :: 0xff :: _ => (.utf32 true, 4)
  | 0xff :: 0xfe :: 0x00 :: 0x00 :: _ => (.utf32 false, 4)
  | 0xfe :: 0xff :: _ => (.utf16 true, 2)
  | 0xff :: 0xfe :: _ => (.utf16 false, 2)
  | 0xef :: 0xbb :: 0xbf :: _ => (.utf8, 3)
  | a :: b :: c :: d :: _ =>
    if a = 0 then (if b = 0 then .utf32 true else .utf16 true, 0)
    else if b = 0 then (if c = 0 ∧ d = 0 then .utf32 false else .utf16 false, 0)
    else (.utf8, 0)
  | [a, b] =>
    if a = 0 then (.utf16 true, 0) else if b = 0 then (.utf16 false, 0) else (.utf8, 0)
  | _ => (.utf8, 0)

/-- The object that bytes write. Places in UTF-8 are counted from behind the mark. -/
def objectOfBytes (bs : List UInt8) : Except Failure Value := do
  let (coding, mark) := codingOf bs
  let text ← (coding.decode (if coding = .utf8 then 0 else mark) (bs.drop mark)).mapError
    Failure.undecodable
  objectOf text (Json.readUnmarked text)

/-- The object that a parameter's value stands for. -/
def objectOfValue (v : Value) : Except Failure Value :=
  match v with
  | .dict es => .ok (.dict es)
  | .str s => objectOfText s
  | .bytes bs => objectOfBytes bs
  | v => .error (.notJsonText v.shortKindName)

end CheckedActions.Cli
