/-!
Texts as bytes: UTF-8, and UTF-16 and UTF-32 in both orders of bytes. Bytes that write no text in
a coding have a first fault; a lenient reading of UTF-8 puts the replacement character in place of
every fault.
-/

namespace CheckedActions

/-- Why bytes write no character. -/
inductive CodingReason where
  | invalidStart
  | invalidContinuation
  | unexpectedEnd
  | truncated
  | outOfRange
  deriving DecidableEq

def CodingReason.message : CodingReason → String
  | invalidStart => "invalid start byte"
  | invalidContinuation => "invalid continuation byte"
  | unexpectedEnd => "unexpected end of data"
  | truncated => "truncated data"
  | outOfRange => "code point not in range(0x110000)"

/-- What the bytes at the front of some bytes write, if anything, and how many of them there are. -/
structure CodingPiece where
  outcome : Except CodingReason Char
  size : Nat

namespace Utf8

/-- How many bytes follow a first byte, and between which bounds the first of them lies. -/
def following? (b : UInt8) : Option (Nat × UInt8 × UInt8) :=
  if b < 0x80 then some (0, 0x80, 0xbf)
  else if b < 0xc2 then none
  else if b < 0xe0 then some (1, 0x80, 0xbf)
  else if b = 0xe0 then some (2, 0xa0, 0xbf)
  else if b = 0xed then some (2, 0x80, 0x9f)
  else if b < 0xf0 then some (2, 0x80, 0xbf)
  else if b = 0xf0 then some (3, 0x90, 0xbf)
  else if b < 0xf4 then some (3, 0x80, 0xbf)
  else if b = 0xf4 then some (3, 0x80, 0x8f)
  else none

/-- The part of a first byte that belongs to the character, if so many bytes follow it. -/
def leading (n : Nat) (b : UInt8) : Nat :=
  match n with
  | 0 => b.toNat
  | 1 => b.toNat % 32
  | 2 => b.toNat % 16
  | _ => b.toNat % 8

/-- The character completed by the bytes that follow, after `size` bytes that wrote `code`. -/
def complete (code size : Nat) (low high : UInt8) : Nat → List UInt8 → CodingPiece
  | 0, _ => ⟨.ok (Char.ofNat code), size⟩
  | _ + 1, [] => ⟨.error .unexpectedEnd, size⟩
  | n + 1, b :: bs =>
    if low ≤ b ∧ b ≤ high then complete (64 * code + b.toNat % 64) (size + 1) 0x80 0xbf n bs
    else ⟨.error .invalidContinuation, size⟩

/-- The piece that begins with a byte. -/
def piece (b : UInt8) (bs : List UInt8) : CodingPiece :=
  match following? b with
  | none => ⟨.error .invalidStart, 1⟩
  | some (n, low, high) => complete (leading n b) 1 low high n bs

/-- All pieces in order; `skipped` bytes at the front belong to the piece before. -/
def pieces : Nat → List UInt8 → List CodingPiece
  | _, [] => []
  | skipped + 1, _ :: bs => pieces skipped bs
  | 0, b :: bs => piece b bs :: pieces ((piece b bs).size - 1) bs

/-- The text that bytes write, the replacement character standing for every fault. -/
def lenient (bs : List UInt8) : String :=
  String.ofList ((pieces 0 bs).map fun p => match p.outcome with
    | .ok c => c
    | .error _ => '\ufffd')

end Utf8

/-- A number of bytes, the most significant one first if `big`. -/
def ofBytes (big : Bool) (bs : List UInt8) : Nat :=
  (if big then bs else bs.reverse).foldl (fun n b => 256 * n + b.toNat) 0

namespace Utf16

/-- All pieces in order. A half of a pair that stands alone counts as the replacement character. -/
def pieces (big : Bool) : List UInt8 → List CodingPiece
  | a :: b :: c :: d :: bs =>
    let first := ofBytes big [a, b]
    let second := ofBytes big [c, d]
    if 0xd800 ≤ first ∧ first < 0xdc00 ∧ 0xdc00 ≤ second ∧ second < 0xe000 then
      ⟨.ok (Char.ofNat (0x10000 + 1024 * (first - 0xd800) + (second - 0xdc00))), 4⟩ ::
        pieces big bs
    else single first :: pieces big (c :: d :: bs)
  | [a, b, _] => [single (ofBytes big [a, b]), ⟨.error .truncated, 1⟩]
  | [a, b] => [single (ofBytes big [a, b])]
  | [_] => [⟨.error .truncated, 1⟩]
  | [] => []
where
  single (code : Nat) : CodingPiece :=
    ⟨.ok (if 0xd800 ≤ code ∧ code < 0xe000 then '\ufffd' else Char.ofNat code), 2⟩

end Utf16

namespace Utf32

/-- All pieces in order. -/
def pieces (big : Bool) : List UInt8 → List CodingPiece
  | a :: b :: c :: d :: bs =>
    let code := ofBytes big [a, b, c, d]
    let outcome : Except CodingReason Char :=
      if 0x110000 ≤ code then .error .outOfRange
      else .ok (if 0xd800 ≤ code ∧ code < 0xe000 then '\ufffd' else Char.ofNat code)
    ⟨outcome, 4⟩ :: pieces big bs
  | [] => []
  | bs => [⟨.error .truncated, bs.length⟩]

end Utf32

/-- A way to write texts as bytes. -/
inductive Coding where
  | utf8
  | utf16 (big : Bool)
  | utf32 (big : Bool)
  deriving DecidableEq

/-- The first fault in some bytes: its place, the bytes it covers, and what it is. -/
structure CodingFault where
  coding : Coding
  start : Nat
  bytes : List UInt8
  reason : CodingReason

namespace Coding

def name : Coding → String
  | utf8 => "utf-8"
  | utf16 big => if big then "utf-16-be" else "utf-16-le"
  | utf32 big => if big then "utf-32-be" else "utf-32-le"

def pieces : Coding → List UInt8 → List CodingPiece
  | utf8, bs => Utf8.pieces 0 bs
  | utf16 big, bs => Utf16.pieces big bs
  | utf32 big, bs => Utf32.pieces big bs

/-- The characters of pieces that are all characters, `start` bytes having come before. -/
def join (coding : Coding) : Nat → List UInt8 → List CodingPiece →
    Except CodingFault (List Char)
  | _, _, [] => .ok []
  | start, bs, p :: ps =>
    match p.outcome with
    | .ok c => (join coding (start + p.size) (bs.drop p.size) ps).map (c :: ·)
    | .error reason => .error ⟨coding, start, bs.take p.size, reason⟩

/-- The text that bytes write, `start` bytes having come before. -/
def decode (coding : Coding) (start : Nat) (bs : List UInt8) : Except CodingFault (List Char) :=
  join coding start bs (coding.pieces bs)

end Coding
end CheckedActions
