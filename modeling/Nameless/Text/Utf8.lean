/-!
# Reading UTF-8

Program files are read as UTF-8. A file that is not well formed is refused, and the refusal names
the offending bytes: the longest start of a character that the file spells before it goes wrong.

This file provides:
- `Utf8.Pending`: a character of which some bytes have been read,
- `Utf8.Fault`: where a sequence of bytes goes wrong, and how,
- `Utf8.decode`: the characters of a sequence of bytes.
-/

namespace Nameless
namespace Utf8

/-- How a sequence of bytes goes wrong. -/
inductive Reason where
  /-- A byte that starts no character. -/
  | start
  /-- A byte that cannot follow the bytes before it. -/
  | continuation
  /-- The bytes end inside a character. -/
  | ending
  deriving DecidableEq, Repr

/-- The bytes that go wrong: the first of them, its position, and how many there are. -/
structure Fault where
  reason : Reason
  position : Nat
  byte : Nat
  count : Nat
  deriving DecidableEq, Repr

/-- A character of which some bytes have been read: where it starts, its first byte, how many bytes
have been read, how many are still owed, the value so far, and the range of the next byte. -/
structure Pending where
  position : Nat
  byte : Nat
  count : Nat
  owed : Nat
  value : Nat
  low : Nat
  high : Nat

/-- The character that a first byte above the ASCII range opens. -/
def opened (position byte : Nat) : Option Pending :=
  if 0xC2 ≤ byte ∧ byte ≤ 0xDF then
    some ⟨position, byte, 1, 1, byte - 0xC0, 0x80, 0xBF⟩
  else if 0xE0 ≤ byte ∧ byte ≤ 0xEF then
    let low := if byte = 0xE0 then 0xA0 else 0x80
    let high := if byte = 0xED then 0x9F else 0xBF
    some ⟨position, byte, 1, 2, byte - 0xE0, low, high⟩
  else if 0xF0 ≤ byte ∧ byte ≤ 0xF4 then
    let low := if byte = 0xF0 then 0x90 else 0x80
    let high := if byte = 0xF4 then 0x8F else 0xBF
    some ⟨position, byte, 1, 3, byte - 0xF0, low, high⟩
  else
    none

namespace Pending

/-- The complaint about a character that is not completed. -/
def fault (p : Pending) (reason : Reason) : Fault :=
  ⟨reason, p.position, p.byte, p.count⟩

/-- The value after one more byte. -/
def extend (p : Pending) (byte : Nat) : Pending :=
  { p with
    count := p.count + 1
    owed := p.owed - 1
    value := p.value * 64 + byte % 64
    low := 0x80
    high := 0xBF }

end Pending

/-- Reads the bytes from a position on, possibly in the middle of a character. -/
def decodeFrom (position : Nat) : Option Pending → List UInt8 → Except Fault (List Char)
  | none, [] => .ok []
  | some p, [] => .error (p.fault .ending)
  | none, b :: rest =>
    let byte := b.toNat
    if byte < 0x80 then
      (decodeFrom (position + 1) none rest).map (Char.ofNat byte :: ·)
    else
      match opened position byte with
      | none => .error ⟨.start, position, byte, 1⟩
      | some p => decodeFrom (position + 1) (some p) rest
  | some p, b :: rest =>
    let byte := b.toNat
    if p.low ≤ byte ∧ byte ≤ p.high then
      let q := p.extend byte
      if q.owed = 0 then
        (decodeFrom (position + 1) none rest).map (Char.ofNat q.value :: ·)
      else
        decodeFrom (position + 1) (some q) rest
    else
      .error (p.fault .continuation)

/-- The characters that a sequence of bytes spells. -/
def decode (bytes : List UInt8) : Except Fault (List Char) :=
  decodeFrom 0 none bytes

namespace Reason

/-- The wording of a reason. -/
def text : Reason → String
  | start => "invalid start byte"
  | continuation => "invalid continuation byte"
  | ending => "unexpected end of data"

end Reason

namespace Fault

/-- Two lower-case hexadecimal digits. -/
def hexByte (byte : Nat) : String :=
  String.ofList [Nat.digitChar (byte / 16 % 16), Nat.digitChar (byte % 16)]

/-- The wording of a fault: one byte is shown by its value, several by their positions. -/
def message (f : Fault) : String :=
  let subject :=
    if f.count ≤ 1 then
      "byte 0x" ++ hexByte f.byte ++ " in position " ++ toString f.position
    else
      "bytes in position " ++ toString f.position ++ "-" ++ toString (f.position + f.count - 1)
  "'utf-8' codec can't decode " ++ subject ++ ": " ++ f.reason.text

end Fault
end Utf8
end Nameless
