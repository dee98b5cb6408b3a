/-!
# Decimal digits

A reference made of digits only can denote a number. Digits are those of every script, not only
the ASCII ones: a script's ten digits stand next to each other, so a table of the zeros gives
every digit its value. Some further characters, such as superscripts and circled digits, count as
digits but have no place value; a reference that holds one denotes no number.

This file provides:
- `decimalZeros`, `Char.decimalValue?`: digits with a place value,
- `digitForms`, `isDigit`: digits of either kind,
- `readDecimal`: the number that a sequence of digits denotes,
- `leadingDecimal`: the number at the start of a text, up to a limit.
-/

namespace Nameless
namespace Text

/-- The zeros of the scripts that have decimal digits, by code point. -/
def decimalZeros : List Nat :=
  [0x30, 0x660, 0x6f0, 0x7c0, 0x966, 0x9e6, 0xa66, 0xae6, 0xb66, 0xbe6, 0xc66, 0xce6, 0xd66,
   0xde6, 0xe50, 0xed0, 0xf20, 0x1040, 0x1090, 0x17e0, 0x1810, 0x1946, 0x19d0, 0x1a80, 0x1a90,
   0x1b50, 0x1bb0, 0x1c40, 0x1c50, 0xa620, 0xa8d0, 0xa900, 0xa9d0, 0xa9f0, 0xaa50, 0xabf0, 0xff10,
   0x104a0, 0x10d30, 0x11066, 0x110f0, 0x11136, 0x111d0, 0x112f0, 0x11450, 0x114d0, 0x11650,
   0x116c0, 0x11730, 0x118e0, 0x11950, 0x11c50, 0x11d50, 0x11da0, 0x16a60, 0x16ac0, 0x16b50,
   0x1d7ce, 0x1d7d8, 0x1d7e2, 0x1d7ec, 0x1d7f6, 0x1e140, 0x1e2f0, 0x1e950, 0x1fbf0]

/-- The ranges of characters that are digits without a place value, by code point. -/
def digitForms : List (Nat × Nat) :=
  [(0xb2, 0xb3), (0xb9, 0xb9), (0x1369, 0x1371), (0x19da, 0x19da), (0x2070, 0x2070),
   (0x2074, 0x2079), (0x2080, 0x2089), (0x2460, 0x2468), (0x2474, 0x247c), (0x2488, 0x2490),
   (0x24ea, 0x24ea), (0x24f5, 0x24fd), (0x24ff, 0x24ff), (0x2776, 0x277e), (0x2780, 0x2788),
   (0x278a, 0x2792), (0x10a40, 0x10a43), (0x10e60, 0x10e68), (0x11052, 0x1105a),
   (0x1f100, 0x1f10a)]

/-- The place value of a decimal digit. -/
def decimalValue? (c : Char) : Option Nat :=
  decimalZeros.findSome? fun base =>
    if base ≤ c.toNat ∧ c.toNat < base + 10 then some (c.toNat - base) else none

/-- Whether a character is a digit, with a place value or without. -/
def isDigit (c : Char) : Bool :=
  (decimalValue? c).isSome ||
    digitForms.any fun (low, high) => low ≤ c.toNat && c.toNat ≤ high

/-- Whether a text is made of one digit or more, and of nothing else. -/
def isDigits (s : List Char) : Bool :=
  !s.isEmpty && s.all isDigit

/-- The number that decimal digits denote after the digits of `value`; nothing if one of the
characters has no place value. -/
def readDecimalFrom (value : Nat) : List Char → Option Nat
  | [] => some value
  | c :: rest =>
    match decimalValue? c with
    | none => none
    | some digit => readDecimalFrom (10 * value + digit) rest

/-- The number that a sequence of decimal digits denotes. -/
def readDecimal (s : List Char) : Option Nat :=
  readDecimalFrom 0 s

/-- Splits off the number that the leading decimal digits of a text denote after those of `value?`;
nothing if there are no such digits. Fails at the first digit that takes the number above the
limit. -/
def leadingDecimalFrom (limit : Nat) (value? : Option Nat) :
    List Char → Option (Option Nat × List Char)
  | [] => some (value?, [])
  | c :: rest =>
    match decimalValue? c with
    | none => some (value?, c :: rest)
    | some digit =>
      let value := 10 * value?.getD 0 + digit
      if value ≤ limit then leadingDecimalFrom limit (some value) rest else none

/-- Splits off the number at the start of a text. -/
def leadingDecimal (limit : Nat) (s : List Char) : Option (Option Nat × List Char) :=
  leadingDecimalFrom limit none s

/-- The digits of core have the place value that core gives them. -/
theorem decimalValue?_of_ascii {c : Char} (low : '0'.toNat ≤ c.toNat)
    (high : c.toNat ≤ '9'.toNat) :
    decimalValue? c = some (c.toNat - '0'.toNat) := by
  have h : 0x30 ≤ c.toNat ∧ c.toNat < 0x30 + 10 := by
    constructor
    · exact low
    · exact Nat.lt_succ_of_le high
  simp only [decimalValue?, decimalZeros, List.findSome?_cons, if_pos h]
  rfl

end Text
end Nameless
