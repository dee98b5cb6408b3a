import Nameless.Text.Printable

/-!
# Quoted text

A text inside a message is put between single quotes, or between double quotes when it holds a
single quote and no double quote. A backslash, the quote in use and every character that is not
printable are escaped.

This file provides:
- `quoteMark`: the quote that a text takes,
- `escapeChar`, `quoted`: one character, and the whole text,
- `quotedAscii`: the whole text, in ASCII characters only,
- `visible`: a single character that a message is about.
-/

namespace Nameless
namespace Text

/-- The single quote. -/
def singleQuote : Char := '\x27'

/-- The double quote. -/
def doubleQuote : Char := '\x22'

/-- The quote that a text is put between. -/
def quoteMark (s : List Char) : Char :=
  if s.contains singleQuote && !s.contains doubleQuote then doubleQuote else singleQuote

/-- The lower-case hexadecimal digits of a number, to a fixed width. -/
def hexDigits : (width : Nat) → Nat → List Char
  | 0, _ => []
  | width + 1, n => hexDigits width (n / 16) ++ [Nat.digitChar (n % 16)]

/-- A character given by its code point. -/
def codeEscape (c : Char) : List Char :=
  let n := c.toNat
  if n < 0x100 then '\\' :: 'x' :: hexDigits 2 n
  else if n < 0x10000 then '\\' :: 'u' :: hexDigits 4 n
  else '\\' :: 'U' :: hexDigits 8 n

/-- A character between two quotes. -/
def escapeChar (mark c : Char) : List Char :=
  if c = mark ∨ c = '\\' then ['\\', c]
  else if c = '\t' then ['\\', 't']
  else if c = '\n' then ['\\', 'n']
  else if c = '\r' then ['\\', 'r']
  else if isPrintable c then [c]
  else codeEscape c

/-- A text between quotes. -/
def quoted (s : List Char) : List Char :=
  let mark := quoteMark s
  mark :: s.flatMap (escapeChar mark) ++ [mark]

/-- A text between quotes, where every character outside ASCII is given by its code point. -/
def quotedAscii (s : List Char) : List Char :=
  (quoted s).flatMap fun c => if c.toNat < 0x80 then [c] else codeEscape c

/-- A character that a message is about: itself if it leaves a mark and lies below a bound, and its
code point otherwise. -/
def visible (bound : Nat) (c : Char) : String :=
  if 0x20 < c.toNat ∧ c.toNat < bound then String.singleton c
  else "\\x" ++ String.ofList (Nat.toDigits 16 c.toNat)

end Text
end Nameless
