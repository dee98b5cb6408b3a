import Nameless.Pattern.Reader

/-!
# Escapes

A backslash takes the special meaning from a character, or gives one to a letter or a digit.

This file provides:
- `Parser.code?`: characters given by their code points,
- `Parser.setEscape`: escapes in a set of characters,
- `Parser.groupReference`: references to groups by number, and characters in octal digits.
-/

namespace Nameless
namespace Pattern

/-- The digits below eight. -/
def isOctal (c : Char) : Bool :=
  '0' ≤ c && c ≤ '7'

/-- The value of a hexadecimal digit. -/
def hexValue? (c : Char) : Option Nat :=
  if c.isDigit then some (c.toNat - '0'.toNat)
  else if 'a' ≤ c && c ≤ 'f' then some (c.toNat - 'a'.toNat + 10)
  else if 'A' ≤ c && c ≤ 'F' then some (c.toNat - 'A'.toNat + 10)
  else none

/-- The number that digits in a base denote. -/
def digitsValue (base : Nat) (digits : List Char) : Nat :=
  digits.foldl (fun n c => base * n + (hexValue? c).getD 0) 0

/-- The control characters that letters stand for. -/
def control? (c : Char) : Option Nat :=
  match c with
  | 'a' => some 0x7
  | 'b' => some 0x8
  | 'f' => some 0xc
  | 'n' => some 0xa
  | 'r' => some 0xd
  | 't' => some 0x9
  | 'v' => some 0xb
  | '\\' => some 0x5c
  | _ => none

/-- The classes that letters stand for. -/
def class? (c : Char) : Option Member :=
  match c with
  | 'd' => some (.family .digit false)
  | 'D' => some (.family .digit true)
  | 's' => some (.family .blank false)
  | 'S' => some (.family .blank true)
  | 'w' => some (.family .word false)
  | 'W' => some (.family .word true)
  | _ => none

namespace Parser

/-- Fails because of an escape that was just taken. -/
def badEscape {α : Type} (written : List Char) : Parser α :=
  failBack (.badEscape (String.ofList written)) written.length

/-- A code point in a fixed number of hexadecimal digits behind a letter. A number that needs more
than 31 bits is refused before it is compared with the last code point. -/
def hexCode (letter : Char) (size : Nat) : Parser Nat := do
  let digits ← takeUpTo (fun c => (hexValue? c).isSome) size
  let written := '\\' :: letter :: digits
  if digits.length ≠ size then
    failBack (.incompleteEscape (String.ofList written)) written.length
  else
    let code := digitsValue 16 digits
    if code ≤ 0x10ffff then return code
    else if code ≤ 0x7fffffff then badEscape written
    else throw { cause := .hugeCode }

/-- The code point that a letter introduces, if it introduces one. Names of characters are
unknown. -/
def code? (letter : Char) : Parser (Option Nat) := do
  match letter with
  | 'x' => return some (← hexCode letter 2)
  | 'u' => return some (← hexCode letter 4)
  | 'U' => return some (← hexCode letter 8)
  | 'N' =>
    if !(← accept '\x7b') then fail .missingBrace
    else
      let name ← takeName '\x7d' "character name"
      failBack (.unknownCharacter (String.ofList name)) (name.length + 4)
  | _ => return none

/-- A character behind a backslash that stands for itself; letters and digits do not. -/
def selfEscape (c : Char) : Parser Nat :=
  if c.isAlpha || c.isDigit then badEscape ['\\', c] else return c.toNat

/-- A code point in octal digits, of which there are some already. -/
def octalCode (digits : List Char) : Parser Nat :=
  let code := digitsValue 8 digits
  if code > 0o377 then
    failBack (.octalTooGreat (String.ofList ('\\' :: digits))) (digits.length + 1)
  else return code

/-- An escape in a set of characters. -/
def setEscape (c : Char) : Parser Member := do
  match control? c, class? c with
  | some n, _ => return .code n
  | none, some member => return member
  | none, none =>
    match ← code? c with
    | some n => return .code n
    | none =>
      if isOctal c then
        let more ← takeUpTo isOctal 2
        return .code (← octalCode (c :: more))
      else return .code (← selfEscape c)

/-- What a number behind a backslash means. -/
inductive Numbered where
  | code (n : Nat)
  | group (number : Nat) (width : Width)
  deriving DecidableEq, Repr

/-- A reference to a closed group. `back` is where the reference starts, seen from its end. -/
def closedGroup (number back : Nat) : Parser Width := do
  match (← get).closed.lookup number with
  | none => failBack .openGroup back
  | some width =>
    checkBehind number
    return width

/-- A reference to a group by the digits behind a backslash, or a character in three octal
digits. -/
def groupReference (first : Char) : Parser Numbered := do
  let second ← takeUpTo Char.isDigit 1
  let digits := first :: second
  let third ←
    if !second.isEmpty && digits.all isOctal then takeUpTo isOctal 1 else pure []
  if third.isEmpty then
    let number := digitsValue 10 digits
    if number < (← get).nextGroup then
      return .group number (← closedGroup number (digits.length + 1))
    else failBack (.noGroup number) digits.length
  else return .code (← octalCode (digits ++ third))

end Parser
end Pattern
end Nameless
