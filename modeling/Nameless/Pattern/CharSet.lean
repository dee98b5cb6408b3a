import Nameless.Text.Blank
import Nameless.Text.Case
import Nameless.Text.Digit
import Nameless.Text.Word

/-!
# Sets of characters

A set is given by its members, each a code point, a range of code points or a class, and may be
complemented. Without regard to case, a character is in a set if a character of the same case-free
form is.

This file provides:
- `Script`: whether the classes and the case of characters are those of ASCII or of every script,
- `CharClass`, `CharClass.has`: digits, blanks and word characters,
- `Member`, `CharSet`, `CharSet.has`.
-/

namespace Nameless
namespace Pattern

/-- Which characters belong to the classes. -/
inductive Script where
  | ascii
  | all
  deriving DecidableEq, Repr

/-- The classes of characters. -/
inductive CharClass where
  | digit
  | blank
  | word
  deriving DecidableEq, Repr

namespace CharClass

/-- Whether a character is in a class. -/
def has (script : Script) (c : Char) : CharClass → Bool
  | digit =>
    match script with
    | .ascii => c.isDigit
    | .all => (Text.decimalValue? c).isSome
  | blank =>
    match script with
    | .ascii => c == ' ' || 0x9 ≤ c.toNat && c.toNat ≤ 0xd
    | .all => Text.isBlank c
  | word =>
    match script with
    | .ascii => Text.isAsciiWord c
    | .all => Text.isWord c

end CharClass

/-- A member of a set. Code points may be those of no character. -/
inductive Member where
  | code (n : Nat)
  | range (low high : Nat)
  | family (kind : CharClass) (negated : Bool)
  deriving DecidableEq, Repr

namespace Member

/-- Whether a character is covered by a member. -/
def has (script : Script) (c : Char) : Member → Bool
  | code n => c.toNat == n
  | range low high => low ≤ c.toNat && c.toNat ≤ high
  | family kind negated => kind.has script c != negated

/-- The case-free form of a code point. -/
def fold (script : Script) (n : Nat) : Nat :=
  match script with
  | .ascii => Text.lowerAscii n
  | .all => Text.lower n

/-- The code points that equal a character without regard to case. -/
def variants (script : Script) (c : Char) : List Nat :=
  match script with
  | .ascii =>
    let n := Text.lowerAscii c.toNat
    if 0x61 ≤ n ∧ n ≤ 0x7a then [n, n - 0x20] else [n]
  | .all =>
    let n := Text.lower c.toNat
    (n :: Text.companions n).flatMap Text.sources

/-- Whether a character is covered by a member without regard to case. A range that goes beyond the
first plane knows the case of every script. -/
def hasFolded (script : Script) (c : Char) : Member → Bool
  | code n => (variants script c).contains n
  | range low high =>
    let more := if high ≤ 0xffff then [] else Text.sources (fold script c.toNat)
    (variants script c ++ more).any fun n => low ≤ n && n ≤ high
  | family kind negated => kind.has script (Char.ofNat (fold script c.toNat)) != negated

end Member

/-- A set of characters. -/
structure CharSet where
  members : List Member
  negated : Bool := false
  foldCase : Bool := false
  script : Script := .all
  deriving DecidableEq, Repr

namespace CharSet

/-- Whether a character is in a set. -/
def has (s : CharSet) (c : Char) : Bool :=
  let found :=
    if s.foldCase then s.members.any (Member.hasFolded s.script c)
    else s.members.any (Member.has s.script c)
  found != s.negated

/-- All characters but the line feed. -/
def notLineFeed : CharSet where
  members := [.code 0xa]
  negated := true

/-- All characters. -/
def full : CharSet where
  members := []
  negated := true

@[simp] theorem has_full (c : Char) : full.has c = true := rfl

end CharSet
end Pattern
end Nameless
