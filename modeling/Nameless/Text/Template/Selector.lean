import Nameless.Text.Template.Fault

/-!
# Selectors

A selector says which snippet a slot takes: the next one if nothing is written, the one with a
number, or one with a name. It may go on with accesses, `.part` or `[character]`. A snippet is a
text, and of a text there is the character at a number, but none with a name.

Texts do have some parts with names, namely what can be done with them, and these are left out here:
an access to a part fails for every name. So the model covers the messages in which no slot accesses
such a part. What such a slot is filled with is words about the part, so it is not left as it is
written either.

Within a template the slots are numbered either all by hand or all by position.

This file provides:
- `Key`, `Access`: the two halves of a selector, with `Key.read` and `Access.split`,
- `Numbering`, `Numbering.number`: which snippet a key means,
- `Template.select`: the text that a selector means.
-/

namespace Nameless
namespace Template

/-- The number that a whole text denotes, if it is made of decimal digits. -/
def number? (s : List Char) : Except TemplateFault (Option Nat) :=
  match Text.leadingDecimal Text.maxIndex s with
  | none => .error .tooManyDigits
  | some (number, []) => .ok number
  | some (_, _ :: _) => .ok none

/-! ## Keys -/

/-- Which snippet a selector starts from. -/
inductive Key where
  | next
  | number (n : Nat)
  | name (s : String)
  deriving DecidableEq, Repr

/-- Whether a character starts an access. -/
def startsAccess (c : Char) : Bool :=
  c == '.' || c == '['

namespace Key

/-- Reads a key. -/
def read (s : List Char) : Except TemplateFault Key := do
  match s, ← number? s with
  | [], _ => return next
  | _ :: _, some n => return number n
  | _ :: _, none => return name (String.ofList s)

end Key

/-- How the slots met so far were numbered. -/
inductive Numbering where
  | undecided
  | byHand
  /-- By position; this many slots were met. -/
  | byPosition (slots : Nat)
  deriving DecidableEq, Repr

namespace Numbering

/-- The number of the snippet that a key means, and the numbering after its slot. -/
def number : Numbering → Key → Except TemplateFault (Nat × Numbering)
  | undecided, .next => .ok (0, byPosition 1)
  | byPosition slots, .next => .ok (slots, byPosition (slots + 1))
  | byHand, .next => .error .numberOmitted
  | undecided, .number n => .ok (n, byHand)
  | byHand, .number n => .ok (n, byHand)
  | byPosition _, .number _ => .error .numberGiven
  | _, .name s => .error (.noName s)

end Numbering

/-! ## Accesses -/

/-- A step from a text to a part of it. -/
inductive Access where
  | part (name : String)
  | character (n : Nat)
  | named (name : String)
  | fault (fault : TemplateFault)
  deriving DecidableEq, Repr

namespace Access

/-- Where one is while accesses are read. -/
inductive Reading where
  | between
  | part (name : List Char)
  | bracket (name : List Char)
  deriving DecidableEq, Repr

/-- The access to a part. -/
def ofPart (name : List Char) : Access :=
  if name = [] then fault .emptyAccess else part (String.ofList name)

/-- The access to a character. -/
def ofBracket (name : List Char) : Access :=
  match number? name with
  | .error cause => fault cause
  | .ok (some n) => character n
  | .ok none => if name = [] then fault .emptyAccess else named (String.ofList name)

/-- The accesses in what is left of a selector. -/
def splitFrom : Reading → List Char → List Access
  | .between, [] => []
  | .between, c :: rest =>
    if c = '.' then splitFrom (.part []) rest
    else if c = '[' then splitFrom (.bracket []) rest
    else [fault .textAfterBracket]
  | .part name, [] => [ofPart name]
  | .part name, c :: rest =>
    if c = '.' then ofPart name :: splitFrom (.part []) rest
    else if c = '[' then ofPart name :: splitFrom (.bracket []) rest
    else splitFrom (.part (name ++ [c])) rest
  | .bracket _, [] => [fault .unclosedBracket]
  | .bracket name, c :: rest =>
    if c = ']' then ofBracket name :: splitFrom .between rest
    else splitFrom (.bracket (name ++ [c])) rest

/-- The accesses of a selector, behind its key. -/
def split (s : List Char) : List Access :=
  splitFrom .between s

/-- The part of a text that an access means. No name is taken for one of a part that texts have. -/
def follow (text : List Char) : Access → Except TemplateFault (List Char)
  | part name => .error (.noPart name)
  | character n =>
    match text[n]? with
    | some c => .ok [c]
    | none => .error .noCharacter
  | named _ => .error .characterByName
  | fault cause => .error cause

end Access

/-! ## Selectors -/

/-- The text that a selector means among the snippets, and the numbering after its slot. -/
def select (snippets : List String) (numbering : Numbering) (selector : List Char) :
    Except TemplateFault (List Char × Numbering) := do
  let key ← Key.read (selector.takeWhile (!startsAccess ·))
  let (n, numbering) ← numbering.number key
  match snippets[n]? with
  | none => .error (.noSnippet n)
  | some snippet =>
    let accesses := Access.split (selector.dropWhile (!startsAccess ·))
    let text ← accesses.foldlM Access.follow snippet.toList
    return (text, numbering)

end Template
end Nameless
