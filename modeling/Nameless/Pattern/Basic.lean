import Nameless.Pattern.CharSet
import Nameless.Pattern.Fault

/-!
# Patterns

A pattern describes texts. It is built from sets of characters by sequence, choice and repetition;
groups remember what they matched and can be referred to; looks and anchors match at a place
without taking any character.

This file provides:
- `Anchor`, `Pattern`: the patterns,
- `Pattern.Width`, `Pattern.width`: how few and how many characters a pattern takes,
- `Pattern.lookBehindFault?`: look-behinds whose matches have no single length.
-/

namespace Nameless

namespace Pattern

/-- Places in a text. -/
inductive Anchor where
  /-- The start of the text, and with `lines` of every line. -/
  | start (lines : Bool)
  /-- The end of the text or of its last line, and with `lines` of every line. -/
  | stop (lines : Bool)
  /-- The end of the text itself. -/
  | close
  /-- A place where a word starts or ends, or with `negated` any other. -/
  | boundary (script : Script) (negated : Bool)
  deriving DecidableEq, Repr

/-- In which order the numbers of repetitions are tried. -/
inductive Greed where
  /-- From the greatest number down. -/
  | greedy
  /-- From the least number up. -/
  | lazy
  /-- The greatest number only. -/
  | possessive
  deriving DecidableEq, Repr

end Pattern

/-- Descriptions of texts. -/
inductive Pattern where
  | empty
  | one (set : Pattern.CharSet)
  | seq (first second : Pattern)
  | choice (first second : Pattern)
  /-- A pattern whose match is remembered under a number. -/
  | group (number : Nat) (body : Pattern)
  /-- What a group matched. The bounds are the width of the group. -/
  | reference (number : Nat) (foldCase : Bool) (script : Pattern.Script) (least most : Nat)
  /-- One of two patterns, the first one if the group has matched. -/
  | ifGroup (number : Nat) (first second : Pattern)
  | repeated (greed : Pattern.Greed) (least : Nat) (most : Option Nat) (body : Pattern)
  /-- A pattern of which only the first match counts. -/
  | atomic (body : Pattern)
  | lookAhead (negated : Bool) (body : Pattern)
  | lookBehind (negated : Bool) (body : Pattern)
  | anchor (place : Pattern.Anchor)
  deriving DecidableEq, Repr

namespace Pattern

/-- How few and how many characters a pattern takes. -/
structure Width where
  least : Nat
  most : Nat
  deriving DecidableEq, Repr

/-- The width of a pattern that takes any number of characters, and the bound of all widths. -/
def endless : Nat := 0x10000000000000000

/-- The number of repetitions from which on there is no bound. -/
def maxRepeat : Nat := 0xffffffff

namespace Width

/-- A width within the bound. -/
def bounded (least most : Nat) : Width :=
  ⟨min least endless, min most endless⟩

/-- One pattern after the other. -/
def plus (v w : Width) : Width :=
  bounded (v.least + w.least) (v.most + w.most)

/-- One pattern or the other. -/
def either (v w : Width) : Width :=
  ⟨min v.least w.least, max v.most w.most⟩

/-- A pattern several times. -/
def times (w : Width) (least : Nat) : (most : Option Nat) → Width
  | some most => bounded (w.least * least) (w.most * most)
  | none => bounded (w.least * least) (if w.most = 0 then 0 else endless)

end Width

/-- The width of a pattern. -/
def width : Pattern → Width
  | empty => ⟨0, 0⟩
  | one _ => ⟨1, 1⟩
  | seq first second => first.width.plus second.width
  | choice first second => first.width.either second.width
  | group _ body => body.width
  | reference _ _ _ least most => ⟨least, most⟩
  | ifGroup _ first second => first.width.either second.width
  | repeated _ least most body => body.width.times least most
  | atomic body => body.width
  | lookAhead _ _ => ⟨0, 0⟩
  | lookBehind _ _ => ⟨0, 0⟩
  | anchor _ => ⟨0, 0⟩

/-- The first look-behind that has no single length, or too great a one. -/
def lookBehindFault? : Pattern → Option PatternFault
  | seq first second => first.lookBehindFault?.or second.lookBehindFault?
  | choice first second => first.lookBehindFault?.or second.lookBehindFault?
  | group _ body => body.lookBehindFault?
  | ifGroup _ first second => first.lookBehindFault?.or second.lookBehindFault?
  | repeated _ _ _ body => body.lookBehindFault?
  | atomic body => body.lookBehindFault?
  | lookAhead _ body => body.lookBehindFault?
  | lookBehind _ body =>
    if body.width.least > maxRepeat then some { cause := .farLookBehind }
    else if body.width.least ≠ body.width.most then some { cause := .variableLookBehind }
    else body.lookBehindFault?
  | _ => none

/-- Patterns one after the other. -/
def ofList : List Pattern → Pattern
  | [] => empty
  | [p] => p
  | p :: rest => seq p (ofList rest)

end Pattern
end Nameless
