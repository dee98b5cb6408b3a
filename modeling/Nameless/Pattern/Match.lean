import Nameless.Pattern.Basic

/-!
# Matching

A pattern is matched at a place of a text by trying its alternatives in order: the first choice
before the second, more repetitions before fewer if the repetition is greedy. What comes after the
pattern is given as a continuation, so that an alternative counts only if all of the rest matches
as well.

A repetition ends when its body takes no character, so a text of `n` characters bounds the number
of repetitions beyond the least one.

This file provides:
- `Trial`: a place in a text, with what the groups have matched,
- `Pattern.run`: matching a pattern at a place,
- `Pattern.search?`: the first match in a text.
-/

namespace Nameless
namespace Pattern

/-- A place in a text, with what the groups have matched. -/
structure Trial where
  offset : Nat
  /-- The bounds of the last match of each group. -/
  groups : List (Nat × Nat × Nat) := []
  deriving DecidableEq, Repr

namespace Trial

/-- Remembers the match of a group. -/
def remember (t : Trial) (number start : Nat) : Trial :=
  { t with groups := (number, start, t.offset) :: t.groups }

end Trial

/-- A way to match something at a place and go on from there. -/
abbrev Matcher := Trial → (Trial → Option Trial) → Option Trial

/-! ## Places -/

/-- The character in front of a place. -/
def before (text : Array Char) (offset : Nat) : Option Char :=
  if offset = 0 then none else text[offset - 1]?

namespace Anchor

/-- Whether an anchor holds at a place. No word starts or ends in an empty text, and there is no
other place in it either. -/
def holds (text : Array Char) (offset : Nat) : Anchor → Bool
  | start lines => offset == 0 || lines && before text offset == some '\n'
  | stop lines =>
    offset == text.size ||
      (lines || offset + 1 == text.size) && text[offset]? == some '\n'
  | close => offset == text.size
  | boundary script negated =>
    let isWord := fun c? => Option.any (fun c => CharClass.word.has script c) c?
    text.size != 0 && ((isWord (before text offset) != isWord text[offset]?) != negated)

end Anchor

/-! ## Repetition -/

/-- Whether a further repetition is allowed. -/
def allows (count : Nat) : Option Nat → Bool
  | some most => count < most
  | none => true

/-- As many repetitions as possible first. `last` is the place where the last repetition beyond the
least number started. -/
def runGreedy (m : Matcher) (least : Nat) (most : Option Nat) :
    (fuel count : Nat) → (last : Option Nat) → Matcher
  | 0, _, _, t, next => next t
  | fuel + 1, count, last, t, next =>
    if count < least then
      m t fun t => runGreedy m least most fuel (count + 1) last t next
    else if allows count most && last != some t.offset then
      match m t fun u => runGreedy m least most fuel (count + 1) (some t.offset) u next with
      | some found => some found
      | none => next t
    else next t

/-- As few repetitions as possible first. -/
def runLazy (m : Matcher) (least : Nat) (most : Option Nat) :
    (fuel count : Nat) → (last : Option Nat) → Matcher
  | 0, _, _, t, next => next t
  | fuel + 1, count, last, t, next =>
    if count < least then
      m t fun t => runLazy m least most fuel (count + 1) last t next
    else
      match next t with
      | some found => some found
      | none =>
        if allows count most && last != some t.offset then
          m t fun u => runLazy m least most fuel (count + 1) (some t.offset) u next
        else none

/-- As many repetitions as possible, each by its first match, and no fewer. -/
def runPossessive (m : Matcher) (least : Nat) (most : Option Nat) :
    (fuel count : Nat) → Trial → Option Trial
  | 0, _, t => some t
  | fuel + 1, count, t =>
    if count < least then
      match m t some with
      | some u => runPossessive m least most fuel (count + 1) u
      | none => none
    else if allows count most then
      match m t some with
      | some u =>
        if u.offset = t.offset then some u else runPossessive m least most fuel (count + 1) u
      | none => some t
    else some t

/-! ## Matching -/

/-- Whether what a group matched stands at a place. -/
def repeatsAt (foldCase : Bool) (script : Script) (text : Array Char) (start stop offset : Nat) :
    Bool :=
  let form := fun c? =>
    Option.map (fun c : Char => if foldCase then Member.fold script c.toNat else c.toNat) c?
  offset + (stop - start) ≤ text.size &&
    (List.range (stop - start)).all fun i => form text[start + i]? == form text[offset + i]?

/-- Matches a pattern at a place of a text. -/
def run (text : Array Char) : Pattern → Matcher
  | empty, t, next => next t
  | one set, t, next =>
    match text[t.offset]? with
    | some c => if set.has c then next { t with offset := t.offset + 1 } else none
    | none => none
  | seq first second, t, next => first.run text t fun t => second.run text t next
  | choice first second, t, next =>
    match first.run text t next with
    | some found => some found
    | none => second.run text t next
  | group number body, t, next => body.run text t fun u => next (u.remember number t.offset)
  | reference number foldCase script _ _, t, next =>
    match t.groups.lookup number with
    | some (start, stop) =>
      if repeatsAt foldCase script text start stop t.offset then
        next { t with offset := t.offset + (stop - start) }
      else none
    | none => none
  | ifGroup number first second, t, next =>
    match t.groups.lookup number with
    | some _ => first.run text t next
    | none => second.run text t next
  | repeated .greedy least most body, t, next =>
    runGreedy (body.run text) least most (least + text.size + 2) 0 none t next
  | repeated .lazy least most body, t, next =>
    runLazy (body.run text) least most (least + text.size + 2) 0 none t next
  | repeated .possessive least most body, t, next =>
    match runPossessive (body.run text) least most (least + text.size + 2) 0 t with
    | some u => next u
    | none => none
  | atomic body, t, next =>
    match body.run text t some with
    | some u => next u
    | none => none
  | lookAhead negated body, t, next =>
    match body.run text t some, negated with
    | some u, false => next { u with offset := t.offset }
    | none, true => next t
    | _, _ => none
  | lookBehind negated body, t, next =>
    let found :=
      if body.width.least ≤ t.offset then
        body.run text { t with offset := t.offset - body.width.least } some
      else none
    match found, negated with
    | some u, false => next { u with offset := t.offset }
    | none, true => next t
    | _, _ => none
  | anchor place, t, next => if place.holds text t.offset then next t else none

/-- The bounds of the first match of a pattern in a text. -/
def search? (p : Pattern) (text : List Char) : Option (Nat × Nat) :=
  let text := text.toArray
  (List.range (text.size + 1)).findSome? fun start =>
    (p.run text { offset := start } some).map fun t => (start, t.offset)

end Pattern
end Nameless
