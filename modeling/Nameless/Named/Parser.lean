import Nameless.Identifier
import Nameless.Named.Basic
import Nameless.Fault
import Nameless.Text.Blank

/-!
# Reading named terms

A term is an abstraction (`λ` or a backslash, a name, a period and a term), an application (two
terms in parentheses), a term in parentheses, a variable (a run of lower-case letters) or a
reference (a run of upper-case letters and digits). Blanks may stand between any two of these
pieces. The first character decides which kind of term follows, so reading never goes back.

Reading works on what is left of the text, and a refusal carries what was left where it arose.
Nested terms are read up to a given depth, which makes the recursion structural.

This file provides:
- `Refusal`: why no term could be read,
- `Named.Parser.term`: one term from the front of a text,
- `Named.Parser.whole`: a text that is one term and nothing else,
- `Named.parseAt`, `Named.parse`: the same for a text with offsets.
-/

namespace Nameless

/-- Why no term could be read: a fault in what is left of the text, or too much nesting. -/
inductive Refusal where
  | malformed (cause : SyntaxFault) (rest : List Char)
  | tooDeep
  deriving DecidableEq, Repr

namespace Named
namespace Parser

open Text (skipBlanks)

/-- What reading a term from the front of a text gives: the term, and what is left. -/
abbrev Result := Except Refusal (Named Reference × List Char)

/-- The two signs that start an abstraction. -/
def isLambda (c : Char) : Bool :=
  c == '\\' || c == 'λ'

/-- What is left after a given character, which has to stand next. -/
def expect (expected : Char) (s : List Char) : Except Refusal (List Char) :=
  match skipBlanks s with
  | [] => .error (.malformed (.endedEarly expected) [])
  | c :: rest =>
    if c = expected then .ok rest else .error (.malformed (.misplaced expected) (c :: rest))

/-- The rest of an abstraction after its sign, whose body is read by `term`. -/
def abstraction (term : List Char → Result) (s : List Char) : Result :=
  let s := skipBlanks s
  let name := s.takeWhile isLower
  if name.isEmpty then
    .error (.malformed .unnamedBinder s)
  else do
    let s ← expect '.' (s.dropWhile isLower)
    let (body, rest) ← term s
    return (.abs (String.ofList name) body, rest)

/-- The rest of a parenthesis after its opening, whose one or two terms are read by `term`. -/
def parenthesis (term : List Char → Result) (s : List Char) : Result := do
  let (fn, rest) ← term s
  match skipBlanks rest with
  | ')' :: rest => return (fn, rest)
  | rest =>
    let (arg, rest) ← term rest
    let rest ← expect ')' rest
    return (.app fn arg, rest)

/-- Reads a term from the front of a text, with terms nested up to `depth` deep. -/
def term : (depth : Nat) → List Char → Result
  | 0, _ => .error .tooDeep
  | depth + 1, s =>
    match skipBlanks s with
    | [] => .error (.malformed .incomplete [])
    | c :: rest =>
      if isLambda c then abstraction (term depth) rest
      else if c = '(' then parenthesis (term depth) rest
      else if isLower c then
        .ok (.sym (String.ofList ((c :: rest).takeWhile isLower)), (c :: rest).dropWhile isLower)
      else if isUpperOrDigit c then
        .ok (.leaf ⟨String.ofList ((c :: rest).takeWhile isUpperOrDigit)⟩,
          (c :: rest).dropWhile isUpperOrDigit)
      else .error (.malformed .unexpected (c :: rest))

/-- Reads a text that is one term, with blanks around it and nothing else. -/
def whole (depth : Nat) (s : List Char) : Except Refusal (Named Reference) := do
  let (t, rest) ← term depth s
  match skipBlanks rest with
  | [] => return t
  | rest => .error (.malformed .trailing rest)

end Parser
end Named

namespace Refusal

/-- The failure that a refusal means for the text that was read. -/
def failure (text : String) : Refusal → Failure
  | malformed cause rest => .fault (.malformed text cause (text.length - rest.length))
  | tooDeep => .tooDeep

end Refusal

namespace Named

/-- Reads the term that starts at an offset, and gives the offset just after it. -/
def parseAt (depth : Nat) (text : String) (offset : Nat) :
    Except Failure (Named Reference × Nat) :=
  match Parser.term depth (text.toList.drop offset) with
  | .ok (t, rest) => .ok (t, text.length - rest.length)
  | .error refusal => .error (refusal.failure text)

/-- Reads a text as one term. -/
def parse (depth : Nat) (text : String) : Except Failure (Named Reference) :=
  match Parser.whole depth text.toList with
  | .ok t => .ok t
  | .error refusal => .error (refusal.failure text)

end Named
end Nameless
