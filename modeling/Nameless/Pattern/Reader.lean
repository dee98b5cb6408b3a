import Nameless.Pattern.Basic

/-!
# Reading the text of a pattern

The text of a pattern is read token by token. A token is a character, or a backslash with the
character behind it. While it is read, the reader keeps count of the groups met so far: a group may
be referred to when it is closed.

This file provides:
- `Token`, `Token.split`: the tokens of a text,
- `Reader`: what is left to read, and the groups met so far,
- `Parser`, with `peek`, `next`, `accept`, `takeUpTo` and `takeName`,
- `Parser.fail`, `Parser.failBack`: faults at the offset of the next token, and before it,
- `Parser.inside`, `Parser.openGroup`, `Parser.closeGroup`: the bounds of groups.
-/

namespace Nameless
namespace Pattern

/-- A character, or one behind a backslash. -/
inductive Token where
  | plain (c : Char)
  | escaped (c : Char)
  deriving DecidableEq, Repr

namespace Token

/-- The characters of a token. -/
def chars : Token → List Char
  | plain c => [c]
  | escaped c => ['\\', c]

/-- The text of a token. -/
def text (t : Token) : String :=
  String.ofList t.chars

/-- The number of characters of a token. -/
def size (t : Token) : Nat :=
  t.chars.length

/-- The tokens of a text that starts at an offset. -/
def split (offset : Nat) : List Char → Except PatternFault (List Token)
  | [] => .ok []
  | ['\\'] => .error { cause := .endInEscape, offset := some offset }
  | '\\' :: c :: rest => do
    return escaped c :: (← split (offset + 2) rest)
  | c :: rest => do
    return plain c :: (← split (offset + 1) rest)

end Token

/-- What is left to read of a pattern, and the groups met so far. -/
structure Reader where
  tokens : List Token
  /-- The offset of the next token. -/
  offset : Nat := 0
  /-- The number of the next group. -/
  nextGroup : Nat := 1
  /-- The widths of the groups that are closed. -/
  closed : List (Nat × Width) := []
  names : List (String × Nat) := []
  /-- Inside a look-behind, the number of the first group in it. -/
  behind : Option Nat := none
  /-- The groups that conditions ask for, with the offsets where they do. -/
  conditions : List (Nat × Nat) := []
  /-- The number of groups that are open. -/
  depth : Nat := 0
  deriving Repr

/-- An operation on a reader, which may meet a fault. -/
abbrev Parser := StateT Reader (Except PatternFault)

namespace Parser

/-- Fails some characters before the next token. -/
def failBack {α : Type} (cause : PatternCause) (back : Nat) : Parser α := do
  throw { cause := cause, offset := some ((← get).offset - back) }

/-- Fails at the next token. -/
def fail {α : Type} (cause : PatternCause) : Parser α :=
  failBack cause 0

/-- Fails at a given offset. -/
def failAt {α : Type} (cause : PatternCause) (offset : Nat) : Parser α :=
  throw { cause := cause, offset := some offset }

/-- The next token, which stays. -/
def peek : Parser (Option Token) := do
  return (← get).tokens.head?

/-- Takes the next token. -/
def next : Parser (Option Token) := do
  let r ← get
  match r.tokens with
  | [] => return none
  | t :: rest =>
    set { r with tokens := rest, offset := r.offset + t.size }
    return some t

/-- Takes the next token if it is a given character. -/
def accept (c : Char) : Parser Bool := do
  if (← peek) = some (.plain c) then
    discard next
    return true
  else return false

/-- Takes characters of a kind, up to a number. -/
def takeUpTo (isKind : Char → Bool) : Nat → Parser (List Char)
  | 0 => return []
  | n + 1 => do
    match ← peek with
    | some (.plain c) =>
      if isKind c then
        discard next
        return c :: (← takeUpTo isKind n)
      else return []
    | _ => return []

/-- Takes all characters of a kind. -/
def takeAll (isKind : Char → Bool) : Parser (List Char) := do
  takeUpTo isKind (← get).tokens.length

/-- Takes a name, given the part of it already taken, up to and with a character that ends it. -/
def takeNameFrom (terminator : Char) (what : String) : Nat → List Char → Parser (List Char)
  | 0, taken => failName taken
  | n + 1, taken => do
    match ← next with
    | none => failName taken
    | some t =>
      if t = .plain terminator then
        if taken.isEmpty then failBack (.missingName what) 1 else return taken
      else takeNameFrom terminator what n (taken ++ t.chars)
where
  /-- The complaint about a name that nothing ends. -/
  failName (taken : List Char) : Parser (List Char) :=
    if taken.isEmpty then fail (.missingName what)
    else failBack (.unclosedName terminator) taken.length

/-- Takes a name, up to and with a character that ends it. -/
def takeName (terminator : Char) (what : String) : Parser (List Char) := do
  takeNameFrom terminator what ((← get).tokens.length + 1) []

/-! ## Groups -/

/-- How many groups may stand in each other. -/
def maxDepth : Nat := 4990

/-- Reads the inside of a group, which must not be nested too deeply. -/
def inside {α : Type} (body : Parser α) : Parser α := do
  let depth := (← get).depth
  if depth < maxDepth then
    modify fun r => { r with depth := depth + 1 }
    let a ← body
    modify fun r => { r with depth := depth }
    return a
  else throw { cause := .tooDeep }

/-- Whether a group is closed. -/
def isClosed (number : Nat) : Parser Bool := do
  return ((← get).closed.lookup number).isSome

/-- Refuses a group that may not be referred to from inside a look-behind. -/
def checkBehind (number : Nat) : Parser Unit := do
  match (← get).behind with
  | none => return ()
  | some first =>
    if !(← isClosed number) then fail .openGroup
    else if first ≤ number then fail .groupInLookBehind
    else return ()

/-- Opens a group, under a name if there is one. -/
def openGroup (name? : Option String) : Parser Nat := do
  let r ← get
  let number := r.nextGroup
  match name? with
  | none =>
    set { r with nextGroup := number + 1 }
    return number
  | some name =>
    match r.names.lookup name with
    | some earlier => failBack (.repeatedGroupName name number earlier) (name.length + 1)
    | none =>
      set { r with nextGroup := number + 1, names := (name, number) :: r.names }
      return number

/-- Closes a group. -/
def closeGroup (number : Nat) (body : Pattern) : Parser Unit :=
  modify fun r => { r with closed := (number, body.width) :: r.closed }

end Parser
end Pattern
end Nameless
