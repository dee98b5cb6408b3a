import Nameless.Pattern.Escape

/-!
# The text of patterns

Patterns are written in the usual notation for regular expressions. Flags are set for a group, and
hold for everything in it.

This file provides:
- `Mode`: the flags in force,
- `Parser.charSet`, `Parser.quantity?`, `Parser.flags?`: sets, repetitions and flags,
- `Parser.choices`, `Parser.items`: the grammar,
- `Pattern.read`: the pattern that a text spells.
-/

namespace Nameless
namespace Pattern

/-- The flags in force. -/
structure Mode where
  foldCase : Bool := false
  /-- Whether lines have anchors of their own. -/
  lines : Bool := false
  /-- Whether the point takes line feeds. -/
  pointTakesAll : Bool := false
  /-- Whether blanks and comments have no meaning. -/
  spaced : Bool := false
  script : Script := .all
  deriving DecidableEq, Repr

namespace Mode

/-- The flags after some are set and some are removed, by their letters. -/
def update (mode : Mode) (on off : List Char) : Mode where
  foldCase := (mode.foldCase || on.contains 'i') && !off.contains 'i'
  lines := (mode.lines || on.contains 'm') && !off.contains 'm'
  pointTakesAll := (mode.pointTakesAll || on.contains 's') && !off.contains 's'
  spaced := (mode.spaced || on.contains 'x') && !off.contains 'x'
  script := if on.contains 'a' then .ascii else if on.contains 'u' then .all else mode.script

/-- A set of characters under the flags. -/
def charSet (mode : Mode) (members : List Member) (negated : Bool) : Pattern :=
  .one { members := members, negated := negated, foldCase := mode.foldCase, script := mode.script }

end Mode

/-- Whether a letter is a flag. -/
def isFlag (c : Char) : Bool :=
  "iLmsxatu".toList.contains c

/-- Whether a flag says which kind of text is matched. There is one such flag at most. -/
def isTextFlag (c : Char) : Bool :=
  "aLu".toList.contains c

/-- Whether a flag holds for a whole pattern only. -/
def isGlobalFlag (c : Char) : Bool :=
  c == 't'

/-- Whether a character is a letter. -/
def isLetter (c : Char) : Bool :=
  Text.isWord c && c != '_' && !Text.isDigit c

/-- Whether a text can be the name of a group. -/
def isGroupName : List Char → Bool
  | [] => false
  | c :: rest => (isLetter c || c == '_') && rest.all Text.isWord

/-- The number that a text denotes: digits, with single low lines between them, and blanks or a sign
around them. -/
def groupNumber? (s : List Char) : Option Nat :=
  match Text.trim s with
  | '+' :: digits => number none digits
  | '-' :: digits =>
    match number none digits with
    | some 0 => some 0
    | _ => none
  | digits => number none digits
where
  /-- The number that is denoted after the digits of `value?`. -/
  number (value? : Option Nat) : List Char → Option Nat
    | [] => value?
    | '_' :: c :: rest =>
      match value?, Text.decimalValue? c with
      | some value, some digit => number (some (10 * value + digit)) rest
      | _, _ => none
    | c :: rest =>
      match Text.decimalValue? c with
      | some digit => number (some (10 * value?.getD 0 + digit)) rest
      | none => none

/-- The greatest number of groups. -/
def maxGroups : Nat := 0x3fffffff

/-- Whether something can be repeated. -/
inductive Repeatable where
  | yes
  /-- A place takes no characters. -/
  | place
  /-- A repetition is repeated only in a group. -/
  | again
  deriving DecidableEq, Repr

/-- A part of a sequence. -/
structure Item where
  pattern : Pattern
  repeatable : Repeatable := .yes
  deriving DecidableEq, Repr

namespace Parser

/-! ## Sets of characters -/

/-- The member of a set that a token stands for. -/
def member (t : Token) : Parser Member :=
  match t with
  | .plain c => return .code c.toNat
  | .escaped c => setEscape c

/-- A range of characters between two tokens. -/
def range (low high : Token) (first last : Member) : Parser Member :=
  let bad := failBack (.badRange low.text high.text) (low.size + 1 + high.size)
  match first, last with
  | .code m, .code n => if n < m then bad else return .range m n
  | _, _ => bad

/-- The members of a set that opened at an offset, up to and with the closing bracket. A bracket in
front of all members is one of them. -/
def setMembers (start : Nat) : Nat → List Member → Parser (List Member)
  | 0, _ => failAt .unclosedSet start
  | fuel + 1, members => do
    match ← next with
    | none => failAt .unclosedSet start
    | some low =>
      if low = .plain ']' ∧ members ≠ [] then return members
      else
        let first ← member low
        if ← accept '-' then
          match ← next with
          | none => failAt .unclosedSet start
          | some high =>
            if high = .plain ']' then return members ++ [first, .code '-'.toNat]
            else
              let last ← member high
              setMembers start fuel (members ++ [← range low high first last])
        else setMembers start fuel (members ++ [first])

/-- A set of characters, behind its opening bracket. -/
def charSet (mode : Mode) : Parser Pattern := do
  let start := (← get).offset - 1
  let negated ← accept '^'
  let members ← setMembers start ((← get).tokens.length + 1) []
  return mode.charSet members negated

/-! ## Repetitions -/

/-- A number of repetitions. -/
def repeatNumber (digits : List Char) : Parser Nat :=
  let n := digitsValue 10 digits
  if n < maxRepeat then return n else throw { cause := .hugeRepeat }

/-- A bound on the number of repetitions, if one is written. -/
def repeatBound (digits : List Char) : Parser (Option Nat) := do
  if digits.isEmpty then return none else return some (← repeatNumber digits)

/-- How often something is repeated, where `c` starts the repetition and was taken already. A brace
that starts no repetition stands for itself. -/
def quantity? (c : Char) : Parser (Option (Nat × Option Nat)) := do
  match c with
  | '?' => return some (0, some 1)
  | '*' => return some (0, none)
  | '+' => return some (1, none)
  | _ =>
    let reader ← get
    if (← peek) = some (.plain '\x7d') then return none
    else
      let low ← takeAll Char.isDigit
      let high ← if ← accept ',' then takeAll Char.isDigit else pure low
      if !(← accept '\x7d') then
        StateT.set reader
        return none
      else
        let least := (← repeatBound low).getD 0
        let most ← repeatBound high
        if most.any (· < least) then failAt .invertedRepeat reader.offset
        else return some (least, most)

/-- In which order repetitions are tried. -/
def greed : Parser Greed := do
  if ← accept '?' then return .lazy
  else if ← accept '+' then return .possessive
  else return .greedy

/-! ## Flags -/

/-- The complaint about a token that is no flag. -/
def notFlag {α : Type} (otherwise : PatternCause) (t : Token) : Parser α :=
  match t with
  | .plain c => failBack (if isLetter c then .unknownFlag else otherwise) 1
  | .escaped _ => failBack otherwise 2

/-- The flags to be set, where `flag` was taken already, and the character that ends them. -/
def flagsOn : Nat → List Char → Char → Parser (List Char × Char)
  | 0, _, _ => fail .missingFlagEnd
  | fuel + 1, on, flag => do
    let on := flag :: on
    if flag = 'L' then fail .localeFlag
    else if isTextFlag flag && on.any (fun c => isTextFlag c && c != flag) then
      fail .incompatibleFlags
    else
      match ← next with
      | none => fail .missingFlagEnd
      | some (.plain c) =>
        if c = ')' ∨ c = '-' ∨ c = ':' then return (on, c)
        else if isFlag c then flagsOn fuel on c
        else notFlag .missingFlagEnd (.plain c)
      | some t => notFlag .missingFlagEnd t

/-- The flags to be removed, where `flag` was taken already, up to and with a colon. -/
def flagsOff : Nat → List Char → Char → Parser (List Char)
  | 0, _, _ => fail .missingColon
  | fuel + 1, off, flag => do
    let off := flag :: off
    if isTextFlag flag then fail .kindOfTextOff
    else
      match ← next with
      | none => fail .missingColon
      | some (.plain c) =>
        if c = ':' then return off
        else if isFlag c then flagsOff fuel off c
        else notFlag .missingColon (.plain c)
      | some t => notFlag .missingColon t

/-- The flags to be removed, behind a dash. -/
def flagsAfterDash : Parser (List Char) := do
  match ← next with
  | none => fail .missingFlag
  | some (.plain c) =>
    if isFlag c then flagsOff ((← get).tokens.length + 1) [] c
    else notFlag .missingFlag (.plain c)
  | some t => notFlag .missingFlag t

/-- The flags of a group, of which the first character was taken already: those to be set and those
to be removed. There are none of a group if a parenthesis ends them. -/
def flags? (first : Char) : Parser (Option (List Char × List Char)) := do
  let (on, terminator) ←
    if first = '-' then pure ([], '-')
    else flagsOn ((← get).tokens.length + 1) [] first
  if terminator = ')' then return none
  else if on.any isGlobalFlag then failBack .globalFlagOn 1
  else
    let off ← if terminator = '-' then flagsAfterDash else pure []
    if off.any isGlobalFlag then failBack .globalFlagOff 1
    else if on.any off.contains then failBack .flagOnAndOff 1
    else return some (on, off)

/-! ## Parts of a sequence -/

/-- A character that stands for itself. -/
def literal (mode : Mode) (code : Nat) : Item where
  pattern := mode.charSet [.code code] false

/-- A place. -/
def place (a : Anchor) : Item where
  pattern := .anchor a
  repeatable := .place

/-- A reference to a group. -/
def reference (mode : Mode) (number : Nat) (width : Width) : Item where
  pattern := .reference number mode.foldCase mode.script width.least width.most

/-- An escape in a sequence. -/
def escape (mode : Mode) (c : Char) : Parser Item := do
  match c with
  | 'A' => return place (.start false)
  | 'Z' => return place .close
  | 'b' => return place (.boundary mode.script false)
  | 'B' => return place (.boundary mode.script true)
  | _ =>
    match class? c, control? c with
    | some m, _ => return { pattern := mode.charSet [m] false }
    | none, some n => return literal mode n
    | none, none =>
      match ← code? c with
      | some n => return literal mode n
      | none =>
        if c = '0' then
          let more ← takeUpTo isOctal 2
          return literal mode (← octalCode (c :: more))
        else if c.isDigit then
          match ← groupReference c with
          | .code n => return literal mode n
          | .group number width => return reference mode number width
        else return literal mode (← selfEscape c)

/-- Skips what is left of a line. -/
def skipLine : Nat → Parser Unit
  | 0 => return ()
  | fuel + 1 => do
    match ← next with
    | none => return ()
    | some t => if t = .plain '\n' then return () else skipLine fuel

/-- Skips a comment that opened at an offset, up to and with the closing parenthesis. -/
def skipComment (start : Nat) : Nat → Parser Unit
  | 0 => failAt .unclosedComment start
  | fuel + 1 => do
    match ← next with
    | none => failAt .unclosedComment start
    | some t => if t = .plain ')' then return () else skipComment start fuel

/-! ## Heads of groups -/

/-- What stands behind an opening parenthesis. -/
inductive Head where
  | capture (name? : Option String)
  | plain (mode : Mode)
  | atomic
  | lookAhead (negated : Bool)
  | lookBehind (negated : Bool)
  | condition (number : Nat)
  /-- A group that was read to its end, and the part it stands for. -/
  | complete (item? : Option Item)
  deriving DecidableEq, Repr

/-- The name of a group, up to and with a character that ends it. -/
def groupName (terminator : Char) : Parser String := do
  let name ← takeName terminator "group name"
  if isGroupName name then return String.ofList name
  else failBack (.badGroupName (String.ofList name)) (name.length + 1)

/-- A reference to a group by its name. -/
def namedReference (mode : Mode) : Parser Head := do
  let name ← groupName ')'
  match (← get).names.lookup name with
  | none => failBack (.unknownGroupName name) (name.length + 1)
  | some number =>
    let width ← closedGroup number (name.length + 1)
    return .complete (some (reference mode number width))

/-- The group that a condition asks for. -/
def conditionHead : Parser Head := do
  let name ← takeName ')' "group name"
  let back := name.length + 1
  let number ←
    if isGroupName name then
      match (← get).names.lookup (String.ofList name) with
      | some number => pure number
      | none => failBack (.unknownGroupName (String.ofList name)) back
    else
      match groupNumber? name with
      | none => failBack (.badGroupName (String.ofList name)) back
      | some number =>
        if number = 0 then failBack .badGroupNumber back
        else if maxGroups ≤ number then failBack (.noGroup number) back
        else
          modify fun r =>
            if (r.conditions.lookup number).isSome then r
            else { r with conditions := r.conditions ++ [(number, r.offset - back)] }
          pure number
  checkBehind number
  return .condition number

/-- What follows the letter of the extended groups. -/
def extendedHead (mode : Mode) : Parser Head := do
  if ← accept '<' then return .capture (some (← groupName '>'))
  else if ← accept '=' then namedReference mode
  else
    match ← next with
    | none => fail .unexpectedEnd
    | some t => failBack (.unknownExtension ("P" ++ t.text)) (t.size + 2)

/-- What follows the sign of a look-behind. -/
def lookBehindHead : Parser Head := do
  match ← next with
  | none => fail .unexpectedEnd
  | some (.plain '=') => return .lookBehind false
  | some (.plain '!') => return .lookBehind true
  | some t => failBack (.unknownExtension ("<" ++ t.text)) (t.size + 2)

/-- What stands behind a parenthesis that opened at an offset. -/
def head (mode : Mode) (start : Nat) : Parser Head := do
  if !(← accept '?') then return .capture none
  else
    match ← next with
    | none => fail .unexpectedEnd
    | some (.plain 'P') => extendedHead mode
    | some (.plain ':') => return .plain mode
    | some (.plain '#') =>
      skipComment start ((← get).tokens.length + 1)
      return .complete none
    | some (.plain '=') => return .lookAhead false
    | some (.plain '!') => return .lookAhead true
    | some (.plain '<') => lookBehindHead
    | some (.plain '(') => conditionHead
    | some (.plain '>') => return .atomic
    | some t =>
      match t with
      | .plain c =>
        if isFlag c || c == '-' then
          match ← flags? c with
          | none => failAt .misplacedFlags start
          | some (on, off) => return .plain (mode.update on off)
        else failBack (.unknownExtension t.text) (t.size + 1)
      | .escaped _ => failBack (.unknownExtension t.text) (t.size + 1)

/-! ## The grammar -/

/-- Takes the parenthesis that closes a group which opened at an offset. -/
def closing (start : Nat) : Parser Unit := do
  if ← accept ')' then return () else failAt .unclosedGroup start

/-- Marks the start of a look-behind, and gives the mark to be restored at its end. -/
def enterBehind : Parser (Option Nat) := do
  let outer := (← get).behind
  modify fun r => { r with behind := some (outer.getD r.nextGroup) }
  return outer

/-- Restores the mark of the look-behinds. -/
def leaveBehind (outer : Option Nat) : Parser Unit :=
  modify fun r => { r with behind := outer }

/-- Repeats the last part of a sequence. `start` is the offset of the repetition. -/
def repeatLast (start least : Nat) (most : Option Nat) : List Item → Parser (List Item)
  | [] => failAt .nothingToRepeat start
  | item :: rest => do
    match item.repeatable with
    | .place => failAt .nothingToRepeat start
    | .again => failAt .multipleRepeat start
    | .yes =>
      let g ← greed
      return { pattern := .repeated g least most item.pattern, repeatable := .again } :: rest

mutual

/-- Reads choices between sequences. -/
def choices : Nat → Mode → Parser Pattern
  | 0, _ => fail .unexpectedEnd
  | fuel + 1, mode => do
    let first ← items fuel mode []
    if ← accept '|' then return .choice first (← choices fuel mode) else return first

/-- Reads a sequence, of which some parts were read already, the last one first. -/
def items : Nat → Mode → List Item → Parser Pattern
  | 0, _, _ => fail .unexpectedEnd
  | fuel + 1, mode, seen => do
    match ← peek with
    | none | some (.plain '|') | some (.plain ')') =>
      return ofList (seen.reverse.map Item.pattern)
    | some t =>
      discard next
      match t with
      | .escaped c => items fuel mode ((← escape mode c) :: seen)
      | .plain c =>
        if mode.spaced && CharClass.blank.has .ascii c then items fuel mode seen
        else if mode.spaced && c == '#' then
          skipLine ((← get).tokens.length + 1)
          items fuel mode seen
        else
          match c with
          | '[' => items fuel mode ({ pattern := ← charSet mode } :: seen)
          | '.' =>
            let point := if mode.pointTakesAll then CharSet.full else CharSet.notLineFeed
            items fuel mode ({ pattern := .one point } :: seen)
          | '^' => items fuel mode (place (.start mode.lines) :: seen)
          | '$' => items fuel mode (place (.stop mode.lines) :: seen)
          | '(' =>
            match ← group fuel mode ((← get).offset - 1) with
            | none => items fuel mode seen
            | some item => items fuel mode (item :: seen)
          | _ =>
            if c = '*' ∨ c = '+' ∨ c = '?' ∨ c = '\x7b' then
              let start := (← get).offset - 1
              match ← quantity? c with
              | none => items fuel mode (literal mode c.toNat :: seen)
              | some (least, most) => items fuel mode (← repeatLast start least most seen)
            else items fuel mode (literal mode c.toNat :: seen)

/-- Reads a group that opened at an offset, behind its parenthesis. A comment is no part of a
sequence. -/
def group : Nat → Mode → Nat → Parser (Option Item)
  | 0, _, _ => fail .unexpectedEnd
  | fuel + 1, mode, start => do
    match ← head mode start with
    | .complete item? => return item?
    | .capture name? =>
      let number ← openGroup name?
      let body ← inside (choices fuel mode)
      closing start
      closeGroup number body
      return some { pattern := .group number body }
    | .plain inner =>
      let body ← inside (choices fuel inner)
      closing start
      return some { pattern := body }
    | .atomic =>
      let body ← inside (choices fuel mode)
      closing start
      return some { pattern := .atomic body }
    | .lookAhead negated =>
      let body ← inside (choices fuel mode)
      closing start
      return some { pattern := .lookAhead negated body }
    | .lookBehind negated =>
      let outer ← enterBehind
      let body ← inside (choices fuel mode)
      leaveBehind outer
      closing start
      return some { pattern := .lookBehind negated body }
    | .condition number =>
      let first ← inside (items fuel mode [])
      if ← accept '|' then
        let second ← inside (items fuel mode [])
        if (← peek) = some (.plain '|') then fail .tooManyBranches
        else
          closing start
          return some { pattern := .ifGroup number first second }
      else
        closing start
        return some { pattern := .ifGroup number first .empty }

end

/-- Reads a whole pattern. -/
def whole : Parser Pattern := do
  let p ← choices (3 * (← get).tokens.length + 3) {}
  let r ← get
  if !r.tokens.isEmpty then fail .unbalanced
  else
    match r.conditions.find? fun (number, _) => r.nextGroup ≤ number with
    | some (number, offset) => failAt (.noGroup number) offset
    | none => return p

end Parser

/-- The pattern that a text spells. -/
def read (s : List Char) : Except PatternFault Pattern := do
  let tokens ← Token.split 0 s
  let (p, _) ← Parser.whole.run { tokens := tokens }
  match p.lookBehindFault? with
  | some fault => .error fault
  | none => return p

end Pattern
end Nameless
