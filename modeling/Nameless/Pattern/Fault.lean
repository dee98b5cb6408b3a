import Nameless.Text.Quoted

/-!
# What can be wrong with a pattern

This file provides:
- `PatternCause`: the ways in which a text fails to be a pattern,
- `PatternFault`: a cause, and the offset in the text at which it arises,
- `PatternFault.kind`, `PatternFault.message`: how a fault is told.
-/

namespace Nameless

/-- How a text fails to be a pattern. -/
inductive PatternCause where
  /-- A backslash at the end. -/
  | endInEscape
  | badEscape (written : String)
  /-- An escape with too few digits. -/
  | incompleteEscape (written : String)
  | octalTooGreat (written : String)
  /-- A character asked for by its name, without a brace. -/
  | missingBrace
  | missingName (what : String)
  | unclosedName (terminator : Char)
  | unknownCharacter (name : String)
  /-- A reference to a group from inside the group. -/
  | openGroup
  /-- A reference to a group from the look-behind that holds it. -/
  | groupInLookBehind
  | noGroup (number : Nat)
  | unclosedSet
  | badRange (low high : String)
  | invertedRepeat
  | nothingToRepeat
  | multipleRepeat
  | unexpectedEnd
  | unknownExtension (written : String)
  | badGroupName (name : String)
  | unknownGroupName (name : String)
  | repeatedGroupName (name : String) (group earlier : Nat)
  | unclosedComment
  | unclosedGroup
  | badGroupNumber
  | tooManyBranches
  /-- Flags that are not the flags of a group. -/
  | misplacedFlags
  | localeFlag
  | incompatibleFlags
  | unknownFlag
  /-- Neither a dash, a colon nor a closing parenthesis follows the flags. -/
  | missingFlagEnd
  | globalFlagOn
  | missingFlag
  | kindOfTextOff
  | missingColon
  | globalFlagOff
  | flagOnAndOff
  | unbalanced
  /-- A look-behind whose matches differ in length. -/
  | variableLookBehind
  /-- A look-behind that goes too far. -/
  | farLookBehind
  | hugeRepeat
  /-- A code point that is no number of 31 bits. -/
  | hugeCode
  /-- Groups in groups beyond the limit. -/
  | tooDeep
  deriving DecidableEq, Repr

namespace PatternCause

/-- A text in a message. -/
def quote (s : String) : String :=
  String.ofList (Text.quoted s.toList)

/-- The message of a cause. -/
def message : PatternCause → String
  | endInEscape => "bad escape (end of pattern)"
  | badEscape written => "bad escape " ++ written
  | incompleteEscape written => "incomplete escape " ++ written
  | octalTooGreat written => "octal escape value " ++ written ++ " outside of range 0-0o377"
  | missingBrace => "missing \x7b"
  | missingName what => "missing " ++ what
  | unclosedName terminator =>
    "missing " ++ String.singleton terminator ++ ", unterminated name"
  | unknownCharacter name => "undefined character name " ++ quote name
  | openGroup => "cannot refer to an open group"
  | groupInLookBehind => "cannot refer to group defined in the same lookbehind subpattern"
  | noGroup number => "invalid group reference " ++ toString number
  | unclosedSet => "unterminated character set"
  | badRange low high => "bad character range " ++ low ++ "-" ++ high
  | invertedRepeat => "min repeat greater than max repeat"
  | nothingToRepeat => "nothing to repeat"
  | multipleRepeat => "multiple repeat"
  | unexpectedEnd => "unexpected end of pattern"
  | unknownExtension written => "unknown extension ?" ++ written
  | badGroupName name => "bad character in group name " ++ quote name
  | unknownGroupName name => "unknown group name " ++ quote name
  | repeatedGroupName name group earlier =>
    "redefinition of group name " ++ quote name ++ " as group " ++ toString group ++
      "; was group " ++ toString earlier
  | unclosedComment => "missing ), unterminated comment"
  | unclosedGroup => "missing ), unterminated subpattern"
  | badGroupNumber => "bad group number"
  | tooManyBranches => "conditional backref with more than two branches"
  | misplacedFlags => "global flags not at the start of the expression"
  | localeFlag => "bad inline flags: cannot use 'L' flag with a str pattern"
  | incompatibleFlags => "bad inline flags: flags 'a', 'u' and 'L' are incompatible"
  | unknownFlag => "unknown flag"
  | missingFlagEnd => "missing -, : or )"
  | globalFlagOn => "bad inline flags: cannot turn on global flag"
  | missingFlag => "missing flag"
  | kindOfTextOff => "bad inline flags: cannot turn off flags 'a', 'u' and 'L'"
  | missingColon => "missing :"
  | globalFlagOff => "bad inline flags: cannot turn off global flag"
  | flagOnAndOff => "bad inline flags: flag turned on and off"
  | unbalanced => "unbalanced parenthesis"
  | variableLookBehind => "look-behind requires fixed-width pattern"
  | farLookBehind => "looks too much behind"
  | hugeRepeat => "the repetition number is too large"
  | hugeCode => "Python int too large to convert to C int"
  | tooDeep => "maximum recursion depth exceeded"

end PatternCause

/-- What is wrong with a pattern, and at which offset if it is wrong at one. -/
structure PatternFault where
  cause : PatternCause
  offset : Option Nat := none
  deriving DecidableEq, Repr

namespace PatternFault

/-- The kind under which a fault is known. -/
def kind (fault : PatternFault) : String :=
  match fault.cause with
  | .hugeRepeat | .hugeCode => "OverflowError"
  | .tooDeep => "RecursionError"
  | _ => "error"

/-- The line and the column of an offset, told only for a text of several lines. -/
def place (pattern : List Char) (offset : Nat) : String :=
  if pattern.contains '\n' then
    let before := pattern.take offset
    let column := (before.reverse.takeWhile (· ≠ '\n')).length + 1
    " (line " ++ toString (before.count '\n' + 1) ++ ", column " ++ toString column ++ ")"
  else ""

/-- The message of a fault in a pattern. -/
def message (pattern : List Char) (fault : PatternFault) : String :=
  match fault.offset with
  | none => fault.cause.message
  | some offset =>
    fault.cause.message ++ " at position " ++ toString offset ++ place pattern offset

end PatternFault
end Nameless
