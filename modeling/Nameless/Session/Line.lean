import Nameless.Fault
import Nameless.Identifier
import Nameless.Pattern.Match
import Nameless.Pattern.Parser
import Nameless.Text.Blank

/-!
# Lines of a program

A program is a sequence of lines. A line is blank, a comment, or a definition `NAME = term`.

This file provides:
- `Line.content`: a line without its surrounding blanks, and nothing for a comment,
- `Line.split`: a definition as its name and the text of its term,
- `Line.occurrence?`: where a word stands in a text,
- `Line.span?`: where a name stands in a text as a whole word, if the name is read as a pattern.
-/

namespace Nameless
namespace Line

/-- Whether a line is a comment: it starts with two slashes. -/
def isComment : List Char → Bool
  | '/' :: '/' :: _ => true
  | _ => false

/-- The content of a line: nothing for a comment, and otherwise the line without the blanks at its
ends. -/
def content (line : List Char) : List Char :=
  if isComment line then [] else Text.trim line

/-- Whether a text can be the name of a definition. -/
def isName (s : List Char) : Bool :=
  !s.isEmpty && s.all isUpperOrDigit

/-- The part of a line before its first equals sign, without the blanks at its ends. -/
def nameText (line : List Char) : List Char :=
  Text.trim (line.takeWhile (· ≠ '='))

/-- The part of a line after its first equals sign, without the blanks at its ends. -/
def termText (line : List Char) : List Char :=
  Text.trim ((line.dropWhile (· ≠ '=')).drop 1)

/-- Splits a definition into its name and the text of its term. -/
def split (line : String) : Except Fault (String × String) :=
  let cs := line.toList
  let name := nameText cs
  if !cs.contains '=' then .error (.notDefinition line line.length)
  else if isName name then .ok (String.ofList name, String.ofList (termText cs))
  else .error (.notDefinition line name.length)

/-! ## Whole words -/

/-- Whether a text starts with a word that goes on with no further character of a name. -/
def startsWord (word s : List Char) : Bool :=
  word.isPrefixOf s && !((s.drop word.length).head?.any isUpperOrDigit)

/-- The first offset at which a word stands in a text, not inside a longer name. `previous` is the
character before the text, and `offset` its offset. -/
def occurrenceFrom (word : List Char) (previous : Option Char) (offset : Nat) :
    List Char → Option Nat
  | [] => if !previous.any isUpperOrDigit && startsWord word [] then some offset else none
  | c :: rest =>
    if !previous.any isUpperOrDigit && startsWord word (c :: rest) then some offset
    else occurrenceFrom word (some c) (offset + 1) rest

/-- The first offset at which a word stands in a text, not inside a longer name. -/
def occurrence? (word s : List Char) : Option Nat :=
  occurrenceFrom word none 0 s

/-! ## Names as patterns -/

/-- The characters that have a meaning of their own in a pattern. -/
def signs : List Char :=
  ['.', '\\', '[', '\x7b', '(', ')', '*', '+', '?', '^', '$', '|']

/-- Whether a character stands for itself in a pattern. -/
def isOrdinary (c : Char) : Bool :=
  !signs.contains c

/-- The pattern of a name as a whole word. -/
def wordPattern (name : List Char) : List Char :=
  "(?<![A-Z0-9])".toList ++ name ++ "(?![A-Z0-9])".toList

/-- The bounds between which a name stands in a text as a whole word. The name is read as a pattern,
and one of ordinary characters only, as all names of definitions are, is its own pattern. -/
def span? (name s : List Char) : Except Failure (Option (Nat × Nat)) :=
  if name.all isOrdinary then
    .ok ((occurrence? name s).map fun start => (start, start + name.length))
  else
    match Pattern.read (wordPattern name) with
    | .error fault => .error (.ofPattern (String.ofList (wordPattern name)) fault)
    | .ok p => .ok (p.search? s)

theorem isOrdinary_of_isUpperOrDigit {c : Char} (h : isUpperOrDigit c = true) :
    isOrdinary c = true := by
  have hs : signs.all (fun d => !isUpperOrDigit d) = true := rfl
  cases hc : signs.contains c with
  | false => simp only [isOrdinary, hc, Bool.not_false]
  | true =>
    have hd := List.all_eq_true.1 hs c (List.contains_iff_mem.1 hc)
    simp [h] at hd

/-- The name of a definition is looked for as it stands. -/
theorem span?_of_isName {name : List Char} (h : isName name = true) (s : List Char) :
    span? name s = .ok ((occurrence? name s).map fun start => (start, start + name.length)) := by
  have hn : name.all isOrdinary = true := by
    simp only [isName, Bool.and_eq_true, List.all_eq_true] at h ⊢
    exact fun c hc => isOrdinary_of_isUpperOrDigit (h.2 c hc)
  simp [span?, hn]

end Line
end Nameless
