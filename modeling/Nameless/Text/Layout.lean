import Nameless.Text.Digit
import Nameless.Text.Quoted
import Nameless.Text.Slice

/-!
# Layouts

A snippet can be set in a column: cut to a number of characters, and filled up to a width. How it
is set is written as a short text, for example `*^9.3` for three characters at most, in the middle
of nine, with stars around them.

The notation is shared with numbers, so it also has signs, separators and forms that only a number
can take. They are read, and refused for a snippet.

This file provides:
- `LayoutFault`: what can be wrong with a layout, with `kind` and `message`,
- `Alignment`, `Layout`: a layout as it is read,
- `Layout.read`: reading a layout,
- `Layout.place`: setting a text.
-/

namespace Nameless

/-- What can be wrong with a layout. -/
inductive LayoutFault where
  /-- A width or a precision beyond the greatest number. -/
  | tooManyDigits
  /-- Both separators. -/
  | twoSeparators
  /-- A point without a precision. -/
  | missingPrecision
  /-- Text that is left over where the form has to stand. -/
  | malformed (written : String)
  /-- A separator together with a form that has none. -/
  | noSeparator (separator form : Char)
  /-- A form that a snippet cannot take. -/
  | unknownForm (form : Char)
  /-- A blank in the place of a sign. -/
  | blankSign
  | sign
  | negativeZero
  | alternate
  /-- Filling up between a sign and the digits. -/
  | innerFill
  /-- A column that no memory holds. -/
  | tooWide
  deriving DecidableEq, Repr

namespace LayoutFault

/-- The kind under which a fault is known. -/
def kind : LayoutFault → String
  | tooWide => "MemoryError"
  | _ => "ValueError"

/-- The message of a fault. -/
def message : LayoutFault → String
  | tooManyDigits => "Too many decimal digits in format string"
  | twoSeparators => "Cannot specify both ',' and '_'."
  | missingPrecision => "Format specifier missing precision"
  | malformed written =>
    "Invalid format specifier '" ++ written ++ "' for object of type 'str'"
  | noSeparator separator form =>
    "Cannot specify '" ++ String.singleton separator ++ "' with '" ++ Text.visible 0x80 form ++
      "'."
  | unknownForm form =>
    "Unknown format code '" ++ Text.visible 0x80 form ++ "' for object of type 'str'"
  | blankSign => "Space not allowed in string format specifier"
  | sign => "Sign not allowed in string format specifier"
  | negativeZero => "Negative zero coercion (z) not allowed in string format specifier"
  | alternate => "Alternate form (#) not allowed in string format specifier"
  | innerFill => "'=' alignment not allowed in string format specifier"
  | tooWide => ""

end LayoutFault

/-- Where a text stands in its column. -/
inductive Alignment where
  | left
  | right
  | middle
  /-- A sign at the left and the digits at the right, for numbers only. -/
  | apart
  deriving DecidableEq, Repr

namespace Alignment

/-- The alignment that a character asks for. -/
def ofChar? (c : Char) : Option Alignment :=
  if c = '<' then some left
  else if c = '>' then some right
  else if c = '^' then some middle
  else if c = '=' then some apart
  else none

end Alignment

/-- How a text is set in a column. -/
structure Layout where
  filler : Char := ' '
  alignment : Alignment := .left
  sign : Option Char := none
  /-- Whether a negative zero loses its sign. -/
  negativeZero : Bool := false
  alternate : Bool := false
  width : Option Nat := none
  separator : Option Char := none
  precision : Option Nat := none
  form : Char := 's'
  deriving DecidableEq, Repr

namespace Layout

/-! ## Reading -/

/-- Splits off the alignment, with a filler in front of it if there is one. -/
def readAlignment (s : List Char) : Option Char × Option Alignment × List Char :=
  match s with
  | [] => (none, none, [])
  | [c] =>
    match Alignment.ofChar? c with
    | some alignment => (none, some alignment, [])
    | none => (none, none, [c])
  | filler :: c :: rest =>
    match Alignment.ofChar? c, Alignment.ofChar? filler with
    | some alignment, _ => (some filler, some alignment, rest)
    | none, some alignment => (none, some alignment, c :: rest)
    | none, none => (none, none, filler :: c :: rest)

/-- Splits off a sign. -/
def readSign : List Char → Option Char × List Char
  | '+' :: rest => (some '+', rest)
  | '-' :: rest => (some '-', rest)
  | ' ' :: rest => (some ' ', rest)
  | rest => (none, rest)

/-- Splits off a given character, and tells whether it was there. -/
def readMark (mark : Char) : List Char → Bool × List Char
  | [] => (false, [])
  | c :: rest => if c = mark then (true, rest) else (false, c :: rest)

/-- Splits off a number. -/
def readNumber (s : List Char) : Except LayoutFault (Option Nat × List Char) :=
  match Text.leadingDecimal Text.maxIndex s with
  | some split => .ok split
  | none => .error .tooManyDigits

/-- Splits off a separator. -/
def readSeparator : List Char → Except LayoutFault (Option Char × List Char)
  | ',' :: '_' :: _ => .error .twoSeparators
  | '_' :: ',' :: _ => .error .twoSeparators
  | ',' :: rest => .ok (some ',', rest)
  | '_' :: rest => .ok (some '_', rest)
  | rest => .ok (none, rest)

/-- Splits off a precision and the point in front of it. -/
def readPrecision : List Char → Except LayoutFault (Option Nat × List Char)
  | '.' :: rest => do
    match ← readNumber rest with
    | (none, _) => .error .missingPrecision
    | (some precision, rest) => return (some precision, rest)
  | rest => .ok (none, rest)

/-- Whether a form of numbers has a separator: digits in powers of two have only the low one. -/
def takesSeparator (separator form : Char) : Bool :=
  "defgEG%F\x00".toList.contains form || separator == '_' && "boxX".toList.contains form

/-- What stands between the alignment and the width of a layout. -/
structure Marks where
  sign : Option Char
  negativeZero : Bool
  alternate : Bool
  /-- Whether the column is filled up with zeros. -/
  zeros : Bool
  deriving DecidableEq, Repr

/-- Splits off the marks. A layout that has a filler has no zeros to fill up with. -/
def readMarks (filled : Bool) (s : List Char) : Marks × List Char :=
  let (sign, rest) := readSign s
  let (negativeZero, rest) := readMark 'z' rest
  let (alternate, rest) := readMark '#' rest
  let (zeros, rest) := if filled then (false, rest) else readMark '0' rest
  (⟨sign, negativeZero, alternate, zeros⟩, rest)

/-- The form, which is all that may be left of a layout. -/
def readForm (layout : List Char) : List Char → Except LayoutFault Char
  | [] => .ok 's'
  | [c] => .ok c
  | _ => .error (.malformed (String.ofList layout))

/-- Refuses a separator that a form does not have. -/
def checkSeparator (form : Char) : Option Char → Except LayoutFault Unit
  | none => .ok ()
  | some separator =>
    if takesSeparator separator form then .ok () else .error (.noSeparator separator form)

/-- Reads a layout. -/
def read (s : List Char) : Except LayoutFault Layout := do
  let (filler, alignment, rest) := readAlignment s
  let (marks, rest) := readMarks filler.isSome rest
  let (width, rest) ← readNumber rest
  let (separator, rest) ← readSeparator rest
  let (precision, rest) ← readPrecision rest
  let form ← readForm s rest
  checkSeparator form separator
  return {
    filler := filler.getD (if marks.zeros then '0' else ' ')
    alignment := alignment.getD .left
    sign := marks.sign
    negativeZero := marks.negativeZero
    alternate := marks.alternate
    width := width
    separator := separator
    precision := precision
    form := form }

/-! ## Setting a text -/

/-- What only a number can be asked for. -/
def refusal? (layout : Layout) : Option LayoutFault :=
  if layout.form ≠ 's' then some (.unknownForm layout.form)
  else if layout.sign = some ' ' then some .blankSign
  else if layout.sign.isSome then some .sign
  else if layout.negativeZero then some .negativeZero
  else if layout.alternate then some .alternate
  else if layout.alignment = .apart then some .innerFill
  else none

/-- A text in a column that has room for `room` more characters. In the middle, the right side has
the odd one. -/
def fillUp (layout : Layout) (room : Nat) (text : List Char) : List Char :=
  let before := match layout.alignment with
    | .left | .apart => 0
    | .middle => room / 2
    | .right => room
  List.replicate before layout.filler ++ text ++ List.replicate (room - before) layout.filler

/-- Sets a text: first it is cut, then its column is filled up. -/
def place (layout : Layout) (text : List Char) : Except LayoutFault (List Char) :=
  match layout.refusal? with
  | some fault => .error fault
  | none =>
    let text := match layout.precision with
      | some precision => text.take precision
      | none => text
    let room := layout.width.getD 0 - text.length
    if room ≤ Text.maxRun then .ok (layout.fillUp room text) else .error .tooWide

end Layout
end Nameless
