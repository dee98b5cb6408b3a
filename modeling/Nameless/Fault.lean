import Nameless.Pattern.Fault
import Nameless.Report
import Nameless.Text.Utf8
import Nameless.Text.Quoted

/-!
# What can go wrong

Errors are kept as causes, and worded in one place.

This file provides:
- `SyntaxFault`: how a text fails to be a term,
- `Defect`: a term of the wrong shape reached an operation,
- `Fault`, `Fault.report`: everything that is reported to the reader of the program,
- `Mishap`: what stops an operation without a report of its own, known by a kind and a message,
- `Failure`: the ways in which an operation ends without a result.
-/

namespace Nameless

/-! ## Faults -/

/-- How a text fails to be a term. Each cause arises at an offset of the text. -/
inductive SyntaxFault where
  /-- The text ends where a given character has to stand. -/
  | endedEarly (expected : Char)
  /-- Another character stands where a given one has to. -/
  | misplaced (expected : Char)
  /-- No name follows the sign of an abstraction. -/
  | unnamedBinder
  /-- The text ends where a term has to start. -/
  | incomplete
  /-- A character that starts no term stands where a term has to start. -/
  | unexpected
  /-- Text follows a complete term. -/
  | trailing
  deriving DecidableEq, Repr

/-- A term of the wrong shape for an operation. A node that belongs to another family of terms is
given by its label. -/
inductive Defect where
  | showReference (name : String)
  | showNode (label : String)
  | convertReference (name : String)
  | convertNode (label : String)
  | escapingIndex (index : Nat)
  | shiftNode (label : String)
  | substituteNode (label : String)
  deriving DecidableEq, Repr

/-- The causes of reported errors. -/
inductive Fault where
  | malformed (text : String) (cause : SyntaxFault) (offset : Nat)
  /-- A line that is no definition; the part to blame ends at `stop`. -/
  | notDefinition (line : String) (stop : Nat)
  /-- A reference to a name that is not defined, with the part of the expression to blame. -/
  | undefined (expr name : String) (start stop : Nat)
  | missingMain
  | unbound (name : String)
  | defect (cause : Defect)
  /-- A value that is no natural number, as it is written. -/
  | notNatural (written : String)
  | unreadableFile (path : String)
  /-- A report worded by the caller. -/
  | worded (report : Report)
  deriving DecidableEq, Repr

namespace SyntaxFault

/-- The message for a cause that arises in `text` where `rest` is left of it. -/
def phrase (text : String) (rest : List Char) : SyntaxFault → Phrase
  | endedEarly expected =>
    [.wording "'", .snippet text, .wording "' ended early, expected '",
      .snippet (String.singleton expected), .wording "'"]
  | misplaced expected =>
    [.wording "'", .snippet text, .wording "' has '", .snippet (String.ofList (rest.take 1)),
      .wording "' where '", .snippet (String.singleton expected), .wording "' was expected"]
  | unnamedBinder =>
    [.wording "'", .snippet text, .wording "' has an abstraction without a bound variable"]
  | incomplete =>
    [.wording "'", .snippet text, .wording "' ended before a λ-term was complete"]
  | unexpected =>
    [.wording "'", .snippet text, .wording "' has unexpected '",
      .snippet (String.ofList (rest.take 1)), .wording "'"]
  | trailing =>
    [.wording "'", .snippet text, .wording "' has trailing '", .snippet (String.ofList rest),
      .wording "'"]

/-- Where the part to blame stops: after one character, or at the end of the text. -/
def stop (text : String) (offset : Nat) : SyntaxFault → Nat
  | endedEarly _ | incomplete | trailing => text.length
  | misplaced _ | unnamedBinder | unexpected => offset + 1

end SyntaxFault

namespace Defect

/-- What an operation says about a shape it cannot handle, and the name or label it says it of. -/
def wording : Defect → String × String
  | showReference name => ("cannot show unresolved definition '", name)
  | showNode label => ("cannot show '", label)
  | convertReference name => ("definition '", name)
  | convertNode label => ("cannot convert '", label)
  | escapingIndex index => ("index '", toString index)
  | shiftNode label => ("cannot shift '", label)
  | substituteNode label => ("cannot substitute in '", label)

/-- What follows the name or label. -/
def ending : Defect → String
  | convertReference _ => "' was not resolved before conversion"
  | escapingIndex _ => "' escapes its term"
  | _ => "'"

end Defect

namespace Fault

/-- What the reader is told about a fault. -/
def report : Fault → Report
  | malformed text cause offset =>
    { category := .invalidSyntax
      phrase := cause.phrase text (text.toList.drop offset)
      expr := text
      start := offset
      stop := cause.stop text offset }
  | notDefinition line stop =>
    { category := .invalidSyntax
      phrase := [.wording "'", .snippet line, .wording "' is not of the form NAME = λ-term"]
      expr := line
      start := 0
      stop := stop }
  | undefined expr name start stop =>
    { category := .unknownDefinition
      phrase := [.wording "'", .snippet expr, .wording "' refers to undefined '", .snippet name,
        .wording "'"]
      expr := expr
      start := start
      stop := stop }
  | missingMain =>
    { category := .missingMain
      phrase := [.wording "no definition for '", .snippet "MAIN", .wording "'"]
      expr := "MAIN"
      start := 0
      stop := 4
      diagnosis := false }
  | unbound name =>
    { category := .unboundVariable
      phrase := [.wording "'", .snippet name, .wording "' is not bound by any abstraction"]
      expr := name
      start := 0
      stop := name.length }
  | defect cause =>
    { category := .structuralDefect
      phrase := [.wording cause.wording.1, .snippet cause.wording.2, .wording cause.ending]
      expr := cause.wording.2
      start := 0
      stop := cause.wording.2.length
      diagnosis := false
      internal := true }
  | notNatural written =>
    { phrase := [.wording "expected natural number, got '", .snippet written, .wording "'"]
      expr := written
      start := 0
      stop := written.length
      internal := true }
  | unreadableFile path =>
    { phrase := [.wording "'", .snippet path, .wording "' could not be opened"]
      expr := path
      start := 0
      stop := path.length
      diagnosis := false }
  | worded report => report

end Fault

/-! ## Mishaps -/

/-- What stops an operation without a report of its own. -/
inductive Mishap where
  /-- The index of a variable below zero. -/
  | negativeIndex (index : Int)
  /-- An identifier asked for by a number below zero. -/
  | negativeOrdinal (number : Int)
  /-- A numeral with more digits than are converted. -/
  | tooManyDigits (digits : Nat)
  /-- A number with more digits than are written. -/
  | tooLong
  /-- A numeral with a digit that has no place value. -/
  | notDecimal (text : String)
  /-- A file name with a null character. -/
  | nullInName
  | notUtf8 (fault : Utf8.Fault)
  | badDraft (fault : DraftFault)
  /-- A text that is no pattern. -/
  | badPattern (text : String) (fault : PatternFault)
  /-- An underline that cannot be written. -/
  | misfit (cause : Text.Misfit)
  /-- Anything else, given by its kind and message. -/
  | other (kind message : String)
  deriving DecidableEq, Repr

namespace Mishap

/-- The greatest number of digits that a number may have, as a numeral or when it is written. -/
def maxDigits : Nat := 4300

/-- The kind under which a mishap is known. -/
def kind : Mishap → String
  | negativeIndex _ => "ValueError"
  | negativeOrdinal _ => "ValueError"
  | tooManyDigits _ => "ValueError"
  | tooLong => "ValueError"
  | notDecimal _ => "ValueError"
  | nullInName => "ValueError"
  | notUtf8 _ => "UnicodeDecodeError"
  | badDraft (.template fault) => fault.kind
  | badDraft .noExpression => "IndexError"
  | badDraft (.noTemplate _) => "TypeError"
  | badDraft (.settled _) => "TypeError"
  | badPattern _ fault => fault.kind
  | misfit .beyondIndex => "OverflowError"
  | misfit .beyondMemory => "MemoryError"
  | other kind _ => kind

/-- The advice that follows a complaint about the number of digits. -/
def digitAdvice : String :=
  "; use sys.set_int_max_str_digits() to increase the limit"

/-- The name of an aspect in a complaint. -/
def aspectName : Aspect → String
  | .diagnosis => "diagnosis"
  | .internal => "internal"

/-- The family that complains about a missing template. -/
def templateOwner : Category → String
  | .structuralDefect => "StructuralDefect"
  | _ => "GenericException"

/-- The message of a mishap. -/
def message : Mishap → String
  | negativeIndex index => "Variable index must be non-negative, got " ++ toString index
  | negativeOrdinal number => "expected natural number, got " ++ toString number
  | tooManyDigits digits =>
    "Exceeds the limit (" ++ toString maxDigits ++
      " digits) for integer string conversion: value has " ++ toString digits ++ " digits" ++
      digitAdvice
  | tooLong =>
    "Exceeds the limit (" ++ toString maxDigits ++
      " digits) for integer string conversion" ++ digitAdvice
  | notDecimal text =>
    "invalid literal for int() with base 10: " ++
      String.ofList ((Text.quoted text.toList).take 200)
  | nullInName => "embedded null byte"
  | notUtf8 fault => fault.message
  | badDraft (.template fault) => fault.message
  | badDraft .noExpression => "list index out of range"
  | badDraft (.noTemplate category) =>
    templateOwner category ++ ".__init__() missing 1 required positional argument: 'msg'"
  | badDraft (.settled aspect) =>
    "dblc.lang.error.GenericException.__init__() got multiple values for keyword argument '" ++
      aspectName aspect ++ "'"
  | badPattern text fault => fault.message text.toList
  | misfit .beyondIndex => "cannot fit 'int' into an index-sized integer"
  | misfit .beyondMemory => ""
  | other _ message => message

/-- The digits of a number, unless there are too many of them. -/
def digits? (n : Nat) : Except Mishap (List Char) :=
  let digits := (toString n).toList
  if digits.length ≤ maxDigits then .ok digits else .error .tooLong

end Mishap

/-! ## Failures -/

/-- The status with which a run asks to end: a number, nothing, or a text. -/
inductive ExitStatus where
  | code (n : Int)
  | absent
  | text (s : String)
  deriving DecidableEq, Repr

/-- The ways in which an operation ends without a result. -/
inductive Failure where
  | fault (cause : Fault)
  /-- The nesting limit was reached. -/
  | tooDeep
  | mishap (cause : Mishap)
  /-- The user interrupted the operation. -/
  | interrupted
  /-- The run asks to end. -/
  | exit (status : ExitStatus)
  deriving DecidableEq, Repr

/-- What becomes of a text that is no pattern. The nesting limit is one failure, for patterns as for
terms. -/
def Failure.ofPattern (text : String) (fault : PatternFault) : Failure :=
  if fault.cause = .tooDeep then .tooDeep else .mishap (.badPattern text fault)

end Nameless
