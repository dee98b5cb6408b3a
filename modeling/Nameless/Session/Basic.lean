import Nameless.Conversion
import Nameless.Definitions
import Nameless.Named.Numeral
import Nameless.Named.Parser
import Nameless.Raw
import Nameless.Reporter
import Nameless.Session.Line
import Nameless.Text.Digit

/-!
# Sessions

A session holds the definitions of a program. Terms that are read in a session may refer to its
definitions; reading a term resolves the references, so that what a session keeps and reduces is
free of them.

A session works under a reporter, which may serve several sessions. Operations take the reporter as
it is and give it back as it is afterwards; those that may change the table give back the session
as well, also when they fail.

This file provides:
- `Session`, `Outcome`: the state, and what an operation leaves behind,
- `Session.lookup`, `Session.resolve`: what a reference stands for, and a term without references,
- `Session.fetch`: what a reference is replaced by, which has to be copied,
- `Session.readTerm`, `Session.readDefinition`: reading with references resolved.
-/

namespace Nameless

/-- The path of a program that comes from no file. -/
def standardInput : String := "<stdin>"

/-- The state of a session. -/
structure Session where
  /-- The source of the program, for messages. -/
  path : String := standardInput
  /-- Whether references made of digits are numerals, and numerals are printed as numbers. -/
  numerals : Bool := false
  /-- Whether free variables may stand in terms that are reduced. -/
  allowFree : Bool := false
  definitions : Definitions := []
  limits : Bounds := .standard
  deriving Repr

/-- What an operation on a session leaves behind. -/
structure Outcome (α : Type) where
  result : Except Failure α
  session : Session
  reporter : Reporter

namespace Session

/-- The name of the definition that a program computes. -/
def mainName : String := "MAIN"

/-- The kind under which contractions are counted. -/
def contraction : String := "β"

/-- Opens a session under a reporter. -/
def register (s : Session) (reporter : Reporter) : Reporter :=
  reporter.clear s.path

/-! ## Resolving references -/

/-- The number that a reference made of digits denotes. -/
def number? (name : List Char) : Except Mishap Nat :=
  let places := name.takeWhile fun c => (Text.decimalValue? c).isSome
  if places.length > Mishap.maxDigits then .error (.tooManyDigits places.length)
  else
    match Text.readDecimal name with
    | some n => .ok n
    | none => .error (.notDecimal (String.ofList name))

/-- The complaint about a reference in `expr` to a name that is not defined. It blames the first
place where the name stands as a word, or all of the expression if there is none. A name that is no
pattern cannot be looked for. -/
def undefinedIn (expr name : String) : Failure :=
  match Line.span? name.toList expr.toList with
  | .ok (some (start, stop)) => .fault (.undefined expr name start stop)
  | .ok none => .fault (.undefined expr name 0 expr.length)
  | .error failure => failure

/-- The term that a reference in `expr` stands for: a definition, or a numeral. -/
def lookup (s : Session) (expr name : String) : Except Failure (Named Empty) :=
  match s.definitions.find? name with
  | some t => .ok t
  | none =>
    if s.numerals && Text.isDigits name.toList then
      match number? name.toList with
      | .ok n => .ok (Named.numeral n)
      | .error m => .error (.mishap m)
    else .error (undefinedIn expr name)

/-- A term with its references resolved. `expr` is the text that the term was read from. -/
def resolve (s : Session) (expr : String) (t : Named Reference) : Except Failure (Named Empty) :=
  t.expand? fun r => s.lookup expr r.name

/-- A tree with its references resolved, seen as a named term. Other leaves are kept. -/
def resolveRaw (s : Session) (expr : String) (t : Named Raw) : Except Failure (Named Raw) :=
  t.expand? fun
    | .ref name => (s.lookup expr name).map Named.embed
    | x => .ok (.leaf x)

/-- What a reference in `expr` is replaced by: a copy of what it stands for. Numerals are made anew,
but definitions have to be copied level by level. -/
def fetch (s : Session) (expr name : String) : Except Failure (Named Empty) :=
  match s.definitions.find? name with
  | some t => if t.height ≤ s.limits.copying then .ok t else .error .tooDeep
  | none => s.lookup expr name

/-- Reads a term and replaces its references, within the bounds of the session. -/
def readTerm (s : Session) (expr : String) : Except Failure (Named Empty) := do
  let t ← Named.parse s.limits.parsing expr
  t.expand? fun r => s.fetch expr r.name

/-- Reads a definition and replaces the references in its term. -/
def readDefinition (s : Session) (line : String) : Except Failure (String × Named Empty) := do
  let (name, expr) ← Failure.ofFault (Line.split line)
  let t ← s.readTerm expr
  return (name, t)

end Session
end Nameless
