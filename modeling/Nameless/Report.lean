import Nameless.Text.Phrase
import Nameless.Text.Slice
import Nameless.Text.Template.Fill

/-!
# Reports

A report is what a reader is told about an error or a warning: a message, the expression at fault
and the part of it that is to blame. The part is given by two signed bounds.

This file provides:
- `Category`: the families of errors,
- `Report`: one report, with `Report.message` and `Report.diagnose`, the expression with the part
  to blame underlined, and `Report.misfit?`, which tells that the underline cannot be written,
- `Draft`, `Draft.issue`: a report given by a template, which may be badly formed.
-/

namespace Nameless

/-- The families of errors. -/
inductive Category where
  | general
  | invalidSyntax
  | unknownDefinition
  | missingMain
  | unboundVariable
  | structuralDefect
  deriving DecidableEq, Repr

/-- An error or a warning as it is told. -/
structure Report where
  category : Category := .general
  phrase : Phrase
  /-- The expression at fault. -/
  expr : String
  /-- Where the part to blame starts. -/
  start : Int
  /-- Where the part to blame stops. -/
  stop : Int
  /-- Whether the expression is worth showing. -/
  diagnosis : Bool := true
  /-- Whether the interpreter is to blame and not the program. -/
  internal : Bool := false
  deriving DecidableEq, Repr

namespace Report

/-- The message without emphasis. -/
def message (r : Report) : String :=
  r.phrase.plain

/-- The bound at which the underline ends: the underline has one mark at least. -/
def underlineStop (r : Report) : Int :=
  max r.stop (r.start + 1)

/-- How many marks follow the first one of the underline. -/
def furtherMarks (r : Report) : Int :=
  r.underlineStop - r.start - 1

/-- The expression, and below it marks under the part to blame. -/
def diagnose (r : Report) (style : Style) (color : Color) : String :=
  let expr := r.expr.toList
  let stop := r.underlineStop
  let marks := '^' :: Text.fill '~' r.furtherMarks
  "  " ++ String.ofList (Text.before expr r.start) ++
    style.bold (some color) (String.ofList (Text.between expr r.start stop)) ++
    String.ofList (Text.after expr stop) ++ "\n" ++
    "  " ++ String.ofList (Text.fill ' ' r.start) ++
    style.bold (some color) (String.ofList marks)

/-- Why the underline cannot be written, if so: because of the blanks in front of it, or because of
its own length. -/
def misfit? (r : Report) : Option Text.Misfit :=
  (Text.misfit? r.start).orElse fun _ => Text.misfit? r.furtherMarks

/-- Whether the expression is shown below the message. -/
def showsDiagnosis (r : Report) : Bool :=
  !r.internal && r.expr != "" && r.diagnosis

/-- Why the expression cannot be shown below the message, if it is to be shown. -/
def shownMisfit? (r : Report) : Option Text.Misfit :=
  if r.showsDiagnosis then r.misfit? else none

end Report

/-! ## Drafts -/

/-- A report given by a template and its snippets. The first snippet is the expression at fault,
and a stop of `-1` means its end. Whether the expression is worth showing and who is to blame may be
left open. -/
structure Draft where
  category : Category := .general
  template : Option String := none
  snippets : List String := [""]
  start : Int := 0
  stop : Int := -1
  diagnosis : Option Bool := none
  internal : Option Bool := none
  deriving DecidableEq, Repr

/-- What a family of errors may settle for all its reports. -/
inductive Aspect where
  | diagnosis
  | internal
  deriving DecidableEq, Repr

/-- What can be wrong with a draft. -/
inductive DraftFault where
  /-- There is no template, and the family has no wording of its own. -/
  | noTemplate (category : Category)
  /-- The draft decides what its family settles. -/
  | settled (aspect : Aspect)
  | template (fault : TemplateFault)
  /-- There is no expression at fault. -/
  | noExpression
  deriving DecidableEq, Repr

namespace Category

/-- Whether reports of this family show the expression at fault, if the family settles it. -/
def diagnosis? : Category → Option Bool
  | missingMain => some false
  | structuralDefect => some false
  | _ => none

/-- Whether reports of this family blame the interpreter, if the family settles it. -/
def internal? : Category → Option Bool
  | structuralDefect => some true
  | _ => none

end Category

namespace Draft

/-- The draft that a family of errors starts from. Only a missing main definition has a wording of
its own. -/
def ofCategory : Category → Draft
  | .missingMain =>
    { category := .missingMain
      template := some "no definition for '\x7b\x7d'"
      snippets := ["MAIN"] }
  | category => { category := category }

/-- What is wrong with a draft before its template is looked at. -/
def obstacle? (d : Draft) : Option DraftFault :=
  if d.template.isNone then some (.noTemplate d.category)
  else if d.diagnosis.isSome && d.category.diagnosis?.isSome then some (.settled .diagnosis)
  else if d.internal.isSome && d.category.internal?.isSome then some (.settled .internal)
  else none

/-- The message of a draft, with its snippets as a style prints them. -/
def wording (d : Draft) (style : Style) : Except DraftFault String :=
  match Template.fill (d.template.getD "") (d.snippets.map (style.bold none)) with
  | .ok text => .ok text
  | .error fault => .error (.template fault)

/-- The report that a draft describes. Its message is worded with stressed snippets first, then the
expression at fault is looked up, and last the message is worded without emphasis. -/
def issue (d : Draft) (style : Style) : Except DraftFault Report := do
  if let some fault := d.obstacle? then throw fault
  let stressed ← d.wording style
  match d.snippets with
  | [] => .error .noExpression
  | expr :: _ =>
    let plain ← d.wording .plain
    return {
      category := d.category
      phrase := [.prepared plain stressed]
      expr := expr
      start := d.start
      stop := if d.stop = -1 then expr.length else d.stop
      diagnosis := (d.category.diagnosis?.or d.diagnosis).getD true
      internal := (d.category.internal?.or d.internal).getD false }

end Draft
end Nameless
