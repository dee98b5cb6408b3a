import Nameless.Session.Basic

/-!
# Computing in a session

Reducing a term reports every contraction. Neither reducing nor evaluating changes the definitions,
so these operations give back the reporter only.

A verbose reporter is told each redex as a text. A redex that is too high for that is counted, and
then reducing fails.

This file provides:
- `Session.mainTerm`, `Session.run`: what the program computes, and its normal form,
- `Session.reduction`, `Session.reduce`, `Session.evaluate`: the normal form of a term, and of an
  expression,
- `Session.text`, `Session.text?`: how a session prints a term,
- `Session.overrun?`, `Session.show?`: the same within the bounds of the session.
-/

namespace Nameless
namespace Session

/-- The term that the program computes. -/
def mainTerm (s : Session) : Except Failure (Named Empty) :=
  match s.definitions.find? mainName with
  | some t => .ok t
  | none => .error (.fault .missingMain)

/-- The reduction of a term within the bounds of a session, with a trace or without one. -/
def reduction {ρ : Type} [Leaf ρ] (s : Session) (traced : Bool) (t : Named ρ) :
    Reduction Empty (Named Empty) :=
  t.reduceIn? s.limits traced s.allowFree

/-- Counts a contraction, and tells it unless the redex is too high to be written. -/
def noteRedex (s : Session) (reporter : Reporter) (redex : Indexed Empty) : Reporter :=
  if redex.height ≤ s.limits.tracing then reporter.step contraction redex.text else reporter.count

/-- Reduces a term to normal form and counts the contractions. -/
def reduce {ρ : Type} [Leaf ρ] (s : Session) (t : Named ρ) (reporter : Reporter) :
    Except Failure (Named Empty) × Reporter :=
  let r := s.reduction reporter.verbose t
  (r.result, r.redexes.foldl s.noteRedex reporter)

/-- Reduces what the program computes. -/
def run (s : Session) (reporter : Reporter) : Except Failure (Named Empty) × Reporter :=
  match s.mainTerm with
  | .error failure => (.error failure, reporter)
  | .ok t => s.reduce t reporter

/-- Reads a term, replaces its references and reduces it. -/
def evaluate (s : Session) (expr : String) (number : Option Int) (reporter : Reporter) :
    Except Failure (Named Empty) × Reporter :=
  let reporter := reporter.record s.path (some expr) number
  match s.readTerm expr with
  | .error failure => (.error failure, reporter)
  | .ok t =>
    match s.reduce t reporter with
    | (.error failure, reporter) => (.error failure, reporter)
    | (.ok u, reporter) => (.ok u, reporter.clear s.path)

/-! ## Printing -/

/-- The text of a term, however long: a number if it is a numeral and numerals are on. -/
def text (s : Session) (t : Named Empty) : String :=
  match s.numerals, t.numeral? with
  | true, some n => toString n
  | _, _ => t.text

/-- The text of any term, which a leaf may make impossible. -/
def text? {ρ : Type} [Leaf ρ] (s : Session) (t : Named ρ) : Except Fault String :=
  match s.numerals, t.numeral? with
  | true, some n => .ok (toString n)
  | _, _ => t.text?

@[simp] theorem text?_empty (s : Session) (t : Named Empty) : s.text? t = .ok (s.text t) := by
  unfold text? text
  split <;> simp

/-- What keeps a term from being printed: as a number too many digits, as a term too many levels. -/
def overrun? {ρ : Type} (s : Session) (t : Named ρ) : Option Failure :=
  match s.numerals, t.numeral? with
  | true, some n =>
    match Mishap.digits? n with
    | .ok _ => none
    | .error cause => some (.mishap cause)
  | _, _ => if t.height ≤ s.limits.printing then none else some .tooDeep

/-- Prints a term within the bounds of a session. -/
def show? {ρ : Type} [Leaf ρ] (s : Session) (t : Named ρ) : Except Failure String :=
  match s.overrun? t with
  | some failure => .error failure
  | none => Failure.ofFault (s.text? t)

/-- A term without leaves is printed unless it is too long or too high. -/
theorem show?_empty (s : Session) (t : Named Empty) :
    s.show? t =
      match s.overrun? t with
      | some failure => .error failure
      | none => .ok (s.text t) := by
  rw [show?, text?_empty]
  rfl

end Session
end Nameless
