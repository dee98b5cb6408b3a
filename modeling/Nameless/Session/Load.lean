import Nameless.Session.Basic

/-!
# Adding definitions to a session

A line is added by reading it, warning if its name is defined already, and setting the definition.
The line is on record with the reporter while it is being worked on, and stays there when it fails.
A program is added line by line, and the first failure ends it.

This file provides:
- `Task`, `Line.tasks`: a line to be worked on, and those of a program,
- `Session.add`: one line,
- `Session.addAll`, `Session.load`: several lines, and a program.
-/

namespace Nameless

/-- A line to be worked on, with its number if it has one. -/
structure Task where
  line : String
  number : Option Int
  deriving DecidableEq, Repr

/-- The lines of a program that are neither blank nor comments, with their numbers. -/
def Line.tasks (number : Nat) : List (List Char) → List Task
  | [] => []
  | line :: rest =>
    match content line with
    | [] => tasks (number + 1) rest
    | content => ⟨String.ofList content, some number⟩ :: tasks (number + 1) rest

namespace Session

/-- The warning that a line redefines a name. -/
def redefinition (line name : String) : Report where
  phrase := [.wording "'", .snippet line, .wording "' redefines '", .snippet name, .wording "'"]
  expr := line
  start := 0
  stop := name.length

/-- Adds a line that is a definition. -/
def add (s : Session) (line : String) (number : Option Int) (reporter : Reporter) :
    Outcome (Named Empty) :=
  let reporter := reporter.record s.path (some line) number
  match s.readDefinition line with
  | .error failure => ⟨.error failure, s, reporter⟩
  | .ok (name, t) =>
    let reporter :=
      if (s.definitions.find? name).isSome then reporter.warn (redefinition line name)
      else reporter
    ⟨.ok t, { s with definitions := s.definitions.put name t }, reporter.clear s.path⟩

/-- Adds lines one after the other until one fails. -/
def addAll (s : Session) (reporter : Reporter) : List Task → Outcome Unit
  | [] => ⟨.ok (), s, reporter⟩
  | task :: rest =>
    match s.add task.line task.number reporter with
    | ⟨.error failure, s, reporter⟩ => ⟨.error failure, s, reporter⟩
    | ⟨.ok _, s, reporter⟩ => s.addAll reporter rest

/-- Adds the definitions of a program. -/
def load (s : Session) (program : List Char) (reporter : Reporter) : Outcome Unit :=
  s.addAll reporter (Line.tasks 1 (Text.lines program))

/-! ## Failures -/

/-- A line that fails leaves the session as it was. -/
theorem session_add_of_error {s : Session} {line : String} {number : Option Int}
    {reporter : Reporter} {failure : Failure}
    (h : (s.add line number reporter).result = .error failure) :
    (s.add line number reporter).session = s := by
  unfold add at h ⊢
  split
  · rfl
  · next heq => simp [heq] at h

end Session
end Nameless
