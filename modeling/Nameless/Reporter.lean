import Nameless.Fault

/-!
# The reporter

The reporter is told what is being worked on and turns failures into printed reports. It remembers,
for every source of program text, the line that is being worked on, and it counts the contractions
of a run. A fatal reporter ends the run after an error, any other one lets it go on.

This file provides:
- `Entry`, `Traceback.set`: the line in progress of each source, in the order of the sources,
- `Reporter`, with `record` and `clear` for lines, `count` and `step` for contractions,
- `Reporter.warn`, `Reporter.throw`: printing a warning and an error,
- `Reporter.warnWorded`, `Reporter.throwWorded`: the same for reports worded by the caller,
- `Reporter.leave`, `Reporter.guard`: what becomes of a failure, and of a result, at the end of a
  guarded operation.
-/

namespace Nameless

/-! ## Lines in progress -/

/-- The line of a source that is being worked on, and its number. -/
structure Entry where
  path : String
  line : Option String := none
  number : Option Int := none
  deriving DecidableEq, Repr

namespace Entry

/-- The number of the line, as it is printed. -/
def numberText (e : Entry) : String :=
  match e.number with
  | some n => toString n
  | none => "None"

/-- The entry of a source of which no line is being worked on. -/
def idle (path : String) : Entry where
  path := path

end Entry

namespace Traceback

/-- Sets the entry of a source. A source that is known keeps its place, a new one comes last. -/
def set (e : Entry) : List Entry → List Entry
  | [] => [e]
  | first :: rest => if first.path = e.path then e :: rest else first :: set e rest

/-- The entry of a source. -/
def find? (path : String) (entries : List Entry) : Option Entry :=
  List.find? (fun e => decide (e.path = path)) entries

/-- The sources, in order. -/
def paths (entries : List Entry) : List String :=
  entries.map Entry.path

theorem find?_set_self (e : Entry) (entries : List Entry) :
    find? e.path (set e entries) = some e := by
  induction entries with
  | nil => simp [set, find?]
  | cons first rest ih =>
    by_cases h : first.path = e.path
    · simp [set, find?, h]
    · simpa [set, find?, h] using ih

/-- Setting the entry of a known source keeps the sources and their order. -/
theorem paths_set_of_mem {e : Entry} {entries : List Entry} (h : e.path ∈ paths entries) :
    paths (set e entries) = paths entries := by
  induction entries with
  | nil => simp [paths] at h
  | cons first rest ih =>
    by_cases hf : first.path = e.path
    · simp [set, paths, hf]
    · have hr : e.path ∈ paths rest := by
        simpa [paths, Ne.symm hf] using h
      simpa [set, paths, hf] using ih hr

end Traceback

/-! ## The reporter -/

/-- Who is told about a run, and what has been told so far. -/
structure Reporter where
  /-- Whether an error ends the run. -/
  fatal : Bool := true
  /-- Whether every contraction is printed. -/
  verbose : Bool := false
  style : Style := .plain
  traceback : List Entry := []
  /-- How many contractions there were. -/
  steps : Nat := 0
  /-- Everything printed so far. -/
  printed : String := ""
  deriving Repr

namespace Reporter

/-- Prints a line. -/
def print (r : Reporter) (text : String) : Reporter :=
  { r with printed := r.printed ++ text ++ "\n" }

/-- Notes the line of a source that is being worked on. -/
def record (r : Reporter) (path : String) (line : Option String) (number : Option Int) :
    Reporter :=
  { r with traceback := Traceback.set ⟨path, line, number⟩ r.traceback }

/-- Notes that no line of a source is being worked on. -/
def clear (r : Reporter) (path : String) : Reporter :=
  r.record path none none

/-- Notes that no line of any source is being worked on. -/
def clearAll (r : Reporter) : Reporter :=
  { r with traceback := r.traceback.map fun e => .idle e.path }

/-- Counts a step. -/
def count (r : Reporter) : Reporter :=
  { r with steps := r.steps + 1 }

/-- Counts a step of a given kind, and prints it if the reporter is verbose. -/
@[inline] def step (r : Reporter) (kind text : String) : Reporter :=
  let r := r.count
  if r.verbose then r.print (r.style.bold (some .cyan) (kind ++ " ") ++ text) else r

/-- The place of the last line in progress, as it stands in front of a warning. -/
def location (r : Reporter) : String :=
  match r.traceback.reverse.find? fun e => e.line.isSome with
  | some e => r.style.bold none (e.path ++ ":" ++ e.numberText ++ ": ")
  | none => ""

/-- Prints the expression at fault, if the report asks for it. -/
def printDiagnosis (r : Reporter) (report : Report) (color : Color) : Reporter :=
  if report.showsDiagnosis then r.print (report.diagnose r.style color) else r

/-- Prints a warning. -/
def warn (r : Reporter) (report : Report) : Reporter :=
  let heading := r.style.bold (some .magenta) "warning: "
  (r.print (r.location ++ heading ++ report.phrase.styled r.style)).printDiagnosis report .magenta

/-- The line in progress of one source, as it stands in front of an error. An empty line is not
shown. -/
def entryText (e : Entry) : String :=
  match e.line with
  | none => ""
  | some line =>
    if line = "" then ""
    else "  File '" ++ e.path ++ "', line " ++ e.numberText ++ ":\n    " ++ line ++ "\n"

/-- The lines in progress, as they stand in front of an error. -/
def tracebackText (r : Reporter) : String :=
  let entries := r.traceback.foldr (fun e rest => entryText e ++ rest) ""
  if entries = "" then "" else "Traceback:\n" ++ entries

/-- Prints an error without ending the run. -/
def printError (r : Reporter) (report : Report) : Reporter :=
  let blame := if report.internal then r.style.bold (some .red) "[internal] " else ""
  let heading := r.style.bold (some .red) "error: "
  (r.print (r.tracebackText ++ blame ++ heading ++ report.phrase.styled r.style)).printDiagnosis
    report .red

/-- Prints an error. A fatal reporter then asks the run to end, and any other one forgets the lines
in progress. -/
def throw (r : Reporter) (report : Report) : Reporter × Option Failure :=
  let r := r.printError report
  if r.fatal then (r, some (.exit (.code 1))) else (r.clearAll, none)

/-! ## Reports worded by the caller

The library's own reports point into their expression. A report worded by the caller may point
anywhere, and ask for an underline that cannot be written: then its message is printed, and the
attempt to print the underline fails. -/

/-- Prints a warning worded by the caller. -/
def warnWorded (r : Reporter) (report : Report) : Reporter × Option Failure :=
  match report.shownMisfit? with
  | none => (r.warn report, none)
  | some cause => (r.warn { report with diagnosis := false }, some (.mishap (.misfit cause)))

/-- Prints an error worded by the caller. -/
def throwWorded (r : Reporter) (report : Report) : Reporter × Option Failure :=
  match report.shownMisfit? with
  | none => r.throw report
  | some cause => (r.printError { report with diagnosis := false }, some (.mishap (.misfit cause)))

/-! ## Leaving a guarded operation -/

/-- The report on an interruption. -/
def interruption : Report where
  phrase := [.wording "keyboard interrupt"]
  expr := ""
  start := 0
  stop := 0
  diagnosis := false

/-- The report on a run that went too deep. -/
def exhaustion : Report where
  phrase := [.wording "normal form might exist, but maximum recursion depth exceeded"]
  expr := ""
  start := 0
  stop := 0

/-- The report on a mishap. Its wording is used as a template with one empty snippet, so a mishap
whose own wording holds braces may be told differently, or not be reportable. -/
def unknownError (m : Mishap) : Draft where
  template := some ("unknown error: '" ++ m.kind ++ ": " ++ m.message ++ "'")
  internal := some true

/-- What becomes of a failure at the end of a guarded operation: it is reported, and either it is
suppressed or a failure escapes. Mishaps are reported and escape all the same. -/
def leave (r : Reporter) : Failure → Reporter × Option Failure
  | .fault (.worded report) => r.throwWorded report
  | .fault cause => r.throw cause.report
  | .tooDeep => r.throw exhaustion
  | .interrupted => r.throw interruption
  | .exit status => (r, some (.exit status))
  | .mishap cause =>
    match (unknownError cause).issue r.style with
    | .error fault => (r, some (.mishap (.badDraft fault)))
    | .ok report =>
      match r.throw report with
      | (r, some failure) => (r, some failure)
      | (r, none) => (r, some (.mishap cause))

end Reporter

/-- What is known after a guarded operation: its result, or that a failure was suppressed. -/
inductive Guarded (α : Type) where
  | completed (result : α)
  | suppressed
  deriving DecidableEq, Repr

namespace Reporter

/-- Ends a guarded operation under a reporter. -/
def guard {α : Type} (result : Except Failure α) (r : Reporter) :
    Except Failure (Guarded α) × Reporter :=
  match result with
  | .ok a => (.ok (.completed a), r)
  | .error failure =>
    match r.leave failure with
    | (r, none) => (.ok .suppressed, r)
    | (r, some failure) => (.error failure, r)

@[simp] theorem guard_ok {α : Type} (a : α) (r : Reporter) :
    guard (.ok a) r = (.ok (.completed a), r) := rfl

end Reporter
end Nameless
