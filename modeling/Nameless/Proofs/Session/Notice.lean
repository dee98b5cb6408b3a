import Nameless.Proofs.Session.Failures
import Nameless.Session.Load

/-!
# What a reporter is told

While a session works, its reporter is told of lines that define a name anew, of contractions, and
of the failure at the end if there is one. Each of these is one notice, and what is printed is the
text of the notices one after the other. A warning starts with the place of its line. An error shows
the line in progress, and a reporter that was at rest before the line is at rest again after the
error has been told, unless the error ends the run.

This file defines:
- `Task.entry`, `Task.placeText`, `Task.traceText`: how a line stands in front of a warning and of
  an error,
- `Notice`, `Notice.text`: what a reporter tells, one thing at a time, and how it is printed,
- `Reporter.tell`, `Reporter.during`: the reporter after some notices, and while a line is worked
  on,
- `Session.traced`: the redexes that a session writes down.

Main statements:
- `Reporter.AtRest.leave_of_fatal_during`, `Reporter.AtRest.leave_during`: what a failure leaves of
  a line in progress,
- `Session.reduce_eq`, `Session.evaluate_of_unreduced`, `Session.evaluate_of_reduced`: what reducing
  a term and evaluating an expression tell.
-/

namespace Nameless

/-! ## Lines in progress -/

namespace Task

def entry (path : String) (task : Task) : Entry where
  path := path
  line := some task.line
  number := task.number

/-- The line as it stands in front of a warning: its source and its number. -/
def placeText (style : Style) (path : String) (task : Task) : String :=
  style.bold none (path ++ ":" ++ (task.entry path).numberText ++ ": ")

/-- The line in progress as it stands in front of an error, which is one entry at most. An empty
line is not shown. -/
def traceText (path : String) : Option Task → String
  | none => ""
  | some task =>
    if task.line = "" then "" else "Traceback:\n" ++ Reporter.entryText (task.entry path)

end Task

/-! ## Notices -/

/-- A line that defines a name anew. -/
structure Redefinition where
  task : Task
  name : String
  deriving DecidableEq, Repr

/-- What a reporter tells, one thing at a time. -/
inductive Notice where
  | redefinition (warning : Redefinition)
  | contraction (redex : Indexed Empty)
  /-- How many contractions there were. -/
  | summary (count : Nat)
  /-- A failure, and the line in progress if there is one. -/
  | error (task : Option Task) (failure : Failure)
  deriving DecidableEq, Repr

namespace Notice

def isError : Notice → Bool
  | error _ _ => true
  | _ => false

/-- What is printed of a notice about a source. -/
def text (style : Style) (path : String) : Notice → String
  | redefinition w =>
    Reporter.warningText style (w.task.placeText style path)
      (Session.redefinition w.task.line w.name)
  | contraction redex => Reporter.stepText style Session.contraction redex.text
  | summary count =>
    style.bold (some .cyan) ("normal form reached after " ++ toString count ++ " β-reductions") ++
      "\n"
  | error task failure =>
    match failure.report? with
    | some report => Reporter.errorText style (Task.traceText path task) report
    | none => ""

theorem text_error {failure : Failure} {report : Report} (h : failure.ToldAs report)
    (style : Style) (path : String) (task : Option Task) :
    (error task failure).text style path =
      Reporter.errorText style (Task.traceText path task) report := by
  have hreport : failure.report? = some report := h
  simp only [text, hreport]

/-- What is printed of notices one after the other. -/
def texts (style : Style) (path : String) (notices : List Notice) : String :=
  notices.foldr (fun notice rest => notice.text style path ++ rest) ""

@[simp] theorem texts_nil (style : Style) (path : String) : texts style path [] = "" := rfl

@[simp] theorem texts_singleton (style : Style) (path : String) (notice : Notice) :
    texts style path [notice] = notice.text style path := by
  simp [texts]

theorem texts_append (style : Style) (path : String) (ms ns : List Notice) :
    texts style path (ms ++ ns) = texts style path ms ++ texts style path ns := by
  induction ms with
  | nil => simp
  | cons m ms ih =>
    show m.text style path ++ texts style path (ms ++ ns) = _
    rw [ih, ← String.append_assoc]
    rfl

/-- The contractions that a reporter tells: all of them if it is verbose, and none otherwise. -/
def contractions (verbose : Bool) (redexes : List (Indexed Empty)) : List Notice :=
  if verbose then redexes.map .contraction else []

@[simp] theorem contractions_nil (verbose : Bool) : contractions verbose [] = [] := by
  cases verbose <;> rfl

theorem texts_contractions (style : Style) (path : String) (verbose : Bool)
    (redexes : List (Indexed Empty)) :
    texts style path (contractions verbose redexes) =
      if verbose then Reporter.stepTexts style Session.contraction (redexes.map Indexed.text)
      else "" := by
  cases verbose with
  | false => rfl
  | true =>
    simp only [contractions, if_true]
    induction redexes with
    | nil => rfl
    | cons redex rest ih =>
      show Notice.text style path (.contraction redex) ++
        texts style path (rest.map .contraction) = _
      rw [ih]
      rfl

theorem isError_of_mem_contractions {verbose : Bool} {redexes : List (Indexed Empty)}
    {notice : Notice} (h : notice ∈ contractions verbose redexes) : notice.isError = false := by
  cases verbose with
  | false => cases h
  | true =>
    rcases List.mem_map.1 h with ⟨redex, _, rfl⟩
    rfl

theorem isError_of_mem_redefinitions {warnings : List Redefinition} {notice : Notice}
    (h : notice ∈ warnings.map redefinition) : notice.isError = false := by
  rcases List.mem_map.1 h with ⟨warning, _, rfl⟩
  rfl

end Notice

/-! ## Telling -/

namespace Reporter

/-- The reporter after `count` contractions and some notices about a source. -/
def tell (r : Reporter) (path : String) (count : Nat) (notices : List Notice) : Reporter :=
  r.note count (Notice.texts r.style path notices)

@[simp] theorem tell_nothing (r : Reporter) (path : String) : r.tell path 0 [] = r :=
  note_nothing r

theorem tell_tell (r : Reporter) (path : String) (m n : Nat) (ms ns : List Notice) :
    (r.tell path m ms).tell path n ns = r.tell path (m + n) (ms ++ ns) := by
  simp [tell, Notice.texts_append]

theorem atRest_tell {r : Reporter} {path other : String} {n : Nat} {ns : List Notice} :
    (r.tell other n ns).AtRest path ↔ r.AtRest path :=
  atRest_note

/-- The reporter while a line of a source is worked on, if it is one. -/
def during (r : Reporter) (path : String) : Option Task → Reporter
  | none => r
  | some task => r.record path (some task.line) task.number

@[simp] theorem fatal_during (r : Reporter) (path : String) (task : Option Task) :
    (r.during path task).fatal = r.fatal := by
  cases task <;> rfl

@[simp] theorem verbose_during (r : Reporter) (path : String) (task : Option Task) :
    (r.during path task).verbose = r.verbose := by
  cases task <;> rfl

@[simp] theorem style_during (r : Reporter) (path : String) (task : Option Task) :
    (r.during path task).style = r.style := by
  cases task <;> rfl

@[simp] theorem steps_during (r : Reporter) (path : String) (task : Option Task) :
    (r.during path task).steps = r.steps := by
  cases task <;> rfl

@[simp] theorem printed_during (r : Reporter) (path : String) (task : Option Task) :
    (r.during path task).printed = r.printed := by
  cases task <;> rfl

theorem tell_during (r : Reporter) (path : String) (task : Option Task) (n : Nat)
    (ns : List Notice) :
    (r.during path task).tell path n ns = (r.tell path n ns).during path task := by
  cases task <;> rfl

/-- Whether or not something escapes, the reporter is left in the same way. -/
theorem guard_error {α : Type} (failure : Failure) (r : Reporter) :
    (guard (.error failure : Except Failure α) r).2 = (r.leave failure).1 := by
  unfold guard
  simp only
  rcases r.leave failure with ⟨r', _ | escaping⟩ <;> rfl

theorem guard_map {α β : Type} (f : α → β) (result : Except Failure α) (r : Reporter) :
    (guard (result.map f) r).2 = (guard result r).2 := by
  cases result with
  | error failure => exact (guard_error failure r).trans (guard_error failure r).symm
  | ok a => rfl

namespace AtRest

variable {r : Reporter} {path : String}

theorem tracebackText_during (h : r.AtRest path) (task : Option Task) :
    (r.during path task).tracebackText = Task.traceText path task := by
  cases task with
  | none => exact h.tracebackText_eq
  | some task => exact h.tracebackText_record task.line task.number

theorem clearAll_during (h : r.AtRest path) (task : Option Task) :
    (r.during path task).clearAll = r := by
  cases task with
  | none =>
    exact congrArg (fun entries => { r with traceback := entries }) (Traceback.map_idle h.idle)
  | some task => exact h.clearAll_record (some task.line) task.number

theorem clear_during (h : r.AtRest path) (task : Task) :
    (r.during path (some task)).clear path = r :=
  h.clear_record (some task.line) task.number

variable {failure : Failure} {report : Report}

/-- An error is told with the line in progress and nothing else. -/
theorem printError_during (h : r.AtRest path) (htold : failure.ToldAs report)
    (task : Option Task) :
    (r.during path task).printError report =
      (r.tell path 0 [.error task failure]).during path task := by
  rw [← tell_during, tell, printError_eq_note, h.tracebackText_during, Notice.texts_singleton,
    Notice.text_error htold]

/-- A failure that ends the run leaves the line in progress. -/
theorem leave_of_fatal_during (h : r.AtRest path) (hfatal : r.fatal = true)
    (htold : failure.ToldAs report) (task : Option Task) :
    (r.during path task).leave failure =
      ((r.tell path 0 [.error task failure]).during path task, some (.exit (.code 1))) := by
  have hends : (r.during path task).fatal = true := by simp [hfatal]
  rw [leave_of_fatal htold hends, h.printError_during htold]

/-- After any other failure no line is in progress. -/
theorem leave_during (h : r.AtRest path) (hfatal : r.fatal = false)
    (htold : failure.ToldAs report) (task : Option Task) :
    (r.during path task).leave failure =
      (r.tell path 0 [.error task failure], failure.escaping?) := by
  have hopen : (r.during path task).fatal = false := by simp [hfatal]
  have hrest : (r.tell path 0 [.error task failure]).AtRest path := atRest_tell.2 h
  rw [leave_of_not_fatal htold hopen, h.printError_during htold, hrest.clearAll_during]

theorem guard_error_during {α : Type} (h : r.AtRest path) (hfatal : r.fatal = false)
    (htold : failure.ToldAs report) (task : Option Task) :
    (guard (.error failure : Except Failure α) (r.during path task)).2 =
      r.tell path 0 [.error task failure] := by
  rw [guard_error, h.leave_during hfatal htold]

end AtRest
end Reporter

/-! ## Reducing -/

namespace Session

/-- The redexes that are low enough to be written down. -/
def traced (s : Session) (redexes : List (Indexed Empty)) : List (Indexed Empty) :=
  redexes.filter fun redex => decide (redex.height ≤ s.limits.tracing)

theorem traced_eq_self {s : Session} {redexes : List (Indexed Empty)}
    (h : ∀ redex ∈ redexes, redex.height ≤ s.limits.tracing) : s.traced redexes = redexes :=
  List.filter_eq_self.2 fun redex hredex => decide_eq_true (h redex hredex)

theorem noteRedex_eq (s : Session) (path : String) (r : Reporter) (redex : Indexed Empty) :
    s.noteRedex r redex = r.tell path 1 (Notice.contractions r.verbose (s.traced [redex])) := by
  unfold noteRedex
  by_cases hheight : redex.height ≤ s.limits.tracing
  · have htraced : s.traced [redex] = [redex] := traced_eq_self (by simpa using hheight)
    rw [if_pos hheight, htraced, Reporter.step_eq_note, Reporter.tell, Notice.texts_contractions]
    cases r.verbose with
    | false => rfl
    | true => simp [Reporter.stepTexts]
  · have htraced : s.traced [redex] = [] := by simp [traced, hheight]
    rw [if_neg hheight, htraced, Reporter.count_eq_note, Reporter.tell, Notice.contractions_nil,
      Notice.texts_nil]

/-- Every redex is counted, and those that can be written down are told. -/
theorem foldl_noteRedex (s : Session) (path : String) (redexes : List (Indexed Empty))
    (r : Reporter) :
    redexes.foldl s.noteRedex r =
      r.tell path redexes.length (Notice.contractions r.verbose (s.traced redexes)) := by
  induction redexes generalizing r with
  | nil => simp [traced]
  | cons redex rest ih =>
    have hsplit : s.traced (redex :: rest) = s.traced [redex] ++ s.traced rest :=
      List.filter_append [redex] rest
    have hnotices : Notice.contractions r.verbose (s.traced (redex :: rest)) =
        Notice.contractions r.verbose (s.traced [redex]) ++
          Notice.contractions r.verbose (s.traced rest) := by
      rw [hsplit]
      cases r.verbose with
      | false => rfl
      | true => exact List.map_append
    rw [List.foldl_cons, noteRedex_eq s path, ih, hnotices, List.length_cons, Nat.add_comm]
    exact Reporter.tell_tell r path 1 rest.length _ _

/-- Reducing a term tells its contractions. -/
theorem reduce_eq {ρ : Type} [Leaf ρ] (s : Session) (t : Named ρ) (path : String) (r : Reporter) :
    s.reduce t r =
      ((s.reduction r.verbose t).result,
        r.tell path (s.reduction r.verbose t).redexes.length
          (Notice.contractions r.verbose (s.traced (s.reduction r.verbose t).redexes))) :=
  congrArg (Prod.mk _) (foldl_noteRedex s path _ r)

theorem evaluate_of_unread {s : Session} {expr : String} {failure : Failure}
    (h : s.readTerm expr = .error failure) (number : Option Int) (r : Reporter) :
    s.evaluate expr number r = (.error failure, r.during s.path (some ⟨expr, number⟩)) := by
  unfold evaluate
  rw [h]
  rfl

/-- An expression that cannot be reduced stays in progress. -/
theorem evaluate_of_unreduced {s : Session} {expr : String} {t : Named Empty} {r : Reporter}
    {redexes : List (Indexed Empty)} {failure : Failure} (hread : s.readTerm expr = .ok t)
    (hreduce : s.reduction r.verbose t = ⟨redexes, .error failure⟩) (number : Option Int) :
    s.evaluate expr number r =
      (.error failure,
        (r.tell s.path redexes.length (Notice.contractions r.verbose (s.traced redexes))).during
          s.path (some ⟨expr, number⟩)) := by
  have hsame : (r.record s.path (some expr) number).verbose = r.verbose := rfl
  unfold evaluate
  simp only [hread, reduce_eq s t s.path, hsame, hreduce]
  rfl

/-- An expression that is reduced is done. -/
theorem evaluate_of_reduced {s : Session} {expr : String} {t u : Named Empty} {r : Reporter}
    {redexes : List (Indexed Empty)} (hread : s.readTerm expr = .ok t)
    (hreduce : s.reduction r.verbose t = ⟨redexes, .ok u⟩) (number : Option Int) :
    s.evaluate expr number r =
      (.ok u,
        ((r.tell s.path redexes.length (Notice.contractions r.verbose (s.traced redexes))).during
          s.path (some ⟨expr, number⟩)).clear s.path) := by
  have hsame : (r.record s.path (some expr) number).verbose = r.verbose := rfl
  unfold evaluate
  simp only [hread, reduce_eq s t s.path, hsame, hreduce]
  rfl

/-- What is told of a reduction that comes to a result: of a verbose one all redexes. -/
theorem contractions_of_reduction {s : Session} {verbose : Bool} {t u : Named Empty}
    {redexes : List (Indexed Empty)} (h : s.reduction verbose t = ⟨redexes, .ok u⟩) :
    Notice.contractions verbose (s.traced redexes) = Notice.contractions verbose redexes := by
  cases verbose with
  | false => rfl
  | true => rw [traced_eq_self (Named.height_le_of_reduceIn? h)]

end Session
end Nameless
