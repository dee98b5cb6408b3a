import Nameless.Proofs.Session.Operations

/-!
# What a failing call leaves alone

A line that cannot be added changes nothing but the line in progress, which it stays. A program that
fails has added the lines before the first one that cannot be added, and has not looked at the lines
after it. Evaluating changes no definition, whatever becomes of it. None of this depends on what the
reporter knows, or on the lines of other sources that are in progress under it.

This file defines:
- `Session.StopsAt`: a program ends at one of its lines.

Main statements:
- `Session.stopsAt_of_extend`, `Session.exists_stopsAt`: where a program ends,
- `Session.failing_calls_leave_definitions`: what failing calls leave alone.
-/

namespace Nameless
namespace Session

/-! ## Lines and programs -/

/-- The line of the session's source that is in progress. -/
def inProgress (s : Session) (r : Reporter) : Option Entry :=
  Traceback.find? s.path r.traceback

theorem inProgress_record (s : Session) (r : Reporter) (line : String) (number : Option Int) :
    s.inProgress (r.record s.path (some line) number) = some ⟨s.path, some line, number⟩ :=
  Traceback.find?_set_self ⟨s.path, some line, number⟩ r.traceback

/-- Loading a program fails at one of its lines. The lines `before` it are loaded, and `line` is the
first one that cannot be added. -/
structure StopsAt (s : Session) (r : Reporter) (program : List Char) (before : List (List Char))
    (line : List Char) (failure : Failure) : Prop where
  cut : ∃ later, Text.lines program = before ++ line :: later
  /-- The lines before are a program of their own, which loads. -/
  lines_before : Text.lines (Text.unlines before) = before
  loads : (s.load (Text.unlines before) r).result = .ok ()
  /-- After them the line is neither blank nor a comment, and cannot be added. -/
  content : Line.content line = Text.trim line ∧ Text.trim line ≠ []
  rejects : ((s.load (Text.unlines before) r).session.add (String.ofList (Text.trim line))
    (some ((before.length + 1 : Nat) : Int)) (s.load (Text.unlines before) r).reporter).result =
      .error failure
  /-- Of the session, the lines before have made what there is. -/
  session : (s.load program r).session = (s.load (Text.unlines before) r).session
  steps : (s.load program r).reporter.steps = r.steps
  inProgress : s.inProgress (s.load program r).reporter =
    some ⟨s.path, some (String.ofList (Text.trim line)), some ((before.length + 1 : Nat) : Int)⟩
  /-- Other lines after it would have made no difference. -/
  later : ∀ program' later, Text.lines program' = before ++ line :: later →
    s.load program' r = s.load program r

/-- Where a program ends is where its lines do. -/
theorem stopsAt_of_extend {s : Session} {program : List Char} {before : List (List Char)}
    {line : List Char} {s' : Session} {warnings : List Redefinition} {failure : Failure}
    (hcut : ∃ after, Text.lines program = before ++ line :: after)
    (hbefore : s.extend (Line.tasks 1 before) = ⟨s', warnings, none⟩)
    (hcontent : Line.content line ≠ [])
    (hfails : s'.readDefinition (String.ofList (Line.content line)) = .error failure)
    (r : Reporter) : s.StopsAt r program before line failure := by
  rcases exists_addAll_append s (Line.tasks 1 before) r with ⟨r', hsteps, _, _, _, hmore⟩
  rw [hbefore] at hmore
  have htrim := Line.content_eq_trim hcontent
  have hpath : s'.path = s.path := by
    rw [← path_extend s (Line.tasks 1 before), hbefore]
  have hlines : Text.lines (Text.unlines before) = before := by
    rcases hcut with ⟨after, hcut⟩
    apply Text.lines_unlines
    intro l hl
    exact Text.not_isBreak_of_mem_lines program l (by simp [hcut, hl])
  have hprior : s.load (Text.unlines before) r = ⟨.ok (), s', r'⟩ := by
    have hnone := hmore []
    rw [List.append_nil] at hnone
    rw [load, hlines, hnone]
    rfl
  -- Every program with these lines in front ends at the last of them.
  have hload : ∀ program' later, Text.lines program' = before ++ line :: later →
      s.load program' r = ⟨.error failure, s', r'.record s.path
        (some (String.ofList (Text.trim line))) (some ((before.length + 1 : Nat) : Int))⟩ := by
    intro program' later hcut'
    rw [load, hcut', Line.tasks_append, hmore, Line.tasks_of_content hcontent]
    change s'.addAll r' _ = _
    rw [addAll, add_of_error hfails, hpath, htrim, Nat.add_comm 1]
  rw [htrim] at hfails hcontent
  rcases hcut with ⟨after, hcut⟩
  have hthis := hload program after hcut
  refine ⟨⟨after, hcut⟩, hlines, by rw [hprior], ⟨htrim, hcontent⟩, ?_, ?_, ?_, ?_, ?_⟩
  · rw [hprior, add_of_error hfails]
  · rw [hthis, hprior]
  · rw [hthis]
    exact hsteps
  · rw [hthis]
    exact inProgress_record s r' _ _
  · intro program' later hcut'
    rw [hthis, hload program' later hcut']

theorem exists_stopsAt {s : Session} {program : List Char} {r : Reporter} {failure : Failure}
    (h : (s.load program r).result = .error failure) :
    ∃ before line, s.StopsAt r program before line failure := by
  let e := s.extend (Line.tasks 1 (Text.lines program))
  have hresult : e.result = .error failure := (addAll_eq_extend s _ r).1.symm.trans h
  rcases hstopped : e.stopped? with _ | ⟨task, failure'⟩
  · rw [Extension.result, hstopped] at hresult
    cases hresult
  · rw [Extension.result, hstopped] at hresult
    cases hresult
    -- The line that the lines end at is one of the program.
    rcases exists_cut_of_extend hstopped with ⟨before, after, hcut, hbefore, hfails⟩
    rcases Line.exists_cut_of_tasks hcut with ⟨earlier, line, later, hlines, rfl, hcontent, rfl⟩
    exact ⟨earlier, line, stopsAt_of_extend ⟨later, hlines⟩ hbefore hcontent hfails r⟩

/-! ## Evaluating -/

theorem perform_evaluate_of_unread {s : Session} {expr : String} {failure : Failure}
    (h : s.readTerm expr = .error failure) (number : Option Int) (r : Reporter) :
    s.perform r (.evaluate expr number) =
      ⟨.error failure, s, r.during s.path (some ⟨expr, number⟩)⟩ := by
  simp only [perform, evaluate_of_unread h]
  rfl

theorem perform_evaluate_of_read {s : Session} {expr : String} {t : Named Empty} {r : Reporter}
    {redexes : List (Indexed Empty)} {result : Except Failure (Named Empty)}
    (hread : s.readTerm expr = .ok t) (hreduce : s.reduction r.verbose t = ⟨redexes, result⟩)
    (number : Option Int) :
    (s.perform r (.evaluate expr number)).result = result.map (fun _ => ()) ∧
      (s.perform r (.evaluate expr number)).reporter.steps = r.steps + redexes.length := by
  cases result with
  | error failure =>
    have hevaluate := evaluate_of_unreduced hread hreduce number
    exact ⟨congrArg (fun called => called.1.map fun _ => ()) hevaluate,
      congrArg (fun called => called.2.steps) hevaluate⟩
  | ok u =>
    have hevaluate := evaluate_of_reduced hread hreduce number
    exact ⟨congrArg (fun called => called.1.map fun _ => ()) hevaluate,
      congrArg (fun called => called.2.steps) hevaluate⟩

/-- A line that cannot be added leaves the session and the count of contractions as they were, and
stays in progress. A program that fails does so at the first of its lines that cannot be added, with
what the lines before it have made. Evaluating leaves the session as it is, whether it returns,
fails to read its term, or has counted any number of contractions when it fails. In the first and
the last of these cases all calls that follow make of the session what they would have made of it
before. -/
theorem failing_calls_leave_definitions (s : Session) (r : Reporter) :
    (∀ line number failure, (s.add line number r).result = .error failure →
      (s.add line number r).session = s ∧ (s.add line number r).reporter.steps = r.steps ∧
        s.inProgress (s.add line number r).reporter = some ⟨s.path, some line, number⟩ ∧
        ∀ ops, (s.after r (.add line number :: ops)).1 = (s.after r ops).1) ∧
      (∀ program failure, (s.load program r).result = .error failure →
        ∃ before line, s.StopsAt r program before line failure) ∧
      ∀ expr number,
        let called := s.perform r (.evaluate expr number)
        called.session = s ∧
          (∀ ops, (s.after r (.evaluate expr number :: ops)).1 = (s.after r ops).1) ∧
          (∀ failure, s.readTerm expr = .error failure →
            called.result = .error failure ∧ called.reporter.steps = r.steps) ∧
          ∀ t redexes result, s.readTerm expr = .ok t →
            s.reduction r.verbose t = ⟨redexes, result⟩ →
            called.result = result.map (fun _ => ()) ∧
              called.reporter.steps = r.steps + redexes.length := by
  refine ⟨?_, fun _ _ => exists_stopsAt, ?_⟩
  · intro line number failure hfailed
    cases hread : s.readDefinition line with
    | ok definition =>
      rw [add_of_ok hread] at hfailed
      cases hfailed
    | error failure' =>
      have hadd := add_of_error hread number r
      refine ⟨by rw [hadd], by rw [hadd]; rfl, ?_, ?_⟩
      · rw [hadd]
        exact inProgress_record s r line number
      · intro ops
        have hsame : (s.perform r (.add line number)).session = s := session_add_of_error hfailed
        change ((s.perform r (.add line number)).session.after _ ops).1 = _
        rw [hsame]
        exact after_congr s ops _ r
  · intro expr number called
    refine ⟨rfl, fun ops => after_congr s ops _ r, ?_, ?_⟩
    · intro failure hread
      have hcalled : called = _ := perform_evaluate_of_unread hread number r
      rw [hcalled]
      exact ⟨rfl, rfl⟩
    · intro t redexes result hread hreduce
      exact perform_evaluate_of_read hread hreduce number

/-- The fourth line of a program refers to a name that is not defined, below a comment and a blank
line. A term that is nested deeper with every contraction fails after five of them. -/
theorem failing_calls_leave_definitions_fourth_line :
    let s : Session :=
      { path := "prog"
        limits := { Bounds.standard with nesting := 8, contractions := 3 } }
    let program := "A = \\x.x\n// note\n\n  B = NOPE\nC = A".toList
    let loop : Operation := .evaluate "\\f.(\\x.(f (x x)) \\x.(f (x x)))" none
    (s.load program {}).result = .error (.fault (.undefined "NOPE" "NOPE" 0 4)) ∧
      (∃ before line, s.StopsAt {} program before line (.fault (.undefined "NOPE" "NOPE" 0 4)) ∧
        before.length + 1 = 4 ∧ Text.trim line = "B = NOPE".toList) ∧
      (s.load program {}).session.definitions.names = ["A"] ∧
      (s.perform {} loop).result = .error .tooDeep ∧ (s.perform {} loop).reporter.steps = 5 ∧
      (s.after {} [loop, .add "A = \\x.x" none]).1 = (s.after {} [.add "A = \\x.x" none]).1 ∧
      (s.add "B = NOPE" none {}).session = s := by
  intro s program loop
  have hfailed : (s.load program {}).result = .error (.fault (.undefined "NOPE" "NOPE" 0 4)) := by
    decide +kernel
  have hline : (s.add "B = NOPE" none {}).result =
      .error (.fault (.undefined "NOPE" "NOPE" 0 4)) := by decide +kernel
  rcases failing_calls_leave_definitions s {} with ⟨hadd, hload, hevaluate⟩
  rcases hload program _ hfailed with ⟨before, line, hstops⟩
  have hentry : s.inProgress (s.load program {}).reporter =
      some ⟨"prog", some "B = NOPE", some 4⟩ := by decide +kernel
  have hplace : before.length + 1 = 4 ∧ Text.trim line = "B = NOPE".toList := by
    have hsame := hstops.inProgress.symm.trans hentry
    simp only [Option.some.injEq, Entry.mk.injEq] at hsame
    refine ⟨by exact_mod_cast hsame.2.2, ?_⟩
    rw [← hsame.2.1, String.toList_ofList]
  exact ⟨hfailed, ⟨before, line, hstops, hplace⟩, by decide +kernel, by decide +kernel,
    by decide +kernel, (hevaluate _ none).2.1 _, (hadd _ _ _ hline).1⟩

end Session
end Nameless
