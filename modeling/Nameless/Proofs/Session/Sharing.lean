import Nameless.Proofs.Session.Operations

/-!
# Sessions that share a reporter

Several sessions may work under one reporter, each with its own source, and call after call may go
to any of them. Every call is guarded: a failure is told by the reporter, which then forgets the
lines in progress. A call that succeeds forgets its own line itself. So between calls no line is in
progress, and whatever is told during a call can only name the source and the lines of that call.

This file defines:
- `Request`, `Session.call`: the guarded calls,
- `Session.told`, `Notice.About`: what is told during a call, and what that is about,
- `Sharing`, `Sharing.step`, `Sharing.after`: sessions under one reporter.

Main statements:
- `Session.guard_addAll`, `Session.guard_reduce`, `Session.exists_tell_call`: what a call adds to
  the reporter,
- `Session.about_of_mem_told`: a call tells of its own lines only,
- `Sharing.Clean.step`, `Sharing.Clean.after`: no line is in progress between calls,
- `Sharing.shared_reporter_stays_clean`: what holds after any steps, and of the next call.
-/

namespace Nameless

/-! ## Sources -/

namespace Traceback

/-- Sources that are known stay where they are. -/
theorem paths_prefix_set (e : Entry) (entries : List Entry) :
    paths entries <+: paths (set e entries) := by
  induction entries with
  | nil => exact List.nil_prefix
  | cons first rest ih =>
    by_cases hsame : first.path = e.path
    · -- The entry of a source that is known is replaced where it stands.
      have hpaths : paths (set e (first :: rest)) = paths (first :: rest) :=
        paths_set_of_mem (by simp [paths, hsame])
      exact hpaths ▸ List.prefix_refl _
    · have hset : set e (first :: rest) = first :: set e rest := if_neg hsame
      rw [hset]
      exact List.cons_prefix_cons.2 ⟨rfl, ih⟩

end Traceback

/-! ## Notices -/

namespace Notice

/-- The notice is about one of the lines, or about no line, and an error has a report. -/
def About (tasks : List Task) : Notice → Prop
  | redefinition warning => warning.task ∈ tasks
  | contraction _ => True
  | summary _ => True
  | error task failure => (∀ t ∈ task, t ∈ tasks) ∧ ∃ report, failure.ToldAs report

theorem about_of_mem_contractions {verbose : Bool} {redexes : List (Indexed Empty)}
    {notice : Notice} (h : notice ∈ contractions verbose redexes) (tasks : List Task) :
    notice.About tasks := by
  cases verbose with
  | false => cases h
  | true =>
    rcases List.mem_map.1 h with ⟨redex, _, rfl⟩
    trivial

end Notice

/-! ## Calls -/

/-- A call that a session is asked for. -/
inductive Request where
  | load (program : List Char)
  | add (line : String) (number : Option Int)
  | evaluate (expr : String) (number : Option Int)
  | reduce (t : Named Raw)
  | run

/-- The lines that a call works on. -/
def Request.tasks : Request → List Task
  | load program => Line.tasks 1 (Text.lines program)
  | add line number => [⟨line, number⟩]
  | evaluate expr number => [⟨expr, number⟩]
  | reduce _ => []
  | run => []

namespace Session

/-- What a call does. Of its result only the failure is kept, if it is one. -/
def serve (s : Session) (r : Reporter) : Request → Outcome Unit
  | .load program => s.perform r (.load program)
  | .add line number => s.perform r (.add line number)
  | .evaluate expr number => s.perform r (.evaluate expr number)
  | .reduce t => ⟨(s.reduce t r).1.map fun _ => (), s, (s.reduce t r).2⟩
  | .run => s.perform r .run

/-- A call that is guarded by the reporter. -/
def call (s : Session) (r : Reporter) (request : Request) : Outcome (Guarded Unit) :=
  let served := s.serve r request
  let left := Reporter.guard served.result served.reporter
  ⟨left.1, served.session, left.2⟩

/-- What is told of a reduction while a line is in progress or not. -/
def toldOfReduction (s : Session) (verbose : Bool) (task : Option Task)
    (reduction : Reduction Empty (Named Empty)) : List Notice :=
  Notice.contractions verbose (s.traced reduction.redexes) ++
    match reduction.result with
    | .ok _ => []
    | .error failure => [.error task failure]

/-- What is told during a call. -/
def told (s : Session) (verbose : Bool) : Request → List Notice
  | .load program => (s.extend (Line.tasks 1 (Text.lines program))).notices
  | .add line number => (s.extend [⟨line, number⟩]).notices
  | .evaluate expr number =>
    match s.readTerm expr with
    | .error failure => [.error (some ⟨expr, number⟩) failure]
    | .ok t => s.toldOfReduction verbose (some ⟨expr, number⟩) (s.reduction verbose t)
  | .reduce t => s.toldOfReduction verbose none (s.reduction verbose t)
  | .run =>
    match s.mainTerm with
    | .error failure => [.error none failure]
    | .ok t => s.toldOfReduction verbose none (s.reduction verbose t)

variable {s : Session} {r : Reporter}

/-! ### Adding lines -/

/-- What lines that are added leave of a reporter at rest, once their failure is told if there is
one. -/
theorem guard_addAll (hr : r.AtRest s.path) (hfatal : r.fatal = false) (tasks : List Task) :
    (Reporter.guard (s.addAll r tasks).result (s.addAll r tasks).reporter).2 =
      r.tell s.path 0 (s.extend tasks).notices := by
  rw [addAll_eq s tasks hr]
  unfold Extension.notices Extension.result Extension.task?
  rcases hstopped : (s.extend tasks).stopped? with _ | ⟨task, failure⟩
  · rw [List.append_nil]
    rfl
  · rcases toldAs_of_stopped hstopped with ⟨report, htold⟩
    have hrest : (r.tell s.path 0 ((s.extend tasks).redefinitions.map .redefinition)).AtRest s.path :=
      Reporter.atRest_tell.2 hr
    refine (hrest.guard_error_during (α := Unit) hfatal htold (some task)).trans ?_
    exact Reporter.tell_tell r s.path 0 0 _ _

/-- Adding lines changes definitions only. -/
theorem path_addAll (s : Session) (r : Reporter) (tasks : List Task) :
    (s.addAll r tasks).session.path = s.path := by
  rw [(addAll_eq_extend s tasks r).2.1, path_extend]

/-! ### Reducing -/

/-- A reduction that fails is told by its contractions and its failure, with the line in progress.
-/
theorem guard_unreduced {α : Type} (hr : r.AtRest s.path) (hfatal : r.fatal = false)
    {redexes : List (Indexed Empty)} {failure : Failure} {report : Report}
    (htold : failure.ToldAs report) (task : Option Task) :
    (Reporter.guard (.error failure : Except Failure α)
      ((r.tell s.path redexes.length
        (Notice.contractions r.verbose (s.traced redexes))).during s.path task)).2 =
      r.tell s.path redexes.length
        (s.toldOfReduction r.verbose task ⟨redexes, .error failure⟩) := by
  refine ((Reporter.atRest_tell.2 hr).guard_error_during hfatal htold task).trans ?_
  exact Reporter.tell_tell r s.path redexes.length 0 _ _

/-- Where a reduction is the last thing that a call does, the reporter is at rest after it. -/
theorem guard_reduce {ρ : Type} [Leaf ρ] (hr : r.AtRest s.path) (hfatal : r.fatal = false)
    (t : Named ρ) :
    (Reporter.guard (s.reduce t r).1 (s.reduce t r).2).2 =
      r.tell s.path (s.reduction r.verbose t).redexes.length
        (s.toldOfReduction r.verbose none (s.reduction r.verbose t)) := by
  rw [reduce_eq s t s.path]
  rcases hreduce : s.reduction r.verbose t with ⟨redexes, failure | u⟩
  · rcases (Named.toldAs_of_reduceIn? (congrArg Reduction.result hreduce)).2 with ⟨report, htold⟩
    exact guard_unreduced hr hfatal htold none
  · rw [toldOfReduction, List.append_nil]
    rfl

/-! ### All calls -/

theorem serve_load (s : Session) (r : Reporter) (program : List Char) :
    s.serve r (.load program) = s.addAll r (Request.load program).tasks := rfl

theorem serve_add (s : Session) (r : Reporter) (line : String) (number : Option Int) :
    s.serve r (.add line number) = s.addAll r (Request.add line number).tasks := by
  rw [Request.tasks, addAll]
  change Outcome.mk ((s.add line number r).result.map fun _ => ()) _ _ = _
  rcases s.add line number r with ⟨failure | t, s', r'⟩ <;> rfl

theorem guard_evaluate (hr : r.AtRest s.path) (hfatal : r.fatal = false) (expr : String)
    (number : Option Int) :
    ∃ count, (Reporter.guard (s.evaluate expr number r).1 (s.evaluate expr number r).2).2 =
      r.tell s.path count (s.told r.verbose (.evaluate expr number)) := by
  let task : Task := ⟨expr, number⟩
  simp only [told]
  cases hread : s.readTerm expr with
  | error failure =>
    rcases toldAs_of_readTerm hread with ⟨report, htold⟩
    rw [evaluate_of_unread hread]
    exact ⟨0, hr.guard_error_during hfatal htold (some task)⟩
  | ok t =>
    rcases hreduce : s.reduction r.verbose t with ⟨redexes, failure | u⟩
    · rcases (Named.toldAs_of_reduceIn? (congrArg Reduction.result hreduce)).2 with ⟨report, htold⟩
      simp only [evaluate_of_unreduced hread hreduce, hreduce]
      exact ⟨redexes.length, guard_unreduced hr hfatal htold (some task)⟩
    · -- The line that was noted before the contractions is forgotten after them.
      refine ⟨redexes.length, ?_⟩
      simp only [evaluate_of_reduced hread hreduce, hreduce, toldOfReduction, List.append_nil]
      exact (Reporter.atRest_tell.2 hr).clear_during task

theorem toldAs_of_mainTerm {failure : Failure} (h : s.mainTerm = .error failure) :
    failure.ToldAs Fault.missingMain.report := by
  unfold mainTerm at h
  split at h
  · cases h
  · cases h
    exact .fault (by simp)

theorem guard_run (hr : r.AtRest s.path) (hfatal : r.fatal = false) :
    ∃ count, (Reporter.guard (s.run r).1 (s.run r).2).2 =
      r.tell s.path count (s.told r.verbose .run) := by
  unfold run told
  cases hmain : s.mainTerm with
  | error failure =>
    exact ⟨0, hr.guard_error_during hfatal (toldAs_of_mainTerm hmain) none⟩
  | ok t => exact ⟨_, guard_reduce hr hfatal t⟩

/-- A call under a reporter at rest adds what it tells, and leaves the lines in progress as they
were. -/
theorem exists_tell_call (hr : r.AtRest s.path) (hfatal : r.fatal = false) (request : Request) :
    ∃ count, (s.call r request).reporter =
      r.tell s.path count (s.told r.verbose request) := by
  cases request with
  | load program =>
    refine ⟨0, ?_⟩
    rw [call, serve_load]
    exact guard_addAll hr hfatal _
  | add line number =>
    refine ⟨0, ?_⟩
    rw [call, serve_add]
    exact guard_addAll hr hfatal _
  | evaluate expr number =>
    rcases guard_evaluate hr hfatal expr number with ⟨count, hguard⟩
    exact ⟨count, (Reporter.guard_map _ _ _).trans hguard⟩
  | reduce t => exact ⟨_, (Reporter.guard_map _ _ _).trans (guard_reduce hr hfatal t)⟩
  | run =>
    rcases guard_run hr hfatal with ⟨count, hguard⟩
    exact ⟨count, (Reporter.guard_map _ _ _).trans hguard⟩

theorem path_call (s : Session) (r : Reporter) (request : Request) :
    (s.call r request).session.path = s.path := by
  cases request with
  | load program =>
    rw [call, serve_load]
    exact path_addAll s r _
  | add line number =>
    rw [call, serve_add]
    exact path_addAll s r _
  | evaluate expr number => rfl
  | reduce t => rfl
  | run => rfl

/-! ### The lines that are told -/

/-- What is told of lines that are added is about these lines. -/
theorem about_of_mem_notices {tasks : List Task} {notice : Notice}
    (h : notice ∈ (s.extend tasks).notices) : notice.About tasks := by
  rcases List.mem_append.1 h with hwarning | herror
  · rcases List.mem_map.1 hwarning with ⟨warning, hmem, rfl⟩
    exact task_mem_of_mem_redefinitions hmem
  · rcases hstopped : (s.extend tasks).stopped? with _ | ⟨task, failure⟩
    · rw [hstopped] at herror
      cases herror
    · rw [hstopped] at herror
      rcases List.mem_singleton.1 herror with rfl
      rcases exists_cut_of_extend hstopped with ⟨before, after, rfl, _, _⟩
      exact ⟨by simp, toldAs_of_stopped hstopped⟩

theorem about_of_mem_toldOfReduction {ρ : Type} [Leaf ρ] {t : Named ρ} {verbose : Bool}
    {task : Option Task} {notice : Notice}
    (h : notice ∈ s.toldOfReduction verbose task (s.reduction verbose t)) :
    notice.About task.toList := by
  rcases List.mem_append.1 h with hcontraction | herror
  · exact Notice.about_of_mem_contractions hcontraction _
  · split at herror
    · cases herror
    · next failure hresult =>
      rcases List.mem_singleton.1 herror with rfl
      exact ⟨by simp, (Named.toldAs_of_reduceIn? hresult).2⟩

/-- Whatever is told during a call is about the lines of that call. -/
theorem about_of_mem_told {verbose : Bool} {request : Request} {notice : Notice}
    (h : notice ∈ s.told verbose request) : notice.About request.tasks := by
  cases request with
  | load program => exact about_of_mem_notices h
  | add line number => exact about_of_mem_notices h
  | evaluate expr number =>
    rw [told] at h
    split at h
    · next failure hread =>
      rcases List.mem_singleton.1 h with rfl
      exact ⟨by simp [Request.tasks], toldAs_of_readTerm hread⟩
    · exact about_of_mem_toldOfReduction h
  | reduce t => exact about_of_mem_toldOfReduction h
  | run =>
    rw [told] at h
    split at h
    · next failure hmain =>
      rcases List.mem_singleton.1 h with rfl
      exact ⟨by simp, _, toldAs_of_mainTerm hmain⟩
    · exact about_of_mem_toldOfReduction h

end Session

/-! ## Sessions under one reporter -/

/-- Sessions and the reporter that they share. -/
structure Sharing where
  sessions : List Session
  reporter : Reporter

namespace Sharing

inductive Step where
  /-- One more session is opened. -/
  | enter (s : Session)
  /-- One of the sessions is called. -/
  | call (index : Nat) (request : Request)

/-- What a step makes of the sessions and of the reporter. -/
def step (b : Sharing) : Step → Sharing
  | .enter s => ⟨b.sessions ++ [s], s.register b.reporter⟩
  | .call index request =>
    match b.sessions[index]? with
    | none => b
    | some s =>
      let called := s.call b.reporter request
      ⟨b.sessions.set index called.session, called.reporter⟩

/-- The sessions and the reporter after some steps. -/
def after (b : Sharing) (steps : List Step) : Sharing :=
  steps.foldl step b

/-- The reporter goes on after errors, no line is in progress, and the source of every session is
known. -/
structure Clean (b : Sharing) : Prop where
  fatal : b.reporter.fatal = false
  idle : b.reporter.Idle
  known : ∀ s ∈ b.sessions, s.path ∈ Traceback.paths b.reporter.traceback

theorem Clean.atRest {b : Sharing} (h : b.Clean) {index : Nat} {s : Session}
    (hs : b.sessions[index]? = some s) : b.reporter.AtRest s.path where
  idle := h.idle
  known := h.known s (List.mem_of_getElem? hs)

theorem step_call {b : Sharing} {index : Nat} {s : Session} (hs : b.sessions[index]? = some s)
    (request : Request) :
    b.step (.call index request) =
      ⟨b.sessions.set index (s.call b.reporter request).session,
        (s.call b.reporter request).reporter⟩ := by
  simp only [step, hs]

theorem traceback_step_call {b : Sharing} (h : b.Clean) (index : Nat) (request : Request) :
    (b.step (.call index request)).reporter.traceback = b.reporter.traceback := by
  cases hs : b.sessions[index]? with
  | none => simp only [step, hs]
  | some s =>
    rcases s.exists_tell_call (h.atRest hs) h.fatal request with ⟨count, hcall⟩
    rw [step_call hs, hcall]
    rfl

theorem paths_prefix_step {b : Sharing} (h : b.Clean) (step : Step) :
    Traceback.paths b.reporter.traceback <+: Traceback.paths (b.step step).reporter.traceback := by
  cases step with
  | enter s => exact Traceback.paths_prefix_set (.idle s.path) b.reporter.traceback
  | call index request => exact traceback_step_call h index request ▸ List.prefix_refl _

/-- What a step preserves. -/
theorem Clean.step {b : Sharing} (h : b.Clean) (step : Step) : (b.step step).Clean := by
  -- Sources stay known, so only the session that is opened or called has to be looked at.
  have hkept {path : String} (hpath : path ∈ Traceback.paths b.reporter.traceback) :
      path ∈ Traceback.paths (b.step step).reporter.traceback :=
    (paths_prefix_step h step).subset hpath
  cases step with
  | enter s =>
    refine ⟨h.fatal, Reporter.idle_clear h.idle s.path, ?_⟩
    intro s' hs'
    rcases List.mem_append.1 hs' with hold | hnew
    · exact hkept (h.known s' hold)
    · rcases List.mem_singleton.1 hnew with rfl
      exact (Reporter.atRest_clear h.idle s'.path).known
  | call index request =>
    cases hs : b.sessions[index]? with
    | none =>
      have hstep : b.step (.call index request) = b := by simp only [Sharing.step, hs]
      rwa [hstep]
    | some s =>
      rcases Session.exists_tell_call (h.atRest hs) h.fatal request with ⟨count, hcall⟩
      rw [step_call hs] at hkept ⊢
      refine ⟨?_, ?_, ?_⟩
      · rw [hcall]
        exact h.fatal
      · rw [hcall]
        exact h.idle
      · intro s' hs'
        rcases List.mem_or_eq_of_mem_set hs' with hold | rfl
        · exact hkept (h.known s' hold)
        · rw [Session.path_call]
          exact hkept (h.atRest hs).known

/-- What any steps preserve. -/
theorem Clean.after {b : Sharing} (h : b.Clean) (steps : List Step) : (b.after steps).Clean := by
  induction steps generalizing b with
  | nil => exact h
  | cons step steps ih => exact ih (h.step step)

/-- Sessions that share a reporter which goes on after errors do not get in each other's way,
whichever of them are opened and called, in whatever order, and whatever becomes of the calls. At
all times no line is in progress, and the sources that are known stay known in their order. What a
call prints is told of its own source: a warning starts with this source and the number of the line
that defines a name anew, and an error shows one line at most, which is the line that the call
failed at. -/
theorem shared_reporter_stays_clean {r : Reporter} (hfatal : r.fatal = false) (hidle : r.Idle)
    (steps : List Step) :
    let now := Sharing.after ⟨[], r⟩ steps
    (∀ e ∈ now.reporter.traceback, e.line = none ∧ e.number = none) ∧
      (∀ step, Traceback.paths now.reporter.traceback <+:
        Traceback.paths (now.step step).reporter.traceback) ∧
      ∀ index s request, now.sessions[index]? = some s →
        let next := now.step (.call index request)
        let style := now.reporter.style
        let told := s.told now.reporter.verbose request
        Traceback.paths next.reporter.traceback = Traceback.paths now.reporter.traceback ∧
          next.reporter.printed = now.reporter.printed ++ Notice.texts style s.path told ∧
          (∀ task name, .redefinition ⟨task, name⟩ ∈ told → task ∈ request.tasks ∧
            (Notice.redefinition ⟨task, name⟩).text style s.path =
              Reporter.warningText style
                (style.bold none (s.path ++ ":" ++ (task.entry s.path).numberText ++ ": "))
                (Session.redefinition task.line name)) ∧
          ∀ task failure, .error task failure ∈ told →
            (∀ t ∈ task, t ∈ request.tasks) ∧ ∃ report, failure.ToldAs report ∧
              (Notice.error task failure).text style s.path =
                Reporter.errorText style (Task.traceText s.path task) report := by
  intro now
  have hclean : now.Clean := by
    refine Clean.after ⟨hfatal, hidle, ?_⟩ steps
    simp
  refine ⟨?_, paths_prefix_step hclean, ?_⟩
  · intro e he
    rw [hclean.idle e he]
    exact ⟨rfl, rfl⟩
  · intro index s request hs next style told
    refine ⟨by rw [traceback_step_call hclean], ?_, ?_, ?_⟩
    · rcases Session.exists_tell_call (hclean.atRest hs) hclean.fatal request with ⟨count, hcall⟩
      have hnext : next.reporter = _ :=
        (congrArg Sharing.reporter (step_call hs request)).trans hcall
      rw [hnext]
      rfl
    · intro task name hmem
      exact ⟨Session.about_of_mem_told hmem, rfl⟩
    · intro task failure hmem
      rcases Session.about_of_mem_told hmem with ⟨htask, report, htold⟩
      exact ⟨htask, report, htold, Notice.text_error htold style s.path task⟩

/-- Two sources take turns. The second one fails at an expression without a number and at a line of
a program. Then the first one defines a name anew in line two and fails at line three, and only
these lines of it are told. -/
theorem shared_reporter_stays_clean_two_sources :
    let r : Reporter := { fatal := false }
    let steps : List Step :=
      [.enter { path := "a.lc" }, .enter { path := "b.lc", numerals := true },
        .call 0 (.add "A = \\x.x" (some 7)), .call 1 (.evaluate "(A" none),
        .call 1 (.load "B = 2\nC = A".toList)]
    let now := Sharing.after ⟨[], r⟩ steps
    let next := now.step (.call 0 (.load "\nA = \\y.y\nD = B".toList))
    r.fatal = false ∧ r.Idle ∧ (∃ s, now.sessions[0]? = some s) ∧
      (∀ e ∈ now.reporter.traceback, e.line = none ∧ e.number = none) ∧
      Traceback.paths next.reporter.traceback = ["a.lc", "b.lc"] ∧
      next.reporter.printed = now.reporter.printed ++
        ("a.lc:2: warning: 'A = \\y.y' redefines 'A'\n  A = \\y.y\n  ^\n" ++
          "Traceback:\n  File 'a.lc', line 3:\n    D = B\n" ++
          "error: 'B' refers to undefined 'B'\n  B\n  ^\n") := by
  intro r steps now next
  have hidle : r.Idle := by simp [Reporter.Idle, r]
  rcases shared_reporter_stays_clean rfl hidle steps with ⟨hclean, _, hcalls⟩
  have htexts : (now.sessions[0]?.map fun s => Notice.texts now.reporter.style s.path
      (s.told now.reporter.verbose (.load "\nA = \\y.y\nD = B".toList))) =
      some ("a.lc:2: warning: 'A = \\y.y' redefines 'A'\n  A = \\y.y\n  ^\n" ++
        "Traceback:\n  File 'a.lc', line 3:\n    D = B\n" ++
        "error: 'B' refers to undefined 'B'\n  B\n  ^\n") := by decide +kernel
  rcases Option.map_eq_some_iff.1 htexts with ⟨s, hs, htext⟩
  rcases hcalls 0 s _ hs with ⟨hpaths, hprinted, _⟩
  refine ⟨rfl, hidle, ⟨s, hs⟩, hclean, hpaths.trans (by decide +kernel), ?_⟩
  rw [hprinted, htext]

end Sharing
end Nameless
