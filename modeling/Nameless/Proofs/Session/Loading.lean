import Nameless.Proofs.Session.Notice

/-!
# Adding lines one after the other

A line is added if it can be read as a definition in the session that the lines before it have made.
The first line that cannot be read ends the adding: the lines before it have been added, and those
after it have not been looked at. What is told meanwhile are the lines that define a name anew, and
nothing else. So what lines make of a session can be said without a reporter, and a reporter only
has to follow.

This file defines:
- `Session.define`, `Session.redefinitions`: what a line makes of a session, and what is told of it,
- `Extension`, `Session.extend`: what lines make of a session one after the other, and where they
  end.

Main statements:
- `Session.add_of_error`, `Session.add_of_ok`, `Session.add_of_ok_atRest`: adding one line,
- `Session.exists_addAll_append`: adding several, with more lines after them,
- `Session.addAll_eq`: adding several under a reporter at rest,
- `Session.extend_append`, `Session.exists_cut_of_extend`: lines in two parts, and the line that
  lines end at,
- `Line.tasks_append`, `Line.exists_cut_of_tasks`: the lines of a program in parts.
-/

namespace Nameless

/-! ## The lines of a program -/

namespace Line

theorem tasks_of_skip {line : List Char} (h : content line = []) (number : Nat)
    (lines : List (List Char)) : tasks number (line :: lines) = tasks (number + 1) lines := by
  rw [tasks, h]

theorem tasks_of_content {line : List Char} (h : content line ≠ []) (number : Nat)
    (lines : List (List Char)) :
    tasks number (line :: lines) =
      ⟨String.ofList (content line), some number⟩ :: tasks (number + 1) lines := by
  rw [tasks]
  split
  · next hempty => exact absurd hempty h
  · rfl

/-- The lines of the second part are numbered on from those of the first. -/
theorem tasks_append (number : Nat) (lines more : List (List Char)) :
    tasks number (lines ++ more) = tasks number lines ++ tasks (number + lines.length) more := by
  induction lines generalizing number with
  | nil => rfl
  | cons line lines ih =>
    have hnumber : number + (line :: lines).length = number + 1 + lines.length := by
      rw [List.length_cons]
      omega
    rw [hnumber]
    by_cases hcontent : content line = []
    · rw [List.cons_append, tasks_of_skip hcontent, tasks_of_skip hcontent, ih]
    · rw [List.cons_append, tasks_of_content hcontent, tasks_of_content hcontent, ih]
      rfl

/-- What is worked on stands on some line, and the lines before that are worked on before it. -/
theorem exists_cut_of_tasks {number : Nat} {lines : List (List Char)} {before after : List Task}
    {task : Task} (h : tasks number lines = before ++ task :: after) :
    ∃ earlier line later, lines = earlier ++ line :: later ∧ tasks number earlier = before ∧
      content line ≠ [] ∧
      task = ⟨String.ofList (content line), some ((number + earlier.length : Nat) : Int)⟩ := by
  induction lines generalizing number before with
  | nil => cases before <;> cases h
  | cons line lines ih =>
    by_cases hcontent : content line = []
    · rw [tasks_of_skip hcontent] at h
      rcases ih h with ⟨earlier, found, later, rfl, htasks, hfound, rfl⟩
      refine ⟨line :: earlier, found, later, rfl, ?_, hfound, ?_⟩
      · rw [tasks_of_skip hcontent, htasks]
      · rw [List.length_cons, Nat.add_right_comm, Nat.add_assoc]
    · rw [tasks_of_content hcontent] at h
      cases before with
      | nil =>
        rcases List.cons.inj h with ⟨rfl, _⟩
        exact ⟨[], line, lines, rfl, rfl, hcontent, rfl⟩
      | cons first before =>
        rcases List.cons.inj h with ⟨hfirst, hrest⟩
        rcases ih hrest with ⟨earlier, found, later, rfl, htasks, hfound, rfl⟩
        refine ⟨line :: earlier, found, later, rfl, ?_, hfound, ?_⟩
        · rw [tasks_of_content hcontent, htasks, hfirst]
        · rw [List.length_cons, Nat.add_right_comm, Nat.add_assoc]

end Line

namespace Session

/-! ## One line -/

/-- The session with one more definition. -/
def define (s : Session) (name : String) (t : Named Empty) : Session :=
  { s with definitions := s.definitions.put name t }

/-- The redefinition that a line is, if its name is defined already. -/
def redefinitions (s : Session) (task : Task) (name : String) : List Redefinition :=
  if (s.definitions.find? name).isSome then [⟨task, name⟩] else []

theorem add_of_error {s : Session} {line : String} {failure : Failure}
    (h : s.readDefinition line = .error failure) (number : Option Int) (r : Reporter) :
    s.add line number r = ⟨.error failure, s, r.record s.path (some line) number⟩ := by
  unfold add
  rw [h]

theorem add_of_ok {s : Session} {line name : String} {t : Named Empty}
    (h : s.readDefinition line = .ok (name, t)) (number : Option Int) (r : Reporter) :
    s.add line number r =
      ⟨.ok t, s.define name t,
        ((r.record s.path (some line) number).clear s.path).note 0
          (if (s.definitions.find? name).isSome then
            Reporter.warningText r.style (r.record s.path (some line) number).location
              (redefinition line name)
          else "")⟩ := by
  unfold add
  rw [h]
  refine congrArg (Outcome.mk _ _) ?_
  split
  · rw [Reporter.warn_eq_note, Reporter.clear_note]
    rfl
  · rw [Reporter.note_nothing]

/-- Under a reporter at rest a line that is read leaves its warning, if it has one. -/
theorem add_of_ok_atRest {s : Session} {line name : String} {t : Named Empty}
    (h : s.readDefinition line = .ok (name, t)) (number : Option Int) {r : Reporter}
    (hr : r.AtRest s.path) :
    s.add line number r =
      ⟨.ok t, s.define name t,
        r.tell s.path 0 ((s.redefinitions ⟨line, number⟩ name).map .redefinition)⟩ := by
  rw [add_of_ok h, hr.clear_record, hr.location_record]
  refine congrArg (Outcome.mk _ _) ?_
  unfold redefinitions Reporter.tell
  split
  · rw [List.map_singleton, Notice.texts_singleton]
    rfl
  · rfl

/-! ## Several lines -/

/-- What lines make of a session, the redefinitions among them, and the line that they end at, if
there is one that cannot be read. -/
structure Extension where
  session : Session
  redefinitions : List Redefinition
  stopped? : Option (Task × Failure)

namespace Extension

def result (e : Extension) : Except Failure Unit :=
  match e.stopped? with
  | none => .ok ()
  | some (_, failure) => .error failure

/-- The line that stays in progress. -/
def task? (e : Extension) : Option Task :=
  e.stopped?.map Prod.fst

/-- What is told of the lines. -/
def notices (e : Extension) : List Notice :=
  e.redefinitions.map .redefinition ++
    match e.stopped? with
    | none => []
    | some (task, failure) => [.error (some task) failure]

end Extension

/-- What lines make of a session one after the other. -/
def extend (s : Session) : List Task → Extension
  | [] => ⟨s, [], none⟩
  | task :: rest =>
    match s.readDefinition task.line with
    | .error failure => ⟨s, [], some (task, failure)⟩
    | .ok (name, t) =>
      let e := (s.define name t).extend rest
      ⟨e.session, s.redefinitions task name ++ e.redefinitions, e.stopped?⟩

variable {s s' : Session} {task : Task} {tasks : List Task} {failure : Failure}

@[simp] theorem extend_nil (s : Session) : s.extend [] = ⟨s, [], none⟩ := rfl

theorem extend_of_error (h : s.readDefinition task.line = .error failure) (rest : List Task) :
    s.extend (task :: rest) = ⟨s, [], some (task, failure)⟩ := by
  rw [extend, h]

theorem extend_of_ok {name : String} {t : Named Empty}
    (h : s.readDefinition task.line = .ok (name, t)) (rest : List Task) :
    s.extend (task :: rest) =
      ⟨((s.define name t).extend rest).session,
        s.redefinitions task name ++ ((s.define name t).extend rest).redefinitions,
        ((s.define name t).extend rest).stopped?⟩ := by
  rw [extend, h]

/-- Lines change definitions only. -/
theorem session_extend (s : Session) (tasks : List Task) :
    ∃ ds, (s.extend tasks).session = { s with definitions := ds } := by
  induction tasks generalizing s with
  | nil => exact ⟨s.definitions, rfl⟩
  | cons task rest ih =>
    cases hread : s.readDefinition task.line with
    | error failure =>
      rw [extend_of_error hread]
      exact ⟨s.definitions, rfl⟩
    | ok definition =>
      rw [extend_of_ok hread]
      exact ih (s.define definition.1 definition.2)

theorem path_extend (s : Session) (tasks : List Task) :
    (s.extend tasks).session.path = s.path := by
  rcases session_extend s tasks with ⟨ds, hsession⟩
  rw [hsession]

theorem limits_extend (s : Session) (tasks : List Task) :
    (s.extend tasks).session.limits = s.limits := by
  rcases session_extend s tasks with ⟨ds, hsession⟩
  rw [hsession]

/-- Lines in two parts: if the first part ends at one of its lines, the second one is not looked
at. -/
theorem extend_append (s : Session) (tasks more : List Task) :
    s.extend (tasks ++ more) =
      match s.extend tasks with
      | ⟨s', warnings, none⟩ =>
        ⟨(s'.extend more).session, warnings ++ (s'.extend more).redefinitions,
          (s'.extend more).stopped?⟩
      | stopped => stopped := by
  induction tasks generalizing s with
  | nil => rfl
  | cons task rest ih =>
    cases hread : s.readDefinition task.line with
    | error failure => rw [List.cons_append, extend_of_error hread, extend_of_error hread]
    | ok definition =>
      rw [List.cons_append, extend_of_ok hread, extend_of_ok hread, ih]
      rcases (s.define definition.1 definition.2).extend rest with ⟨s', warnings, _ | stopped⟩
      · simp only [List.append_assoc]
      · rfl

/-- Lines that end at one of them, and what the lines before it make of the session. -/
theorem exists_cut_of_extend (h : (s.extend tasks).stopped? = some (task, failure)) :
    ∃ before after, tasks = before ++ task :: after ∧
      s.extend before = ⟨(s.extend tasks).session, (s.extend tasks).redefinitions, none⟩ ∧
      (s.extend tasks).session.readDefinition task.line = .error failure := by
  induction tasks generalizing s with
  | nil => cases h
  | cons first rest ih =>
    cases hread : s.readDefinition first.line with
    | error failure' =>
      rw [extend_of_error hread] at h ⊢
      cases h
      exact ⟨[], rest, rfl, rfl, hread⟩
    | ok definition =>
      rw [extend_of_ok hread] at h ⊢
      rcases ih h with ⟨before, after, rfl, hbefore, hfails⟩
      refine ⟨first :: before, after, rfl, ?_, hfails⟩
      rw [extend_of_ok hread, hbefore]

/-- The lines that are told to define a name anew are among those that are added. -/
theorem task_mem_of_mem_redefinitions {warning : Redefinition}
    (h : warning ∈ (s.extend tasks).redefinitions) : warning.task ∈ tasks := by
  induction tasks generalizing s with
  | nil => cases h
  | cons task rest ih =>
    cases hread : s.readDefinition task.line with
    | error failure =>
      rw [extend_of_error hread] at h
      cases h
    | ok definition =>
      rw [extend_of_ok hread] at h
      rcases List.mem_append.1 h with hfirst | hrest
      · unfold redefinitions at hfirst
        split at hfirst
        · rcases List.mem_singleton.1 hfirst with rfl
          exact List.mem_cons_self
        · cases hfirst
      · exact List.mem_cons_of_mem task (ih hrest)

/-- What lines make of a session and why they end does not depend on their numbers. -/
theorem extend_congr (s : Session) {tasks tasks' : List Task}
    (h : tasks.map Task.line = tasks'.map Task.line) :
    (s.extend tasks).result = (s.extend tasks').result ∧
      (s.extend tasks).session = (s.extend tasks').session := by
  induction tasks generalizing s tasks' with
  | nil =>
    rw [List.map_eq_nil_iff.1 h.symm]
    exact ⟨rfl, rfl⟩
  | cons task rest ih =>
    cases tasks' with
    | nil => cases h
    | cons task' rest' =>
      rcases List.cons.inj h with ⟨hline, hrest⟩
      cases hread : s.readDefinition task.line with
      | error failure =>
        rw [extend_of_error hread, extend_of_error (hline ▸ hread)]
        exact ⟨rfl, rfl⟩
      | ok definition =>
        rw [extend_of_ok hread, extend_of_ok (hline ▸ hread)]
        exact ih (s.define definition.1 definition.2) hrest

/-! ## A reporter that follows -/

/-- Lines that are added make of the session what they make of it, and the lines after them are
added to that. The reporter has counted nothing meanwhile; if it was at rest, it has told of the
redefinitions only, and if there are none, it is as it was. A line that cannot be read stays in
progress. -/
theorem exists_addAll_append (s : Session) (tasks : List Task) (r : Reporter) :
    ∃ r' : Reporter, r'.steps = r.steps ∧ r'.verbose = r.verbose ∧
      (r.AtRest s.path → r' = r.tell s.path 0 ((s.extend tasks).redefinitions.map .redefinition)) ∧
      (r.clear s.path = r → (s.extend tasks).redefinitions = [] → r' = r) ∧
      ∀ more, s.addAll r (tasks ++ more) =
        match (s.extend tasks).stopped? with
        | none => (s.extend tasks).session.addAll r' more
        | some (task, failure) =>
          ⟨.error failure, (s.extend tasks).session, r'.during s.path (some task)⟩ := by
  induction tasks generalizing s r with
  | nil =>
    exact ⟨r, rfl, rfl, fun _ => (Reporter.tell_nothing r s.path).symm, fun _ _ => rfl,
      fun _ => rfl⟩
  | cons task rest ih =>
    cases hread : s.readDefinition task.line with
    | error failure =>
      rw [extend_of_error hread]
      refine ⟨r, rfl, rfl, fun _ => (Reporter.tell_nothing r s.path).symm, fun _ _ => rfl, ?_⟩
      intro more
      rw [List.cons_append, addAll, add_of_error hread]
      rfl
    | ok definition =>
      rcases definition with ⟨name, t⟩
      have hadd := add_of_ok hread task.number r
      -- What the line leaves of the reporter is where the lines after it start.
      rcases ih (s.define name t) (s.add task.line task.number r).reporter with
        ⟨r', hsteps, hverbose, htold, hquiet, hmore⟩
      rw [extend_of_ok hread]
      refine ⟨r', ?_, ?_, ?_, ?_, ?_⟩
      · rw [hsteps, hadd]
        rfl
      · rw [hverbose, hadd]
        rfl
      · intro hr
        rw [add_of_ok_atRest hread task.number hr] at htold
        rw [htold (Reporter.atRest_tell.2 hr), List.map_append]
        exact Reporter.tell_tell r s.path 0 0 _ _
      · intro hr hnone
        rcases List.append_eq_nil_iff.1 hnone with ⟨hfirst, hrest⟩
        have hnew : (s.definitions.find? name).isSome = false := by
          unfold redefinitions at hfirst
          split at hfirst
          · cases hfirst
          · next hdefined => exact Bool.eq_false_iff.2 hdefined
        rw [hnew, if_neg Bool.false_ne_true, Reporter.note_nothing, Reporter.clear_record, hr] at hadd
        rw [hadd] at hquiet
        exact hquiet hr hrest
      · intro more
        rw [hadd] at hmore
        rw [List.cons_append, addAll, hadd]
        exact hmore more

/-- What adding lines comes to, under any reporter. -/
theorem exists_addAll_eq (s : Session) (tasks : List Task) (r : Reporter) :
    ∃ r' : Reporter, r'.steps = r.steps ∧ r'.verbose = r.verbose ∧
      (r.AtRest s.path → r' = r.tell s.path 0 ((s.extend tasks).redefinitions.map .redefinition)) ∧
      (r.clear s.path = r → (s.extend tasks).redefinitions = [] → r' = r) ∧
      s.addAll r tasks =
        ⟨(s.extend tasks).result, (s.extend tasks).session,
          r'.during s.path (s.extend tasks).task?⟩ := by
  rcases exists_addAll_append s tasks r with ⟨r', hsteps, hverbose, htold, hquiet, hmore⟩
  refine ⟨r', hsteps, hverbose, htold, hquiet, ?_⟩
  have hall := hmore []
  rw [List.append_nil] at hall
  rw [hall]
  rcases s.extend tasks with ⟨s', warnings, _ | ⟨task, failure⟩⟩
  · rfl
  · rfl

/-- What adding lines comes to under a reporter at rest. -/
theorem addAll_eq (s : Session) (tasks : List Task) {r : Reporter} (hr : r.AtRest s.path) :
    s.addAll r tasks =
      ⟨(s.extend tasks).result, (s.extend tasks).session,
        (r.tell s.path 0 ((s.extend tasks).redefinitions.map .redefinition)).during s.path
          (s.extend tasks).task?⟩ := by
  rcases exists_addAll_eq s tasks r with ⟨r', _, _, htold, _, hall⟩
  rw [hall, htold hr]

/-- What adding lines comes to if none of them defines a name anew. -/
theorem addAll_of_quiet {s : Session} {tasks : List Task} (h : (s.extend tasks).redefinitions = [])
    {r : Reporter} (hr : r.clear s.path = r) :
    s.addAll r tasks =
      ⟨(s.extend tasks).result, (s.extend tasks).session,
        r.during s.path (s.extend tasks).task?⟩ := by
  rcases exists_addAll_eq s tasks r with ⟨r', _, _, _, hquiet, hall⟩
  rw [hall, hquiet hr h]

/-- Any reporter will do to see what adding lines comes to. -/
theorem addAll_eq_extend (s : Session) (tasks : List Task) (r : Reporter) :
    (s.addAll r tasks).result = (s.extend tasks).result ∧
      (s.addAll r tasks).session = (s.extend tasks).session ∧
      (s.addAll r tasks).reporter.steps = r.steps ∧
      (s.addAll r tasks).reporter.verbose = r.verbose := by
  rcases exists_addAll_eq s tasks r with ⟨r', hsteps, hverbose, _, _, hall⟩
  rw [hall]
  exact ⟨rfl, rfl, (Reporter.steps_during r' _ _).trans hsteps,
    (Reporter.verbose_during r' _ _).trans hverbose⟩

/-- Lines that are added end with a failure that has a report. -/
theorem toldAs_of_stopped (h : (s.extend tasks).stopped? = some (task, failure)) :
    ∃ report, failure.ToldAs report := by
  rcases exists_cut_of_extend h with ⟨_, _, _, _, hfails⟩
  exact toldAs_of_readDefinition hfails

end Session
end Nameless
