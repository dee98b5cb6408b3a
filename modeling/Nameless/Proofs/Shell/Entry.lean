import Nameless.Proofs.Line
import Nameless.Proofs.Session.Loading

/-!
# Entries of the shell

An entry of the shell is skipped, or it adds a definition, or it has a value that is printed, or it
fails. Which of these it is depends on the session alone, and on whether contractions are told, but
not on what was counted and printed before, so a line has one reply, whenever it is entered. Only
the number of the entry in what is told differs.

An entry that cannot be read or reduced is in progress when it fails. An entry whose value cannot be
printed is done by then.

This file defines:
- `Session.Fails`: the entries that fail, and why,
- `Reporter.worked`: the reporter after an entry, which may be in progress still,
- `Shell.Reply`, `Shell.Reply.Given`: what a line is answered with, apart from the counters,
- `Notice.numbered`: a notice about the entry with a given number.

Main statements:
- `Session.entry_cases`: the four kinds of entries,
- `Shell.given_definition`, `Shell.given_value`, `Shell.given_fails`: the reply to each kind,
- `Shell.exists_reply`: every line has one reply.
-/

namespace Nameless

/-! ## Notices about an entry -/

namespace Notice

/-- The notice, if the entry that it is about has a given number. -/
def numbered (number : Nat) : Notice → Notice
  | redefinition w => redefinition { w with task := { w.task with number := some number } }
  | error (some task) failure => error (some { task with number := some number }) failure
  | notice => notice

theorem map_numbered_contractions (number : Nat) (verbose : Bool)
    (redexes : List (Indexed Empty)) :
    (contractions verbose redexes).map (numbered number) = contractions verbose redexes := by
  cases verbose with
  | false => rfl
  | true =>
    have hsame : numbered number ∘ contraction = contraction := rfl
    simp [contractions, hsame]

end Notice

/-! ## The reporter after an entry -/

namespace Reporter

/-- The reporter after a line was worked on, which is done unless it is in progress still. -/
def worked (r : Reporter) (path : String) (task : Task) (pending : Bool) : Reporter :=
  if pending then r.during path (some task) else (r.during path (some task)).clear path

variable (r : Reporter) (path : String) (task : Task) (pending : Bool)

@[simp] theorem fatal_worked : (r.worked path task pending).fatal = r.fatal := by
  cases pending <;> rfl

@[simp] theorem verbose_worked : (r.worked path task pending).verbose = r.verbose := by
  cases pending <;> rfl

@[simp] theorem style_worked : (r.worked path task pending).style = r.style := by
  cases pending <;> rfl

@[simp] theorem steps_worked : (r.worked path task pending).steps = r.steps := by
  cases pending <;> rfl

theorem AtRest.worked_eq {r : Reporter} {path : String} (h : r.AtRest path) :
    r.worked path task pending = r.during path (if pending then some task else none) := by
  cases pending with
  | false => exact h.clear_during task
  | true => rfl

/-- After an error about it the line is not in progress, whether or not it was done before. -/
theorem atRest_clearAll_worked : (r.worked path task pending).clearAll.AtRest path := by
  cases pending with
  | true => exact atRest_clearAll_record r path (some task.line) task.number
  | false => exact atRest_clearAll_record (r.record path (some task.line) task.number) path none none

end Reporter

/-! ## Kinds of entries -/

namespace Session

/-- The entry fails: whether it is in progress still, what was contracted before that, and why. -/
inductive Fails (s : Session) (verbose : Bool) (content : List Char) :
    Bool → List (Indexed Empty) → Failure → Prop where
  | definition {failure : Failure} :
      '=' ∈ content → s.readDefinition (String.ofList content) = .error failure →
        Fails s verbose content true [] failure
  | term {failure : Failure} :
      '=' ∉ content → content ≠ [] → s.readTerm (String.ofList content) = .error failure →
        Fails s verbose content true [] failure
  | value {t : Named Empty} {redexes : List (Indexed Empty)} {failure : Failure} :
      '=' ∉ content → content ≠ [] → s.readTerm (String.ofList content) = .ok t →
      s.reduction verbose t = ⟨redexes, .error failure⟩ →
        Fails s verbose content true redexes failure
  | text {t u : Named Empty} {redexes : List (Indexed Empty)} {failure : Failure} :
      '=' ∉ content → content ≠ [] → s.readTerm (String.ofList content) = .ok t →
      s.reduction verbose t = ⟨redexes, .ok u⟩ → s.show? u = .error failure →
        Fails s verbose content false redexes failure

variable {s : Session} {verbose : Bool} {content : List Char}

/-- What an entry is, in a given session. -/
theorem entry_cases (s : Session) (verbose : Bool) (content : List Char) :
    content = [] ∨
      (∃ name t, '=' ∈ content ∧ s.readDefinition (String.ofList content) = .ok (name, t)) ∨
      (∃ t redexes u out, '=' ∉ content ∧ content ≠ [] ∧
        s.readTerm (String.ofList content) = .ok t ∧ s.reduction verbose t = ⟨redexes, .ok u⟩ ∧
        s.show? u = .ok out) ∨
      ∃ pending redexes failure, s.Fails verbose content pending redexes failure := by
  by_cases hempty : content = []
  · exact .inl hempty
  by_cases hequals : '=' ∈ content
  · cases hread : s.readDefinition (String.ofList content) with
    | ok definition => exact .inr (.inl ⟨definition.1, definition.2, hequals, rfl⟩)
    | error failure => exact .inr (.inr (.inr ⟨true, [], failure, .definition hequals hread⟩))
  · cases hread : s.readTerm (String.ofList content) with
    | error failure => exact .inr (.inr (.inr ⟨true, [], failure, .term hequals hempty hread⟩))
    | ok t =>
      rcases hreduce : s.reduction verbose t with ⟨redexes, failure | u⟩
      · exact .inr (.inr (.inr ⟨true, redexes, failure, .value hequals hempty hread hreduce⟩))
      · cases hshow : s.show? u with
        | error failure =>
          have hfails : s.Fails verbose content false redexes failure :=
            .text hequals hempty hread hreduce hshow
          exact .inr (.inr (.inr ⟨false, redexes, failure, hfails⟩))
        | ok out => exact .inr (.inr (.inl ⟨t, redexes, u, out, hequals, hempty, rfl, hreduce, hshow⟩))

variable {pending : Bool} {redexes : List (Indexed Empty)} {failure : Failure}

theorem Fails.ne_nil (h : s.Fails verbose content pending redexes failure) : content ≠ [] := by
  cases h with
  | definition hequals _ =>
    rintro rfl
    cases hequals
  | term _ hne _ => exact hne
  | value _ hne _ _ => exact hne
  | text _ hne _ _ _ => exact hne

/-- Every failure of an entry is one that the reporter has a report for. -/
theorem Fails.toldAs (h : s.Fails verbose content pending redexes failure) :
    ∃ report, failure.ToldAs report := by
  cases h with
  | definition _ hread => exact toldAs_of_readDefinition hread
  | term _ _ hread => exact toldAs_of_readTerm hread
  | value _ _ _ hreduce =>
    exact (Named.toldAs_of_reduceIn? (congrArg Reduction.result hreduce)).2
  | text _ _ _ _ hshow => exact toldAs_of_show? hshow

end Session

/-! ## Working on an entry -/

namespace Shell

variable {s : Session} {content : List Char}

theorem work_equals (h : '=' ∈ content) (number : Nat) (r : Reporter) :
    work s content number r =
      match s.add (String.ofList content) (some number) r with
      | ⟨result, s, r⟩ => ⟨result.map fun _ => "", s, r⟩ := by
  unfold work
  split
  · cases h
  · simp [h]

theorem work_no_equals (hequals : '=' ∉ content) (hne : content ≠ []) (number : Nat)
    (r : Reporter) :
    work s content number r =
      match s.evaluate (String.ofList content) (some number) r with
      | (result, r) => ⟨result.bind fun t => (s.show? t).map (· ++ "\n"), s, r⟩ := by
  unfold work
  split
  · exact absurd rfl hne
  · simp [hequals]

theorem work_of_definition {name : String} {t : Named Empty} (hequals : '=' ∈ content)
    (hread : s.readDefinition (String.ofList content) = .ok (name, t)) (number : Nat)
    (r : Reporter) :
    work s content number r =
      ⟨.ok "", s.define name t, (s.add (String.ofList content) (some number) r).reporter⟩ := by
  rw [work_equals hequals, Session.add_of_ok hread]
  rfl

/-- What is contracted on the way to the value of an entry is told, and then its line is done. -/
theorem work_of_reduced {t u : Named Empty} {redexes : List (Indexed Empty)} {r : Reporter}
    (hequals : '=' ∉ content) (hne : content ≠ [])
    (hread : s.readTerm (String.ofList content) = .ok t)
    (hreduce : s.reduction r.verbose t = ⟨redexes, .ok u⟩) (number : Nat) :
    work s content number r =
      ⟨(s.show? u).map (· ++ "\n"), s,
        (r.tell s.path redexes.length (Notice.contractions r.verbose (s.traced redexes))).worked
          s.path ⟨String.ofList content, some number⟩ false⟩ := by
  rw [work_no_equals hequals hne, Session.evaluate_of_reduced hread hreduce]
  rfl

theorem work_of_fails {r : Reporter} {pending : Bool} {redexes : List (Indexed Empty)}
    {failure : Failure} (h : s.Fails r.verbose content pending redexes failure) (number : Nat) :
    work s content number r =
      ⟨.error failure, s,
        (r.tell s.path redexes.length (Notice.contractions r.verbose (s.traced redexes))).worked
          s.path ⟨String.ofList content, some number⟩ pending⟩ := by
  -- Only a term that could be read has been contracted before it fails.
  have hnothing : r.tell s.path 0 (Notice.contractions r.verbose (s.traced [])) = r := by
    rw [Session.traced_eq_self (by simp), Notice.contractions_nil, Reporter.tell_nothing]
  cases h with
  | definition hequals hread =>
    rw [work_equals hequals, Session.add_of_error hread, List.length_nil, hnothing]
    rfl
  | term hequals hne hread =>
    rw [work_no_equals hequals hne, Session.evaluate_of_unread hread, List.length_nil, hnothing]
    rfl
  | value hequals hne hread hreduce =>
    rw [work_no_equals hequals hne, Session.evaluate_of_unreduced hread hreduce]
    rfl
  | text hequals hne hread hreduce hshow =>
    rw [work_of_reduced hequals hne hread hreduce, hshow]
    rfl

/-! ## Answering an entry -/

/-- Whether the shell is to stop after a failure that was told, or what escapes from it. -/
def stopAfter (failure : Failure) : Except Failure Bool :=
  match failure.escaping? with
  | none => .ok false
  | some failure => .error failure

theorem enter_of_ok {shell : Shell} {entry : List Char} {r r' : Reporter} {out : String}
    {s' : Session}
    (h : work shell.session (Line.content entry) (shell.entries + 1) r = ⟨.ok out, s', r'⟩) :
    shell.enter entry r = ⟨.ok false, out, ⟨s', shell.entries + 1⟩, r'⟩ := by
  unfold enter
  simp only [h, Reporter.guard_ok]

theorem enter_of_fails {entry : List Char} {r : Reporter} {pending : Bool}
    {redexes : List (Indexed Empty)} {failure : Failure} {report : Report}
    (h : s.Fails r.verbose (Line.content entry) pending redexes failure)
    (htold : failure.ToldAs report) (entries : Nat) (hfatal : r.fatal = false) :
    enter ⟨s, entries⟩ entry r =
      ⟨stopAfter failure, "", ⟨s, entries + 1⟩,
        ((work s (Line.content entry) (entries + 1) r).reporter.printError report).clearAll⟩ := by
  have hwork := work_of_fails h (entries + 1)
  have hopen : (work s (Line.content entry) (entries + 1) r).reporter.fatal = false := by
    rw [hwork, Reporter.fatal_worked]
    exact hfatal
  have hleave := Reporter.leave_of_not_fatal htold hopen
  have hfailed : (work s (Line.content entry) (entries + 1) r).result = .error failure := by
    rw [hwork]
  have hsession : (work s (Line.content entry) (entries + 1) r).session = s := by rw [hwork]
  unfold enter stopAfter
  simp only [hfailed, hsession, Reporter.guard, hleave]
  cases failure.escaping? <;> rfl

/-! ## Replies -/

/-- What a line is answered with, apart from what was counted and printed before. -/
structure Reply where
  stop : Except Failure Bool := .ok false
  out : String := ""
  session : Session
  /-- How many entries the line is. -/
  entries : Nat := 1
  steps : Nat := 0
  notices : List Notice := []

/-- A line was answered with this reply, after some entries and under a reporter. If no line was in
progress then, all that the reporter has more than before are the notices, about the number that the
entry has. -/
structure Reply.Given (reply : Reply) (path : String) (entries : Nat) (r : Reporter)
    (answer : Response) : Prop where
  stop : answer.stop = reply.stop
  out : answer.out = reply.out
  shell : answer.shell = ⟨reply.session, entries + reply.entries⟩
  fatal : answer.reporter.fatal = r.fatal
  verbose : answer.reporter.verbose = r.verbose
  steps : answer.reporter.steps = r.steps + reply.steps
  told : r.AtRest path →
    answer.reporter = r.tell path reply.steps (reply.notices.map (Notice.numbered (entries + 1)))

variable {entry : List Char} {r : Reporter} {verbose : Bool}

theorem given_nothing (s : Session) (hcontent : Line.content entry = []) (entries : Nat)
    (r : Reporter) :
    ({ session := s } : Reply).Given s.path entries r (enter ⟨s, entries⟩ entry r) := by
  have henter : enter ⟨s, entries⟩ entry r = ⟨.ok false, "", ⟨s, entries + 1⟩, r⟩ :=
    enter_of_ok (by rw [hcontent]; rfl)
  rw [henter]
  exact ⟨rfl, rfl, rfl, rfl, rfl, rfl, fun _ => (Reporter.tell_nothing r s.path).symm⟩

theorem given_definition {name : String} {t : Named Empty} (hequals : '=' ∈ Line.content entry)
    (hread : s.readDefinition (String.ofList (Line.content entry)) = .ok (name, t))
    (entries : Nat) (r : Reporter) :
    ({ session := s.define name t
       notices := (s.redefinitions ⟨String.ofList (Line.content entry), none⟩ name).map
        .redefinition } : Reply).Given s.path entries r (enter ⟨s, entries⟩ entry r) := by
  rw [enter_of_ok (work_of_definition hequals hread (entries + 1) r)]
  refine ⟨rfl, rfl, rfl, ?_, ?_, ?_, ?_⟩
  · rw [Session.add_of_ok hread]
    rfl
  · rw [Session.add_of_ok hread]
    rfl
  · rw [Session.add_of_ok hread]
    rfl
  · -- The number of the entry stands in the warning, and nowhere else.
    intro hr
    rw [Session.add_of_ok_atRest hread _ hr]
    refine congrArg (r.tell s.path 0) ?_
    unfold Session.redefinitions
    split <;> rfl

theorem given_value {t u : Named Empty} {redexes : List (Indexed Empty)} {out : String}
    (hequals : '=' ∉ Line.content entry) (hne : Line.content entry ≠ [])
    (hread : s.readTerm (String.ofList (Line.content entry)) = .ok t)
    (hreduce : s.reduction verbose t = ⟨redexes, .ok u⟩) (hshow : s.show? u = .ok out)
    (entries : Nat) (hverbose : r.verbose = verbose) :
    ({ out := out ++ "\n"
       session := s
       steps := redexes.length
       notices := Notice.contractions verbose redexes } : Reply).Given s.path entries r
        (enter ⟨s, entries⟩ entry r) := by
  subst hverbose
  have hwork := work_of_reduced hequals hne hread hreduce (entries + 1)
  rw [hshow, Session.contractions_of_reduction hreduce] at hwork
  rw [enter_of_ok hwork]
  refine ⟨rfl, rfl, rfl, ?_, ?_, ?_, ?_⟩
  · rw [Reporter.fatal_worked]
    rfl
  · rw [Reporter.verbose_worked]
    rfl
  · rw [Reporter.steps_worked]
    rfl
  · intro hr
    rw [Notice.map_numbered_contractions, (Reporter.atRest_tell.2 hr).worked_eq]
    rfl

/-- An entry that fails is told and leaves the session as it was. -/
theorem given_fails {pending : Bool} {redexes : List (Indexed Empty)} {failure : Failure}
    (h : s.Fails verbose (Line.content entry) pending redexes failure) (entries : Nat)
    (hfatal : r.fatal = false) (hverbose : r.verbose = verbose) :
    ({ stop := stopAfter failure
       session := s
       steps := redexes.length
       notices := Notice.contractions verbose (s.traced redexes) ++
        [.error (if pending then some ⟨String.ofList (Line.content entry), none⟩ else none)
          failure] } : Reply).Given s.path entries r (enter ⟨s, entries⟩ entry r) := by
  subst hverbose
  rcases h.toldAs with ⟨report, htold⟩
  rw [enter_of_fails h htold entries hfatal, work_of_fails h (entries + 1)]
  refine ⟨rfl, rfl, rfl, ?_, ?_, ?_, ?_⟩
  · rw [Reporter.printError_eq_note, Reporter.clearAll_note, Reporter.fatal_note]
    exact Reporter.fatal_worked ..
  · rw [Reporter.printError_eq_note, Reporter.clearAll_note, Reporter.verbose_note]
    exact Reporter.verbose_worked ..
  · rw [Reporter.printError_eq_note]
    exact Reporter.steps_worked ..
  · intro hr
    have htell : (r.tell s.path redexes.length
        (Notice.contractions r.verbose (s.traced redexes))).AtRest s.path :=
      Reporter.atRest_tell.2 hr
    rw [htell.worked_eq, htell.printError_during htold,
      (Reporter.atRest_tell.2 htell).clearAll_during, Reporter.tell_tell, List.map_append,
      Notice.map_numbered_contractions]
    cases pending <;> rfl

/-! ## Answering a line -/

theorem respond_of_entered {line : List Char} (h : (Command.read line).entered? = some entry)
    (shell : Shell) (r : Reporter) : shell.respond line r = shell.enter entry r := by
  unfold respond
  cases hread : Command.read line with
  | enter line' =>
    rw [hread] at h
    cases h
    rfl
  | endOfInput arg =>
    rw [hread] at h
    cases arg with
    | nil => cases h
    | cons c arg =>
      cases h
      rfl
  | _ =>
    rw [hread] at h
    cases h

/-- A line that is no entry changes nothing. -/
theorem respond_of_command {line : List Char} (h : (Command.read line).entered? = none)
    (s : Session) :
    ∃ stop out, ∀ entries r, respond ⟨s, entries⟩ line r = ⟨stop, out, ⟨s, entries⟩, r⟩ := by
  unfold respond
  cases hread : Command.read line with
  | enter line' =>
    rw [hread] at h
    cases h
  | endOfInput arg =>
    rw [hread] at h
    cases arg with
    | nil => exact ⟨.ok true, _, fun _ _ => rfl⟩
    | cons c arg => cases h
  | nothing => exact ⟨.ok false, _, fun _ _ => rfl⟩
  | listDefinitions =>
    rcases hlisting : listing s s.definitions with ⟨out, _ | failure⟩
    · exact ⟨.ok false, out, fun entries r => by simp only [list, hlisting]⟩
    · exact ⟨.error failure, out, fun entries r => by simp only [list, hlisting]⟩
  | help => exact ⟨.ok false, _, fun _ _ => rfl⟩
  | exit => exact ⟨.ok true, _, fun _ _ => rfl⟩

/-- A line has one reply, whatever was counted and printed before. -/
theorem exists_reply (s : Session) (verbose : Bool) (line : List Char) :
    ∃ reply : Reply, reply.session.path = s.path ∧
      ∀ entries r, r.fatal = false → r.verbose = verbose →
        reply.Given s.path entries r (respond ⟨s, entries⟩ line r) := by
  cases hline : (Command.read line).entered? with
  | none =>
    rcases respond_of_command hline s with ⟨stop, out, hrespond⟩
    refine ⟨{ stop := stop, out := out, session := s, entries := 0 }, rfl, ?_⟩
    intro entries r _ _
    rw [hrespond]
    exact ⟨rfl, rfl, rfl, rfl, rfl, rfl, fun _ => (Reporter.tell_nothing r s.path).symm⟩
  | some entry =>
    -- Each kind of entry has a reply of its own, which depends on the session only.
    simp only [respond_of_entered hline]
    rcases Session.entry_cases s verbose (Line.content entry) with
      hempty | ⟨name, t, hequals, hread⟩ |
        ⟨t, redexes, u, out, hequals, hne, hread, hreduce, hshow⟩ |
        ⟨pending, redexes, failure, hfails⟩
    · exact ⟨_, rfl, fun entries r _ _ => given_nothing s hempty entries r⟩
    · exact ⟨_, rfl, fun entries r _ _ => given_definition hequals hread entries r⟩
    · exact ⟨_, rfl, fun entries r _ => given_value hequals hne hread hreduce hshow entries⟩
    · exact ⟨_, rfl, fun entries r hfatal => given_fails hfails entries hfatal⟩

end Shell
end Nameless
