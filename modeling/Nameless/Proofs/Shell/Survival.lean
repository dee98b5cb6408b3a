import Nameless.Proofs.Named.Reading
import Nameless.Proofs.Numeral
import Nameless.Proofs.Shell.Entry

/-!
# What the shell survives

The shell goes on after every line but those that ask it to stop. A line that fails is told and
changes no definition, so the next line is answered as if it had not been entered. Two kinds of
failures are told and escape from the shell all the same: that of a term in which the first
reference that cannot be replaced is a numeral with too many digits, and that of a value that is a
number with too many digits. And the failure of a listing escapes without being told.

This file defines:
- `Shell.after`: the shell and its reporter after some lines,
- `Line.expression?`: the text that an entry gives to be read as a term,
- `Session.StuckIn`, `Session.Overflows`: the entries whose failure escapes,
- `Shell.Escapes`: the failures that escape at a line.

Main statements:
- `Shell.fatal_after`, `Shell.atRest_after`: what holds after any lines,
- `Shell.snd_listing_eq_some_iff`: when listing fails,
- `Shell.stop_respond_eq_error_iff`, `Shell.stop_respond_eq_true_iff`: the lines from which a
  failure escapes, and those that stop the shell,
- `Shell.respond_survives_except_overlong`: what the shell makes of any line after any others.
-/

namespace Nameless

/-- The text that an entry gives to be read as a term: that of a definition, if it is one. -/
def Line.expression? (content : List Char) : Option String :=
  if content = [] then none
  else if '=' ∈ content then (split (String.ofList content)).toOption.map Prod.snd
  else some (String.ofList content)

namespace Session

/-- The term of the entry is stuck at an overlong numeral. -/
def StuckIn (s : Session) (content : List Char) (name : String) : Prop :=
  ∃ expr t, Line.expression? content = some expr ∧ Named.parse s.limits.parsing expr = .ok t ∧
    s.StuckAt t name

/-- The entry has a value, which is a number with too many digits to be printed. -/
def Overflows (s : Session) (verbose : Bool) (content : List Char) : Prop :=
  ∃ t redexes u n, '=' ∉ content ∧ content ≠ [] ∧ s.readTerm (String.ofList content) = .ok t ∧
    s.reduction verbose t = ⟨redexes, .ok u⟩ ∧ s.decimal? u = some n ∧ 10 ^ Mishap.maxDigits ≤ n

variable {s : Session} {verbose : Bool} {content : List Char}

theorem not_overflows (h : s.limits.nesting ≤ 10 ^ Mishap.maxDigits) :
    ¬ s.Overflows verbose content := by
  rintro ⟨t, redexes, u, n, _, _, _, hreduce, hdecimal, hlong⟩
  have hlow := lt_nesting_of_decimal? hreduce hdecimal
  exact absurd (hlow.trans_le (h.trans hlong)) (Nat.lt_irrefl n)

/-- An entry whose expression cannot be read fails as reading it does. -/
theorem fails_of_expression {expr : String} {failure : Failure}
    (hexpr : Line.expression? content = some expr) (hread : s.readTerm expr = .error failure) :
    s.Fails verbose content true [] failure := by
  unfold Line.expression? at hexpr
  split_ifs at hexpr with hempty hequals
  · cases hsplit : Line.split (String.ofList content) with
    | error fault =>
      rw [hsplit] at hexpr
      cases hexpr
    | ok parts =>
      rcases parts with ⟨name, text⟩
      rw [hsplit] at hexpr
      cases hexpr
      refine .definition hequals ?_
      rw [readDefinition_of_parts hsplit, hread]
      rfl
  · cases hexpr
    exact .term hequals hempty hread

/-- An entry fails with a mishap just if its term is stuck at an overlong numeral or its value is
too long to be printed. -/
theorem fails_mishap_iff {cause : Mishap} :
    (∃ pending redexes, s.Fails verbose content pending redexes (.mishap cause)) ↔
      (∃ name, s.StuckIn content name ∧ cause = .tooManyDigits name.length) ∨
        s.Overflows verbose content ∧ cause = .tooLong := by
  constructor
  · rintro ⟨pending, redexes, hfails⟩
    have hne := hfails.ne_nil
    have hstuck {expr : String} (hexpr : Line.expression? content = some expr)
        (hread : s.readTerm expr = .error (.mishap cause)) :
        ∃ name, s.StuckIn content name ∧ cause = .tooManyDigits name.length := by
      rcases readTerm_eq_mishap_iff.1 hread with ⟨t, name, hparse, hstuck, hcause⟩
      exact ⟨name, ⟨expr, t, hexpr, hparse, hstuck⟩, hcause⟩
    cases hfails with
    | definition hequals hread =>
      rcases readDefinition_eq_error hread with ⟨_, hfault⟩ | ⟨name, expr, hsplit, hterm⟩
      · cases hfault
      · have hexpr : Line.expression? content = some expr := by
          simp [Line.expression?, hne, hequals, hsplit, Except.toOption]
        exact .inl (hstuck hexpr hterm)
    | term hequals _ hread =>
      exact .inl (hstuck (by simp [Line.expression?, hne, hequals]) hread)
    | value _ _ _ hreduce =>
      -- Reducing fails at the bounds or at a free variable, and neither is a mishap.
      have hescaping := (Named.toldAs_of_reduceIn? (congrArg Reduction.result hreduce)).1
      cases hescaping
    | text hequals hne hread hreduce hshow =>
      rcases show?_eq_error hshow with ⟨n, hdecimal, hlong, hcause⟩ | ⟨_, _, hcause⟩
      · cases hcause
        exact .inr ⟨⟨_, _, _, n, hequals, hne, hread, hreduce, hdecimal, hlong⟩, rfl⟩
      · cases hcause
  · rintro (⟨name, ⟨expr, t, hexpr, hparse, hstuck⟩, rfl⟩ |
      ⟨⟨t, redexes, u, n, hequals, hne, hread, hreduce, hdecimal, hlong⟩, rfl⟩)
    · have hread := readTerm_eq_mishap_iff.2 ⟨t, name, hparse, hstuck, rfl⟩
      exact ⟨true, [], fails_of_expression hexpr hread⟩
    · have hshow : s.show? u = .error (.mishap .tooLong) := by
        rw [show?_empty, overrun?_eq, hdecimal]
        simp only [if_neg (Nat.not_lt.2 hlong)]
      exact ⟨false, redexes, .text hequals hne hread hreduce hshow⟩

theorem fails_of_work {number : Nat} {r : Reporter} {failure : Failure}
    (h : (Shell.work s content number r).result = .error failure) :
    ∃ pending redexes, s.Fails r.verbose content pending redexes failure := by
  rcases entry_cases s r.verbose content with
    rfl | ⟨name, t, hequals, hread⟩ | ⟨t, redexes, u, out, hequals, hne, hread, hreduce, hshow⟩ |
      ⟨pending, redexes, failure', hfails⟩
  · cases h
  · rw [Shell.work_of_definition hequals hread] at h
    cases h
  · rw [Shell.work_of_reduced hequals hne hread hreduce, hshow] at h
    cases h
  · rw [Shell.work_of_fails hfails] at h
    cases h
    exact ⟨pending, redexes, hfails⟩

end Session

namespace Shell

/-! ## After some lines -/

/-- The shell and its reporter after some lines. -/
def after (shell : Shell) (r : Reporter) : List (List Char) → Shell × Reporter
  | [] => (shell, r)
  | line :: rest => (shell.respond line r).shell.after (shell.respond line r).reporter rest

theorem fatal_after {shell : Shell} {r : Reporter} (h : r.fatal = false)
    (lines : List (List Char)) : (shell.after r lines).2.fatal = false := by
  induction lines generalizing shell r with
  | nil => exact h
  | cons line rest ih =>
    rcases exists_reply shell.session r.verbose line with ⟨reply, _, hgiven⟩
    exact ih ((hgiven shell.entries r h rfl).fatal.trans h)

/-- Once a line is answered, no line is in progress. -/
theorem atRest_after {shell : Shell} {r : Reporter} (hfatal : r.fatal = false)
    (h : r.AtRest shell.session.path) (lines : List (List Char)) :
    (shell.after r lines).2.AtRest (shell.after r lines).1.session.path := by
  induction lines generalizing shell r with
  | nil => exact h
  | cons line rest ih =>
    -- What is told of a line leaves the lines in progress alone, and the source stays the same.
    rcases exists_reply shell.session r.verbose line with ⟨reply, hpath, hgiven⟩
    have hanswer := hgiven shell.entries r hfatal rfl
    refine ih (hanswer.fatal.trans hfatal) ?_
    rw [hanswer.told h, hanswer.shell]
    change (r.tell _ _ _).AtRest reply.session.path
    rw [hpath]
    exact Reporter.atRest_tell.2 h

/-! ## Stopping -/

theorem stopAfter_eq_error {failure escaped : Failure} (h : stopAfter failure = .error escaped) :
    ∃ cause, failure = .mishap cause ∧ escaped = .mishap cause := by
  cases failure with
  | mishap cause =>
    cases h
    exact ⟨cause, rfl, rfl⟩
  | _ => cases h

theorem stop_enter_of_fails {s : Session} {entry : List Char} {r : Reporter} {pending : Bool}
    {redexes : List (Indexed Empty)} {failure : Failure}
    (h : s.Fails r.verbose (Line.content entry) pending redexes failure) (entries : Nat)
    (hfatal : r.fatal = false) : (enter ⟨s, entries⟩ entry r).stop = stopAfter failure :=
  (given_fails h entries hfatal rfl).stop

/-- An entry stops nothing, unless its failure escapes. -/
theorem stop_enter (s : Session) (entries : Nat) (entry : List Char) {r : Reporter}
    (hfatal : r.fatal = false) :
    (enter ⟨s, entries⟩ entry r).stop = .ok false ∨
      ∃ pending redexes failure, s.Fails r.verbose (Line.content entry) pending redexes failure ∧
        (enter ⟨s, entries⟩ entry r).stop = stopAfter failure := by
  rcases Session.entry_cases s r.verbose (Line.content entry) with
    hempty | ⟨name, t, hequals, hread⟩ | ⟨t, redexes, u, out, hequals, hne, hread, hreduce, hshow⟩ |
      ⟨pending, redexes, failure, hfails⟩
  · exact .inl (given_nothing s hempty entries r).stop
  · exact .inl (given_definition hequals hread entries r).stop
  · exact .inl (given_value hequals hne hread hreduce hshow entries rfl).stop
  · exact .inr ⟨pending, redexes, failure, hfails, stop_enter_of_fails hfails entries hfatal⟩

/-- The failures that escape from an entry are those of terms that are stuck at an overlong numeral,
and of values that are too long. -/
theorem stop_enter_eq_error_iff {s : Session} {entries : Nat} {entry : List Char} {r : Reporter}
    (hfatal : r.fatal = false) {failure : Failure} :
    (enter ⟨s, entries⟩ entry r).stop = .error failure ↔
      (∃ name, s.StuckIn (Line.content entry) name ∧
        failure = .mishap (.tooManyDigits name.length)) ∨
        s.Overflows r.verbose (Line.content entry) ∧ failure = .mishap .tooLong := by
  constructor
  · intro h
    rcases stop_enter s entries entry hfatal with
      hok | ⟨pending, redexes, failure', hfails, hstop⟩
    · rw [hok] at h
      cases h
    · rcases stopAfter_eq_error (hstop ▸ h) with ⟨cause, rfl, rfl⟩
      rcases Session.fails_mishap_iff.1 ⟨pending, redexes, hfails⟩ with
        ⟨name, hstuck, rfl⟩ | ⟨hlong, rfl⟩
      · exact .inl ⟨name, hstuck, rfl⟩
      · exact .inr ⟨hlong, rfl⟩
  · have hescapes {cause : Mishap}
        (h : (∃ name, s.StuckIn (Line.content entry) name ∧ cause = .tooManyDigits name.length) ∨
          s.Overflows r.verbose (Line.content entry) ∧ cause = .tooLong) :
        (enter ⟨s, entries⟩ entry r).stop = .error (.mishap cause) := by
      rcases Session.fails_mishap_iff.2 h with ⟨pending, redexes, hfails⟩
      exact stop_enter_of_fails hfails entries hfatal
    rintro (⟨name, hstuck, rfl⟩ | ⟨hlong, rfl⟩)
    · exact hescapes (.inl ⟨name, hstuck, rfl⟩)
    · exact hescapes (.inr ⟨hlong, rfl⟩)

/-- A listing fails at the first definition that cannot be printed. -/
theorem snd_listing_eq_some_iff {s : Session} {ds : Definitions} {failure : Failure} :
    (listing s ds).2 = some failure ↔
      ∃ before d after, ds = before ++ d :: after ∧ (∀ e ∈ before, ∃ out, s.show? e.2 = .ok out) ∧
        s.show? d.2 = .error failure := by
  induction ds with
  | nil => simp [listing]
  | cons d rest ih =>
    unfold listing
    cases hshow : s.show? d.2 with
    | error failure' =>
      constructor
      · rintro ⟨⟩
        exact ⟨[], d, rest, rfl, by simp, hshow⟩
      · rintro ⟨before, d', after, hcut, hbefore, hd⟩
        cases before with
        | nil =>
          rcases List.cons.inj hcut with ⟨rfl, _⟩
          rw [hshow] at hd
          cases hd
          rfl
        | cons first before =>
          rcases List.cons.inj hcut with ⟨rfl, _⟩
          rcases hbefore d List.mem_cons_self with ⟨out, hout⟩
          rw [hshow] at hout
          cases hout
    | ok text =>
      change (listing s rest).2 = some failure ↔ _
      rw [ih]
      constructor
      · rintro ⟨before, d', after, rfl, hbefore, hd⟩
        exact ⟨d :: before, d', after, rfl,
          List.forall_mem_cons.2 ⟨⟨text, hshow⟩, hbefore⟩, hd⟩
      · rintro ⟨before, d', after, hcut, hbefore, hd⟩
        cases before with
        | nil =>
          rcases List.cons.inj hcut with ⟨rfl, _⟩
          rw [hshow] at hd
          cases hd
        | cons first before =>
          rcases List.cons.inj hcut with ⟨_, hrest⟩
          exact ⟨before, d', after, hrest, (List.forall_mem_cons.1 hbefore).2, hd⟩

theorem stop_list_eq_error_iff {shell : Shell} {r : Reporter} {failure : Failure} :
    (shell.list r).stop = .error failure ↔
      (listing shell.session shell.session.definitions).2 = some failure := by
  unfold list
  rcases listing shell.session shell.session.definitions with ⟨out, _ | failure'⟩ <;> simp

/-- The failures that escape from the shell at a line. -/
inductive Escapes (s : Session) (verbose : Bool) (line : List Char) : Failure → Prop where
  | stuck {entry : List Char} {name : String} :
      (Command.read line).entered? = some entry → s.StuckIn (Line.content entry) name →
        Escapes s verbose line (.mishap (.tooManyDigits name.length))
  | overflow {entry : List Char} :
      (Command.read line).entered? = some entry → s.Overflows verbose (Line.content entry) →
        Escapes s verbose line (.mishap .tooLong)
  | listing {before after : Definitions} {d : String × Named Empty} {failure : Failure} :
      Command.read line = .listDefinitions → s.definitions = before ++ d :: after →
      (∀ e ∈ before, ∃ out, s.show? e.2 = .ok out) → s.show? d.2 = .error failure →
        Escapes s verbose line failure

theorem stop_respond_eq_error_iff {s : Session} {entries : Nat} {line : List Char} {r : Reporter}
    (hfatal : r.fatal = false) {failure : Failure} :
    (respond ⟨s, entries⟩ line r).stop = .error failure ↔ Escapes s r.verbose line failure := by
  constructor
  · intro h
    cases hline : (Command.read line).entered? with
    | some entry =>
      rw [respond_of_entered hline, stop_enter_eq_error_iff hfatal] at h
      rcases h with ⟨name, hstuck, rfl⟩ | ⟨hlong, rfl⟩
      · exact .stuck hline hstuck
      · exact .overflow hline hlong
    | none =>
      -- Of the commands only the one that lists the definitions can fail.
      unfold respond at h
      cases hread : Command.read line with
      | listDefinitions =>
        rw [hread] at h
        rcases snd_listing_eq_some_iff.1 (stop_list_eq_error_iff.1 h) with
          ⟨before, d, after, hcut, hbefore, hd⟩
        exact .listing hread hcut hbefore hd
      | enter entry =>
        rw [hread] at hline
        cases hline
      | endOfInput arg =>
        rw [hread] at h hline
        cases arg with
        | nil => cases h
        | cons c arg => cases hline
      | _ =>
        rw [hread] at h
        cases h
  · intro h
    cases h with
    | stuck hline hstuck =>
      rw [respond_of_entered hline, stop_enter_eq_error_iff hfatal]
      exact .inl ⟨_, hstuck, rfl⟩
    | overflow hline hlong =>
      rw [respond_of_entered hline, stop_enter_eq_error_iff hfatal]
      exact .inr ⟨hlong, rfl⟩
    | listing hread hcut hbefore hd =>
      unfold respond
      rw [hread]
      exact stop_list_eq_error_iff.2 (snd_listing_eq_some_iff.2 ⟨_, _, _, hcut, hbefore, hd⟩)

theorem stop_respond_eq_true_iff {s : Session} {entries : Nat} {line : List Char} {r : Reporter}
    (hfatal : r.fatal = false) :
    (respond ⟨s, entries⟩ line r).stop = .ok true ↔
      Command.word line = "exit" ∨ Text.trim line = "EOF".toList := by
  rw [← Command.read_eq_exit_iff, ← Command.read_eq_endOfInput_iff]
  -- An entry goes on or fails, so only the two commands are left.
  have henter : ∀ entry, (enter ⟨s, entries⟩ entry r).stop ≠ .ok true := by
    intro entry hstop
    rcases stop_enter s entries entry hfatal with hok | ⟨_, _, failure, _, hfailed⟩
    · rw [hok] at hstop
      cases hstop
    · rw [hfailed, stopAfter] at hstop
      split at hstop <;> cases hstop
  unfold respond
  cases hread : Command.read line with
  | endOfInput arg =>
    cases arg with
    | nil => simp
    | cons c arg => simpa using henter _
  | enter entry => simpa using henter entry
  | listDefinitions =>
    unfold list
    rcases listing s s.definitions with ⟨out, _ | failure⟩ <;> simp
  | _ => simp

/-! ## Overlong numerals -/

theorem isName_of_overlong {s : Session} {name : List Char}
    (h : s.Overlong (String.ofList name)) : Line.isName name = true := by
  rcases h with ⟨_, _, hdigits, hlong⟩
  rw [String.toList_ofList] at hdigits
  rw [String.length_ofList] at hlong
  have hne : name.isEmpty = false := by
    rw [List.isEmpty_eq_false_iff]
    rintro rfl
    cases hlong
  simp only [Line.isName, hne, Bool.not_false, Bool.true_and, List.all_eq_true]
  intro c hc
  have hdigit := hdigits c hc
  simp only [Char.isDigit, Bool.and_eq_true, decide_eq_true_eq] at hdigit
  simp only [isUpperOrDigit, Bool.or_eq_true, Bool.and_eq_true, decide_eq_true_eq]
  exact .inr hdigit

/-- The failure of an overlong numeral that is entered by itself escapes. -/
theorem stop_respond_of_overlong {s : Session} {name : List Char}
    (h : s.Overlong (String.ofList name)) (hparsing : 0 < s.limits.parsing) (entries : Nat)
    {r : Reporter} (hfatal : r.fatal = false) :
    (respond ⟨s, entries⟩ name r).stop = .error (.mishap (.tooManyDigits name.length)) := by
  -- A numeral is a name, so it is an entry and its own expression.
  have hname := isName_of_overlong h
  have hne : name ≠ "EOF".toList := by
    rintro rfl
    exact absurd h.2.2.2 (by decide)
  have hequals : '=' ∉ name := by
    intro hmem
    exact absurd (Line.isUpperOrDigit_of_isName hname _ hmem) (by decide)
  have hnonempty : name ≠ [] := by
    rintro rfl
    cases hname
  rcases Command.entered?_of_name hname hne with ⟨hentered, hcontent⟩
  have hexpr : Line.expression? (Line.content name) = some (String.ofList name) := by
    rw [hcontent]
    simp [Line.expression?, hequals, hnonempty]
  have hstuck : s.StuckAt (.leaf ⟨String.ofList name⟩) (String.ofList name) :=
    ⟨h, [], [], rfl, by simp⟩
  have hparse := Named.parse_reference hname hparsing
  rw [stop_respond_eq_error_iff hfatal, ← String.length_ofList]
  exact .stuck hentered ⟨_, _, hexpr, hparse, hstuck⟩

/-! ## Failing -/

/-- What is left of a line that fails: what was told while it was worked on, and the error. -/
theorem respond_of_fails {shell : Shell} {r : Reporter} {line entry : List Char}
    (hentered : (Command.read line).entered? = some entry) {pending : Bool}
    {redexes : List (Indexed Empty)} {failure : Failure}
    (hfails : shell.session.Fails r.verbose (Line.content entry) pending redexes failure)
    {report : Report} (htold : failure.ToldAs report) (hfatal : r.fatal = false) :
    shell.respond line r =
      ⟨stopAfter failure, "", ⟨shell.session, shell.entries + 1⟩,
        ((work shell.session (Line.content entry) (shell.entries + 1) r).reporter.printError
          report).clearAll⟩ := by
  rw [respond_of_entered hentered]
  exact enter_of_fails hfails htold shell.entries hfatal

theorem atRest_of_fails {s : Session} {content : List Char} {r : Reporter} {pending : Bool}
    {redexes : List (Indexed Empty)} {failure : Failure}
    (h : s.Fails r.verbose content pending redexes failure) (number : Nat) (report : Report) :
    ((work s content number r).reporter.printError report).clearAll.AtRest s.path := by
  rw [work_of_fails h, Reporter.printError_eq_note, Reporter.clearAll_note]
  exact Reporter.atRest_note.2 (Reporter.atRest_clearAll_worked ..)

/-- The shell goes on after every line, in every session and whatever lines were entered before,
with two exceptions. A failure escapes from it just if the line has a term that is stuck at an
overlong numeral, or a value that is a number with too many digits, or if it asks for a listing of
definitions of which one cannot be printed. As long as terms nest no deeper than such numbers are
great, only the first of these happens to an entry. And the shell stops just at the word `exit` and
at the end of the input. A line that fails is told, below what was told of its contractions, and the
definitions stay as they were; the next line then has the reply that it would have had before. -/
theorem respond_survives_except_overlong (s : Session) (r₀ : Reporter)
    (earlier : List (List Char)) (line : List Char) :
    let start := Shell.start s (s.register r₀)
    let shell := (start.1.after start.2 earlier).1
    let r := (start.1.after start.2 earlier).2
    let path := shell.session.path
    let answer := shell.respond line r
    (r₀.Idle → r.AtRest path) ∧
      (∀ failure, answer.stop = .error failure ↔ Escapes shell.session r.verbose line failure) ∧
      (∀ entry failure, (Command.read line).entered? = some entry →
        shell.session.limits.nesting ≤ 10 ^ Mishap.maxDigits →
        (answer.stop = .error failure ↔ ∃ name, shell.session.StuckIn (Line.content entry) name ∧
          failure = .mishap (.tooManyDigits name.length))) ∧
      (answer.stop = .ok true ↔ Command.word line = "exit" ∨ Text.trim line = "EOF".toList) ∧
      ∀ entry failure, (Command.read line).entered? = some entry →
        let worked := work shell.session (Line.content entry) (shell.entries + 1) r
        worked.result = .error failure →
        answer.out = "" ∧ answer.shell = ⟨shell.session, shell.entries + 1⟩ ∧
          (∃ report, failure.ToldAs report ∧
            answer.reporter.printed = worked.reporter.printed ++
              Reporter.errorText r.style worked.reporter.tracebackText report) ∧
          answer.reporter.AtRest path ∧
          ∀ next, ∃ reply : Reply,
            reply.Given path shell.entries r (shell.respond next r) ∧
              reply.Given path answer.shell.entries answer.reporter
                (answer.shell.respond next answer.reporter) := by
  intro start shell r path answer
  have hfatal : r.fatal = false := fatal_after rfl earlier
  refine ⟨?_, ?_, ?_, ?_, ?_⟩
  · intro hidle
    have hopened := Reporter.atRest_clear hidle s.path
    have hstart : start.2.AtRest start.1.session.path := ⟨hopened.idle, hopened.known⟩
    exact atRest_after rfl hstart earlier
  · intro failure
    exact stop_respond_eq_error_iff hfatal
  · intro entry failure hentered hnesting
    have hanswer : answer = shell.enter entry r := respond_of_entered hentered shell r
    rw [hanswer, stop_enter_eq_error_iff hfatal]
    exact or_iff_left fun hlong => Session.not_overflows hnesting hlong.1
  · exact stop_respond_eq_true_iff hfatal
  · intro entry failure hentered worked hfailed
    rcases Session.fails_of_work hfailed with ⟨pending, redexes, hfails⟩
    rcases hfails.toldAs with ⟨report, htold⟩
    have hanswer : answer = _ := respond_of_fails hentered hfails htold hfatal
    have hshell : answer.shell = ⟨shell.session, shell.entries + 1⟩ := by rw [hanswer]
    refine ⟨by rw [hanswer], hshell, ⟨report, htold, ?_⟩, ?_, ?_⟩
    · -- The error is printed below what was printed while the line was worked on.
      have hstyle : worked.reporter.style = r.style := by
        rw [show worked = _ from work_of_fails hfails (shell.entries + 1), Reporter.style_worked]
        rfl
      rw [hanswer, Reporter.printError_eq_note, ← hstyle]
      rfl
    · rw [hanswer]
      exact atRest_of_fails hfails (shell.entries + 1) report
    · -- Neither the session nor the settings of the reporter have changed.
      intro next
      rcases exists_reply shell.session r.verbose line with ⟨_, _, hline⟩
      rcases exists_reply shell.session r.verbose next with ⟨reply, _, hnext⟩
      have hgiven := hline shell.entries r hfatal rfl
      refine ⟨reply, hnext shell.entries r hfatal rfl, ?_⟩
      rw [hshell]
      exact hnext (shell.entries + 1) answer.reporter (hgiven.fatal.trans hfatal) hgiven.verbose

/-- A name that is not defined, after a definition. -/
theorem respond_survives_except_overlong_undefined :
    let s : Session := { numerals := true }
    let start := Shell.start s (s.register {})
    let shell := (start.1.after start.2 ["ID = \\x.x".toList]).1
    let r := (start.1.after start.2 ["ID = \\x.x".toList]).2
    let answer := shell.respond "(ID AB)".toList r
    (work shell.session "(ID AB)".toList 2 r).result =
        .error (.fault (.undefined "(ID AB)" "AB" 4 6)) ∧
      r.AtRest s.path ∧ answer.stop ≠ .ok true ∧ answer.shell = ⟨shell.session, 2⟩ ∧
      ∃ reply : Reply,
        reply.Given s.path 1 r (shell.respond "(ID ID)".toList r) ∧
          reply.Given s.path 2 answer.reporter
            (answer.shell.respond "(ID ID)".toList answer.reporter) := by
  intro s start shell r answer
  have hfailed : (work shell.session "(ID AB)".toList 2 r).result =
      .error (.fault (.undefined "(ID AB)" "AB" 4 6)) := by decide +kernel
  rcases respond_survives_except_overlong s {} ["ID = \\x.x".toList] "(ID AB)".toList with
    ⟨hrest, _, _, hstop, hfails⟩
  rcases hfails "(ID AB)".toList _ (by decide) hfailed with ⟨_, hshell, _, _, hnext⟩
  have hidle : ({} : Reporter).Idle := by
    intro e he
    cases he
  have hgoes : answer.stop ≠ .ok true := by
    rw [Ne, hstop]
    decide
  exact ⟨hfailed, hrest hidle, hgoes, hshell, hshell ▸ hnext "(ID ID)".toList⟩

/-- A numeral of 4301 digits. -/
theorem respond_overlong_escapes :
    let s : Session := { numerals := true }
    let start := Shell.start s (s.register {})
    (start.1.respond (List.replicate 4301 '9') start.2).stop =
      .error (.mishap (.tooManyDigits 4301)) := by
  intro s start
  have hoverlong : s.Overlong (String.ofList (List.replicate 4301 '9')) := by
    refine ⟨rfl, rfl, ?_, ?_⟩
    · intro c hc
      rw [String.toList_ofList] at hc
      rw [List.eq_of_mem_replicate hc]
      decide
    · rw [String.length_ofList, List.length_replicate]
      decide
  have hstop := stop_respond_of_overlong hoverlong (by decide) 0 (r := start.2) rfl
  rw [List.length_replicate] at hstop
  exact hstop

end Shell
end Nameless
