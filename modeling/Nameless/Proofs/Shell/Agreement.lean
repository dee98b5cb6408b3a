import Nameless.Proofs.Named.Reading
import Nameless.Proofs.Program
import Nameless.Proofs.Session.Readback
import Nameless.Proofs.Shell.Survival

/-!
# The shell agrees with a run

The lines of a program can also be entered in the shell, one after the other. If a run over the
program succeeds, the shell makes the same definitions of them, without a word, and the name of what
the program computes then has the value that the run prints, after as many contractions.

The run reduces the definition itself, and the shell a copy of it. A definition can be too high to
be copied and yet be reduced and printed. Then the shell tells that it goes too deep, and goes on.

This file defines:
- `Shell.answers`: the answers to lines one after the other,
- `Session.relocate`: a session with another source.

Main statements:
- `Session.exists_entered_of_read`: a line that a program defines something by is an entry that
  defines the same,
- `Shell.after_of_extend`: the shell after the lines of a program,
- `Shell.given_main`, `Shell.given_main_of_lt_height`: its answer to the name of what is computed,
- `Shell.answers_agree_with_run`: the shell agrees with the run,
- `Shell.answers_differ_from_run`: a definition that is too high to be copied.
-/

namespace Nameless

/-! ## Lines of a program in the shell -/

namespace Session

/-- The session, with another source for messages. -/
def relocate (s : Session) (path : String) : Session :=
  { s with path := path }

/-- What a definition says depends on its parts only. -/
theorem readDefinition_of_split {line line' : String} (h : Line.split line' = Line.split line)
    (s : Session) : s.readDefinition line' = s.readDefinition line := by
  unfold readDefinition
  rw [h]

/-- The shell takes a line that defines something for an entry that defines the same. -/
theorem exists_entered_of_read {s : Session} {line : List Char} {name : String} {t : Named Empty}
    (hcontent : Line.content line ≠ [])
    (hread : s.readDefinition (String.ofList (Line.content line)) = .ok (name, t)) :
    ∃ entry, (Command.read line).entered? = some entry ∧ '=' ∈ Line.content entry ∧
      s.readDefinition (String.ofList (Line.content entry)) = .ok (name, t) := by
  have htrim := Line.content_eq_trim hcontent
  have htrimmed : Text.Trimmed (Line.content line) := htrim ▸ Text.trimmed_trim line
  -- The line is a definition as it is written, and the entry differs from it in blanks at most.
  rcases readDefinition_eq_ok hread with ⟨expr, hsplit, _⟩
  rcases Line.split_eq_ok htrimmed hsplit with ⟨blanks, rest, hblanks, hname, hwritten, _⟩
  rcases Command.entered?_of_written hname hblanks (htrim.symm.trans hwritten) with
    ⟨entry, blanks', hentered, hblanks', hentry⟩
  refine ⟨entry, hentered, by simp [hentry, Line.written], ?_⟩
  rw [← hread]
  refine readDefinition_of_split ?_ s
  rw [hentry, hwritten, Line.split_written hname hblanks, Line.split_written hname hblanks']

end Session

namespace Shell

/-- The shell answers a line that a program skips without a word. -/
theorem respond_of_skip {line : List Char} (h : Line.content line = []) (s : Session)
    (entries : Nat) (r : Reporter) :
    ∃ entries', respond ⟨s, entries⟩ line r = ⟨.ok false, "", ⟨s, entries'⟩, r⟩ := by
  by_cases hcomment : Line.isComment line = true
  · rcases Command.entered?_of_comment hcomment with ⟨entry, hentered, hempty⟩
    refine ⟨entries + 1, ?_⟩
    rw [respond_of_entered hentered]
    exact enter_of_ok (by rw [hempty]; rfl)
  · have hblank : Text.trim line = [] := by
      rw [← h, Line.content, if_neg hcomment]
    have hread : Command.read line = .nothing := by
      unfold Command.read
      rw [hblank]
    refine ⟨entries, ?_⟩
    unfold respond
    rw [hread]

/-! ## Answers -/

/-- The answers to lines one after the other. -/
def answers (shell : Shell) (r : Reporter) : List (List Char) → List Response
  | [] => []
  | line :: rest =>
    shell.respond line r ::
      (shell.respond line r).shell.answers (shell.respond line r).reporter rest

/-- One more line is answered by the shell as the lines before have left it. -/
theorem after_concat {shell shell' : Shell} {r r' : Reporter} {lines : List (List Char)}
    (h : shell.after r lines = (shell', r')) (line : List Char) :
    shell.after r (lines ++ [line]) =
      ((shell'.respond line r').shell, (shell'.respond line r').reporter) := by
  induction lines generalizing shell r with
  | nil =>
    cases h
    rfl
  | cons first rest ih => exact ih h

theorem answers_concat {shell shell' : Shell} {r r' : Reporter} {lines : List (List Char)}
    (h : shell.after r lines = (shell', r')) (line : List Char) :
    shell.answers r (lines ++ [line]) = shell.answers r lines ++ [shell'.respond line r'] := by
  induction lines generalizing shell r with
  | nil =>
    cases h
    rfl
  | cons first rest ih => exact congrArg (List.cons _) (ih h)

theorem join_eq_empty {responses : List Response} (h : ∀ answer ∈ responses, answer.out = "") :
    String.join (responses.map Response.out) = "" := by
  induction responses with
  | nil => rfl
  | cons answer rest ih =>
    rcases List.forall_mem_cons.1 h with ⟨hanswer, hrest⟩
    rw [List.map_cons, String.join_cons, ih hrest, hanswer, String.append_empty]

/-- The shell after the lines of a program that loads: it has said nothing, counted nothing, and has
the definitions that the program makes. -/
theorem after_of_extend {number : Nat} {lines : List (List Char)} {s s' : Session}
    {warnings : List Redefinition} (h : s.extend (Line.tasks number lines) = ⟨s', warnings, none⟩)
    (path : String) (entries : Nat) {r : Reporter} (hfatal : r.fatal = false)
    (hrest : r.AtRest path) :
    (∀ answer ∈ answers ⟨s.relocate path, entries⟩ r lines,
        answer.stop = .ok false ∧ answer.out = "") ∧
      (after ⟨s.relocate path, entries⟩ r lines).1.session = s'.relocate path ∧
      (after ⟨s.relocate path, entries⟩ r lines).2.steps = r.steps ∧
      (after ⟨s.relocate path, entries⟩ r lines).2.verbose = r.verbose ∧
      (after ⟨s.relocate path, entries⟩ r lines).2.AtRest path := by
  -- The entries and the reporter go on from line to line, so the statement is about any of them.
  induction lines generalizing number s warnings entries r with
  | nil =>
    cases h
    exact ⟨by simp [answers], rfl, rfl, rfl, hrest⟩
  | cons line lines ih =>
    by_cases hcontent : Line.content line = []
    · rw [Line.tasks_of_skip hcontent] at h
      rcases respond_of_skip hcontent (s.relocate path) entries r with ⟨entries', hrespond⟩
      rw [answers, after, hrespond]
      rcases ih h entries' hfatal hrest with ⟨hanswers, hafter⟩
      exact ⟨List.forall_mem_cons.2 ⟨⟨rfl, rfl⟩, hanswers⟩, hafter⟩
    · rw [Line.tasks_of_content hcontent] at h
      let task : Task := ⟨String.ofList (Line.content line), some number⟩
      cases hread : s.readDefinition task.line with
      | error failure =>
        rw [@Session.extend_of_error s task failure hread] at h
        cases h
      | ok definition =>
        rcases definition with ⟨name, t⟩
        rw [@Session.extend_of_ok s task name t hread] at h
        rcases hextend : (s.define name t).extend (Line.tasks (number + 1) lines) with
          ⟨s'', more, stopped?⟩
        rw [hextend] at h
        cases h
        rcases Session.exists_entered_of_read hcontent hread with
          ⟨entry, hentered, hequals, hread'⟩
        have hgiven := given_definition (s := s.relocate path) hequals hread' entries r
        rw [← respond_of_entered hentered] at hgiven
        have hrest' : (respond ⟨s.relocate path, entries⟩ line r).reporter.AtRest path := by
          rw [hgiven.told hrest]
          exact Reporter.atRest_tell.2 hrest
        rw [answers, after, hgiven.shell]
        rcases ih hextend (entries + 1) (hgiven.fatal.trans hfatal) hrest' with
          ⟨hanswers, hsession, hsteps, hverbose, hafter⟩
        refine ⟨List.forall_mem_cons.2 ⟨⟨hgiven.stop, hgiven.out⟩, hanswers⟩, hsession, ?_, ?_,
          hafter⟩
        · exact hsteps.trans hgiven.steps
        · exact hverbose.trans hgiven.verbose

/-! ## What the program computes -/

/-- The entry that is the name of what a program computes. -/
theorem entered?_main :
    (Command.read Session.mainName.toList).entered? = some Session.mainName.toList ∧
      Line.content Session.mainName.toList = Session.mainName.toList :=
  Command.entered?_of_name (by decide) (by decide)

theorem readTerm_main {s : Session} {t : Named Empty} (hparsing : 0 < s.limits.parsing)
    (hmain : s.definitions.find? Session.mainName = some t) :
    s.readTerm Session.mainName =
      if t.height ≤ s.limits.copying then .ok t else .error .tooDeep := by
  rw [Session.readTerm_name (by decide) hparsing]
  unfold Session.fetch
  rw [hmain]

/-- The name of what the program computes is answered with its normal form, if its definition can be
copied. -/
theorem given_main {s : Session} {t u : Named Empty} {redexes : List (Indexed Empty)} {out : String}
    {verbose : Bool} (hparsing : 0 < s.limits.parsing)
    (hmain : s.definitions.find? Session.mainName = some t) (hcopy : t.height ≤ s.limits.copying)
    (hreduce : s.reduction verbose t = ⟨redexes, .ok u⟩) (hshow : s.show? u = .ok out)
    (entries : Nat) {r : Reporter} (hverbose : r.verbose = verbose) :
    ({ out := out ++ "\n"
       session := s
       steps := redexes.length
       notices := Notice.contractions verbose redexes } : Reply).Given s.path entries r
        (respond ⟨s, entries⟩ Session.mainName.toList r) := by
  rcases entered?_main with ⟨hentered, hcontent⟩
  have hread := readTerm_main hparsing hmain
  rw [if_pos hcopy] at hread
  rw [respond_of_entered hentered]
  refine given_value ?_ ?_ ?_ hreduce hshow entries hverbose
  · rw [hcontent]
    decide
  · rw [hcontent]
    decide
  · rw [hcontent, String.ofList_toList]
    exact hread

/-- If the definition of what the program computes is too high to be copied, its name is answered
with nothing, and the error is told. -/
theorem given_main_of_lt_height {s : Session} {t : Named Empty} (hparsing : 0 < s.limits.parsing)
    (hmain : s.definitions.find? Session.mainName = some t) (hcopy : s.limits.copying < t.height)
    (entries : Nat) {r : Reporter} (hfatal : r.fatal = false) :
    ({ session := s
       notices := [.error (some ⟨Session.mainName, none⟩) .tooDeep] } : Reply).Given s.path entries
        r (respond ⟨s, entries⟩ Session.mainName.toList r) := by
  rcases entered?_main with ⟨hentered, hcontent⟩
  have hread := readTerm_main hparsing hmain
  rw [if_neg (Nat.not_le_of_lt hcopy)] at hread
  have hfails : s.Fails r.verbose (Line.content Session.mainName.toList) true [] .tooDeep := by
    refine .term ?_ ?_ ?_
    · rw [hcontent]
      decide
    · rw [hcontent]
      decide
    · rw [hcontent, String.ofList_toList]
      exact hread
  have hgiven := given_fails hfails entries hfatal rfl
  rw [Session.traced_eq_self (by simp), Notice.contractions_nil, hcontent, String.ofList_toList]
    at hgiven
  rw [respond_of_entered hentered]
  exact hgiven

/-- Texts can be read in a session in which a program has defined something. -/
theorem parsing_pos_of_extend {s s' : Session} {tasks : List Task} {warnings : List Redefinition}
    {name : String} {t : Named Empty} (h : s.extend tasks = ⟨s', warnings, none⟩)
    (hbefore : s.definitions.find? name = none) (hafter : s'.definitions.find? name = some t) :
    0 < s.limits.parsing := by
  cases tasks with
  | nil =>
    cases h
    rw [hafter] at hbefore
    cases hbefore
  | cons task rest =>
    cases hread : s.readDefinition task.line with
    | error failure =>
      rw [@Session.extend_of_error s task failure hread] at h
      cases h
    | ok definition =>
      rcases Session.readDefinition_eq_ok hread with ⟨expr, _, hterm⟩
      exact Session.parsing_pos_of_readTerm hterm

section Ready

variable {bounds : Bounds} {options : Options} {program : List Char} {warnings : List Redefinition}
  {s : Session} {t : Named Empty}

theorem limits_of_ready (h : Program.Ready (Program.session bounds options) program warnings s t) :
    s.limits = bounds := by
  have hextend := Session.limits_extend (Program.session bounds options)
    (Line.tasks 1 (Text.lines program))
  rwa [h.extend] at hextend

theorem parsing_pos_of_ready
    (h : Program.Ready (Program.session bounds options) program warnings s t) :
    0 < s.limits.parsing := by
  rw [limits_of_ready h]
  exact parsing_pos_of_extend h.extend rfl h.main

end Ready

/-- A run over a program that defines what it computes as a number prints that number. -/
theorem batch_of_number {bounds : Bounds} {options : Options} {program : List Char} {line : String}
    {number : Int} {n : Nat}
    (htasks : Line.tasks 1 (Text.lines program) = [⟨line, some number⟩])
    (hsplit : Line.split line = .ok (Session.mainName, toString n))
    (hnumerals : options.numerals = true) (hparsing : 0 < bounds.parsing)
    (hshort : n < 10 ^ Mishap.maxDigits) (hnesting : n + 3 ≤ bounds.nesting) (style : Style) :
    ∃ s, Program.Ready (Program.session bounds options) program [] s (.numeral n) ∧
      ∃ err, Program.batch bounds style options (.ok program) =
        ⟨.success, toString n ++ "\n", err⟩ := by
  let s := Program.session bounds options
  have hterm : s.readTerm (toString n) = .ok (.numeral n) :=
    Session.readTerm_decimal hnumerals hparsing hshort rfl
  have hread : s.readDefinition line = .ok (Session.mainName, .numeral n) := by
    rw [Session.readDefinition_of_parts hsplit, hterm]
    rfl
  have hready : Program.Ready s program [] (s.define Session.mainName (.numeral n))
      (.numeral n) := by
    refine ⟨?_, ?_, .inr (Named.freeNames_numeral n)⟩
    · rw [htasks, @Session.extend_of_ok s ⟨line, some number⟩ _ _ hread]
      rfl
    · exact Definitions.find?_put_self ..
  rcases Session.exists_reduceIn?_numeral hnesting s.allowFree with ⟨u, hnumeral, hdone⟩
  have hshow := Session.show?_of_numeral? (s := s.define Session.mainName (.numeral n)) hnumerals
    hnumeral
  rw [if_pos hshort] at hshow
  have hcomputes := hready.computes (hdone options.verbose) hshow
  exact ⟨_, hready, _, Program.batch_of_computes hcomputes style⟩

/-! ## All lines -/

/-- A last line that has a reply, after lines that were answered without a word. -/
theorem answered_concat {shell : Shell} {r r' : Reporter} {lines : List (List Char)} {s : Session}
    {entries : Nat} (hafter : shell.after r lines = (⟨s, entries⟩, r'))
    (hanswers : ∀ answer ∈ shell.answers r lines, answer.stop = .ok false ∧ answer.out = "")
    {line : List Char} {reply : Reply} {path : String}
    (hgiven : reply.Given path entries r' (respond ⟨s, entries⟩ line r'))
    (hstop : reply.stop = .ok false) :
    (∀ answer ∈ shell.answers r (lines ++ [line]), answer.stop = .ok false) ∧
      String.join ((shell.answers r (lines ++ [line])).map Response.out) = reply.out ∧
      (shell.after r (lines ++ [line])).1.session = reply.session ∧
      (shell.after r (lines ++ [line])).2 = (respond ⟨s, entries⟩ line r').reporter := by
  have hsilent : String.join ((shell.answers r lines).map Response.out) = "" :=
    join_eq_empty fun answer hmem => (hanswers answer hmem).2
  rw [answers_concat hafter, after_concat hafter, hgiven.shell]
  refine ⟨?_, ?_, rfl, rfl⟩
  · refine List.forall_mem_append.2 ⟨fun answer hmem => (hanswers answer hmem).1, ?_⟩
    exact List.forall_mem_singleton.2 (hgiven.stop.trans hstop)
  · rw [List.map_append, String.join_append, hsilent, String.empty_append, List.map_singleton,
      String.join_cons, String.join_nil, String.append_empty, hgiven.out]

/-- A fresh shell after the lines of a program that is ready. -/
theorem exists_after_of_ready {bounds : Bounds} {options : Options} {program : List Char}
    {warnings : List Redefinition} {s : Session} {t : Named Empty}
    (h : Program.Ready (Program.session bounds options) program warnings s t) (style : Style)
    (verbose : Bool) :
    let start := Program.openShell bounds style { options with file := none, verbose := verbose }
    ∃ entries r,
      start.1.after start.2 (Text.lines program) = (⟨s.relocate standardInput, entries⟩, r) ∧
        (∀ answer ∈ start.1.answers start.2 (Text.lines program),
          answer.stop = .ok false ∧ answer.out = "") ∧
        r.fatal = false ∧ r.verbose = verbose ∧ r.steps = 0 ∧ r.AtRest standardInput := by
  intro start
  have hopened := Program.atRest_opened bounds style
    { options with file := none, verbose := verbose }
  have hstart : start.2.AtRest standardInput := ⟨hopened.idle, hopened.known⟩
  have hafter : (∀ answer ∈ start.1.answers start.2 (Text.lines program),
        answer.stop = .ok false ∧ answer.out = "") ∧
      (start.1.after start.2 (Text.lines program)).1.session = s.relocate standardInput ∧
      (start.1.after start.2 (Text.lines program)).2.steps = 0 ∧
      (start.1.after start.2 (Text.lines program)).2.verbose = verbose ∧
      (start.1.after start.2 (Text.lines program)).2.AtRest standardInput :=
    after_of_extend h.extend standardInput 0 rfl hstart
  have hfatal : (start.1.after start.2 (Text.lines program)).2.fatal = false := fatal_after rfl _
  rcases heq : start.1.after start.2 (Text.lines program) with ⟨⟨session, entries⟩, r⟩
  rw [heq] at hafter hfatal
  rcases hafter with ⟨hanswers, rfl, hsteps, hverbose, hrest⟩
  exact ⟨entries, r, rfl, hanswers, hfatal, hverbose, hsteps, hrest⟩

/-- If a run over a program succeeds, a fresh shell with the same settings takes the lines of the
program without stopping and without printing anything, and makes the same definitions of them. If
the definition of what the program computes can be copied, then its name as the last line makes the
shell count as many contractions and print the same as the run. If it cannot, because it is too
high, then the shell prints nothing and tells so, and goes on with the same definitions. -/
theorem answers_agree_with_run {args : List String} {options : Options} {terminal : Bool}
    {input program : List Char} {file : String → Option (List UInt8)} {bounds : Bounds}
    {style : Style} (hargs : CommandLine.read args = .proceed options)
    (hreads : Program.Reads options terminal input file program)
    (hsuccess : (Program.run bounds style args terminal input file).ending = .success)
    (style' : Style) (verbose : Bool) (hverbose : verbose = true → options.verbose = true) :
    let start := Program.openShell bounds style' { options with file := none, verbose := verbose }
    let lines := Text.lines program
    let entered := lines ++ [Session.mainName.toList]
    let loaded := ((Program.session bounds options).load program
      (Program.opened bounds style options)).session
    let before := start.1.after start.2 lines
    let last := start.1.after start.2 entered
    let out := String.join ((start.1.answers start.2 entered).map Response.out)
    (∀ answer ∈ start.1.answers start.2 entered, answer.stop = .ok false) ∧
      (∀ answer ∈ start.1.answers start.2 lines, answer.out = "") ∧
      before.1.session.definitions = loaded.definitions ∧
      last.1.session.definitions = loaded.definitions ∧
      ∃ t, loaded.definitions.find? Session.mainName = some t ∧
        (t.height ≤ bounds.copying →
          last.2.steps =
            (Program.compute bounds options program (Program.reporter style options)).2.steps ∧
          out = (Program.run bounds style args terminal input file).out) ∧
        (bounds.copying < t.height →
          out = "" ∧ last.2.steps = 0 ∧
          last.2 = before.2.tell standardInput 0
            [.error (some ⟨Session.mainName, some (before.1.entries + 1 : Nat)⟩) .tooDeep]) := by
  intro start lines entered loaded before last out
  rw [Program.run_of_reads hargs hreads] at hsuccess ⊢
  rcases Program.exists_computes_of_success hsuccess with
    ⟨warnings, s, redexes, u, text, hcomputes⟩
  rcases hcomputes.exists_reduction with ⟨t, hready, hreduce⟩
  have hloaded : loaded = s := by
    have hload := Session.addAll_eq (Program.session bounds options)
      (Line.tasks 1 (Text.lines program)) (Program.atRest_opened bounds style options)
    rw [hready.extend] at hload
    exact congrArg Outcome.session hload
  have hlimits := limits_of_ready hready
  have hparsing := parsing_pos_of_ready hready
  -- First the lines of the program, then the one that asks for its value.
  rcases exists_after_of_ready hready style' verbose with
    ⟨entries, r, hafter, hanswers, hfatal, hloud, hsteps, hrest⟩
  have hbefore : before = (⟨s.relocate standardInput, entries⟩, r) := hafter
  rw [hloaded, hbefore]
  by_cases hcopy : t.height ≤ bounds.copying
  · -- A shell that tells less computes the same.
    have hreduce' : s.reduction verbose t = ⟨redexes, .ok u⟩ := by
      cases verbose with
      | false => exact Named.reduceIn?_untraced hreduce
      | true => rwa [hverbose rfl] at hreduce
    have hgiven := given_main (s := s.relocate standardInput) hparsing hready.main
      (hlimits.symm ▸ hcopy) hreduce' hcomputes.shows entries hloud
    rcases answered_concat hafter hanswers hgiven rfl with ⟨hstop, hout, hsession, hreporter⟩
    refine ⟨hstop, fun answer hmem => (hanswers answer hmem).2, rfl, ?_, t, hready.main,
      fun _ => ⟨?_, ?_⟩, fun hlarge => absurd hcopy (Nat.not_le_of_lt hlarge)⟩
    · rw [show last.1.session = s.relocate standardInput from hsession]
      rfl
    · rw [Program.compute_of_reduced hready hreduce, Program.steps_opened_tell]
      exact (congrArg Reporter.steps hreporter).trans
        (hgiven.steps.trans ((congrArg (· + redexes.length) hsteps).trans (Nat.zero_add _)))
    · rw [Program.batch_of_computes hcomputes]
      exact hout
  · have hlarge := Nat.lt_of_not_le hcopy
    have hgiven := given_main_of_lt_height (s := s.relocate standardInput) hparsing hready.main
      (hlimits.symm ▸ hlarge) entries hfatal
    rcases answered_concat hafter hanswers hgiven rfl with ⟨hstop, hout, hsession, hreporter⟩
    refine ⟨hstop, fun answer hmem => (hanswers answer hmem).2, rfl, ?_, t, hready.main,
      fun hsmall => absurd hsmall hcopy, fun _ => ⟨hout, ?_, ?_⟩⟩
    · rw [show last.1.session = s.relocate standardInput from hsession]
      rfl
    · exact (congrArg Reporter.steps hreporter).trans (hgiven.steps.trans hsteps)
    · exact hreporter.trans (hgiven.told hrest)

/-- A program with a comment, blanks around its lines, and a definition of the name that also stands
for the end of the input. -/
theorem answers_agree_with_run_end_of_input :
    let program := "// one\n\n  EOF =\\x.x \n\tEOF= \\y.y\nMAIN   =(EOF EOF)".toList
    let quiet := Program.run .standard .plain [] false program fun _ => none
    let start := Program.openShell .standard .plain {}
    let lines := Text.lines program ++ ["MAIN".toList]
    quiet.ending = .success ∧ quiet.out = "λa.a\n" ∧
      (∀ answer ∈ start.1.answers start.2 lines, answer.stop = .ok false) ∧
      String.join ((start.1.answers start.2 lines).map Response.out) = quiet.out := by
  intro program quiet start lines
  have hquiet : quiet.ending = .success ∧ quiet.out = "λa.a\n" := by decide +kernel
  have hargs : CommandLine.read [] = .proceed {} := by decide +kernel
  have hreads : Program.Reads {} false program (fun _ => none) program := .input rfl rfl
  have hmain : ((Program.session .standard {}).load program
      (Program.opened .standard .plain {})).session.definitions.find? Session.mainName =
        some (.app (.abs "y" (.sym "y")) (.abs "y" (.sym "y"))) := by decide +kernel
  rcases answers_agree_with_run hargs hreads hquiet.1 .plain false (by simp) with
    ⟨hgoes, _, _, _, t, hfind, hsmall, _⟩
  rcases Option.some.inj (hfind.symm.trans hmain) with rfl
  exact ⟨hquiet.1, hquiet.2, hgoes, (hsmall (by decide +kernel)).2⟩

/-- A number that a run prints, and that the shell cannot copy. -/
theorem answers_differ_from_run :
    let program := "MAIN = 3000".toList
    let options : Options := { numerals := true }
    let transcript := Program.run .standard .plain ["-n"] false program fun _ => none
    let start := Program.openShell .standard .plain options
    let entered := Text.lines program ++ [Session.mainName.toList]
    CommandLine.read ["-n"] = .proceed options ∧ transcript.ending = .success ∧
      transcript.out = "3000\n" ∧
      String.join ((start.1.answers start.2 entered).map Response.out) = "" := by
  intro program options transcript start entered
  have hargs : CommandLine.read ["-n"] = .proceed options := by decide +kernel
  have hreads : Program.Reads options false program (fun _ => none) program := .input rfl rfl
  have htasks : Line.tasks 1 (Text.lines program) = [⟨"MAIN = 3000", some 1⟩] := by decide +kernel
  have hsplit : Line.split "MAIN = 3000" = .ok (Session.mainName, toString 3000) := by
    decide +kernel
  have hnumerals : options.numerals = true := rfl
  have hparsing : 0 < Bounds.standard.parsing := by decide
  rcases batch_of_number htasks hsplit hnumerals hparsing (by decide +kernel) (by decide) .plain
    with ⟨s, hready, err, hbatch⟩
  have htranscript : transcript = ⟨.success, "3000\n", err⟩ :=
    (Program.run_of_reads hargs hreads .standard .plain).trans hbatch
  refine ⟨hargs, by rw [htranscript], by rw [htranscript], ?_⟩
  rcases exists_after_of_ready hready .plain false with ⟨entries, r, hafter, hanswers, hfatal, _⟩
  have hheight : s.limits.copying < (Named.numeral 3000 : Named Empty).height := by
    rw [limits_of_ready hready, Named.height_numeral]
    decide
  have hreading := parsing_pos_of_ready hready
  have hgiven := given_main_of_lt_height (s := s.relocate standardInput) hreading hready.main
    hheight entries hfatal
  exact (answered_concat hafter hanswers hgiven rfl).2.1

end Shell
end Nameless
