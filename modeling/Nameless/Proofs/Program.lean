import Nameless.Program
import Nameless.Proofs.Numeral
import Nameless.Proofs.Session.Loading

/-!
# How a run ends

A run over a program ends in one of two ways. If the program loads, says what it computes, has no
variable free in it that must not be, and a normal form is found and can be printed within the
bounds, then the run prints that normal form and tells of nothing but redefinitions and, if asked
to, contractions. In all other cases it prints nothing, tells of one error last, and ends with the
exit status one. What is told of contractions makes no difference to the output and the exit status,
unless a redex is too high to be told.

This file defines:
- `Program.Reads`: the program that a run has to do with,
- `Program.Ready`: a program that loads and says what it computes, which may be reduced,
- `Program.Computes`: a program that comes to a normal form that can be printed,
- `Program.notices`: what is told of a run that prints a normal form,
- `Program.ReportsOnce`: a run that prints nothing and tells of one error,
- `Program.TooMuch`: the errors of a program in whose way nothing is but the bounds.

Main statements:
- `Program.batch_of_computes`, `Program.computes_or_reportsOnce`: the two ways,
- `Program.batch_verbose`: the difference that being verbose makes,
- `Program.run_prints_or_reports_once`: the two ways of a whole run.
-/

namespace Nameless

namespace Program

/-! ## Programs -/

/-- The program that a run with given options has to do with: the standard input, or a file that can
be read. -/
inductive Reads (options : Options) (terminal : Bool) (input : List Char)
    (file : String → Option (List UInt8)) : List Char → Prop where
  | input : options.file = none → terminal = false → Reads options terminal input file input
  | file {path : String} {program : List Char} :
      options.file = some path → decode path (file path) = .ok program →
        Reads options terminal input file program

theorem run_of_reads {args : List String} {options : Options} {terminal : Bool}
    {input program : List Char} {file : String → Option (List UInt8)}
    (hargs : CommandLine.read args = .proceed options)
    (hreads : Reads options terminal input file program) (bounds : Bounds) (style : Style) :
    run bounds style args terminal input file = batch bounds style options (.ok program) := by
  unfold run
  rw [hargs]
  cases hreads with
  | input hfile hterminal => simp [hfile, hterminal]
  | file hfile hdecode => simp [hfile, hdecode]

/-- Every line of the program that is not skipped loads in a session, and the session that they
make, with some lines that define a name anew, has a term for what the program computes, in which no
variable is free that must not be. -/
structure Ready (s : Session) (program : List Char) (warnings : List Redefinition) (s' : Session)
    (t : Named Empty) : Prop where
  extend : s.extend (Line.tasks 1 (Text.lines program)) = ⟨s', warnings, none⟩
  main : s'.definitions.find? Session.mainName = some t
  free : s.allowFree = true ∨ t.freeNames = []

/-- The program is ready and its term comes to a normal form within the bounds: the lines that
define a name anew, the session that the program makes, the contractions, the normal form with
names, and how it is printed. -/
structure Computes (s : Session) (verbose : Bool) (program : List Char)
    (warnings : List Redefinition) (s' : Session) (redexes : List (Indexed Empty))
    (u : Named Empty) (out : String) : Prop where
  reduces : ∃ t v, Ready s program warnings s' t ∧ t.height ≤ s.limits.nesting ∧
    (t.nameless []).nfIn s.limits verbose = ⟨redexes, .ok v⟩ ∧ v.toNamed? = .ok u
  shows : s'.show? u = .ok out

variable {s s' : Session} {verbose : Bool} {program : List Char} {warnings : List Redefinition}
  {t u : Named Empty} {redexes : List (Indexed Empty)} {out : String}

/-- The session that a program makes reduces terms as the session does in which it loads. -/
theorem reduction_of_extend {tasks : List Task} (h : s.extend tasks = ⟨s', warnings, none⟩)
    (verbose : Bool) (t : Named Empty) :
    s'.reduction verbose t = t.reduceIn? s.limits verbose s.allowFree := by
  rcases Session.session_extend s tasks with ⟨ds, hsession⟩
  rw [h] at hsession
  rw [show s' = _ from hsession]
  rfl

theorem Computes.exists_reduction (h : Computes s verbose program warnings s' redexes u out) :
    ∃ t, Ready s program warnings s' t ∧ s'.reduction verbose t = ⟨redexes, .ok u⟩ := by
  rcases h.reduces with ⟨t, v, hready, hheight, hnf, hnamed⟩
  refine ⟨t, hready, ?_⟩
  rw [reduction_of_extend hready.extend]
  exact Named.reduceIn?_eq_ok_iff.2 ⟨hready.free, hheight, v, hnf, hnamed⟩

theorem Ready.computes (h : Ready s program warnings s' t)
    (hreduce : s'.reduction verbose t = ⟨redexes, .ok u⟩) (hshow : s'.show? u = .ok out) :
    Computes s verbose program warnings s' redexes u out := by
  rw [reduction_of_extend h.extend] at hreduce
  rcases Named.reduceIn?_eq_ok_iff.1 hreduce with ⟨_, hheight, v, hnf, hnamed⟩
  exact ⟨⟨t, v, h, hheight, hnf, hnamed⟩, hshow⟩

/-- What is told of a run that prints a normal form: all that is defined anew, and if the run is
verbose the contractions and their number. -/
def notices (verbose : Bool) (warnings : List Redefinition) (redexes : List (Indexed Empty)) :
    List Notice :=
  warnings.map .redefinition ++ Notice.contractions verbose redexes ++
    if verbose then [.summary redexes.length] else []

theorem isError_of_mem_notices {notice : Notice} (h : notice ∈ notices verbose warnings redexes) :
    notice.isError = false := by
  rcases List.mem_append.1 h with hleft | hright
  · rcases List.mem_append.1 hleft with hwarning | hcontraction
    · exact Notice.isError_of_mem_redefinitions hwarning
    · exact Notice.isError_of_mem_contractions hcontraction
  · split at hright
    · rcases List.mem_singleton.1 hright with rfl
      rfl
    · cases hright

/-! ## Stages of a run -/

variable {bounds : Bounds} {style : Style} {options : Options}

/-- The reporter of a run, once its source is known. -/
def opened (bounds : Bounds) (style : Style) (options : Options) : Reporter :=
  (session bounds options).register (reporter style options)

theorem atRest_opened (bounds : Bounds) (style : Style) (options : Options) :
    (opened bounds style options).AtRest (session bounds options).path := by
  refine Reporter.atRest_clear ?_ (session bounds options).path
  intro e he
  cases he

theorem steps_opened_tell (bounds : Bounds) (style : Style) (options : Options) (path : String)
    (count : Nat) (told : List Notice) :
    ((opened bounds style options).tell path count told).steps = count :=
  Nat.zero_add count

theorem printed_opened_tell (bounds : Bounds) (style : Style) (options : Options) (path : String)
    (count : Nat) (told : List Notice) :
    ((opened bounds style options).tell path count told).printed = Notice.texts style path told :=
  String.empty_append

/-- Loading the program of a run. -/
theorem load_opened (bounds : Bounds) (style : Style) (options : Options) (program : List Char) :
    let s := session bounds options
    let e := s.extend (Line.tasks 1 (Text.lines program))
    s.load program (s.register (reporter style options)) =
      ⟨e.result, e.session,
        ((opened bounds style options).tell s.path 0 (e.redefinitions.map .redefinition)).during
          s.path e.task?⟩ :=
  Session.addAll_eq _ _ (atRest_opened bounds style options)

/-- The run tells of some notices that are no errors, and last of one error, which is a failure that
the reporter has a report for. -/
def ReportsOnce (style : Style) (path : String) (failure : Failure) (transcript : Transcript) :
    Prop :=
  transcript.ending = .exit (.code 1) ∧ transcript.out = "" ∧
    (∃ report, failure.ToldAs report) ∧
    ∃ before task, transcript.err = Notice.texts style path (before ++ [.error task failure]) ∧
      ∀ notice ∈ before, notice.isError = false

/-- The end of a run with a failure that the reporter has a report for. -/
theorem finish_of_toldAs {r : Reporter} {path : String} {failure : Failure} {report : Report}
    (hr : r.AtRest path) (hfatal : r.fatal = true) (htold : failure.ToldAs report)
    (task : Option Task) :
    finish "" (.error failure) (r.during path task) =
      ⟨.exit (.code 1), "", (r.tell path 0 [.error task failure]).printed⟩ := by
  unfold finish
  simp only [Reporter.guard, hr.leave_of_fatal_during hfatal htold task, Reporter.printed_during]
  rfl

theorem batch_of_error {failure : Failure} {r : Reporter}
    (h : compute bounds options program (reporter style options) = (.error failure, r)) :
    batch bounds style options (.ok program) = finish "" (.error failure) r := by
  unfold batch
  simp only [h]

/-- The error that a run ends with is told below what was told before, with the line in progress. -/
theorem reportsOnce_of_compute (task : Option Task) {failure : Failure} {count : Nat}
    {before : List Notice}
    (h : compute bounds options program (reporter style options) =
      (.error failure, ((opened bounds style options).tell (session bounds options).path count
        before).during (session bounds options).path task))
    (htold : ∃ report, failure.ToldAs report)
    (hbefore : ∀ notice ∈ before, notice.isError = false) :
    ReportsOnce style (session bounds options).path failure
      (batch bounds style options (.ok program)) := by
  rcases htold with ⟨report, htold⟩
  have hrest : ((opened bounds style options).tell (session bounds options).path count
      before).AtRest (session bounds options).path :=
    Reporter.atRest_tell.2 (atRest_opened bounds style options)
  rw [batch_of_error h, finish_of_toldAs hrest rfl htold, Reporter.tell_tell, printed_opened_tell]
  exact ⟨rfl, rfl, ⟨report, htold⟩, before, task, rfl, hbefore⟩

theorem compute_of_stopped {task : Task} {failure : Failure}
    (h : (session bounds options).extend (Line.tasks 1 (Text.lines program)) =
      ⟨s', warnings, some (task, failure)⟩) (style : Style) :
    compute bounds options program (reporter style options) =
      (.error failure, ((opened bounds style options).tell (session bounds options).path 0
        (warnings.map .redefinition)).during (session bounds options).path (some task)) := by
  unfold compute
  simp only [load_opened, h]
  rfl

theorem print_summary (r : Reporter) (path : String) :
    r.print (summary r) = r.tell path 0 [.summary r.steps] := by
  rw [Reporter.print_eq_note, Reporter.tell, Notice.texts_singleton]
  rfl

/-- Once a program has loaded, what it computes is reduced and printed. -/
theorem compute_of_loaded
    (h : (session bounds options).extend (Line.tasks 1 (Text.lines program)) = ⟨s', warnings, none⟩)
    (style : Style) :
    compute bounds options program (reporter style options) =
      match s'.run ((opened bounds style options).tell (session bounds options).path 0
        (warnings.map .redefinition)) with
      | (.error failure, r) => (.error failure, r)
      | (.ok u, r) =>
        ((s'.show? u).map (· ++ "\n"), if options.verbose then r.print (summary r) else r) := by
  unfold compute
  simp only [load_opened, h]
  rfl

theorem run_of_main (h : s.definitions.find? Session.mainName = some t) (r : Reporter) :
    s.run r = s.reduce t r := by
  unfold Session.run Session.mainTerm
  rw [h]

theorem run_of_no_main (h : s.definitions.find? Session.mainName = none) (r : Reporter) :
    s.run r = (.error (.fault .missingMain), r) := by
  unfold Session.run Session.mainTerm
  rw [h]

variable {failure : Failure}

/-- What is told of the reduction of what a program computes. -/
theorem run_opened
    (hmain : s'.definitions.find? Session.mainName = some t) (style : Style) :
    s'.run ((opened bounds style options).tell (session bounds options).path 0
        (warnings.map .redefinition)) =
      ((s'.reduction options.verbose t).result,
        (opened bounds style options).tell (session bounds options).path
          (s'.reduction options.verbose t).redexes.length (warnings.map .redefinition ++
            Notice.contractions options.verbose
              (s'.traced (s'.reduction options.verbose t).redexes))) := by
  rw [run_of_main hmain, Session.reduce_eq s' t (session bounds options).path, Reporter.tell_tell,
    Nat.zero_add]
  rfl

/-- What is told of a reduction that comes to a normal form. -/
theorem compute_of_reduced (h : Ready (session bounds options) program warnings s' t)
    (hreduce : s'.reduction options.verbose t = ⟨redexes, .ok u⟩) (style : Style) :
    compute bounds options program (reporter style options) =
      ((s'.show? u).map (· ++ "\n"),
        (opened bounds style options).tell (session bounds options).path redexes.length
          (notices options.verbose warnings redexes)) := by
  rw [compute_of_loaded h.extend, run_opened h.main, hreduce,
    Session.contractions_of_reduction hreduce]
  simp only [print_summary _ (session bounds options).path, steps_opened_tell, Reporter.tell_tell,
    notices]
  -- The summary is told last, and only if the contractions are.
  cases options.verbose with
  | true => rfl
  | false => simp

theorem batch_of_computes
    (h : Computes (session bounds options) options.verbose program warnings s' redexes u out)
    (style : Style) :
    batch bounds style options (.ok program) =
      ⟨.success, out ++ "\n",
        Notice.texts style (session bounds options).path
          (notices options.verbose warnings redexes)⟩ := by
  rcases h.exists_reduction with ⟨t, hready, hreduce⟩
  unfold batch
  simp only [compute_of_reduced hready hreduce style, h.shows, Except.map, finish,
    Reporter.guard_ok, printed_opened_tell]

/-! ## The two ways -/

/-- A line that cannot be read is the error that the run tells of. -/
theorem reportsOnce_of_stopped {task : Task} {failure : Failure}
    (h : (session bounds options).extend (Line.tasks 1 (Text.lines program)) =
      ⟨s', warnings, some (task, failure)⟩) (style : Style) :
    ReportsOnce style (session bounds options).path failure
      (batch bounds style options (.ok program)) :=
  reportsOnce_of_compute (some task) (compute_of_stopped h style)
    (Session.toldAs_of_stopped (congrArg Session.Extension.stopped? h))
    fun _ hnotice => Notice.isError_of_mem_redefinitions hnotice

theorem reportsOnce_of_no_main
    (hextend : (session bounds options).extend (Line.tasks 1 (Text.lines program)) =
      ⟨s', warnings, none⟩)
    (hmain : s'.definitions.find? Session.mainName = none) (style : Style) :
    ReportsOnce style (session bounds options).path (.fault .missingMain)
      (batch bounds style options (.ok program)) := by
  have hcompute := compute_of_loaded hextend style
  rw [run_of_no_main hmain] at hcompute
  exact reportsOnce_of_compute none hcompute ⟨_, .fault (by simp)⟩
    fun _ hnotice => Notice.isError_of_mem_redefinitions hnotice

/-- What is contracted before reducing fails is told before the error. -/
theorem reportsOnce_of_unreduced {failure : Failure}
    (hextend : (session bounds options).extend (Line.tasks 1 (Text.lines program)) =
      ⟨s', warnings, none⟩)
    (hmain : s'.definitions.find? Session.mainName = some t)
    (hreduce : s'.reduction options.verbose t = ⟨redexes, .error failure⟩) (style : Style) :
    ReportsOnce style (session bounds options).path failure
      (batch bounds style options (.ok program)) := by
  have hcompute := compute_of_loaded hextend style
  rw [run_opened hmain, hreduce] at hcompute
  have htold := (Named.toldAs_of_reduceIn? (congrArg Reduction.result hreduce)).2
  exact reportsOnce_of_compute none hcompute htold (List.forall_mem_append.2
    ⟨fun _ hnotice => Notice.isError_of_mem_redefinitions hnotice,
      fun _ hnotice => Notice.isError_of_mem_contractions hnotice⟩)

/-- A normal form that cannot be printed is the error, below all that is told of it. -/
theorem reportsOnce_of_unprinted {failure : Failure}
    (h : Ready (session bounds options) program warnings s' t)
    (hreduce : s'.reduction options.verbose t = ⟨redexes, .ok u⟩)
    (hshow : s'.show? u = .error failure) (style : Style) :
    ReportsOnce style (session bounds options).path failure
      (batch bounds style options (.ok program)) := by
  have hcompute := compute_of_reduced h hreduce style
  rw [hshow] at hcompute
  exact reportsOnce_of_compute none hcompute (Session.toldAs_of_show? hshow)
    fun _ hnotice => isError_of_mem_notices hnotice

/-- What keeps a program that is ready from coming to a normal form that is printed: it goes too
deep, or the normal form is a number that is too long, for which terms have to nest as deep as such
numbers are great. -/
def TooMuch (bounds : Bounds) (failure : Failure) : Prop :=
  failure = .tooDeep ∨ failure = .mishap .tooLong ∧ 10 ^ Mishap.maxDigits < bounds.nesting

theorem tooMuch_of_unreduced {failure : Failure}
    (h : Ready (session bounds options) program warnings s' t)
    (hreduce : s'.reduction verbose t = ⟨redexes, .error failure⟩) : TooMuch bounds failure := by
  rw [reduction_of_extend h.extend] at hreduce
  rcases Named.reduceIn?_eq_error (congrArg Reduction.result hreduce) with
    hdeep | ⟨hforbidden, x, hx, _⟩
  · exact .inl hdeep
  · -- No variable is free that must not be.
    rcases h.free with hallowed | hclosed
    · rw [hallowed] at hforbidden
      cases hforbidden
    · rw [hclosed] at hx
      cases hx

theorem tooMuch_of_unprinted {failure : Failure}
    (h : Ready (session bounds options) program warnings s' t)
    (hreduce : s'.reduction verbose t = ⟨redexes, .ok u⟩) (hshow : s'.show? u = .error failure) :
    TooMuch bounds failure := by
  rcases Session.show?_eq_error hshow with ⟨n, hdecimal, hlong, rfl⟩ | ⟨_, _, rfl⟩
  · have hlimits := Session.limits_extend (session bounds options)
      (Line.tasks 1 (Text.lines program))
    rw [h.extend] at hlimits
    have hnesting := Session.lt_nesting_of_decimal? hreduce hdecimal
    rw [show s'.limits = bounds from hlimits] at hnesting
    exact .inr ⟨rfl, hlong.trans_lt hnesting⟩
  · exact .inl rfl

/-- A program comes to a normal form that is printed, or a run over it reports one error, which is
that it is too much if the program is ready. -/
theorem computes_or_reportsOnce (bounds : Bounds) (options : Options) (program : List Char) :
    let s := session bounds options
    (∃ warnings s' redexes u out,
        Computes s options.verbose program warnings s' redexes u out) ∨
      ∃ failure,
        (∀ style, ReportsOnce style s.path failure (batch bounds style options (.ok program))) ∧
          ∀ warnings s' t, Ready s program warnings s' t → TooMuch bounds failure := by
  intro s
  -- A run fails at a line, for want of what it computes, in reducing that, or in printing it.
  rcases hextend : s.extend (Line.tasks 1 (Text.lines program)) with
    ⟨s', warnings, _ | ⟨task, failure⟩⟩
  · cases hmain : s'.definitions.find? Session.mainName with
    | none =>
      refine .inr ⟨_, reportsOnce_of_no_main hextend hmain, fun _ s'' t h => ?_⟩
      have hsame := hextend.symm.trans h.extend
      cases hsame
      rw [h.main] at hmain
      cases hmain
    | some t =>
      rcases hreduce : s'.reduction options.verbose t with ⟨redexes, failure | u⟩
      · refine .inr ⟨failure, reportsOnce_of_unreduced hextend hmain hreduce, fun _ s'' t' h => ?_⟩
        have hsame := hextend.symm.trans h.extend
        cases hsame
        rcases Option.some.inj (hmain.symm.trans h.main) with rfl
        exact tooMuch_of_unreduced h hreduce
      · have hreduction := reduction_of_extend hextend options.verbose t
        rw [hreduce] at hreduction
        have hfree := (Named.reduceIn?_eq_ok_iff.1 hreduction.symm).1
        have hready : Ready s program warnings s' t := ⟨hextend, hmain, hfree⟩
        cases hshow : s'.show? u with
        | ok out => exact .inl ⟨warnings, s', redexes, u, out, hready.computes hreduce hshow⟩
        | error failure =>
          exact .inr ⟨failure, reportsOnce_of_unprinted hready hreduce hshow,
            fun _ _ _ _ => tooMuch_of_unprinted hready hreduce hshow⟩
  · refine .inr ⟨failure, reportsOnce_of_stopped hextend, fun _ _ _ h => ?_⟩
    have hsame := hextend.symm.trans h.extend
    cases hsame

theorem exists_computes_of_success
    (h : (batch bounds style options (.ok program)).ending = .success) :
    ∃ warnings s' redexes u out,
      Computes (session bounds options) options.verbose program warnings s' redexes u out := by
  rcases computes_or_reportsOnce bounds options program with hcomputes | ⟨_, hreports, _⟩
  · exact hcomputes
  · have hending := (hreports style).1
    rw [h] at hending
    cases hending

/-! ## Telling of contractions -/

/-- What a verbose run computes a quiet one computes too. -/
theorem Computes.quiet (h : Computes s verbose program warnings s' redexes u out) :
    Computes s false program warnings s' redexes u out := by
  rcases h.exists_reduction with ⟨t, hready, hreduce⟩
  exact hready.computes (Named.reduceIn?_untraced hreduce) h.shows

/-- What a quiet run computes a verbose one computes too, or it goes too deep because a redex is too
high to be told. -/
theorem Computes.loud (h : Computes s false program warnings s' redexes u out) :
    Computes s true program warnings s' redexes u out ∨
      (∃ redex ∈ redexes, s.limits.tracing < redex.height) ∧
        ∃ t rs, Ready s program warnings s' t ∧
          s'.reduction true t = ⟨rs, .error .tooDeep⟩ := by
  rcases h.exists_reduction with ⟨t, hready, hreduce⟩
  rw [reduction_of_extend hready.extend] at hreduce
  by_cases hredexes : ∀ redex ∈ redexes, redex.height ≤ s.limits.tracing
  · have hloud := Named.reduceIn?_traced_of_height_le hreduce hredexes
    rw [← reduction_of_extend hready.extend] at hloud
    exact .inl (hready.computes hloud h.shows)
  · have hwithin := Named.reduceIn?_traced_within s.limits s.allowFree t
    rw [hreduce] at hwithin
    rcases hloud : t.reduceIn? s.limits true s.allowFree with ⟨rs, result⟩
    rw [hloud] at hwithin
    rcases hwithin with hsame | ⟨hdeep, _⟩
    · -- A verbose reduction that comes to a result has told all of its redexes.
      rw [hsame] at hloud
      exact absurd (Named.height_le_of_reduceIn? hloud) hredexes
    · rcases (show result = .error .tooDeep from hdeep) with rfl
      refine .inr ⟨?_, t, rs, hready, ?_⟩
      · simpa only [not_forall, exists_prop, Nat.not_le] using hredexes
      · rw [reduction_of_extend hready.extend, hloud]

/-- Being verbose makes no difference to the output and the exit status, unless a quiet run
contracts a redex that is too high to be told. Then the verbose run goes too deep. -/
theorem batch_verbose (bounds : Bounds) (style : Style) (options : Options)
    (program : List Char) :
    let s := session bounds options
    let quiet := batch bounds style { options with verbose := false } (.ok program)
    let loud := batch bounds style { options with verbose := true } (.ok program)
    loud.ending = quiet.ending ∧ loud.out = quiet.out ∨
      quiet.ending = .success ∧ ReportsOnce style s.path .tooDeep loud ∧
        ∃ warnings s' redexes u out, Computes s false program warnings s' redexes u out ∧
          ∃ redex ∈ redexes, bounds.tracing < redex.height := by
  intro s quiet loud
  let louder : Options := { options with verbose := true }
  rcases computes_or_reportsOnce bounds { options with verbose := false } program with
    ⟨warnings, s', redexes, u, out, hquiet⟩ | ⟨_, hquiet, _⟩
  · have hquietly : quiet = _ := batch_of_computes hquiet style
    rcases hquiet.loud with hloud | ⟨hhigh, t, rs, hready, hreduce⟩
    · have hloud' : Computes (session bounds louder) louder.verbose program warnings s' redexes u
          out := hloud
      have hloudly : loud = _ := batch_of_computes hloud' style
      exact .inl ⟨by rw [hquietly, hloudly], by rw [hquietly, hloudly]⟩
    · refine .inr ⟨by rw [hquietly], ?_, warnings, s', redexes, u, out, hquiet, hhigh⟩
      have hextend : (session bounds louder).extend (Line.tasks 1 (Text.lines program)) =
          ⟨s', warnings, none⟩ := hready.extend
      exact reportsOnce_of_unreduced hextend hready.main hreduce style
  · -- A quiet run that fails comes to nothing, so a verbose one fails too.
    rcases computes_or_reportsOnce bounds louder program with
      ⟨warnings, s', redexes, u, out, hloud⟩ | ⟨_, hloud, _⟩
    · let quieter : Options := { options with verbose := false }
      have hquiet' : Computes (session bounds quieter) quieter.verbose program warnings s' redexes u
          out := hloud.quiet
      have hending := (hquiet style).1
      rw [batch_of_computes hquiet'] at hending
      cases hending
    · exact .inl ⟨(hloud style).1.trans (hquiet style).1.symm,
        (hloud style).2.1.trans (hquiet style).2.1.symm⟩

/-- What a program comes to is what the contractions of the leftmost outermost redexes lead to. -/
theorem Computes.leftmostRun (h : Computes s verbose program warnings s' redexes u out) :
    ∃ t, s'.definitions.find? Session.mainName = some t ∧
      Indexed.LeftmostRun (t.nameless []) redexes (u.nameless []) ∧ (u.nameless []).Normal := by
  rcases h.reduces with ⟨t, v, hready, _, hnf, hnamed⟩
  rcases Indexed.nfWithin_leftmostRun (Indexed.nf_of_nfIn hnf) with ⟨hrun, hnormal⟩
  rw [Indexed.nameless_toNamed? hnamed]
  exact ⟨t, hready.main, hrun, hnormal⟩

/-- A run over a program that it can read succeeds just if the program loads, defines what it
computes, no variable is free in that unless it may be, and a normal form is found and can be
printed within the bounds. Then it prints the normal form that the contractions of the leftmost
outermost redexes lead to, and tells of nothing but redefinitions and, if it is verbose, those
contractions and their number. Else it prints nothing, tells of one error and that last, and ends
with the exit status one. If nothing but the bounds is in the way, then that error is that the run
goes too deep, or that a number is too long to be printed. Being verbose changes neither what is
printed nor the exit status, unless a redex is too high to be told. -/
theorem run_prints_or_reports_once {args : List String} {terminal : Bool} {input : List Char}
    {file : String → Option (List UInt8)} (bounds : Bounds) (style : Style)
    (hargs : CommandLine.read args = .proceed options)
    (hreads : Reads options terminal input file program) :
    let s := session bounds options
    let transcript := run bounds style args terminal input file
    (transcript.ending = .success ↔
        ∃ warnings s' redexes u out,
          Computes s options.verbose program warnings s' redexes u out) ∧
      (∀ warnings s' redexes u out,
        Computes s options.verbose program warnings s' redexes u out →
          transcript.out = out ++ "\n" ∧
            transcript.err =
              Notice.texts style s.path (notices options.verbose warnings redexes) ∧
            (∀ notice ∈ notices options.verbose warnings redexes, notice.isError = false) ∧
            ∃ t, s'.definitions.find? Session.mainName = some t ∧
              Indexed.LeftmostRun (t.nameless []) redexes (u.nameless []) ∧
              (u.nameless []).Normal) ∧
      (transcript.ending ≠ .success →
        ∃ failure, ReportsOnce style s.path failure transcript ∧
          ∀ warnings s' t, Ready s program warnings s' t → TooMuch bounds failure) ∧
      ∀ argsQuiet argsLoud,
        CommandLine.read argsQuiet = .proceed { options with verbose := false } →
        CommandLine.read argsLoud = .proceed { options with verbose := true } →
          let quiet := run bounds style argsQuiet terminal input file
          let loud := run bounds style argsLoud terminal input file
          loud.ending = quiet.ending ∧ loud.out = quiet.out ∨
            quiet.ending = .success ∧ ReportsOnce style s.path .tooDeep loud ∧
              ∃ warnings s' redexes u out, Computes s false program warnings s' redexes u out ∧
                ∃ redex ∈ redexes, bounds.tracing < redex.height := by
  intro s transcript
  have hbatch : transcript = batch bounds style options (.ok program) :=
    run_of_reads hargs hreads bounds style
  rw [hbatch]
  refine ⟨⟨exists_computes_of_success, ?_⟩, ?_, ?_, ?_⟩
  · rintro ⟨warnings, s', redexes, u, out, hcomputes⟩
    rw [batch_of_computes hcomputes]
  · intro warnings s' redexes u out hcomputes
    rw [batch_of_computes hcomputes]
    exact ⟨rfl, rfl, fun _ hnotice => isError_of_mem_notices hnotice, hcomputes.leftmostRun⟩
  · intro hfailed
    rcases computes_or_reportsOnce bounds options program with
      ⟨warnings, s', redexes, u, out, hcomputes⟩ | ⟨failure, hreports, htooMuch⟩
    · rw [batch_of_computes hcomputes] at hfailed
      exact absurd rfl hfailed
    · exact ⟨failure, hreports style, htooMuch⟩
  · intro argsQuiet argsLoud hquiet hloud
    -- The program that is read does not depend on whether the run is verbose.
    have hreads' : ∀ verbose, Reads { options with verbose := verbose } terminal input file
        program := by
      intro verbose
      cases hreads with
      | input hfile hterminal => exact .input hfile hterminal
      | file hfile hdecode => exact .file hfile hdecode
    rw [run_of_reads hquiet (hreads' false), run_of_reads hloud (hreads' true)]
    exact batch_verbose bounds style options program

/-- A program that defines a name anew, with and without telling of its contraction. -/
theorem run_prints_or_reports_once_redefined :
    let program := "ID = \\x.x\n// again\nID = \\y.y\nMAIN = (ID ID)".toList
    let options : Options := { verbose := true }
    let s := session .standard options
    let loud := run .standard .plain ["-v"] false program fun _ => none
    let quiet := run .standard .plain [] false program fun _ => none
    CommandLine.read ["-v"] = .proceed options ∧
      (∃ warnings s' redexes u out, Computes s true program warnings s' redexes u out) ∧
      loud.out = "λa.a\n" ∧ loud.ending = quiet.ending ∧ loud.out = quiet.out := by
  intro program options s loud quiet
  have hargs : CommandLine.read ["-v"] = .proceed options := by decide +kernel
  have hargs' : CommandLine.read [] = .proceed { options with verbose := false } := by
    decide +kernel
  have hloud : loud.ending = .success ∧ loud.out = "λa.a\n" := by decide +kernel
  have hreads : Reads options false program (fun _ => none) program := .input rfl rfl
  rcases run_prints_or_reports_once .standard .plain hargs hreads with
    ⟨hsuccess, _, _, hverbose⟩
  refine ⟨hargs, hsuccess.1 hloud.1, hloud.2, ?_⟩
  rcases hverbose [] ["-v"] hargs' hargs with hsame | ⟨_, hreports, _⟩
  · exact hsame
  · have hending := hreports.1.symm.trans hloud.1
    cases hending

end Program
end Nameless
