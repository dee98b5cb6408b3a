import Nameless.Proofs.Line
import Nameless.Proofs.Session.Loading
import Nameless.Proofs.Session.Readback
import Nameless.Shell

/-!
# Listings are programs

The shell lists the definitions of a session one on a line, and with numerals off every line is the
definition that it shows. So the listing is a program: loading it makes the same table again, in the
same order and without a redefinition. Only the height of the terms can keep it from that. A term
may be too high to be printed, and then listing fails, after the definitions in front of it. And a
term may be too high to be read again, because definitions that were put together from others may be
higher than any text that can be read.

This file defines:
- `Shell.entryLine`: the line of a definition in a listing,
- `Shell.listed`: the definitions that are listed.

Main statements:
- `Shell.listing_eq`, `Shell.lines_listing`: the lines of a listing, and when listing fails,
- `Shell.readDefinition_entryLine`: what they are read as,
- `Shell.extend_entryLines`, `Shell.extend_entryLines_of_lt_height`: adding them to a session,
- `Shell.load_listing_of_height_le`, `Shell.load_listing_of_lt_height`: loading a listing,
- `Shell.listing_reloads`: loading what the shell lists.
-/

namespace Nameless

/-! ## The text of a term -/

namespace Text

theorem not_isBreak_of_not_isBlank {c : Char} (h : isBlank c = false) : isBreak c = false := by
  by_contra hbreak
  rw [isBlank_of_isBreak (by simpa using hbreak)] at h
  cases h

end Text

namespace Named

theorem not_isBlank_of_mem_variable {name : String} (h : isVariable name.toList = true) :
    ∀ c ∈ name.toList, Text.isBlank c = false := by
  simp only [isVariable, Bool.and_eq_true, List.all_eq_true] at h
  exact fun c hc => isBlank_of_isLower (h.2 c hc)

/-- A term is written on one line. -/
theorem not_isBreak_of_mem_chars {t : Named Empty} (ht : t.Lettered) :
    ∀ c ∈ t.chars, Text.isBreak c = false := by
  have hvariable : ∀ {name : String}, isVariable name.toList = true →
      ∀ c ∈ name.toList, Text.isBreak c = false := by
    intro name hname c hc
    exact Text.not_isBreak_of_not_isBlank (not_isBlank_of_mem_variable hname c hc)
  -- Apart from names there are lambdas, periods, parentheses and single spaces.
  induction t with
  | abs name body ih =>
    intro c hc
    simp only [chars, List.mem_cons, List.mem_append] at hc
    rcases hc with rfl | hc | rfl | hc
    · rfl
    · exact hvariable ht.1 c hc
    · rfl
    · exact ih ht.2 c hc
  | app fn arg ihf iha =>
    intro c hc
    simp only [chars, List.mem_cons, List.mem_append, List.not_mem_nil, or_false] at hc
    rcases hc with rfl | hc | rfl | hc | rfl
    · rfl
    · exact ihf ht.1 c hc
    · rfl
    · exact iha ht.2 c hc
    · rfl
  | sym name => exact hvariable ht
  | leaf x => exact x.elim

theorem chars_ne_nil {t : Named Empty} (ht : t.Lettered) : t.chars ≠ [] := by
  cases t with
  | abs name body => simp [chars]
  | app fn arg => simp [chars]
  | sym name =>
    intro hnil
    have hname : isVariable name.toList = true := ht
    rw [show name.toList = [] from hnil] at hname
    cases hname
  | leaf x => exact x.elim

theorem not_isBlank_of_getLast_chars {t : Named Empty} (ht : t.Lettered) :
    ∀ c ∈ t.chars.getLast?, Text.isBlank c = false := by
  induction t with
  | abs name body ih =>
    have hlast : (abs name body).chars.getLast? = body.chars.getLast? := by
      have happend : (abs name body).chars = ('λ' :: (name.toList ++ ['.'])) ++ body.chars := by
        simp [chars]
      rw [happend, List.getLast?_append_of_ne_nil _ (chars_ne_nil ht.2)]
    rw [hlast]
    exact ih ht.2
  | app fn arg =>
    have happend : (app fn arg).chars = ('(' :: (fn.chars ++ ' ' :: arg.chars)) ++ [')'] := by
      simp [chars]
    rw [happend, List.getLast?_concat]
    rintro c ⟨⟩
    rfl
  | sym name =>
    intro c hc
    exact not_isBlank_of_mem_variable ht c (List.mem_of_getLast? hc)
  | leaf x => exact x.elim

theorem trimmed_chars {t : Named Empty} (ht : t.Lettered) : Text.Trimmed t.chars := by
  refine ⟨?_, not_isBlank_of_getLast_chars ht⟩
  cases t with
  | abs name body =>
    rintro c ⟨⟩
    rfl
  | app fn arg =>
    rintro c ⟨⟩
    rfl
  | sym name =>
    intro c hc
    exact not_isBlank_of_mem_variable ht c (List.mem_of_head? hc)
  | leaf x => exact x.elim

end Named

namespace Shell

/-! ## Lines of a listing -/

/-- The line of a definition in a listing. -/
def entryLine (d : String × Named Empty) : List Char :=
  Line.written d.1.toList [' '] (' ' :: d.2.chars)

/-- The definitions in front of the first one that is too high to be printed. -/
def listed (s : Session) (ds : Definitions) : Definitions :=
  ds.takeWhile fun d => decide (d.2.height ≤ s.limits.printing)

variable {s : Session}

theorem show?_of_numerals_off (hnumerals : s.numerals = false) (t : Named Empty) :
    s.show? t = if t.height ≤ s.limits.printing then .ok t.text else .error .tooDeep := by
  have hdecimal : s.decimal? t = none := by
    unfold Session.decimal?
    rw [hnumerals]
    rfl
  rw [Session.show?_empty, Session.overrun?_eq, Session.text_eq, hdecimal]
  by_cases hheight : t.height ≤ s.limits.printing
  · simp only [if_pos hheight]
  · simp only [if_neg hheight]

/-- A listing shows the definitions one on a line, and it fails if one of them cannot be printed. -/
theorem listing_eq (hnumerals : s.numerals = false) (ds : Definitions) :
    (listing s ds).1.toList = Text.unlines ((listed s ds).map entryLine) ∧
      (listing s ds).2 =
        if ∀ d ∈ ds, d.2.height ≤ s.limits.printing then none else some .tooDeep := by
  induction ds with
  | nil => exact ⟨rfl, by simp [listing]⟩
  | cons d rest ih =>
    rcases d with ⟨name, t⟩
    unfold listing
    rw [show?_of_numerals_off hnumerals]
    by_cases hheight : t.height ≤ s.limits.printing
    · have hline : (name ++ " = " ++ t.text ++ "\n").toList = entryLine (name, t) ++ ['\n'] := by
        simp [Named.text, entryLine, Line.written]
      rcases hlisting : listing s rest with ⟨more, failure?⟩
      rw [hlisting] at ih
      have hlisted : listed s ((name, t) :: rest) = (name, t) :: listed s rest := by
        simp [listed, hheight]
      simp only [if_pos hheight]
      refine ⟨?_, ?_⟩
      · rw [String.toList_append, hline, ih.1, hlisted]
        simp [Text.unlines]
      · have hall : (∀ d ∈ rest, d.2.height ≤ s.limits.printing) ↔
            ∀ d ∈ (name, t) :: rest, d.2.height ≤ s.limits.printing := by
          rw [List.forall_mem_cons]
          exact (and_iff_right hheight).symm
        exact ih.2.trans (if_congr hall rfl rfl)
    · have hlisted : listed s ((name, t) :: rest) = [] := by simp [listed, hheight]
      simp only [if_neg hheight]
      refine ⟨by rw [hlisted]; rfl, ?_⟩
      simp [hheight]

theorem listed_prefix (s : Session) (ds : Definitions) : listed s ds <+: ds :=
  List.takeWhile_prefix _

theorem listed_eq_self {ds : Definitions} (h : ∀ d ∈ ds, d.2.height ≤ s.limits.printing) :
    listed s ds = ds :=
  List.takeWhile_eq_self_iff.2 fun d hd => decide_eq_true (h d hd)

variable {d : String × Named Empty} {ds : Definitions}

theorem lines_listing (hds : ds.WellFormed) :
    Text.lines (Text.unlines (ds.map entryLine)) = ds.map entryLine := by
  apply Text.lines_unlines
  intro line hline c hc
  rcases List.mem_map.1 hline with ⟨d, hd, rfl⟩
  rcases hds d hd with ⟨hname, ht⟩
  simp only [entryLine, Line.written, List.mem_append, List.mem_cons, List.not_mem_nil, or_false,
    or_assoc] at hc
  -- Between the name and the term there are a blank, the equals sign and another blank.
  rcases hc with hc | rfl | rfl | rfl | hc
  · exact Text.not_isBreak_of_not_isBlank
      (isBlank_of_isUpperOrDigit (Line.isUpperOrDigit_of_isName hname c hc))
  · rfl
  · rfl
  · rfl
  · exact Named.not_isBreak_of_mem_chars ht c hc

theorem content_entryLine (hname : Line.isName d.1.toList = true) (ht : d.2.Lettered) :
    Line.content (entryLine d) = entryLine d := by
  apply Line.content_written hname
  rw [Line.trimmed_written hname]
  have hne : d.2.chars ≠ [] := Named.chars_ne_nil ht
  refine ⟨?_, ?_⟩
  · rintro c ⟨⟩
    rfl
  · have hlast : ('=' :: ' ' :: d.2.chars).getLast? = d.2.chars.getLast? :=
      List.getLast?_append_of_ne_nil ['=', ' '] hne
    rw [hlast]
    exact (Named.trimmed_chars ht).2

/-- The line of a definition is read as its name and the text of its term. -/
theorem split_entryLine (hname : Line.isName d.1.toList = true) (ht : d.2.Lettered) :
    Line.split (String.ofList (entryLine d)) = .ok (d.1, d.2.text) := by
  have hblank : ∀ c ∈ [' '], Text.isBlank c = true := List.forall_mem_singleton.2 rfl
  have htrim : Text.trim ([' '] ++ d.2.chars ++ []) = d.2.chars :=
    Text.trim_surrounded hblank (Named.trimmed_chars ht) (by simp)
  rw [List.append_nil] at htrim
  have hsplit := Line.split_written hname hblank (' ' :: d.2.chars)
  rw [show Text.trim (' ' :: d.2.chars) = d.2.chars from htrim, String.ofList_toList] at hsplit
  exact hsplit

/-! ## Loading a listing -/

theorem readDefinition_entryLine (hname : Line.isName d.1.toList = true) (ht : d.2.Lettered)
    (hheight : d.2.height ≤ s.limits.parsing) :
    s.readDefinition (String.ofList (entryLine d)) = .ok d := by
  rw [Session.readDefinition_of_parts (split_entryLine hname ht), Session.readTerm_text ht hheight]
  rfl

theorem readDefinition_entryLine_of_lt_height (hname : Line.isName d.1.toList = true)
    (ht : d.2.Lettered) (hheight : s.limits.parsing < d.2.height) :
    s.readDefinition (String.ofList (entryLine d)) = .error .tooDeep := by
  rw [Session.readDefinition_of_parts (split_entryLine hname ht),
    Session.readTerm_text_of_lt_height ht hheight]
  rfl

theorem content_entryLine_ne_nil (hname : Line.isName d.1.toList = true) (ht : d.2.Lettered) :
    Line.content (entryLine d) ≠ [] := by
  rw [content_entryLine hname ht]
  simp [entryLine, Line.written]

/-- Lines of definitions with new names add these definitions. -/
theorem extend_entryLines (hds : ds.WellFormed) (hheight : ∀ d ∈ ds, d.2.height ≤ s.limits.parsing)
    (hnodup : (s.definitions.names ++ ds.names).Nodup) (number : Nat) :
    s.extend (Line.tasks number (ds.map entryLine)) =
      ⟨{ s with definitions := s.definitions ++ ds }, [], none⟩ := by
  -- Each line moves one definition from the lines that are left to the table.
  induction ds generalizing s number with
  | nil => simp [Line.tasks]
  | cons d ds ih =>
    rcases List.forall_mem_cons.1 hds with ⟨⟨hname, ht⟩, hrest⟩
    rcases List.forall_mem_cons.1 hheight with ⟨hd, hheights⟩
    have hnew : d.1 ∉ s.definitions.names := by
      intro hmem
      exact (List.nodup_append.1 hnodup).2.2 d.1 hmem d.1 List.mem_cons_self rfl
    have hdefine : s.define d.1 d.2 = { s with definitions := s.definitions ++ [d] } := by
      unfold Session.define
      rw [Definitions.put_of_not_mem hnew]
    have hquiet (task : Task) : s.redefinitions task d.1 = [] := by
      unfold Session.redefinitions
      rw [Definitions.find?_eq_none hnew]
      rfl
    have hnodup' : ((s.define d.1 d.2).definitions.names ++ Definitions.names ds).Nodup := by
      rw [hdefine]
      simpa [Definitions.names] using hnodup
    have hread : s.readDefinition (String.ofList (entryLine d)) = .ok (d.1, d.2) :=
      readDefinition_entryLine hname ht hd
    rw [List.map_cons, Line.tasks_of_content (content_entryLine_ne_nil hname ht),
      content_entryLine hname ht,
      @Session.extend_of_ok s ⟨String.ofList (entryLine d), some number⟩ d.1 d.2 hread, hquiet,
      ih (s := s.define d.1 d.2) hrest hheights hnodup' (number + 1), hdefine]
    simp

/-- The first line whose term is too high to be read is the last one that is looked at. -/
theorem extend_entryLines_of_lt_height {before after : Definitions}
    (hds : Definitions.WellFormed (before ++ d :: after))
    (hbefore : ∀ e ∈ before, e.2.height ≤ s.limits.parsing)
    (hd : s.limits.parsing < d.2.height)
    (hnodup : (s.definitions.names ++ Definitions.names before).Nodup) (number : Nat) :
    s.extend (Line.tasks number ((before ++ d :: after).map entryLine)) =
      ⟨{ s with definitions := s.definitions ++ before }, [],
        some (⟨String.ofList (entryLine d), some ((number + before.length : Nat) : Int)⟩,
          .tooDeep)⟩ := by
  rcases List.forall_mem_append.1 hds with ⟨hfirst, hafter⟩
  rcases (List.forall_mem_cons.1 hafter).1 with ⟨hname, ht⟩
  let s' : Session := { s with definitions := s.definitions ++ before }
  let task : Task := ⟨String.ofList (entryLine d), some ((number + before.length : Nat) : Int)⟩
  have hrefused : s'.readDefinition task.line = .error .tooDeep :=
    readDefinition_entryLine_of_lt_height hname ht hd
  have hstops := Session.extend_of_error hrefused
    (Line.tasks (number + before.length + 1) (after.map entryLine))
  rw [List.map_append, List.map_cons, Line.tasks_append, Session.extend_append,
    extend_entryLines hfirst hbefore hnodup, List.length_map,
    Line.tasks_of_content (content_entryLine_ne_nil hname ht), content_entryLine hname ht]
  change Session.Extension.mk (s'.extend _).session ([] ++ (s'.extend _).redefinitions)
    (s'.extend _).stopped? = _
  rw [hstops]
  rfl

/-- What loading a listing comes to is what its lines come to, and nothing is told. -/
theorem load_listing (hds : ds.WellFormed) {fresh : Session}
    (hquiet : (fresh.extend (Line.tasks 1 (ds.map entryLine))).redefinitions = []) (r : Reporter) :
    fresh.load (Text.unlines (ds.map entryLine)) (fresh.register r) =
      ⟨(fresh.extend (Line.tasks 1 (ds.map entryLine))).result,
        (fresh.extend (Line.tasks 1 (ds.map entryLine))).session,
        (fresh.register r).during fresh.path
          (fresh.extend (Line.tasks 1 (ds.map entryLine))).task?⟩ := by
  rw [Session.load, lines_listing hds]
  exact Session.addAll_of_quiet hquiet (r.clear_record fresh.path none none)

/-- A session without definitions loads a listing as it stands, if it can read all of it. -/
theorem load_listing_of_height_le {fresh : Session} (hfresh : fresh.definitions = [])
    (hds : ds.WellFormed) (hnodup : ds.names.Nodup)
    (hheight : ∀ d ∈ ds, d.2.height ≤ fresh.limits.parsing) (r : Reporter) :
    fresh.load (Text.unlines (ds.map entryLine)) (fresh.register r) =
      ⟨.ok (), { fresh with definitions := ds }, fresh.register r⟩ := by
  have hextend := extend_entryLines (s := fresh) hds hheight (by rwa [hfresh]) 1
  rw [hfresh, List.nil_append] at hextend
  have hload := load_listing hds (by rw [hextend]) r
  rw [hextend] at hload
  exact hload

/-- Loading a listing ends at the first definition that is too high to be read. -/
theorem load_listing_of_lt_height {fresh : Session} {before after : Definitions}
    (hfresh : fresh.definitions = [])
    (hds : Definitions.WellFormed (before ++ d :: after))
    (hnodup : (Definitions.names (before ++ d :: after)).Nodup)
    (hbefore : ∀ e ∈ before, e.2.height ≤ fresh.limits.parsing)
    (hd : fresh.limits.parsing < d.2.height) (r : Reporter) :
    fresh.load (Text.unlines ((before ++ d :: after).map entryLine)) (fresh.register r) =
      ⟨.error .tooDeep, { fresh with definitions := before },
        (fresh.register r).record fresh.path (some (String.ofList (entryLine d)))
          (some (before.length + 1 : Nat))⟩ := by
  have hnames : (fresh.definitions.names ++ Definitions.names before).Nodup := by
    unfold Definitions.names at hnodup
    rw [List.map_append] at hnodup
    rw [hfresh]
    exact hnodup.of_append_left
  have hextend := extend_entryLines_of_lt_height (s := fresh) hds hbefore hd hnames 1
  rw [hfresh, List.nil_append] at hextend
  have hload := load_listing hds (by rw [hextend]) r
  rw [hextend, Nat.add_comm] at hload
  exact hload

/-- With numerals off the shell lists the definitions in front of the first one that is too high. -/
theorem respond_list (hnumerals : s.numerals = false) {line : List Char}
    (hline : Command.read line = .listDefinitions) (entries : Nat) (r : Reporter) :
    (respond ⟨s, entries⟩ line r).out.toList =
        Text.unlines ((listed s s.definitions).map entryLine) ∧
      (respond ⟨s, entries⟩ line r).stop =
        if ∀ d ∈ s.definitions, d.2.height ≤ s.limits.printing then .ok false
        else .error .tooDeep := by
  have hanswer : respond ⟨s, entries⟩ line r = list ⟨s, entries⟩ r := by
    unfold respond
    rw [hline]
  rcases listing_eq hnumerals s.definitions with ⟨hout, hfailure⟩
  rw [hanswer, ← hout]
  unfold list
  rcases hlisting : listing s s.definitions with ⟨out, failure?⟩
  rw [hlisting] at hfailure
  simp only at hfailure
  split_ifs at hfailure ⊢ <;> rw [hfailure] <;> exact ⟨rfl, rfl⟩

/-- The listing of a session with numerals off is a program. If none of its terms is too high to be
printed there and to be read by a session without definitions, then loading it gives that session
the same table, in the same order, and nothing is told. Otherwise listing fails at the first term
that is too high to be printed, after the definitions in front of it; and of what was listed,
loading gives the definitions in front of the first term that is too high to be read, and fails if
there is one. -/
theorem listing_reloads (hs : s.Reachable) (hnumerals : s.numerals = false) {line : List Char}
    (hline : Command.read line = .listDefinitions) (entries : Nat) (r₀ : Reporter)
    (fresh : Session) (hfresh : fresh.definitions = []) (r : Reporter) :
    let answer := respond ⟨s, entries⟩ line r₀
    let loaded := fresh.load answer.out.toList (fresh.register r)
    ((∀ d ∈ s.definitions,
        d.2.height ≤ s.limits.printing ∧ d.2.height ≤ fresh.limits.parsing) →
      answer.stop = .ok false ∧
        loaded = ⟨.ok (), { fresh with definitions := s.definitions }, fresh.register r⟩) ∧
      answer.stop = (if ∀ d ∈ s.definitions, d.2.height ≤ s.limits.printing then .ok false
        else .error .tooDeep) ∧
      answer.out.toList = Text.unlines ((listed s s.definitions).map entryLine) ∧
      ((∀ d ∈ listed s s.definitions, d.2.height ≤ fresh.limits.parsing) →
        loaded =
          ⟨.ok (), { fresh with definitions := listed s s.definitions }, fresh.register r⟩) ∧
      ∀ before d after, listed s s.definitions = before ++ d :: after →
        (∀ e ∈ before, e.2.height ≤ fresh.limits.parsing) → fresh.limits.parsing < d.2.height →
        loaded = ⟨.error .tooDeep, { fresh with definitions := before },
          (fresh.register r).record fresh.path (some (String.ofList (entryLine d)))
            (some (before.length + 1 : Nat))⟩ := by
  intro answer loaded
  rcases respond_list hnumerals hline entries r₀ with ⟨hprinted, hstop⟩
  have hbegins := listed_prefix s s.definitions
  have hwell : Definitions.WellFormed (listed s s.definitions) := fun d hd =>
    hs.wellFormed d (hbegins.subset hd)
  have hnodup : (listed s s.definitions).names.Nodup :=
    hs.nodup.sublist (hbegins.map Prod.fst).sublist
  have hloaded : loaded =
      fresh.load (Text.unlines ((listed s s.definitions).map entryLine)) (fresh.register r) := by
    rw [← hprinted]
  refine ⟨fun hall => ⟨?_, ?_⟩, hstop, hprinted, fun hheight => ?_, ?_⟩
  · rw [hstop, if_pos fun d hd => (hall d hd).1]
  · have hlisted := listed_eq_self fun d hd => (hall d hd).1
    rw [hlisted] at hloaded hwell hnodup
    rw [hloaded]
    exact load_listing_of_height_le hfresh hwell hnodup (fun d hd => (hall d hd).2) r
  · rw [hloaded]
    exact load_listing_of_height_le hfresh hwell hnodup hheight r
  · intro before d after hcut hbefore hd
    rw [hcut] at hloaded hwell hnodup
    rw [hloaded]
    exact load_listing_of_lt_height hfresh hwell hnodup hbefore hd r

/-- A numeral was built, a definition with a free variable refers to it, and its name is defined
anew. A session that reads to depth three is given the first definition only. -/
theorem listing_reloads_redefined :
    let program := "TWO = 2\nA = \\x.(TWO y)\nTWO = z".toList
    let s := { (Session.load { numerals := true } program {}).session with numerals := false }
    let shallow : Session := { limits := { Bounds.standard with parsing := 3 } }
    let printed := "TWO = z\nA = λx.(λf.λx.(f (f x)) y)\n".toList
    s.Reachable ∧ (respond ⟨s, 5⟩ "defs".toList {}).out.toList = printed ∧
      Session.load {} printed (Session.register {} {}) =
        ⟨.ok (), { definitions := s.definitions }, Session.register {} {}⟩ ∧
      (shallow.load printed (shallow.register {})).result = .error .tooDeep ∧
      (shallow.load printed (shallow.register {})).session.definitions = [("TWO", .sym "z")] := by
  intro program s shallow printed
  have hs : s.Reachable := .configure false false (.load program {} (.fresh _ _ _ _))
  have hread : Command.read "defs".toList = .listDefinitions := by decide +kernel
  have hprinted : (respond ⟨s, 5⟩ "defs".toList {}).out.toList = printed := by decide +kernel
  have hdefinitions : listed s s.definitions =
      [("TWO", .sym "z")] ++ ("A", .abs "x" (.app (.numeral 2) (.sym "y"))) :: [] := by
    decide +kernel
  rcases listing_reloads hs rfl hread 5 {} {} rfl {} with ⟨hidentity, _⟩
  rcases listing_reloads hs rfl hread 5 {} shallow rfl {} with ⟨_, _, _, _, hcut⟩
  have hloaded := (hidentity (by decide +kernel)).2
  have hstops := hcut _ _ _ hdefinitions (by decide) (by decide)
  rw [hprinted] at hloaded hstops
  refine ⟨hs, hprinted, hloaded, ?_, ?_⟩
  · rw [hstops]
  · rw [hstops]

/-- The numeral of 7000 is defined by one word and can be printed, but as a term it is too high to
be read. -/
theorem listing_too_deep_to_reload :
    let s := { (Session.add { numerals := true } "A = 7000" none {}).session with numerals := false }
    s.Reachable ∧ s.definitions = [("A", .numeral 7000)] ∧
      (respond ⟨s, 1⟩ "defs".toList {}).stop = .ok false ∧
      (Session.load {} (respond ⟨s, 1⟩ "defs".toList {}).out.toList
        (Session.register {} {})).result = .error .tooDeep ∧
      ¬ ∀ (s : Session) (r : Reporter), s.Reachable → s.numerals = false →
        (Session.load {} (respond ⟨s, 1⟩ "defs".toList r).out.toList
          (Session.register {} r)).result = .ok () := by
  intro s
  have hs : s.Reachable := .configure false false (.add _ _ _ (.fresh _ _ _ _))
  have hterm : Session.readTerm { numerals := true } "7000" = .ok (.numeral 7000) :=
    Session.readTerm_decimal (n := 7000) rfl (by decide) (by decide +kernel) rfl
  have hread : Session.readDefinition { numerals := true } "A = 7000" =
      .ok ("A", .numeral 7000) := by
    have hsplit : Line.split "A = 7000" = .ok ("A", "7000") := by decide +kernel
    rw [Session.readDefinition_of_parts hsplit, hterm]
    rfl
  have hdefinitions : s.definitions = [("A", .numeral 7000)] := by
    unfold s
    rw [Session.add_of_ok hread]
    rfl
  -- The term is never written out, as its height is known.
  have hheight : (.numeral 7000 : Named Empty).height = 7003 := Named.height_numeral 7000
  have hprints : ∀ d ∈ s.definitions, d.2.height ≤ s.limits.printing := by
    rw [hdefinitions]
    exact List.forall_mem_singleton.2 (hheight.trans_le (by decide))
  have hlisted : listed s s.definitions = [] ++ ("A", .numeral 7000) :: [] := by
    rw [listed_eq_self hprints, hdefinitions]
    rfl
  have hwell : Definitions.WellFormed ([] ++ ("A", .numeral 7000) :: []) := by
    rw [List.nil_append, ← hdefinitions]
    exact hs.wellFormed
  have hline : Command.read "defs".toList = .listDefinitions := by decide +kernel
  have hdeep (r₀ r : Reporter) :
      (Session.load {} (respond ⟨s, 1⟩ "defs".toList r₀).out.toList
        (Session.register {} r)).result = .error .tooDeep := by
    let fresh : Session := {}
    have hlow : fresh.limits.parsing < (Named.numeral 7000 : Named Empty).height :=
      lt_of_lt_of_eq (by decide) hheight.symm
    have hloaded := @load_listing_of_lt_height _ fresh _ _ rfl hwell (by decide) (by simp) hlow r
    rw [(respond_list rfl hline 1 r₀).1, hlisted]
    exact congrArg Outcome.result hloaded
  refine ⟨hs, hdefinitions, ?_, hdeep {} {}, ?_⟩
  · exact (respond_list rfl hline 1 {}).2.trans (if_pos hprints)
  · intro hall
    have hok := hall s {} hs rfl
    rw [hdeep] at hok
    cases hok

end Shell
end Nameless
