import Nameless.Reporter

/-!
# What the reporter prints

A reporter only ever adds to what it has printed and counted, so each of its operations is told by
the text and the count that it adds. Apart from that a reporter changes in the lines in progress: a
line is noted while it is worked on, and once the work is done the reporter is at rest again, with
the same sources in the same order.

This file defines:
- `Reporter.note`: the reporter after more was counted and printed,
- `Reporter.stepText`, `Reporter.warningText`, `Reporter.errorText`: what is printed of a
  contraction, a warning and an error,
- `Reporter.AtRest`: no line is in progress, and a given source is known.

Main statements:
- `Reporter.step_eq_note`, `Reporter.warn_eq_note`, `Reporter.printError_eq_note`: what the
  operations add,
- `Reporter.AtRest.clear_record`, `Reporter.AtRest.clearAll_record`: the reporter is at rest again
  after a line is done, and after an error,
- `Reporter.AtRest.location_record`, `Reporter.AtRest.tracebackText_record`: a line in progress is
  the only one that is told.
-/

namespace Nameless

/-! ## Lines in progress -/

namespace Traceback

theorem set_set {e e' : Entry} (h : e.path = e'.path) (entries : List Entry) :
    set e' (set e entries) = set e' entries := by
  induction entries with
  | nil => simp [set, h]
  | cons first rest ih =>
    by_cases hfirst : first.path = e'.path
    · simp [set, h, hfirst]
    · simp [set, h, hfirst, ih]

theorem set_idle {path : String} {entries : List Entry} (hidle : ∀ e ∈ entries, e = .idle e.path)
    (hpath : path ∈ paths entries) : set (.idle path) entries = entries := by
  induction entries with
  | nil => cases hpath
  | cons first rest ih =>
    rcases List.forall_mem_cons.1 hidle with ⟨hfirst, hrest⟩
    by_cases hsame : first.path = path
    · have hset : set (.idle path) (first :: rest) = .idle path :: rest := if_pos hsame
      rw [hset, hfirst, hsame]
    · have hset : set (.idle path) (first :: rest) = first :: set (.idle path) rest :=
        if_neg hsame
      have hknown : path ∈ paths rest := (List.mem_cons.1 hpath).resolve_left (Ne.symm hsame)
      rw [hset, ih hrest hknown]

theorem map_idle_set (e : Entry) (entries : List Entry) :
    (set e entries).map (fun e => Entry.idle e.path) =
      set (.idle e.path) (entries.map fun e => Entry.idle e.path) := by
  induction entries with
  | nil => rfl
  | cons first rest ih =>
    by_cases hsame : first.path = e.path
    · simp [set, Entry.idle, hsame]
    · simpa [set, Entry.idle, hsame] using ih

theorem map_idle {entries : List Entry} (hidle : ∀ e ∈ entries, e = .idle e.path) :
    entries.map (fun e => Entry.idle e.path) = entries := by
  induction entries with
  | nil => rfl
  | cons first rest ih =>
    rcases List.forall_mem_cons.1 hidle with ⟨hfirst, hrest⟩
    rw [List.map_cons, ih hrest, ← hfirst]

/-- Among sources that are idle, a line in progress is the last one that is found. -/
theorem find?_reverse_set {e : Entry} (he : e.line.isSome = true) {entries : List Entry}
    (hidle : ∀ e ∈ entries, e = .idle e.path) :
    (set e entries).reverse.find? (fun e => e.line.isSome) = some e := by
  induction entries with
  | nil => simp [set, he]
  | cons first rest ih =>
    rcases List.forall_mem_cons.1 hidle with ⟨_, hrest⟩
    by_cases hsame : first.path = e.path
    · have hset : set e (first :: rest) = e :: rest := if_pos hsame
      have hnone : rest.reverse.find? (fun e => e.line.isSome) = none := by
        refine List.find?_eq_none.2 ?_
        intro other hother
        rw [hrest other (List.mem_reverse.1 hother)]
        simp [Entry.idle]
      rw [hset, List.reverse_cons, List.find?_append, hnone]
      simp [he]
    · have hset : set e (first :: rest) = first :: set e rest := if_neg hsame
      rw [hset, List.reverse_cons, List.find?_append, ih hrest]
      rfl

/-- Idle sources are not told in front of an error. -/
theorem foldr_entryText_idle {entries : List Entry} (hidle : ∀ e ∈ entries, e = .idle e.path) :
    entries.foldr (fun e rest => Reporter.entryText e ++ rest) "" = "" := by
  induction entries with
  | nil => rfl
  | cons first rest ih =>
    rcases List.forall_mem_cons.1 hidle with ⟨hfirst, hrest⟩
    have hempty : Reporter.entryText first = "" := by
      rw [hfirst]
      rfl
    rw [List.foldr_cons, ih hrest, hempty]
    rfl

/-- Among sources that are idle, a line in progress is the only one told in front of an error. -/
theorem foldr_entryText_set (e : Entry) {entries : List Entry}
    (hidle : ∀ e ∈ entries, e = .idle e.path) :
    (set e entries).foldr (fun e rest => Reporter.entryText e ++ rest) "" =
      Reporter.entryText e := by
  induction entries with
  | nil => simp [set]
  | cons first rest ih =>
    rcases List.forall_mem_cons.1 hidle with ⟨hfirst, hrest⟩
    by_cases hsame : first.path = e.path
    · have hset : set e (first :: rest) = e :: rest := if_pos hsame
      rw [hset, List.foldr_cons, foldr_entryText_idle hrest, String.append_empty]
    · have hset : set e (first :: rest) = first :: set e rest := if_neg hsame
      have hempty : Reporter.entryText first = "" := by
        rw [hfirst]
        rfl
      rw [hset, List.foldr_cons, ih hrest, hempty, String.empty_append]

end Traceback

namespace Reporter

/-! ## Counting and printing -/

/-- The reporter after `count` more contractions were counted and `text` was printed. -/
def note (r : Reporter) (count : Nat) (text : String) : Reporter :=
  { r with steps := r.steps + count, printed := r.printed ++ text }

@[simp] theorem note_nothing (r : Reporter) : r.note 0 "" = r := by
  simp [note]

@[simp] theorem note_note (r : Reporter) (m n : Nat) (s t : String) :
    (r.note m s).note n t = r.note (m + n) (s ++ t) := by
  simp [note, Nat.add_assoc, String.append_assoc]

@[simp] theorem fatal_note (r : Reporter) (n : Nat) (t : String) :
    (r.note n t).fatal = r.fatal := rfl

@[simp] theorem style_note (r : Reporter) (n : Nat) (t : String) :
    (r.note n t).style = r.style := rfl

@[simp] theorem verbose_note (r : Reporter) (n : Nat) (t : String) :
    (r.note n t).verbose = r.verbose := rfl

@[simp] theorem clear_note (r : Reporter) (n : Nat) (t : String) (path : String) :
    (r.note n t).clear path = (r.clear path).note n t := rfl

@[simp] theorem clearAll_note (r : Reporter) (n : Nat) (t : String) :
    (r.note n t).clearAll = r.clearAll.note n t := rfl

theorem print_eq_note (r : Reporter) (text : String) : r.print text = r.note 0 (text ++ "\n") := by
  simp [print, note, String.append_assoc]

/-! ## What is printed -/

/-- What is printed of a contraction. -/
def stepText (style : Style) (kind text : String) : String :=
  style.bold (some .cyan) (kind ++ " ") ++ text ++ "\n"

/-- What is printed of the expression at fault. -/
def diagnosisText (style : Style) (report : Report) (color : Color) : String :=
  if report.showsDiagnosis then report.diagnose style color ++ "\n" else ""

/-- What is printed of a warning about the line at a place. -/
def warningText (style : Style) (place : String) (report : Report) : String :=
  place ++ style.bold (some .magenta) "warning: " ++ report.phrase.styled style ++ "\n" ++
    diagnosisText style report .magenta

/-- What is printed of an error below some lines in progress. -/
def errorText (style : Style) (lines : String) (report : Report) : String :=
  lines ++ (if report.internal then style.bold (some .red) "[internal] " else "") ++
    style.bold (some .red) "error: " ++ report.phrase.styled style ++ "\n" ++
    diagnosisText style report .red

theorem count_eq_note (r : Reporter) : r.count = r.note 1 "" := by
  simp [count, note]

theorem step_eq_note (r : Reporter) (kind text : String) :
    r.step kind text = r.note 1 (if r.verbose then stepText r.style kind text else "") := by
  cases hverbose : r.verbose <;>
    simp [step, count, print, note, stepText, hverbose, String.append_assoc]

/-- What is printed of contractions one after the other. -/
def stepTexts (style : Style) (kind : String) (texts : List String) : String :=
  texts.foldr (fun text rest => stepText style kind text ++ rest) ""

theorem printDiagnosis_eq_note (r : Reporter) (report : Report) (color : Color) :
    r.printDiagnosis report color = r.note 0 (diagnosisText r.style report color) := by
  unfold printDiagnosis diagnosisText
  split
  · exact print_eq_note r _
  · exact (note_nothing r).symm

theorem warn_eq_note (r : Reporter) (report : Report) :
    r.warn report = r.note 0 (warningText r.style r.location report) := by
  simp [warn, warningText, printDiagnosis_eq_note, print_eq_note, String.append_assoc]

theorem printError_eq_note (r : Reporter) (report : Report) :
    r.printError report = r.note 0 (errorText r.style r.tracebackText report) := by
  simp [printError, errorText, printDiagnosis_eq_note, print_eq_note, String.append_assoc]

/-! ## A reporter at rest -/

/-- No line of any source is in progress. -/
def Idle (r : Reporter) : Prop :=
  ∀ e ∈ r.traceback, e = .idle e.path

/-- No line is in progress, and a given source is known. -/
structure AtRest (r : Reporter) (path : String) : Prop where
  idle : r.Idle
  known : path ∈ Traceback.paths r.traceback

theorem atRest_note {r : Reporter} {path : String} {n : Nat} {t : String} :
    (r.note n t).AtRest path ↔ r.AtRest path :=
  ⟨fun h => ⟨h.idle, h.known⟩, fun h => ⟨h.idle, h.known⟩⟩

theorem idle_clear {r : Reporter} (h : r.Idle) (path : String) : (r.clear path).Idle := by
  have hset : ∀ entries : List Entry, (∀ e ∈ entries, e = .idle e.path) →
      ∀ e ∈ Traceback.set (.idle path) entries, e = .idle e.path := by
    intro entries
    induction entries with
    | nil => simp [Traceback.set, Entry.idle]
    | cons first rest ih =>
      intro hidle
      rcases List.forall_mem_cons.1 hidle with ⟨hfirst, hrest⟩
      unfold Traceback.set
      split
      · exact List.forall_mem_cons.2 ⟨rfl, hrest⟩
      · exact List.forall_mem_cons.2 ⟨hfirst, ih hrest⟩
  exact hset r.traceback h

/-- Opening a source under an idle reporter puts the reporter at rest. -/
theorem atRest_clear {r : Reporter} (h : r.Idle) (path : String) : (r.clear path).AtRest path where
  idle := idle_clear h path
  known := by
    have hfind := Traceback.find?_set_self (.idle path) r.traceback
    have hmem := List.mem_of_find?_eq_some hfind
    exact List.mem_map_of_mem (f := Entry.path) hmem

/-- After an error no line is in progress, whatever lines were before. -/
theorem atRest_clearAll_record (r : Reporter) (path : String) (line : Option String)
    (number : Option Int) : (r.record path line number).clearAll.AtRest path := by
  constructor
  · intro e he
    rcases List.mem_map.1 he with ⟨e', _, rfl⟩
    rfl
  · have hfind := Traceback.find?_set_self ⟨path, line, number⟩ r.traceback
    have hmem := List.mem_map_of_mem (f := fun e => Entry.idle e.path)
      (List.mem_of_find?_eq_some hfind)
    exact List.mem_map_of_mem (f := Entry.path) hmem

/-- Of a line that is done nothing is left in progress. -/
theorem clear_record (r : Reporter) (path : String) (line : Option String) (number : Option Int) :
    (r.record path line number).clear path = r.clear path := by
  have hpath : (⟨path, line, number⟩ : Entry).path = (Entry.idle path).path := rfl
  exact congrArg (fun entries => { r with traceback := entries })
    (Traceback.set_set hpath r.traceback)

namespace AtRest

variable {r : Reporter} {path : String}

/-- A line that is done leaves no trace. -/
theorem clear_record (h : r.AtRest path) (line : Option String) (number : Option Int) :
    (r.record path line number).clear path = r := by
  rw [Reporter.clear_record]
  have hset : Traceback.set (.idle path) r.traceback = r.traceback :=
    Traceback.set_idle h.idle h.known
  exact congrArg (fun entries => { r with traceback := entries }) hset

/-- A line that ended in an error leaves no trace. -/
theorem clearAll_record (h : r.AtRest path) (line : Option String) (number : Option Int) :
    (r.record path line number).clearAll = r := by
  have hmap : (Traceback.set ⟨path, line, number⟩ r.traceback).map (fun e => Entry.idle e.path) =
      r.traceback := by
    rw [Traceback.map_idle_set, Traceback.map_idle h.idle, Traceback.set_idle h.idle h.known]
  exact congrArg (fun entries => { r with traceback := entries }) hmap

theorem location_record (h : r.AtRest path) (line : String) (number : Option Int) :
    (r.record path (some line) number).location =
      r.style.bold none (path ++ ":" ++ Entry.numberText ⟨path, some line, number⟩ ++ ": ") := by
  have hfind : (r.record path (some line) number).traceback.reverse.find?
      (fun e => e.line.isSome) = some ⟨path, some line, number⟩ :=
    Traceback.find?_reverse_set rfl h.idle
  unfold location
  rw [hfind]
  rfl

theorem tracebackText_eq (h : r.AtRest path) : r.tracebackText = "" := by
  simp [tracebackText, Traceback.foldr_entryText_idle h.idle]

theorem tracebackText_record (h : r.AtRest path) (line : String) (number : Option Int) :
    (r.record path (some line) number).tracebackText =
      if line = "" then "" else "Traceback:\n" ++ entryText ⟨path, some line, number⟩ := by
  have hentries : (r.record path (some line) number).traceback.foldr
      (fun e rest => entryText e ++ rest) "" = entryText ⟨path, some line, number⟩ :=
    Traceback.foldr_entryText_set ⟨path, some line, number⟩ h.idle
  unfold tracebackText
  rw [hentries]
  by_cases hline : line = ""
  · simp [entryText, hline]
  · have hsome : entryText ⟨path, some line, number⟩ ≠ "" := by
      intro hempty
      have hlength := congrArg String.length hempty
      simp [entryText, hline] at hlength
    simp only [hsome, hline, if_false]

end AtRest
end Reporter
end Nameless
