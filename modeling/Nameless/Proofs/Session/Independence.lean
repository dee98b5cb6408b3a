import Nameless.Proofs.Session.Loading

/-!
# Definitions that do not depend on each other

References are resolved as soon as a line is read, so a definition depends on the lines before it
only through the names that its term refers to. Two neighbouring definitions of different names,
neither of which refers to the name of the other, may therefore change places. The table then has
its names in another order perhaps, but each name has the same term, and from there on the two
programs cannot be told apart: the lines after them are read in the same way, and so is what the
program computes.

This file defines:
- `Named.references`, `Line.Defines`: the names that a term refers to, and lines that are
  definitions,
- `Line.task`, `Line.Independent`: a line to be worked on, and definitions that may change places,
- `Session.Agrees`: sessions in which every name stands for the same term.

Main statements:
- `Session.readTerm_define`: a definition is of no account to a term that does not refer to it,
- `Session.Agrees.extend`: sessions that agree still do so after more definitions,
- `Session.extend_swap`: two definitions that change places,
- `Session.independent_definitions_commute`: two lines of a program that change places.
-/

namespace Nameless

/-! ## References -/

namespace Named

/-- The names that a text refers to, if it is a term nested no deeper than `depth`. -/
def references (depth : Nat) (expr : String) : List String :=
  match parse depth expr with
  | .ok t => t.leaves.map Reference.name
  | .error _ => []

end Named

namespace Line

/-- The line is a definition of a name by the text of a term. -/
def Defines (line : List Char) (name expr : String) : Prop :=
  split (String.ofList (content line)) = .ok (name, expr)

instance (line : List Char) (name expr : String) : Decidable (Defines line name expr) :=
  inferInstanceAs (Decidable (split (String.ofList (content line)) = .ok (name, expr)))

/-- What a line is worked on as, with some number. -/
def task (line : List Char) (number : Option Int) : Task where
  line := String.ofList (content line)
  number := number

/-- Two definitions of different names, of which neither refers to the name of the other. -/
def Independent (depth : Nat) (line line' : List Char) : Prop :=
  ∃ name expr name' expr', Defines line name expr ∧ Defines line' name' expr' ∧ name ≠ name' ∧
    name' ∉ Named.references depth expr ∧ name ∉ Named.references depth expr'

theorem Independent.symm {depth : Nat} {line line' : List Char}
    (h : Independent depth line line') : Independent depth line' line := by
  rcases h with ⟨name, expr, name', expr', hline, hline', hne, hrefers, hrefers'⟩
  exact ⟨name', expr', name, expr, hline', hline, hne.symm, hrefers', hrefers⟩

theorem Defines.content_ne_nil {line : List Char} {name expr : String}
    (h : Defines line name expr) : content line ≠ [] := by
  intro hempty
  rw [Defines, hempty] at h
  cases h

end Line

namespace Definitions

theorem find?_put (name : String) (t : Named Empty) (ds : Definitions) (other : String) :
    find? other (put name t ds) = if name = other then some t else find? other ds := by
  by_cases h : name = other
  · rw [if_pos h, ← h, find?_put_self]
  · rw [if_neg h, find?_put_of_ne h]

end Definitions

namespace Session

/-! ## Reading a definition -/

theorem extend_of_split {task : Task} {name expr : String}
    (h : Line.split task.line = .ok (name, expr)) {s : Session} {t : Named Empty}
    (hread : s.readTerm expr = .ok t) (rest : List Task) :
    (s.extend (task :: rest)).result = ((s.define name t).extend rest).result ∧
      (s.extend (task :: rest)).session = ((s.define name t).extend rest).session := by
  have hdefinition : s.readDefinition task.line = .ok (name, t) := by
    rw [readDefinition_of_parts h, hread]
    rfl
  rw [extend_of_ok hdefinition]
  exact ⟨rfl, rfl⟩

/-- A definition that is added has a term that can be read. -/
theorem exists_read_of_extend {task : Task} {name expr : String}
    (h : Line.split task.line = .ok (name, expr)) {s : Session} {rest : List Task}
    (hextend : (s.extend (task :: rest)).result = .ok ()) : ∃ t, s.readTerm expr = .ok t := by
  cases hread : s.readTerm expr with
  | ok t => exact ⟨t, rfl⟩
  | error failure =>
    have hfails : s.readDefinition task.line = .error failure := by
      rw [readDefinition_of_parts h, hread]
      rfl
    rw [extend_of_error hfails] at hextend
    cases hextend

/-- What a name is replaced by is not changed by the definition of another one. -/
theorem fetch_define {s : Session} {name other : String} (h : name ≠ other) (t : Named Empty)
    (expr : String) : (s.define name t).fetch expr other = s.fetch expr other := by
  have hfind : (s.define name t).definitions.find? other = s.definitions.find? other :=
    Definitions.find?_put_of_ne h t s.definitions
  unfold fetch lookup
  rw [hfind]
  rfl

theorem readTerm_define {s : Session} {expr name : String}
    (h : name ∉ Named.references s.limits.parsing expr) (t : Named Empty) :
    (s.define name t).readTerm expr = s.readTerm expr := by
  unfold readTerm
  change (Named.parse s.limits.parsing expr >>= _) = _
  cases hparse : Named.parse s.limits.parsing expr with
  | error failure => rfl
  | ok u =>
    -- None of the references of the term is to the name.
    apply Named.expand?_congr
    intro x hx
    apply fetch_define
    rintro rfl
    apply h
    rw [Named.references, hparse]
    exact List.mem_map_of_mem hx

/-! ## Sessions that agree -/

/-- The settings are the same, and every name stands for the same term. The order of the definitions
may differ, and so may the source. -/
structure Agrees (s s' : Session) : Prop where
  numerals : s.numerals = s'.numerals
  allowFree : s.allowFree = s'.allowFree
  limits : s.limits = s'.limits
  find? : ∀ name, s.definitions.find? name = s'.definitions.find? name

namespace Agrees

variable {s s' : Session}

theorem fetch (h : s.Agrees s') (expr name : String) :
    s.fetch expr name = s'.fetch expr name := by
  unfold Session.fetch Session.lookup
  rw [h.find?, h.numerals, h.limits]

theorem readTerm (h : s.Agrees s') (expr : String) : s.readTerm expr = s'.readTerm expr := by
  have hfetch : s.fetch = s'.fetch := funext fun expr => funext (h.fetch expr)
  unfold Session.readTerm
  rw [h.limits, hfetch]

theorem readDefinition (h : s.Agrees s') (line : String) :
    s.readDefinition line = s'.readDefinition line := by
  have hread : s.readTerm = s'.readTerm := funext h.readTerm
  unfold Session.readDefinition
  rw [hread]

theorem define (h : s.Agrees s') (name : String) (t : Named Empty) :
    (s.define name t).Agrees (s'.define name t) where
  numerals := h.numerals
  allowFree := h.allowFree
  limits := h.limits
  find? := by
    intro other
    simp only [Session.define, Definitions.find?_put, h.find?]

/-- Sessions that agree take the same lines, and agree after them. -/
theorem extend (h : s.Agrees s') (tasks : List Task) :
    (s.extend tasks).result = (s'.extend tasks).result ∧
      (s.extend tasks).session.Agrees (s'.extend tasks).session := by
  induction tasks generalizing s s' with
  | nil => exact ⟨rfl, h⟩
  | cons task rest ih =>
    -- Both read the definition alike, so both stop at it or both go on and agree again.
    have hsame := h.readDefinition task.line
    cases hread : s'.readDefinition task.line with
    | error failure =>
      rw [extend_of_error hread, extend_of_error (hsame.trans hread)]
      exact ⟨rfl, h⟩
    | ok definition =>
      rw [extend_of_ok hread, extend_of_ok (hsame.trans hread)]
      exact ih (h.define _ _)

theorem mainTerm (h : s.Agrees s') : s.mainTerm = s'.mainTerm := by
  unfold Session.mainTerm
  rw [h.find?]

/-- What the program computes is reduced alike, and counted alike by any two reporters that have
counted as much before. -/
theorem run (h : s.Agrees s') {r r' : Reporter} (hsteps : r.steps = r'.steps)
    (hverbose : r.verbose = r'.verbose) :
    (s.run r).1 = (s'.run r').1 ∧ (s.run r).2.steps = (s'.run r').2.steps := by
  unfold Session.run
  rw [h.mainTerm]
  cases s'.mainTerm with
  | error failure => exact ⟨rfl, hsteps⟩
  | ok t =>
    have hreduction : s.reduction r.verbose t = s'.reduction r'.verbose t := by
      unfold Session.reduction
      rw [h.limits, h.allowFree, hverbose]
    change (s.reduce t r).1 = (s'.reduce t r').1 ∧
      (s.reduce t r).2.steps = (s'.reduce t r').2.steps
    -- What is told of the contractions may differ, but not how many there are.
    rw [reduce_eq s t s.path, reduce_eq s' t s'.path, hreduction]
    exact ⟨rfl, congrArg (· + _) hsteps⟩

end Agrees

/-- Definitions of different names can be made in either order. -/
theorem define_define_agrees (s : Session) {name name' : String} (hne : name ≠ name')
    (t t' : Named Empty) :
    ((s.define name t).define name' t').Agrees ((s.define name' t').define name t) where
  numerals := rfl
  allowFree := rfl
  limits := rfl
  find? := by
    intro other
    simp only [define, Definitions.find?_put]
    by_cases h : name = other
    · subst h
      simp [hne.symm]
    · simp [h]

/-! ## Changing places -/

/-- Two definitions change places. The numbers stay where they are. -/
theorem extend_swap {s : Session} {line line' : List Char}
    (h : Line.Independent s.limits.parsing line line') {rest : List Task} (m n : Option Int)
    (hextend : (s.extend (Line.task line m :: Line.task line' n :: rest)).result = .ok ()) :
    (s.extend (Line.task line' m :: Line.task line n :: rest)).result = .ok () ∧
      (s.extend (Line.task line m :: Line.task line' n :: rest)).session.Agrees
        (s.extend (Line.task line' m :: Line.task line n :: rest)).session := by
  rcases h with ⟨name, expr, name', expr', hline, hline', hne, hrefers, hrefers'⟩
  have hsplit (number : Option Int) : Line.split (Line.task line number).line = .ok (name, expr) :=
    hline
  have hsplit' (number : Option Int) :
      Line.split (Line.task line' number).line = .ok (name', expr') := hline'
  rcases exists_read_of_extend (hsplit m) hextend with ⟨t, hread⟩
  rcases extend_of_split (hsplit m) hread (Line.task line' n :: rest) with ⟨hresult, hsession⟩
  rw [hresult] at hextend
  rcases exists_read_of_extend (hsplit' n) hextend with ⟨t', hread'⟩
  rcases extend_of_split (hsplit' n) hread' rest with ⟨hresult', hsession'⟩
  -- Each of the two terms is read without the other definition as well as with it.
  have hfirst : s.readTerm expr' = .ok t' := by
    rw [← hread', readTerm_define hrefers']
  have hsecond : (s.define name' t').readTerm expr = .ok t := by
    rw [← hread, readTerm_define hrefers]
  rcases extend_of_split (hsplit' m) hfirst (Line.task line n :: rest) with
    ⟨hother, hotherSession⟩
  rcases extend_of_split (hsplit n) hsecond rest with ⟨hother', hotherSession'⟩
  rcases (define_define_agrees s hne t t').extend rest with ⟨hsame, hagrees⟩
  constructor
  · rw [hother, hother', ← hsame, ← hresult', hextend]
  · rw [hsession, hsession', hotherSession, hotherSession']
    exact hagrees

/-- Whatever lines were added before, the two may change places. -/
theorem extend_swap_after {s : Session} {line line' : List Char}
    (h : Line.Independent s.limits.parsing line line') {before rest : List Task} (m n : Option Int)
    (hextend : (s.extend (before ++ Line.task line m :: Line.task line' n :: rest)).result = .ok ()) :
    (s.extend (before ++ Line.task line' m :: Line.task line n :: rest)).result = .ok () ∧
      (s.extend (before ++ Line.task line m :: Line.task line' n :: rest)).session.Agrees
        (s.extend (before ++ Line.task line' m :: Line.task line n :: rest)).session := by
  have hlimits := limits_extend s before
  rw [extend_append] at hextend
  rw [extend_append, extend_append]
  rcases hbefore : s.extend before with ⟨s', warnings, _ | stopped⟩
  · rw [hbefore] at hextend hlimits
    rw [← hlimits] at h
    exact extend_swap h m n hextend
  · -- If one of the lines before cannot be read, the two are not reached.
    rw [hbefore] at hextend
    cases hextend

theorem tasks_of_neighbours {before after : List (List Char)} {line line' : List Char}
    {depth : Nat} (h : Line.Independent depth line line') (number : Nat) :
    Line.tasks number (before ++ line :: line' :: after) =
      Line.tasks number before ++
        Line.task line (some ((number + before.length : Nat) : Int)) ::
          Line.task line' (some ((number + before.length + 1 : Nat) : Int)) ::
            Line.tasks (number + before.length + 1 + 1) after := by
  rcases h with ⟨_, _, _, _, hline, hline', _⟩
  rw [Line.tasks_append, Line.tasks_of_content hline.content_ne_nil,
    Line.tasks_of_content hline'.content_ne_nil]
  rfl

/-- Two neighbouring definitions of different names, neither of which refers to the name of the
other, may change places in any program. The one program loads just if the other one does, and then
every name stands for the same term. So what the program computes is the same, with the same result
after as many contractions. -/
theorem independent_definitions_commute {s : Session} {before after : List (List Char)}
    {line line' program program' : List Char}
    (h : Line.Independent s.limits.parsing line line')
    (hprogram : Text.lines program = before ++ line :: line' :: after)
    (hprogram' : Text.lines program' = before ++ line' :: line :: after) (r : Reporter) :
    let loaded := s.load program r
    let loaded' := s.load program' r
    (loaded.result = .ok () ↔ loaded'.result = .ok ()) ∧
      (loaded.result = .ok () →
        (∀ name, loaded.session.definitions.find? name = loaded'.session.definitions.find? name) ∧
          loaded.session.mainTerm = loaded'.session.mainTerm ∧
          (loaded.session.run loaded.reporter).1 = (loaded'.session.run loaded'.reporter).1 ∧
          (loaded.session.run loaded.reporter).2.steps =
            (loaded'.session.run loaded'.reporter).2.steps) := by
  intro loaded loaded'
  rcases addAll_eq_extend s (Line.tasks 1 (Text.lines program)) r with
    ⟨hresult, hsession, hsteps, hverbose⟩
  rcases addAll_eq_extend s (Line.tasks 1 (Text.lines program')) r with
    ⟨hresult', hsession', hsteps', hverbose'⟩
  have hloaded : loaded.result = _ ∧ loaded.session = _ := ⟨hresult, hsession⟩
  have hloaded' : loaded'.result = _ ∧ loaded'.session = _ := ⟨hresult', hsession'⟩
  rw [hprogram, tasks_of_neighbours h] at hloaded
  rw [hprogram', tasks_of_neighbours h.symm] at hloaded'
  refine ⟨⟨?_, ?_⟩, ?_⟩
  · intro hok
    exact hloaded'.1.trans (extend_swap_after h _ _ (hloaded.1.symm.trans hok)).1
  · intro hok
    exact hloaded.1.trans (extend_swap_after h.symm _ _ (hloaded'.1.symm.trans hok)).1
  · intro hok
    have hagrees : loaded.session.Agrees loaded'.session := by
      rw [hloaded.2, hloaded'.2]
      exact (extend_swap_after h _ _ (hloaded.1.symm.trans hok)).2
    exact ⟨hagrees.find?, hagrees.mainTerm,
      hagrees.run (hsteps.trans hsteps'.symm) (hverbose.trans hverbose'.symm)⟩

/-- A name and a number are defined in either order, both for the second time, and the line after
them refers to both. -/
theorem independent_definitions_commute_number :
    let s : Session := { numerals := true }
    let line := "A = \\x.(A 3)".toList
    let line' := "2 = \\f.(2 f)".toList
    let before := ["A = 2".toList]
    let after := ["".toList, "MAIN = ((2 A) 2)".toList]
    let loaded := s.load (Text.unlines (before ++ line :: line' :: after)) {}
    let loaded' := s.load (Text.unlines (before ++ line' :: line :: after)) {}
    Line.Independent s.limits.parsing line line' ∧ loaded.result = .ok () ∧
      loaded.session.definitions.names = ["A", "2", "MAIN"] ∧ loaded'.result = .ok () ∧
      loaded.session.mainTerm = loaded'.session.mainTerm ∧
      (loaded.session.run loaded.reporter).2.steps =
        (loaded'.session.run loaded'.reporter).2.steps := by
  intro s line line' before after loaded loaded'
  have hindependent : Line.Independent s.limits.parsing line line' :=
    ⟨"A", "\\x.(A 3)", "2", "\\f.(2 f)", by decide +kernel, by decide +kernel, by decide,
      by decide +kernel, by decide +kernel⟩
  have hok : loaded.result = .ok () := by decide +kernel
  have hlines : Text.lines (Text.unlines (before ++ line :: line' :: after)) =
      before ++ line :: line' :: after := by decide +kernel
  have hlines' : Text.lines (Text.unlines (before ++ line' :: line :: after)) =
      before ++ line' :: line :: after := by decide +kernel
  have hcommute := independent_definitions_commute hindependent hlines hlines' {}
  rcases hcommute.2 hok with ⟨_, hmain, _, hsteps⟩
  exact ⟨hindependent, hok, by decide +kernel, hcommute.1.1 hok, hmain, hsteps⟩

end Session
end Nameless
