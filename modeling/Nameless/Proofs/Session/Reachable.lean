import Nameless.Proofs.Named.WellNamed
import Nameless.Session.Load

/-!
# Sessions that can arise

A session starts without definitions and changes when a line or a program is added to it, whether
that succeeds or fails, and when it is configured anew. What holds of its table at the start and is
kept by adding one line holds at all times.

This file defines:
- `Definitions.WellFormed`: every name is one that a definition can have, and every term is
  lettered,
- `Session.Reachable`: the sessions that can arise.

Main statements:
- `Session.fetch_eq`: what a reference is replaced by is what it stands for,
- `Session.wellFormed_add`: the table stays well formed,
- `Session.addAll_induction`: what a line keeps is kept by a program,
- `Session.Reachable.wellFormed`, `Session.Reachable.nodup`: what all reachable sessions share.
-/

namespace Nameless

/-! ## Tables -/

namespace Definitions

/-- The names are names of definitions, and the terms have names of variables only. -/
def WellFormed (ds : Definitions) : Prop :=
  ∀ d ∈ ds, Line.isName d.1.toList = true ∧ d.2.Lettered

theorem mem_of_find? {name : String} {t : Named Empty} {ds : Definitions}
    (h : find? name ds = some t) : (name, t) ∈ ds := by
  induction ds with
  | nil => cases h
  | cons d rest ih =>
    unfold find? at h
    split at h
    · next hname =>
      cases h
      subst hname
      exact List.mem_cons_self
    · exact List.mem_cons_of_mem d (ih h)

theorem find?_eq_none {name : String} {ds : Definitions} (h : name ∉ names ds) :
    find? name ds = none := by
  cases hfind : find? name ds with
  | none => rfl
  | some t => exact absurd (List.mem_map_of_mem (mem_of_find? hfind)) h

/-- A new definition comes last. -/
theorem put_of_not_mem {name : String} {ds : Definitions} (h : name ∉ names ds)
    (t : Named Empty) : put name t ds = ds ++ [(name, t)] := by
  induction ds with
  | nil => rfl
  | cons d rest ih =>
    simp only [names, List.map_cons, List.mem_cons, not_or] at h
    have hput : put name t (d :: rest) = d :: put name t rest := if_neg (Ne.symm h.1)
    rw [hput, ih h.2]
    rfl

theorem nodup_put {name : String} {t : Named Empty} {ds : Definitions} (h : ds.names.Nodup) :
    (put name t ds).names.Nodup := by
  by_cases hname : name ∈ names ds
  · rw [names_put_of_mem hname]
    exact h
  · rw [names_put_of_not_mem hname, List.nodup_append]
    refine ⟨h, by simp, ?_⟩
    intro x hx y hy heq
    rw [List.mem_singleton.1 hy] at heq
    exact hname (heq ▸ hx)

theorem mem_put {name : String} {t : Named Empty} {ds : Definitions} {d : String × Named Empty}
    (h : d ∈ put name t ds) : d = (name, t) ∨ d ∈ ds := by
  induction ds with
  | nil => exact .inl (List.mem_singleton.1 h)
  | cons first rest ih =>
    unfold put at h
    split at h
    · rcases List.mem_cons.1 h with rfl | hrest
      · exact .inl rfl
      · exact .inr (List.mem_cons_of_mem first hrest)
    · rcases List.mem_cons.1 h with rfl | hput
      · exact .inr List.mem_cons_self
      · exact (ih hput).imp_right (List.mem_cons_of_mem first)

theorem WellFormed.put {name : String} {t : Named Empty} {ds : Definitions} (hds : ds.WellFormed)
    (hname : Line.isName name.toList = true) (ht : t.Lettered) : (put name t ds).WellFormed := by
  intro d hd
  rcases mem_put hd with rfl | hmem
  · exact ⟨hname, ht⟩
  · exact hds d hmem

end Definitions

namespace Session

/-! ## What adding keeps -/

/-- What a reference can stand for: a definition, or a numeral if it is not defined. -/
theorem lookup_eq_ok {s : Session} {expr name : String} {t : Named Empty}
    (h : s.lookup expr name = .ok t) :
    s.definitions.find? name = some t ∨
      s.definitions.find? name = none ∧ s.numerals = true ∧ Text.isDigits name.toList = true ∧
        ∃ n, number? name.toList = .ok n ∧ t = Named.numeral n := by
  unfold lookup at h
  split at h
  · next hfind =>
    cases h
    exact .inl hfind
  · next hfind =>
    split at h
    · next hdigits =>
      rw [Bool.and_eq_true] at hdigits
      split at h
      · next n hn =>
        cases h
        exact .inr ⟨hfind, hdigits.1, hdigits.2, n, hn, rfl⟩
      · cases h
    · cases h

theorem lettered_lookup {s : Session} (hs : s.definitions.WellFormed) {expr name : String}
    {t : Named Empty} (h : s.lookup expr name = .ok t) : t.Lettered := by
  rcases lookup_eq_ok h with hfind | ⟨_, _, _, n, _, rfl⟩
  · exact (hs (name, t) (Definitions.mem_of_find? hfind)).2
  · exact Named.wellNamed_numeral n

/-- A reference is replaced by what it stands for, unless that is too high to be copied. -/
theorem fetch_eq (s : Session) (expr name : String) :
    s.fetch expr name = s.lookup expr name ∧
        (∀ t, s.definitions.find? name = some t → t.height ≤ s.limits.copying) ∨
      s.fetch expr name = .error .tooDeep ∧
        ∃ t, s.definitions.find? name = some t ∧ s.limits.copying < t.height := by
  unfold fetch lookup
  cases hfind : s.definitions.find? name with
  | none => exact .inl ⟨rfl, nofun⟩
  | some t =>
    by_cases hheight : t.height ≤ s.limits.copying
    · refine .inl ⟨if_pos hheight, ?_⟩
      rintro _ ⟨⟩
      exact hheight
    · exact .inr ⟨if_neg hheight, t, rfl, Nat.lt_of_not_le hheight⟩

theorem fetch_of_height_le {s : Session} {expr name : String} {t : Named Empty}
    (h : s.definitions.find? name = some t) (hheight : t.height ≤ s.limits.copying) :
    s.fetch expr name = .ok t := by
  unfold fetch
  rw [h]
  exact if_pos hheight

theorem fetch_of_lt_height {s : Session} {expr name : String} {t : Named Empty}
    (h : s.definitions.find? name = some t) (hheight : s.limits.copying < t.height) :
    s.fetch expr name = .error .tooDeep := by
  unfold fetch
  rw [h]
  exact if_neg (Nat.not_le_of_lt hheight)

/-- A reference that nothing defines needs no copy. -/
theorem fetch_of_none {s : Session} {expr name : String} (h : s.definitions.find? name = none) :
    s.fetch expr name = s.lookup expr name := by
  unfold fetch
  rw [h]

theorem fetch_eq_ok {s : Session} {expr name : String} {t : Named Empty}
    (h : s.fetch expr name = .ok t) :
    s.lookup expr name = .ok t ∧
      ∀ d, s.definitions.find? name = some d → d.height ≤ s.limits.copying := by
  rcases fetch_eq s expr name with ⟨heq, hheight⟩ | ⟨hdeep, _⟩
  · exact ⟨heq ▸ h, hheight⟩
  · rw [hdeep] at h
    cases h

/-- A term that is read is a text of the grammar with its references replaced. -/
theorem readTerm_eq_ok {s : Session} {expr : String} {t : Named Empty}
    (h : s.readTerm expr = .ok t) :
    ∃ u, Named.parse s.limits.parsing expr = .ok u ∧
      u.expand? (fun r => s.fetch expr r.name) = .ok t :=
  Except.bind_eq_ok h

theorem readTerm_of_parse {s : Session} {expr : String} {u : Named Reference}
    (h : Named.parse s.limits.parsing expr = .ok u) :
    s.readTerm expr = u.expand? fun r => s.fetch expr r.name := by
  unfold readTerm
  rw [h]
  rfl

theorem readTerm_of_unparsed {s : Session} {expr : String} {failure : Failure}
    (h : Named.parse s.limits.parsing expr = .error failure) :
    s.readTerm expr = .error failure := by
  unfold readTerm
  rw [h]
  rfl

theorem lettered_readTerm {s : Session} (hs : s.definitions.WellFormed) {expr : String}
    {t : Named Empty} (h : s.readTerm expr = .ok t) : t.Lettered := by
  rcases readTerm_eq_ok h with ⟨u, hparse, hexpand⟩
  have hu := Named.wellNamed_of_parse hparse
  exact hu.expand? (fun r d _ hd => lettered_lookup hs (fetch_eq_ok hd).1) hexpand

theorem isName_of_split {line name expr : String} (h : Line.split line = .ok (name, expr)) :
    Line.isName name.toList = true := by
  unfold Line.split at h
  simp only at h
  split at h
  · cases h
  · split at h
    · next hname =>
      cases h
      simpa using hname
    · cases h

theorem readDefinition_of_parts {line name expr : String}
    (h : Line.split line = .ok (name, expr)) (s : Session) :
    s.readDefinition line = (s.readTerm expr).map fun t => (name, t) := by
  unfold readDefinition
  rw [h]
  change (s.readTerm expr >>= fun t => pure (name, t)) = _
  cases s.readTerm expr <;> rfl

theorem readDefinition_eq_ok {s : Session} {line name : String} {t : Named Empty}
    (h : s.readDefinition line = .ok (name, t)) :
    ∃ expr, Line.split line = .ok (name, expr) ∧ s.readTerm expr = .ok t := by
  rcases Except.bind_eq_ok h with ⟨⟨name', expr⟩, hsplit, hrest⟩
  rcases Except.bind_eq_ok hrest with ⟨t', hterm, hdone⟩
  cases hdone
  exact ⟨expr, Failure.ofFault_eq_ok hsplit, hterm⟩

/-- A line leaves the session as it is, or defines one name by a term that was read in it. -/
theorem session_add (s : Session) (line : String) (number : Option Int) (reporter : Reporter) :
    (s.add line number reporter).session = s ∨
      ∃ name t, s.readDefinition line = .ok (name, t) ∧
        (s.add line number reporter).session =
          { s with definitions := s.definitions.put name t } := by
  unfold add
  split
  · exact .inl rfl
  · next name t hread => exact .inr ⟨name, t, hread, rfl⟩

theorem wellFormed_add {s : Session} (hs : s.definitions.WellFormed) (line : String)
    (number : Option Int) (reporter : Reporter) :
    (s.add line number reporter).session.definitions.WellFormed := by
  rcases session_add s line number reporter with heq | ⟨name, t, hread, heq⟩
  · rw [heq]
    exact hs
  · rcases readDefinition_eq_ok hread with ⟨expr, hsplit, hterm⟩
    rw [heq]
    exact hs.put (isName_of_split hsplit) (lettered_readTerm hs hterm)

theorem nodup_add {s : Session} (hs : s.definitions.names.Nodup) (line : String)
    (number : Option Int) (reporter : Reporter) :
    (s.add line number reporter).session.definitions.names.Nodup := by
  rcases session_add s line number reporter with heq | ⟨name, t, _, heq⟩
  · rw [heq]
    exact hs
  · rw [heq]
    exact Definitions.nodup_put hs

/-- What adding any line keeps is kept by adding several, whether or not all of them are read. -/
theorem addAll_induction {P : Session → Prop}
    (hadd : ∀ s line number reporter, P s → P (s.add line number reporter).session)
    {s : Session} (hs : P s) (tasks : List Task) (reporter : Reporter) :
    P (s.addAll reporter tasks).session := by
  induction tasks generalizing s reporter with
  | nil => exact hs
  | cons task rest ih =>
    have hline := hadd s task.line task.number reporter hs
    unfold addAll
    split
    · next heq =>
      -- The lines end at one that fails, with the session as that line left it.
      rw [heq] at hline
      exact hline
    · next s' reporter' heq =>
      rw [heq] at hline
      exact ih hline reporter'

/-! ## Reachable sessions -/

/-- The sessions that can arise: a fresh one within any bounds, and what lines, programs and new
settings make of one, also when they fail. -/
inductive Reachable : Session → Prop where
  | fresh (path : String) (numerals allowFree : Bool) (limits : Bounds) :
      Reachable { path := path, numerals := numerals, allowFree := allowFree, limits := limits }
  | add {s : Session} (line : String) (number : Option Int) (reporter : Reporter) :
      Reachable s → Reachable (s.add line number reporter).session
  | load {s : Session} (program : List Char) (reporter : Reporter) :
      Reachable s → Reachable (s.load program reporter).session
  | configure {s : Session} (numerals allowFree : Bool) :
      Reachable s → Reachable { s with numerals := numerals, allowFree := allowFree }

namespace Reachable

theorem wellFormed {s : Session} (h : s.Reachable) : s.definitions.WellFormed := by
  induction h with
  | fresh path numerals allowFree limits =>
    intro d hd
    cases hd
  | add line number reporter _ ih => exact wellFormed_add ih line number reporter
  | load program reporter _ ih =>
    exact addAll_induction (P := fun s => s.definitions.WellFormed)
      (fun _ line number reporter hs => wellFormed_add hs line number reporter) ih _ reporter
  | configure numerals allowFree _ ih => exact ih

/-- No name stands in the table twice. -/
theorem nodup {s : Session} (h : s.Reachable) : s.definitions.names.Nodup := by
  induction h with
  | fresh path numerals allowFree limits => exact List.nodup_nil
  | add line number reporter _ ih => exact nodup_add ih line number reporter
  | load program reporter _ ih =>
    exact addAll_induction (P := fun s => s.definitions.names.Nodup)
      (fun _ line number reporter hs => nodup_add hs line number reporter) ih _ reporter
  | configure numerals allowFree _ ih => exact ih

end Reachable

end Session
end Nameless
