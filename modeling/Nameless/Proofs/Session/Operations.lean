import Nameless.Proofs.Line
import Nameless.Proofs.Session.Failures
import Nameless.Proofs.Session.Loading

/-!
# Calls on a session

A session is used by calls one after the other: programs and lines are added, terms are resolved and
evaluated, what the program computes is run, and the settings are changed. Any of these may fail,
and a call that fails may be followed by others. What the calls make of the table of definitions
does not depend on the reporter, and at all times the table is resolved: it has terms without
references only, under names that a definition can have.

This file defines:
- `Operation`, `Session.perform`: the calls, and what one of them leaves behind,
- `Session.after`: the session and the reporter after some calls.

Main statements:
- `Session.reachable_after`: the sessions after some calls are reachable,
- `Session.session_perform_congr`, `Session.after_congr`: the reporter does not decide what becomes
  of the session,
- `Session.resolveRaw_map_toRaw`: trees are resolved as terms are,
- `Session.definitions_stay_resolved`: what holds of the table after any calls.
-/

namespace Nameless

/-! ## Calls -/

/-- A call on a session. -/
inductive Operation where
  | load (program : List Char)
  | add (line : String) (number : Option Int)
  /-- Resolves the references in a tree. -/
  | resolve (expr : String) (t : Named Raw)
  | evaluate (expr : String) (number : Option Int)
  | run
  /-- Changes the settings. -/
  | configure (numerals allowFree : Bool)

namespace Session

/-- What a call leaves behind. Of its result only the failure is told, if it is one. -/
def perform (s : Session) (r : Reporter) : Operation → Outcome Unit
  | .load program => s.load program r
  | .add line number =>
    let added := s.add line number r
    ⟨added.result.map fun _ => (), added.session, added.reporter⟩
  | .resolve expr t => ⟨(s.resolveRaw expr t).map fun _ => (), s, r⟩
  | .evaluate expr number =>
    let evaluated := s.evaluate expr number r
    ⟨evaluated.1.map fun _ => (), s, evaluated.2⟩
  | .run => ⟨(s.run r).1.map fun _ => (), s, (s.run r).2⟩
  | .configure numerals allowFree =>
    ⟨.ok (), { s with numerals := numerals, allowFree := allowFree }, r⟩

/-- The session and the reporter after some calls. -/
def after (s : Session) (r : Reporter) : List Operation → Session × Reporter
  | [] => (s, r)
  | op :: ops => (s.perform r op).session.after (s.perform r op).reporter ops

theorem reachable_perform {s : Session} (hs : s.Reachable) (r : Reporter) (op : Operation) :
    (s.perform r op).session.Reachable := by
  cases op with
  | load program => exact .load program r hs
  | add line number => exact .add line number r hs
  | resolve expr t => exact hs
  | evaluate expr number => exact hs
  | run => exact hs
  | configure numerals allowFree => exact .configure numerals allowFree hs

theorem reachable_after {s : Session} (hs : s.Reachable) (r : Reporter) (ops : List Operation) :
    (s.after r ops).1.Reachable := by
  induction ops generalizing s r with
  | nil => exact hs
  | cons op ops ih => exact ih (reachable_perform hs r op) _

/-! ## The reporter decides nothing about the session -/

theorem add_congr (s : Session) (line : String) (number : Option Int) (r r' : Reporter) :
    (s.add line number r).result = (s.add line number r').result ∧
      (s.add line number r).session = (s.add line number r').session := by
  unfold add
  cases s.readDefinition line with
  | error failure => exact ⟨rfl, rfl⟩
  | ok definition => exact ⟨rfl, rfl⟩

theorem addAll_congr (s : Session) (tasks : List Task) (r r' : Reporter) :
    (s.addAll r tasks).result = (s.addAll r' tasks).result ∧
      (s.addAll r tasks).session = (s.addAll r' tasks).session := by
  rcases addAll_eq_extend s tasks r with ⟨hresult, hsession, _⟩
  rcases addAll_eq_extend s tasks r' with ⟨hresult', hsession', _⟩
  exact ⟨hresult.trans hresult'.symm, hsession.trans hsession'.symm⟩

theorem session_perform_congr (s : Session) (op : Operation) (r r' : Reporter) :
    (s.perform r op).session = (s.perform r' op).session := by
  cases op with
  | load program => exact (addAll_congr s (Line.tasks 1 (Text.lines program)) r r').2
  | add line number => exact (add_congr s line number r r').2
  | evaluate expr number => rfl
  | run => rfl
  | resolve expr t => rfl
  | configure numerals allowFree => rfl

/-- What calls make of a session does not depend on what the reporter knows. -/
theorem after_congr (s : Session) (ops : List Operation) (r r' : Reporter) :
    (s.after r ops).1 = (s.after r' ops).1 := by
  induction ops generalizing s r r' with
  | nil => rfl
  | cons op ops ih =>
    unfold after
    rw [session_perform_congr s op r r']
    exact ih _ _ _

/-! ## Resolving -/

/-- A parsed term is resolved as the tree that it is. -/
theorem resolveRaw_map_toRaw (s : Session) (expr : String) (t : Named Reference) :
    s.resolveRaw expr (t.map Reference.toRaw) = (s.resolve expr t).map Named.embed := by
  unfold resolveRaw resolve
  induction t with
  | abs name body ih =>
    simp only [Named.map, Named.expand?, ih]
    cases body.expand? fun r => s.lookup expr r.name <;> rfl
  | app fn arg ihf iha =>
    simp only [Named.map, Named.expand?, ihf, iha]
    cases fn.expand? fun r => s.lookup expr r.name with
    | error failure => rfl
    | ok fn' => cases arg.expand? fun r => s.lookup expr r.name <;> rfl
  | sym name => rfl
  | leaf r => rfl

theorem resolveRaw_embed (s : Session) (expr : String) (u : Named Empty) :
    s.resolveRaw expr u.embed = .ok u.embed :=
  Named.expand?_embed _ u

/-- A parsed term that is resolved has no references left, and names of variables only. -/
theorem exists_resolved {s : Session} (hs : s.definitions.WellFormed) {expr : String}
    {t : Named Reference} (ht : t.WellNamed Reference.IsNamed) {w : Named Raw}
    (h : s.resolveRaw expr (t.map Reference.toRaw) = .ok w) :
    ∃ u, s.resolve expr t = .ok u ∧ u.Lettered ∧ w = u.embed := by
  rw [resolveRaw_map_toRaw] at h
  cases hresolve : s.resolve expr t with
  | error failure =>
    rw [hresolve] at h
    cases h
  | ok u =>
    rw [hresolve] at h
    cases h
    exact ⟨u, rfl, ht.expand? (fun r d _ hd => lettered_lookup hs hd) hresolve, rfl⟩

/-! ## Failures -/

/-- The failure is not one of a term of the wrong shape. -/
def Unbroken (failure : Failure) : Prop :=
  ∀ fault, failure = .fault fault → fault.report.category ≠ .structuralDefect

theorem unbroken_of_reduce {s : Session} {t : Named Empty} {r : Reporter} {failure : Failure}
    (h : (s.reduce t r).1 = .error failure) : Unbroken failure := by
  rintro fault rfl
  rcases Named.reduceIn?_eq_error h with hdeep | ⟨_, x, _, hunbound⟩
  · cases hdeep
  · cases hunbound
    exact nofun

theorem unbroken_of_readTerm {s : Session} {expr : String} {failure : Failure}
    (h : s.readTerm expr = .error failure) : Unbroken failure := by
  rintro fault rfl
  rcases readTerm_eq_error h with ⟨_, _, _, _, heq⟩ | heq | ⟨_, _, heq⟩ | ⟨_, _, _, heq⟩
  · cases heq
  · cases heq
  · cases heq
    exact nofun
  · cases heq
    exact nofun

theorem unbroken_of_run {s : Session} {r : Reporter} {failure : Failure}
    (h : (s.run r).1 = .error failure) : Unbroken failure := by
  unfold run mainTerm at h
  cases hmain : s.definitions.find? mainName with
  | none =>
    rw [hmain] at h
    cases h
    rintro fault heq
    cases heq
    exact nofun
  | some t =>
    rw [hmain] at h
    exact unbroken_of_reduce h

theorem unbroken_of_evaluate {s : Session} {expr : String} {number : Option Int} {r : Reporter}
    {failure : Failure} (h : (s.evaluate expr number r).1 = .error failure) :
    Unbroken failure := by
  unfold evaluate at h
  cases hread : s.readTerm expr with
  | error failure' =>
    rw [hread] at h
    cases h
    exact unbroken_of_readTerm hread
  | ok t =>
    rw [hread] at h
    simp only at h
    split at h
    · next heq =>
      cases h
      exact unbroken_of_reduce (congrArg Prod.fst heq)
    · cases h

/-! ## The table -/

/-- After any calls, failed ones among them, every defined name is a word of capitals and digits,
and every term of the table has words of small letters for its names and a text, which is that term
again. Resolving a parsed term leaves no reference, and what comes out is left as it is by resolving
it once more, whatever calls have been made meanwhile. Neither running nor evaluating ever fails at
a term of the wrong shape. -/
theorem definitions_stay_resolved (path : String) (numerals allowFree : Bool) (limits : Bounds)
    (r : Reporter) (ops : List Operation) :
    let fresh : Session :=
      { path := path, numerals := numerals, allowFree := allowFree, limits := limits }
    let s := (fresh.after r ops).1
    (∀ name t, (name, t) ∈ s.definitions →
      (name ≠ "" ∧ ∀ c ∈ name.toList, isUpperOrDigit c = true) ∧ t.Lettered ∧
        s.text? t = .ok (s.text t) ∧ t.text? = .ok t.text ∧ Named.Grammatical t.text t.embed) ∧
      (∀ depth text t expr w, Named.parse depth text = .ok t →
        s.resolveRaw expr (t.map Reference.toRaw) = .ok w →
        w.leaves = [] ∧ (∃ u, s.resolve expr t = .ok u ∧ u.Lettered ∧ w = u.embed) ∧
          ∀ r' later expr', (s.after r' later).1.resolveRaw expr' w = .ok w) ∧
      (∀ r' failure, (s.run r').1 = .error failure → Unbroken failure) ∧
      ∀ expr number r' failure, (s.evaluate expr number r').1 = .error failure →
        Unbroken failure := by
  intro fresh s
  have hs : s.definitions.WellFormed :=
    (reachable_after (.fresh path numerals allowFree limits) r ops).wellFormed
  refine ⟨?_, ?_, fun _ _ => unbroken_of_run, fun _ _ _ _ => unbroken_of_evaluate⟩
  · intro name t hmem
    rcases hs (name, t) hmem with ⟨hname, ht⟩
    have hne : name ≠ "" := by
      rintro rfl
      cases hname
    exact ⟨⟨hne, Line.isUpperOrDigit_of_isName hname⟩, ht, text?_empty s t, Named.text?_empty t,
      Named.grammatical_text ht⟩
  · intro depth text t expr w hparse hresolve
    rcases exists_resolved hs (Named.wellNamed_of_parse hparse) hresolve with ⟨u, hu, hlettered, rfl⟩
    refine ⟨Named.leaves_embed u, ⟨u, hu, hlettered, rfl⟩, ?_⟩
    intro r' later expr'
    exact resolveRaw_embed _ expr' u

/-- Numerals are switched on and off, a program fails at its third line, an evaluation and a run
fail, and a name is defined anew. -/
theorem definitions_stay_resolved_after_failures :
    let ops : List Operation :=
      [.configure true false, .add "TWO = 2" none, .load "A = (TWO \\x.x)\n//\nB = NO\nC = A".toList,
        .evaluate "(A" (some 1), .run, .configure false true, .add "TWO = y" none]
    let s := (after {} {} ops).1
    let t : Named Reference := .abs "z" (.app (.leaf ⟨"A"⟩) (.leaf ⟨"TWO"⟩))
    let w : Named Raw := .abs "z" (.app (.app (.numeral 2) (.abs "x" (.sym "x"))) (.sym "y"))
    s.definitions.names = ["TWO", "A"] ∧ (∀ name d, (name, d) ∈ s.definitions → d.Lettered) ∧
      Named.parse 5 "\\z.(A TWO)" = .ok t ∧ s.resolveRaw "" (t.map Reference.toRaw) = .ok w ∧
      w.leaves = [] ∧ (s.after {} [.add "A = \\x.x" none]).1.resolveRaw "" w = .ok w := by
  intro ops s t w
  have hparse : Named.parse 5 "\\z.(A TWO)" = .ok t := by decide +kernel
  have hresolve : s.resolveRaw "" (t.map Reference.toRaw) = .ok w := by decide +kernel
  rcases definitions_stay_resolved standardInput false false .standard {} ops with
    ⟨htable, hresolved, _, _⟩
  rcases hresolved 5 _ t "" w hparse hresolve with ⟨hleaves, _, hlater⟩
  exact ⟨by decide +kernel, fun name d hmem => (htable name d hmem).2.1, hparse, hresolve, hleaves,
    hlater {} _ ""⟩

end Session
end Nameless
