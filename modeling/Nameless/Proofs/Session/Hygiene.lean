import Nameless.Proofs.Named.Reading
import Nameless.Proofs.Session.Reachable

/-!
# Capture by inlined definitions

A reference is replaced by the term of its definition as that term stands, so a free variable of the
definition is caught by a binder of the same name around the reference. Nothing keeps a definition
from having free variables, and a session inlines without capture exactly as long as none of its
definitions has one.

This file defines:
- `Named.sites`: the leaves of a term, each with the binders around it,
- `Session.Uses`, `Session.Captures`: the definitions that a term refers to, and the names that are
  caught,
- `Session.Hygienic`: inlining loses no free name.

Main statements:
- `Named.mem_freeNames_expand?`: the free names after leaves are replaced,
- `Session.mem_freeNames_resolve`: the free names after references are resolved,
- `Session.hygienic_iff`: when a term loses no free name,
- `Session.exists_captures`: a definition with a free name is captured by some term.
-/

namespace Nameless
namespace Named

variable {ρ σ ε : Type}

/-! ## Replacing leaves under binders -/

/-- The leaves from left to right, each with the names of the binders around it, outermost first. -/
def sites : Named ρ → List (List String × ρ)
  | abs name body => body.sites.map fun site => (name :: site.1, site.2)
  | app fn arg => fn.sites ++ arg.sites
  | sym _ => []
  | leaf x => [([], x)]

theorem mem_sites_abs {name : String} {body : Named ρ} {binders : List String} {r : ρ} :
    (binders, r) ∈ (abs name body).sites ↔
      ∃ inner, (inner, r) ∈ body.sites ∧ binders = name :: inner := by
  simp only [sites, List.mem_map, Prod.mk.injEq, Prod.exists]
  constructor
  · rintro ⟨inner, r', hmem, rfl, rfl⟩
    exact ⟨inner, hmem, rfl⟩
  · rintro ⟨inner, hmem, rfl⟩
    exact ⟨inner, r, hmem, rfl, rfl⟩

/-- What is free after leaves are replaced: what was free before, and of each replacement what the
binders around its leaf do not bind. -/
theorem mem_freeNames_expand? {f : ρ → Except ε (Named σ)} {t : Named ρ} {u : Named σ}
    (h : t.expand? f = .ok u) (x : String) :
    x ∈ u.freeNames ↔ x ∈ t.freeNames ∨
      ∃ binders r d, (binders, r) ∈ t.sites ∧ f r = .ok d ∧ x ∈ d.freeNames ∧ x ∉ binders := by
  induction t generalizing u with
  | abs name body ih =>
    rcases Except.bind_eq_ok h with ⟨body', hbody, hdone⟩
    cases hdone
    simp only [freeNames, List.mem_filter, decide_eq_true_eq, ih hbody, mem_sites_abs]
    -- The binder takes its name from what is free in the body, and joins those around each leaf.
    constructor
    · rintro ⟨hfree | ⟨inner, r, d, hsite, hd, hx, hinner⟩, hne⟩
      · exact .inl ⟨hfree, hne⟩
      · refine .inr ⟨name :: inner, r, d, ⟨inner, hsite, rfl⟩, hd, hx, ?_⟩
        simp [hne, hinner]
    · rintro (⟨hfree, hne⟩ | ⟨binders, r, d, ⟨inner, hsite, rfl⟩, hd, hx, hbinders⟩)
      · exact ⟨.inl hfree, hne⟩
      · rw [List.mem_cons, not_or] at hbinders
        exact ⟨.inr ⟨inner, r, d, hsite, hd, hx, hbinders.2⟩, hbinders.1⟩
  | app fn arg ihf iha =>
    rcases Except.bind_eq_ok h with ⟨fn', hfn, hrest⟩
    rcases Except.bind_eq_ok hrest with ⟨arg', harg, hdone⟩
    cases hdone
    simp only [freeNames, sites, List.mem_append, ihf hfn, iha harg]
    constructor
    · rintro ((hfree | ⟨binders, r, d, hsite, hd⟩) | (hfree | ⟨binders, r, d, hsite, hd⟩))
      · exact .inl (.inl hfree)
      · exact .inr ⟨binders, r, d, .inl hsite, hd⟩
      · exact .inl (.inr hfree)
      · exact .inr ⟨binders, r, d, .inr hsite, hd⟩
    · rintro ((hfree | hfree) | ⟨binders, r, d, hsite | hsite, hd⟩)
      · exact .inl (.inl hfree)
      · exact .inr (.inl hfree)
      · exact .inl (.inr ⟨binders, r, d, hsite, hd⟩)
      · exact .inr (.inr ⟨binders, r, d, hsite, hd⟩)
  | sym name =>
    cases h
    simp [freeNames, sites]
  | leaf r =>
    have hr : f r = .ok u := h
    simp only [freeNames, sites, List.mem_singleton, Prod.mk.injEq, List.not_mem_nil, false_or]
    constructor
    · intro hx
      exact ⟨[], r, u, ⟨rfl, rfl⟩, hr, hx, List.not_mem_nil⟩
    · rintro ⟨binders, r', d, ⟨rfl, rfl⟩, hd, hx, _⟩
      rw [hr] at hd
      cases hd
      exact hx

/-- A numeral has no free names. -/
theorem freeNames_numeral (n : Nat) : (numeral n : Named ρ).freeNames = [] := by
  have hbody : ∀ x ∈ (iterate "f" (sym "x" : Named ρ) n).freeNames, x = "f" ∨ x = "x" := by
    induction n with
    | zero => simp [iterate, freeNames]
    | succ n ih =>
      intro x hx
      rcases List.mem_cons.1 hx with rfl | hx
      · exact .inl rfl
      · exact ih x hx
  refine List.eq_nil_iff_forall_not_mem.2 fun x hx => ?_
  simp only [numeral, freeNames, List.mem_filter, decide_eq_true_eq] at hx
  rcases hbody x hx.1.1 with hf | hx'
  · exact hx.2 hf
  · exact hx.1.2 hx'

end Named

/-! ## Resolving references -/

/-- No definition has a free name. -/
def Definitions.Closed (ds : Definitions) : Prop :=
  ∀ name d, ds.find? name = some d → d.freeNames = []

namespace Session

/-- The term refers to a definition, in the scope of some binders. -/
def Uses (s : Session) (t : Named Reference) (binders : List String) (d : Named Empty) : Prop :=
  ∃ r, (binders, r) ∈ t.sites ∧ s.definitions.find? r.name = some d

/-- The name is free in a definition that the term refers to, and bound where it does so. -/
def Captures (s : Session) (t : Named Reference) (x : String) : Prop :=
  ∃ binders d, s.Uses t binders d ∧ x ∈ d.freeNames ∧ x ∈ binders

/-- The names that are free in `u` are those that are free in `t` or in a definition that `t` refers
to. -/
def Hygienic (s : Session) (t : Named Reference) (u : Named Empty) : Prop :=
  ∀ x, x ∈ u.freeNames ↔
    x ∈ t.freeNames ∨ ∃ binders d, s.Uses t binders d ∧ x ∈ d.freeNames

/-- Only definitions bring in free names, since numerals have none. -/
theorem find?_of_mem_freeNames_lookup {s : Session} {expr name x : String} {d : Named Empty}
    (h : s.lookup expr name = .ok d) (hx : x ∈ d.freeNames) :
    s.definitions.find? name = some d := by
  rcases lookup_eq_ok h with hfind | ⟨_, _, _, n, _, rfl⟩
  · exact hfind
  · rw [Named.freeNames_numeral] at hx
    cases hx

theorem lookup_of_find? {s : Session} {name : String} {d : Named Empty}
    (h : s.definitions.find? name = some d) (expr : String) : s.lookup expr name = .ok d := by
  unfold lookup
  rw [h]

/-- What is free after references are resolved. -/
theorem mem_freeNames_resolve {s : Session} {expr : String} {t : Named Reference}
    {u : Named Empty} (h : s.resolve expr t = .ok u) (x : String) :
    x ∈ u.freeNames ↔ x ∈ t.freeNames ∨
      ∃ binders d, s.Uses t binders d ∧ x ∈ d.freeNames ∧ x ∉ binders := by
  rw [Named.mem_freeNames_expand? h x]
  constructor
  · rintro (hfree | ⟨binders, r, d, hsite, hd, hx, hbinders⟩)
    · exact .inl hfree
    · have hfind := find?_of_mem_freeNames_lookup hd hx
      exact .inr ⟨binders, d, ⟨r, hsite, hfind⟩, hx, hbinders⟩
  · rintro (hfree | ⟨binders, d, ⟨r, hsite, hfind⟩, hx, hbinders⟩)
    · exact .inl hfree
    · exact .inr ⟨binders, r, d, hsite, lookup_of_find? hfind expr, hx, hbinders⟩

/-- A captured name is lost unless it is free elsewhere. -/
theorem hygienic_iff {s : Session} {expr : String} {t : Named Reference} {u : Named Empty}
    (h : s.resolve expr t = .ok u) :
    s.Hygienic t u ↔ ∀ x, s.Captures t x → x ∈ u.freeNames := by
  constructor
  · rintro hall x ⟨binders, d, huse, hx, _⟩
    exact (hall x).2 (.inr ⟨binders, d, huse, hx⟩)
  · intro hcaught x
    constructor
    · intro hx
      rcases (mem_freeNames_resolve h x).1 hx with hfree | ⟨binders, d, huse, hd, _⟩
      · exact .inl hfree
      · exact .inr ⟨binders, d, huse, hd⟩
    · rintro (hfree | ⟨binders, d, huse, hx⟩)
      · exact (mem_freeNames_resolve h x).2 (.inl hfree)
      · -- A name of a definition comes through at this reference, or it is caught here.
        by_cases hbound : x ∈ binders
        · exact hcaught x ⟨binders, d, huse, hx, hbound⟩
        · exact (mem_freeNames_resolve h x).2 (.inr ⟨binders, d, huse, hx, hbound⟩)

theorem not_captures_of_closed {s : Session} (hs : s.definitions.Closed) (t : Named Reference)
    (x : String) : ¬ s.Captures t x := by
  rintro ⟨binders, d, ⟨r, _, hfind⟩, hx, _⟩
  rw [hs r.name d hfind] at hx
  cases hx

/-- A definition with a free name is captured by the abstraction over that name whose body refers to
it, and this abstraction can be written. -/
theorem exists_captures {s : Session} (hs : s.Reachable) {name x : String} {d : Named Empty}
    (hfind : s.definitions.find? name = some d) (hx : x ∈ d.freeNames) {depth : Nat}
    (hdepth : 2 ≤ depth) :
    ∃ text t u, Named.parse depth text = .ok t ∧ s.resolve text t = .ok u ∧
      s.Captures t x ∧ x ∉ u.freeNames := by
  have hentry := hs.wellFormed (name, d) (Definitions.mem_of_find? hfind)
  have hvariable : Named.isVariable x.toList = true := hentry.2.of_mem_freeNames hx
  have hparse := Named.parse_abstraction_reference hvariable hentry.1 hdepth
  refine ⟨_, .abs x (.leaf ⟨name⟩), .abs x d, hparse, ?_, ?_, ?_⟩
  · unfold resolve
    simp only [Named.expand?, lookup_of_find? hfind]
    rfl
  · exact ⟨[x], d, ⟨⟨name⟩, List.mem_singleton_self _, hfind⟩, hx, List.mem_singleton_self x⟩
  · simp [Named.freeNames]

/-- Resolving the references of a term frees exactly the names that no binder around a reference
catches, so it loses a free name of a definition exactly if that name is captured and not free
elsewhere. Of all the terms that can be read, if they may nest at all, none captures a name, and
none loses one, exactly if no definition has a free name. -/
theorem resolve_hygienic_iff_closed {s : Session} (hs : s.Reachable) {depth : Nat}
    (hdepth : 2 ≤ depth) :
    (∀ expr t u, s.resolve expr t = .ok u →
      (∀ x, x ∈ u.freeNames ↔ x ∈ t.freeNames ∨
        ∃ binders d, s.Uses t binders d ∧ x ∈ d.freeNames ∧ x ∉ binders) ∧
      (s.Hygienic t u ↔ ∀ x, s.Captures t x → x ∈ u.freeNames)) ∧
    ((∀ text t u, Named.parse depth text = .ok t → s.resolve text t = .ok u →
      ∀ x, ¬ s.Captures t x) ↔ s.definitions.Closed) ∧
    ((∀ text t u, Named.parse depth text = .ok t → s.resolve text t = .ok u →
      s.Hygienic t u) ↔ s.definitions.Closed) := by
  refine ⟨fun expr t u h => ⟨mem_freeNames_resolve h, hygienic_iff h⟩, ⟨?_, ?_⟩, ⟨?_, ?_⟩⟩
  -- A free name of a definition is captured by some term that can be read.
  · intro hnone name d hfind
    refine List.eq_nil_iff_forall_not_mem.2 fun x hx => ?_
    rcases exists_captures hs hfind hx hdepth with ⟨text, t, u, hparse, hresolve, hcaught, _⟩
    exact hnone text t u hparse hresolve x hcaught
  · intro hclosed text t u _ _
    exact not_captures_of_closed hclosed t
  · intro hall name d hfind
    refine List.eq_nil_iff_forall_not_mem.2 fun x hx => ?_
    rcases exists_captures hs hfind hx hdepth with ⟨text, t, u, hparse, hresolve, hcaught, hlost⟩
    exact hlost ((hygienic_iff hresolve).1 (hall text t u hparse hresolve) x hcaught)
  · intro hclosed text t u _ hresolve
    exact (hygienic_iff hresolve).2 fun x hx => absurd hx (not_captures_of_closed hclosed t x)

/-- The session after one line. -/
def afterLine (line : String) : Session :=
  (add {} line none {}).session

theorem resolve_hygienic_after_identity :
    (afterLine "ID = \\x.x").Reachable ∧
      (afterLine "ID = \\x.x").definitions = [("ID", .abs "x" (.sym "x"))] ∧
      ∀ text t u, Named.parse (afterLine "ID = \\x.x").limits.parsing text = .ok t →
        (afterLine "ID = \\x.x").resolve text t = .ok u → (afterLine "ID = \\x.x").Hygienic t u := by
  have hs : (afterLine "ID = \\x.x").Reachable := .add _ _ _ (.fresh _ _ _ _)
  have hds : (afterLine "ID = \\x.x").definitions = [("ID", .abs "x" (.sym "x"))] := by decide
  have hdepth : 2 ≤ (afterLine "ID = \\x.x").limits.parsing := by decide
  refine ⟨hs, hds, (resolve_hygienic_iff_closed hs hdepth).2.2.2 ?_⟩
  intro name d hfind
  rw [hds] at hfind
  rcases List.mem_singleton.1 (Definitions.mem_of_find? hfind) with heq
  cases heq
  rfl

theorem resolve_captures_after_open_line :
    (afterLine "A = y").Reachable ∧
      (add {} "A = y" none {}).result = .ok (.sym "y") ∧
      Named.parse (afterLine "A = y").limits.parsing "\\y.A" = .ok (.abs "y" (.leaf ⟨"A"⟩)) ∧
      (afterLine "A = y").resolve "\\y.A" (.abs "y" (.leaf ⟨"A"⟩)) = .ok (.abs "y" (.sym "y")) ∧
      (afterLine "A = y").Captures (.abs "y" (.leaf ⟨"A"⟩)) "y" ∧
      ¬ (afterLine "A = y").Hygienic (.abs "y" (.leaf ⟨"A"⟩)) (.abs "y" (.sym "y")) := by
  have hs : (afterLine "A = y").Reachable := .add _ _ _ (.fresh _ _ _ _)
  have hfind : (afterLine "A = y").definitions.find? "A" = some (.sym "y") := by decide
  have huse : (afterLine "A = y").Uses (.abs "y" (.leaf ⟨"A"⟩)) ["y"] (.sym "y") :=
    ⟨⟨"A"⟩, by decide, hfind⟩
  refine ⟨hs, by rfl, by rfl, by rfl, ⟨["y"], .sym "y", huse, by decide, by decide⟩, ?_⟩
  intro hall
  have hfree := (hall "y").2 (.inr ⟨["y"], .sym "y", huse, by decide⟩)
  exact absurd hfree (by decide)

end Session
end Nameless
