import Nameless.Conversion
import Nameless.Proofs.Indexed.Beta
import Nameless.Proofs.Results

/-!
# Free variables and where they stand

A variable is free where no binder around it has its name. Going to nameless terms reads a term from
left to right, so a term in which nothing may be free is refused at the first free variable that is
met, and only there.

This file defines:
- `Named.FreeAt`: a free variable at a place,
- `Named.FirstFree`: the free variable whose place comes before those of all others.

Main statements:
- `Named.mem_freeNames_iff`: the names of the free variables are those that stand somewhere,
- `Named.toIndexed?_eq_ok`, `Named.toIndexed?_eq_error`: what it means that a term has a nameless
  form, and which variable is to blame if it has none,
- `Named.toIndexed?_of_subset`: nameless forms of terms in which less is free.
-/

namespace Nameless
namespace Named

variable {ρ : Type}

/-- A variable of the given name stands at a place, and no binder on the way there has its name. -/
inductive FreeAt : Named ρ → Indexed.Place → String → Prop where
  | here (x : String) : FreeAt (sym x) [] x
  | body {name x : String} {b : Named ρ} {p : Indexed.Place} :
      FreeAt b p x → x ≠ name → FreeAt (abs name b) (.body :: p) x
  | fn {x : String} {f : Named ρ} {p : Indexed.Place} (a : Named ρ) :
      FreeAt f p x → FreeAt (app f a) (.fn :: p) x
  | arg {x : String} {a : Named ρ} {p : Indexed.Place} (f : Named ρ) :
      FreeAt a p x → FreeAt (app f a) (.arg :: p) x

/-- The free variable that is met first, reading from left to right. -/
def FirstFree (t : Named ρ) (x : String) : Prop :=
  ∃ p, t.FreeAt p x ∧ ∀ q y, t.FreeAt q y → p.Precedes q

theorem mem_freeNames_iff {t : Named ρ} {x : String} : x ∈ t.freeNames ↔ ∃ p, t.FreeAt p x := by
  constructor
  · intro h
    induction t with
    | abs name body ih =>
      rcases List.mem_filter.1 h with ⟨hbody, hne⟩
      rcases ih hbody with ⟨p, hp⟩
      exact ⟨_, .body hp (by simpa using hne)⟩
    | app fn arg ihf iha =>
      rcases List.mem_append.1 h with hfn | harg
      · rcases ihf hfn with ⟨p, hp⟩
        exact ⟨_, .fn arg hp⟩
      · rcases iha harg with ⟨p, hp⟩
        exact ⟨_, .arg fn hp⟩
    | sym name =>
      rcases List.mem_singleton.1 h with rfl
      exact ⟨_, .here x⟩
    | leaf y => cases h
  · rintro ⟨p, hp⟩
    induction hp with
    | here x => exact List.mem_singleton.2 rfl
    | body _ hne ih => exact List.mem_filter.2 ⟨ih, by simpa using hne⟩
    | fn a _ ih => exact List.mem_append_left _ ih
    | arg f _ ih => exact List.mem_append_right _ ih

/-! ## Nameless forms -/

/-- A nameless form is the one with any variable allowed to be free. If none is, then all that is
free in the term is bound around it. -/
theorem toIndexed?_eq_ok {allowFree : Bool} {scope : List String} {t : Named Empty}
    {u : Indexed Empty} (h : t.toIndexed? allowFree scope = .ok u) :
    u = t.nameless scope ∧ (allowFree = false → ∀ p x, t.FreeAt p x → x ∈ scope) := by
  induction t generalizing scope u with
  | abs name body ih =>
    rcases Except.bind_eq_ok h with ⟨body', hbody, hdone⟩
    cases hdone
    rcases ih hbody with ⟨rfl, hbound⟩
    refine ⟨rfl, ?_⟩
    intro hfree p x hp
    cases hp with
    | body hp hne => exact (List.mem_cons.1 (hbound hfree _ x hp)).resolve_left hne
  | app fn arg ihf iha =>
    rcases Except.bind_eq_ok h with ⟨fn', hfn, hrest⟩
    rcases Except.bind_eq_ok hrest with ⟨arg', harg, hdone⟩
    cases hdone
    rcases ihf hfn with ⟨rfl, hfnBound⟩
    rcases iha harg with ⟨rfl, hargBound⟩
    refine ⟨rfl, ?_⟩
    intro hfree p x hp
    cases hp with
    | fn _ hp => exact hfnBound hfree _ x hp
    | arg _ hp => exact hargBound hfree _ x hp
  | sym name =>
    by_cases hname : name ∈ scope
    · simp only [toIndexed?, hname, if_true, Except.ok.injEq] at h
      refine ⟨by simp [nameless, hname, h], ?_⟩
      intro _ p x hp
      cases hp
      exact hname
    · cases allowFree with
      | false => simp [toIndexed?, hname] at h
      | true => exact ⟨by simpa [toIndexed?, nameless, hname, eq_comm] using h, by simp⟩
  | leaf x => exact x.elim

/-- A term without a nameless form has a free variable where none is allowed, and the first of them
is named. -/
theorem toIndexed?_eq_error {allowFree : Bool} {scope : List String} {t : Named Empty}
    {fault : Fault} (h : t.toIndexed? allowFree scope = .error fault) :
    allowFree = false ∧ ∃ p x, fault = .unbound x ∧ t.FreeAt p x ∧ x ∉ scope ∧
      ∀ q y, t.FreeAt q y → y ∉ scope → p.Precedes q := by
  induction t generalizing scope with
  | abs name body ih =>
    rcases Except.bind_eq_error h with hbody | ⟨_, _, hdone⟩
    · rcases ih hbody with ⟨hfree, p, x, rfl, hp, hx, hfirst⟩
      rw [List.mem_cons, not_or] at hx
      refine ⟨hfree, _, x, rfl, .body hp hx.1, hx.2, ?_⟩
      intro q y hq hy
      cases hq with
      | body hq hne => exact .within _ (hfirst _ y hq (by simp [hne, hy]))
    · cases hdone
  | app fn arg ihf iha =>
    rcases Except.bind_eq_error h with hfn | ⟨fn', hfn, hrest⟩
    · rcases ihf hfn with ⟨hfree, p, x, rfl, hp, hx, hfirst⟩
      refine ⟨hfree, _, x, rfl, .fn arg hp, hx, ?_⟩
      intro q y hq hy
      cases hq with
      | fn _ hq => exact .within _ (hfirst _ y hq hy)
      | arg _ _ => exact .left _ _
    · rcases Except.bind_eq_error hrest with harg | ⟨_, _, hdone⟩
      · rcases iha harg with ⟨hfree, p, x, rfl, hp, hx, hfirst⟩
        refine ⟨hfree, _, x, rfl, .arg fn hp, hx, ?_⟩
        intro q y hq hy
        cases hq with
        -- The function has a nameless form, so nothing in it is to blame.
        | fn _ hq => exact absurd ((toIndexed?_eq_ok hfn).2 hfree _ y hq) hy
        | arg _ hq => exact .within _ (hfirst _ y hq hy)
      · cases hdone
  | sym name =>
    by_cases hname : name ∈ scope
    · simp [toIndexed?, hname] at h
    · cases allowFree with
      | true => simp [toIndexed?, hname] at h
      | false =>
        simp only [toIndexed?, hname, if_false, Bool.false_eq_true, Except.error.injEq] at h
        refine ⟨rfl, _, name, h.symm, .here name, hname, ?_⟩
        intro q y hq _
        cases hq
        exact .outside _
  | leaf x => exact x.elim

/-- A term has a nameless form if all that is free in it is free in a term that has one. -/
theorem toIndexed?_of_subset {allowFree : Bool} {t r : Named Empty} {u : Indexed Empty}
    (ht : t.toIndexed? allowFree [] = .ok u) (hsubset : r.freeNames ⊆ t.freeNames) :
    r.toIndexed? allowFree [] = .ok (r.nameless []) := by
  cases hr : r.toIndexed? allowFree [] with
  | ok v => rw [(toIndexed?_eq_ok hr).1]
  | error fault =>
    rcases toIndexed?_eq_error hr with ⟨hfree, p, x, _, hp, _, _⟩
    have hx : x ∈ t.freeNames := hsubset (mem_freeNames_iff.2 ⟨p, hp⟩)
    rcases mem_freeNames_iff.1 hx with ⟨q, hq⟩
    exact absurd ((toIndexed?_eq_ok ht).2 hfree q x hq) List.not_mem_nil

theorem toIndexed?_of_closed {t : Named Empty} (h : t.freeNames = []) (allowFree : Bool) :
    t.toIndexed? allowFree [] = .ok (t.nameless []) := by
  have hclosed : (abs "x" (sym "x") : Named Empty).toIndexed? allowFree [] = .ok (.lam (.var 0)) :=
    rfl
  exact toIndexed?_of_subset hclosed (by simp [h])

end Named
end Nameless
