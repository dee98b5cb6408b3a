import Nameless.Proofs.Reduction

/-!
# Giving names and leaving them out again

Names can be given to a nameless term exactly if no index leads out of it. The binders are then
named so that nothing is lost: leaving out the names gives back the term, and a free variable stands
free where it stood, whatever its name is.

This file defines:
- `Indexed.VarAt`, `Indexed.FreeAt`: a bound and a free variable at a place of a nameless term,
- `Indexed.Escapes`: some index leads out of the term.

Main statements:
- `Indexed.scoped_iff_varAt`: indices inside a term, told place by place,
- `Indexed.toNamedFrom?_eq_error`: giving names fails at an index that leads out of the term,
- `Named.freeAt_nameless`: leaving out names keeps the free variables at their places.
-/

namespace Nameless
namespace Indexed

variable {ρ : Type}

/-! ## Variables at places -/

/-- A bound variable with the given index stands at a place, inside `depth` binders of the term. -/
inductive VarAt : Indexed ρ → Place → (depth index : Nat) → Prop where
  | here (index : Nat) : VarAt (var index) [] 0 index
  | body {b : Indexed ρ} {p : Place} {depth index : Nat} :
      VarAt b p depth index → VarAt (lam b) (.body :: p) (depth + 1) index
  | fn {f : Indexed ρ} {p : Place} {depth index : Nat} (a : Indexed ρ) :
      VarAt f p depth index → VarAt (app f a) (.fn :: p) depth index
  | arg {a : Indexed ρ} {p : Place} {depth index : Nat} (f : Indexed ρ) :
      VarAt a p depth index → VarAt (app f a) (.arg :: p) depth index

/-- A free variable of the given name stands at a place. -/
inductive FreeAt : Indexed ρ → Place → String → Prop where
  | here (x : String) : FreeAt (free x) [] x
  | body {b : Indexed ρ} {p : Place} {x : String} :
      FreeAt b p x → FreeAt (lam b) (.body :: p) x
  | fn {f : Indexed ρ} {p : Place} {x : String} (a : Indexed ρ) :
      FreeAt f p x → FreeAt (app f a) (.fn :: p) x
  | arg {a : Indexed ρ} {p : Place} {x : String} (f : Indexed ρ) :
      FreeAt a p x → FreeAt (app f a) (.arg :: p) x

/-- Some bound variable has no binder in the term: its index is not below the number of binders
around it. -/
def Escapes (t : Indexed ρ) : Prop :=
  ∃ p depth index, t.VarAt p depth index ∧ depth ≤ index

theorem scoped_iff_varAt {t : Indexed ρ} {outer : Nat} :
    t.Scoped outer ↔ ∀ p depth index, t.VarAt p depth index → index < depth + outer := by
  induction t generalizing outer with
  | lam b ih =>
    have hbody : (lam b).Scoped outer ↔ b.Scoped (outer + 1) := Iff.rfl
    rw [hbody, ih]
    constructor
    · intro h p depth index hp
      cases hp with
      | body hp =>
        have hlt := h _ _ _ hp
        omega
    · intro h p depth index hp
      have hlt := h _ _ _ (.body hp)
      omega
  | app f a ihf iha =>
    have hparts : (app f a).Scoped outer ↔ f.Scoped outer ∧ a.Scoped outer := Iff.rfl
    rw [hparts, ihf, iha]
    constructor
    · rintro ⟨hf, ha⟩ p depth index hp
      cases hp with
      | fn _ hp => exact hf _ _ _ hp
      | arg _ hp => exact ha _ _ _ hp
    · intro h
      constructor
      · intro p depth index hp
        exact h _ _ _ (.fn a hp)
      · intro p depth index hp
        exact h _ _ _ (.arg f hp)
  | var i =>
    have hindex : (var i : Indexed ρ).Scoped outer ↔ i < outer := Iff.rfl
    rw [hindex]
    constructor
    · intro h p depth index hp
      cases hp
      omega
    · intro h
      have hlt := h _ _ _ (.here i)
      omega
  | free x =>
    constructor
    · intro _ p depth index hp
      cases hp
    · exact fun _ => trivial
  | leaf x =>
    constructor
    · intro _ p depth index hp
      cases hp
    · exact fun _ => trivial

theorem scoped_zero_iff_not_escapes {t : Indexed ρ} : t.Scoped 0 ↔ ¬ t.Escapes := by
  rw [scoped_iff_varAt]
  constructor
  · rintro h ⟨p, depth, index, hp, hle⟩
    have hlt := h p depth index hp
    omega
  · intro h p depth index hp
    by_contra hlt
    exact h ⟨p, depth, index, hp, by omega⟩

/-! ## Giving names -/

/-- Giving names fails only at an index that leads out of the term and the binders around it. -/
theorem toNamedFrom?_eq_error {reserved scope : List String} {next : Nat} {t : Indexed Empty}
    {fault : Fault} (h : t.toNamedFrom? reserved next scope = .error fault) :
    ∃ p depth index, fault = .defect (.escapingIndex index) ∧ t.VarAt p depth index ∧
      depth + scope.length ≤ index := by
  induction t generalizing next scope with
  | lam b ih =>
    rcases Except.bind_eq_error h with hbody | ⟨_, _, hdone⟩
    · rcases ih hbody with ⟨p, depth, index, hfault, hp, hle⟩
      rw [List.length_cons] at hle
      exact ⟨_, _, index, hfault, .body hp, by omega⟩
    · cases hdone
  | app f a ihf iha =>
    rcases Except.bind_eq_error h with hfn | ⟨f', _, hrest⟩
    · rcases ihf hfn with ⟨p, depth, index, hfault, hp, hle⟩
      exact ⟨_, _, index, hfault, .fn a hp, hle⟩
    · rcases Except.bind_eq_error hrest with harg | ⟨_, _, hdone⟩
      · rcases iha harg with ⟨p, depth, index, hfault, hp, hle⟩
        exact ⟨_, _, index, hfault, .arg f hp, hle⟩
      · cases hdone
  | var i =>
    simp only [toNamedFrom?] at h
    split at h
    · cases h
    · next hnone =>
      cases h
      exact ⟨_, _, i, rfl, .here i, by simpa using hnone⟩
  | free x => cases h
  | leaf x => exact x.elim

theorem exists_toNamed?_of_not_escapes {t : Indexed Empty} (h : ¬ t.Escapes) :
    ∃ u, t.toNamed? = .ok u := by
  have hscoped : t.Scoped ([] : List String).length := scoped_zero_iff_not_escapes.2 h
  exact exists_toNamedFrom? hscoped t.freeNames 0

end Indexed

/-! ## Leaving out names -/

namespace Named

/-- A variable is free in the nameless form if it is free in the term and nothing outside of the
term binds it, and then it stands at the same place. -/
theorem freeAt_nameless {t : Named Empty} {scope : List String} {p : Indexed.Place} {x : String} :
    (t.nameless scope).FreeAt p x ↔ t.FreeAt p x ∧ x ∉ scope := by
  induction t generalizing scope p with
  | abs name b ih =>
    constructor
    · intro h
      cases h with
      | body h =>
        rcases ih.1 h with ⟨hp, hx⟩
        rw [List.mem_cons, not_or] at hx
        exact ⟨.body hp hx.1, hx.2⟩
    · rintro ⟨hp, hx⟩
      cases hp with
      | body hp hne =>
        have hbody : x ∉ name :: scope := by simp [hne, hx]
        exact .body (ih.2 ⟨hp, hbody⟩)
  | app f a ihf iha =>
    constructor
    · intro h
      cases h with
      | fn _ h => exact ⟨.fn a (ihf.1 h).1, (ihf.1 h).2⟩
      | arg _ h => exact ⟨.arg f (iha.1 h).1, (iha.1 h).2⟩
    · rintro ⟨hp, hx⟩
      cases hp with
      | fn _ hp => exact .fn _ (ihf.2 ⟨hp, hx⟩)
      | arg _ hp => exact .arg _ (iha.2 ⟨hp, hx⟩)
  | sym name =>
    by_cases hname : name ∈ scope
    · have hbound : (sym name).nameless scope = .var (scope.idxOf name) := if_pos hname
      rw [hbound]
      constructor
      · intro h
        cases h
      · rintro ⟨hp, hx⟩
        cases hp
        exact absurd hname hx
    · have hfree : (sym name).nameless scope = .free name := if_neg hname
      rw [hfree]
      constructor
      · intro h
        cases h
        exact ⟨.here x, hname⟩
      · rintro ⟨hp, _⟩
        cases hp
        exact .here x
  | leaf y => exact y.elim

end Named

/-! ## There and back -/

namespace Indexed

/-- Giving names fails, as a structural defect, exactly if some index leads out of the term. In all
other cases the nameless form of the named term is the term again, and the free variables of the
named term are those of the nameless one, each at its place: no binder that was given a name
captures one of them. -/
theorem toNamed_inverts_or_escapes (t : Indexed Empty) :
    ((∃ cause, t.toNamed? = .error (.defect cause)) ↔ t.Escapes) ∧
      (¬ t.Escapes → ∃ u, t.toNamed? = .ok u ∧ u.toIndexed? true [] = .ok t ∧
        ∀ p x, u.FreeAt p x ↔ t.FreeAt p x) := by
  refine ⟨⟨?_, ?_⟩, ?_⟩
  · rintro ⟨cause, herror⟩
    rcases toNamedFrom?_eq_error herror with ⟨p, depth, index, _, hp, hle⟩
    exact ⟨p, depth, index, hp, hle⟩
  · intro hescapes
    cases hnamed : t.toNamed? with
    | error fault =>
      rcases toNamedFrom?_eq_error hnamed with ⟨_, _, index, rfl, _, _⟩
      exact ⟨_, rfl⟩
    | ok u =>
      -- A named term has a nameless form without such an index, and it is this term.
      have hscoped : (u.nameless []).Scoped ([] : List String).length := u.scoped_nameless []
      rw [nameless_toNamed? hnamed] at hscoped
      exact absurd hescapes (scoped_zero_iff_not_escapes.1 hscoped)
  · intro hinside
    rcases exists_toNamed?_of_not_escapes hinside with ⟨u, hu⟩
    have hback : u.nameless [] = t := nameless_toNamed? hu
    refine ⟨u, hu, ?_, ?_⟩
    · rw [Named.toIndexed?_true, hback]
    · -- Outside all binders every free variable of the named term stays free.
      intro p x
      have hplace : (u.nameless []).FreeAt p x ↔ u.FreeAt p x ∧ x ∉ [] := Named.freeAt_nameless
      rw [hback] at hplace
      simpa using hplace.symm

/-- `λ.(a λ.((1 0) b))` with the free names `a` and `b`: its binders are called `c` and `d`. One
index more leads out of it. -/
theorem toNamed_inverts_or_escapes_skips_names :
    let t : Indexed Empty :=
      lam (app (free "a") (lam (app (app (var 1) (var 0)) (free "b"))))
    let u : Named Empty :=
      .abs "c" (.app (.sym "a") (.abs "d" (.app (.app (.sym "c") (.sym "d")) (.sym "b"))))
    ¬ t.Escapes ∧ t.toNamed? = .ok u ∧ u.toIndexed? true [] = .ok t ∧
      (∀ p x, u.FreeAt p x ↔ t.FreeAt p x) ∧
      ∃ cause, (lam (app t (var 1))).toNamed? = .error (.defect cause) := by
  intro t u
  have hnamed : t.toNamed? = .ok u := by decide +kernel
  have hinside : ¬ t.Escapes := by
    intro hescapes
    rcases (toNamed_inverts_or_escapes t).1.2 hescapes with ⟨cause, herror⟩
    rw [hnamed] at herror
    cases herror
  rcases (toNamed_inverts_or_escapes t).2 hinside with ⟨u', hu', hback, hfree⟩
  rw [hnamed] at hu'
  cases hu'
  have hescapes : (lam (app t (var 1))).Escapes :=
    ⟨_, _, 1, .body (.arg t (.here 1)), Nat.le_refl 1⟩
  exact ⟨hinside, hnamed, hback, hfree, (toNamed_inverts_or_escapes _).1.2 hescapes⟩

end Indexed
end Nameless
