import Nameless.Proofs.Indexed.NormalOrder
import Nameless.Proofs.Named.Scope
import Nameless.Proofs.Results

/-!
# Reduction of named terms

A named term is reduced by leaving out its names, reducing the nameless form, and giving names to
the binders of the result. The names that are given are all different along each branch and differ
from the free variables, so the nameless form of what comes out is what was put in. Reduction of
named terms therefore does what the calculus of named terms does, up to the names of bound
variables: every contraction of the nameless form is a contraction by substitution without capture.

Main statements:
- `Indexed.nameless_toNamedFrom?`: leaving out the names that were given,
- `Named.alphaEquals?_eq`: the comparison of named terms,
- `Named.reduce?_eq_ok`: the parts of a reduction that comes to a result.
-/

namespace Nameless

/-! ## Giving names -/

namespace Indexed

/-- The names given to binders so far: identifiers numbered below `next`, each given once, and none
of the reserved names. -/
structure GivenNames (reserved : List String) (next : Nat) (scope : List String) : Prop where
  nodup : scope.Nodup
  not_reserved : ∀ name ∈ scope, name ∉ reserved
  below : ∀ name ∈ scope, ∃ number < next, name = Identifier.nth number

namespace GivenNames

theorem nil (reserved : List String) (next : Nat) : GivenNames reserved next [] where
  nodup := List.nodup_nil
  not_reserved := by simp
  below := by simp

/-- The next name is given to one more binder. -/
theorem cons {reserved scope : List String} {next : Nat} (h : GivenNames reserved next scope) :
    GivenNames reserved (Identifier.firstFresh reserved next + 1)
      (Identifier.nth (Identifier.firstFresh reserved next) :: scope) where
  nodup := by
    refine List.nodup_cons.2 ⟨?_, h.nodup⟩
    intro hmem
    -- The names that were given before have smaller numbers.
    rcases h.below _ hmem with ⟨number, hlt, hname⟩
    have hnumber := Identifier.nth_injective hname
    have hle : next ≤ Identifier.firstFresh reserved next := Identifier.le_search reserved _ next
    omega
  not_reserved := by
    intro name hname
    rcases List.mem_cons.1 hname with rfl | hname
    · exact Identifier.nth_firstFresh_not_mem reserved next
    · exact h.not_reserved name hname
  below := by
    intro name hname
    rcases List.mem_cons.1 hname with rfl | hname
    · exact ⟨_, Nat.lt_succ_self _, rfl⟩
    · rcases h.below name hname with ⟨number, hlt, rfl⟩
      have hle : next ≤ Identifier.firstFresh reserved next := Identifier.le_search reserved _ next
      exact ⟨number, by omega, rfl⟩

end GivenNames

theorem nameless_toNamedFrom? {reserved scope : List String} {next : Nat} {t : Indexed Empty}
    {u : Named Empty} (hscope : GivenNames reserved next scope)
    (hfree : ∀ name ∈ t.freeNames, name ∈ reserved)
    (h : t.toNamedFrom? reserved next scope = .ok u) : u.nameless scope = t := by
  induction t generalizing next scope u with
  | lam body ih =>
    rcases Except.bind_eq_ok h with ⟨body', hbody, hdone⟩
    cases hdone
    exact congrArg lam (ih hscope.cons hfree hbody)
  | app fn arg ihf iha =>
    rcases Except.bind_eq_ok h with ⟨fn', hfn, hrest⟩
    rcases Except.bind_eq_ok hrest with ⟨arg', harg, hdone⟩
    cases hdone
    have hfnFree : ∀ name ∈ fn.freeNames, name ∈ reserved :=
      fun name hname => hfree name (List.mem_append_left _ hname)
    have hargFree : ∀ name ∈ arg.freeNames, name ∈ reserved :=
      fun name hname => hfree name (List.mem_append_right _ hname)
    rw [Named.nameless, ihf hscope hfnFree hfn, iha hscope hargFree harg]
  | var index =>
    -- The names in scope differ, so the first binder of the name is the one that was meant.
    simp only [toNamedFrom?] at h
    split at h
    · next name hname =>
      cases h
      rcases List.getElem?_eq_some_iff.1 hname with ⟨hlt, rfl⟩
      simp [Named.nameless, hscope.nodup.idxOf_getElem index hlt]
    · cases h
  | free name =>
    cases h
    have hname : name ∈ reserved := hfree name (by simp [freeNames])
    have hout : name ∉ scope := fun hmem => hscope.not_reserved name hmem hname
    simp [Named.nameless, hout]
  | leaf x => exact x.elim

theorem nameless_toNamed? {t : Indexed Empty} {u : Named Empty} (h : t.toNamed? = .ok u) :
    u.nameless [] = t :=
  nameless_toNamedFrom? (.nil t.freeNames 0) (fun _ hname => hname) h

end Indexed

/-! ## Equivalence -/

namespace Named

theorem alphaEquals?_eq (t u : Named Empty) :
    t.alphaEquals? u = .ok (decide (t.nameless [] = u.nameless [])) := by
  simp only [alphaEquals?, toIndexed?_true]
  rfl

/-- The comparison of nameless forms always has an answer, and it is whether the terms differ in the
names of bound variables only. -/
theorem alphaEquals_iff_alpha (t u : Named Empty) :
    (t.alphaEquals? u = .ok true ↔ Alpha t u) ∧ (t.alphaEquals? u = .ok false ↔ ¬ Alpha t u) := by
  have halpha : Alpha t u ↔ t.nameless [] = u.nameless [] := alpha_iff_nameless_eq
  rw [alphaEquals?_eq, halpha]
  simp

/-- The inner binder hides the outer one of the same name. -/
example : (abs "x" (abs "x" (sym "x")) : Named Empty).alphaEquals?
    (abs "x" (abs "y" (sym "y")) : Named Empty) = .ok true := by
  decide +kernel

end Named

/-! ## Reduction -/

namespace Named

theorem reduce?_eq_ok {limits : Limits} {allowFree : Bool} {t r : Named Empty}
    {rs : List (Indexed Empty)} (h : t.reduce? limits allowFree = ⟨rs, .ok r⟩) :
    ∃ u v, t.toIndexed? allowFree [] = .ok u ∧ u.nf limits = ⟨rs, .ok v⟩ ∧
      v.toNamed? = .ok r := by
  rcases Reduction.andThen_eq_ok h with ⟨rs₁, u, rs₂, hindexed, hrest, rfl⟩
  rcases Reduction.andThen_eq_ok hrest with ⟨rs₃, v, rs₄, hnf, hnamed, rfl⟩
  rcases Reduction.ofExcept_eq_ok hindexed with ⟨rfl, hu⟩
  rcases Reduction.ofExcept_eq_ok hnamed with ⟨rfl, hr⟩
  refine ⟨u, v, Failure.ofFault_eq_ok hu, ?_, Failure.ofFault_eq_ok hr⟩
  rw [List.nil_append, List.append_nil]
  exact hnf

/-- Contraction of the nameless form of a redex is substitution without capture, and reduction gives
a normal form to which the calculus of named terms leads, up to the names of bound variables. -/
theorem reduce_simulates_calculus :
    (∀ (x : String) (b a : Named Empty), ∃ body arg c,
      (app (abs x b) a).toIndexed? true [] = .ok (.app (.lam body) arg) ∧
        body.substitute? 0 arg = .ok c ∧ (b.subst x a).toIndexed? true [] = .ok c) ∧
      ∀ (limits : Limits) (t r : Named Empty), (t.reduce? limits true).result = .ok r →
        (∃ s, Relation.ReflTransGen Beta t s ∧ Alpha s r) ∧ r.Normal := by
  constructor
  · intro x b a
    refine ⟨b.nameless [x], a.nameless [], (b.subst x a).nameless [], ?_, ?_, ?_⟩
    · exact toIndexed?_true [] (app (abs x b) a)
    · rw [nameless_subst_eq_contract]
      exact Indexed.contract?_empty (b.nameless [x]) (a.nameless [])
    · exact toIndexed?_true [] (b.subst x a)
  · intro limits t r hresult
    rcases reduce?_eq_ok (Reduction.eq_of_result hresult) with ⟨u, v, hu, hnf, hr⟩
    rw [toIndexed?_true] at hu
    cases hu
    rcases Indexed.nfWithin_leftmostRun hnf with ⟨hrun, hnormal⟩
    have hback : r.nameless [] = v := Indexed.nameless_toNamed? hr
    -- The calculus follows the contractions one by one, and ends with the same nameless form.
    rcases betas_of_betas hrun.betas with ⟨s, hbetas, hs⟩
    have halpha : Alpha s r := alpha_of_nameless_eq (hs.trans hback.symm)
    exact ⟨⟨s, hbetas, halpha⟩, normal_of_nameless (hback ▸ hnormal)⟩

/-- `(λx.λy.(x y) y)`: the binder `y` gets out of the way of the free variable `y`. -/
theorem reduce_simulates_calculus_avoids_capture :
    let t : Named Empty := app (abs "x" (abs "y" (app (sym "x") (sym "y")))) (sym "y")
    let r : Named Empty := abs "a" (app (sym "y") (sym "a"))
    (t.reduce? ⟨4, 4⟩ true).result = .ok r ∧
      (∃ s, Relation.ReflTransGen Beta t s ∧ Alpha s r) ∧ r.Normal := by
  intro t r
  have hresult : (t.reduce? ⟨4, 4⟩ true).result = .ok r := by decide +kernel
  exact ⟨hresult, reduce_simulates_calculus.2 ⟨4, 4⟩ t r hresult⟩

end Named
end Nameless
