import Nameless.Proofs.Conversion
import Nameless.Proofs.Enumeration
import Nameless.Proofs.Indexed.Scoping
import Nameless.Proofs.Indexed.Standardization
import Nameless.Proofs.Named.FreeVariables
import Nameless.Proofs.Named.Reading

/-!
# What reduction of named terms returns

Reduction of a named term fails at once if a variable is free that must not be. In all other cases
nothing can go wrong: the indices of a nameless form are inside their term and stay there through
every contraction, so the normal form, if there is one, can be given names. Then the free variables
are among those of the term, and what is printed of the result is read and reduced to itself.

This file defines:
- `Reduction.ComesTo`: a reduction that large enough limits let come to a result,
- `Reduction.Diverges`: a reduction that no limits suffice for.

Main statements:
- `Named.scoped_nameless`, `Named.freeNames_nameless`: what leaving out names keeps,
- `Indexed.exists_toNamedFrom?`, `Indexed.lettered_toNamedFrom?`: names can be given, and are names
  of variables,
- `Named.exists_result`: the named form of a normal form that was found.
-/

namespace Nameless

/-! ## Leaving out names -/

namespace Named

theorem scoped_nameless (t : Named Empty) (scope : List String) :
    (t.nameless scope).Scoped scope.length := by
  induction t generalizing scope with
  | abs name body ih => exact ih (name :: scope)
  | app fn arg ihf iha => exact ⟨ihf scope, iha scope⟩
  | sym name =>
    by_cases hname : name ∈ scope
    · simpa [nameless, hname, Indexed.Scoped] using List.idxOf_lt_length_of_mem hname
    · simp [nameless, hname, Indexed.Scoped]
  | leaf x => exact x.elim

theorem freeNames_nameless (t : Named Empty) (scope : List String) :
    (t.nameless scope).freeNames = t.freeNames.filter (· ∉ scope) := by
  induction t generalizing scope with
  | abs name body ih =>
    rw [nameless, Indexed.freeNames, ih, freeNames, List.filter_filter]
    congr 1
    funext x
    simp [Bool.and_comm]
  | app fn arg ihf iha => simp [nameless, Indexed.freeNames, freeNames, ihf, iha]
  | sym name =>
    by_cases hname : name ∈ scope
    · simp [nameless, Indexed.freeNames, freeNames, hname]
    · simp [nameless, Indexed.freeNames, freeNames, hname]
  | leaf x => exact x.elim

end Named

/-! ## Giving names -/

namespace Indexed

/-- Names can be given if no index leads out of the term and the binders around it. -/
theorem exists_toNamedFrom? {t : Indexed Empty} {scope : List String} (h : t.Scoped scope.length)
    (reserved : List String) (next : Nat) : ∃ u, t.toNamedFrom? reserved next scope = .ok u := by
  induction t generalizing scope next with
  | lam body ih =>
    let number := Identifier.firstFresh reserved next
    have hbody : body.Scoped (Identifier.nth number :: scope).length := h
    rcases ih hbody (number + 1) with ⟨body', hnamed⟩
    exact ⟨_, by rw [toNamedFrom?, hnamed]; rfl⟩
  | app fn arg ihf iha =>
    rcases ihf h.1 next with ⟨fn', hfn⟩
    rcases iha h.2 next with ⟨arg', harg⟩
    exact ⟨_, by rw [toNamedFrom?, hfn, harg]; rfl⟩
  | var index =>
    have hlt : index < scope.length := h
    exact ⟨_, by simp [toNamedFrom?, hlt]; rfl⟩
  | free name => exact ⟨_, rfl⟩
  | leaf x => exact x.elim

theorem lettered_toNamedFrom? {reserved scope : List String} {next : Nat} {t : Indexed Empty}
    {u : Named Empty} (hscope : ∀ name ∈ scope, Named.isVariable name.toList = true)
    (hfree : ∀ name ∈ t.freeNames, Named.isVariable name.toList = true)
    (h : t.toNamedFrom? reserved next scope = .ok u) : u.Lettered := by
  induction t generalizing next scope u with
  | lam body ih =>
    rcases Except.bind_eq_ok h with ⟨body', hbody, hdone⟩
    cases hdone
    have hname := Identifier.isVariable_nth (Identifier.firstFresh reserved next)
    exact ⟨hname, ih (List.forall_mem_cons.2 ⟨hname, hscope⟩) hfree hbody⟩
  | app fn arg ihf iha =>
    rcases Except.bind_eq_ok h with ⟨fn', hfn, hrest⟩
    rcases Except.bind_eq_ok hrest with ⟨arg', harg, hdone⟩
    cases hdone
    rcases List.forall_mem_append.1 hfree with ⟨hfnFree, hargFree⟩
    exact ⟨ihf hscope hfnFree hfn, iha hscope hargFree harg⟩
  | var index =>
    simp only [toNamedFrom?] at h
    split at h
    · next name hname =>
      cases h
      exact hscope name (List.mem_of_getElem? hname)
    · cases h
  | free name =>
    cases h
    exact hfree name (by simp [freeNames])
  | leaf x => exact x.elim

end Indexed

/-! ## Results and limits -/

namespace Reduction

variable {ρ α β : Type}

/-- Large enough limits give the result, and no limits give anything else. -/
def ComesTo (run : Limits → Reduction ρ α) (a : α) : Prop :=
  (∃ bound : Limits, ∀ limits : Limits, bound.contractions ≤ limits.contractions →
      bound.nesting ≤ limits.nesting → (run limits).result = .ok a) ∧
    ∀ limits, (run limits).result = .ok a ∨ (run limits).result = .error .tooDeep

/-- No limits suffice. -/
def Diverges (run : Limits → Reduction ρ α) : Prop :=
  ∀ limits, (run limits).result = .error .tooDeep

theorem ComesTo.ne_fault {run : Limits → Reduction ρ α} {a : α} (h : ComesTo run a)
    (limits : Limits) (fault : Fault) : (run limits).result ≠ .error (.fault fault) := by
  intro hfault
  rcases h.2 limits with hok | hdeep
  · rw [hok] at hfault
    cases hfault
  · rw [hdeep] at hfault
    cases hfault

theorem Diverges.ne_fault {run : Limits → Reduction ρ α} (h : Diverges run) (limits : Limits)
    (fault : Fault) : (run limits).result ≠ .error (.fault fault) := by
  intro hfault
  rw [h limits] at hfault
  cases hfault

theorem andThen_of_ok {r : Reduction ρ α} {a : α} (h : r.result = .ok a)
    (next : α → Reduction ρ β) : (r.andThen next).result = (next a).result := by
  simp [andThen, h]

theorem andThen_of_error {r : Reduction ρ α} {failure : Failure} (h : r.result = .error failure)
    (next : α → Reduction ρ β) : (r.andThen next).result = .error failure := by
  simp [andThen, h]

theorem ComesTo.andThen {run : Limits → Reduction ρ α} {a : α} (h : ComesTo run a)
    {next : α → Reduction ρ β} {b : β} (hnext : (next a).result = .ok b) :
    ComesTo (fun limits => (run limits).andThen next) b := by
  rcases h with ⟨⟨bound, hbound⟩, hresult⟩
  constructor
  · refine ⟨bound, ?_⟩
    intro limits hcontractions hnesting
    rw [andThen_of_ok (hbound limits hcontractions hnesting), hnext]
  · intro limits
    rcases hresult limits with hok | herror
    · exact .inl (by rw [andThen_of_ok hok, hnext])
    · exact .inr (andThen_of_error herror next)

theorem Diverges.andThen {run : Limits → Reduction ρ α} (h : Diverges run)
    (next : α → Reduction ρ β) : Diverges fun limits => (run limits).andThen next :=
  fun limits => andThen_of_error (h limits) next

end Reduction

namespace Indexed

/-- A result that is found within some limits is the only one. -/
theorem nf_comesTo {t u : Indexed Empty} {limits : Limits} (h : (t.nf limits).result = .ok u) :
    Reduction.ComesTo (fun limits => t.nf limits) u := by
  rcases nfWithin_leftmostRun (Reduction.eq_of_result h) with ⟨hrun, hnormal⟩
  constructor
  · rcases reaches_of_betas hrun.betas hnormal with ⟨contractions, depth, hreach⟩
    refine ⟨⟨depth + 1, contractions⟩, ?_⟩
    intro limits' hcontractions hnesting
    exact hreach limits'.contractions limits'.nesting hcontractions hnesting
  · intro limits'
    cases hresult : (t.nf limits').result with
    | error failure =>
      rcases nfWithin_error hresult with rfl
      exact .inr rfl
    | ok v =>
      rcases nfWithin_leftmostRun (Reduction.eq_of_result hresult) with ⟨hrun', hnormal'⟩
      rcases hrun.unique hnormal hrun' hnormal' with ⟨_, rfl⟩
      exact .inl rfl

/-- A normal form that any contractions lead to is found within some limits. -/
theorem exists_nf_of_betas {t u : Indexed Empty} (h : Relation.ReflTransGen Beta t u)
    (hu : u.Normal) : ∃ limits, (t.nf limits).result = .ok u := by
  rcases reaches_of_betas h hu with ⟨contractions, depth, hreach⟩
  exact ⟨⟨depth + 1, contractions⟩,
    hreach contractions (depth + 1) (Nat.le_refl _) (Nat.lt_succ_self _)⟩

end Indexed

/-! ## Reduction -/

namespace Named

theorem reduce?_of_unbound {t : Named Empty} {allowFree : Bool} {fault : Fault}
    (h : t.toIndexed? allowFree [] = .error fault) (limits : Limits) :
    t.reduce? limits allowFree = .fail (.fault fault) := by
  unfold reduce?
  rw [h]
  rfl

theorem reduce?_of_indexed {t : Named Empty} {allowFree : Bool} {u : Indexed Empty}
    (h : t.toIndexed? allowFree [] = .ok u) (limits : Limits) :
    t.reduce? limits allowFree =
      (u.nf limits).andThen fun v => .ofExcept (Failure.ofFault v.toNamed?) := by
  unfold reduce?
  rw [h]
  rfl

/-- What is free in a named form is free in the nameless one. -/
theorem freeNames_of_toNamed? {v : Indexed Empty} {r : Named Empty} (h : v.toNamed? = .ok r) :
    r.freeNames = v.freeNames := by
  have hback : r.nameless [] = v := Indexed.nameless_toNamed? h
  rw [← hback, freeNames_nameless]
  simp

/-- What is free in a normal form was free in the term. -/
theorem freeNames_of_nf {t : Named Empty} {v : Indexed Empty} {limits : Limits}
    (h : ((t.nameless []).nf limits).result = .ok v) : v.freeNames ⊆ t.freeNames := by
  rcases Indexed.nfWithin_leftmostRun (Reduction.eq_of_result h) with ⟨hrun, _⟩
  have hsubset := Indexed.freeNames_of_betas hrun.betas
  rw [freeNames_nameless] at hsubset
  simpa using hsubset

/-- No index leads out of a normal form, so it can be given names. -/
theorem exists_result {t : Named Empty} {v : Indexed Empty} {limits : Limits}
    (h : ((t.nameless []).nf limits).result = .ok v) :
    ∃ r, v.toNamed? = .ok r ∧ r.freeNames ⊆ t.freeNames := by
  rcases Indexed.nfWithin_leftmostRun (Reduction.eq_of_result h) with ⟨hrun, _⟩
  have hscoped : v.Scoped ([] : List String).length :=
    Indexed.scoped_of_betas hrun.betas (t.scoped_nameless [])
  rcases Indexed.exists_toNamedFrom? hscoped v.freeNames 0 with ⟨r, hr⟩
  refine ⟨r, hr, ?_⟩
  rw [freeNames_of_toNamed? hr]
  exact freeNames_of_nf h

/-- Reduction comes to the named form of the normal form, once that is found within some limits. -/
theorem reduce?_comesTo {t r : Named Empty} {allowFree : Bool} {u v : Indexed Empty}
    {limits : Limits} (hindexed : t.toIndexed? allowFree [] = .ok u)
    (hnf : (u.nf limits).result = .ok v) (hr : v.toNamed? = .ok r) :
    Reduction.ComesTo (fun limits => t.reduce? limits allowFree) r := by
  have hnamed : (Reduction.ofExcept (Failure.ofFault v.toNamed?) :
      Reduction Empty (Named Empty)).result = .ok r := by
    rw [hr]
    rfl
  simp only [reduce?_of_indexed hindexed]
  exact (Indexed.nf_comesTo hnf).andThen hnamed

/-- Once there is a nameless form, reduction returns or goes on for ever. -/
theorem returns_or_diverges {t : Named Empty} {allowFree : Bool} {u : Indexed Empty}
    (h : t.toIndexed? allowFree [] = .ok u) :
    (∃ r, Reduction.ComesTo (fun limits => t.reduce? limits allowFree) r ∧
        r.freeNames ⊆ t.freeNames) ∨
      (Reduction.Diverges (fun limits => t.reduce? limits allowFree) ∧
        ∀ v, Relation.ReflTransGen Indexed.Beta (t.nameless []) v → ¬ v.Normal) := by
  rcases (toIndexed?_eq_ok h).1 with rfl
  -- Either some limits let the nameless term be reduced, or none do.
  by_cases hend : ∃ limits v, ((t.nameless []).nf limits).result = .ok v
  · rcases hend with ⟨limits, v, hnf⟩
    rcases exists_result hnf with ⟨r, hr, hsubset⟩
    exact .inl ⟨r, reduce?_comesTo h hnf hr, hsubset⟩
  · refine .inr ⟨?_, ?_⟩
    · simp only [reduce?_of_indexed h]
      refine Reduction.Diverges.andThen ?_ _
      intro limits
      cases hresult : ((t.nameless []).nf limits).result with
      | error failure => rw [Indexed.nfWithin_error hresult]
      | ok v => exact absurd ⟨limits, v, hresult⟩ hend
    · -- A normal form that any contractions lead to would have been found.
      intro v hbetas hnormal
      rcases Indexed.exists_nf_of_betas hbetas hnormal with ⟨limits, hresult⟩
      exact hend ⟨limits, v, hresult⟩

/-- Reduction complains of a free variable just where none is allowed and there is one; then it
names the first and has contracted nothing. In all other cases nothing goes wrong: reduction comes
to a result, whose free variables are some of those of the term, or the term has no normal form. -/
theorem reduce_unbound_or_safe (t : Named Empty) (allowFree : Bool) :
    (∀ limits, (∃ x, (t.reduce? limits allowFree).result = .error (.fault (.unbound x))) ↔
        allowFree = false ∧ ∃ p x, t.FreeAt p x) ∧
      (∀ limits x, (t.reduce? limits allowFree).result = .error (.fault (.unbound x)) →
        t.FirstFree x ∧ (t.reduce? limits allowFree).redexes = []) ∧
      (¬ (allowFree = false ∧ ∃ p x, t.FreeAt p x) →
        (∃ r, Reduction.ComesTo (fun limits => t.reduce? limits allowFree) r ∧
            r.freeNames ⊆ t.freeNames) ∨
          (Reduction.Diverges (fun limits => t.reduce? limits allowFree) ∧
            ∀ v, Relation.ReflTransGen Indexed.Beta (t.nameless []) v → ¬ v.Normal)) := by
  cases hindexed : t.toIndexed? allowFree [] with
  | error fault =>
    -- The term is refused before anything is contracted.
    rcases toIndexed?_eq_error hindexed with ⟨hfree, p, x, rfl, hp, _, hfirst⟩
    have hfail := reduce?_of_unbound hindexed
    have hx : t.FirstFree x := ⟨p, hp, fun q y hq => hfirst q y hq List.not_mem_nil⟩
    refine ⟨?_, ?_, ?_⟩
    · intro limits
      exact ⟨fun _ => ⟨hfree, p, x, hp⟩, fun _ => ⟨x, by rw [hfail]; rfl⟩⟩
    · intro limits y hy
      rw [hfail] at hy ⊢
      cases hy
      exact ⟨hx, rfl⟩
    · intro hnot
      exact absurd ⟨hfree, p, x, hp⟩ hnot
  | ok u =>
    have hbound := (toIndexed?_eq_ok hindexed).2
    have hsafe := returns_or_diverges hindexed
    have hresult : ∀ limits x,
        (t.reduce? limits allowFree).result ≠ .error (.fault (.unbound x)) := by
      intro limits x
      rcases hsafe with ⟨r, hcomes, _⟩ | ⟨hdiverges, _⟩
      · exact hcomes.ne_fault limits (.unbound x)
      · exact hdiverges.ne_fault limits (.unbound x)
    refine ⟨?_, ?_, fun _ => hsafe⟩
    · intro limits
      constructor
      · rintro ⟨x, hx⟩
        exact absurd hx (hresult limits x)
      · rintro ⟨hfree, p, x, hp⟩
        exact absurd (hbound hfree p x hp) List.not_mem_nil
    · intro limits x hx
      exact absurd hx (hresult limits x)

/-- `(λx.x (y x))`: the first `x` is bound and the last one is free, but `y` is met before it. -/
theorem reduce_unbound_or_safe_names_first :
    let t : Named Empty := app (abs "x" (sym "x")) (app (sym "y") (sym "x"))
    (∃ p x, t.FreeAt p x) ∧
      (t.reduce? ⟨4, 4⟩ false).result = .error (.fault (.unbound "y")) ∧ t.FirstFree "y" ∧
      ∃ r, Reduction.ComesTo (fun limits => t.reduce? limits true) r ∧
        r.freeNames ⊆ t.freeNames := by
  intro t
  have hresult : (t.reduce? ⟨4, 4⟩ false).result = .error (.fault (.unbound "y")) := by
    decide +kernel
  have hended : (t.reduce? ⟨4, 4⟩ true).result ≠ .error .tooDeep := by decide +kernel
  have hrefused := reduce_unbound_or_safe t false
  refine ⟨((hrefused.1 ⟨4, 4⟩).1 ⟨"y", hresult⟩).2, hresult, (hrefused.2.1 _ _ hresult).1, ?_⟩
  rcases (reduce_unbound_or_safe t true).2.2 (by simp) with hreturns | ⟨hdiverges, _⟩
  · exact hreturns
  · exact absurd (hdiverges ⟨4, 4⟩) hended

/-! ## Results are fixed -/

/-- What is printed of a result is read as that result, and reduced to itself, with the names of its
binders and without a contraction, within the limits in which it was found. -/
theorem reduce_result_is_fixed {limits : Limits} {allowFree : Bool} {t r : Named Empty}
    (ht : t.Lettered) (h : (t.reduce? limits allowFree).result = .ok r) :
    r.text? = .ok r.text ∧
      (∀ depth, r.text.length < depth → parse depth r.text = .ok r.embed) ∧
      r.reduce? limits allowFree = .done r := by
  rcases reduce?_eq_ok (Reduction.eq_of_result h) with ⟨u, v, hindexed, hnf, hr⟩
  rcases (toIndexed?_eq_ok hindexed).1 with rfl
  have hsubset : v.freeNames ⊆ t.freeNames := freeNames_of_nf (by rw [hnf])
  refine ⟨text?_empty r, ?_, ?_⟩
  · have hlettered : r.Lettered :=
      Indexed.lettered_toNamedFrom? (by simp)
        (fun name hname => ht.of_mem_freeNames (hsubset hname)) hr
    exact fun depth hdepth => parse_text hlettered hdepth
  · -- The names that were given are left out again, and the same names are given once more.
    have hback : r.nameless [] = v := Indexed.nameless_toNamed? hr
    have hagain : r.toIndexed? allowFree [] = .ok v := by
      rw [← hback]
      exact toIndexed?_of_subset hindexed (freeNames_of_toNamed? hr ▸ hsubset)
    have hnormal : v.nf limits = .done v := Indexed.nfWithin_result hnf
    rw [reduce?_of_indexed hagain, hnormal, Reduction.done_andThen, hr]
    rfl

/-- `(λx.λy.(x y) a)`, whose binder is called `b` because `a` is free. -/
theorem reduce_result_is_fixed_skips_name :
    let t : Named Empty := app (abs "x" (abs "y" (app (sym "x") (sym "y")))) (sym "a")
    let r : Named Empty := abs "b" (app (sym "a") (sym "b"))
    t.Lettered ∧ (t.reduce? ⟨4, 4⟩ true).result = .ok r ∧ r.text? = .ok "λb.(a b)" ∧
      parse 20 "λb.(a b)" = .ok r.embed ∧ r.reduce? ⟨4, 4⟩ true = .done r := by
  intro t r
  have hlettered : t.Lettered := ⟨⟨rfl, rfl, rfl, rfl⟩, rfl⟩
  have hresult : (t.reduce? ⟨4, 4⟩ true).result = .ok r := by decide +kernel
  have htext : r.text = "λb.(a b)" := by decide +kernel
  rcases reduce_result_is_fixed hlettered hresult with ⟨hshown, hread, hfixed⟩
  rw [htext] at hshown hread
  exact ⟨hlettered, hresult, hshown, hread 20 (by decide +kernel), hfixed⟩

end Named
end Nameless
