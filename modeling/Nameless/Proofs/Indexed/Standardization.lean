import Nameless.Proofs.Indexed.NormalOrder
import Nameless.Proofs.Indexed.SubstitutionLaws

/-!
# Reduction finds every normal form

Redexes may be contracted in any order, and some orders miss a normal form that others reach.
Reduction to normal form does not: whatever order has led from a term to a normal form, `nf` gives
that normal form, within large enough limits.

An arbitrary reduction is brought into a standard order first. `Standard t u` says that `u` is
reached from `t` by contracting at the head until the root of `u` is there, and then likewise in
each part. Contracting any redex of the target keeps this, because a redex of the target comes from
a redex that was put off in the source, and substitution commutes with putting off. A standard
reduction to a normal form is what `nf` does.

Main statements:
- `Indexed.Standard.contractsAt`: a standard reduction followed by any contraction is standard,
- `Indexed.standard_of_betas`: so every reduction can be made standard,
- `Indexed.Standard.reaches`: a standard reduction to a normal form is found by `nf`.
-/

namespace Nameless
namespace Indexed

variable {ρ : Type}

/-! ## Contraction at the head -/

/-- Contracting the redex at the head of a term. -/
inductive WeakHead : Indexed ρ → Indexed ρ → Prop where
  | here (body arg : Indexed ρ) : WeakHead (app (lam body) arg) (body.contract arg)
  | fn {f f' : Indexed ρ} (a : Indexed ρ) : WeakHead f f' → WeakHead (app f a) (app f' a)

abbrev WeakHeads : Indexed ρ → Indexed ρ → Prop :=
  Relation.ReflTransGen WeakHead

theorem WeakHead.shift {t u : Indexed ρ} {i : Int} (hi : 0 ≤ i) (h : WeakHead t u) :
    WeakHead (t.shift i) (u.shift i) := by
  induction h with
  | here body arg =>
    have hcontract :
        (body.contract arg).shift i = (body.shift (i + 1)).contract (arg.shift i) :=
      shift_substitute_of_le (Int.le_refl 0) hi body arg
    rw [hcontract]
    exact .here (body.shift (i + 1)) (arg.shift i)
  | fn a _ ih => exact .fn (a.shift i) ih

theorem WeakHead.substitute {t u : Indexed ρ} {i : Int} (hi : 0 ≤ i) (h : WeakHead t u)
    (c : Indexed ρ) : WeakHead (t.substitute i c) (u.substitute i c) := by
  induction h with
  | here body arg =>
    have hcontract :
        (body.contract arg).substitute i c =
          (body.substitute (i + 1) (c.shift 0)).contract (arg.substitute i c) :=
      substitute_substitute (Int.le_refl 0) hi body arg c
    rw [hcontract]
    exact .here (body.substitute (i + 1) (c.shift 0)) (arg.substitute i c)
  | fn a _ ih => exact .fn (a.substitute i c) ih

theorem WeakHeads.shift {t u : Indexed ρ} {i : Int} (hi : 0 ≤ i) (h : WeakHeads t u) :
    WeakHeads (t.shift i) (u.shift i) :=
  h.lift (Indexed.shift i) fun _ _ hstep => hstep.shift hi

theorem WeakHeads.substitute {t u : Indexed ρ} {i : Int} (hi : 0 ≤ i) (h : WeakHeads t u)
    (c : Indexed ρ) : WeakHeads (t.substitute i c) (u.substitute i c) :=
  h.lift (fun t => t.substitute i c) fun _ _ hstep => hstep.substitute hi c

theorem WeakHeads.fn {f f' : Indexed ρ} (h : WeakHeads f f') (a : Indexed ρ) :
    WeakHeads (app f a) (app f' a) :=
  h.lift (fun f => app f a) fun _ _ hstep => .fn a hstep

/-! ## Standard reductions -/

/-- The target is reached by contracting at the head until its root is there, and then likewise in
each of its parts. -/
def Standard (t : Indexed ρ) : Indexed ρ → Prop
  | lam b' => ∃ b, WeakHeads t (lam b) ∧ b.Standard b'
  | app f' a' => ∃ f a, WeakHeads t (app f a) ∧ f.Standard f' ∧ a.Standard a'
  | u => WeakHeads t u

namespace Standard

theorem refl (t : Indexed ρ) : t.Standard t := by
  induction t with
  | lam body ih => exact ⟨body, .refl, ih⟩
  | app fn arg ihf iha => exact ⟨fn, arg, .refl, ihf, iha⟩
  | var index => exact Relation.ReflTransGen.refl
  | free name => exact Relation.ReflTransGen.refl
  | leaf x => exact Relation.ReflTransGen.refl

theorem of_weakHeads {t t' u : Indexed ρ} (h : WeakHeads t t') (h' : t'.Standard u) :
    t.Standard u := by
  cases u with
  | lam b' =>
    rcases h' with ⟨b, hb, hbody⟩
    exact ⟨b, h.trans hb, hbody⟩
  | app f' a' =>
    rcases h' with ⟨f, a, hfa, hfn, harg⟩
    exact ⟨f, a, h.trans hfa, hfn, harg⟩
  | var index => exact h.trans h'
  | free name => exact h.trans h'
  | leaf x => exact h.trans h'

theorem shift {t u : Indexed ρ} {i : Int} (hi : 0 ≤ i) (h : t.Standard u) :
    (t.shift i).Standard (u.shift i) := by
  induction u generalizing t i with
  | lam b' ih =>
    rcases h with ⟨b, hb, hbody⟩
    exact ⟨b.shift (i + 1), hb.shift hi, ih (by omega) hbody⟩
  | app f' a' ihf iha =>
    rcases h with ⟨f, a, hfa, hfn, harg⟩
    exact ⟨f.shift i, a.shift i, hfa.shift hi, ihf hi hfn, iha hi harg⟩
  | var index => exact of_weakHeads (WeakHeads.shift hi h) (refl _)
  | free name => exact WeakHeads.shift hi h
  | leaf x => exact WeakHeads.shift hi h

theorem substitute {t u a c : Indexed ρ} {i : Int} (hi : 0 ≤ i) (h : t.Standard u)
    (hac : a.Standard c) : (t.substitute i a).Standard (u.substitute i c) := by
  induction u generalizing t a c i with
  | lam b' ih =>
    rcases h with ⟨b, hb, hbody⟩
    refine ⟨b.substitute (i + 1) (a.shift 0), hb.substitute hi a, ?_⟩
    exact ih (by omega) hbody (hac.shift (Int.le_refl 0))
  | app f' a' ihf iha =>
    rcases h with ⟨f, x, hfx, hfn, harg⟩
    exact ⟨f.substitute i a, x.substitute i a, hfx.substitute hi a, ihf hi hfn hac,
      iha hi harg hac⟩
  | var index =>
    refine of_weakHeads (WeakHeads.substitute hi h a) ?_
    -- Only here the two replacements take the place of anything.
    rcases Int.lt_trichotomy (index : Int) i with hlt | rfl | hgt
    · rw [substitute_var_of_gt hlt, substitute_var_of_gt hlt]
      exact refl _
    · rw [substitute_var_self, substitute_var_self]
      exact hac
    · rw [substitute_var_of_lt hgt, substitute_var_of_lt hgt]
      exact refl _
  | free name => exact WeakHeads.substitute hi h a
  | leaf x => exact WeakHeads.substitute hi h a

theorem contract {t body arg : Indexed ρ} (h : t.Standard (app (lam body) arg)) :
    t.Standard (body.contract arg) := by
  rcases h with ⟨f, a, hfa, ⟨b, hb, hbody⟩, harg⟩
  -- The redex of the target was an abstraction with an argument in the source as well, and is
  -- contracted at the head before anything else.
  have hhead : WeakHeads t (b.contract a) := (hfa.trans (hb.fn a)).tail (.here b a)
  exact of_weakHeads hhead (hbody.substitute (Int.le_refl 0) harg)

theorem contractsAt {t u v r : Indexed ρ} {p : Place} (h : t.Standard u)
    (hc : ContractsAt u p r v) : t.Standard v := by
  -- The place of the redex is followed down the target, and there the redex itself is left.
  induction hc generalizing t with
  | here body arg => exact h.contract
  | body _ ih =>
    rcases h with ⟨b, hb, hbody⟩
    exact ⟨b, hb, ih hbody⟩
  | fn a' _ ih =>
    rcases h with ⟨f, a, hfa, hfn, harg⟩
    exact ⟨f, a, hfa, ih hfn, harg⟩
  | arg f' _ ih =>
    rcases h with ⟨f, a, hfa, hfn, harg⟩
    exact ⟨f, a, hfa, hfn, ih harg⟩

end Standard

/-- Whatever can be reached can be reached by a standard reduction. -/
theorem standard_of_betas {t u : Indexed ρ} (h : Relation.ReflTransGen Beta t u) :
    t.Standard u := by
  induction h with
  | refl => exact .refl t
  | tail _ hstep ih =>
    rcases hstep with ⟨p, r, hp⟩
    exact ih.contractsAt hp

/-! ## Reduction to normal form follows standard reductions -/

/-- Within large enough limits, the normal form of the one term is found to be the other. -/
def Reaches (t u : Indexed Empty) : Prop :=
  ∃ contractions depth, ∀ c d, contractions ≤ c → depth < d → (nfWithin c d t).result = .ok u

theorem WeakHead.whnfFrom_eq {t t' : Indexed Empty} (h : WeakHead t t') :
    ∃ r, ∀ contractions seen args,
      whnfFrom contract? (contractions + 1) seen t args =
        whnfFrom contract? contractions (r :: seen) t' args := by
  induction h with
  | here body arg =>
    refine ⟨app (lam body) arg, ?_⟩
    intro contractions seen args
    rw [whnfFrom_app, whnfFrom_lam_cons, contract?_empty]
  | fn a _ ih =>
    rcases ih with ⟨r, hr⟩
    refine ⟨r, ?_⟩
    intro contractions seen args
    rw [whnfFrom_app, whnfFrom_app, hr]

theorem WeakHeads.whnfFrom_eq {t w : Indexed Empty} (h : WeakHeads t w) (hw : w.WeakNormal) :
    ∃ contractions rs, ∀ c seen,
      whnfFrom contract? (c + contractions) seen t [] = ⟨seen.reverse ++ rs, .ok w⟩ := by
  -- From the last step to the first, each of which takes one contraction more.
  induction h using Relation.ReflTransGen.head_induction_on with
  | refl => exact ⟨0, [], fun c seen => by simp [whnfFrom_of_weakNormal hw]⟩
  | head hstep _ ih =>
    rcases hstep.whnfFrom_eq with ⟨r, hr⟩
    rcases ih with ⟨contractions, rs, hrest⟩
    refine ⟨contractions + 1, r :: rs, ?_⟩
    intro c seen
    rw [← Nat.add_assoc, hr, hrest]
    simp

namespace Reaches

theorem lam {b b' : Indexed Empty} (h : Reaches b b') : Reaches (lam b) (lam b') := by
  rcases h with ⟨contractions, depth, hbody⟩
  refine ⟨contractions, depth + 1, ?_⟩
  rintro c (_ | d) hc hd
  · omega
  · have hwhnf := whnfFrom_of_weakNormal (.inl ⟨b, rfl⟩) c []
    simp [nfWithin_succ, whnf, hwhnf, Reduction.andThen, hbody c d hc (by omega), Reduction.done]

theorem app {f f' a a' : Indexed Empty} (hf : f.Neutral) (hfn : Reaches f f')
    (harg : Reaches a a') : Reaches (app f a) (app f' a') := by
  rcases hfn with ⟨contractionsf, depthf, hfn⟩
  rcases harg with ⟨contractionsa, deptha, harg⟩
  refine ⟨max contractionsf contractionsa, max depthf deptha + 1, ?_⟩
  rintro c (_ | d) hc hd
  · omega
  · have hwhnf := whnfFrom_of_weakNormal (t := Indexed.app f a) (.inr hf) c []
    simp [nfWithin_succ, whnf, hwhnf, Reduction.andThen, hfn c d (by omega) (by omega),
      harg c d (by omega) (by omega), Reduction.done]

theorem of_normal {u : Indexed Empty} (h : u.Normal) : Reaches u u := by
  refine ⟨0, u.height, fun contractions depth _ hdepth => ?_⟩
  rw [nfWithin_of_normal h contractions (Nat.le_of_lt hdepth)]
  rfl

/-- Contracting at the head first does not change the result. -/
theorem of_weakHeads {t w u : Indexed Empty} (h : WeakHeads t w) (hw : w.WeakNormal)
    (hu : Reaches w u) : Reaches t u := by
  rcases h.whnfFrom_eq hw with ⟨contractionsw, rs, hwhnf⟩
  rcases hu with ⟨contractions, depth, hnf⟩
  refine ⟨max contractions contractionsw, depth, ?_⟩
  intro c d hc hd
  have hdw := hnf c d (by omega) hd
  cases d with
  | zero => omega
  | succ d =>
    have ht := hwhnf (c - contractionsw) []
    rw [Nat.sub_add_cancel (by omega)] at ht
    have hw' := whnfFrom_of_weakNormal hw c []
    -- Both come to `w` at the head, and go on alike from there.
    simp only [nfWithin_succ, whnf, Reduction.bind_eq_andThen, ht, hw', Reduction.andThen] at hdw ⊢
    exact hdw

end Reaches

theorem Standard.reaches {t u : Indexed Empty} (h : t.Standard u) (hu : u.Normal) :
    ∃ w, WeakHeads t w ∧ w.WeakNormal ∧ (u.Neutral → w.Neutral) ∧ Reaches w u := by
  -- By induction on the normal form. That the head stays neutral is carried along, for the
  -- applications.
  induction u generalizing t with
  | lam b' ih =>
    rcases h with ⟨b, hb, hbody⟩
    rcases ih hbody (normal_lam.1 hu) with ⟨w, hw, hweak, _, hreach⟩
    exact ⟨_, hb, .inl ⟨b, rfl⟩, False.elim, (hreach.of_weakHeads hw hweak).lam⟩
  | app f' a' ihf iha =>
    rcases h with ⟨f, a, hfa, hfn, harg⟩
    rcases normal_app.1 hu with ⟨hne, hfnNormal, hargNormal⟩
    rcases ihf hfn hfnNormal with ⟨wf, hwf, _, hneutral, hfnReach⟩
    rcases iha harg hargNormal with ⟨wa, hwa, hwaWeak, _, hargReach⟩
    -- The head of the target is no abstraction, so neither is the one that is reached first.
    have hwfNeutral : wf.Neutral := hneutral (hfnNormal.neutral hne)
    refine ⟨_, hfa.trans (hwf.fn a), .inr hwfNeutral, fun _ => hwfNeutral, ?_⟩
    exact hfnReach.app hwfNeutral (hargReach.of_weakHeads hwa hwaWeak)
  | var index => exact ⟨_, h, hu.weakNormal, id, .of_normal hu⟩
  | free name => exact ⟨_, h, hu.weakNormal, id, .of_normal hu⟩
  | leaf x => exact x.elim

theorem reaches_of_betas {t u : Indexed Empty} (h : Relation.ReflTransGen Beta t u)
    (hu : u.Normal) : Reaches t u := by
  rcases (standard_of_betas h).reaches hu with ⟨w, hw, hweak, _, hreach⟩
  exact hreach.of_weakHeads hw hweak

/-! ## Results within any limits -/

theorem whnfFrom_error {contractions : Nat} {seen args : List (Indexed Empty)} {t : Indexed Empty}
    {failure : Failure}
    (h : (whnfFrom contract? contractions seen t args).result = .error failure) :
    failure = .tooDeep := by
  induction contractions generalizing seen t args with
  | zero =>
    rcases whnfFrom_cases t args with ⟨_, heq⟩ | ⟨body, arg, rest, _, heq⟩
    · simp [heq] at h
    · rw [heq] at h
      simpa [whnfFrom, unwind, eq_comm] using h
  | succ contractions ih =>
    rcases whnfFrom_cases t args with ⟨_, heq⟩ | ⟨body, arg, rest, _, heq⟩
    · simp [heq] at h
    · rw [heq, whnfFrom_lam_cons, contract?_empty] at h
      exact ih h

/-- The limits are the only reason why a reduction may have no result. -/
theorem nfWithin_error {contractions depth : Nat} {t : Indexed Empty} {failure : Failure}
    (h : (nfWithin contractions depth t).result = .error failure) : failure = .tooDeep := by
  induction depth generalizing t with
  | zero => simpa [nfWithin_zero, Reduction.fail, eq_comm] using h
  | succ depth ih =>
    simp only [nfWithin_succ, Reduction.bind_eq_andThen, Reduction.pure_eq_done] at h
    rcases Reduction.andThen_eq_error h with hwhnf | ⟨w, hrest⟩
    · exact whnfFrom_error hwhnf
    cases w with
    | lam body =>
      rcases Reduction.andThen_eq_error hrest with hbody | ⟨body', hdone⟩
      · exact ih hbody
      · simp [Reduction.done] at hdone
    | app fn arg =>
      rcases Reduction.andThen_eq_error hrest with hfn | ⟨fn', hrest'⟩
      · exact ih hfn
      rcases Reduction.andThen_eq_error hrest' with harg | ⟨arg', hdone⟩
      · exact ih harg
      · simp [Reduction.done] at hdone
    | _ => simp [Reduction.done] at hrest

/-- A normal form that some reduction reaches is found within large enough limits, and no limits
lead to another result. -/
theorem nf_of_betas_normal {t u : Indexed Empty} (h : Relation.ReflTransGen Beta t u)
    (hu : u.Normal) :
    (∃ bound : Limits, ∀ limits : Limits, bound.contractions ≤ limits.contractions →
        bound.nesting ≤ limits.nesting → (t.nf limits).result = .ok u) ∧
      ∀ limits : Limits,
        (t.nf limits).result = .ok u ∨ (t.nf limits).result = .error .tooDeep := by
  rcases reaches_of_betas h hu with ⟨contractions, depth, hreach⟩
  constructor
  · refine ⟨⟨depth + 1, contractions⟩, ?_⟩
    intro limits hcontractions hnesting
    exact hreach limits.contractions limits.nesting hcontractions hnesting
  · intro limits
    cases hresult : (t.nf limits).result with
    | error failure =>
      rcases nfWithin_error hresult with rfl
      exact .inr rfl
    | ok v =>
      -- What is found within these limits is reached as well, and within larger ones both are.
      rcases nfWithin_leftmostRun (Reduction.eq_of_result hresult) with ⟨hrun, hv⟩
      rcases reaches_of_betas hrun.betas hv with ⟨contractions', depth', hreach'⟩
      have hsame := hreach (max contractions contractions') (max depth depth' + 1)
        (by omega) (by omega)
      rw [hreach' _ _ (by omega) (by omega)] at hsame
      exact .inl hsame

/-- `(λx.λy.y Ω)` applied to the identity, where the term `Ω` without a normal form is contracted
before it is dropped. -/
theorem nf_of_betas_normal_loop :
    let identity : Indexed Empty := lam (var 0)
    let double : Indexed Empty := lam (app (var 0) (var 0))
    let t := app (app (lam identity) (app double double)) identity
    Relation.ReflTransGen Beta t identity ∧ identity.Normal ∧
      ∃ bound : Limits, ∀ limits : Limits, bound.contractions ≤ limits.contractions →
        bound.nesting ≤ limits.nesting → (t.nf limits).result = .ok identity := by
  intro identity double t
  have hloop : Beta t t := ⟨_, _, .fn _ (.arg _ (.here _ _))⟩
  have hdrop : Beta t (app identity identity) := ⟨_, _, .fn _ (.here _ _)⟩
  have hlast : Beta (app identity identity) identity := ⟨_, _, .here _ _⟩
  have hbetas : Relation.ReflTransGen Beta t identity :=
    .head hloop (.head hdrop (.head hlast .refl))
  have hnormal : identity.Normal := by decide
  exact ⟨hbetas, hnormal, (nf_of_betas_normal hbetas hnormal).1⟩

end Indexed
end Nameless
