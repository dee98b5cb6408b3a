import Nameless.Proofs.Indexed.Beta
import Nameless.Proofs.Results
import Nameless.Reporter

/-!
# Reduction follows the leftmost outermost strategy

`whnf` and `nf` never look at a whole term: `whnf` works on a head with its arguments, and `nf`
goes on below the abstraction or the application that is left. Yet the redexes they contract are,
one by one, the leftmost outermost redexes of the whole term.

For `whnf` this is because the redex at the head comes first. For `nf` it is because `whnf` ends
in an abstraction or in a neutral term, and a neutral term stays neutral while its parts are
reduced: the application that is built again around them is never a redex.

Main statements:
- `Indexed.whnfFrom_leftmostRun`: what a run of `whnf` contracts and where it ends,
- `Indexed.nfWithin_leftmostRun`: the same for `nf`,
- `Indexed.nfWithin_of_normal`: a normal form is its own result, without contractions,
- `Indexed.height_le_of_nfWithin`: how high a result is at most,
- `Indexed.nfWithin_result`: a result is so within the very limits in which it was found.
-/

namespace Nameless

namespace Reporter

/-- Every redex that a reporter is told of is counted once. -/
theorem steps_foldl_step {α : Type} (kind : String) (text : α → String) (redexes : List α)
    (reporter : Reporter) :
    (redexes.foldl (fun reporter redex => reporter.step kind (text redex)) reporter).steps =
      reporter.steps + redexes.length := by
  have hstep : ∀ (reporter : Reporter) (line : String),
      (reporter.step kind line).steps = reporter.steps + 1 := by
    intro reporter line
    cases hverbose : reporter.verbose <;> simp [step, count, print, hverbose]
  induction redexes generalizing reporter with
  | nil => rfl
  | cons redex rest ih =>
    rw [List.foldl_cons, ih, hstep, List.length_cons]
    omega

end Reporter

namespace Indexed

variable {ρ : Type}

/-! ## Heads with arguments -/

theorem Neutral.rewind {t : Indexed ρ} (h : t.Neutral) (args : List (Indexed ρ)) :
    (t.rewind args).Neutral := by
  induction args generalizing t with
  | nil => exact h
  | cons arg args ih => exact ih (t := app t arg) h

/-- What comes first in a function comes first in the function with its arguments. -/
theorem Leftmost.rewind {f f' r : Indexed ρ} (hne : ∀ body, f ≠ lam body) (h : Leftmost f r f')
    (args : List (Indexed ρ)) : Leftmost (f.rewind args) r (f'.rewind args) := by
  induction args generalizing f f' with
  | nil => exact h
  | cons arg args ih => exact ih (by simp) (.fn arg hne h)

/-- Where reduction to weak head normal form ends. -/
def WeakNormal (t : Indexed ρ) : Prop :=
  (∃ body, t = lam body) ∨ t.Neutral

theorem Normal.weakNormal {t : Indexed ρ} (h : t.Normal) : t.WeakNormal := by
  by_cases hlam : ∃ body, t = lam body
  · exact .inl hlam
  · exact .inr (h.neutral fun body hbody => hlam ⟨body, hbody⟩)

theorem not_weakNormal_rewind (body arg : Indexed ρ) (args : List (Indexed ρ)) :
    ¬ ((app (lam body) arg).rewind args).WeakNormal := by
  -- The head of the spine is an abstraction however many arguments follow.
  suffices h : ∀ f : Indexed ρ, ¬ f.Neutral → (∀ b, f ≠ lam b) → ¬ (f.rewind args).WeakNormal from
    h _ id (by simp)
  induction args with
  | nil =>
    intro f hf hne
    rintro (⟨b, hb⟩ | hneutral)
    · exact hne b hb
    · exact hf hneutral
  | cons arg args ih =>
    intro f hf _
    exact ih (app f arg) hf (by simp)

/-! ## Weak head normal forms -/

@[simp] theorem whnfFrom_leaf (contract : Contraction ρ) (contractions : Nat)
    (seen : List (Indexed ρ)) (x : ρ) (args : List (Indexed ρ)) :
    whnfFrom contract contractions seen (leaf x) args =
      ⟨seen.reverse, .ok ((leaf x).rewind args)⟩ := by
  unfold whnfFrom
  rfl

/-- All that reduction can meet: a term that is done, or an abstraction with an argument. -/
theorem whnfFrom_cases (t : Indexed ρ) (args : List (Indexed ρ)) :
    ((t.rewind args).WeakNormal ∧ ∀ (contract : Contraction ρ) contractions seen,
        whnfFrom contract contractions seen t args = ⟨seen.reverse, .ok (t.rewind args)⟩) ∨
      ∃ body arg rest, t.rewind args = (app (lam body) arg).rewind rest ∧
        ∀ (contract : Contraction ρ) contractions seen,
          whnfFrom contract contractions seen t args =
            whnfFrom contract contractions seen (lam body) (arg :: rest) := by
  induction t generalizing args with
  | app fn arg ihf _ =>
    simp only [whnfFrom_app]
    exact ihf (arg :: args)
  | lam body =>
    cases args with
    | nil => exact .inl ⟨.inl ⟨body, rfl⟩, by simp⟩
    | cons arg rest => exact .inr ⟨body, arg, rest, rfl, fun _ _ _ => rfl⟩
  | var index =>
    have hneutral : (var index : Indexed ρ).Neutral := trivial
    exact .inl ⟨.inr (hneutral.rewind args), by simp⟩
  | free name =>
    have hneutral : (free name : Indexed ρ).Neutral := trivial
    exact .inl ⟨.inr (hneutral.rewind args), by simp⟩
  | leaf x =>
    have hneutral : (leaf x).Neutral := trivial
    exact .inl ⟨.inr (hneutral.rewind args), by simp⟩

variable [Leaf ρ]

theorem eq_contract_of_contract? {body arg u : Indexed ρ} (h : body.contract? arg = .ok u) :
    u = body.contract arg := by
  unfold contract? substitute? at h
  split at h
  · simp at h
  · exact (Except.ok.inj h).symm

theorem whnfFrom_leftmostRun {contractions : Nat} {seen rs : List (Indexed ρ)} {t u : Indexed ρ}
    {args : List (Indexed ρ)} (h : whnfFrom contract? contractions seen t args = ⟨rs, .ok u⟩) :
    ∃ new, rs = seen.reverse ++ new ∧ LeftmostRun (t.rewind args) new u ∧ u.WeakNormal := by
  -- By induction on the contractions that are left. What was seen before is passed through, and the
  -- redex at the head of the spine is the leftmost one of the whole spine.
  induction contractions generalizing seen t args with
  | zero =>
    rcases whnfFrom_cases t args with ⟨hweak, heq⟩ | ⟨body, arg, rest, _, heq⟩
    · obtain ⟨rfl, rfl⟩ : seen.reverse = rs ∧ t.rewind args = u := by simpa [heq] using h
      exact ⟨[], by simp, .done _, hweak⟩
    · rw [heq] at h
      simp [whnfFrom, unwind] at h
  | succ contractions ih =>
    rcases whnfFrom_cases t args with ⟨hweak, heq⟩ | ⟨body, arg, rest, hterm, heq⟩
    · obtain ⟨rfl, rfl⟩ : seen.reverse = rs ∧ t.rewind args = u := by simpa [heq] using h
      exact ⟨[], by simp, .done _, hweak⟩
    · rw [heq, whnfFrom_lam_cons] at h
      split at h
      · simp at h
      · next v hv =>
        rcases eq_contract_of_contract? hv with rfl
        rcases ih h with ⟨new, rfl, hrun, hweak⟩
        have hfirst := (Leftmost.here body arg).rewind (by simp) rest
        rw [hterm]
        exact ⟨app (lam body) arg :: new, by simp, .step hfirst hrun, hweak⟩

/-- What is in weak head normal form is left as it is. -/
theorem whnfFrom_of_weakNormal {t : Indexed ρ} (h : t.WeakNormal) (contractions : Nat)
    (seen : List (Indexed ρ)) :
    whnfFrom contract? contractions seen t [] = ⟨seen.reverse, .ok t⟩ := by
  rcases whnfFrom_cases t [] with ⟨_, heq⟩ | ⟨body, arg, rest, hterm, _⟩
  · exact heq contract? contractions seen
  · rw [rewind_nil] at hterm
    rw [hterm] at h
    exact absurd h (not_weakNormal_rewind body arg rest)

theorem whnf_of_normal {t : Indexed ρ} (h : t.Normal) (contractions : Nat) :
    t.whnf contractions = .done t :=
  whnfFrom_of_weakNormal h.weakNormal contractions []

/-! ## Normal forms -/

theorem nfWithin_leftmostRun {contractions depth : Nat} {t u : Indexed ρ} {rs : List (Indexed ρ)}
    (h : nfWithin contractions depth t = ⟨rs, .ok u⟩) : LeftmostRun t rs u ∧ u.Normal := by
  induction depth generalizing t u rs with
  | zero => simp [nfWithin_zero, Reduction.fail] at h
  | succ depth ih =>
    simp only [nfWithin_succ, Reduction.bind_eq_andThen, Reduction.pure_eq_done] at h
    rcases Reduction.andThen_eq_ok h with ⟨rs₁, w, rs₂, hwhnf, hrest, rfl⟩
    rcases whnfFrom_leftmostRun hwhnf with ⟨new, hnew, hrun, hweak⟩
    obtain rfl : rs₁ = new := by simpa using hnew
    rw [rewind_nil] at hrun
    cases w with
    | lam body =>
      rcases Reduction.andThen_eq_ok hrest with ⟨rs₃, body', rs₄, hbody, hdone, rfl⟩
      rcases Reduction.done_eq_ok hdone with ⟨rfl, rfl⟩
      rcases ih hbody with ⟨hbodyRun, hnormal⟩
      rw [List.append_nil]
      exact ⟨hrun.trans hbodyRun.body, normal_lam.2 hnormal⟩
    | app fn arg =>
      -- The spine that is built again is neutral, and stays so while its parts are reduced.
      have hneutral : fn.Neutral := hweak.elim (fun ⟨_, hlam⟩ => nomatch hlam) id
      rcases Reduction.andThen_eq_ok hrest with ⟨rs₃, fn', rs₄, hfn, hrest', rfl⟩
      rcases Reduction.andThen_eq_ok hrest' with ⟨rs₅, arg', rs₆, harg, hdone, rfl⟩
      rcases Reduction.done_eq_ok hdone with ⟨rfl, rfl⟩
      rcases ih hfn with ⟨hfnRun, hfnNormal⟩
      rcases ih harg with ⟨hargRun, hargNormal⟩
      have hneutral' : fn'.Neutral := hfnRun.neutral hneutral
      rw [List.append_nil]
      refine ⟨hrun.trans ((hfnRun.fn arg hneutral).trans ?_), ?_⟩
      · exact hargRun.arg hneutral' hfnNormal
      · exact normal_app.2 ⟨hneutral'.ne_lam, hfnNormal, hargNormal⟩
    | var index =>
      rcases Reduction.done_eq_ok hrest with ⟨rfl, rfl⟩
      exact ⟨by simpa using hrun, normal_var index⟩
    | free name =>
      rcases Reduction.done_eq_ok hrest with ⟨rfl, rfl⟩
      exact ⟨by simpa using hrun, normal_free name⟩
    | leaf x =>
      rcases Reduction.done_eq_ok hrest with ⟨rfl, rfl⟩
      exact ⟨by simpa using hrun, normal_leaf x⟩

/-- A normal form is its own normal form, found without a contraction if it is not too high. -/
theorem nfWithin_of_normal {t : Indexed ρ} (h : t.Normal) (contractions : Nat) {depth : Nat}
    (hdepth : t.height ≤ depth) : nfWithin contractions depth t = .done t := by
  induction t generalizing depth with
  | lam body ih =>
    rcases Nat.exists_eq_add_of_le' (Nat.le_of_add_left_le hdepth) with ⟨depth, rfl⟩
    rw [nfWithin_succ, whnf_of_normal h]
    simp [ih (normal_lam.1 h) (Nat.le_of_succ_le_succ hdepth)]
  | app fn arg ihf iha =>
    rcases Nat.exists_eq_add_of_le' (Nat.le_of_add_left_le hdepth) with ⟨depth, rfl⟩
    rcases normal_app.1 h with ⟨_, hfn, harg⟩
    rcases Nat.max_le.1 (Nat.le_of_succ_le_succ hdepth) with ⟨hfnHeight, hargHeight⟩
    rw [nfWithin_succ, whnf_of_normal h]
    simp [ihf hfn hfnHeight, iha harg hargHeight]
  | _ =>
    rcases Nat.exists_eq_add_of_le' (show 1 ≤ depth from hdepth) with ⟨depth, rfl⟩
    rw [nfWithin_succ, whnf_of_normal h]
    rfl

/-- A result has no more levels than reduction may go down. -/
theorem height_le_of_nfWithin {contractions depth : Nat} {t u : Indexed ρ}
    {rs : List (Indexed ρ)} (h : nfWithin contractions depth t = ⟨rs, .ok u⟩) :
    u.height ≤ depth := by
  induction depth generalizing t u rs with
  | zero => simp [nfWithin_zero, Reduction.fail] at h
  | succ depth ih =>
    simp only [nfWithin_succ, Reduction.bind_eq_andThen, Reduction.pure_eq_done] at h
    rcases Reduction.andThen_eq_ok h with ⟨rs₁, w, rs₂, _, hrest, rfl⟩
    -- Each part of the result was found one level further down.
    cases w with
    | lam body =>
      rcases Reduction.andThen_eq_ok hrest with ⟨rs₃, body', rs₄, hbody, hdone, rfl⟩
      rcases Reduction.done_eq_ok hdone with ⟨rfl, rfl⟩
      exact Nat.succ_le_succ (ih hbody)
    | app fn arg =>
      rcases Reduction.andThen_eq_ok hrest with ⟨rs₃, fn', rs₄, hfn, hrest', rfl⟩
      rcases Reduction.andThen_eq_ok hrest' with ⟨rs₅, arg', rs₆, harg, hdone, rfl⟩
      rcases Reduction.done_eq_ok hdone with ⟨rfl, rfl⟩
      exact Nat.succ_le_succ (Nat.max_le.2 ⟨ih hfn, ih harg⟩)
    | _ =>
      rcases Reduction.done_eq_ok hrest with ⟨rfl, rfl⟩
      exact Nat.succ_le_succ (Nat.zero_le depth)

/-- A result is its own normal form, found without a contraction within the limits in which it was
found itself. -/
theorem nfWithin_result {contractions depth : Nat} {t u : Indexed ρ} {rs : List (Indexed ρ)}
    (h : nfWithin contractions depth t = ⟨rs, .ok u⟩) : nfWithin contractions depth u = .done u :=
  nfWithin_of_normal (nfWithin_leftmostRun h).2 contractions (height_le_of_nfWithin h)

/-- The result of a reduction is a normal form, and what is contracted on the way to it is what the
leftmost outermost strategy contracts, each redex once and in that order; a reporter counts them
all. A normal form is reduced to itself, without a contraction. -/
theorem nf_leftmost_outermost (t : Indexed ρ) :
    (∀ (limits : Limits) (u : Indexed ρ), (t.nf limits).result = .ok u →
      u.Normal ∧ LeftmostRun t (t.nf limits).redexes u ∧
        (∀ rs v, LeftmostRun t rs v → v.Normal → rs = (t.nf limits).redexes ∧ v = u) ∧
        ∀ (kind : String) (text : Indexed ρ → String) (reporter : Reporter),
          ((t.nf limits).redexes.foldl
            (fun reporter redex => reporter.step kind (text redex)) reporter).steps =
            reporter.steps + (t.nf limits).redexes.length) ∧
      (t.Normal → ∃ depth, ∀ limits : Limits, depth < limits.nesting → t.nf limits = .done t) := by
  constructor
  · intro limits u hu
    rcases nfWithin_leftmostRun (Reduction.eq_of_result hu) with ⟨hrun, hnormal⟩
    refine ⟨hnormal, hrun, ?_, ?_⟩
    · intro rs v hrun' hv
      exact hrun'.unique hv hrun hnormal
    · intro kind text reporter
      exact Reporter.steps_foldl_step kind text _ reporter
  · intro hnormal
    refine ⟨t.height, fun limits hlimits => ?_⟩
    exact nfWithin_of_normal hnormal limits.contractions (Nat.le_of_lt hlimits)

/-- `(λx.λy.x λz.z)` applied to a term without a normal form: the argument is dropped unreduced. -/
theorem nf_leftmost_outermost_drops_argument :
    let identity : Indexed Empty := lam (var 0)
    let double : Indexed Empty := lam (app (var 0) (var 0))
    let t := app (app (lam (lam (var 1))) identity) (app double double)
    (t.nf ⟨2, 2⟩).result = .ok identity ∧ identity.Normal ∧
      LeftmostRun t [app (lam (lam (var 1))) identity, app (lam identity) (app double double)]
        identity ∧
      ∃ depth, ∀ limits : Limits, depth < limits.nesting →
        identity.nf limits = .done identity := by
  intro identity double t
  have hnormal : identity.Normal := by decide
  have hresult : (t.nf ⟨2, 2⟩).result = .ok identity := rfl
  have hrun := ((nf_leftmost_outermost t).1 ⟨2, 2⟩ identity hresult).2.1
  exact ⟨hresult, hnormal, hrun, (nf_leftmost_outermost identity).2 hnormal⟩

end Indexed
end Nameless
