import Nameless.Proofs.Indexed.NormalOrder

/-!
# Weak head normal forms by call-by-name evaluation

`whnf` keeps the arguments that still wait in a list: it takes them off the spine of a term, hands
them to abstractions one by one, and applies the last head to those that are left. Evaluation by
name says the same without a list, by recursion over applications: an application is evaluated by
evaluating its function and, if that comes to an abstraction, going on with the body.

The two are compared with the arguments as a parameter. Evaluating a term while arguments wait leads
to its value with the same arguments waiting, and a head with its arguments is one whole term.

This file defines:
- `Indexed.CallByName`: evaluation by name, with the list of the redexes,
- `Indexed.HeadRun`: contracting redexes at the head one after the other.

Main statements:
- `Indexed.CallByName.whnfFrom_eq`: what waits is still there when the value is reached,
- `Indexed.callByName_iff_headRun`: evaluation contracts at the head and nowhere else,
- `Indexed.whnf_agrees_callByName`: `whnf` is evaluation by name.
-/

namespace Nameless
namespace Indexed

/-- Evaluation by name: the term, the redexes that are contracted on the way, and its value. -/
inductive CallByName : Indexed Empty → List (Indexed Empty) → Indexed Empty → Prop where
  | lam (body : Indexed Empty) : CallByName (lam body) [] (lam body)
  | var (index : Nat) : CallByName (var index) [] (var index)
  | free (name : String) : CallByName (free name) [] (free name)
  /-- The function comes to an abstraction, which takes the argument as it is. -/
  | contract {fn arg body u : Indexed Empty} {rs rs' : List (Indexed Empty)} :
      CallByName fn rs (lam body) → CallByName (body.substitute 0 arg) rs' u →
        CallByName (app fn arg) (rs ++ app (lam body) arg :: rs') u
  /-- The function comes to something else, and the argument stays as it is. -/
  | stuck {fn fn' : Indexed Empty} {rs : List (Indexed Empty)} (arg : Indexed Empty) :
      CallByName fn rs fn' → (∀ body, fn' ≠ lam body) → CallByName (app fn arg) rs (app fn' arg)

/-! ## Contracting at the head -/

/-- Contracting redexes one after the other, each at the head: its place is reached from the root by
going to functions only, never under an abstraction or into an argument. -/
inductive HeadRun : Indexed Empty → List (Indexed Empty) → Indexed Empty → Prop where
  | done (t : Indexed Empty) : HeadRun t [] t
  | step {t r u v : Indexed Empty} {rs : List (Indexed Empty)} (arguments : Nat) :
      ContractsAt t (List.replicate arguments .fn) r u → HeadRun u rs v → HeadRun t (r :: rs) v

namespace HeadRun

theorem trans {t u v : Indexed Empty} {rs rs' : List (Indexed Empty)} (h : HeadRun t rs u)
    (h' : HeadRun u rs' v) : HeadRun t (rs ++ rs') v := by
  induction h with
  | done t => exact h'
  | step arguments hstep _ ih => exact .step arguments hstep (ih h')

theorem fn {f f' : Indexed Empty} {rs : List (Indexed Empty)} (a : Indexed Empty)
    (h : HeadRun f rs f') : HeadRun (app f a) rs (app f' a) := by
  induction h with
  | done f => exact .done (app f a)
  | step arguments hstep _ ih => exact .step (arguments + 1) (.fn a hstep) ih

end HeadRun

/-- The head of a spine is below as many functions as there are arguments. -/
theorem contractsAt_rewind (body arg : Indexed Empty) (args : List (Indexed Empty)) :
    ContractsAt ((app (lam body) arg).rewind args) (List.replicate args.length .fn)
      (app (lam body) arg) ((body.contract arg).rewind args) := by
  -- Each argument puts the redex one function deeper, so how deep it is already is kept general.
  suffices h : ∀ (f f' : Indexed Empty) (k : Nat),
      ContractsAt f (List.replicate k .fn) (app (lam body) arg) f' →
        ContractsAt (f.rewind args) (List.replicate (k + args.length) .fn)
          (app (lam body) arg) (f'.rewind args) by
    simpa using h _ _ 0 (.here body arg)
  induction args with
  | nil => exact fun f f' k h => h
  | cons a args ih =>
    intro f f' k h
    have hfn := ih (app f a) (app f' a) (k + 1) (.fn a h)
    rwa [Nat.add_assoc, Nat.add_comm 1] at hfn

/-! ## Values -/

theorem rewind_concat (head arg : Indexed Empty) (args : List (Indexed Empty)) :
    head.rewind (args ++ [arg]) = app (head.rewind args) arg := by
  simp [rewind]

theorem Neutral.exists_head {u : Indexed Empty} (h : u.Neutral) :
    ∃ head args, ((∃ index, head = var index) ∨ ∃ name, head = free name) ∧
      u = head.rewind args := by
  induction u with
  | lam body => exact h.elim
  | app fn arg ihf _ =>
    rcases ihf h with ⟨head, args, hhead, rfl⟩
    exact ⟨head, args ++ [arg], hhead, (rewind_concat head arg args).symm⟩
  | var index => exact ⟨_, [], .inl ⟨index, rfl⟩, rfl⟩
  | free name => exact ⟨_, [], .inr ⟨name, rfl⟩, rfl⟩
  | leaf x => exact x.elim

namespace CallByName

theorem weakNormal {t u : Indexed Empty} {rs : List (Indexed Empty)} (h : CallByName t rs u) :
    u.WeakNormal := by
  induction h with
  | lam body => exact .inl ⟨body, rfl⟩
  | var index => exact .inr trivial
  | free name => exact .inr trivial
  | contract _ _ _ ih => exact ih
  | stuck arg _ hne ih =>
    rcases ih with ⟨body, hbody⟩ | hneutral
    · exact absurd hbody (hne body)
    · exact .inr hneutral

theorem headRun {t u : Indexed Empty} {rs : List (Indexed Empty)} (h : CallByName t rs u) :
    HeadRun t rs u := by
  induction h with
  | lam body => exact .done _
  | var index => exact .done _
  | free name => exact .done _
  | contract _ _ ihf ihb => exact (ihf.fn _).trans (.step 0 (.here _ _) ihb)
  | stuck arg _ _ ih => exact ih.fn arg

/-- What needs no contraction is its own value. -/
theorem of_weakNormal {t : Indexed Empty} (h : t.WeakNormal) : CallByName t [] t := by
  induction t with
  | lam body => exact .lam body
  | app fn arg ihf _ =>
    have hneutral : fn.Neutral := h.elim (fun ⟨_, hlam⟩ => nomatch hlam) id
    exact .stuck arg (ihf (.inr hneutral)) hneutral.ne_lam
  | var index => exact .var index
  | free name => exact .free name
  | leaf x => exact x.elim

/-- A contraction at the head may be put in front. -/
theorem of_contractsAt {arguments : Nat} {t r t' u : Indexed Empty} {rs : List (Indexed Empty)}
    (hstep : ContractsAt t (List.replicate arguments .fn) r t') (h : CallByName t' rs u) :
    CallByName t (r :: rs) u := by
  -- Going up from the redex, each function has the value that it had after the contraction.
  induction arguments generalizing t t' rs u with
  | zero =>
    cases hstep with
    | here body arg => exact .contract (.lam body) h
  | succ arguments ih =>
    cases hstep with
    | fn a hfn =>
      cases h with
      | contract hvalue hbody => exact .contract (ih hfn hvalue) hbody
      | stuck _ hvalue hne => exact .stuck a (ih hfn hvalue) hne

end CallByName

/-- Evaluation by name is contracting at the head for as long as that is possible. -/
theorem callByName_iff_headRun {t u : Indexed Empty} {rs : List (Indexed Empty)} :
    CallByName t rs u ↔ HeadRun t rs u ∧ u.WeakNormal := by
  constructor
  · exact fun h => ⟨h.headRun, h.weakNormal⟩
  · rintro ⟨hrun, hweak⟩
    induction hrun with
    | done t => exact .of_weakNormal hweak
    | step arguments hstep _ ih => exact .of_contractsAt hstep (ih hweak)

/-! ## Waiting arguments -/

/-- A term applied to arguments is reduced as the term is while they wait. -/
theorem whnfFrom_rewind (contractions : Nat) (seen : List (Indexed Empty)) (t : Indexed Empty)
    (args : List (Indexed Empty)) :
    whnfFrom contract? contractions seen (t.rewind args) [] =
      whnfFrom contract? contractions seen t args := by
  -- The arguments of the spine go in front of those that wait already.
  suffices h : ∀ more, whnfFrom contract? contractions seen (t.rewind args) more =
      whnfFrom contract? contractions seen t (args ++ more) by
    simpa using h []
  induction args generalizing t with
  | nil => exact fun more => rfl
  | cons arg args ih =>
    intro more
    rw [rewind_cons, ih, whnfFrom_app, List.cons_append]

/-- A whole term is done, or an abstraction with an argument is at its head. -/
theorem weakNormal_or_rewind (t : Indexed Empty) :
    t.WeakNormal ∨ ∃ body arg args, t = (app (lam body) arg).rewind args := by
  rcases whnfFrom_cases t [] with ⟨hweak, _⟩ | ⟨body, arg, args, hterm, _⟩
  · exact .inl hweak
  · exact .inr ⟨body, arg, args, hterm⟩

theorem whnfFrom_redex (contractions : Nat) (seen : List (Indexed Empty)) (body arg : Indexed Empty)
    (args : List (Indexed Empty)) :
    whnfFrom contract? (contractions + 1) seen ((app (lam body) arg).rewind args) [] =
      whnfFrom contract? contractions (app (lam body) arg :: seen)
        ((body.contract arg).rewind args) [] := by
  rw [whnfFrom_rewind, whnfFrom_app, whnfFrom_lam_cons, contract?_empty, whnfFrom_rewind]

theorem whnfFrom_redex_zero (seen : List (Indexed Empty)) (body arg : Indexed Empty)
    (args : List (Indexed Empty)) :
    whnfFrom contract? 0 seen ((app (lam body) arg).rewind args) [] =
      ⟨seen.reverse, .error .tooDeep⟩ := by
  rw [whnfFrom_rewind, whnfFrom_app]
  simp [whnfFrom, unwind]

/-- The redexes that were seen before are put in front and change nothing else. -/
theorem whnfFrom_seen (contractions : Nat) (seen : List (Indexed Empty)) (t : Indexed Empty) :
    whnfFrom contract? contractions seen t [] =
      ⟨seen.reverse ++ (t.whnf contractions).redexes, (t.whnf contractions).result⟩ := by
  unfold whnf
  induction contractions generalizing seen t with
  | zero =>
    rcases weakNormal_or_rewind t with hweak | ⟨body, arg, args, rfl⟩
    · simp [whnfFrom_of_weakNormal hweak]
    · simp [whnfFrom_redex_zero]
  | succ contractions ih =>
    rcases weakNormal_or_rewind t with hweak | ⟨body, arg, args, rfl⟩
    · simp [whnfFrom_of_weakNormal hweak]
    · rw [whnfFrom_redex, whnfFrom_redex, ih, ih [_]]
      simp

/-- One contraction at the head of a whole term. -/
theorem whnf_redex (contractions : Nat) (body arg : Indexed Empty) (args : List (Indexed Empty)) :
    ((app (lam body) arg).rewind args).whnf (contractions + 1) =
      ⟨app (lam body) arg :: (((body.contract arg).rewind args).whnf contractions).redexes,
        (((body.contract arg).rewind args).whnf contractions).result⟩ := by
  rw [whnf, whnfFrom_redex, whnfFrom_seen]
  rfl

theorem headRun_of_whnf {contractions : Nat} {t u : Indexed Empty} {rs : List (Indexed Empty)}
    (h : t.whnf contractions = ⟨rs, .ok u⟩) :
    HeadRun t rs u ∧ u.WeakNormal ∧ rs.length ≤ contractions := by
  induction contractions generalizing t rs with
  | zero =>
    rcases weakNormal_or_rewind t with hweak | ⟨body, arg, args, rfl⟩
    · rcases Reduction.done_eq_ok ((whnfFrom_of_weakNormal hweak 0 []).symm.trans h) with ⟨rfl, rfl⟩
      exact ⟨.done _, hweak, Nat.le_refl 0⟩
    · rw [whnf, whnfFrom_redex_zero] at h
      cases h
  | succ contractions ih =>
    rcases weakNormal_or_rewind t with hweak | ⟨body, arg, args, rfl⟩
    · rcases Reduction.done_eq_ok ((whnfFrom_of_weakNormal hweak _ []).symm.trans h) with ⟨rfl, rfl⟩
      exact ⟨.done _, hweak, Nat.zero_le _⟩
    · rw [whnf_redex, Reduction.mk.injEq] at h
      rcases h with ⟨rfl, hresult⟩
      rcases ih (Reduction.eq_of_result hresult) with ⟨hrun, hweak, hlength⟩
      exact ⟨.step _ (contractsAt_rewind body arg args) hrun, hweak, Nat.succ_le_succ hlength⟩

namespace CallByName

/-- When the value is reached, the arguments that waited are waiting still, in the same order. -/
theorem whnfFrom_eq {t u : Indexed Empty} {rs : List (Indexed Empty)} (h : CallByName t rs u)
    (contractions : Nat) (seen args : List (Indexed Empty)) :
    whnfFrom contract? (contractions + rs.length) seen t args =
      whnfFrom contract? contractions (rs.reverse ++ seen) u args := by
  induction h generalizing contractions seen args with
  | lam body => rfl
  | var index => rfl
  | free name => rfl
  | @contract fn arg body u rs rs' _ _ ihf ihb =>
    -- The argument joins those that wait while the function is evaluated, and is taken back after.
    have hlength : contractions + (rs ++ app (.lam body) arg :: rs').length =
        contractions + rs'.length + 1 + rs.length := by
      simp only [List.length_append, List.length_cons]
      omega
    calc whnfFrom contract? (contractions + (rs ++ app (.lam body) arg :: rs').length) seen
            (app fn arg) args
        = whnfFrom contract? (contractions + rs'.length + 1 + rs.length) seen fn (arg :: args) := by
          rw [hlength, whnfFrom_app]
      _ = whnfFrom contract? (contractions + rs'.length + 1) (rs.reverse ++ seen) (.lam body)
            (arg :: args) := ihf _ _ _
      _ = whnfFrom contract? (contractions + rs'.length)
            (app (.lam body) arg :: (rs.reverse ++ seen)) (body.contract arg) args := by
          rw [whnfFrom_lam_cons, contract?_empty]
      _ = whnfFrom contract? contractions
            (rs'.reverse ++ app (.lam body) arg :: (rs.reverse ++ seen)) u args := ihb _ _ _
      _ = whnfFrom contract? contractions ((rs ++ app (.lam body) arg :: rs').reverse ++ seen) u
            args := by simp
  | stuck arg _ _ ih => rw [whnfFrom_app, ih, whnfFrom_app]

end CallByName

theorem whnf_eq_ok_iff {contractions : Nat} {t u : Indexed Empty} {rs : List (Indexed Empty)} :
    t.whnf contractions = ⟨rs, .ok u⟩ ↔ CallByName t rs u ∧ rs.length ≤ contractions := by
  constructor
  · intro h
    rcases headRun_of_whnf h with ⟨hrun, hweak, hlength⟩
    exact ⟨callByName_iff_headRun.2 ⟨hrun, hweak⟩, hlength⟩
  · rintro ⟨h, hlength⟩
    rcases Nat.exists_eq_add_of_le' hlength with ⟨contractions, rfl⟩
    rw [whnf, h.whnfFrom_eq, whnfFrom_of_weakNormal h.weakNormal]
    simp

/-- Reduction to weak head normal form comes to a result just where evaluation by name does, with
that value and with those redexes, if as many contractions are allowed. The value is an abstraction,
or a variable applied to arguments. Every contraction is at the head, and arguments that wait behind
a term are waiting in the same order behind its value. -/
theorem whnf_agrees_callByName (t : Indexed Empty) (rs : List (Indexed Empty)) (u : Indexed Empty) :
    ((∃ contractions, t.whnf contractions = ⟨rs, .ok u⟩) ↔ CallByName t rs u) ∧
      (∀ contractions, t.whnf contractions = ⟨rs, .ok u⟩ ↔
        CallByName t rs u ∧ rs.length ≤ contractions) ∧
      (CallByName t rs u →
        ((∃ body, u = lam body) ∨ ∃ head args,
          ((∃ index, head = var index) ∨ ∃ name, head = free name) ∧ u = head.rewind args) ∧
        HeadRun t rs u ∧
        ∀ contractions args, (t.rewind args).whnf (contractions + rs.length) =
          ⟨rs ++ ((u.rewind args).whnf contractions).redexes,
            ((u.rewind args).whnf contractions).result⟩) := by
  refine ⟨?_, fun _ => whnf_eq_ok_iff, ?_⟩
  · constructor
    · rintro ⟨contractions, h⟩
      exact (whnf_eq_ok_iff.1 h).1
    · exact fun h => ⟨rs.length, whnf_eq_ok_iff.2 ⟨h, Nat.le_refl _⟩⟩
  · intro h
    refine ⟨h.weakNormal.imp_right Neutral.exists_head, h.headRun, ?_⟩
    intro contractions args
    calc (t.rewind args).whnf (contractions + rs.length)
        = whnfFrom contract? (contractions + rs.length) [] t args := whnfFrom_rewind _ _ _ _
      _ = whnfFrom contract? contractions (rs.reverse ++ []) u args := h.whnfFrom_eq _ _ _
      _ = whnfFrom contract? contractions rs.reverse (u.rewind args) [] := by
          rw [List.append_nil, whnfFrom_rewind]
      _ = _ := by rw [whnfFrom_seen, List.reverse_reverse]

/-- `λx.λy.(y x)` applied to `z`, to `w` and to a term without a normal form: the first two
arguments are taken one by one, and the last one waits to the end and is left as it is. -/
theorem whnf_agrees_callByName_last_argument :
    let double : Indexed Empty := lam (app (var 0) (var 0))
    let swap : Indexed Empty := lam (lam (app (var 0) (var 1)))
    let swapped : Indexed Empty := lam (app (var 0) (free "z"))
    let t := app (app swap (free "z")) (free "w")
    let rs := [app swap (free "z"), app swapped (free "w")]
    let u : Indexed Empty := app (free "w") (free "z")
    t.whnf 2 = ⟨rs, .ok u⟩ ∧ CallByName t rs u ∧ HeadRun t rs u ∧
      (app t (app double double)).whnf 3 = ⟨rs, .ok (app u (app double double))⟩ := by
  intro double swap swapped t rs u
  have hwhnf : t.whnf 2 = ⟨rs, .ok u⟩ := rfl
  rcases whnf_agrees_callByName t rs u with ⟨hiff, _, hvalue⟩
  have hname : CallByName t rs u := hiff.1 ⟨2, hwhnf⟩
  rcases hvalue hname with ⟨_, hrun, hwaiting⟩
  exact ⟨hwhnf, hname, hrun, hwaiting 1 [app double double]⟩

end Indexed
end Nameless
