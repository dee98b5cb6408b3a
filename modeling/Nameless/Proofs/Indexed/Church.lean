import Nameless.Proofs.Indexed.Beta
import Nameless.Proofs.Indexed.SubstitutionLaws

/-!
# Arithmetic of nameless numerals

The numeral of `n` applies its first argument `n` times to its second one. Iteration passes through
shifts and substitutions, so a numeral that is given its arguments becomes an iteration of the one
on the other. From this the usual successor, sum and product are seen to compute what they should:
an iteration after an iteration is one of the sum of the two numbers, and an iteration of an
iteration is one of their product.

This file defines:
- `Indexed.iterate`, `Indexed.numeral`: iteration and numerals,
- `Indexed.successor`, `Indexed.sum`, `Indexed.product`: the operations as terms.

Main statements:
- `Indexed.betas_numeral`: a numeral with its arguments,
- `Indexed.betas_iterate`: an iteration of an iteration,
- `Indexed.betas_successor`, `Indexed.betas_sum`, `Indexed.betas_product`: what the operations make
  of numerals.
-/

namespace Nameless
namespace Indexed

open Relation (ReflTransGen)

variable {ρ : Type}

/-! ## Contractions in a part of a term -/

theorem Beta.of_contract {body arg u : Indexed ρ} (h : body.contract arg = u) :
    Beta (app (lam body) arg) u := by
  subst h
  exact ⟨[], _, .here body arg⟩

theorem betas_lam {b b' : Indexed ρ} (h : ReflTransGen Beta b b') :
    ReflTransGen Beta (lam b) (lam b') :=
  h.lift lam fun _ _ ⟨p, r, hstep⟩ => ⟨.body :: p, r, .body hstep⟩

theorem betas_app {f f' a a' : Indexed ρ} (hf : ReflTransGen Beta f f')
    (ha : ReflTransGen Beta a a') : ReflTransGen Beta (app f a) (app f' a') := by
  have hfn : ReflTransGen Beta (app f a) (app f' a) :=
    hf.lift (app · a) fun _ _ ⟨p, r, hstep⟩ => ⟨.fn :: p, r, .fn a hstep⟩
  have harg : ReflTransGen Beta (app f' a) (app f' a') :=
    ha.lift (app f') fun _ _ ⟨p, r, hstep⟩ => ⟨.arg :: p, r, .arg f' hstep⟩
  exact hfn.trans harg

/-- A function of two arguments takes the one and then the other. -/
theorem betas_app_app {f g a b u : Indexed ρ} (hfirst : Beta (app f a) g)
    (hsecond : Beta (app g b) u) : ReflTransGen Beta (app (app f a) b) u :=
  (betas_app (.single hfirst) .refl).tail hsecond

/-! ## Iteration -/

/-- A term applied a number of times to another one. -/
def iterate (f t : Indexed ρ) : Nat → Indexed ρ
  | 0 => t
  | n + 1 => app f (iterate f t n)

/-- The numeral of a number. -/
def numeral (n : Nat) : Indexed ρ :=
  lam (lam (iterate (var 1) (var 0) n))

theorem iterate_iterate (f t : Indexed ρ) (m n : Nat) :
    iterate f (iterate f t n) m = iterate f t (m + n) := by
  induction m with
  | zero => rw [Nat.zero_add]; rfl
  | succ m ih => rw [Nat.succ_add, iterate, iterate, ih]

theorem shift_iterate (cutoff : Int) (f t : Indexed ρ) (n : Nat) :
    (iterate f t n).shift cutoff = iterate (f.shift cutoff) (t.shift cutoff) n := by
  induction n with
  | zero => rfl
  | succ n ih => rw [iterate, shift, ih, iterate]

theorem substitute_iterate (index : Int) (f t a : Indexed ρ) (n : Nat) :
    (iterate f t n).substitute index a =
      iterate (f.substitute index a) (t.substitute index a) n := by
  induction n with
  | zero => rfl
  | succ n ih => rw [iterate, substitute, ih, iterate]

/-- Nothing in a numeral refers to a binder around it. -/
@[simp] theorem shift_numeral {cutoff : Int} (h : 0 ≤ cutoff) (n : Nat) :
    (numeral n : Indexed ρ).shift cutoff = numeral n := by
  -- Under its two binders the cutoff is beyond both of the variables.
  have hone : (var 1 : Indexed ρ).shift (cutoff + 1 + 1) = var 1 := shift_var_of_lt (by omega)
  have hzero : (var 0 : Indexed ρ).shift (cutoff + 1 + 1) = var 0 := shift_var_of_lt (by omega)
  rw [numeral, shift, shift, shift_iterate, hone, hzero]

@[simp] theorem substitute_numeral {index : Int} (h : 0 ≤ index) (n : Nat) (a : Indexed ρ) :
    (numeral n : Indexed ρ).substitute index a = numeral n := by
  have hone (b : Indexed ρ) : (var 1 : Indexed ρ).substitute (index + 1 + 1) b = var 1 :=
    substitute_var_of_gt (by omega) b
  have hzero (b : Indexed ρ) : (var 0 : Indexed ρ).substitute (index + 1 + 1) b = var 0 :=
    substitute_var_of_gt (by omega) b
  rw [numeral, substitute, substitute, substitute_iterate, hone, hzero]

@[simp] theorem freeNames_numeral (n : Nat) : (numeral n : Indexed ρ).freeNames = [] := by
  have hiterate : (iterate (var 1) (var 0) n : Indexed ρ).freeNames = [] := by
    induction n with
    | zero => rfl
    | succ n ih => rw [iterate, freeNames, ih]; rfl
  exact hiterate

theorem normal_numeral (n : Nat) : (numeral n : Indexed ρ).Normal := by
  have hiterate : (iterate (var 1) (var 0) n : Indexed ρ).Normal := by
    induction n with
    | zero => exact normal_var 0
    | succ n ih => exact normal_app.2 ⟨by simp, normal_var 1, ih⟩
  exact normal_lam.2 (normal_lam.2 hiterate)

/-! ## Numerals with their arguments -/

theorem contract_numeral (n : Nat) (f : Indexed ρ) :
    (lam (iterate (var 1) (var 0) n)).contract f = lam (iterate (f.shift 0) (var 0) n) := by
  rw [contract, substitute, substitute_iterate]
  rfl

/-- A numeral with two arguments applies the first one to the second one as often as it says. -/
theorem betas_numeral (n : Nat) (f t : Indexed ρ) :
    ReflTransGen Beta (app (app (numeral n) f) t) (iterate f t n) := by
  have hfirst : Beta (app (numeral n) f) (lam (iterate (f.shift 0) (var 0) n)) :=
    .of_contract (contract_numeral n f)
  have hsecond : Beta (app (lam (iterate (f.shift 0) (var 0) n)) t) (iterate f t n) := by
    apply Beta.of_contract
    rw [contract, substitute_iterate, substitute_shift]
    rfl
  exact betas_app_app hfirst hsecond

/-- If each application of a term comes to `n` applications of another one, then `m` of them come to
`m * n`. -/
theorem betas_iterate {f g : Indexed ρ} {n : Nat}
    (h : ∀ t, ReflTransGen Beta (app g t) (iterate f t n)) (t : Indexed ρ) (m : Nat) :
    ReflTransGen Beta (iterate g t m) (iterate f t (m * n)) := by
  induction m with
  | zero => rw [Nat.zero_mul]; exact .refl
  | succ m ih =>
    -- The last application goes on from where the ones inside it have led.
    have hinner : ReflTransGen Beta (app g (iterate g t m)) (app g (iterate f t (m * n))) :=
      betas_app .refl ih
    have houter := h (iterate f t (m * n))
    rw [iterate_iterate, Nat.add_comm, ← Nat.succ_mul] at houter
    exact hinner.trans houter

/-! ## Operations -/

/-- The number after a number: `λn.λf.λx.(f ((n f) x))`. -/
def successor : Indexed ρ :=
  lam (lam (lam (app (var 1) (app (app (var 2) (var 1)) (var 0)))))

/-- The sum of two numbers: `λm.λn.λf.λx.((m f) ((n f) x))`. -/
def sum : Indexed ρ :=
  lam (lam (lam (lam (app (app (var 3) (var 1)) (app (app (var 2) (var 1)) (var 0))))))

/-- The product of two numbers: `λm.λn.λf.(m (n f))`. -/
def product : Indexed ρ :=
  lam (lam (lam (app (var 2) (app (var 1) (var 0)))))

theorem betas_successor (n : Nat) :
    ReflTransGen Beta (app successor (numeral n) : Indexed ρ) (numeral (n + 1)) := by
  have hcontract : Beta (app successor (numeral n) : Indexed ρ)
      (lam (lam (app (var 1) (app (app (numeral n) (var 1)) (var 0))))) := by
    apply Beta.of_contract
    simp [contract, substitute]
  have hbody : ReflTransGen Beta (app (var 1) (app (app (numeral n) (var 1)) (var 0)))
      (iterate (var 1) (var 0 : Indexed ρ) (n + 1)) :=
    betas_app .refl (betas_numeral n (var 1) (var 0))
  exact .head hcontract (betas_lam (betas_lam hbody))

theorem betas_sum (m n : Nat) :
    ReflTransGen Beta (app (app sum (numeral m)) (numeral n) : Indexed ρ) (numeral (m + n)) := by
  let second : Indexed ρ := app (app (numeral n) (var 1)) (var 0)
  have hfirst : Beta (app sum (numeral m) : Indexed ρ)
      (lam (lam (lam (app (app (numeral m) (var 1)) (app (app (var 2) (var 1)) (var 0)))))) := by
    apply Beta.of_contract
    simp [contract, substitute]
  have hsecond : Beta (app (lam (lam (lam (app (app (numeral m) (var 1))
      (app (app (var 2) (var 1)) (var 0)))))) (numeral n))
      (lam (lam (app (app (numeral m) (var 1)) second))) := by
    apply Beta.of_contract
    simp [contract, substitute, second]
  -- The numeral of `m` goes on where that of `n` has ended.
  have hbody : ReflTransGen Beta (app (app (numeral m) (var 1)) second)
      (iterate (var 1) (var 0) (m + n)) := by
    have hinner : ReflTransGen Beta second (iterate (var 1) (var 0) n) :=
      betas_numeral n (var 1) (var 0)
    have houter : ReflTransGen Beta (app (app (numeral m) (var 1)) (iterate (var 1) (var 0) n))
        (iterate (var 1) (var 0 : Indexed ρ) (m + n)) :=
      iterate_iterate (var 1) (var 0 : Indexed ρ) m n ▸ betas_numeral m (var 1) _
    exact (betas_app .refl hinner).trans houter
  exact (betas_app_app hfirst hsecond).trans (betas_lam (betas_lam hbody))

theorem betas_product (m n : Nat) :
    ReflTransGen Beta (app (app product (numeral m)) (numeral n) : Indexed ρ)
      (numeral (m * n)) := by
  have hfirst : Beta (app product (numeral m) : Indexed ρ)
      (lam (lam (app (numeral m) (app (var 1) (var 0))))) := by
    apply Beta.of_contract
    simp [contract, substitute]
  have hsecond : Beta (app (lam (lam (app (numeral m) (app (var 1) (var 0))))) (numeral n))
      (lam (app (numeral m) (app (numeral n) (var 0) : Indexed ρ))) := by
    apply Beta.of_contract
    simp [contract, substitute]
  -- The numeral of `m` iterates what the numeral of `n` makes of the first argument.
  have hthird : Beta (app (numeral m) (app (numeral n) (var 0)))
      (lam (iterate (app (numeral n) (var 1)) (var 0 : Indexed ρ) m)) := by
    apply Beta.of_contract
    rw [contract_numeral]
    simp [shift]
  have hbody : ReflTransGen Beta (iterate (app (numeral n) (var 1)) (var 0 : Indexed ρ) m)
      (iterate (var 1) (var 0) (m * n)) :=
    betas_iterate (betas_numeral n (var 1)) (var 0) m
  have hresult : ReflTransGen Beta (app (numeral m) (app (numeral n) (var 0 : Indexed ρ)))
      (lam (iterate (var 1) (var 0) (m * n))) :=
    .head hthird (betas_lam hbody)
  exact (betas_app_app hfirst hsecond).trans (betas_lam hresult)

end Indexed
end Nameless
