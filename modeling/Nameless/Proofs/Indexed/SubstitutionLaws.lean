import Nameless.Indexed.Substitution

/-!
# Laws of shifting and substitution

How moving a term under a binder and putting a term in the place of a variable pass over each
other. The two indices involved are kept in order by a hypothesis, and they move together under a
binder, so every law is an induction on the term whose only work is at the variables.

Main statements:
- `Indexed.shift_shift`: two shifts in either order,
- `Indexed.substitute_shift`: a shift opens a gap, and a substitution there closes it,
- `Indexed.shift_substitute_of_le`, `Indexed.shift_substitute_of_ge`: a shift past a substitution,
- `Indexed.substitute_substitute`: two substitutions in either order,
- `Indexed.substitution_algebra`: the laws for computations that may be refused.
-/

namespace Nameless
namespace Indexed

variable {ρ : Type}

/-! ## Variables -/

theorem shift_var_of_le {i : Int} {n : Nat} (h : i ≤ n) :
    (var n : Indexed ρ).shift i = var (n + 1) := by
  simp [shift, h]

theorem shift_var_of_lt {i : Int} {n : Nat} (h : (n : Int) < i) :
    (var n : Indexed ρ).shift i = var n := by
  simp [shift, Int.not_le.2 h]

theorem substitute_var_self (n : Nat) (a : Indexed ρ) : (var n).substitute n a = a := by
  simp [substitute]

theorem substitute_var_of_lt {i : Int} {n : Nat} (h : i < n) (a : Indexed ρ) :
    (var n).substitute i a = var (n - 1) := by
  simp [substitute, h, Int.ne_of_gt h]

theorem substitute_var_of_gt {i : Int} {n : Nat} (h : (n : Int) < i) (a : Indexed ρ) :
    (var n).substitute i a = var n := by
  simp [substitute, Int.ne_of_lt h, Int.not_lt.2 (Int.le_of_lt h)]

/-! ## The laws -/

theorem shift_shift {i j : Int} (h : i ≤ j) (t : Indexed ρ) :
    (t.shift j).shift i = (t.shift i).shift (j + 1) := by
  induction t generalizing i j with
  | lam body ih =>
    have hbody := ih (show i + 1 ≤ j + 1 by omega)
    simp only [shift, hbody]
  | app fn arg ihf iha => simp only [shift, ihf h, iha h]
  | var n => grind [shift]
  | free name => rfl
  | leaf x => rfl

/-- A substitution at the gap that a shift has opened finds nothing to replace. -/
@[simp] theorem substitute_shift (i : Int) (t a : Indexed ρ) : (t.shift i).substitute i a = t := by
  induction t generalizing i a with
  | lam body ih => simp only [shift, substitute, ih]
  | app fn arg ihf iha => simp only [shift, substitute, ihf, iha]
  | var n => grind [shift, substitute]
  | free name => rfl
  | leaf x => rfl

/-- Putting the innermost variable in the place of the one behind it undoes moving all the others
under the binder. -/
theorem substitute_shift_succ_var (n : Nat) (t : Indexed ρ) :
    (t.shift (n + 1)).substitute n (var n) = t := by
  induction t generalizing n with
  | lam body ih =>
    have hvar : (var n : Indexed ρ).shift 0 = var (n + 1) := shift_var_of_le (by omega)
    have hbody := ih (n + 1)
    push_cast at hbody
    rw [shift, substitute, hvar, hbody]
  | app fn arg ihf iha => simp only [shift, substitute, ihf, iha]
  | var m => grind [shift, substitute]
  | free name => rfl
  | leaf x => rfl

theorem shift_substitute_of_le {i j : Int} (hi : 0 ≤ i) (h : i ≤ j) (t a : Indexed ρ) :
    (t.substitute i a).shift j = (t.shift (j + 1)).substitute i (a.shift j) := by
  induction t generalizing i j a with
  | lam body ih =>
    have hbody := ih (show 0 ≤ i + 1 by omega) (show i + 1 ≤ j + 1 by omega) (a.shift 0)
    have harg : (a.shift j).shift 0 = (a.shift 0).shift (j + 1) := shift_shift (by omega) a
    simp only [shift, substitute, hbody, harg]
  | app fn arg ihf iha => simp only [shift, substitute, ihf hi h, iha hi h]
  | var n => grind [shift, substitute]
  | free name => rfl
  | leaf x => rfl

theorem shift_substitute_of_ge {i j : Int} (hj : 0 ≤ j) (h : j ≤ i) (t a : Indexed ρ) :
    (t.substitute i a).shift j = (t.shift j).substitute (i + 1) (a.shift j) := by
  induction t generalizing i j a with
  | lam body ih =>
    have hbody := ih (show 0 ≤ j + 1 by omega) (show j + 1 ≤ i + 1 by omega) (a.shift 0)
    have harg : (a.shift j).shift 0 = (a.shift 0).shift (j + 1) := shift_shift hj a
    simp only [shift, substitute, hbody, harg]
  | app fn arg ihf iha => simp only [shift, substitute, ihf hj h, iha hj h]
  | var n => grind [shift, substitute]
  | free name => rfl
  | leaf x => rfl

/-- Of two substitutions the outer one may go first, if it is made in the replacement of the inner
one as well. -/
theorem substitute_substitute {i j : Int} (hi : 0 ≤ i) (h : i ≤ j) (t a b : Indexed ρ) :
    (t.substitute i a).substitute j b =
      (t.substitute (j + 1) (b.shift i)).substitute i (a.substitute j b) := by
  induction t generalizing i j a b with
  | lam body ih =>
    have hbody :=
      ih (show 0 ≤ i + 1 by omega) (show i + 1 ≤ j + 1 by omega) (a.shift 0) (b.shift 0)
    have hb : (b.shift i).shift 0 = (b.shift 0).shift (i + 1) := shift_shift hi b
    have ha : (a.substitute j b).shift 0 = (a.shift 0).substitute (j + 1) (b.shift 0) :=
      shift_substitute_of_ge (Int.le_refl 0) (by omega) a b
    simp only [substitute, hbody, hb, ha]
  | app fn arg ihf iha => simp only [substitute, ihf hi h, iha hi h]
  | var n =>
    -- Only the variable `j + 1` brings in the shifted replacement, and there its gap is closed.
    by_cases hn : (n : Int) = j + 1
    · have hpred : ((n - 1 : Nat) : Int) = j := by omega
      rw [substitute_var_of_lt (by omega), ← hn, substitute_var_self, substitute_shift, ← hpred,
        substitute_var_self]
    · grind [substitute]
  | free name => rfl
  | leaf x => rfl

/-! ## Computations that may be refused -/

/-- Both sides of each law are computed without an obstacle, whatever indices the terms have, and
come to the same term: no index falls below zero. -/
theorem substitution_algebra (t a b : Indexed Empty) (i j : Nat) :
    (do (← t.shift? i).substitute? i a) = .ok t ∧
      (i ≤ j → ∃ u, (do (← t.shift? j).shift? i) = .ok u ∧
        (do (← t.shift? i).shift? (j + 1)) = .ok u) ∧
      (i ≤ j → ∃ u, (do (← t.substitute? i a).shift? j) = .ok u ∧
        (do (← t.shift? (j + 1)).substitute? i (← a.shift? j)) = .ok u) ∧
      (j ≤ i → ∃ u, (do (← t.substitute? i a).shift? j) = .ok u ∧
        (do (← t.shift? j).substitute? (i + 1) (← a.shift? j)) = .ok u) ∧
      (i ≤ j → ∃ u, (do (← t.substitute? i a).substitute? j b) = .ok u ∧
        (do (← t.substitute? (j + 1) (← b.shift? i)).substitute? i (← a.substitute? j b)) =
          .ok u) := by
  have hi : (0 : Int) ≤ i := Int.natCast_nonneg i
  have hj : (0 : Int) ≤ j := Int.natCast_nonneg j
  have hi' : (0 : Int) ≤ i + 1 := Int.add_nonneg hi Int.one_nonneg
  have hj' : (0 : Int) ≤ j + 1 := Int.add_nonneg hj Int.one_nonneg
  -- Nothing is refused at an index that is not negative, so the laws for terms remain.
  simp only [shift?_empty, substitute?_empty hi, substitute?_empty hj, substitute?_empty hi',
    substitute?_empty hj', bind, Except.bind]
  refine ⟨by rw [substitute_shift], ?_, ?_, ?_, ?_⟩
  · intro h
    exact ⟨_, rfl, by rw [shift_shift (Int.ofNat_le.2 h)]⟩
  · intro h
    exact ⟨_, rfl, by rw [shift_substitute_of_le hi (Int.ofNat_le.2 h)]⟩
  · intro h
    exact ⟨_, rfl, by rw [shift_substitute_of_ge hj (Int.ofNat_le.2 h)]⟩
  · intro h
    exact ⟨_, rfl, by rw [substitute_substitute hi (Int.ofNat_le.2 h)]⟩

/-- `λ.((0 1) (3 4))` with `(1 3)` for its variable `0` and `λ.(0 2)` for its variable `1`: both
orders of substitution give `λ.((0 (λ.(0 3) 3)) (λ.(0 3) 2))`. -/
theorem substitution_algebra_free_indices :
    let t : Indexed Empty := lam (app (app (var 0) (var 1)) (app (var 3) (var 4)))
    let a : Indexed Empty := app (var 1) (var 3)
    let b : Indexed Empty := lam (app (var 0) (var 2))
    let u : Indexed Empty :=
      lam (app (app (var 0) (app (lam (app (var 0) (var 3))) (var 3)))
        (app (lam (app (var 0) (var 3))) (var 2)))
    let i : Nat := 0
    let j : Nat := 1
    i ≤ j ∧ (do (← t.shift? i).substitute? i a) = .ok t ∧
      (do (← t.substitute? i a).substitute? j b) = .ok u ∧
      (do (← t.substitute? (j + 1) (← b.shift? i)).substitute? i (← a.substitute? j b)) =
        .ok u := by
  intro t a b u i j
  have hle : i ≤ j := Nat.zero_le 1
  have hinner : (do (← t.substitute? i a).substitute? j b) = .ok u := rfl
  rcases (substitution_algebra t a b i j).2.2.2.2 hle with ⟨v, hleft, hright⟩
  rw [hinner] at hleft
  cases hleft
  exact ⟨hle, (substitution_algebra t a b i j).1, hinner, hright⟩

end Indexed
end Nameless
