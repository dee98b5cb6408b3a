import Nameless.Fault
import Nameless.Indexed.Basic

/-!
# Shifting and substitution

Moving a term under a binder adds one to the indices of its free variables, and contracting a
redex puts a term in the place of a variable whose binder goes away. Both walk down a term with the
number of binders passed, which may start below zero.

Shifting and substitution are total. A leaf cannot be moved under a binder and nothing can be
substituted in it, and an index cannot fall below zero; `shift?` and `substitute?` refuse the terms
for which this would be needed, and name the first obstacle.

This file provides:
- `Indexed.shift`, `Indexed.substitute`, `Indexed.contract`,
- `Indexed.obstacle?`: the first thing that stands in the way of a substitution,
- `Indexed.shift?`, `Indexed.substitute?`, `Indexed.contract?`.
-/

namespace Nameless
namespace Indexed

variable {ρ : Type}

/-- Adds one to every index from `cutoff` on: the term is moved under one more binder. -/
def shift (cutoff : Int) : Indexed ρ → Indexed ρ
  | lam body => lam (body.shift (cutoff + 1))
  | app fn arg => app (fn.shift cutoff) (arg.shift cutoff)
  | var i => if cutoff ≤ i then var (i + 1) else var i
  | free name => free name
  | leaf x => leaf x

/-- Puts a replacement in the place of the variable `index`, whose binder goes away: greater
indices fall by one and lesser ones stay. -/
def substitute (index : Int) (t replacement : Indexed ρ) : Indexed ρ :=
  match t with
  | lam body => lam (body.substitute (index + 1) (replacement.shift 0))
  | app fn arg => app (fn.substitute index replacement) (arg.substitute index replacement)
  | var i =>
    if i = index then replacement
    else if index < i then var (i - 1)
    else var i
  | free name => free name
  | leaf x => leaf x

/-- The result of applying an abstraction with a given body to an argument. -/
def contract (body arg : Indexed ρ) : Indexed ρ :=
  body.substitute 0 arg

/-! ## Obstacles -/

variable [Leaf ρ]

/-- The complaint about a leaf in a term to be shifted. -/
def shiftDefect (x : ρ) : Failure :=
  .fault (.defect (.shiftNode (Leaf.view x).label))

/-- The complaint about a leaf in a term to be substituted in. -/
def substituteDefect (x : ρ) : Failure :=
  .fault (.defect (.substituteNode (Leaf.view x).label))

/-- The first thing that stands in the way of a substitution: a leaf of the term, a leaf of the
replacement once it has to be moved under a binder, or an index that would fall below zero. -/
def obstacle? (index : Int) (t replacement : Indexed ρ) : Option Failure :=
  match t with
  | lam body =>
    match replacement.leaves with
    | x :: _ => some (shiftDefect x)
    | [] => body.obstacle? (index + 1) replacement
  | app fn arg => fn.obstacle? index replacement <|> arg.obstacle? index replacement
  | var i => if index < i ∧ i = 0 then some (.mishap (.negativeIndex (-1))) else none
  | free _ => none
  | leaf x => some (substituteDefect x)

/-- Shifts a term, unless it has a leaf. -/
def shift? (cutoff : Int) (t : Indexed ρ) : Except Failure (Indexed ρ) :=
  match t.leaves with
  | x :: _ => .error (shiftDefect x)
  | [] => .ok (t.shift cutoff)

/-- Substitutes in a term, unless something stands in the way. -/
def substitute? (index : Int) (t replacement : Indexed ρ) : Except Failure (Indexed ρ) :=
  match t.obstacle? index replacement with
  | some failure => .error failure
  | none => .ok (t.substitute index replacement)

/-- Contracts a redex, unless something stands in the way. -/
def contract? (body arg : Indexed ρ) : Except Failure (Indexed ρ) :=
  body.substitute? 0 arg

/-! ## Terms without leaves -/

/-- Nothing stands in the way of a substitution for a variable in a term without leaves. -/
theorem obstacle?_empty {index : Int} (h : 0 ≤ index) (t replacement : Indexed Empty) :
    t.obstacle? index replacement = none := by
  induction t generalizing index with
  | lam body ih => simp only [obstacle?, leaves_empty]; exact ih (by omega)
  | app fn arg ihf iha => simp [obstacle?, ihf h, iha h]
  | var i => simp only [obstacle?]; rw [if_neg (by omega)]
  | free name => rfl
  | leaf x => exact x.elim

@[simp] theorem shift?_empty (cutoff : Int) (t : Indexed Empty) :
    t.shift? cutoff = .ok (t.shift cutoff) := by
  simp [shift?]

theorem substitute?_empty {index : Int} (h : 0 ≤ index) (t replacement : Indexed Empty) :
    t.substitute? index replacement = .ok (t.substitute index replacement) := by
  simp [substitute?, obstacle?_empty h]

@[simp] theorem contract?_empty (body arg : Indexed Empty) :
    body.contract? arg = .ok (body.contract arg) :=
  substitute?_empty (Int.le_refl 0) body arg

end Indexed
end Nameless
