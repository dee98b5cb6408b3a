import Nameless.Indexed.Reduction

/-!
# Reduction within bounds

Every operation goes down into its term level by level, and how many levels it can manage depends on
what it does on each of them. A session therefore has a bound for each: for the text that is read,
for the definition that is copied, for the term that is converted and reduced, for the redex that is
written into a trace and for the term that is printed. An operation that meets more levels fails.

A contraction puts the argument under the binders of the body, which takes as many levels as lead
down to it and as many as it has itself. These come on top of the levels above the redex.

This file provides:
- `Bounds`: how far down the operations of a session go,
- `Indexed.hasRoom`, `Indexed.contractWithin?`: contracting within a number of levels,
- `Indexed.contractIn?`, `Indexed.nfIn`: reducing to normal form within bounds.
-/

namespace Nameless

/-- How far down the operations of a session go. Terms are converted and reduced as far as the
limits on nesting and contractions allow. -/
structure Bounds extends Limits where
  /-- How deep a text that is read may nest. -/
  parsing : Nat
  /-- How high a definition that is copied may be. -/
  copying : Nat
  /-- How high a redex that is written into a trace may be. -/
  tracing : Nat
  /-- How high a term that is printed may be. -/
  printing : Nat
  deriving DecidableEq, Repr

namespace Bounds

/-- The bounds of the interpreter. Reading and tracing take about twice as much for every level as
converting and printing, and copying takes four times as much. -/
def standard : Bounds :=
  { Limits.standard with
    parsing := 4990
    copying := 2490
    tracing := 4990
    printing := 9980 }

/-- Every bound is at most the other one of its kind. -/
instance : LE Bounds where
  le b c := b.nesting ≤ c.nesting ∧ b.contractions ≤ c.contractions ∧ b.parsing ≤ c.parsing ∧
    b.copying ≤ c.copying ∧ b.tracing ≤ c.tracing ∧ b.printing ≤ c.printing

theorem le_refl (b : Bounds) : b ≤ b :=
  ⟨Nat.le_refl _, Nat.le_refl _, Nat.le_refl _, Nat.le_refl _, Nat.le_refl _, Nat.le_refl _⟩

end Bounds

namespace Indexed

variable {ρ : Type}

/-- Whether an argument can be put into a body within a number of levels. -/
def hasRoom (arg : Indexed ρ) : (depth : Nat) → Indexed ρ → Bool
  | 0, _ => false
  | depth + 1, lam body => decide (arg.height ≤ depth) && arg.hasRoom depth body
  | depth + 1, app fn operand => arg.hasRoom depth fn && arg.hasRoom depth operand
  | _ + 1, _ => true

variable [Leaf ρ]

/-- Contracts a redex within a number of levels. -/
def contractWithin? (depth : Nat) : Contraction ρ := fun body arg =>
  if arg.hasRoom depth body then body.contract? arg else .error .tooDeep

/-- Contracts a redex within bounds, where `depth` levels are left. The redex is written down first
if it is traced. -/
def contractIn? (bounds : Bounds) (traced : Bool) (depth : Nat) : Contraction ρ := fun body arg =>
  if traced && decide (bounds.tracing < (app (lam body) arg).height) then .error .tooDeep
  else contractWithin? depth body arg

/-- Reduces a term to normal form within bounds, with a trace of the redexes or without one. -/
def nfIn (bounds : Bounds) (traced : Bool) (t : Indexed ρ) : Reduction ρ (Indexed ρ) :=
  nfBy (contractIn? bounds traced) bounds.contractions bounds.nesting t

end Indexed
end Nameless
