import Nameless.Named.Basic
import Nameless.Fault

/-!
# Church numerals

The number `n` is the term that applies its first argument `n` times to its second:
`λf.λx.(f (f … x))`. The arithmetic of numerals is left to programs.

This file provides:
- `Named.numeral`: the numeral of a number,
- `Named.numeral?`: the number of which a term is the numeral, whatever its binders are called,
- `Scalar`, `Scalar.numeral`: the numeral of a value that may be no natural number.
-/

namespace Nameless
namespace Named

variable {ρ : Type}

/-- A variable applied a number of times to a term. -/
def iterate (f : String) (t : Named ρ) : Nat → Named ρ
  | 0 => t
  | n + 1 => app (sym f) (iterate f t n)

/-- The numeral of a number. -/
def numeral (n : Nat) : Named ρ :=
  abs "f" (abs "x" (iterate "f" (sym "x") n))

/-- How many times `f` is applied to `x` in a term made of nothing else. -/
def countFrom (f x : String) (count : Nat) : Named ρ → Option Nat
  | app (sym g) arg => if g = f then countFrom f x (count + 1) arg else none
  | sym y => if y = x then some count else none
  | _ => none

/-- The number of which a term is the numeral. The two binders have to differ, since otherwise the
inner one hides the outer one. -/
def numeral? : Named ρ → Option Nat
  | abs f (abs x body) => if f = x then none else countFrom f x 0 body
  | _ => none

theorem countFrom_iterate (f x : String) (count n : Nat) :
    countFrom f x count (iterate f (sym x : Named ρ) n) = some (count + n) := by
  induction n generalizing count with
  | zero => simp [iterate, countFrom]
  | succ n ih => simp [iterate, countFrom, ih, Nat.add_comm, Nat.add_left_comm]

/-- The numeral of a number is recognised as that number. -/
@[simp] theorem numeral?_numeral (n : Nat) : numeral? (numeral n : Named ρ) = some n := by
  simp [numeral?, numeral, countFrom_iterate]

end Named

/-! ## Values that may be no numbers -/

/-- A value that someone wants as a numeral. -/
inductive Scalar where
  | integer (n : Int)
  /-- A number with a fraction or an exponent, as it is written. -/
  | fraction (written : String)
  | truth (b : Bool)
  | text (s : String)
  | absent
  deriving DecidableEq, Repr

namespace Scalar

/-- How a value is written in a message. -/
def written : Scalar → String
  | integer n => toString n
  | fraction written => written
  | truth true => "True"
  | truth false => "False"
  | text s => s
  | absent => "None"

/-- The numeral of a value, which has to be an integer that is not negative. -/
def numeral (v : Scalar) : Except Fault (Named Empty) :=
  match v with
  | integer (.ofNat n) => .ok (Named.numeral n)
  | v => .error (.notNatural v.written)

end Scalar
end Nameless
