import Nameless.Leaf

/-!
# Nameless terms

Terms of the λ-calculus in which a variable is the number of binders between it and its own binder,
so that terms which differ in the names of bound variables only are the same term. A variable that
nothing binds keeps its name.

This file provides:
- `Indexed`: the terms, over a type of leaves,
- `Indexed.leaves`: the leaves, from left to right,
- `Indexed.freeNames`: the names of the free variables, and `Indexed.freeNameSet` without
  repetition and in order,
- `Indexed.height`: the number of levels,
- `Indexed.chars`, `Indexed.text`: the text of a term without leaves, such as `λ.(0 λ.1)`.
-/

namespace Nameless

/-- Nameless terms whose leaves are taken from `ρ`. -/
inductive Indexed (ρ : Type) where
  | lam (body : Indexed ρ)
  | app (fn arg : Indexed ρ)
  /-- A bound variable, by the number of binders between it and its own. -/
  | var (index : Nat)
  /-- A free variable. -/
  | free (name : String)
  | leaf (x : ρ)
  deriving DecidableEq, Repr

namespace Indexed

variable {ρ : Type}

/-- The leaves, from left to right. -/
def leaves : Indexed ρ → List ρ
  | lam body => body.leaves
  | app fn arg => fn.leaves ++ arg.leaves
  | var _ => []
  | free _ => []
  | leaf x => [x]

/-- The names of the free variables, from left to right. -/
def freeNames : Indexed ρ → List String
  | lam body => body.freeNames
  | app fn arg => fn.freeNames ++ arg.freeNames
  | var _ => []
  | free name => [name]
  | leaf _ => []

/-- The names of the free variables, each once, in the order of their characters. -/
def freeNameSet (t : Indexed ρ) : List String :=
  t.freeNames.eraseDups.mergeSort fun a b => decide (a ≤ b)

/-- The number of levels of a term. -/
def height : Indexed ρ → Nat
  | lam body => body.height + 1
  | app fn arg => max fn.height arg.height + 1
  | var _ => 1
  | free _ => 1
  | leaf _ => 1

/-- The characters of a term. -/
def chars : Indexed Empty → List Char
  | lam body => 'λ' :: '.' :: body.chars
  | app fn arg => '(' :: (fn.chars ++ ' ' :: (arg.chars ++ [')']))
  | var index => (toString index).toList
  | free name => name.toList

/-- The text of a term. -/
def text (t : Indexed Empty) : String :=
  String.ofList t.chars

@[simp] theorem leaves_empty (t : Indexed Empty) : t.leaves = [] := by
  induction t with
  | lam body ih => exact ih
  | app fn arg ihf iha => simp [leaves, ihf, iha]
  | var index => rfl
  | free name => rfl
  | leaf x => exact x.elim

end Indexed
end Nameless
