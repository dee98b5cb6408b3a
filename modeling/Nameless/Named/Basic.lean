import Nameless.Leaf

/-!
# Named terms

Terms of the λ-calculus as they are written, with a name at every variable and every binder.

This file provides:
- `Named`: the terms, over a type of leaves,
- `Named.map`, `Named.expand?`: replacing the leaves by leaves, and by terms,
- `Named.settled?`: a term as one without leaves, or else its first leaf,
- `Named.freeNames`: the names of the free variables, from left to right,
- `Named.height`: the number of levels.
-/

namespace Nameless

/-- Named terms whose leaves are taken from `ρ`. -/
inductive Named (ρ : Type) where
  /-- Binds a name in a body. -/
  | abs (name : String) (body : Named ρ)
  | app (fn arg : Named ρ)
  /-- A variable. -/
  | sym (name : String)
  | leaf (x : ρ)
  deriving DecidableEq, Repr

namespace Named

variable {ρ σ ε : Type}

/-- Replaces every leaf by a leaf. -/
def map (f : ρ → σ) : Named ρ → Named σ
  | abs name body => abs name (body.map f)
  | app fn arg => app (fn.map f) (arg.map f)
  | sym name => sym name
  | leaf x => leaf (f x)

/-- Replaces every leaf by a term, from left to right, until a replacement fails. Names are not
touched: a free variable of a replacement is bound by the binders around the leaf. -/
def expand? (f : ρ → Except ε (Named σ)) : Named ρ → Except ε (Named σ)
  | abs name body => do
    return abs name (← body.expand? f)
  | app fn arg => do
    let fn ← fn.expand? f
    let arg ← arg.expand? f
    return app fn arg
  | sym name => .ok (sym name)
  | leaf x => f x

/-- The same term without leaves, or the first leaf that stands in the way. -/
def settled? (t : Named ρ) : Except ρ (Named Empty) :=
  t.expand? .error

/-- A term without leaves, as a term over any leaves. -/
def embed (t : Named Empty) : Named ρ :=
  t.map nofun

/-- The names of the free variables, from left to right. -/
def freeNames : Named ρ → List String
  | abs name body => body.freeNames.filter (· ≠ name)
  | app fn arg => fn.freeNames ++ arg.freeNames
  | sym name => [name]
  | leaf _ => []

/-- The number of levels of a term. -/
def height : Named ρ → Nat
  | abs _ body => body.height + 1
  | app fn arg => max fn.height arg.height + 1
  | sym _ => 1
  | leaf _ => 1

/-! ## Replacing leaves -/

@[simp] theorem map_id (t : Named ρ) : t.map id = t := by
  induction t with
  | abs name body ih => simp [map, ih]
  | app fn arg ihf iha => simp [map, ihf, iha]
  | sym name => rfl
  | leaf x => rfl

/-- Nothing has to be replaced in a term without leaves. -/
@[simp] theorem expand?_empty (f : Empty → Except ε (Named σ)) (t : Named Empty) :
    t.expand? f = .ok t.embed := by
  induction t with
  | abs name body ih => simp only [expand?, ih]; rfl
  | app fn arg ihf iha => simp only [expand?, ihf, iha]; rfl
  | sym name => rfl
  | leaf x => exact x.elim

/-- The only embedding of terms without leaves into themselves. -/
@[simp] theorem embed_self (t : Named Empty) : (t.embed : Named Empty) = t := by
  induction t with
  | abs name body ih => simpa [embed, map] using ih
  | app fn arg ihf iha => simpa [embed, map] using ⟨ihf, iha⟩
  | sym name => rfl
  | leaf x => exact x.elim

/-- A term without leaves is settled. -/
@[simp] theorem settled?_empty (t : Named Empty) : t.settled? = .ok t := by
  simp [settled?]

end Named
end Nameless
