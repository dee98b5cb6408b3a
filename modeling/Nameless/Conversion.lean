import Nameless.Identifier
import Nameless.Indexed.Bounded
import Nameless.Named.Printer

/-!
# Between named and nameless terms

Reduction works on nameless terms, and people read and write named ones. Going to nameless terms, a
variable becomes the number of binders between it and the innermost binder of its name. Coming
back, a binder is named by its depth: the binders at depth `d` all take the `d`-th identifier that
is no free variable of the term.

This file provides:
- `Named.toIndexed?`: the nameless form of a term, with free variables allowed or not,
- `Named.toIndexedIn?`: the same within a number of levels,
- `Named.nameless`: the nameless form of a term without leaves, free variables allowed,
- `Indexed.toNamed?`: the named form of a term,
- `Named.alphaEquals?`: whether two terms differ in the names of bound variables only,
- `Named.reduce?`: the named normal form of a named term,
- `Named.reduceIn?`: the same within the bounds of a session.
-/

namespace Nameless

/-- Faults as failures. -/
def Failure.ofFault {α : Type} : Except Fault α → Except Failure α
  | .ok a => .ok a
  | .error cause => .error (.fault cause)

/-! ## From named to nameless -/

namespace Named

variable {ρ σ : Type}

/-- The complaint about a leaf in a term to be made nameless. -/
def convertDefect : LeafView → Defect
  | .reference name => .convertReference name
  | .node label => .convertNode label

/-- The nameless form of a term inside binders of the names in `scope`, innermost first. The term
is read from left to right, and the first obstacle is reported: a leaf, or a variable that nothing
binds unless free variables are allowed. -/
def toIndexed? [Leaf ρ] (allowFree : Bool) (scope : List String) :
    Named ρ → Except Fault (Indexed Empty)
  | abs name body => do
    return .lam (← body.toIndexed? allowFree (name :: scope))
  | app fn arg => do
    let fn ← fn.toIndexed? allowFree scope
    let arg ← arg.toIndexed? allowFree scope
    return .app fn arg
  | sym name =>
    if name ∈ scope then .ok (.var (scope.idxOf name))
    else if allowFree then .ok (.free name)
    else .error (.unbound name)
  | leaf x => .error (.defect (convertDefect (Leaf.view x)))

/-- The nameless form of a term inside binders of the names in `scope`, found within a number of
levels. -/
def toIndexedIn? [Leaf ρ] (allowFree : Bool) :
    (depth : Nat) → (scope : List String) → Named ρ → Except Failure (Indexed Empty)
  | 0, _, _ => .error .tooDeep
  | depth + 1, scope, abs name body => do
    return .lam (← toIndexedIn? allowFree depth (name :: scope) body)
  | depth + 1, scope, app fn arg => do
    let fn ← toIndexedIn? allowFree depth scope fn
    let arg ← toIndexedIn? allowFree depth scope arg
    return .app fn arg
  | _ + 1, scope, t => Failure.ofFault (t.toIndexed? allowFree scope)

/-- The nameless form of a term without leaves, in which any variable may be free. -/
def nameless (scope : List String) : Named Empty → Indexed Empty
  | abs name body => .lam (body.nameless (name :: scope))
  | app fn arg => .app (fn.nameless scope) (arg.nameless scope)
  | sym name => if name ∈ scope then .var (scope.idxOf name) else .free name

/-- With free variables allowed, a term without leaves always has a nameless form. -/
@[simp] theorem toIndexed?_true (scope : List String) (t : Named Empty) :
    t.toIndexed? true scope = .ok (t.nameless scope) := by
  induction t generalizing scope with
  | abs name body ih => simp only [toIndexed?, ih]; rfl
  | app fn arg ihf iha => simp only [toIndexed?, ihf, iha]; rfl
  | sym name =>
    by_cases h : name ∈ scope
    · simp [toIndexed?, nameless, h]
    · simp [toIndexed?, nameless, h]
  | leaf x => exact x.elim

/-- Whether two terms have the same nameless form. -/
def alphaEquals? [Leaf ρ] [Leaf σ] (t : Named ρ) (u : Named σ) : Except Fault Bool := do
  let t ← t.toIndexed? true []
  let u ← u.toIndexed? true []
  return decide (t = u)

end Named

/-! ## From nameless to named -/

namespace Indexed

variable {ρ : Type} [Leaf ρ]

/-- The named form of a term inside binders of the names in `scope`, innermost first. The next
binder takes the first identifier from number `next` on that is not reserved. -/
def toNamedFrom? (reserved : List String) (next : Nat) (scope : List String) :
    Indexed ρ → Except Fault (Named Empty)
  | lam body => do
    let number := Identifier.firstFresh reserved next
    let name := Identifier.nth number
    return .abs name (← body.toNamedFrom? reserved (number + 1) (name :: scope))
  | app fn arg => do
    let fn ← fn.toNamedFrom? reserved next scope
    let arg ← arg.toNamedFrom? reserved next scope
    return .app fn arg
  | var index =>
    match scope[index]? with
    | some name => .ok (.sym name)
    | none => .error (.defect (.escapingIndex index))
  | free name => .ok (.sym name)
  | leaf x => .error (.defect (.convertNode (Leaf.view x).label))

/-- The named form of a term. -/
def toNamed? (t : Indexed ρ) : Except Fault (Named Empty) :=
  t.toNamedFrom? t.freeNames 0 []

end Indexed

/-! ## Reduction of named terms -/

namespace Named

/-- The named normal form of a term, whose binders are named anew. -/
def reduce? {ρ : Type} [Leaf ρ] (limits : Limits) (allowFree : Bool) (t : Named ρ) :
    Reduction Empty (Named Empty) := do
  let u ← .ofExcept (Failure.ofFault (t.toIndexed? allowFree []))
  let v ← u.nf limits
  .ofExcept (Failure.ofFault v.toNamed?)

/-- The named normal form of a term, found within bounds. The normal form has no more levels than
reduction may go down, and naming its binders takes no more. -/
def reduceIn? {ρ : Type} [Leaf ρ] (bounds : Bounds) (traced allowFree : Bool) (t : Named ρ) :
    Reduction Empty (Named Empty) := do
  let u ← .ofExcept (t.toIndexedIn? allowFree bounds.nesting [])
  let v ← u.nfIn bounds traced
  .ofExcept (Failure.ofFault v.toNamed?)

end Named
end Nameless
