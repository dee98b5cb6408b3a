import Nameless.Conversion

/-!
# Unchecked trees

A tree from outside may mix nodes of named and of nameless terms. Seen as a named term, the
references and the nodes of nameless terms are its leaves; seen as a nameless term, the nodes of
named terms are. Operations that pass over leaves keep them as they are, and the others name the
leaf that stopped them by its label.

This file provides:
- `Raw`: the trees,
- `Raw.label`: the label of the root,
- `Raw.named`, `Raw.indexed`: a tree seen as a term of either family,
- `Named.toRaw`, `Indexed.toRaw`: the way back,
- `Raw.text?`: the text of a tree, which a node out of place or a long number makes impossible.
-/

namespace Nameless

/-- Trees over the nodes of named and of nameless terms. -/
inductive Raw where
  | abs (name : String) (body : Raw)
  | app (fn arg : Raw)
  | sym (name : String)
  | ref (name : String)
  | lam (body : Raw)
  | apply (fn arg : Raw)
  | var (index : Nat)
  | free (name : String)
  deriving DecidableEq, Repr

namespace Raw

/-- The label of the root. -/
def label : Raw → String
  | abs _ _ => "Abstraction"
  | app _ _ => "Application"
  | sym _ => "Symbol"
  | ref _ => "Definition"
  | lam _ => "Lam"
  | apply _ _ => "App"
  | var _ => "Var"
  | free _ => "Free"

instance : Leaf Raw where
  view
    | ref name => .reference name
    | t => .node t.label

/-- A tree as a named term. -/
def named : Raw → Named Raw
  | abs name body => .abs name body.named
  | app fn arg => .app fn.named arg.named
  | sym name => .sym name
  | t => .leaf t

/-- A tree as a nameless term. -/
def indexed : Raw → Indexed Raw
  | lam body => .lam body.indexed
  | apply fn arg => .app fn.indexed arg.indexed
  | var index => .var index
  | free name => .free name
  | t => .leaf t

end Raw

namespace Named

/-- A named term as a tree. -/
def toRaw {ρ : Type} (leaf : ρ → Raw) : Named ρ → Raw
  | abs name body => .abs name (body.toRaw leaf)
  | app fn arg => .app (fn.toRaw leaf) (arg.toRaw leaf)
  | sym name => .sym name
  | .leaf x => leaf x

end Named

namespace Reference

/-- A reference as a tree. -/
def toRaw (r : Reference) : Raw :=
  .ref r.name

end Reference

namespace Indexed

/-- A nameless term as a tree. -/
def toRaw {ρ : Type} (leaf : ρ → Raw) : Indexed ρ → Raw
  | lam body => .lam (body.toRaw leaf)
  | app fn arg => .apply (fn.toRaw leaf) (arg.toRaw leaf)
  | var index => .var index
  | free name => .free name
  | .leaf x => leaf x

end Indexed

namespace Raw

/-- A tree seen as a named term is still that tree. -/
@[simp] theorem toRaw_named (t : Raw) : t.named.toRaw id = t := by
  induction t with
  | abs name body ih => simp [named, Named.toRaw, ih]
  | app fn arg ihf iha => simp [named, Named.toRaw, ihf, iha]
  | sym name => rfl
  | ref name => rfl
  | lam body => rfl
  | apply fn arg => rfl
  | var index => rfl
  | free name => rfl

/-- A tree seen as a nameless term is still that tree. -/
@[simp] theorem toRaw_indexed (t : Raw) : t.indexed.toRaw id = t := by
  induction t with
  | lam body ih => simp [indexed, Indexed.toRaw, ih]
  | apply fn arg ihf iha => simp [indexed, Indexed.toRaw, ihf, iha]
  | abs name body => rfl
  | app fn arg => rfl
  | sym name => rfl
  | ref name => rfl
  | var index => rfl
  | free name => rfl

/-- The characters of a tree. Below a nameless node either family may stand, below a named node
only named ones. -/
def chars? : Raw → Except Failure (List Char)
  | lam body => do
    return 'λ' :: '.' :: (← body.chars?)
  | apply fn arg => do
    let fn ← fn.chars?
    let arg ← arg.chars?
    return '(' :: (fn ++ ' ' :: (arg ++ [')']))
  | var index =>
    match Mishap.digits? index with
    | .ok digits => .ok digits
    | .error cause => .error (.mishap cause)
  | free name => .ok name.toList
  | t => do
    return (← Failure.ofFault t.named.text?).toList

/-- The text of a tree. -/
def text? (t : Raw) : Except Failure String :=
  t.chars?.map String.ofList

end Raw

/-! ## Recorded redexes as text -/

namespace Reduction

/-- The texts of the redexes of a reduction of trees, and its result. Each redex is written down
right before it is contracted, so a redex that cannot be written stops the reduction there. -/
def traced {α : Type} (r : Reduction Raw α) : Except Failure (List String × α) := do
  let texts ← r.redexes.mapM fun redex => (redex.toRaw id).text?
  let a ← r.result
  return (texts, a)

end Reduction
end Nameless
