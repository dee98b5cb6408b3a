/-!
# Leaves of terms

Terms are trees over a type of leaves, which stands for whatever a term may still contain besides
variables, abstractions and applications:
- a parsed term has `Reference`s to definitions at its leaves,
- a resolved term has none, so its leaves are taken from `Empty`,
- a tree that was never checked may have nodes of another family of terms at its leaves.

Operations that cannot pass over a leaf look at it through `Leaf.view` and name it in their
complaint.
-/

namespace Nameless

/-- What an operation learns about a leaf: it is a reference, or a node of another family. -/
inductive LeafView where
  | reference (name : String)
  | node (label : String)
  deriving DecidableEq, Repr

/-- Types whose values can stand at the leaves of terms. -/
class Leaf (ρ : Type) where
  view : ρ → LeafView

/-- A reference to a definition by its name. -/
structure Reference where
  name : String
  deriving DecidableEq, Repr

instance : Leaf Empty where
  view := nofun

instance : Leaf Reference where
  view r := .reference r.name

namespace LeafView

/-- The label of the node that stands at the leaf. -/
def label : LeafView → String
  | reference _ => "Definition"
  | node label => label

end LeafView
end Nameless
