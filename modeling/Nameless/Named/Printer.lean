import Nameless.Named.Basic
import Nameless.Fault

/-!
# Printing named terms

The canonical text of a term: `λx.body` for an abstraction, `(fn arg)` for an application, the
name of a variable. Every application is parenthesised, so no precedence is needed to read it.

This file provides:
- `Named.chars`, `Named.text`: the text of a term without leaves,
- `Named.text?`: the text of any term, which a leaf makes impossible.
-/

namespace Nameless
namespace Named

/-- The characters of a term. -/
def chars : Named Empty → List Char
  | abs name body => 'λ' :: (name.toList ++ '.' :: body.chars)
  | app fn arg => '(' :: (fn.chars ++ ' ' :: (arg.chars ++ [')']))
  | sym name => name.toList

/-- The text of a term. -/
def text (t : Named Empty) : String :=
  String.ofList t.chars

/-- The complaint about a leaf in a term to be printed. -/
def showDefect : LeafView → Defect
  | .reference name => .showReference name
  | .node label => .showNode label

/-- The text of a term, unless it has a leaf. -/
def text? {ρ : Type} [Leaf ρ] (t : Named ρ) : Except Fault String :=
  match t.settled? with
  | .ok u => .ok u.text
  | .error x => .error (.defect (showDefect (Leaf.view x)))

@[simp] theorem text?_empty (t : Named Empty) : t.text? = .ok t.text := by
  simp [text?]

end Named
end Nameless
