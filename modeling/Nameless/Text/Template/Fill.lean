import Nameless.Text.Template.Piece
import Nameless.Text.Template.Selector

/-!
# Filling in templates

The pieces of a template are worked off from the left, so that of several faults the first one is
told. A layout may hold slots itself, which take part in the numbering; the slots in a layout have
plain layouts.

This file provides:
- `Template.convert`: a text as a conversion shows it,
- `Template.fill`: a template with its slots filled in,
- `Template.fill_of_no_brace`: a text without braces is filled in as it stands.
-/

namespace Nameless
namespace Template

/-- A text as a conversion shows it. A null character asks for none. -/
def convert (text : List Char) : Option Char → Except TemplateFault (List Char)
  | none => .ok text
  | some c =>
    if c = '\x00' ∨ c = 's' then .ok text
    else if c = 'r' then .ok (Text.quoted text)
    else if c = 'a' then .ok (Text.quotedAscii text)
    else .error (.unknownConversion c)

/-- A text set in a layout as it is written. -/
def place (layout text : List Char) : Except TemplateFault (List Char) :=
  match Layout.read layout >>= (Layout.place · text) with
  | .ok text => .ok text
  | .error fault => .error (.layout fault)

/-- A way to fill in a template under a numbering. -/
abbrev Filling := Numbering → List Char → Except TemplateFault (List Char × Numbering)

/-- The text in a slot, where `expand` fills in its layout. -/
def fillSlot (expand : Filling) (snippets : List String) (numbering : Numbering) (slot : Slot) :
    Except TemplateFault (List Char × Numbering) := do
  let (text, numbering) ← select snippets numbering slot.selector
  let text ← convert text slot.conversion
  let (layout, numbering) ←
    if slot.nested then expand numbering slot.layout else pure (slot.layout, numbering)
  let text ← place layout text
  return (text, numbering)

/-- The text of the pieces of a template, where `expand` fills in layouts. -/
def fillPieces (expand : Filling) (snippets : List String) (numbering : Numbering) :
    List Piece → Except TemplateFault (List Char × Numbering)
  | [] => .ok ([], numbering)
  | .literal c :: rest => do
    let (text, numbering) ← fillPieces expand snippets numbering rest
    return (c :: text, numbering)
  | .slot slot :: rest => do
    let (first, numbering) ← fillSlot expand snippets numbering slot
    let (text, numbering) ← fillPieces expand snippets numbering rest
    return (first ++ text, numbering)
  | .fault fault :: _ => .error fault

/-- Fills in a template that may hold slots in layouts down to a depth. -/
def fillTo (snippets : List String) : (depth : Nat) → Filling
  | 0, _, _ => .error .tooDeep
  | depth + 1, numbering, template =>
    fillPieces (fillTo snippets depth) snippets numbering (pieces template)

/-- A template and the layouts in its slots. -/
def maxDepth : Nat := 2

/-- A template with its slots filled in. Snippets that no slot takes are left over, and braces
inside a snippet have no meaning. -/
def fill (template : String) (snippets : List String) : Except TemplateFault String := do
  let (text, _) ← fillTo snippets maxDepth .undecided template.toList
  return String.ofList text

theorem fillPieces_literals (expand : Filling) (snippets : List String) (numbering : Numbering)
    (text : List Char) :
    fillPieces expand snippets numbering (text.map .literal) = .ok (text, numbering) := by
  induction text with
  | nil => rfl
  | cons c rest ih =>
    simp only [List.map_cons, fillPieces, ih]
    rfl

/-- A text without braces is filled in as it stands. -/
theorem fill_of_no_brace {template : String} (snippets : List String)
    (h : ∀ c ∈ template.toList, c ≠ '\x7b' ∧ c ≠ '\x7d') :
    fill template snippets = .ok template := by
  simp only [fill, maxDepth, fillTo, pieces_of_no_brace h, fillPieces_literals]
  simp [bind, Except.bind, pure, Except.pure]

end Template
end Nameless
