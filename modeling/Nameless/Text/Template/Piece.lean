import Nameless.Text.Template.Fault

/-!
# The pieces of a template

A template alternates between characters that stand for themselves and *slots*. A slot stands
between braces. It says which snippet it takes, how the snippet is converted, and how it is set:
`selector!conversion:layout`, where each part may be missing. A doubled brace stands for the brace
itself.

A template is cut character by character, and a fault is a piece of its own: what comes before it
is looked at first.

This file provides:
- `Slot`, `Piece`: the pieces,
- `Reading`: where in a piece one is, with `Reading.next` and `Reading.finish`,
- `Template.pieces`: the pieces of a template.
-/

namespace Nameless

/-- A slot as it is written. -/
structure Slot where
  selector : List Char := []
  conversion : Option Char := none
  layout : List Char := []
  /-- Whether the layout holds slots itself. -/
  nested : Bool := false
  deriving DecidableEq, Repr

/-- A piece of a template. -/
inductive Piece where
  | literal (c : Char)
  | slot (slot : Slot)
  | fault (fault : TemplateFault)
  deriving DecidableEq, Repr

namespace Template

/-- Where one is while a template is read. -/
inductive Reading where
  /-- Between two pieces. -/
  | text
  /-- Behind an opening brace. -/
  | opened
  /-- Behind a closing brace. -/
  | closed
  | selector (slot : Slot)
  /-- In a selector, behind an opening bracket. -/
  | bracket (slot : Slot)
  /-- In front of a conversion. -/
  | conversion (slot : Slot)
  /-- Behind a conversion. -/
  | converted (slot : Slot)
  /-- In a layout, inside this many slots of its own. -/
  | layout (slot : Slot) (depth : Nat)
  deriving DecidableEq, Repr

/-- What a character does: it is part of a piece, or completes one. -/
inductive Advance where
  | within (reading : Reading)
  | completes (piece : Piece)
  deriving DecidableEq, Repr

/-- A character of a selector, outside brackets. -/
def nextInSelector (slot : Slot) (c : Char) : Advance :=
  let longer := { slot with selector := slot.selector ++ [c] }
  if c = '\x7b' then .completes (.fault .openInSelector)
  else if c = '\x7d' then .completes (.slot slot)
  else if c = ':' then .within (.layout slot 0)
  else if c = '!' then .within (.conversion slot)
  else if c = '[' then .within (.bracket longer)
  else .within (.selector longer)

/-- A character of a layout, inside `depth` slots of its own. -/
def nextInLayout (slot : Slot) (depth : Nat) (c : Char) : Advance :=
  let longer := { slot with layout := slot.layout ++ [c] }
  if c = '\x7b' then .within (.layout { longer with nested := true } (depth + 1))
  else if c = '\x7d' then
    match depth with
    | 0 => .completes (.slot slot)
    | depth + 1 => .within (.layout longer depth)
  else .within (.layout longer depth)

/-- What a character does. -/
def Reading.next (c : Char) : Reading → Advance
  | text =>
    if c = '\x7b' then .within .opened
    else if c = '\x7d' then .within .closed
    else .completes (.literal c)
  | opened => if c = '\x7b' then .completes (.literal c) else nextInSelector {} c
  | closed => if c = '\x7d' then .completes (.literal c) else .completes (.fault .loneClose)
  | selector slot => nextInSelector slot c
  | bracket slot =>
    let longer := { slot with selector := slot.selector ++ [c] }
    .within (if c = ']' then .selector longer else .bracket longer)
  | conversion slot => .within (.converted { slot with conversion := some c })
  | converted slot =>
    if c = '\x7d' then .completes (.slot slot)
    else if c = ':' then .within (.layout slot 0)
    else .completes (.fault .longConversion)
  | layout slot depth => nextInLayout slot depth c

/-- What the end of the template leaves unfinished. -/
def Reading.finish : Reading → List Piece
  | text => []
  | opened => [.fault .loneOpen]
  | closed => [.fault .loneClose]
  | selector _ => [.fault .unclosedSlot]
  | bracket _ => [.fault .unclosedSlot]
  | conversion _ => [.fault .missingConversion]
  | converted _ => [.fault .unclosedLayout]
  | layout _ _ => [.fault .unclosedLayout]

/-- The pieces of what is left of a template. -/
def piecesFrom (reading : Reading) : List Char → List Piece
  | [] => reading.finish
  | c :: rest =>
    match reading.next c with
    | .within reading => piecesFrom reading rest
    | .completes piece => piece :: piecesFrom .text rest

/-- The pieces of a template. What follows a fault has no meaning. -/
def pieces (template : List Char) : List Piece :=
  piecesFrom .text template

/-- A text without braces stands for itself. -/
theorem pieces_of_no_brace {template : List Char}
    (h : ∀ c ∈ template, c ≠ '\x7b' ∧ c ≠ '\x7d') :
    pieces template = template.map .literal := by
  unfold pieces
  induction template with
  | nil => rfl
  | cons c rest ih =>
    have hc := h c (List.mem_cons_self ..)
    have hr := ih fun d hd => h d (List.mem_cons_of_mem c hd)
    simp [piecesFrom, Reading.next, hc.1, hc.2, hr]

end Template
end Nameless
