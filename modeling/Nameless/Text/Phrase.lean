import Nameless.Text.Style

/-!
# Phrases

The text of a message alternates between fixed wording and *snippets*, pieces of the program that
the message is about. A phrase keeps the two apart, so that one message can be read plainly and
printed with its snippets stressed. Where that cannot be done, because the stressed snippets are
part of the wording, a phrase keeps both texts.

This file provides:
- `Fragment`: a piece of a message,
- `Phrase`, with `Phrase.plain` and `Phrase.styled`.
-/

namespace Nameless

/-- A piece of a message. -/
inductive Fragment where
  | wording (text : String)
  | snippet (text : String)
  /-- A text that was worded twice, without emphasis and with it. -/
  | prepared (plain stressed : String)
  deriving DecidableEq, Repr

namespace Fragment

/-- The characters of a piece, without emphasis. -/
def plain : Fragment → String
  | wording text => text
  | snippet text => text
  | prepared plain _ => plain

/-- A piece as it is printed: snippets are bold. -/
def styled (style : Style) : Fragment → String
  | wording text => text
  | snippet text => style.bold none text
  | prepared plain stressed =>
    match style with
    | .plain => plain
    | .escaped => stressed

end Fragment

/-- A message as a sequence of pieces. -/
abbrev Phrase := List Fragment

namespace Phrase

/-- The message without emphasis. -/
def plain (phrase : Phrase) : String :=
  phrase.foldr (fun fragment rest => fragment.plain ++ rest) ""

/-- The message as it is printed. -/
def styled (style : Style) (phrase : Phrase) : String :=
  phrase.foldr (fun fragment rest => fragment.styled style ++ rest) ""

end Phrase

end Nameless
