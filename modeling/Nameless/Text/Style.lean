/-!
# Emphasised text

Messages stress some of their words. On a terminal that understands escape sequences the words are
set in bold, in colour where the role of the word asks for one; elsewhere they stand as they are.

This file provides:
- `Color`, `Style`: the colours in use, and whether escape sequences are written at all,
- `Style.bold`: one stressed piece of text.
-/

namespace Nameless

/-- The colours that carry a meaning in messages. -/
inductive Color where
  /-- Errors. -/
  | red
  /-- Warnings. -/
  | magenta
  /-- Progress. -/
  | cyan
  deriving DecidableEq, Repr

namespace Color

/-- The parameter of the escape sequence that selects a colour. -/
def code : Color → String
  | red => "31"
  | magenta => "35"
  | cyan => "36"

end Color

/-- Whether emphasis is written with escape sequences. -/
inductive Style where
  | plain
  | escaped
  deriving DecidableEq, Repr, Inhabited

namespace Style

/-- The escape sequence with a given parameter. -/
def escape (parameter : String) : String :=
  "\x1b[" ++ parameter ++ "m"

/-- A piece of text in bold, and in a colour if one is given. Empty text is stressed too. -/
def bold (style : Style) (color : Option Color) (text : String) : String :=
  match style with
  | plain => text
  | escaped =>
    let tint := match color with
      | none => ""
      | some c => escape c.code
    escape "1" ++ tint ++ text ++ escape "0"

@[simp] theorem bold_plain (color : Option Color) (text : String) :
    bold plain color text = text := rfl

end Style
end Nameless
