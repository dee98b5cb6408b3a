import Nameless.Text.Layout

/-!
# What can be wrong with a template

This file provides:
- `TemplateFault`: the ways in which a template is badly formed, or asks for something that its
  snippets do not have,
- `TemplateFault.kind`, `TemplateFault.message`: how a fault is told.
-/

namespace Nameless

/-- What can be wrong with a template. -/
inductive TemplateFault where
  /-- An opening brace that ends the template. -/
  | loneOpen
  /-- A closing brace that neither closes a slot nor is doubled. -/
  | loneClose
  /-- A slot that ends with the template, before its layout. -/
  | unclosedSlot
  /-- A slot that ends with the template, in its layout. -/
  | unclosedLayout
  /-- An opening brace in the selector of a slot. -/
  | openInSelector
  /-- A conversion that ends with the template. -/
  | missingConversion
  /-- A conversion with something else behind it than a layout. -/
  | longConversion
  | unknownConversion (conversion : Char)
  /-- A layout with slots in slots. -/
  | tooDeep
  /-- A slot without a number after one with a number. -/
  | numberOmitted
  /-- A slot with a number after one without a number. -/
  | numberGiven
  /-- A number beyond the greatest one. -/
  | tooManyDigits
  /-- The slot asks for the snippet with this number, counted from zero, and there is none. -/
  | noSnippet (number : Nat)
  /-- The slot asks for a snippet by a name. -/
  | noName (name : String)
  /-- The slot asks for a part by a name. -/
  | noPart (name : String)
  /-- The slot asks for a character behind the end. -/
  | noCharacter
  /-- The slot asks for a character by a name. -/
  | characterByName
  /-- A part or a character is asked for by nothing. -/
  | emptyAccess
  /-- A bracket that is not closed in its selector. -/
  | unclosedBracket
  /-- A closing bracket with something else behind it than a further access. -/
  | textAfterBracket
  | layout (fault : LayoutFault)
  deriving DecidableEq, Repr

namespace TemplateFault

/-- The kind under which a fault is known. -/
def kind : TemplateFault → String
  | noSnippet _ => "IndexError"
  | noName _ => "KeyError"
  | noPart _ => "AttributeError"
  | noCharacter => "IndexError"
  | characterByName => "TypeError"
  | layout fault => fault.kind
  | _ => "ValueError"

/-- The message of a fault. -/
def message : TemplateFault → String
  | loneOpen => "Single '\x7b' encountered in format string"
  | loneClose => "Single '\x7d' encountered in format string"
  | unclosedSlot => "expected '\x7d' before end of string"
  | unclosedLayout => "unmatched '\x7b' in format spec"
  | openInSelector => "unexpected '\x7b' in field name"
  | missingConversion => "end of string while looking for conversion specifier"
  | longConversion => "expected ':' after conversion specifier"
  | unknownConversion conversion =>
    "Unknown conversion specifier " ++ Text.visible 0x7f conversion
  | tooDeep => "Max string recursion exceeded"
  | numberOmitted =>
    "cannot switch from manual field specification to automatic field numbering"
  | numberGiven =>
    "cannot switch from automatic field numbering to manual field specification"
  | tooManyDigits => "Too many decimal digits in format string"
  | noSnippet number =>
    "Replacement index " ++ toString number ++ " out of range for positional args tuple"
  | noName name => String.ofList (Text.quoted name.toList)
  | noPart name => "'str' object has no attribute '" ++ name ++ "'"
  | noCharacter => "string index out of range"
  | characterByName => "string indices must be integers, not 'str'"
  | emptyAccess => "Empty attribute in format string"
  | unclosedBracket => "Missing ']' in format string"
  | textAfterBracket => "Only '.' or '[' may follow ']' in format field specifier"
  | layout fault => fault.message

end TemplateFault
end Nameless
