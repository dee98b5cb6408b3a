import Nameless.Text.Digit
import Nameless.Text.Quoted

/-!
# The command line

The program takes flags and the name of one file. Flags have a long name, which may be cut short as
long as it is unambiguous, and most have a letter; letters may be joined behind one dash. After a
double dash nothing is a flag.

Arguments are first classified one by one, then taken in order. A flag takes effect when it is
reached, so a call for help in front of a mistake is answered. Arguments that nobody takes are
collected and complained about at the end.

This file provides:
- `Flag`, `Options`: the flags, and what was asked for,
- `Argument`, `Argument.classify`: the role of each argument,
- `Directive`: what the command line asks for, or what is wrong with it,
- `CommandLine.read`.
-/

namespace Nameless

/-! ## Flags -/

/-- The flags. -/
inductive Flag where
  | help
  | numerals
  | allowFree
  | verbose
  deriving DecidableEq, Repr

namespace Flag

/-- All flags, in the order of the usage line. -/
def all : List Flag := [help, numerals, allowFree, verbose]

/-- The long name of a flag. -/
def longName : Flag → String
  | help => "--help"
  | numerals => "--numerals"
  | allowFree => "--allow-free"
  | verbose => "--verbose"

/-- The letter of a flag. -/
def letter? : Flag → Option Char
  | help => some 'h'
  | numerals => some 'n'
  | allowFree => none
  | verbose => some 'v'

/-- The flag with a letter. -/
def ofLetter? (c : Char) : Option Flag :=
  all.find? fun flag => flag.letter? == some c

/-- The flags whose long name starts with a text. -/
def startingWith (s : List Char) : List Flag :=
  all.filter fun flag => s.isPrefixOf flag.longName.toList

/-- The names of a flag, as complaints give them. -/
def names (flag : Flag) : String :=
  match flag.letter? with
  | some c => "-" ++ String.singleton c ++ "/" ++ flag.longName
  | none => flag.longName

end Flag

/-- What was asked for. -/
structure Options where
  numerals : Bool := false
  allowFree : Bool := false
  verbose : Bool := false
  file : Option String := none
  deriving DecidableEq, Repr

/-! ## Roles of arguments -/

/-- The role of an argument. -/
inductive Argument where
  /-- The double dash, after which nothing is a flag. -/
  | separator
  | positional (text : String)
  /-- A flag by its letter, and what follows the letter. -/
  | short (flag : Flag) (tail : Option (List Char))
  /-- A flag by its long name, and what follows an equals sign. -/
  | long (flag : Flag) (value : Option (List Char))
  /-- An argument that looks like a flag but is none. -/
  | unknown (text : String)
  deriving DecidableEq, Repr

namespace Argument

/-- Whether an argument is a negative number: a dash, and digits with at most one point, which has a
digit after it. A line feed at the end is passed over. -/
def isNegativeNumber (s : List Char) : Bool :=
  let s := if s.getLast? = some '\n' then s.dropLast else s
  match s with
  | '-' :: rest =>
    let isPlace := fun c => (Text.decimalValue? c).isSome
    match rest.dropWhile isPlace with
    | [] => !rest.isEmpty
    | '.' :: places => !places.isEmpty && places.all isPlace
    | _ => false
  | _ => false

/-- The part of an argument before its first equals sign, and the part after it. -/
def splitValue (s : List Char) : List Char × Option (List Char) :=
  match s.dropWhile (· ≠ '=') with
  | [] => (s, none)
  | _ :: value => (s.takeWhile (· ≠ '='), some value)

/-- An argument that starts with a dash and is no flag: a positional one if it is a negative number
or holds a space, and otherwise an unknown one. -/
def other (text : String) : Argument :=
  if isNegativeNumber text.toList || text.toList.contains ' ' then positional text
  else unknown text

/-- The complaint about a text that starts the names of several flags. -/
def ambiguous (text : String) (flags : List Flag) : String :=
  "ambiguous option: " ++ text ++ " could match " ++
    String.intercalate ", " (flags.map Flag.longName)

/-- The role of an argument, wherever it stands before the separator. -/
def classify (text : String) : Except String Argument :=
  match text.toList with
  | '-' :: '-' :: rest =>
    if rest.isEmpty then .ok separator
    else
      let (name, value) := splitValue ('-' :: '-' :: rest)
      match Flag.startingWith name with
      | [] => .ok (other text)
      | [flag] => .ok (long flag value)
      | flags => .error (ambiguous text flags)
  | '-' :: c :: rest =>
    match Flag.ofLetter? c with
    | none => .ok (other text)
    | some flag =>
      match rest with
      | [] => .ok (short flag none)
      | '=' :: value => .ok (short flag (some value))
      | tail => .ok (short flag (some tail))
  | _ => .ok (positional text)

/-- The roles of the arguments. After the separator all are positional. -/
def classifyAll : List String → Except String (List Argument)
  | [] => .ok []
  | text :: rest => do
    match ← classify text with
    | separator => return separator :: rest.map positional
    | argument => return argument :: (← classifyAll rest)

end Argument

/-! ## Reading the command line -/

/-- What the command line asks for, or what is wrong with it. -/
inductive Directive where
  | help
  | wrong (complaint : String)
  | proceed (options : Options)
  deriving DecidableEq, Repr

namespace CommandLine

/-- The usage line. -/
def usage : String :=
  "usage: dblc [-h] [-n] [--allow-free] [-v] [file]\n"

/-- The answer to a call for help. -/
def helpText : String :=
  usage ++ "\n" ++
  "Untyped lambda calculus interpreter.\n\n" ++
  "positional arguments:\n" ++
  "  file            program to run (if empty, reads stdin or goes to command-\n" ++
  "                  line mode)\n\n" ++
  "options:\n" ++
  "  -h, --help      show this help message and exit\n" ++
  "  -n, --numerals  treat undefined numbers as Church numerals and print numeral\n" ++
  "                  results as numbers\n" ++
  "  --allow-free    let free variables pass through reduction instead of failing\n" ++
  "  -v, --verbose   print every β-reduction to stderr\n"

/-- The complaint printed for a mistake. -/
def errorText (complaint : String) : String :=
  usage ++ "dblc: error: " ++ complaint ++ "\n"

/-- The complaint about a value given to a flag. -/
def ignoredValue (flag : Flag) (value : List Char) : String :=
  "argument " ++ flag.names ++ ": ignored explicit argument " ++ String.ofList (Text.quoted value)

/-- The flags that are joined behind one dash: `flag` and then the letters of the tail. A letter
that is no flag makes the tail from it on a value of the flag before it. -/
def joined (flag : Flag) : List Char → Except String (List Flag)
  | [] => .ok [flag]
  | c :: rest =>
    match Flag.ofLetter? c with
    | none => .error (ignoredValue flag (c :: rest))
    | some next => do
      return flag :: (← joined next rest)

/-- The flags that one argument sets. -/
def flagsOf : Argument → Except String (List Flag)
  | .short flag none => .ok [flag]
  | .short flag (some []) => .error (ignoredValue flag [])
  | .short flag (some tail) => joined flag tail
  | .long flag none => .ok [flag]
  | .long flag (some value) => .error (ignoredValue flag value)
  | _ => .ok []

/-- The options after a flag. -/
def apply (options : Options) : Flag → Options
  | .help => options
  | .numerals => { options with numerals := true }
  | .allowFree => { options with allowFree := true }
  | .verbose => { options with verbose := true }

/-- Takes the arguments in order. `taken` tells whether the file has been taken, also as absent, and
`extras` are the arguments that nobody took. -/
def take (options : Options) (taken : Bool) (extras : List String) : List Argument → Directive
  | [] =>
    if extras.isEmpty then .proceed options
    else .wrong ("unrecognized arguments: " ++ String.intercalate " " extras)
  | .separator :: .positional text :: rest =>
    if taken then take options taken (extras ++ ["--", text]) rest
    else take { options with file := some text } true extras rest
  | .separator :: rest =>
    if taken then take options taken (extras ++ ["--"]) rest else take options true extras rest
  | .positional text :: .separator :: rest =>
    if taken then take options taken (extras ++ [text, "--"]) rest
    else take { options with file := some text } true extras rest
  | .positional text :: rest =>
    if taken then take options taken (extras ++ [text]) rest
    else take { options with file := some text } true extras rest
  | .unknown text :: rest => take options taken (extras ++ [text]) rest
  | argument :: rest =>
    match flagsOf argument with
    | .error complaint => .wrong complaint
    | .ok flags =>
      if flags.contains .help then .help
      else take (flags.foldl apply options) taken extras rest

/-- What the arguments ask for. -/
def read (args : List String) : Directive :=
  match Argument.classifyAll args with
  | .error complaint => .wrong complaint
  | .ok arguments => take {} false [] arguments

end CommandLine
end Nameless
