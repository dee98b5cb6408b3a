import Nameless.Session.Evaluate
import Nameless.Session.Load

/-!
# The shell

The shell answers one line at a time. A line whose first word is one of four commands is a command;
any other line is a definition if it holds an equals sign, and otherwise a term whose normal form is
printed. A line that fails is reported and changes no definition.

This file provides:
- `Command`, `Command.read`: what a line asks for,
- `Shell`, `Response`: the state of the shell, and its answer to a line,
- `Shell.respond`: answering a line.
-/

namespace Nameless

/-! ## Commands -/

/-- What a line asks for. -/
inductive Command where
  /-- Nothing: the line is blank. -/
  | nothing
  | listDefinitions
  | help
  | exit
  /-- The end of the input, which is also the start of a definition of its name. -/
  | endOfInput (arg : List Char)
  /-- A definition or a term. -/
  | enter (line : List Char)
  deriving DecidableEq, Repr

namespace Command

/-- The characters of command words. -/
def isWordChar (c : Char) : Bool :=
  c.isAlphanum || c == '_'

/-- What a line without surrounding blanks asks for, by its first word. -/
def ofWord (line : List Char) : Command :=
  let word := String.ofList (line.takeWhile isWordChar)
  if word = "defs" then listDefinitions
  else if word = "help" then help
  else if word = "exit" then exit
  else if word = "EOF" then endOfInput (Text.trim (line.dropWhile isWordChar))
  else enter line

/-- What a line asks for. A question mark in front asks for help, an exclamation mark in front
makes the line an entry. -/
def read (line : List Char) : Command :=
  match Text.trim line with
  | [] => nothing
  | '?' :: _ => help
  | '!' :: rest => enter ('!' :: rest)
  | line => ofWord line

end Command

/-! ## The shell -/

/-- The state of the shell: its session, and the number of entries so far. -/
structure Shell where
  session : Session
  entries : Nat := 0

/-- The answer to a line: whether the shell is to stop or the failure that escaped, the text
printed, and the state afterwards. -/
structure Response where
  stop : Except Failure Bool
  out : String
  shell : Shell
  reporter : Reporter

namespace Shell

/-- The greeting. -/
def intro : String :=
  "Lambda calculus interpreter :: De Bruijn backend\nType '?' or 'help' for more information."

/-- The prompt. -/
def prompt : String := "> "

/-- The answer to a call for help. -/
def helpText : String :=
  "Welcome to the dblc interpreter!\n\n" ++
  "Lambda calculus is a Turing-complete language created by Alonzo Church. This \n" ++
  "interpreter reduces terms to their normal form, in normal order.\n\n" ++
  "Try it out by typing 'ID = \\x.x'. This will bind the lambda term '\\x.x' to the \n" ++
  "name 'ID'. Next, try typing '(ID \\y.y)'. This will apply 'ID' to '\\y.y', giving \n" ++
  "'λa.a' as the result. Type 'defs' to list definitions and 'exit' to leave."

/-- A shell over a session, and the reporter it works under: errors do not end a shell. -/
def start (session : Session) (reporter : Reporter) : Shell × Reporter :=
  ({ session := session }, { reporter with fatal := false })

/-- The listing of definitions, one on a line, up to the first that cannot be printed, and why it
cannot. -/
def listing (s : Session) : Definitions → String × Option Failure
  | [] => ("", none)
  | (name, t) :: rest =>
    match s.show? t with
    | .error failure => ("", some failure)
    | .ok text =>
      let (more, failure?) := listing s rest
      (name ++ " = " ++ text ++ "\n" ++ more, failure?)

/-- Works on an entry: adds a definition, or evaluates a term and gives the text to print. -/
def work (s : Session) (content : List Char) (number : Nat) (reporter : Reporter) :
    Outcome String :=
  let line := String.ofList content
  match content with
  | [] => ⟨.ok "", s, reporter⟩
  | _ =>
    if content.contains '=' then
      match s.add line (some number) reporter with
      | ⟨result, s, reporter⟩ => ⟨result.map fun _ => "", s, reporter⟩
    else
      match s.evaluate line (some number) reporter with
      | (result, reporter) => ⟨result.bind fun t => (s.show? t).map (· ++ "\n"), s, reporter⟩

/-- Answers an entry. Its failure is reported, and stops nothing. -/
def enter (shell : Shell) (line : List Char) (reporter : Reporter) : Response :=
  let entries := shell.entries + 1
  match work shell.session (Line.content line) entries reporter with
  | ⟨result, session, reporter⟩ =>
    let shell := { session := session, entries := entries }
    match Reporter.guard result reporter with
    | (.ok (.completed out), reporter) => ⟨.ok false, out, shell, reporter⟩
    | (.ok .suppressed, reporter) => ⟨.ok false, "", shell, reporter⟩
    | (.error failure, reporter) => ⟨.error failure, "", shell, reporter⟩

/-- Lists the definitions. This is not guarded: if one of them cannot be printed, those in front of
it have been, and the failure escapes. -/
def list (shell : Shell) (reporter : Reporter) : Response :=
  match listing shell.session shell.session.definitions with
  | (out, none) => ⟨.ok false, out, shell, reporter⟩
  | (out, some failure) => ⟨.error failure, out, shell, reporter⟩

/-- Answers a line. -/
def respond (shell : Shell) (line : List Char) (reporter : Reporter) : Response :=
  match Command.read line with
  | .nothing => ⟨.ok false, "", shell, reporter⟩
  | .listDefinitions => shell.list reporter
  | .help => ⟨.ok false, helpText ++ "\n", shell, reporter⟩
  | .exit => ⟨.ok true, "", shell, reporter⟩
  | .endOfInput [] => ⟨.ok true, "\n", shell, reporter⟩
  | .endOfInput arg => shell.enter ("EOF ".toList ++ arg) reporter
  | .enter line => shell.enter line reporter

end Shell
end Nameless
