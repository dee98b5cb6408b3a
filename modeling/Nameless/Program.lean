import Nameless.CommandLine
import Nameless.FileSystem
import Nameless.Shell
import Nameless.Text.Utf8

/-!
# The program

One run of the interpreter: the command line is read, and then either a program is loaded and its
main definition reduced, or the shell answers lines until it is told to stop. What a run prints and
how it ends depend on nothing but the command line, the files and the standard input.

This file provides:
- `Ending`, `Transcript`: how a run ends, and what it prints,
- `Program.decode`: the text of a program file,
- `Program.batch`: loading and reducing a program,
- `Program.converse`: the shell on given lines,
- `Program.run`, `Program.runIn`: a whole run, and one in a given file system.
-/

namespace Nameless

/-- How a run ends: with an exit status, or with a failure that nobody handled. -/
inductive Ending where
  | exit (status : ExitStatus)
  | escaped (failure : Failure)
  deriving DecidableEq, Repr

/-- How a run ends, and what it prints to its two streams. -/
structure Transcript where
  ending : Ending
  out : String
  err : String
  deriving DecidableEq, Repr

namespace Ending

/-- The end of a run that did what it was asked. -/
def success : Ending :=
  exit (.code 0)

/-- The end of a run from which a failure escapes. -/
def ofFailure : Failure → Ending
  | .exit status => exit status
  | failure => escaped failure

end Ending

namespace Program

/-- The text of a program file with the bytes `bytes?`, or the failure to read it. -/
def decode (path : String) (bytes? : Option (List UInt8)) : Except Failure (List Char) :=
  if path.toList.contains '\x00' then .error (.mishap .nullInName)
  else
    match bytes? with
    | none => .error (.fault (.unreadableFile path))
    | some bytes =>
      match Utf8.decode bytes with
      | .ok cs => .ok (Text.unifyBreaks cs)
      | .error fault => .error (.mishap (.notUtf8 fault))

/-- The session that the options ask for, which works within given bounds. -/
def session (bounds : Bounds) (options : Options) : Session where
  path := options.file.getD standardInput
  numerals := options.numerals
  allowFree := options.allowFree
  limits := bounds

/-- The reporter that the options ask for. -/
def reporter (style : Style) (options : Options) : Reporter where
  verbose := options.verbose
  style := style

/-- The line that tells how many contractions there were. -/
def summary (r : Reporter) : String :=
  r.style.bold (some .cyan)
    ("normal form reached after " ++ toString r.steps ++ " β-reductions")

/-- Loads a program and reduces what it computes: the text to print, or a failure. -/
def compute (bounds : Bounds) (options : Options) (program : List Char) (r : Reporter) :
    Except Failure String × Reporter :=
  let s := session bounds options
  match s.load program (s.register r) with
  | ⟨.error failure, _, r⟩ => (.error failure, r)
  | ⟨.ok (), s, r⟩ =>
    match s.run r with
    | (.error failure, r) => (.error failure, r)
    | (.ok t, r) =>
      let r := if options.verbose then r.print (summary r) else r
      ((s.show? t).map (· ++ "\n"), r)

/-- The transcript of a guarded computation. -/
def finish (out : String) (result : Except Failure Unit) (r : Reporter) : Transcript :=
  match Reporter.guard result r with
  | (.ok _, r) => ⟨.success, out, r.printed⟩
  | (.error failure, r) => ⟨.ofFailure failure, out, r.printed⟩

/-- Runs a program, given its text or the failure to read it. -/
def batch (bounds : Bounds) (style : Style) (options : Options)
    (program : Except Failure (List Char)) : Transcript :=
  let r := reporter style options
  match program with
  | .error failure => finish "" (.error failure) r
  | .ok program =>
    match compute bounds options program r with
    | (.error failure, r) => finish "" (.error failure) r
    | (.ok out, r) => finish out (.ok ()) r

/-- The shell on given lines, and on the end of the input after them. -/
def converse (out : String) (shell : Shell) (r : Reporter) :
    List (List Char) → String × Except Failure Unit × Reporter
  | [] =>
    match shell.respond "EOF".toList r with
    | ⟨stop, more, _, r⟩ => (out ++ Shell.prompt ++ more, stop.map fun _ => (), r)
  | line :: rest =>
    match shell.respond line r with
    | ⟨.error failure, more, _, r⟩ => (out ++ Shell.prompt ++ more, .error failure, r)
    | ⟨.ok true, more, _, r⟩ => (out ++ Shell.prompt ++ more, .ok (), r)
    | ⟨.ok false, more, shell, r⟩ => converse (out ++ Shell.prompt ++ more) shell r rest

/-- The shell that the options ask for, and its reporter. -/
def openShell (bounds : Bounds) (style : Style) (options : Options) : Shell × Reporter :=
  let s := session bounds options
  Shell.start s (s.register (reporter style options))

/-- Runs the shell on an input. -/
def interact (bounds : Bounds) (style : Style) (options : Options) (input : List Char) :
    Transcript :=
  let (shell, r) := openShell bounds style options
  match converse (Shell.intro ++ "\n") shell r (Text.feeds input) with
  | (out, result, r) => finish out result r

/-- The transcript of a call for help. -/
def help : Transcript :=
  ⟨.success, CommandLine.helpText, ""⟩

/-- The transcript of a mistake on the command line. -/
def mistake (complaint : String) : Transcript :=
  ⟨.exit (.code 2), "", CommandLine.errorText complaint⟩

/-- A whole run: on a terminal without a file the shell, and otherwise the program in the file or on
the standard input. -/
def run (bounds : Bounds) (style : Style) (args : List String) (terminal : Bool)
    (input : List Char) (file : String → Option (List UInt8)) : Transcript :=
  match CommandLine.read args with
  | .help => help
  | .wrong complaint => mistake complaint
  | .proceed options =>
    match options.file, terminal with
    | none, true => interact bounds style options input
    | none, false => batch bounds style options (.ok input)
    | some path, _ => batch bounds style options (decode path (file path))

/-- A whole run in a file system. -/
def runIn (bounds : Bounds) (fs : FileSystem) (style : Style) (args : List String)
    (terminal : Bool) (input : List Char) : Transcript :=
  run bounds style args terminal input fs.read?

end Program
end Nameless
