import Nameless.Program

/-!
# The interpreter as a command

Reading arguments, files and the terminal, and printing what the run prints.
-/

namespace Nameless
namespace Main

/-- Whether to write escape sequences: only to a terminal. -/
def styleOf (stream : IO.FS.Stream) : BaseIO Style := do
  return if ← stream.isTty then .escaped else .plain

/-- The bytes of a file, if it can be read. -/
def readBytes? (path : String) : IO (Option (List UInt8)) := do
  try
    return some (← IO.FS.readBinFile path).toList
  catch _ =>
    return none

/-- All that is left of a stream. -/
partial def readAll (stream : IO.FS.Stream) (seen : ByteArray) : IO ByteArray := do
  let more ← stream.read 65536
  if more.isEmpty then return seen else readAll stream (seen ++ more)

/-- Prints a transcript and gives the exit status. -/
def finish (t : Transcript) : IO UInt32 := do
  IO.print t.out
  IO.eprint t.err
  match t.ending with
  | .exit (.code n) => return n.toNat.toUInt32
  | .exit .absent => return 0
  | .exit (.text s) => IO.eprintln s; return 1
  | .escaped _ => return 1

/-- The shell on a terminal. -/
partial def converse (stream : IO.FS.Stream) (shell : Shell) (r : Reporter) : IO UInt32 := do
  IO.print Shell.prompt
  (← IO.getStdout).flush
  let line ← stream.getLine
  let text := if line.isEmpty then "EOF".toList else line.toList
  let response := shell.respond text r
  IO.print response.out
  IO.eprint response.reporter.printed
  let r := { response.reporter with printed := "" }
  match response.stop with
  | .ok true => return 0
  | .ok false => converse stream response.shell r
  | .error failure => finish (Program.finish "" (.error failure) r)

end Main
end Nameless

open Nameless in
/-- Runs the interpreter. -/
def main (args : List String) : IO UInt32 := do
  let stdin ← IO.getStdin
  let terminal ← stdin.isTty
  let style ← Main.styleOf (← IO.getStderr)
  match CommandLine.read args with
  | .help => Main.finish Program.help
  | .wrong complaint => Main.finish (Program.mistake complaint)
  | .proceed options =>
    match options.file, terminal with
    | none, true =>
      IO.println Shell.intro
      let (shell, r) := Program.openShell .standard style options
      Main.converse stdin shell r
    | none, false =>
      let bytes ← Main.readAll stdin .empty
      Main.finish (Program.batch .standard style options (Program.decode "" (some bytes.toList)))
    | some path, _ =>
      let bytes? ← Main.readBytes? path
      Main.finish (Program.batch .standard style options (Program.decode path bytes?))
