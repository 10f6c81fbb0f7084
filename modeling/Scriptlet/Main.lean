import Scriptlet.CommandLine

/-!
# The program

Reads the script file, runs the command line on it, and writes what it comes to.

A run is a function of the whole input, while a user types one line at a time and wants to see
the prompt first. So the script is run on the input that has arrived. If that is not enough, what
it wrote is shown, more input is fetched, and the script is run again from its start; as the first
part of the input is the same, so is the first part of the output, which is not shown twice.
-/

namespace Scriptlet

namespace CommandLine

/-- What stands in the place of the script file. -/
def findScript (path : String) : IO Script := do
  try
    return .bytes (← IO.FS.readBinFile path).toList
  catch
    | .noFileOrDirectory .. => return .missing
    | error => return .unreadable (toString error)

/-- Fetches bytes up to a line break or the end of a stream, behind those already fetched. -/
partial def fetchLine (stream : IO.FS.Stream) (fetched : Array UInt8) : IO (Array UInt8) := do
  match (← stream.read 1).toList with
  | [] => return fetched
  | byte :: _ =>
    let fetched := fetched.push byte
    if byte = LineSource.lineBreak then return fetched else fetchLine stream fetched

/-- Fetches more input: a line that a user types, or all of a file. There is none at the end. -/
def fetchInput (stream : IO.FS.Stream) : IO (List UInt8) := do
  if ← stream.isTty then return (← fetchLine stream #[]).toList
  else return (← stream.readBinToEnd).toList

/-- Writes what has not been shown of an output. -/
def showFrom (shown : Nat) (output : Array UInt8) : IO Unit := do
  let stream ← IO.getStdout
  stream.write ⟨output.extract shown output.size⟩
  stream.flush

/-- Runs the command line on the input that has arrived, and on more as long as it is wanted. -/
partial def converse (request : Request) (script : Script) (arrived : List UInt8) (shown : Nat) :
    IO Outcome := do
  let outcome := run Session.manySteps request script ⟨arrived, true⟩
  showFrom shown outcome.stdout
  if !outcome.wantsInput then return outcome
  let more ← fetchInput (← IO.getStdin)
  if more.isEmpty then
    let final := run Session.manySteps request script ⟨arrived, false⟩
    showFrom outcome.stdout.size final.stdout
    return final
  converse request script (arrived ++ more) outcome.stdout.size

end CommandLine

end Scriptlet

/-- Runs the script file that the arguments name. -/
def main (arguments : List String) : IO UInt32 := do
  match Scriptlet.CommandLine.ofArguments? arguments with
  | none =>
    IO.eprintln "usage: scriptlet SCRIPT [--dump] [--verbose]"
    return 2
  | some request =>
    let script ← Scriptlet.CommandLine.findScript request.path
    let outcome ← Scriptlet.CommandLine.converse request script [] 0
    let stream ← IO.getStderr
    let mark := if ← stream.isTty then Scriptlet.CommandLine.colouredMark
      else Scriptlet.CommandLine.plainMark
    stream.putStr (outcome.errorStream mark)
    return outcome.status.toUInt32
