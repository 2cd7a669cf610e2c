import SleepPolicy.CommandLine.Manifest
import SleepPolicy.CommandLine.Response

/-!
# The program

Reads a manifest of the machine from standard input, and answers the request in the arguments.  The
two environment variables are those of the machine in question.
-/

namespace SleepPolicy

/-- Appends the rest of a stream to a text. -/
partial def appendRest (text : String) (stream : IO.FS.Stream) : IO String := do
  let line ← stream.getLine
  if line.isEmpty then return text else appendRest (text ++ line) stream

/-- The value of an environment variable, if it is set. -/
def variableBytes (name : String) : IO (Option (List UInt8)) := do
  let value ← IO.getEnv name
  return value.map fun text => Text.encodeUtf8 text.toList

def runProgram (arguments : List String) : IO UInt32 := do
  let manifest ← appendRest "" (← IO.getStdin)
  let bypass ← variableBytes WellKnown.bypassVariable
  let level ← variableBytes WellKnown.levelVariable
  match Manifest.read (Manifest.bareMachine bypass) (Text.lines manifest.toList) with
  | .error line =>
      IO.eprintln (Manifest.unreadableText line)
      return 2
  | .ok machine =>
      let response := Response.ofArguments machine (Response.settingOf level) arguments
      response.messages.forM fun message => IO.eprintln message.line
      IO.print response.output
      return response.code.toUInt32

end SleepPolicy

def main (arguments : List String) : IO UInt32 :=
  SleepPolicy.runProgram arguments
