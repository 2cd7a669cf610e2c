import SleepPolicy.FileTree.Access
import SleepPolicy.Journal.Logged
import SleepPolicy.Text.Blank
import SleepPolicy.Text.Lines

/-!
# Control files of the kernel

One file lists the sleep states that the kernel can enter, another its disk modes, with brackets
around the mode in force.  The first line of a file counts, and an answer means something only if the
file can be written to.
-/

namespace SleepPolicy

namespace Kernel

/-- The words in the first line of a control file. -/
def listed (t : FileTree) (refusals : FileTree.Refusals) (path : String) :
    Logged (Except Failure (List String)) :=
  match t.checkWritable refusals path with
  | .error e => do
      Logged.report (.notWritable path e)
      return .error (.notWritable path e)
  | .ok () =>
      match t.readText path with
      | .error e => do
          Logged.report (.controlUnreadable path e)
          return .error (.unreadable path e)
      | .ok content =>
          return .ok ((Text.words (Text.firstLine content)).map String.ofList)

/-- Takes off one pair of brackets around a word. -/
def withoutBrackets (word : String) : String :=
  match word.toList with
  | '[' :: rest =>
      if rest.getLast? = some ']' then String.ofList rest.dropLast else word
  | _ => word

/-- Whether the kernel lists one of the states; the first of them that it lists is reported. -/
def knowsState (t : FileTree) (refusals : FileTree.Refusals) (path : String)
    (states : List String) : Logged (Except Failure Bool) := do
  if states.isEmpty then
    Logged.report .noStateConfigured
    return .error .noStateConfigured
  else
    match ← listed t refusals path with
    | .error failure => return .error failure
    | .ok known =>
        match states.find? (known.contains ·) with
        | some state =>
            Logged.report (.stateSupported state)
            return .ok true
        | none =>
            Logged.report (.statesUnsupported states)
            return .ok false

/-- Whether the kernel lists one of the modes; the first of its own that is wanted is reported.
Without any mode the kernel takes its default. -/
def knowsMode (t : FileTree) (refusals : FileTree.Refusals) (path : String)
    (modes : List String) : Logged (Except Failure Bool) := do
  if modes.isEmpty then
    Logged.report .noModeConfigured
    return .ok true
  else
    match ← listed t refusals path with
    | .error failure => return .error failure
    | .ok known =>
        match (known.map withoutBrackets).find? (modes.contains ·) with
        | some mode =>
            Logged.report (.modeSupported mode)
            return .ok true
        | none =>
            Logged.report (.modesUnsupported modes)
            return .ok false

end Kernel

end SleepPolicy
