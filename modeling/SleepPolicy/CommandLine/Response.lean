import SleepPolicy.CommandLine.Request
import SleepPolicy.Decision.Machine
import SleepPolicy.Policy.Load
import SleepPolicy.Policy.Render

/-!
# Responses

What the program prints and how it exits: with zero if the answer is yes or the policy was shown, with
one if the answer is anything else, and with two after a usage error.
-/

namespace SleepPolicy

structure Response where
  code : UInt8
  output : String
  /-- The messages that are shown, in order. -/
  messages : List Event
  deriving DecidableEq, Repr

namespace Response

def versionText : String := "elogind-sleep 0.1.0\n"

def usageError : Response :=
  ⟨2, "", []⟩

/-- The value of the level variable; one that is not UTF-8 counts as unset. -/
def settingOf (value : Option (List UInt8)) : Option String :=
  (value.bind Text.decodeUtf8?).map String.ofList

/-- The option comes before the variable, and a variable that names no level does not count. -/
def threshold (o : Options) (setting : Option String) : Threshold :=
  o.level.getD ((setting.bind Threshold.ofName?).getD (.upTo .info))

/-- Prints the answer, or reports why there is none. -/
def answer (operation : Operation) (result : Except Failure Bool) : Logged (UInt8 × String) := do
  match Support.ofResult result with
  | .ok support =>
      Logged.report (.answered operation support)
      return (if support = .yes then 0 else 1, support.text ++ "\n")
  | .error failure =>
      Logged.report (.undecided operation failure)
      return (1, "")

/-- The exit code and the output of a command, with every event on the way. -/
def perform (m : Machine) (root : String) (command : Command) : Logged (UInt8 × String) := do
  let policy ← Policy.load m.tree root
  match command with
  | .showPolicy => return (0, String.ofList policy.render)
  | .can operation =>
      let result ← m.query .standard policy operation
      answer operation result

def ofCommand (m : Machine) (setting : Option String) (o : Options) (command : Command) :
    Response :=
  let done := perform m o.rootPath command
  ⟨done.value.1, done.value.2, done.log.filter fun e => (threshold o setting).admits e.level⟩

/-- The response of the program on a machine, with the setting of the level variable. -/
def ofArguments (m : Machine) (setting : Option String) (arguments : List String) : Response :=
  match Request.ofArguments arguments with
  | none => usageError
  | some .version => ⟨0, versionText, []⟩
  | some (.run o command) => ofCommand m setting o command

end Response

end SleepPolicy
