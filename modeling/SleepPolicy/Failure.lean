import SleepPolicy.SystemError

/-!
# Failures

Why a check has no answer.  A shortage of swap is among them, but it has an answer of its own: the
operation is supported and not available now.
-/

namespace SleepPolicy

/-- What is wrong with the text of a kernel table. -/
inductive Flaw
  | unexpectedLine (line : String)
  | invalidNumber (field : String)
  | invalidActiveAnon (value : String)
  | noActiveAnon
  /-- A flaw in the words of whoever found it. -/
  | reported (reason : String)
  deriving DecidableEq, Repr

def Flaw.message : Flaw → String
  | unexpectedLine line => s!"unexpected line '{line}'"
  | invalidNumber field => s!"invalid number '{field}'"
  | invalidActiveAnon value => s!"invalid Active(anon) value '{value}'"
  | noActiveAnon => "no Active(anon) field"
  | reported reason => reason

inductive Failure
  | noStateConfigured
  | notWritable (path : String) (error : SystemError)
  | unreadable (path : String) (error : ReadError)
  | malformed (path : String) (flaw : Flaw)
  | notEnoughSwap
  deriving DecidableEq, Repr

def Failure.message : Failure → String
  | noStateConfigured => "no sleep state configured"
  | notWritable path e => s!"{path} is not writable: {e.symbolText}"
  | unreadable path e => s!"failed to read {path}: {e.message}"
  | malformed path flaw => s!"failed to parse {path}: {flaw.message}"
  | notEnoughSwap => "not enough swap space for hibernation"

end SleepPolicy
