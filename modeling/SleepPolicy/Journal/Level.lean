/-!
# Levels

How severe a message is, and how severe it must be to be shown.
-/

namespace SleepPolicy

inductive Level
  | error | warn | info | debug | trace
  deriving DecidableEq, Repr

namespace Level

/-- One for the most severe level. -/
def rank : Level → Nat
  | error => 1
  | warn => 2
  | info => 3
  | debug => 4
  | trace => 5

def text : Level → String
  | error => "ERROR"
  | warn => "WARN"
  | info => "INFO"
  | debug => "DEBUG"
  | trace => "TRACE"

end Level

/-- Shows the messages that are at least as severe as a level, or none. -/
inductive Threshold
  | off
  | upTo (level : Level)
  deriving DecidableEq, Repr

namespace Threshold

def all : List Threshold :=
  [off, upTo .error, upTo .warn, upTo .info, upTo .debug, upTo .trace]

def name : Threshold → String
  | off => "OFF"
  | upTo level => level.text

def admits : Threshold → Level → Bool
  | off, _ => false
  | upTo most, level => level.rank ≤ most.rank

/-- Reads a name in any ASCII case. -/
def ofName? (name : String) : Option Threshold :=
  all.find? (·.name.toList == name.toList.map Char.toUpper)

end Threshold

end SleepPolicy
