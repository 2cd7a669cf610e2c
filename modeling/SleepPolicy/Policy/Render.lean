import SleepPolicy.Policy.Basic
import SleepPolicy.Timespan.Render

/-!
# Written policies

A policy is written as a settings file that assigns every key once.
-/

namespace SleepPolicy

namespace Policy

def yesNo (b : Bool) : List Char :=
  (if b then "yes" else "no").toList

def joinWords (words : List String) : List Char :=
  [' '].intercalate (words.map String.toList)

/-- The text that a policy assigns to a key. -/
def value (p : Policy) : Key → List Char
  | .allow operation => yesNo (p.allow.get operation)
  | .modes method => joinWords (p.modes.get method)
  | .states method => joinWords (p.states.get method)
  | .delay => p.delay.render
  | .estimation => p.estimation.render

def entryLine (p : Policy) (key : Key) : List Char :=
  key.name.toList ++ '=' :: p.value key

def headerLine : List Char :=
  '[' :: Key.sectionName.toList ++ [']']

/-- The header and one line for each key, every line with its line feed. -/
def render (p : Policy) : List Char :=
  (headerLine :: Key.all.map p.entryLine).flatMap fun line => line ++ ['\n']

end Policy

end SleepPolicy
