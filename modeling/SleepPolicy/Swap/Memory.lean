import SleepPolicy.Failure
import SleepPolicy.Text.Blank
import SleepPolicy.Text.Lines
import SleepPolicy.Text.Numeral

/-!
# Anonymous memory

The kernel's memory statistics name the amount of anonymous memory in active use, in KiB.  The first
line that begins with the field's name decides.
-/

namespace SleepPolicy

namespace Memory

def activeAnonLabel : List Char := "Active(anon):".toList

/-- The text after a label, if the line begins with it. -/
def afterLabel? (label line : List Char) : Option (List Char) :=
  if label.isPrefixOf line then some (line.drop label.length) else none

/-- Drops every `kB` from the front of a reversed text. -/
def dropReversedUnits : List Char → List Char
  | 'B' :: 'k' :: rest => dropReversedUnits rest
  | rest => rest

/-- Drops every `kB` from the end. -/
def dropUnits (s : List Char) : List Char :=
  (dropReversedUnits s.reverse).reverse

def amount? (value : List Char) : Option UInt64 :=
  Text.word? (Text.trim (dropUnits (Text.trim value)))

def activeAnon (content : List Char) : Except Flaw UInt64 :=
  match (Text.lines content).findSome? (afterLabel? activeAnonLabel) with
  | none => .error .noActiveAnon
  | some value =>
      match amount? value with
      | some n => .ok n
      | none => .error (.invalidActiveAnon (String.ofList (Text.trim value)))

/-- Reads statistics that came from the path `source`. -/
def readActiveAnon (source : String) (content : List Char) : Except Failure UInt64 :=
  match activeAnon content with
  | .ok n => .ok n
  | .error flaw => .error (.malformed source flaw)

end Memory

end SleepPolicy
