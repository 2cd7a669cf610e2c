import SleepPolicy.Settings.Fault
import SleepPolicy.Settings.Line
import SleepPolicy.Settings.Value
import SleepPolicy.Text.Lines

/-!
# Findings

What each line of a settings file comes to: an assignment, a fault, or nothing.  The only thing that
a line takes from the lines above it is the section that it stands in.
-/

namespace SleepPolicy

inductive Finding
  | assignment (a : Assignment)
  | fault (f : Fault)
  deriving DecidableEq, Repr

namespace Finding

def assignment? : Finding → Option Assignment
  | assignment a => some a
  | fault _ => none

def fault? : Finding → Option Fault
  | assignment _ => none
  | fault f => some f

/-- An entry of the section `[Sleep]`. -/
def ofEntry (key value : List Char) : Finding :=
  match Key.ofName? (String.ofList key) with
  | none => fault (.unknownKey (String.ofList key))
  | some k =>
      match Assignment.read? k value with
      | some a => assignment a
      | none => fault (.invalidValue k (String.ofList value))

/-- What a line comes to below the header of a section, or above all headers. -/
def ofLine (current : Option String) : SettingsLine → Option Finding
  | .empty => none
  | .header name => if name = Key.sectionName then none else some (fault (.unknownSection name))
  | .malformedHeader text => some (fault (.malformedHeader text))
  | .missingEquals => some (fault .missingEquals)
  | .entry key value =>
      match current with
      | none => some (fault .outsideSection)
      | some name => if name = Key.sectionName then some (ofEntry key value) else none

/-- The section that a line leaves open. -/
def sectionAfter (current : Option String) : SettingsLine → Option String
  | .header name => some name
  | _ => current

/-- One finding or none for each line. -/
def ofLines : Option String → List SettingsLine → List (Option Finding)
  | _, [] => []
  | current, line :: rest => ofLine current line :: ofLines (sectionAfter current line) rest

/-- The findings of a whole file, which begins outside all sections. -/
def ofContent (content : List Char) : List (Option Finding) :=
  ofLines none ((Text.lines content).map SettingsLine.ofText)

end Finding

end SleepPolicy
