import SleepPolicy.Settings.Key

/-!
# Faults

What can be wrong with a line of a settings file.  A faulty line is reported and has no effect,
except that the header of an unknown section still opens that section.
-/

namespace SleepPolicy

inductive Fault
  | unknownSection (name : String)
  | malformedHeader (line : String)
  | missingEquals
  | outsideSection
  | unknownKey (name : String)
  | invalidValue (key : Key) (value : String)
  deriving DecidableEq, Repr

def Fault.message : Fault → String
  | unknownSection name => s!"Unknown section '{name}'. Ignoring."
  | malformedHeader line => s!"Invalid section header '{line}', ignoring."
  | missingEquals => "Missing '=', ignoring line."
  | outsideSection => "Assignment outside of section. Ignoring."
  | unknownKey name => s!"Unknown key '{name}' in section [{Key.sectionName}], ignoring."
  | invalidValue (.allow operation) value =>
      s!"Failed to parse boolean value for {(Key.allow operation).name}=, ignoring: {value}"
  | invalidValue key value => s!"Failed to parse {key.name}= parameter, ignoring: {value}"

end SleepPolicy
