import SleepPolicy.Text.Blank

/-!
# Lines of a settings file

What a single line is, whatever stands around it.  Blanks at both ends do not count, nor those
around the first equals sign.
-/

namespace SleepPolicy

inductive SettingsLine
  /-- Blank, or a comment. -/
  | empty
  | header (name : String)
  | malformedHeader (text : String)
  | missingEquals
  | entry (key value : List Char)
  deriving DecidableEq, Repr

namespace SettingsLine

/-- The name in a header, if the line ends in a bracket too.  The opening bracket is already off. -/
def headerName? (rest : List Char) : Option (List Char) :=
  if rest.getLast? = some ']' then some rest.dropLast else none

/-- Splits at the first equals sign. -/
def splitEquals? (text : List Char) : Option (List Char × List Char) :=
  match text.dropWhile (· != '=') with
  | [] => none
  | _ :: value => some (text.takeWhile (· != '='), value)

def ofTrimmed : List Char → SettingsLine
  | [] => empty
  | '#' :: _ => empty
  | ';' :: _ => empty
  | '[' :: rest =>
      match headerName? rest with
      | some name => header (String.ofList name)
      | none => malformedHeader (String.ofList ('[' :: rest))
  | text =>
      match splitEquals? text with
      | some (key, value) => entry (Text.trim key) (Text.trim value)
      | none => missingEquals

def ofText (line : List Char) : SettingsLine :=
  ofTrimmed (Text.trim line)

end SettingsLine

end SleepPolicy
