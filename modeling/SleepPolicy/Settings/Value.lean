import SleepPolicy.Settings.Basic
import SleepPolicy.Timespan.Read

/-!
# Values

How the text after a key is read.  A flag is a permission, a list is split into words, and a time
span may be empty, which unsets it.  Lists accept every text.
-/

namespace SleepPolicy

namespace Assignment

def wordList (value : List Char) : List String :=
  (Text.words value).map String.ofList

/-- Reads a time span, or none from an empty text. -/
def span? (value : List Char) : Option (Option Timespan) :=
  if value.isEmpty then some none else (Timespan.read? value).map some

/-- What a text assigns to a key. -/
def read? (key : Key) (value : List Char) : Option Assignment :=
  match key with
  | .allow operation => (Permission.read? value).map (.allow operation)
  | .modes method => some (.modes method (wordList value))
  | .states method => some (.states method (wordList value))
  | .delay => (span? value).map .delay
  | .estimation => (span? value).map .estimation

end Assignment

end SleepPolicy
