/-!
# Spelled booleans

Six spellings each for true and false, in any ASCII case.  No character outside ASCII has one of
the letters of these spellings as its lower case, so the ASCII rule is the full one.
-/

namespace SleepPolicy.Text

def trueSpellings : List String := ["yes", "y", "true", "t", "on", "1"]

def falseSpellings : List String := ["no", "n", "false", "f", "off", "0"]

/-- Reads a spelled boolean; blanks around it are not allowed. -/
def boolean? (s : List Char) : Option Bool :=
  let spelling := String.ofList (s.map Char.toLower)
  if spelling ∈ trueSpellings then some true
  else if spelling ∈ falseSpellings then some false
  else none

end SleepPolicy.Text
