import SleepPolicy.Policy.Basic
import SleepPolicy.Settings.Read

/-!
# Reading a policy

One file, read on top of the defaults.
-/

namespace SleepPolicy

def Policy.read (source : String) (content : List Char) : Logged Policy :=
  Settings.complete <$> Settings.empty.read source content

end SleepPolicy
