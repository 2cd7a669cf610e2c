import SleepPolicy.Text.Blank
import SleepPolicy.Text.Boolean

/-!
# Permissions

A flag that may be left unset, and then follows a default that is known only later.
-/

namespace SleepPolicy

inductive Permission
  | unset | allow | deny
  deriving DecidableEq, Repr

namespace Permission

/-- Reads a spelled boolean between blanks; blanks alone unset the flag. -/
def read? (s : List Char) : Option Permission :=
  let value := Text.trim s
  if value.isEmpty then some unset
  else (Text.boolean? value).map fun b => if b then allow else deny

def orElse (p : Permission) (default : Bool) : Bool :=
  match p with
  | unset => default
  | allow => true
  | deny => false

def text : Permission → String
  | unset => ""
  | allow => "yes"
  | deny => "no"

end Permission

end SleepPolicy
