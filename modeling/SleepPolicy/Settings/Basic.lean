import SleepPolicy.Settings.Key
import SleepPolicy.Settings.Permission
import SleepPolicy.Timespan.Basic

/-!
# Settings

What the settings files assign, before any default is filled in, and the effect of one assignment.
-/

namespace SleepPolicy

structure Settings where
  allow : PerOperation Permission
  modes : PerMethod (List String)
  states : PerMethod (List String)
  delay : Option Timespan
  estimation : Option Timespan
  deriving DecidableEq, Repr

/-- Nothing is assigned. -/
def Settings.empty : Settings :=
  ⟨.fill .unset, .fill [], .fill [], none, none⟩

/-- A value given to a key.  A list without words clears the list. -/
inductive Assignment
  | allow (operation : Operation) (permission : Permission)
  | modes (method : Method) (words : List String)
  | states (method : Method) (words : List String)
  | delay (span : Option Timespan)
  | estimation (span : Option Timespan)
  deriving DecidableEq, Repr

def Assignment.key : Assignment → Key
  | allow operation _ => .allow operation
  | modes method _ => .modes method
  | states method _ => .states method
  | delay _ => .delay
  | estimation _ => .estimation

/-- Lists grow with each assignment until one clears them. -/
def Settings.extendList (old words : List String) : List String :=
  if words.isEmpty then [] else old ++ words

def Settings.assign (s : Settings) : Assignment → Settings
  | .allow operation permission => { s with allow := s.allow.set operation permission }
  | .modes method words =>
      { s with modes := s.modes.set method (extendList (s.modes.get method) words) }
  | .states method words =>
      { s with states := s.states.set method (extendList (s.states.get method) words) }
  | .delay span => { s with delay := span }
  | .estimation span => { s with estimation := span }

end SleepPolicy
