import SleepPolicy.Settings.Basic
import SleepPolicy.Timespan.TimeUnit

/-!
# Policies

The settings with every default filled in.  A combined operation is allowed by default when both of
its parts are, and a list of modes or states is either what was assigned or the default, never a
mixture.
-/

namespace SleepPolicy

structure Policy where
  allow : PerOperation Bool
  modes : PerMethod (List String)
  states : PerMethod (List String)
  /-- How long to suspend before hibernating. -/
  delay : Timespan
  /-- How often to look at the battery meanwhile. -/
  estimation : Timespan
  deriving DecidableEq, Repr

namespace Policy

def defaultModes : PerMethod (List String) :=
  ⟨[], ["platform", "shutdown"], ["suspend", "platform", "shutdown"]⟩

def defaultStates : PerMethod (List String) :=
  ⟨["mem", "standby", "freeze"], ["disk"], ["disk"]⟩

def defaultEstimation : Timespan :=
  ⟨UInt64.ofNat TimeUnit.hour.usec⟩

/-- The modes of an operation, none for one without modes of its own. -/
def modesOf (p : Policy) (operation : Operation) : List String :=
  match operation.method? with
  | some method => p.modes.get method
  | none => []

/-- The states of an operation, none for one without states of its own. -/
def statesOf (p : Policy) (operation : Operation) : List String :=
  match operation.method? with
  | some method => p.states.get method
  | none => []

end Policy

namespace Settings

def completeList (assigned default : List String) : List String :=
  if assigned.isEmpty then default else assigned

/-- The permissions with their defaults. -/
def completeAllow (allow : PerOperation Permission) : PerOperation Bool :=
  let suspend := allow.suspend.orElse true
  let hibernate := allow.hibernate.orElse true
  ⟨suspend, hibernate, allow.hybridSleep.orElse (suspend && hibernate),
   allow.suspendThenHibernate.orElse (suspend && hibernate)⟩

/-- An estimation of zero counts as unset. -/
def completeEstimation (span : Option Timespan) : Timespan :=
  match span with
  | none => Policy.defaultEstimation
  | some t => if t = Timespan.zero then Policy.defaultEstimation else t

def complete (s : Settings) : Policy where
  allow := completeAllow s.allow
  modes := s.modes.zipWith completeList Policy.defaultModes
  states := s.states.zipWith completeList Policy.defaultStates
  delay := s.delay.getD Timespan.infinity
  estimation := completeEstimation s.estimation

end Settings

def Policy.default : Policy :=
  Settings.empty.complete

end SleepPolicy
