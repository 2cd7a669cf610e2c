import SleepPolicy.Operation

/-!
# Keys

The twelve keys of the section `[Sleep]`, in the order in which they are written.
-/

namespace SleepPolicy

inductive Key
  | allow (operation : Operation)
  | modes (method : Method)
  | states (method : Method)
  | delay
  | estimation
  deriving DecidableEq, Repr

namespace Key

/-- The name of the section that holds the keys. -/
def sectionName : String := "Sleep"

def all : List Key :=
  [allow .suspend, allow .hibernate, allow .suspendThenHibernate, allow .hybridSleep,
   modes .suspend, states .suspend, modes .hibernate, states .hibernate,
   modes .hybridSleep, states .hybridSleep, delay, estimation]

def name : Key → String
  | allow .suspend => "AllowSuspend"
  | allow .hibernate => "AllowHibernation"
  | allow .suspendThenHibernate => "AllowSuspendThenHibernate"
  | allow .hybridSleep => "AllowHybridSleep"
  | modes .suspend => "SuspendMode"
  | states .suspend => "SuspendState"
  | modes .hibernate => "HibernateMode"
  | states .hibernate => "HibernateState"
  | modes .hybridSleep => "HybridSleepMode"
  | states .hybridSleep => "HybridSleepState"
  | delay => "HibernateDelaySec"
  | estimation => "SuspendEstimationSec"

def ofName? (name : String) : Option Key :=
  all.find? (·.name == name)

end Key

end SleepPolicy
