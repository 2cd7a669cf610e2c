import SleepPolicy.Decision.Query
import SleepPolicy.Kernel
import SleepPolicy.Swap.Check

/-!
# Machines

A machine as far as the decision is concerned: its file tree and what may not be written to in it, the
bypass variable and the alarm clock.  With the system files to look at, a machine is a platform that never
changes its answers.
-/

namespace SleepPolicy

structure Machine where
  tree : FileTree
  refusals : FileTree.Refusals
  /-- The value of the variable that turns the memory check off, if it is set. -/
  bypass : Option (List UInt8)
  /-- Why the clock of the alarm cannot be read, if it cannot. -/
  clockError : Option SystemError
  deriving DecidableEq, Repr

namespace Machine

/-- Whether an alarm can wake the machine, which it can if its clock can be read. -/
def hasAlarm (m : Machine) : Logged Bool :=
  match m.clockError with
  | none => return true
  | some e => do
      Logged.report (.clockUnreadable e)
      return false

def platform (m : Machine) (files : SystemFiles) : Platform Unit :=
  .fixed (Kernel.knowsState m.tree m.refusals files.state)
    (Kernel.knowsMode m.tree m.refusals files.disk) (SwapCheck.hasRoom m.tree m.bypass files)
    m.hasAlarm

/-- Whether an operation is possible on a machine, with all that was reported. -/
def query (m : Machine) (files : SystemFiles) (policy : Policy) (operation : Operation) :
    Logged (Except Failure Bool) :=
  let outcome := Decision.query (m.platform files) policy operation ()
  ⟨outcome.value, outcome.log⟩

end Machine

end SleepPolicy
