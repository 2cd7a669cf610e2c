import SleepPolicy.FileTree.Access
import SleepPolicy.Swap.Location
import SleepPolicy.Swap.Memory
import SleepPolicy.Swap.Table
import SleepPolicy.SystemFiles
import SleepPolicy.Text.Boolean

/-!
# The swap check

Is there room for the image?  The anonymous memory in active use must fit into 98 percent of what is
free at the hibernation location.  A missing swap table means that there is no swap, which is an
answer; a table that cannot be read is a failure, and so are missing memory statistics.
-/

namespace SleepPolicy

namespace SwapCheck

/-- Whether the value of the bypass variable turns the check off.  A value that is not UTF-8 does
not. -/
def bypassed (setting : Option (List UInt8)) : Bool :=
  ((setting.bind Text.decodeUtf8?).bind Text.boolean?).getD false

/-- A product that stops at the largest number of 64 bits. -/
def product (n : UInt64) (factor : Nat) : Nat :=
  min (n.toNat * factor) (UInt64.size - 1)

def fits (active free : UInt64) : Bool :=
  product active 100 ≤ product free 98

/-- Compares the memory in use with the room at the location. -/
def compareMemory (t : FileTree) (meminfo : String) (location : SwapDevice) :
    Logged (Except Failure Bool) :=
  match t.readText meminfo with
  | .error e => pure (.error (.unreadable meminfo e))
  | .ok content =>
      match Memory.readActiveAnon meminfo content with
      | .error failure => pure (.error failure)
      | .ok active => do
          let enough := fits active location.free
          Logged.report (.memoryCompared location.path location.free active enough)
          return .ok enough

/-- Looks for a location in the text of a swap table, and compares if there is one. -/
def checkTable (t : FileTree) (files : SystemFiles) (content : List Char) :
    Logged (Except Failure Bool) := do
  match ← SwapTable.read files.swaps content with
  | .error failure => return .error failure
  | .ok ds =>
      match ← SwapDevice.findLocation ds with
      | none =>
          Logged.report .noLocation
          return .ok false
      | some location => compareMemory t files.meminfo location

/-- Whether there is room for the image. -/
def hasRoom (t : FileTree) (bypass : Option (List UInt8)) (files : SystemFiles) :
    Logged (Except Failure Bool) := do
  if bypassed bypass then
    Logged.report .memoryCheckSkipped
    return .ok true
  else
    match t.readText files.swaps with
    | .error (.system .noEntry) =>
        Logged.report (.swapsMissing files.swaps)
        return .ok false
    | .error e => return .error (.unreadable files.swaps e)
    | .ok content => checkTable t files content

end SwapCheck

end SleepPolicy
