import SleepPolicy.Journal.Logged
import SleepPolicy.Swap.Device

/-!
# The hibernation location

The kernel writes the image to the swap device with the highest priority that is not on zram; of
several with that priority, to the one listed first.
-/

namespace SleepPolicy

namespace SwapDevice

/-- A later device replaces the best one so far only if its priority is higher. -/
def better (best : Option SwapDevice) (d : SwapDevice) : Option SwapDevice :=
  match best with
  | none => some d
  | some b => if b.priority < d.priority then some d else some b

def location? (ds : List SwapDevice) : Option SwapDevice :=
  (ds.filter fun d => !d.onZram).foldl better none

/-- The location, with a report of each device that was left out. -/
def findLocation (ds : List SwapDevice) : Logged (Option SwapDevice) :=
  ⟨location? ds, (ds.filter onZram).map fun d => .swapOnZram d.path⟩

end SwapDevice

end SleepPolicy
