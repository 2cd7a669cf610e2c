/-!
# System files

The four files of the kernel that a decision rests on.
-/

namespace SleepPolicy

structure SystemFiles where
  /-- Lists the sleep states of the kernel. -/
  state : String
  /-- Lists the disk modes of the kernel. -/
  disk : String
  /-- The table of swap devices. -/
  swaps : String
  /-- The memory statistics. -/
  meminfo : String
  deriving DecidableEq, Repr

/-- Where the kernel has them. -/
def SystemFiles.standard : SystemFiles :=
  ⟨"/sys/power/state", "/sys/power/disk", "/proc/swaps", "/proc/meminfo"⟩

end SleepPolicy
