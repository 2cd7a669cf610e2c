/-!
# Swap devices

A swap device as the kernel lists it; sizes are in KiB.
-/

namespace SleepPolicy

inductive SwapKind
  | partition | file
  deriving DecidableEq, Repr

namespace SwapKind

def name : SwapKind → String
  | partition => "partition"
  | file => "file"

def ofName? (name : String) : Option SwapKind :=
  [partition, file].find? (·.name == name)

end SwapKind

structure SwapDevice where
  path : String
  kind : SwapKind
  size : UInt64
  used : UInt64
  priority : Int32
  deriving DecidableEq, Repr

namespace SwapDevice

/-- The unused part; a device never has less than nothing left. -/
def free (d : SwapDevice) : UInt64 :=
  UInt64.ofNat (d.size.toNat - d.used.toNat)

/-- Compressed memory is swap too, but it does not survive hibernation. -/
def onZram (d : SwapDevice) : Bool :=
  "/dev/zram".toList.isPrefixOf d.path.toList

end SwapDevice

end SleepPolicy
