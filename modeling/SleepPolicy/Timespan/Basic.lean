/-!
# Time spans

A time span counts microseconds in 64 bits; the largest count means that the time never comes.
-/

namespace SleepPolicy

structure Timespan where
  usec : UInt64
  deriving DecidableEq, Repr

namespace Timespan

def zero : Timespan := ⟨0⟩

def infinity : Timespan := ⟨UInt64.ofNat (UInt64.size - 1)⟩

def isInfinity (t : Timespan) : Bool :=
  t == infinity

/-- A count of seconds; one that does not fit is infinite. -/
def ofSeconds (n : UInt64) : Timespan :=
  ⟨UInt64.ofNat (min (n.toNat * 1000000) (UInt64.size - 1))⟩

/-- The whole seconds. -/
def seconds (t : Timespan) : UInt64 :=
  t.usec / 1000000

/-- A count of microseconds, if 64 bits hold it. -/
def ofUsec? (n : Nat) : Option Timespan :=
  if n < UInt64.size then some ⟨UInt64.ofNat n⟩ else none

end Timespan

end SleepPolicy
