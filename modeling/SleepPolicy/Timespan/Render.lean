import SleepPolicy.Text.Numeral
import SleepPolicy.Timespan.Basic
import SleepPolicy.Timespan.TimeUnit

/-!
# Written time spans

A time span is written as counts of units, from the longest unit that fits to the shortest, with one
space between them: `1h 30min`.  Zero and infinity have texts of their own.
-/

namespace SleepPolicy

namespace Timespan

/-- A count of one unit. -/
structure Part where
  count : Nat
  unit : TimeUnit
  deriving DecidableEq, Repr

def Part.render (p : Part) : List Char :=
  Text.decimal p.count ++ p.unit.symbol.toList

/-- Takes each unit as often as it fits into what the units before it left. -/
def decompose : List TimeUnit → Nat → List Part
  | [], _ => []
  | u :: us, n =>
      if n < u.usec then decompose us n else ⟨n / u.usec, u⟩ :: decompose us (n % u.usec)

def render (t : Timespan) : List Char :=
  if t = infinity then "infinity".toList
  else if t = zero then "0".toList
  else [' '].intercalate ((decompose TimeUnit.all t.usec.toNat).map Part.render)

instance : ToString Timespan := ⟨fun t => String.ofList t.render⟩

end Timespan

end SleepPolicy
