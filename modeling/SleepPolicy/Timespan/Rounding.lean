/-!
# Rounding of ratios

Exact rounding of non-negative ratios of natural numbers: to the nearest integer, and to the nearest
number with a given count of significant bits.  The exponent is not bounded, so no ratio is too small
or too large to be rounded.
-/

namespace SleepPolicy

/-- A non-negative ratio; the denominator is meant to be positive. -/
structure Ratio where
  num : Nat
  den : Nat
  deriving DecidableEq, Repr

namespace Ratio

/-- The nearest integer; a half goes to the even neighbour. -/
def nearestEven (r : Ratio) : Nat :=
  let q := r.num / r.den
  let twice := 2 * (r.num % r.den)
  if r.den < twice ∨ (twice = r.den ∧ q % 2 = 1) then q + 1 else q

/-- The nearest integer; a half goes up. -/
def nearestUp (r : Ratio) : Nat :=
  (2 * r.num + r.den) / (2 * r.den)

/-- The nearest ratio that has at most `bits` significant bits; a tie goes to the even neighbour.
With `lift` the quotient is large enough to show its leading bit, and `drop` bits of it are lost. -/
def roundTo (bits : Nat) (r : Ratio) : Ratio :=
  if r.num = 0 then ⟨0, 1⟩ else
  let lift := bits + r.den.log2
  let drop := (r.num * Nat.pow 2 lift / r.den).log2 + 1 - bits
  ⟨nearestEven ⟨r.num * Nat.pow 2 lift, r.den * Nat.pow 2 drop⟩ * Nat.pow 2 drop, Nat.pow 2 lift⟩

def scale (n : Nat) (r : Ratio) : Ratio :=
  ⟨r.num * n, r.den⟩

end Ratio

end SleepPolicy
