import SleepPolicy.Text.Blank
import SleepPolicy.Text.Numeral
import SleepPolicy.Timespan.Basic
import SleepPolicy.Timespan.Rounding
import SleepPolicy.Timespan.TimeUnit

/-!
# Reading time spans

A time span is a sequence of components, each a decimal number and an optional unit, with or without
blanks between them: `90`, `2h30m`, `1.5h 10s`.  The components are added exactly, and a sum that 64
bits do not hold is refused.

## 1. Segments

The text is first cut into segments, which always succeeds.  A segment is a run of digits and points
followed by a run of other characters; it ends at a blank, or where a digit follows the other
characters.
-/

namespace SleepPolicy

namespace Timespan

def isNumeric (c : Char) : Bool :=
  c.isDigit || c == '.'

structure Segment where
  number : List Char
  unit : List Char
  deriving DecidableEq, Repr

/-- The segment that ends here, unless nothing has been read. -/
def finish (number unit : List Char) : List Segment :=
  if number.isEmpty && unit.isEmpty then [] else [⟨number, unit⟩]

/-- The segments of a text, when a number and a unit have been read already. -/
def segmentsFrom (number unit : List Char) : List Char → List Segment
  | [] => finish number unit
  | c :: s =>
      if Text.isBlank c then finish number unit ++ segmentsFrom [] [] s
      else if unit.isEmpty && isNumeric c then segmentsFrom (number ++ [c]) [] s
      else if c.isDigit then finish number unit ++ segmentsFrom [c] [] s
      else segmentsFrom number (unit ++ [c]) s

def segments (s : List Char) : List Segment :=
  segmentsFrom [] [] s

/-!
## 2. Components

A number has at most one point and at least one digit.  Its fraction is read as the nearest number
with 53 significant bits, the product with the unit is rounded in the same way, and the result goes
to the nearest microsecond, a half going up.
-/

structure Component where
  whole : Nat
  /-- The digits after the point. -/
  fraction : List Char
  unit : TimeUnit
  deriving DecidableEq, Repr

/-- Both sides of the first point; a number without a point has no fraction. -/
def splitPoint (number : List Char) : List Char × List Char :=
  (number.takeWhile (· != '.'), (number.dropWhile (· != '.')).drop 1)

def Component.ofSegment? (s : Segment) : Option Component := do
  let unit ← TimeUnit.ofName? (String.ofList s.unit)
  let (whole, fraction) := splitPoint s.number
  if whole.isEmpty && fraction.isEmpty then none
  else if fraction.all Char.isDigit then
    some ⟨Nat.ofDigitChars 10 whole 0, fraction, unit⟩
  else none

/-- The microseconds in the fraction `0.digits` of a unit. -/
def fractionUsec (digits : List Char) (unit : TimeUnit) : Nat :=
  let exact : Ratio := ⟨Nat.ofDigitChars 10 digits 0, Nat.pow 10 digits.length⟩
  (((exact.roundTo 53).scale unit.usec).roundTo 53).nearestUp

def Component.usec (c : Component) : Nat :=
  c.whole * c.unit.usec + fractionUsec c.fraction c.unit

/-! ## 3. Time spans -/

def total : List Nat → Nat
  | [] => 0
  | n :: rest => n + total rest

def read? (s : List Char) : Option Timespan :=
  let text := Text.trim s
  if text.isEmpty then none
  else if text = "infinity".toList then some infinity
  else do
    let components ← (segments text).mapM Component.ofSegment?
    ofUsec? (total (components.map Component.usec))

end Timespan

end SleepPolicy
