/-!
# Decimal numerals

Numbers are written in ASCII digits; leading zeros are allowed when reading and never written.
-/

namespace SleepPolicy.Text

/-- Reads a non-empty run of digits. -/
def natural? (s : List Char) : Option Nat :=
  if !s.isEmpty && s.all Char.isDigit then some (Nat.ofDigitChars 10 s 0) else none

/-- Reads digits after an optional plus sign. -/
def unsigned? : List Char → Option Nat
  | '+' :: s => natural? s
  | s => natural? s

/-- Reads digits after an optional sign. -/
def signed? : List Char → Option Int
  | '-' :: s => (natural? s).map fun n => -(n : Int)
  | s => (unsigned? s).map fun n => (n : Int)

/-- Reads an unsigned number of 64 bits. -/
def word? (s : List Char) : Option UInt64 := do
  let n ← unsigned? s
  if n < UInt64.size then some (UInt64.ofNat n) else none

/-- Reads a signed number of 64 bits. -/
def integer? (s : List Char) : Option Int64 := do
  let i ← signed? s
  if Int64.minValue.toInt ≤ i ∧ i ≤ Int64.maxValue.toInt then some (Int64.ofInt i) else none

def decimal (n : Nat) : List Char :=
  Nat.toDigits 10 n

end SleepPolicy.Text
