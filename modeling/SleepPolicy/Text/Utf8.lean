/-!
# UTF-8

Bytes are scanned once, from left to right.  Every well-formed sequence yields its character, and
every longest beginning of a sequence that then breaks off yields one gap, as does a byte that can
begin no sequence.  Strict decoding wants no gap; lossy decoding puts U+FFFD for each.
-/

namespace SleepPolicy.Text

/-- A sequence that has begun: the bits read so far, the bounds of the next byte, and the count of
the bytes after that one. -/
structure Sequence where
  bits : Nat
  lo : UInt8
  hi : UInt8
  more : Nat
  deriving DecidableEq, Repr

/-- The sequence that a first byte begins.  The bounds of the second byte keep out overlong forms,
surrogates and numbers above U+10FFFF. -/
def Sequence.ofFirst? (b : UInt8) : Option Sequence :=
  if b < 0xC2 then none
  else if b < 0xE0 then some ⟨b.toNat % 32, 0x80, 0xBF, 0⟩
  else if b = 0xE0 then some ⟨0, 0xA0, 0xBF, 1⟩
  else if b = 0xED then some ⟨13, 0x80, 0x9F, 1⟩
  else if b < 0xF0 then some ⟨b.toNat % 16, 0x80, 0xBF, 1⟩
  else if b = 0xF0 then some ⟨0, 0x90, 0xBF, 2⟩
  else if b < 0xF4 then some ⟨b.toNat % 8, 0x80, 0xBF, 2⟩
  else if b = 0xF4 then some ⟨4, 0x80, 0x8F, 2⟩
  else none

/-- A byte outside any sequence: what it yields, and the sequence that it begins. -/
def scanFirst (b : UInt8) : List (Option Char) × Option Sequence :=
  if b < 0x80 then ([some (Char.ofNat b.toNat)], none)
  else match Sequence.ofFirst? b with
    | some s => ([], some s)
    | none => ([none], none)

def scanByte (state : Option Sequence) (b : UInt8) : List (Option Char) × Option Sequence :=
  match state with
  | none => scanFirst b
  | some s =>
      if s.lo ≤ b && b ≤ s.hi then
        let bits := s.bits * 64 + b.toNat % 64
        match s.more with
        | 0 => ([some (Char.ofNat bits)], none)
        | more + 1 => ([], some ⟨bits, 0x80, 0xBF, more⟩)
      else
        (none :: (scanFirst b).1, (scanFirst b).2)

/-- The characters and gaps of a byte string. -/
def scan : Option Sequence → List UInt8 → List (Option Char)
  | none, [] => []
  | some _, [] => [none]
  | state, b :: bs => (scanByte state b).1 ++ scan (scanByte state b).2 bs

def encodeUtf8 (s : List Char) : List UInt8 :=
  s.flatMap String.utf8EncodeChar

def decodeUtf8? (bytes : List UInt8) : Option (List Char) :=
  (scan none bytes).mapM id

def decodeUtf8Lossy (bytes : List UInt8) : List Char :=
  (scan none bytes).map fun c => c.getD '\uFFFD'

end SleepPolicy.Text
