import SleepPolicy.Text.Utf8

/-!
# Octal escapes

A backslash and three octal digits stand for one byte, so that a field can hold blanks and
backslashes.  The kernel writes paths in its tables this way.
-/

namespace SleepPolicy.Text

def isOctal (b : UInt8) : Bool :=
  0x30 ≤ b && b ≤ 0x37

/-- The byte of three octal digits, modulo 256. -/
def octalByte (a b c : UInt8) : UInt8 :=
  (a - 0x30) * 64 + (b - 0x30) * 8 + (c - 0x30)

/-- Replaces each escape by its byte, from left to right; a replaced byte is not looked at again. -/
def unescapeBytes : List UInt8 → List UInt8
  | a :: b :: c :: d :: rest =>
      if a == 0x5C && isOctal b && isOctal c && isOctal d then
        octalByte b c d :: unescapeBytes rest
      else
        a :: unescapeBytes (b :: c :: d :: rest)
  | rest => rest

/-- Undoes escapes; bytes that form no UTF-8 text become U+FFFD. -/
def unescape (s : List Char) : List Char :=
  decodeUtf8Lossy (unescapeBytes (encodeUtf8 s))

def octalDigit (n : Nat) : Char :=
  Char.ofNat (48 + n % 8)

def escapeByte (b : UInt8) : List Char :=
  ['\\', octalDigit (b.toNat / 64), octalDigit (b.toNat / 8), octalDigit b.toNat]

/-- Writes one character as escapes, a byte at a time. -/
def escapeChar (c : Char) : List Char :=
  (String.utf8EncodeChar c).flatMap escapeByte

end SleepPolicy.Text
