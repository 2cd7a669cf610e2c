import SleepPolicy.Journal.Logged
import SleepPolicy.Swap.Device
import SleepPolicy.Text.Blank
import SleepPolicy.Text.Lines
import SleepPolicy.Text.Numeral
import SleepPolicy.Text.Octal

/-!
# The swap table

The kernel's table of swap devices: a heading, and one line for each device with its path, type, size,
used part and priority.  Blanks in the path are written as octal escapes.  The first line with a flaw
spoils the table; lines of a type that is not known are skipped.
-/

namespace SleepPolicy

/-- What one line of the table comes to. -/
inductive SwapRow
  | blank
  | unsupported (type : String)
  | device (d : SwapDevice)
  | flawed (flaw : Flaw)
  deriving DecidableEq, Repr

namespace SwapRow

def number (field : List Char) : Except Flaw Int64 :=
  match Text.integer? field with
  | some i => .ok i
  | none => .error (.invalidNumber (String.ofList field))

/-- A size in KiB; a negative one counts as zero. -/
def amount (field : List Char) : Except Flaw UInt64 := do
  let i ← number field
  return UInt64.ofNat i.toInt.toNat

/-- A priority, reduced to 32 bits. -/
def priority (field : List Char) : Except Flaw Int32 := do
  let i ← number field
  return i.toInt32

/-- The numbers are read from left to right, and the first bad one counts. -/
def readDevice (path : List Char) (kind : SwapKind) (size used rank : List Char) :
    Except Flaw SwapDevice := do
  let size ← amount size
  let used ← amount used
  let rank ← priority rank
  return ⟨String.ofList (Text.unescape path), kind, size, used, rank⟩

def ofLine (line : List Char) : SwapRow :=
  match Text.words line with
  | [] => blank
  | [path, type, size, used, rank] =>
      match SwapKind.ofName? (String.ofList type) with
      | none => unsupported (String.ofList type)
      | some kind =>
          match readDevice path kind size used rank with
          | .ok d => device d
          | .error flaw => flawed flaw
  | _ => flawed (.unexpectedLine (String.ofList line))

/-- The devices up to the end of the table, or its first flaw. -/
def devices : List SwapRow → Logged (Except Flaw (List SwapDevice))
  | [] => pure (.ok [])
  | blank :: rest => devices rest
  | unsupported type :: rest => do
      Logged.report (.swapTypeUnsupported type)
      devices rest
  | device d :: rest => do
      match ← devices rest with
      | .ok ds => return .ok (d :: ds)
      | .error flaw => return .error flaw
  | flawed flaw :: _ => pure (.error flaw)

end SwapRow

namespace SwapTable

def rows (content : List Char) : List SwapRow :=
  ((Text.lines content).drop 1).map SwapRow.ofLine

/-- Reads a table that came from the path `source`. -/
def read (source : String) (content : List Char) : Logged (Except Failure (List SwapDevice)) := do
  match ← SwapRow.devices (rows content) with
  | .ok ds => return .ok ds
  | .error flaw => return .error (.malformed source flaw)

end SwapTable

end SleepPolicy
