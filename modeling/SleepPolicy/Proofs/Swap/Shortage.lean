import Mathlib.Data.List.Basic
import SleepPolicy.Proofs.Swap.Room

/-!
# Shortages and products that stop

The check compares hundredths of a KiB, and both of its products stop at the largest number of 64 bits.
One product that stops does no harm: the comparison is still the exact one.  If both stop, they are equal
and the check says yes, whatever the shortage.  So its yes means that the image fits unless the room
itself is beyond 64 bits.
-/

namespace SleepPolicy

namespace SwapCheck

/-! ## 1. The comparison without bounds -/

/-- What the image needs, in hundredths of a KiB. -/
def needed (active : UInt64) : Int :=
  active.toNat * 100

/-- What a location offers, in hundredths of a KiB: 98 percent of what is free. -/
def offered (location : SwapDevice) : Int :=
  max ((location.size.toNat : Int) - location.used.toNat) 0 * 98

-- The product on the right is even, and so it is never the largest number of 64 bits by itself.
theorem fits_iff {active free : UInt64} :
    fits active free = true ↔
      active.toNat * 100 ≤ free.toNat * 98 ∨ UInt64.size ≤ free.toNat * 98 := by
  have hsize : UInt64.size = 2 ^ 64 := rfl
  rw [fits, decide_eq_true_eq, product, product]
  omega

theorem fits_free_iff {active : UInt64} {location : SwapDevice} :
    fits active location.free = true ↔
      needed active ≤ offered location ∨ (UInt64.size : Int) ≤ offered location := by
  rw [fits_iff, needed, offered, ← toNat_free]
  omega

/-! ## 2. The answer to texts that are accepted -/

section Accepted

variable (t : FileTree) {bypass : Option (List UInt8)} (files : SystemFiles)
variable {table statistics : List Char} {ds : List SwapDevice} {active : UInt64}

theorem value_hasRoom_nowhere (hbypass : ¬Bypasses bypass) (htable : t.HoldsText files.swaps table)
    (hds : (SwapTable.read files.swaps table).value = .ok ds) (hzram : ∀ d ∈ ds, d.onZram = true) :
    (hasRoom t bypass files).value = .ok false := by
  rw [value_hasRoom_ok t (bypassed_eq_false hbypass) (FileTree.readText_eq_ok_iff.mpr htable)]
  exact value_checkTable_nowhere t hds hzram

theorem value_hasRoom_fits (hbypass : ¬Bypasses bypass) (htable : t.HoldsText files.swaps table)
    (hds : (SwapTable.read files.swaps table).value = .ok ds)
    (hstatistics : t.HoldsText files.meminfo statistics)
    (hactive : Memory.readActiveAnon files.meminfo statistics = .ok active)
    {location : SwapDevice} (hlocation : SwapDevice.IsLocation ds location) :
    (hasRoom t bypass files).value = .ok (fits active location.free) := by
  rw [value_hasRoom_ok t (bypassed_eq_false hbypass) (FileTree.readText_eq_ok_iff.mpr htable),
    value_checkTable_somewhere t hds (SwapDevice.location?_eq_some_iff.mpr hlocation)]
  exact value_compareMemory_ok hstatistics hactive location

/-- When the yes of the check can be relied on.  Without a location there is no yes.  At a location there
is one exactly if the room is enough or is beyond 64 bits, so the check errs exactly where the room is
beyond 64 bits and yet too small. -/
theorem hasRoom_yes_reliable_iff (hbypass : ¬Bypasses bypass)
    (htable : t.HoldsText files.swaps table)
    (hds : (SwapTable.read files.swaps table).value = .ok ds)
    (hstatistics : t.HoldsText files.meminfo statistics)
    (hactive : Memory.readActiveAnon files.meminfo statistics = .ok active) :
    let answer := (hasRoom t bypass files).value
    ((∀ d ∈ ds, d.onZram = true) → answer = .ok false) ∧
    ∀ location, SwapDevice.IsLocation ds location →
      (answer = .ok true ↔
        needed active ≤ offered location ∨ (UInt64.size : Int) ≤ offered location) ∧
      (answer = .ok false ↔
        offered location < needed active ∧ offered location < (UInt64.size : Int)) ∧
      ((answer = .ok true → needed active ≤ offered location) ↔
        ¬((UInt64.size : Int) ≤ offered location ∧ offered location < needed active)) := by
  intro answer
  refine ⟨value_hasRoom_nowhere t files hbypass htable hds, fun location hlocation => ?_⟩
  have hanswer : answer = .ok (fits active location.free) :=
    value_hasRoom_fits t files hbypass htable hds hstatistics hactive hlocation
  have hyes : answer = .ok true ↔
      needed active ≤ offered location ∨ (UInt64.size : Int) ≤ offered location := by
    rw [hanswer, Except.ok.injEq, fits_free_iff]
  have hno : answer = .ok false ↔ ¬answer = .ok true := by
    rw [hanswer, Except.ok.injEq, Except.ok.injEq, Bool.not_eq_true]
  refine ⟨hyes, ?_, ?_⟩
  · rw [hno, hyes]
    omega
  · rw [hyes]
    omega

-- The memory in use is beyond 64 bits in hundredths, and the room is as large as it can be without that.
theorem hasRoom_yes_reliable_iff_below_limit :
    let file := fun text : String => Node.file (Text.encodeUtf8 text.toList)
    let table := "Filename\n/dev/sda2 partition 188232082384791344 1 -2\n"
    let statistics := "Active(anon): 18446744073709551615 kB\n"
    let tree : FileTree :=
      ⟨[(["proc"], .directory), (["proc", "swaps"], file table),
        (["proc", "meminfo"], file statistics)], []⟩
    let d : SwapDevice := ⟨"/dev/sda2", .partition, 188232082384791344, 1, -2⟩
    (SwapTable.read "/proc/swaps" table.toList).value = .ok [d] ∧
      Memory.readActiveAnon "/proc/meminfo" statistics.toList = .ok 18446744073709551615 ∧
      (hasRoom tree none .standard).value = .ok false := by
  intro file table statistics tree d
  have hbypass : ¬Bypasses none := by
    rintro ⟨text, h, -⟩
    cases h
  have hds : (SwapTable.read "/proc/swaps" table.toList).value = .ok [d] := by decide +kernel
  have hactive : Memory.readActiveAnon "/proc/meminfo" statistics.toList =
      .ok 18446744073709551615 := by decide +kernel
  have hlocation : SwapDevice.IsLocation [d] d :=
    SwapDevice.location?_eq_some_iff.mp (by decide +kernel)
  have hanswer := hasRoom_yes_reliable_iff tree .standard hbypass (.inl rfl) hds (.inl rfl) hactive
  exact ⟨hds, hactive, ((hanswer.2 d hlocation).2.1).mpr ⟨by decide +kernel, by decide +kernel⟩⟩

/-- Both products stop, and a yes comes of a room that is about half of what is needed. -/
theorem hasRoom_yes_despite_shortage :
    let file := fun text : String => Node.file (Text.encodeUtf8 text.toList)
    let table := "Filename\n/dev/sda2 partition 9223372036854775807 0 -2\n"
    let statistics := "Active(anon): 18446744073709551615 kB\n"
    let tree : FileTree :=
      ⟨[(["proc"], .directory), (["proc", "swaps"], file table),
        (["proc", "meminfo"], file statistics)], []⟩
    let d : SwapDevice := ⟨"/dev/sda2", .partition, 9223372036854775807, 0, -2⟩
    tree.HoldsText "/proc/swaps" table.toList ∧ tree.HoldsText "/proc/meminfo" statistics.toList ∧
      (SwapTable.read "/proc/swaps" table.toList).value = .ok [d] ∧
      Memory.readActiveAnon "/proc/meminfo" statistics.toList = .ok 18446744073709551615 ∧
      SwapDevice.IsLocation [d] d ∧ ¬Bypasses none ∧
      (hasRoom tree none .standard).value = .ok true ∧
      ¬needed 18446744073709551615 ≤ offered d := by
  intro file table statistics tree d
  refine ⟨.inl rfl, .inl rfl, by decide +kernel, by decide +kernel,
    SwapDevice.location?_eq_some_iff.mp (by decide +kernel), ?_, by decide +kernel, by decide +kernel⟩
  rintro ⟨text, h, -⟩
  cases h

end Accepted

end SwapCheck

end SleepPolicy
