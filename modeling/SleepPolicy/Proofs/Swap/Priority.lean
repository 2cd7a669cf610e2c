import SleepPolicy.Proofs.Swap.Location
import SleepPolicy.Proofs.Swap.Rows

/-!
# Priorities as they are written

A priority is read as a number of 64 bits and kept in 32.  Priorities that 32 bits can hold are kept as they
are written, and the location is then the first device of the greatest written priority that is not on zram.
Any other priority wraps around: the table is read all the same, but the order of its devices is not the
written one.

## 1. Written priorities
-/

namespace SleepPolicy

namespace SwapRow

/-- The line has a known type, and its fifth field stands for the integer. -/
inductive Ranks (line : List Char) (r : Int) : Prop
  | rank {path size used rank : List Char} {kind : SwapKind}
      (hwords : Text.words line = [path, kind.name.toList, size, used, rank])
      (hrank : Text.SignedDigits rank r)

/-- The integers that 32 bits can hold. -/
def IsPriority (r : Int) : Prop :=
  Int32.minValue.toInt ≤ r ∧ r ≤ Int32.maxValue.toInt

instance (r : Int) : Decidable (IsPriority r) := inferInstanceAs (Decidable (_ ∧ _))

theorem isPriority_toInt (p : Int32) : IsPriority p.toInt := by
  rw [IsPriority, Int32.toInt_minValue, Int32.toInt_maxValue]
  have hlo := p.le_toInt
  have hhi := p.toInt_lt
  omega

theorem bmod_eq_self_iff {r : Int} : r.bmod Int32.size = r ↔ IsPriority r := by
  have hsize : Int32.size = 2 ^ 32 := rfl
  rw [IsPriority, Int32.toInt_minValue, Int32.toInt_maxValue, hsize, Int.bmod_def]
  omega

section Line

variable {line : List Char}

theorem ranks_iff {r : Int} :
    Ranks line r ↔ (type? line).any (· ∈ kindNames) = true ∧
      (Text.words line).getLast?.bind Text.signed? = some r := by
  constructor
  · rintro ⟨hwords, hrank⟩
    rw [type?_of_words hwords, hwords]
    exact ⟨by simpa using mem_kindNames.mpr ⟨_, rfl⟩, Text.signed?_eq_some_iff.mpr hrank⟩
  · rintro ⟨htype, hrank⟩
    rcases line_cases line with hwords | ⟨-, hlength⟩ |
      ⟨path, type, size, used, rank, hwords, hmem | ⟨kind, rfl⟩⟩
    · rw [type?_of_length_ne (by simp [hwords])] at htype
      cases htype
    · rw [type?_of_length_ne hlength] at htype
      cases htype
    · rw [type?_of_words hwords] at htype
      exact absurd (by simpa using htype) hmem
    · rw [hwords] at hrank
      exact .rank hwords (Text.signed?_eq_some_iff.mp hrank)

instance (line : List Char) (r : Int) : Decidable (Ranks line r) :=
  decidable_of_iff' _ ranks_iff

-- Digits stand for one integer only.
theorem Ranks.unique {r r' : Int} (h : Ranks line r) (h' : Ranks line r') : r = r' := by
  have hrank := (ranks_iff.mp h).2
  exact Option.some.inj (hrank.symm.trans (ranks_iff.mp h').2)

theorem Shows.exists_ranks {d : SwapDevice} (h : Shows line d) :
    ∃ r, Ranks line r ∧ d.priority.toInt = r.bmod Int32.size := by
  obtain ⟨hwords, -, -, hrank⟩ := h
  exact ⟨_, .rank hwords hrank, Int64.toInt_toInt32 _⟩

end Line

theorem exists_forall₂_ranks {ls : List (List Char)} {ds : List SwapDevice}
    (h : List.Forall₂ Shows ls ds) :
    ∃ written : List Int, List.Forall₂ Ranks ls written ∧
      ds.map (fun d => d.priority.toInt) = written.map fun r => r.bmod Int32.size := by
  induction h with
  | nil => exact ⟨[], .nil, rfl⟩
  | cons hshows _ ih =>
    obtain ⟨r, hr, hpriority⟩ := hshows.exists_ranks
    obtain ⟨written, hwritten, hpriorities⟩ := ih
    refine ⟨r :: written, .cons hr hwritten, ?_⟩
    rw [List.map_cons, List.map_cons, hpriority, hpriorities]

theorem forall₂_ranks_unique {ls : List (List Char)} {written written' : List Int}
    (h : List.Forall₂ Ranks ls written) (h' : List.Forall₂ Ranks ls written') : written = written' :=
  List.right_unique_forall₂' (fun _ _ _ hr hr' => hr.unique hr') h h'

end SwapRow

/-! ## 2. The location among written priorities -/

namespace SwapDevice

/-- Not on zram, above all such devices before it, and below none after it, by the priorities that the
devices are paired with. -/
def IsHighestWritten (ranked : List (Int × SwapDevice)) (d : SwapDevice) : Prop :=
  d.onZram = false ∧ ∃ r before after, ranked = before ++ (r, d) :: after ∧
    (∀ e ∈ before, e.2.onZram = false → e.1 < r) ∧ (∀ e ∈ after, e.2.onZram = false → e.1 ≤ r)

theorem zip_map_priority (ds : List SwapDevice) :
    (ds.map fun d => d.priority.toInt).zip ds = ds.map fun d => (d.priority.toInt, d) := by
  induction ds with
  | nil => rfl
  | cons d ds ih => rw [List.map_cons, List.zip_cons_cons, List.map_cons, ih]

theorem isHighestWritten_iff {ds : List SwapDevice} {d : SwapDevice} :
    IsHighestWritten ((ds.map fun d => d.priority.toInt).zip ds) d ↔ IsLocation ds d := by
  rw [zip_map_priority]
  constructor
  · rintro ⟨hd, r, before, after, hsplit, hbefore, hafter⟩
    obtain ⟨l, rest, rfl, rfl, hrest⟩ := List.map_eq_append_iff.mp hsplit
    obtain ⟨e, l', rfl, he, rfl⟩ := List.map_eq_cons_iff.mp hrest
    obtain ⟨rfl, rfl⟩ := Prod.mk.inj he
    exact ⟨hd, l, l', rfl, fun c hc => hbefore _ (List.mem_map_of_mem hc),
      fun c hc => hafter _ (List.mem_map_of_mem hc)⟩
  · rintro ⟨hd, before, after, rfl, hbefore, hafter⟩
    refine ⟨hd, d.priority.toInt, before.map fun d => (d.priority.toInt, d),
      after.map fun d => (d.priority.toInt, d), ?_, ?_, ?_⟩
    · rw [List.map_append, List.map_cons]
    · exact List.forall_mem_map.mpr hbefore
    · exact List.forall_mem_map.mpr hafter

end SwapDevice

/-! ## 3. Tables -/

namespace SwapTable

open SwapRow

/-- The lines of a known type below the heading. -/
def deviceLines (content : List Char) : List (List Char) :=
  ((Text.lines content).drop 1).filter fun line => (type? line).any (· ∈ kindNames)

theorem forall₂_shows_of_read {source : String} {content : List Char} {ds : List SwapDevice}
    (h : (read source content).value = .ok ds) : List.Forall₂ Shows (deviceLines content) ds := by
  rw [value_read_eq] at h
  split at h
  · cases h
  · rename_i hnone
    obtain rfl := Except.ok.inj h
    exact forall₂_shows (findSome?_flaw?_eq_none_iff.mp hnone)

/-- When a table that is read keeps the written priorities.  There is a device for each line of a known
type, and its priority is the written one reduced to 32 bits.  The reduction changes nothing exactly if
32 bits can hold every written priority, and then the location goes by the written priorities. -/
theorem read_keeps_priorities_iff {source : String} {content : List Char} {ds : List SwapDevice}
    (h : (read source content).value = .ok ds) :
    List.Forall₂ Shows (deviceLines content) ds ∧
    ∃ written : List Int,
      (∀ rs, List.Forall₂ Ranks (deviceLines content) rs ↔ rs = written) ∧
      ds.map (fun d => d.priority.toInt) = written.map (fun r => r.bmod Int32.size) ∧
      (ds.map (fun d => d.priority.toInt) = written ↔ ∀ r ∈ written, IsPriority r) ∧
      ((∀ r ∈ written, IsPriority r) → ∀ d,
        SwapDevice.location? ds = some d ↔ SwapDevice.IsHighestWritten (written.zip ds) d) := by
  have hshows := forall₂_shows_of_read h
  obtain ⟨written, hwritten, hpriorities⟩ := exists_forall₂_ranks hshows
  have hkept : ds.map (fun d => d.priority.toInt) = written ↔ ∀ r ∈ written, IsPriority r := by
    constructor
    · rintro rfl
      exact List.forall_mem_map.mpr fun d _ => isPriority_toInt d.priority
    · intro hfit
      have hself : ∀ r ∈ written, r.bmod Int32.size = r :=
        fun r hr => bmod_eq_self_iff.mpr (hfit r hr)
      rw [hpriorities, List.map_congr_left hself, List.map_id']
  refine ⟨hshows, written, fun rs => ?_, hpriorities, hkept, fun hfit d => ?_⟩
  · exact ⟨fun hrs => forall₂_ranks_unique hrs hwritten, fun hrs => hrs ▸ hwritten⟩
  · rw [← hkept.mpr hfit, SwapDevice.isHighestWritten_iff, SwapDevice.location?_eq_some_iff]

-- The greatest priority belongs to a device on zram, and the sign of a priority is part of it.
theorem read_keeps_priorities_iff_signed :
    let content :=
      "Filename\n/dev/sda2 partition 9 1 -2\n/dev/zram0 partition 4 0 100\n/file file 2 0 +7\n".toList
    let sda : SwapDevice := ⟨"/dev/sda2", .partition, 9, 1, -2⟩
    let zram : SwapDevice := ⟨"/dev/zram0", .partition, 4, 0, 100⟩
    let file : SwapDevice := ⟨"/file", .file, 2, 0, 7⟩
    (read "/proc/swaps" content).value = .ok [sda, zram, file] ∧
      List.Forall₂ Ranks (deviceLines content) [-2, 100, 7] ∧
      SwapDevice.IsHighestWritten [(-2, sda), (100, zram), (7, file)] file := by
  intro content sda zram file
  have hread : (read "/proc/swaps" content).value = .ok [sda, zram, file] := by decide +kernel
  have hranks : List.Forall₂ Ranks (deviceLines content) [-2, 100, 7] := by decide +kernel
  obtain ⟨-, written, hunique, -, -, hlocation⟩ := read_keeps_priorities_iff hread
  obtain rfl := (hunique _).mp hranks
  exact ⟨hread, hranks, (hlocation (by decide) file).mp (by decide +kernel)⟩

/-- The written priority of the first line wraps around to the least one there is, and the other device
becomes the location. -/
theorem read_wraps_priority :
    let content := "Filename\n/dev/sda2 partition 100 0 2147483648\n/swapfile file 200 0 5\n".toList
    let sda : SwapDevice := ⟨"/dev/sda2", .partition, 100, 0, -2147483648⟩
    let file : SwapDevice := ⟨"/swapfile", .file, 200, 0, 5⟩
    (read "/proc/swaps" content).value = .ok [sda, file] ∧
      List.Forall₂ Ranks (deviceLines content) [2147483648, 5] ∧
      [sda, file].map (fun d => d.priority.toInt) ≠ [2147483648, 5] ∧
      SwapDevice.IsHighestWritten [(2147483648, sda), (5, file)] sda ∧
      SwapDevice.location? [sda, file] = some file := by
  intro content sda file
  have hhighest : SwapDevice.IsHighestWritten [(2147483648, sda), (5, file)] sda :=
    ⟨by decide +kernel, 2147483648, [], [(5, file)], rfl, by simp, by simp⟩
  exact ⟨by decide +kernel, by decide +kernel, by decide +kernel, hhighest, by decide +kernel⟩

end SwapTable

end SleepPolicy
