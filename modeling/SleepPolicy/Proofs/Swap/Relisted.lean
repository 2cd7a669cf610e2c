import SleepPolicy.Proofs.Swap.Location

/-!
# The location in another list

Devices on zram can be put in and taken out anywhere: the location stays the same.  The order of the devices
decides among those of one priority and in no other way, so where all priorities differ every order gives
the same location.

## 1. Devices on zram
-/

namespace SleepPolicy

namespace SwapDevice

variable {d : SwapDevice} {ds ds' : List SwapDevice}

theorem onZram_eq_true_iff : d.onZram = true ↔ ∃ rest, d.path = "/dev/zram" ++ rest := by
  rw [onZram, List.isPrefixOf_iff_prefix]
  constructor
  · rintro ⟨rest, hrest⟩
    refine ⟨String.ofList rest, String.toList_inj.mp ?_⟩
    rw [String.toList_append, @String.toList_ofList rest, hrest]
  · rintro ⟨rest, hrest⟩
    exact ⟨rest.toList, by rw [hrest, String.toList_append]⟩

/-- The second list is the first one with devices on zram put in. -/
inductive ZramPutIn : List SwapDevice → List SwapDevice → Prop
  | nil : ZramPutIn [] []
  | keep (d : SwapDevice) {ds ds' : List SwapDevice} (h : ZramPutIn ds ds') :
      ZramPutIn (d :: ds) (d :: ds')
  | putIn {d : SwapDevice} {ds ds' : List SwapDevice} (hd : d.onZram = true) (h : ZramPutIn ds ds') :
      ZramPutIn ds (d :: ds')

theorem ZramPutIn.filter_eq (h : ZramPutIn ds ds') :
    ds'.filter (fun e => !e.onZram) = ds.filter fun e => !e.onZram := by
  induction h with
  | nil => rfl
  | keep d _ ih => rw [List.filter_cons, List.filter_cons, ih]
  | putIn hd _ ih => rw [List.filter_cons_of_neg (by simp [hd]), ih]

theorem ZramPutIn.location?_eq (h : ZramPutIn ds ds') : location? ds' = location? ds := by
  rw [location?, location?, h.filter_eq]

/-! ## 2. Devices in another order -/

namespace IsLocation

theorem mem (h : IsLocation ds d) : d ∈ ds := by
  obtain ⟨-, before, after, rfl, -, -⟩ := h
  simp

theorem le_priority (h : IsLocation ds d) {e : SwapDevice} (he : e ∈ ds) (hzram : e.onZram = false) :
    e.priority.toInt ≤ d.priority.toInt := by
  obtain ⟨-, before, after, rfl, hbefore, hafter⟩ := h
  rcases List.mem_append.mp he with he | he
  · exact Int.le_of_lt (hbefore e he hzram)
  · rcases List.mem_cons.mp he with rfl | he
    · exact Int.le_refl _
    · exact hafter e he hzram

end IsLocation

/-- No two devices have the same priority, those on zram left out. -/
def PrioritiesDiffer (ds : List SwapDevice) : Prop :=
  ds.Pairwise fun d e => d.onZram = false → e.onZram = false → d.priority ≠ e.priority

instance (ds : List SwapDevice) : Decidable (PrioritiesDiffer ds) :=
  inferInstanceAs (Decidable (ds.Pairwise _))

theorem PrioritiesDiffer.perm (h : PrioritiesDiffer ds) (hperm : ds.Perm ds') : PrioritiesDiffer ds' := by
  refine hperm.pairwise h ?_
  intro d e hne hd he heq
  exact hne he hd heq.symm

-- What stands before the highest device cannot have its priority too.
theorem PrioritiesDiffer.isLocation (h : PrioritiesDiffer ds) (hmem : d ∈ ds) (hzram : d.onZram = false)
    (hhighest : ∀ e ∈ ds, e.onZram = false → e.priority.toInt ≤ d.priority.toInt) :
    IsLocation ds d := by
  obtain ⟨before, after, rfl⟩ := List.append_of_mem hmem
  refine ⟨hzram, before, after, rfl, fun e he hezram => ?_, fun e he => hhighest e (by simp [he])⟩
  have hle : e.priority.toInt ≤ d.priority.toInt := hhighest e (by simp [he]) hezram
  have hne : e.priority ≠ d.priority :=
    (List.pairwise_append.mp h).2.2 e he d List.mem_cons_self hezram hzram
  have hne' : e.priority.toInt ≠ d.priority.toInt := fun heq => hne (Int32.toInt_inj.mp heq)
  omega

theorem location?_perm (h : PrioritiesDiffer ds) (hperm : ds.Perm ds') :
    location? ds' = location? ds := by
  cases hds : location? ds with
  | none =>
    rw [location?_eq_none_iff] at hds ⊢
    exact fun d hd => hds d (hperm.mem_iff.mpr hd)
  | some d =>
    rw [location?_eq_some_iff] at hds ⊢
    refine (h.perm hperm).isLocation (hperm.mem_iff.mp hds.mem) hds.1 fun e he hzram => ?_
    exact hds.le_priority (hperm.mem_iff.mpr he) hzram

/-! ## 3. The location that is found -/

/-- There is a location unless every path begins with that of zram, and it is the first device of the
highest priority that is not on zram.  It stays the same when devices on zram are put in or taken out, and
in every other order of the devices if their priorities differ. -/
theorem findLocation_first_highest (ds : List SwapDevice) :
    let location := (findLocation ds).value
    (location = none ↔ ∀ d ∈ ds, ∃ rest, d.path = "/dev/zram" ++ rest) ∧
    (∀ d, location = some d ↔ IsLocation ds d) ∧
    (∀ d, location = some d →
      d ∈ ds ∧ ∀ e ∈ ds, e.onZram = false → e.priority.toInt ≤ d.priority.toInt) ∧
    (∀ ds', ZramPutIn ds ds' ∨ ZramPutIn ds' ds → (findLocation ds').value = location) ∧
    (PrioritiesDiffer ds → ∀ ds', ds.Perm ds' → (findLocation ds').value = location) := by
  intro location
  refine ⟨?_, fun d => location?_eq_some_iff, ?_, ?_, fun h ds' hperm => location?_perm h hperm⟩
  · simp only [← onZram_eq_true_iff]
    exact location?_eq_none_iff
  · intro d hd
    have hlocation : IsLocation ds d := location?_eq_some_iff.mp hd
    exact ⟨hlocation.mem, fun e he => hlocation.le_priority he⟩
  · rintro ds' (h | h)
    · exact h.location?_eq
    · exact h.location?_eq.symm

-- The highest priority is that of a device on zram, and the others have negative ones.
theorem findLocation_first_highest_relisted :
    let zram : SwapDevice := ⟨"/dev/zram0", .partition, 4, 0, 100⟩
    let sda : SwapDevice := ⟨"/dev/sda2", .partition, 8, 1, -2⟩
    let file : SwapDevice := ⟨"/swapfile", .file, 2, 0, -3⟩
    ZramPutIn [file, sda] [file, zram, sda, zram] ∧ PrioritiesDiffer [file, sda] ∧
      [file, sda].Perm [sda, file] ∧
      (findLocation [file, sda]).value = some sda ∧
      (findLocation [file, zram, sda, zram]).value = some sda ∧
      (findLocation [sda, file]).value = some sda := by
  intro zram sda file
  have hputIn : ZramPutIn [file, sda] [file, zram, sda, zram] :=
    .keep file (.putIn (by decide) (.keep sda (.putIn (by decide) .nil)))
  have hdiffer : PrioritiesDiffer [file, sda] := by decide
  have hperm : [file, sda].Perm [sda, file] := List.Perm.swap sda file []
  have hsda : (findLocation [file, sda]).value = some sda := by decide
  obtain ⟨-, -, -, hzram, horder⟩ := findLocation_first_highest [file, sda]
  exact ⟨hputIn, hdiffer, hperm, hsda, (hzram _ (.inl hputIn)).trans hsda,
    (horder hdiffer _ hperm).trans hsda⟩

end SwapDevice

end SleepPolicy
