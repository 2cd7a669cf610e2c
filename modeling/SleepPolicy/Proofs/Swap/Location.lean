import SleepPolicy.Swap.Location

/-!
# The hibernation location among the devices

The location is the device that beats all before it and is not beaten by any after it, devices on zram
left out.  There is one unless every device is on zram, and there is never more than one.
-/

namespace SleepPolicy

namespace SwapDevice

/-! ## 1. The first of highest priority -/

/-- What comes before has a lower priority, and what comes after has no higher one. -/
def IsFirstHighest (ds : List SwapDevice) (d : SwapDevice) : Prop :=
  ∃ before after, ds = before ++ d :: after ∧
    (∀ e ∈ before, e.priority < d.priority) ∧ (∀ e ∈ after, e.priority ≤ d.priority)

namespace IsFirstHighest

variable {ds : List SwapDevice} {b d : SwapDevice}

theorem le_priority (h : IsFirstHighest ds d) {e : SwapDevice} (he : e ∈ ds) :
    e.priority ≤ d.priority := by
  obtain ⟨before, after, rfl, hbefore, hafter⟩ := h
  rcases List.mem_append.mp he with he | he
  · exact Int32.le_of_lt (hbefore e he)
  · rcases List.mem_cons.mp he with rfl | he
    · exact Int32.le_refl _
    · exact hafter e he

theorem replaced (h : IsFirstHighest ds b) (hlt : b.priority < d.priority) :
    IsFirstHighest (ds ++ [d]) d := by
  refine ⟨ds, [], rfl, fun e he => ?_, by simp⟩
  exact Int32.lt_of_le_of_lt (h.le_priority he) hlt

theorem kept (h : IsFirstHighest ds b) (hle : d.priority ≤ b.priority) :
    IsFirstHighest (ds ++ [d]) b := by
  obtain ⟨before, after, rfl, hbefore, hafter⟩ := h
  refine ⟨before, after ++ [d], by simp, hbefore, fun e he => ?_⟩
  rcases List.mem_append.mp he with he | he
  · exact hafter e he
  · obtain rfl := List.mem_singleton.mp he
    exact hle

-- Of two such devices each would have to come before the other.
theorem unique (hb : IsFirstHighest ds b) (hd : IsFirstHighest ds d) : b = d := by
  obtain ⟨before, after, rfl, hbefore, hafter⟩ := hb
  obtain ⟨before', after', hsplit, hbefore', hafter'⟩ := hd
  rcases List.append_eq_append_iff.mp hsplit with ⟨between, rfl, hrest⟩ | ⟨between, rfl, hrest⟩
  · cases between with
    | nil => exact (List.cons.inj hrest).1
    | cons c between =>
      obtain ⟨rfl, rfl⟩ := List.cons.inj hrest
      have hlt : b.priority < d.priority := hbefore' b (by simp)
      have hle : d.priority ≤ b.priority := hafter d (by simp)
      exact absurd hlt (Int32.not_lt.mpr hle)
  · cases between with
    | nil => exact (List.cons.inj hrest).1.symm
    | cons c between =>
      obtain ⟨rfl, rfl⟩ := List.cons.inj hrest
      have hlt : d.priority < b.priority := hbefore d (by simp)
      have hle : b.priority ≤ d.priority := hafter' b (by simp)
      exact absurd hlt (Int32.not_lt.mpr hle)

end IsFirstHighest

-- The best device of those already seen stays the first of highest priority as more are seen.
theorem isFirstHighest_foldl {seen : List SwapDevice} {b : SwapDevice} (h : IsFirstHighest seen b)
    (ds : List SwapDevice) :
    ∃ d, ds.foldl better (some b) = some d ∧ IsFirstHighest (seen ++ ds) d := by
  induction ds generalizing seen b with
  | nil => exact ⟨b, rfl, by rwa [List.append_nil]⟩
  | cons d ds ih =>
    rw [List.foldl_cons, better, List.append_cons]
    by_cases hlt : b.priority < d.priority
    · rw [if_pos hlt]
      exact ih (h.replaced hlt)
    · rw [if_neg hlt]
      exact ih (h.kept (Int32.not_lt.mp hlt))

theorem foldl_better_cons (d : SwapDevice) (ds : List SwapDevice) :
    ∃ b, (d :: ds).foldl better none = some b ∧ IsFirstHighest (d :: ds) b := by
  have hfirst : IsFirstHighest [d] d := ⟨[], [], rfl, by simp, by simp⟩
  exact isFirstHighest_foldl hfirst ds

/-! ## 2. The location -/

/-- Not on zram, above all such devices before it, and below none after it. -/
def IsLocation (ds : List SwapDevice) (d : SwapDevice) : Prop :=
  d.onZram = false ∧ ∃ before after, ds = before ++ d :: after ∧
    (∀ e ∈ before, e.onZram = false → e.priority.toInt < d.priority.toInt) ∧
    (∀ e ∈ after, e.onZram = false → e.priority.toInt ≤ d.priority.toInt)

theorem isLocation_iff {ds : List SwapDevice} {d : SwapDevice} :
    IsLocation ds d ↔ IsFirstHighest (ds.filter fun e => !e.onZram) d := by
  simp only [IsLocation, ← Int32.lt_iff_toInt_lt, ← Int32.le_iff_toInt_le]
  constructor
  · rintro ⟨hd, before, after, rfl, hbefore, hafter⟩
    refine ⟨before.filter fun e => !e.onZram, after.filter fun e => !e.onZram, ?_, ?_, ?_⟩
    · rw [List.filter_append, List.filter_cons_of_pos (by simp [hd])]
    · simpa [List.mem_filter] using hbefore
    · simpa [List.mem_filter] using hafter
  · rintro ⟨before, after, hsplit, hbefore, hafter⟩
    obtain ⟨l, l', rfl, rfl, hl'⟩ := List.filter_eq_append_iff.mp hsplit
    obtain ⟨zrams, after', rfl, hzrams, hd, rfl⟩ := List.filter_eq_cons_iff.mp hl'
    refine ⟨by simpa using hd, l ++ zrams, after', by simp, fun e he hzram => ?_, fun e he hzram => ?_⟩
    · rcases List.mem_append.mp he with he | he
      · exact hbefore e (List.mem_filter.mpr ⟨he, by simp [hzram]⟩)
      · exact absurd (by simp [hzram]) (hzrams e he)
    · exact hafter e (List.mem_filter.mpr ⟨he, by simp [hzram]⟩)

theorem location?_eq_none_iff {ds : List SwapDevice} :
    location? ds = none ↔ ∀ d ∈ ds, d.onZram = true := by
  rw [location?]
  cases h : ds.filter fun e => !e.onZram with
  | nil =>
    rw [List.filter_eq_nil_iff] at h
    simpa using h
  | cons d rest =>
    obtain ⟨b, hb, -⟩ := foldl_better_cons d rest
    have hd : d ∈ ds.filter fun e => !e.onZram := by simp [h]
    rw [hb]
    simp only [reduceCtorEq, false_iff]
    intro hall
    obtain ⟨hmem, hzram⟩ := List.mem_filter.mp hd
    simp [hall d hmem] at hzram

theorem location?_eq_some_iff {ds : List SwapDevice} {d : SwapDevice} :
    location? ds = some d ↔ IsLocation ds d := by
  rw [location?, isLocation_iff]
  cases ds.filter fun e => !e.onZram with
  | nil =>
    simp only [List.foldl_nil, reduceCtorEq, false_iff]
    rintro ⟨before, after, h, -⟩
    simp at h
  | cons c rest =>
    obtain ⟨b, hb, hfirst⟩ := foldl_better_cons c rest
    rw [hb, Option.some.injEq]
    constructor
    · rintro rfl
      exact hfirst
    · exact hfirst.unique

end SwapDevice

end SleepPolicy
