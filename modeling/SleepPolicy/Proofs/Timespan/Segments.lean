import SleepPolicy.Proofs.Text.Words
import SleepPolicy.Timespan.Read

/-!
# Segments

A blank always ends a segment, so the segments of joined words are those of the words one after the
other, and a word that is a number followed by a unit is one segment.
-/

namespace SleepPolicy

namespace Timespan

theorem isNumeric_of_isDigit {c : Char} (h : c.isDigit) : isNumeric c := by
  simp [isNumeric, h]

/-- What has been read when the blank comes has no part in what follows. -/
theorem segmentsFrom_append_blank (number unit s t : List Char) {c : Char} (hc : Text.isBlank c) :
    segmentsFrom number unit (s ++ c :: t) = segmentsFrom number unit s ++ segments t := by
  induction s generalizing number unit with
  | nil => simp only [List.nil_append, segmentsFrom, if_pos hc, segments]
  | cons d s ih =>
    rw [List.cons_append, segmentsFrom, segmentsFrom]
    -- A blank, a part of a number, a digit behind a unit, a part of a unit: the rest goes on alike.
    split
    · rw [ih, List.append_assoc]
    · split
      · rw [ih]
      · split
        · rw [ih, List.append_assoc]
        · rw [ih]

theorem segments_cons_blank {c : Char} (hc : Text.isBlank c) (s : List Char) :
    segments (c :: s) = segments s :=
  segmentsFrom_append_blank [] [] [] s hc

theorem segments_append_of_blank {gap : List Char} (hgap : ∀ c ∈ gap, Text.isBlank c = true)
    (s : List Char) : segments (gap ++ s) = segments s := by
  induction gap with
  | nil => rfl
  | cons c gap ih =>
    rw [List.cons_append, segments_cons_blank (hgap c (by simp)),
      ih fun d hd => hgap d (List.mem_cons_of_mem c hd)]

/-- Between two texts with a blank between them no segment goes across. -/
theorem segments_append_gap {gap : List Char} (hne : gap ≠ [])
    (hgap : ∀ c ∈ gap, Text.isBlank c = true) (s t : List Char) :
    segments (s ++ (gap ++ t)) = segments s ++ segments t := by
  obtain ⟨c, gap, rfl⟩ := List.exists_cons_of_ne_nil hne
  rw [List.cons_append, ← segments_append_of_blank (fun d hd => hgap d (List.mem_cons_of_mem c hd)) t]
  exact segmentsFrom_append_blank [] [] s (gap ++ t) (hgap c (by simp))

theorem segments_trim (s : List Char) : segments (Text.trim s) = segments s := by
  obtain ⟨before, after, hbefore, hafter, hs⟩ := Text.exists_blank_append_trim s
  conv_rhs => rw [hs]
  rw [segments_append_of_blank hbefore]
  by_cases hne : after = []
  · rw [hne, List.append_nil]
  · have h := segments_append_gap hne hafter (Text.trim s) []
    rw [List.append_nil] at h
    rw [h]
    exact (List.append_nil _).symm

theorem segments_joined (ws : List (List Char)) :
    segments (Text.joined ws) = ws.flatMap segments := by
  induction ws with
  | nil => rfl
  | cons w ws ih =>
    cases ws with
    | nil => simp [Text.joined_singleton]
    | cons v ws =>
      rw [Text.joined_cons_cons, List.flatMap_cons, ← ih]
      exact segmentsFrom_append_blank [] [] w (Text.joined (v :: ws)) (by decide)

theorem segmentsFrom_number {ds : List Char} (hds : ∀ c ∈ ds, c.isDigit) (number s : List Char) :
    segmentsFrom number [] (ds ++ s) = segmentsFrom (number ++ ds) [] s := by
  induction ds generalizing number with
  | nil => simp
  | cons d ds ih =>
    have hd : d.isDigit := hds d (by simp)
    have hblank : ¬ Text.isBlank d = true := by simp [Text.isBlank_eq_false_of_isDigit hd]
    rw [List.cons_append, segmentsFrom, if_neg hblank,
      if_pos (by simp [isNumeric_of_isDigit hd]),
      ih (fun c hc => hds c (List.mem_cons_of_mem d hc)), List.append_assoc, List.singleton_append]

/-- Characters of a unit are neither blank nor part of a number. -/
theorem segmentsFrom_unit {us : List Char}
    (hus : ∀ c ∈ us, Text.isBlank c = false ∧ isNumeric c = false) (number unit s : List Char) :
    segmentsFrom number unit (us ++ s) = segmentsFrom number (unit ++ us) s := by
  induction us generalizing unit with
  | nil => rw [List.nil_append, List.append_nil]
  | cons u us ih =>
    obtain ⟨hblank, hnumeric⟩ := hus u (by simp)
    have hdigit : u.isDigit = false := by
      simp only [isNumeric, Bool.or_eq_false_iff] at hnumeric
      exact hnumeric.1
    rw [List.cons_append, segmentsFrom, if_neg (by simp [hblank]), if_neg (by simp [hnumeric]),
      if_neg (by simp [hdigit]), ih (fun c hc => hus c (List.mem_cons_of_mem u hc)),
      List.append_assoc, List.singleton_append]

/-- A segment ends where the text ends, at a blank, and at a digit if it has got a unit. -/
theorem segmentsFrom_end {number unit s : List Char}
    (hend : ∀ c ∈ s.head?, Text.isBlank c = true ∨ (unit ≠ [] ∧ c.isDigit = true)) :
    segmentsFrom number unit s = finish number unit ++ segments s := by
  cases s with
  | nil => exact (List.append_nil _).symm
  | cons c s =>
    by_cases hblank : Text.isBlank c = true
    · rw [segments_cons_blank hblank, segmentsFrom, if_pos hblank, segments]
    · obtain ⟨hunit, hdigit⟩ := (hend c rfl).resolve_left hblank
      rw [segments, segmentsFrom, if_neg hblank, if_neg (by simp [hunit]), if_pos hdigit,
        segmentsFrom, if_neg hblank, if_pos (by simp [isNumeric_of_isDigit hdigit]), List.nil_append]

theorem segments_number_unit_append {ds us s : List Char} (hne : ds ≠ [] ∨ us ≠ [])
    (hds : ∀ c ∈ ds, c.isDigit) (hus : ∀ c ∈ us, Text.isBlank c = false ∧ isNumeric c = false)
    (hend : ∀ c ∈ s.head?, Text.isBlank c = true ∨ (us ≠ [] ∧ c.isDigit = true)) :
    segments (ds ++ (us ++ s)) = ⟨ds, us⟩ :: segments s := by
  have hfinish : finish ds us = [⟨ds, us⟩] := by
    refine if_neg ?_
    rcases hne with h | h <;> simp [h]
  rw [segments, segmentsFrom_number hds, segmentsFrom_unit hus, List.nil_append, List.nil_append,
    segmentsFrom_end hend, hfinish, List.singleton_append]

theorem segments_number_unit {ds us : List Char} (hne : ds ≠ []) (hds : ∀ c ∈ ds, c.isDigit)
    (hus : ∀ c ∈ us, Text.isBlank c = false ∧ isNumeric c = false) :
    segments (ds ++ us) = [⟨ds, us⟩] := by
  have h := segments_number_unit_append (s := []) (.inl hne) hds hus (by simp)
  rwa [List.append_nil] at h

end Timespan

end SleepPolicy
