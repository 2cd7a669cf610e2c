import SleepPolicy.Proofs.Timespan.Grammar

/-!
# Time spans one after the other

Two time spans with a blank between them are read as their sum.  No segment goes across the blank, so the
components of the whole are those of both parts, fractions and all, and a part that is not read spoils the
whole.  The word for infinity is no part of a sum: it has its meaning only when it stands alone.
-/

namespace SleepPolicy

namespace Timespan

variable {a b gap : List Char} (hne : gap ≠ []) (hgap : ∀ c ∈ gap, Text.isBlank c = true)

include hne hgap

theorem components?_append_eq_some_iff {cs : List Component} :
    components? (a ++ gap ++ b) = some cs ↔
      ∃ as bs, components? a = some as ∧ components? b = some bs ∧ as ++ bs = cs := by
  simp only [components?, segments_trim, List.append_assoc, segments_append_gap hne hgap,
    List.mapM_append]
  simp [Option.bind_eq_some_iff]

-- Two texts that are not blank have two words at least, and infinity is one.
theorem trim_append_ne (ha : Text.trim a ≠ []) (hb : Text.trim b ≠ []) :
    Text.trim (a ++ gap ++ b) ≠ [] ∧ Text.trim (a ++ gap ++ b) ≠ "infinity".toList := by
  have ha' : 0 < (Text.words a).length := by
    rwa [List.length_pos_iff, ne_eq, Text.words_eq_nil_iff, ← Text.trim_eq_nil_iff]
  have hb' : 0 < (Text.words b).length := by
    rwa [List.length_pos_iff, ne_eq, Text.words_eq_nil_iff, ← Text.trim_eq_nil_iff]
  have hlength : 2 ≤ (Text.words (Text.trim (a ++ gap ++ b))).length := by
    rw [Text.words_trim, List.append_assoc, Text.words_append_gap hne hgap, List.length_append]
    omega
  constructor
  · intro h
    rw [h] at hlength
    exact absurd hlength (by decide)
  · intro h
    rw [h] at hlength
    exact absurd hlength (by decide)

/-- With a blank between them two texts are read as a sum exactly if both are read and 64 bits hold the
sum of what they are read as. -/
theorem read?_append_eq_some_iff (ha : ∃ c ∈ a, Text.isBlank c = false)
    (hb : ∃ c ∈ b, Text.isBlank c = false) (hainfinity : Text.trim a ≠ "infinity".toList)
    (hbinfinity : Text.trim b ≠ "infinity".toList) {t : Timespan} :
    read? (a ++ gap ++ b) = some t ↔
      ∃ x y, read? a = some x ∧ read? b = some y ∧
        x.usec.toNat + y.usec.toNat = t.usec.toNat := by
  have hnotBlank : ∀ s, (∃ c ∈ s, Text.isBlank c = false) → Text.trim s ≠ [] := by
    rintro s ⟨c, hc, hblank⟩ hnil
    rw [Text.trim_eq_nil_iff.mp hnil c hc] at hblank
    cases hblank
  obtain ⟨hwhole, hinfinity⟩ := trim_append_ne hne hgap (hnotBlank a ha) (hnotBlank b hb)
  rw [read?_eq_some_iff_total hwhole hinfinity]
  simp only [components?_append_eq_some_iff hne hgap,
    read?_eq_some_iff_total (hnotBlank a ha) hainfinity,
    read?_eq_some_iff_total (hnotBlank b hb) hbinfinity]
  constructor
  · rintro ⟨_, ⟨as, bs, has, hbs, rfl⟩, htotal⟩
    rw [List.map_append, total_append] at htotal
    have hfits := t.usec.toNat_lt_size
    have hx := UInt64.toNat_ofNat_of_lt' (n := total (as.map Component.usec)) (by omega)
    have hy := UInt64.toNat_ofNat_of_lt' (n := total (bs.map Component.usec)) (by omega)
    exact ⟨⟨_⟩, ⟨_⟩, ⟨as, has, hx.symm⟩, ⟨bs, hbs, hy.symm⟩,
      (congrArg₂ (· + ·) hx hy).trans htotal⟩
  · rintro ⟨x, y, ⟨as, has, hx⟩, ⟨bs, hbs, hy⟩, hsum⟩
    exact ⟨as ++ bs, ⟨as, bs, has, hbs, rfl⟩, by rw [List.map_append, total_append, hx, hy, hsum]⟩

omit hne hgap

-- A fraction is carried along, and a number without a unit at the seam goes on counting seconds.
theorem read?_append_eq_some_iff_fraction :
    let a := " 1.5h .25".toList
    let b := "2min30\n".toList
    let gap := "\u3000\t".toList
    gap ≠ [] ∧ (∀ c ∈ gap, Text.isBlank c = true) ∧
      (∃ c ∈ a, Text.isBlank c = false) ∧ (∃ c ∈ b, Text.isBlank c = false) ∧
      Text.trim a ≠ "infinity".toList ∧ Text.trim b ≠ "infinity".toList ∧
      read? (a ++ gap ++ b) = some ⟨5550250000⟩ := by
  intro a b gap
  have hne : gap ≠ [] := by
    decide
  have hgap : ∀ c ∈ gap, Text.isBlank c = true := List.all_eq_true.mp (by decide +kernel)
  have ha : ∃ c ∈ a, Text.isBlank c = false := ⟨'1', by decide +kernel, by decide⟩
  have hb : ∃ c ∈ b, Text.isBlank c = false := ⟨'2', by decide +kernel, by decide⟩
  have hainfinity : Text.trim a ≠ "infinity".toList := by
    decide +kernel
  have hbinfinity : Text.trim b ≠ "infinity".toList := by
    decide +kernel
  have hread : read? a = some ⟨5400250000⟩ ∧ read? b = some ⟨150000000⟩ := by
    decide +kernel
  exact ⟨hne, hgap, ha, hb, hainfinity, hbinfinity,
    (read?_append_eq_some_iff hne hgap ha hb hainfinity hbinfinity).mpr
      ⟨_, _, hread.1, hread.2, by decide⟩⟩

end Timespan

end SleepPolicy
