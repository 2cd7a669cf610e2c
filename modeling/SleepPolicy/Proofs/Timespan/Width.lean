import SleepPolicy.Proofs.Timespan.RoundTrip

/-!
# The width of written time spans

The text of a time span can be read in 64 bits: every count in it, every count times its unit and every
sum on the way stay below the sum of all components, and that sum is the time span itself.

## 1. Sums
-/

namespace SleepPolicy

theorem TimeUnit.usec_pos (u : TimeUnit) : 0 < u.usec := by
  cases u <;> decide

namespace Timespan

theorem total_append (ms ns : List Nat) : total (ms ++ ns) = total ms + total ns := by
  induction ms with
  | nil => simp [total]
  | cons m ms ih => rw [List.cons_append, total, total, ih, Nat.add_assoc]

theorem total_le_total {ms ns : List Nat} (h : ms.Sublist ns) : total ms ≤ total ns := by
  induction h with
  | slnil => exact Nat.le_refl _
  | cons n _ ih =>
    rw [total]
    omega
  | cons_cons n _ ih =>
    rw [total, total]
    omega

theorem le_total_of_mem {n : Nat} {ns : List Nat} (h : n ∈ ns) : n ≤ total ns := by
  obtain ⟨before, after, rfl⟩ := List.append_of_mem h
  rw [total_append, total]
  omega

/-! ## 2. Components -/

/-- No number on the way to the sum needs more than 64 bits. -/
structure Narrow (cs : List Component) : Prop where
  whole_lt : ∀ c ∈ cs, c.whole < UInt64.size
  product_lt : ∀ c ∈ cs, c.whole * c.unit.usec < UInt64.size
  usec_lt : ∀ c ∈ cs, c.usec < UInt64.size
  sum_lt : ∀ before, before <+: cs → total (before.map Component.usec) < UInt64.size

theorem narrow_of_total_lt {cs : List Component}
    (h : total (cs.map Component.usec) < UInt64.size) : Narrow cs := by
  have husec : ∀ c ∈ cs, c.usec < UInt64.size := by
    intro c hc
    exact Nat.lt_of_le_of_lt (le_total_of_mem (List.mem_map_of_mem hc)) h
  have hproduct : ∀ c ∈ cs, c.whole * c.unit.usec < UInt64.size := by
    intro c hc
    exact Nat.lt_of_le_of_lt (Nat.le_add_right _ _) (husec c hc)
  constructor
  · intro c hc
    exact Nat.lt_of_le_of_lt (Nat.le_mul_of_pos_right c.whole c.unit.usec_pos) (hproduct c hc)
  · exact hproduct
  · exact husec
  · intro before hbefore
    exact Nat.lt_of_le_of_lt (total_le_total (hbefore.sublist.map Component.usec)) h

/-- The components of a text, before they are added. -/
def components? (text : List Char) : Option (List Component) :=
  (segments (Text.trim text)).mapM Component.ofSegment?

theorem total_usec_component (ps : List Part) :
    total ((ps.map Part.component).map Component.usec) = total (ps.map Part.usec) := by
  rw [List.map_map]
  congr 1
  exact List.map_congr_left fun p _ => p.usec_component

theorem components?_render {t : Timespan} (h : t ≠ infinity) :
    ∃ cs, components? t.render = some cs ∧ total (cs.map Component.usec) = t.usec.toNat := by
  by_cases hzero : t = zero
  · subst hzero
    exact ⟨[⟨0, [], .second⟩], by decide, by decide⟩
  · have htrim : Text.trim t.render = t.render := by
      rw [render_eq_joined]
      exact Text.trim_eq_self (Text.isTrimmed_joined fun _ hw => isWord_of_mem_words hw)
    refine ⟨(decompose TimeUnit.all t.usec.toNat).map Part.component, ?_, ?_⟩
    · rw [components?, htrim, render_eq_joined, words, if_neg h, if_neg hzero, segments_parts,
        mapM_ofSegment?_segments]
    · rw [total_usec_component, total_decompose_all]

/-! ## 3. Reading back -/

/-- Every count of microseconds is read back from its text, the largest ones too, and the text of every
finite one consists of components that are added up without leaving 64 bits. -/
theorem read?_toString (n : UInt64) :
    read? (toString (⟨n⟩ : Timespan)).toList = some ⟨n⟩ ∧
      ((⟨n⟩ : Timespan) ≠ infinity →
        ∃ cs, components? (toString (⟨n⟩ : Timespan)).toList = some cs ∧
          total (cs.map Component.usec) = n.toNat ∧ Narrow cs) := by
  have htext : (toString (⟨n⟩ : Timespan)).toList = render ⟨n⟩ := String.toList_ofList
  rw [htext]
  refine ⟨read?_render ⟨n⟩, fun h => ?_⟩
  obtain ⟨cs, hcs, htotal⟩ := components?_render h
  refine ⟨cs, hcs, htotal, narrow_of_total_lt ?_⟩
  rw [htotal]
  exact n.toNat_lt_size

end Timespan

end SleepPolicy
