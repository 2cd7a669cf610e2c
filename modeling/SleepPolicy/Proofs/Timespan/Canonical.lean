import Mathlib.Data.List.Forall2
import SleepPolicy.Proofs.Timespan.Width

/-!
# The canonical form of time spans

A time span is written as counts of units that get shorter and add up to it.  Sixty minutes add up to an
hour too, so that alone does not settle the counts; but a unit is passed over only if what the shorter units
count is less than it, and then there is only one way to count.

## 1. Decompositions
-/

namespace SleepPolicy

theorem TimeUnit.mem_all (u : TimeUnit) : u ∈ all := by
  cases u <;> decide

/-- Each unit is shorter than those before it. -/
def TimeUnit.Descending (us : List TimeUnit) : Prop :=
  us.Pairwise fun u v => v.usec < u.usec

theorem TimeUnit.descending_all : Descending all := by
  unfold Descending
  decide

namespace Timespan

/-- Counts of shorter and shorter units that add up to a number of microseconds.  The counts behind a unit
add up to less than it. -/
structure IsDecomposition (n : Nat) (ps : List Part) : Prop where
  units : (ps.map Part.unit).Sublist TimeUnit.all
  counts : ∀ p ∈ ps, 1 ≤ p.count
  behind : ∀ before p after, ps = before ++ p :: after → total (after.map Part.usec) < p.unit.usec
  sum : total (ps.map Part.usec) = n

/-- The counts of units that are shorter than the given one. -/
def shorterThan (u : TimeUnit) (ps : List Part) : List Part :=
  ps.filter fun p => p.unit.usec < u.usec

/-- Every unit, counted or not, is longer than what the shorter units count. -/
structure IsCanonical (n : Nat) (ps : List Part) : Prop extends IsDecomposition n ps where
  shorter : ∀ u, total ((shorterThan u ps).map Part.usec) < u.usec

theorem total_shorterThan_le (u : TimeUnit) (ps : List Part) :
    total ((shorterThan u ps).map Part.usec) ≤ total (ps.map Part.usec) :=
  total_le_total (List.filter_sublist.map Part.usec)

section Shorter

variable {u : TimeUnit} {p : Part} {ps : List Part}

theorem shorterThan_cons_of_le (h : u.usec ≤ p.unit.usec) :
    shorterThan u (p :: ps) = shorterThan u ps :=
  List.filter_cons_of_neg (by simpa using h)

theorem shorterThan_eq_self (h : ∀ p ∈ ps, p.unit.usec < u.usec) : shorterThan u ps = ps :=
  List.filter_eq_self.mpr fun p hp => by simpa using h p hp

/-- The counts behind a unit are counts of shorter units. -/
theorem sublist_shorterThan {before after : List Part}
    (h : ((before ++ p :: after).map Part.unit).Sublist TimeUnit.all) :
    after.Sublist (shorterThan p.unit (before ++ p :: after)) := by
  have hbehind : ∀ q ∈ after, q.unit.usec < p.unit.usec := by
    intro q hq
    have hdescending := TimeUnit.descending_all.sublist h
    rw [List.map_append, List.map_cons] at hdescending
    have htail := (List.pairwise_append.mp hdescending).2.1
    exact List.rel_of_pairwise_cons htail (List.mem_map_of_mem hq)
  have hafter : after.Sublist (before ++ p :: after) :=
    (List.sublist_cons_self p after).trans (List.sublist_append_right before (p :: after))
  have hfilter := hafter.filter fun q => decide (q.unit.usec < p.unit.usec)
  rwa [← shorterThan, ← shorterThan, shorterThan_eq_self hbehind] at hfilter

end Shorter

/-! ## 2. Counting as often as possible -/

section Decompose

variable {us : List TimeUnit}

theorem units_decompose (us : List TimeUnit) (n : Nat) :
    ((decompose us n).map Part.unit).Sublist us := by
  induction us generalizing n with
  | nil => exact .slnil
  | cons u us ih =>
    rw [decompose]
    split
    · exact (ih n).cons u
    · exact (ih (n % u.usec)).cons_cons u

theorem count_pos_of_mem_decompose {n : Nat} {p : Part} (h : p ∈ decompose us n) : 1 ≤ p.count := by
  induction us generalizing n with
  | nil => cases h
  | cons u us ih =>
    rw [decompose] at h
    split at h
    · exact ih h
    · rename_i hle
      rcases List.mem_cons.mp h with rfl | h
      · exact Nat.div_pos (Nat.not_lt.mp hle) u.usec_pos
      · exact ih h

theorem total_decompose_le (us : List TimeUnit) (n : Nat) :
    total ((decompose us n).map Part.usec) ≤ n := by
  have hsum := total_decompose us n
  omega

theorem total_shorterThan_decompose (hus : TimeUnit.Descending us) {u : TimeUnit} (hu : u ∈ us) (n : Nat) :
    total ((shorterThan u (decompose us n)).map Part.usec) < u.usec := by
  induction us generalizing n with
  | nil => cases hu
  | cons v us ih =>
    obtain ⟨hv, hbehind⟩ := List.pairwise_cons.mp hus
    have hrest : ∀ m, m < v.usec → total ((shorterThan v (decompose us m)).map Part.usec) < v.usec := by
      intro m hm
      have hle := total_shorterThan_le v (decompose us m)
      have hle' := total_decompose_le us m
      omega
    rw [decompose]
    split
    · rename_i hlt
      rcases List.mem_cons.mp hu with rfl | hu
      · exact hrest n hlt
      · exact ih hbehind hu n
    · rcases List.mem_cons.mp hu with rfl | hu
      · have hself : shorterThan u (⟨n / u.usec, u⟩ :: decompose us (n % u.usec)) =
            shorterThan u (decompose us (n % u.usec)) :=
          shorterThan_cons_of_le (Nat.le_refl u.usec)
        rw [hself]
        exact hrest _ (Nat.mod_lt n u.usec_pos)
      · rw [shorterThan_cons_of_le (Nat.le_of_lt (hv u hu))]
        exact ih hbehind hu _

theorem decompose_counted {u : TimeUnit} {count left : Nat} (hcount : 1 ≤ count) (hleft : left < u.usec) :
    decompose (u :: us) (count * u.usec + left) = ⟨count, u⟩ :: decompose us left := by
  have hfits : ¬ count * u.usec + left < u.usec := by
    have hle : 1 * u.usec ≤ count * u.usec := Nat.mul_le_mul_right u.usec hcount
    omega
  have hdiv : (count * u.usec + left) / u.usec = count := by
    rw [Nat.mul_comm, Nat.mul_add_div u.usec_pos, Nat.div_eq_of_lt hleft, Nat.add_zero]
  have hmod : (count * u.usec + left) % u.usec = left := by
    rw [Nat.mul_add_mod', Nat.mod_eq_of_lt hleft]
  rw [decompose, if_neg hfits, hdiv, hmod]

/-- There is no other way to count, because each unit fits as often as it can. -/
theorem eq_decompose (hus : TimeUnit.Descending us) {ps : List Part}
    (hunits : (ps.map Part.unit).Sublist us) (hcounts : ∀ p ∈ ps, 1 ≤ p.count)
    (hshorter : ∀ u ∈ us, total ((shorterThan u ps).map Part.usec) < u.usec) :
    ps = decompose us (total (ps.map Part.usec)) := by
  induction us generalizing ps with
  | nil =>
    obtain rfl : ps = [] := List.map_eq_nil_iff.mp (List.sublist_nil.mp hunits)
    rfl
  | cons u us ih =>
    obtain ⟨hu, hbehind⟩ := List.pairwise_cons.mp hus
    have hhead := hshorter u List.mem_cons_self
    rcases List.sublist_cons_iff.mp hunits with hunits | ⟨units, hps, hunits⟩
    · -- The unit is not counted, so all counts together are shorter than it.
      have hall : shorterThan u ps = ps :=
        shorterThan_eq_self fun p hp => hu p.unit (hunits.subset (List.mem_map_of_mem hp))
      rw [hall] at hhead
      rw [decompose, if_pos hhead]
      exact ih hbehind hunits hcounts fun v hv => hshorter v (List.mem_cons_of_mem u hv)
    · obtain ⟨⟨count, unit⟩, rest, rfl, rfl, rfl⟩ := List.map_eq_cons_iff.mp hps
      have hcount : 1 ≤ count := hcounts _ List.mem_cons_self
      have hall : shorterThan unit rest = rest :=
        shorterThan_eq_self fun p hp => hu p.unit (hunits.subset (List.mem_map_of_mem hp))
      rw [shorterThan_cons_of_le (Nat.le_refl _), hall] at hhead
      have hrest : rest = decompose us (total (rest.map Part.usec)) := by
        refine ih hbehind hunits (fun p hp => hcounts p (List.mem_cons_of_mem _ hp)) fun v hv => ?_
        have hv' := hshorter v (List.mem_cons_of_mem unit hv)
        rwa [shorterThan_cons_of_le (Nat.le_of_lt (hu v hv))] at hv'
      rw [List.map_cons, total, Part.usec, decompose_counted hcount hhead, ← hrest]

end Decompose

theorem isCanonical_decompose (n : Nat) : IsCanonical n (decompose TimeUnit.all n) where
  units := units_decompose TimeUnit.all n
  counts _ hp := count_pos_of_mem_decompose hp
  sum := total_decompose_all n
  shorter u := total_shorterThan_decompose TimeUnit.descending_all u.mem_all n
  behind before p after h := by
    have hunits := units_decompose TimeUnit.all n
    have hshorter := total_shorterThan_decompose TimeUnit.descending_all p.unit.mem_all n
    rw [h] at hunits hshorter
    exact Nat.lt_of_le_of_lt
      (total_le_total ((sublist_shorterThan hunits).map Part.usec)) hshorter

theorem IsCanonical.eq_decompose {n : Nat} {ps : List Part} (h : IsCanonical n ps) :
    ps = decompose TimeUnit.all n := by
  have heq := Timespan.eq_decompose TimeUnit.descending_all h.units h.counts fun u _ => h.shorter u
  rwa [h.sum] at heq

/-! ## 3. One unit alone -/

theorem isDecomposition_singleton {p : Part} (h : 1 ≤ p.count) : IsDecomposition p.usec [p] where
  units := List.singleton_sublist.mpr p.unit.mem_all
  counts q hq := by
    rwa [List.mem_singleton.mp hq]
  sum := by
    rw [List.map_singleton, total, total, Nat.add_zero]
  behind before q after hsplit := by
    -- There is room for one part only, so none is behind it.
    have hlength := congrArg List.length hsplit
    rw [List.length_singleton, List.length_append, List.length_cons] at hlength
    obtain rfl : after = [] := List.length_eq_zero_iff.mp (by omega)
    exact q.unit.usec_pos

/-! ## 4. The text of a decomposition -/

/-- Digits without zeros in front that stand for the count, and the unit. -/
def Part.WrittenAs (p : Part) (text : List Char) : Prop :=
  ∃ digits, text = digits ++ p.unit.symbol.toList ∧ digits ≠ [] ∧ (∀ c ∈ digits, c.isDigit = true) ∧
    digits.head? ≠ some '0' ∧ Nat.ofDigitChars 10 digits 0 = p.count

/-- The written parts with one space between them. -/
def IsWritten (ps : List Part) (text : List Char) : Prop :=
  ∃ ws, List.Forall₂ Part.WrittenAs ps ws ∧ text = Text.joined ws

theorem Part.writtenAs_iff {p : Part} (h : 1 ≤ p.count) {text : List Char} :
    p.WrittenAs text ↔ text = p.render := by
  constructor
  · rintro ⟨digits, rfl, hne, hdigits, hhead, hcount⟩
    rw [Part.render, ← hcount, ← Text.eq_decimal_of_head?_ne_zero hne hdigits hhead]
  · rintro rfl
    exact ⟨Text.decimal p.count, rfl, Text.decimal_ne_nil p.count, fun _ => Text.isDigit_of_mem_decimal,
      Text.head?_decimal_ne_zero h, Nat.ofDigitChars_ten_toDigits⟩

theorem forall₂_writtenAs_iff {ps : List Part} (h : ∀ p ∈ ps, 1 ≤ p.count) {ws : List (List Char)} :
    List.Forall₂ Part.WrittenAs ps ws ↔ ws = ps.map Part.render := by
  induction ps generalizing ws with
  | nil => rw [List.forall₂_nil_left_iff, List.map_nil]
  | cons p ps ih =>
    have hp : 1 ≤ p.count := h p List.mem_cons_self
    have hps : ∀ q ∈ ps, 1 ≤ q.count := fun q hq => h q (List.mem_cons_of_mem p hq)
    simp only [List.forall₂_cons_left_iff, Part.writtenAs_iff hp, ih hps, List.map_cons]
    constructor
    · rintro ⟨w, ws, rfl, rfl, rfl⟩
      rfl
    · rintro rfl
      exact ⟨_, _, rfl, rfl, rfl⟩

theorem isWritten_iff {ps : List Part} (h : ∀ p ∈ ps, 1 ≤ p.count) {text : List Char} :
    IsWritten ps text ↔ text = Text.joined (ps.map Part.render) := by
  simp only [IsWritten, forall₂_writtenAs_iff h, exists_eq_left]

/-- A time span that is neither zero nor infinite is written as its canonical form. -/
theorem toString_canonical (n : UInt64) (hpos : 0 < n.toNat) (hmax : n.toNat < UInt64.size - 1) :
    ∃ ps, IsCanonical n.toNat ps ∧ (∀ qs, IsCanonical n.toNat qs → qs = ps) ∧
      ∀ text, IsWritten ps text ↔ text = (toString (⟨n⟩ : Timespan)).toList := by
  have hinf : (⟨n⟩ : Timespan) ≠ infinity := by
    intro h
    rw [show n = UInt64.ofNat (UInt64.size - 1) from congrArg Timespan.usec h] at hmax
    exact absurd hmax (by decide)
  have hzero : (⟨n⟩ : Timespan) ≠ zero := by
    intro h
    rw [show n = 0 from congrArg Timespan.usec h] at hpos
    exact absurd hpos (by decide)
  have htext : (toString (⟨n⟩ : Timespan)).toList =
      Text.joined ((decompose TimeUnit.all n.toNat).map Part.render) := by
    rw [show (toString (⟨n⟩ : Timespan)).toList = render ⟨n⟩ from String.toList_ofList,
      render_eq_joined, words, if_neg hinf, if_neg hzero]
  refine ⟨decompose TimeUnit.all n.toNat, isCanonical_decompose n.toNat,
    fun qs hqs => hqs.eq_decompose, fun text => ?_⟩
  rw [htext, isWritten_iff (isCanonical_decompose n.toNat).counts]

/-- The canonical form of a microsecond less than a month begins with the weeks. -/
theorem toString_canonical_before_month :
    0 < (2629799999999 : UInt64).toNat ∧ (2629799999999 : UInt64).toNat < UInt64.size - 1 ∧
      toString (⟨2629799999999⟩ : Timespan) = "4w 2d 10h 29min 59s 999ms 999us" ∧
      ∃ ps, IsCanonical (2629799999999 : UInt64).toNat ps ∧
        (∀ qs, IsCanonical (2629799999999 : UInt64).toNat qs → qs = ps) ∧
        ∀ text, IsWritten ps text ↔ text = (toString (⟨2629799999999⟩ : Timespan)).toList :=
  ⟨by decide, by decide, by decide, toString_canonical 2629799999999 (by decide) (by decide)⟩

/-- An hour decomposes into minutes as well, of which the text is not the one of the time span. -/
theorem hour_decomposes_twice :
    toString (⟨3600000000⟩ : Timespan) = "1h" ∧
      IsDecomposition 3600000000 [⟨1, .hour⟩] ∧ IsWritten [⟨1, .hour⟩] "1h".toList ∧
      IsDecomposition 3600000000 [⟨60, .minute⟩] ∧ IsWritten [⟨60, .minute⟩] "60min".toList ∧
      ¬ ∃ ps, IsDecomposition 3600000000 ps ∧ ∀ qs, IsDecomposition 3600000000 qs → qs = ps := by
  have hhour : IsDecomposition 3600000000 [⟨1, .hour⟩] :=
    isDecomposition_singleton (p := ⟨1, .hour⟩) (by decide)
  have hminutes : IsDecomposition 3600000000 [⟨60, .minute⟩] :=
    isDecomposition_singleton (p := ⟨60, .minute⟩) (by decide)
  refine ⟨by decide, hhour, ?_, hminutes, ?_, ?_⟩
  · exact (isWritten_iff hhour.counts).mpr (by decide)
  · exact (isWritten_iff hminutes.counts).mpr (by decide)
  · rintro ⟨ps, -, hunique⟩
    have heq : [(⟨1, .hour⟩ : Part)] = [⟨60, .minute⟩] :=
      (hunique _ hhour).trans (hunique _ hminutes).symm
    exact absurd heq (by decide)

end Timespan

end SleepPolicy
