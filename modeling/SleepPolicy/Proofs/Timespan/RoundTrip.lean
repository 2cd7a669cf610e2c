import SleepPolicy.Proofs.Text.Numeral
import SleepPolicy.Proofs.Timespan.Segments
import SleepPolicy.Timespan.Render

/-!
# Written time spans

Every time span is read back from its text.  The counts that are written add up to the whole time
span, because the last unit divides every number, and each count with its unit is one segment.

## 1. Counts of units
-/

namespace SleepPolicy

namespace Timespan

/-- The microseconds that are counted. -/
def Part.usec (p : Part) : Nat :=
  p.count * p.unit.usec

/-- What no unit of the list counts is left over. -/
theorem total_decompose (us : List TimeUnit) (n : Nat) :
    total ((decompose us n).map Part.usec) + us.foldl (fun left u => left % u.usec) n = n := by
  induction us generalizing n with
  | nil => simp [decompose, total]
  | cons u us ih =>
    rw [decompose, List.foldl_cons]
    -- A unit that does not fit into `n` is passed over, and `n` is then its own remainder.
    split
    · rename_i hlt
      rw [Nat.mod_eq_of_lt hlt, ih]
    · rw [List.map_cons, total, Nat.add_assoc, ih, Part.usec, Nat.div_add_mod']

theorem total_decompose_all (n : Nat) : total ((decompose TimeUnit.all n).map Part.usec) = n := by
  have hleft : TimeUnit.all.foldl (fun left u => left % u.usec) n = 0 := by
    -- The last unit is the microsecond.
    simp only [TimeUnit.all, List.foldl_cons, List.foldl_nil]
    exact Nat.mod_one _
  have hsum := total_decompose TimeUnit.all n
  rw [hleft] at hsum
  exact hsum

/-! ## 2. Text of a count -/

theorem symbol_letters (u : TimeUnit) :
    ∀ c ∈ u.symbol.toList, Text.isBlank c = false ∧ isNumeric c = false := by
  have hall : u.symbol.toList.all (fun c => !Text.isBlank c && !isNumeric c) = true := by
    cases u <;> decide
  intro c hc
  simpa using List.all_eq_true.mp hall c hc

theorem ofName?_symbol (u : TimeUnit) : TimeUnit.ofName? u.symbol = some u := by
  cases u <;> decide

def Part.segment (p : Part) : Segment :=
  ⟨Text.decimal p.count, p.unit.symbol.toList⟩

theorem Part.segments_render (p : Part) : segments p.render = [p.segment] :=
  segments_number_unit (Text.decimal_ne_nil p.count) (fun _ h => Text.isDigit_of_mem_decimal h)
    (symbol_letters p.unit)

theorem Part.isWord_render (p : Part) : Text.IsWord p.render := by
  constructor
  · unfold Part.render
    simp [Text.decimal_ne_nil]
  · intro c hc
    rcases List.mem_append.mp hc with h | h
    · exact Text.isBlank_eq_false_of_isDigit (Text.isDigit_of_mem_decimal h)
    · exact (symbol_letters p.unit c h).1

/-! ## 3. Reading a count -/

def Part.component (p : Part) : Component :=
  ⟨p.count, [], p.unit⟩

theorem splitPoint_digits {ds : List Char} (hds : ∀ c ∈ ds, c.isDigit = true) :
    splitPoint ds = (ds, []) := by
  have hpoint : ∀ c ∈ ds, (c != '.') = true := by
    intro c hc
    rw [bne_iff_ne]
    rintro rfl
    exact absurd (hds _ hc) (by decide)
  have htake : ds.takeWhile (· != '.') = ds := by
    rw [← List.append_nil ds, List.takeWhile_append_of_pos hpoint, List.takeWhile_nil]
  have hdrop : ds.dropWhile (· != '.') = [] := by
    rw [← List.append_nil ds, List.dropWhile_append_of_pos hpoint, List.dropWhile_nil]
  rw [splitPoint, htake, hdrop, List.drop_nil]

theorem splitPoint_decimal (n : Nat) : splitPoint (Text.decimal n) = (Text.decimal n, []) :=
  splitPoint_digits fun _ h => Text.isDigit_of_mem_decimal h

theorem Part.ofSegment?_segment (p : Part) :
    Component.ofSegment? p.segment = some p.component := by
  have hwhole : Nat.ofDigitChars 10 (Text.decimal p.count) 0 = p.count :=
    Nat.ofDigitChars_ten_toDigits
  unfold Component.ofSegment?
  simp only [Part.segment, String.ofList_toList, ofName?_symbol, splitPoint_decimal, hwhole,
    Option.bind_eq_bind, Option.bind_some]
  simp [Text.decimal_ne_nil, Part.component]

theorem fractionUsec_nil (u : TimeUnit) : fractionUsec [] u = 0 := by
  simp [fractionUsec, Ratio.roundTo, Ratio.scale, Ratio.nearestUp, Nat.ofDigitChars]

theorem Part.usec_component (p : Part) : p.component.usec = p.usec := by
  rw [Component.usec, Part.component, fractionUsec_nil, Nat.add_zero, Part.usec]

theorem mapM_ofSegment?_segments (ps : List Part) :
    (ps.map Part.segment).mapM Component.ofSegment? = some (ps.map Part.component) := by
  induction ps with
  | nil => rfl
  | cons p ps ih =>
    rw [List.map_cons, List.mapM_cons, p.ofSegment?_segment, ih]
    rfl

/-! ## 4. Reading a time span -/

/-- The words of a text of counts. -/
def words (t : Timespan) : List (List Char) :=
  if t = infinity then ["infinity".toList]
  else if t = zero then ["0".toList]
  else (decompose TimeUnit.all t.usec.toNat).map Part.render

theorem render_eq_joined (t : Timespan) : t.render = Text.joined t.words := by
  unfold render words
  split
  · exact (Text.joined_singleton _).symm
  · split
    · exact (Text.joined_singleton _).symm
    · rfl

theorem isWord_of_mem_words {t : Timespan} {w : List Char} (h : w ∈ t.words) : Text.IsWord w := by
  unfold words at h
  split at h
  · obtain rfl : w = "infinity".toList := by simpa using h
    decide
  · split at h
    · obtain rfl : w = "0".toList := by simpa using h
      decide
    · obtain ⟨p, -, rfl⟩ := List.mem_map.mp h
      exact p.isWord_render

theorem segments_parts (ps : List Part) :
    segments (Text.joined (ps.map Part.render)) = ps.map Part.segment := by
  rw [segments_joined]
  induction ps with
  | nil => rfl
  | cons p ps ih => rw [List.map_cons, List.flatMap_cons, p.segments_render, ih]; rfl

/-- The segments tell a text of counts from the two texts that have a meaning of their own. -/
theorem read?_joined_parts {ps : List Part} (hps : ps ≠ []) :
    read? (Text.joined (ps.map Part.render)) = ofUsec? (total (ps.map Part.usec)) := by
  have htrim : Text.trim (Text.joined (ps.map Part.render)) = Text.joined (ps.map Part.render) := by
    apply Text.trim_eq_self
    apply Text.isTrimmed_joined
    intro w hw
    obtain ⟨p, -, rfl⟩ := List.mem_map.mp hw
    exact p.isWord_render
  obtain ⟨p, rest, rfl⟩ := List.exists_cons_of_ne_nil hps
  have hne : Text.joined ((p :: rest).map Part.render) ≠ [] := Text.joined_ne_nil p.isWord_render.1
  have hinfinity : Text.joined ((p :: rest).map Part.render) ≠ "infinity".toList := by
    intro h
    -- The one segment of that word has no number, and the first segment of a count has one.
    have hseg := segments_parts (p :: rest)
    rw [h, show segments "infinity".toList = [⟨[], "infinity".toList⟩] by decide] at hseg
    have hnumber : [] = Text.decimal p.count := congrArg Segment.number (List.cons.inj hseg).1
    exact Text.decimal_ne_nil p.count hnumber.symm
  unfold read?
  simp only [htrim, segments_parts, mapM_ofSegment?_segments, Option.bind_eq_bind, Option.bind_some]
  rw [if_neg (by simpa using hne), if_neg hinfinity, List.map_map]
  congr 2
  exact List.map_congr_left fun q _ => q.usec_component

theorem ofUsec?_toNat (t : Timespan) : ofUsec? t.usec.toNat = some t := by
  rw [ofUsec?, if_pos t.usec.toNat_lt_size, UInt64.ofNat_toNat]

theorem read?_render (t : Timespan) : read? t.render = some t := by
  by_cases hinf : t = infinity
  · subst hinf
    rfl
  by_cases hzero : t = zero
  · subst hzero
    decide
  have hps : decompose TimeUnit.all t.usec.toNat ≠ [] := by
    intro h
    -- Without a part the sum would be zero.
    have hsum := total_decompose_all t.usec.toNat
    rw [h] at hsum
    have husec : t.usec = 0 := UInt64.toNat_inj.mp hsum.symm
    exact hzero (congrArg Timespan.mk husec)
  rw [render_eq_joined, words, if_neg hinf, if_neg hzero, read?_joined_parts hps,
    total_decompose_all, ofUsec?_toNat]

end Timespan

end SleepPolicy
