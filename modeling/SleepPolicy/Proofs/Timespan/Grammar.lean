import SleepPolicy.Proofs.Timespan.Width

/-!
# The grammar of time spans

A text without a point is a time span if it is the word for infinity, or a sequence of counts whose sum
fits into 64 bits.  The name of a unit follows its number at once, and a number without a name counts
seconds.  Only behind such a number has a blank to come before the next count.

## 1. Sums of components
-/

namespace SleepPolicy

namespace Timespan

theorem ofUsec?_eq_some_iff {n : Nat} {t : Timespan} : ofUsec? n = some t ↔ t.usec.toNat = n := by
  constructor
  · intro h
    unfold ofUsec? at h
    split at h
    · rename_i hlt
      obtain rfl := Option.some.inj h
      exact UInt64.toNat_ofNat_of_lt' hlt
    · cases h
  · rintro rfl
    exact ofUsec?_toNat t

/-- A text that is neither blank nor the word for infinity is the sum of its components. -/
theorem read?_eq_some_iff_total {s : List Char} (hne : Text.trim s ≠ [])
    (hinfinity : Text.trim s ≠ "infinity".toList) {t : Timespan} :
    read? s = some t ↔
      ∃ cs, components? s = some cs ∧ total (cs.map Component.usec) = t.usec.toNat := by
  have hread : read? s = (components? s).bind fun cs => ofUsec? (total (cs.map Component.usec)) := by
    simp only [read?, if_neg (show ¬(Text.trim s).isEmpty = true by simpa using hne),
      if_neg hinfinity]
    rfl
  simp only [hread, Option.bind_eq_some_iff, ofUsec?_eq_some_iff,
    @eq_comm _ (total _) t.usec.toNat]

end Timespan

/-! ## 2. Names of units -/

namespace TimeUnit

/-- The text behind a number: a name of the unit, or nothing for seconds. -/
def IsNamedBy (u : TimeUnit) (name : List Char) : Prop :=
  String.ofList name ∈ u.names ∨ (name = [] ∧ u = second)

theorem ofName?_of_mem_names {u : TimeUnit} : ∀ name ∈ u.names, ofName? name = some u := by
  cases u <;> decide

theorem ofName?_eq_some_iff {name : List Char} {u : TimeUnit} :
    ofName? (String.ofList name) = some u ↔ u.IsNamedBy name := by
  constructor
  · intro h
    unfold ofName? at h
    split at h
    · rename_i hempty
      exact .inr ⟨String.ofList_inj.mp hempty, (Option.some.inj h).symm⟩
    · exact .inl (by simpa using List.find?_some h)
  · rintro (h | ⟨rfl, rfl⟩)
    · exact ofName?_of_mem_names _ h
    · rfl

theorem IsNamedBy.letters {u : TimeUnit} {name : List Char} (h : u.IsNamedBy name) :
    ∀ c ∈ name, Text.isBlank c = false ∧ Timespan.isNumeric c = false := by
  have hall : ∀ n ∈ u.names,
      n.toList.all (fun c => !Text.isBlank c && !Timespan.isNumeric c) = true := by
    cases u <;> decide
  rcases h with h | ⟨rfl, -⟩
  · have hname := hall _ h
    rw [String.toList_ofList] at hname
    intro c hc
    simpa using List.all_eq_true.mp hname c hc
  · simp

end TimeUnit

/-! ## 3. Sequences of counts -/

namespace Timespan

/-- A count as it stands in a text: its digits, and the text right behind them. -/
structure Part.SpelledBy (p : Part) (digits name : List Char) : Prop where
  digits_ne : digits ≠ []
  isDigit : ∀ c ∈ digits, c.isDigit = true
  count_eq : p.count = Nat.ofDigitChars 10 digits 0
  unit_named : p.unit.IsNamedBy name

/-- Counts one after the other.  The blanks behind a count may be missing, but not behind a number
without a unit if another count follows. -/
inductive Spells : List Part → List Char → Prop
  | nil : Spells [] []
  | cons {p : Part} {ps : List Part} {digits name gap rest : List Char}
      (hpart : p.SpelledBy digits name) (hgap : ∀ c ∈ gap, Text.isBlank c = true)
      (hsep : name = [] → ps ≠ [] → gap ≠ []) (hrest : Spells ps rest) :
      Spells (p :: ps) (digits ++ (name ++ (gap ++ rest)))

theorem ofSegment?_digits_eq_some_iff {digits name : List Char}
    (hdigits : ∀ c ∈ digits, c.isDigit = true) {c : Component} :
    Component.ofSegment? ⟨digits, name⟩ = some c ↔
      ∃ p : Part, p.SpelledBy digits name ∧ p.component = c := by
  have hsegment : Component.ofSegment? ⟨digits, name⟩ =
      (TimeUnit.ofName? (String.ofList name)).bind fun u =>
        if digits = [] then none else some ⟨Nat.ofDigitChars 10 digits 0, [], u⟩ := by
    unfold Component.ofSegment?
    simp [splitPoint_digits hdigits]
  simp only [hsegment, Option.bind_eq_some_iff, TimeUnit.ofName?_eq_some_iff]
  constructor
  · rintro ⟨u, hname, hc⟩
    split at hc
    · cases hc
    · rename_i hne
      exact ⟨⟨_, u⟩, ⟨hne, hdigits, rfl, hname⟩, Option.some.inj hc⟩
  · rintro ⟨⟨count, u⟩, ⟨hne, -, rfl, hname⟩, rfl⟩
    exact ⟨u, hname, if_neg hne⟩

theorem Spells.eq_nil_of_nil {text : List Char} (h : Spells [] text) : text = [] := by
  cases h
  rfl

theorem Spells.eq_nil {ps : List Part} (h : Spells ps []) : ps = [] := by
  generalize htext : ([] : List Char) = text at h
  cases h with
  | nil => rfl
  | cons hpart _ _ _ => exact absurd (List.append_eq_nil_iff.mp htext.symm).1 hpart.digits_ne

theorem Spells.head?_isDigit {ps : List Part} {text : List Char} (h : Spells ps text) :
    ∀ c ∈ text.head?, c.isDigit = true := by
  cases h with
  | nil => simp
  | cons hpart _ _ _ =>
    obtain ⟨d, digits, rfl⟩ := List.exists_cons_of_ne_nil hpart.digits_ne
    intro c hc
    obtain rfl : d = c := by simpa using hc
    exact hpart.isDigit d (by simp)

/-- The segments of a sequence are its counts. -/
theorem Spells.mapM_segments {ps : List Part} {text : List Char} (h : Spells ps text) :
    (segments text).mapM Component.ofSegment? = some (ps.map Part.component) := by
  induction h with
  | nil => rfl
  | @cons p ps digits name gap rest hpart hgap hsep hrest ih =>
    have hend : ∀ c ∈ (gap ++ rest).head?,
        Text.isBlank c = true ∨ (name ≠ [] ∧ c.isDigit = true) := by
      intro c hc
      cases gap with
      | nil =>
        -- Another count follows at once, so there is a unit before it.
        refine .inr ⟨fun hname => hsep hname ?_ rfl, hrest.head?_isDigit c hc⟩
        rintro rfl
        cases hrest
        cases hc
      | cons d gap =>
        obtain rfl : d = c := by simpa using hc
        exact .inl (hgap d (by simp))
    rw [segments_number_unit_append (.inl hpart.digits_ne) hpart.isDigit hpart.unit_named.letters
      hend, segments_append_of_blank hgap, List.mapM_cons,
      (ofSegment?_digits_eq_some_iff hpart.isDigit).mpr ⟨p, hpart, rfl⟩, ih]
    rfl

/-! ## 4. Every text of counts is such a sequence -/

/-- A text begins with digits and other characters, up to a blank or the next digit. -/
theorem exists_number_unit {text : List Char} (hne : text ≠ []) (hpoint : '.' ∉ text)
    (hfirst : ∀ c ∈ text.head?, Text.isBlank c = false) :
    ∃ digits name tail, text = digits ++ (name ++ tail) ∧ (digits ≠ [] ∨ name ≠ []) ∧
      (∀ c ∈ digits, c.isDigit = true) ∧
      (∀ c ∈ name, Text.isBlank c = false ∧ isNumeric c = false) ∧
      (∀ c ∈ tail.head?, Text.isBlank c = true ∨ (name ≠ [] ∧ c.isDigit = true)) := by
  let inName : Char → Bool := fun c => !Text.isBlank c && !c.isDigit
  let behind := text.dropWhile Char.isDigit
  have hbehind : behind.takeWhile inName ++ behind.dropWhile inName = behind :=
    List.takeWhile_append_dropWhile
  have htext : text = text.takeWhile Char.isDigit ++
      (behind.takeWhile inName ++ behind.dropWhile inName) := by
    rw [hbehind, List.takeWhile_append_dropWhile]
  have hend : ∀ c ∈ (behind.dropWhile inName).head?,
      Text.isBlank c = true ∨ (behind.takeWhile inName ≠ [] ∧ c.isDigit = true) := by
    intro c hc
    have hstop : inName c = false := Text.eq_false_of_mem_head?_dropWhile c hc
    by_cases hblank : Text.isBlank c = true
    · exact .inl hblank
    · have hdigit : c.isDigit = true := by simpa [inName, hblank] using hstop
      refine .inr ⟨fun hname => ?_, hdigit⟩
      -- Without a name the digit would have been one of those before.
      rw [hname, List.nil_append] at hbehind
      rw [hbehind] at hc
      have hnot : c.isDigit = false := Text.eq_false_of_mem_head?_dropWhile c hc
      rw [hdigit] at hnot
      cases hnot
  refine ⟨_, _, _, htext, ?_, fun _ => List.mem_takeWhile_imp, ?_, hend⟩
  · by_contra hnone
    obtain ⟨hdigits, hname⟩ := not_or.mp hnone
    rw [not_not.mp hdigits, not_not.mp hname, List.nil_append, List.nil_append] at htext
    obtain ⟨c, rest, hcons⟩ := List.exists_cons_of_ne_nil hne
    have hc : c ∈ text.head? := by simp [hcons]
    rcases hend c (htext ▸ hc) with hblank | ⟨hname', -⟩
    · rw [hfirst c hc] at hblank
      cases hblank
    · exact hname hname'
  · intro c hc
    have hin : inName c = true := List.mem_takeWhile_imp hc
    have hmem : c ∈ text := (List.dropWhile_sublist _).subset ((List.takeWhile_sublist _).subset hc)
    have hne' : c ≠ '.' := fun heq => hpoint (heq ▸ hmem)
    simpa [inName, isNumeric, hne'] using hin

/-- A text whose segments are counts is a sequence of these counts. -/
theorem exists_spells {text : List Char} (hpoint : '.' ∉ text)
    (hfirst : ∀ c ∈ text.head?, Text.isBlank c = false) {cs : List Component}
    (hcs : (segments text).mapM Component.ofSegment? = some cs) :
    ∃ ps, Spells ps text ∧ ps.map Part.component = cs := by
  -- By induction on the length: behind the first count and its blanks a shorter text is left.
  induction hlength : text.length using Nat.strong_induction_on generalizing text cs with
  | _ n ih =>
    by_cases hne : text = []
    · subst hne
      exact ⟨[], .nil, by simpa [segments, segmentsFrom, finish] using hcs⟩
    obtain ⟨digits, name, tail, rfl, hsome, hdigits, hname, hend⟩ :=
      exists_number_unit hne hpoint hfirst
    let gap := tail.takeWhile Text.isBlank
    let rest := tail.dropWhile Text.isBlank
    have htail : gap ++ rest = tail := List.takeWhile_append_dropWhile
    have hgap : ∀ c ∈ gap, Text.isBlank c = true := fun _ => List.mem_takeWhile_imp
    have hrest : ∀ c ∈ rest.head?, Text.isBlank c = false :=
      Text.eq_false_of_mem_head?_dropWhile
    have hstep := segments_number_unit_append hsome hdigits hname hend
    rw [hstep, ← htail, segments_append_of_blank hgap, List.mapM_cons] at hcs
    obtain ⟨c, hc, ds, hds, rfl⟩ : ∃ c, Component.ofSegment? ⟨digits, name⟩ = some c ∧
        ∃ ds, (segments rest).mapM Component.ofSegment? = some ds ∧ c :: ds = cs := by
      simpa [Option.bind_eq_some_iff] using hcs
    obtain ⟨p, hpart, rfl⟩ := (ofSegment?_digits_eq_some_iff hdigits).mp hc
    have hshorter : rest.length < n := by
      have hpos : 0 < digits.length := List.length_pos_iff.mpr hpart.digits_ne
      rw [← hlength, ← htail]
      simp only [List.length_append]
      omega
    have hpoint' : '.' ∉ rest := by
      intro hmem
      rw [← htail] at hpoint
      simp only [List.mem_append, hmem, or_true, not_true_eq_false] at hpoint
    obtain ⟨ps, hps, rfl⟩ := ih rest.length hshorter hpoint' hrest hds rfl
    have hsep : name = [] → ps ≠ [] → gap ≠ [] := by
      rintro rfl hmore hnil
      rw [hnil, List.nil_append] at htail
      cases hcons : rest with
      | nil => exact hmore (hcons ▸ hps).eq_nil
      | cons d _ =>
        -- Nothing but a blank ends a number without a unit, and `d` is none.
        have hd : d ∈ tail.head? := by rw [← htail, hcons]; rfl
        rcases hend d hd with hblank | ⟨hname', -⟩
        · rw [hrest d (htail ▸ hd)] at hblank
          cases hblank
        · exact hname' rfl
    refine ⟨p :: ps, ?_, rfl⟩
    rw [← htail]
    exact .cons hpart hgap hsep hps

theorem components?_eq_some_iff {s : List Char} (hpoint : '.' ∉ s) {cs : List Component} :
    components? s = some cs ↔ ∃ ps, Spells ps (Text.trim s) ∧ ps.map Part.component = cs := by
  have htrim : '.' ∉ Text.trim s := by
    obtain ⟨before, after, -, -, hs⟩ := Text.exists_blank_append_trim s
    intro hmem
    rw [hs] at hpoint
    simp only [List.mem_append, hmem, true_or, or_true, not_true_eq_false] at hpoint
  constructor
  · exact exists_spells htrim Text.isBlank_of_mem_head?_trim
  · rintro ⟨ps, hps, rfl⟩
    exact hps.mapM_segments

/-! ## 5. Reading -/

/-- What the time span of `v` microseconds may be written as without a point. -/
def Denotes (text : List Char) (v : UInt64) : Prop :=
  (text = "infinity".toList ∧ v.toNat = UInt64.size - 1) ∨
    ∃ ps, ps ≠ [] ∧ Spells ps text ∧ total (ps.map Part.usec) = v.toNat

-- The word begins with a letter, and a sequence begins with a digit.
theorem not_spells_infinity (ps : List Part) : ¬Spells ps "infinity".toList :=
  fun h => absurd (h.head?_isDigit 'i' rfl) (by decide)

theorem denotes_infinity_iff {v : UInt64} : Denotes "infinity".toList v ↔ infinity = ⟨v⟩ := by
  simp only [Denotes, not_spells_infinity, false_and, and_false, exists_false, or_false, true_and,
    infinity, Timespan.mk.injEq, ← UInt64.toNat_inj, @eq_comm _ _ v.toNat]
  rfl

theorem not_denotes_nil (v : UInt64) : ¬Denotes [] v := by
  rintro (⟨h, -⟩ | ⟨ps, hne, hps, -⟩)
  · exact absurd h (by decide)
  · exact hne hps.eq_nil

theorem read?_eq_some_iff_denotes {s : List Char} (hpoint : '.' ∉ s) {v : UInt64} :
    read? s = some ⟨v⟩ ↔ Denotes (Text.trim s) v := by
  by_cases hinfinity : Text.trim s = "infinity".toList
  · have hread : read? s = some infinity := by
      rw [read?, hinfinity]
      rfl
    rw [hread, hinfinity, denotes_infinity_iff, Option.some.injEq]
  by_cases hne : Text.trim s = []
  · have hread : read? s = none := by
      rw [read?, hne]
      rfl
    rw [hread, hne]
    exact ⟨fun h => (Option.some_ne_none _ h.symm).elim, fun h => (not_denotes_nil v h).elim⟩
  rw [read?_eq_some_iff_total hne hinfinity, Denotes]
  simp only [components?_eq_some_iff hpoint, hinfinity, false_and, false_or]
  constructor
  · rintro ⟨_, ⟨ps, hps, rfl⟩, htotal⟩
    refine ⟨ps, ?_, hps, by rw [← htotal, total_usec_component]⟩
    rintro rfl
    exact hne hps.eq_nil_of_nil
  · rintro ⟨ps, -, hps, htotal⟩
    exact ⟨_, ⟨ps, hps, rfl⟩, by rw [total_usec_component, htotal]⟩

/-- Which texts without a point are read, and as what.  All others are refused, among them those whose
sum 64 bits do not hold. -/
theorem read?_without_point {s : List Char} (hpoint : '.' ∉ s) :
    (∀ v : UInt64, read? s = some ⟨v⟩ ↔
      (Text.trim s = "infinity".toList ∧ v.toNat = UInt64.size - 1) ∨
        ∃ ps, ps ≠ [] ∧ Spells ps (Text.trim s) ∧ total (ps.map Part.usec) = v.toNat) ∧
    (read? s = none ↔ Text.trim s ≠ "infinity".toList ∧
      ∀ ps, ps ≠ [] → Spells ps (Text.trim s) → UInt64.size ≤ total (ps.map Part.usec)) := by
  refine ⟨fun v => read?_eq_some_iff_denotes hpoint, fun h => ?_, fun ⟨hinfinity, hbig⟩ => ?_⟩
  · have hnone : ∀ v, ¬Denotes (Text.trim s) v := by
      intro v hv
      rw [← read?_eq_some_iff_denotes hpoint, h] at hv
      cases hv
    refine ⟨fun hinfinity => ?_, fun ps hne hps => ?_⟩
    · exact hnone (UInt64.ofNat (UInt64.size - 1)) (.inl ⟨hinfinity, by decide⟩)
    · by_contra hsmall
      have hfits : total (ps.map Part.usec) < UInt64.size := by omega
      exact hnone (UInt64.ofNat (total (ps.map Part.usec)))
        (.inr ⟨ps, hne, hps, (UInt64.toNat_ofNat_of_lt' hfits).symm⟩)
  · rw [Option.eq_none_iff_forall_ne_some]
    rintro ⟨v⟩ h
    rcases (read?_eq_some_iff_denotes hpoint).mp h with ⟨htext, -⟩ | ⟨ps, hne, hps, htotal⟩
    · exact hinfinity htext
    · have hle := hbig ps hne hps
      rw [htotal] at hle
      exact absurd v.toNat_lt_size (Nat.not_lt.mpr hle)

-- Counts with and without blanks between them, one of them without a unit; and a sum that is one too
-- large.
theorem read?_without_point_compound :
    let s := "\u00A02h30m5\u00B5s 7\u20031y\t".toList
    let long := "18446744073709551615us1us".toList
    '.' ∉ s ∧ read? s = some ⟨31566607000005⟩ ∧
      '.' ∉ long ∧ read? long = none ∧
        ∀ ps, ps ≠ [] → Spells ps (Text.trim long) → UInt64.size ≤ total (ps.map Part.usec) := by
  intro s long
  have hs : '.' ∉ s := by
    decide +kernel
  have hlong : '.' ∉ long := by
    decide +kernel
  have hnone : read? long = none := by
    decide +kernel
  have hhours : Part.SpelledBy ⟨2, .hour⟩ ['2'] ['h'] := ⟨by decide, by simp, rfl, .inl (by decide)⟩
  have hminutes : Part.SpelledBy ⟨30, .minute⟩ ['3', '0'] ['m'] :=
    ⟨by decide, by simp, rfl, .inl (by decide)⟩
  have hmicroseconds : Part.SpelledBy ⟨5, .microsecond⟩ ['5'] ['\u00B5', 's'] :=
    ⟨by decide, by simp, rfl, .inl (by decide)⟩
  have hseconds : Part.SpelledBy ⟨7, .second⟩ ['7'] [] := ⟨by decide, by simp, rfl, .inr ⟨rfl, rfl⟩⟩
  have hyears : Part.SpelledBy ⟨1, .year⟩ ['1'] ['y'] := ⟨by decide, by simp, rfl, .inl (by decide)⟩
  have hnoGap : ∀ c ∈ ([] : List Char), Text.isBlank c = true := by
    simp
  have hspace : ∀ c ∈ [' '], Text.isBlank c = true := List.all_eq_true.mp (by decide)
  have hwide : ∀ c ∈ ['\u2003'], Text.isBlank c = true := List.all_eq_true.mp (by decide)
  have hspells : Spells _ (Text.trim s) :=
    cast (congrArg (Spells _) (by decide +kernel))
      (Spells.cons hhours hnoGap (by simp)
        (.cons hminutes hnoGap (by simp)
          (.cons hmicroseconds hspace (by simp)
            (.cons hseconds hwide (by simp) (.cons hyears hnoGap (by simp) .nil)))))
  exact ⟨hs, ((read?_without_point hs).1 _).mpr (.inr ⟨_, by simp, hspells, by decide⟩), hlong, hnone,
    ((read?_without_point hlong).2.mp hnone).2⟩

end Timespan

end SleepPolicy
