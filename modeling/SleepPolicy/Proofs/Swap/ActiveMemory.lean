import SleepPolicy.Proofs.Text.Numeral
import SleepPolicy.Swap.Memory

/-!
# The memory in active use

One line of the statistics decides: the first that begins with the label, and no line before or behind it
has a part in the answer.  Behind the label stands a number that 64 bits can hold, with an optional plus
sign and blanks around it, and then any copies of the unit.  Anything else is a flaw of the statistics, and
so is a missing line.

## 1. Units at the end
-/

namespace SleepPolicy

namespace Memory

/-- Copies of the unit, one right behind the other. -/
def units (k : Nat) : List Char :=
  (List.replicate k ['k', 'B']).flatten

theorem units_succ (k : Nat) : units (k + 1) = units k ++ ['k', 'B'] := by
  rw [units, List.replicate_succ', List.flatten_append, List.flatten_singleton, units]

theorem isWord_units (k : Nat) : Text.IsWord (units (k + 1)) := by
  refine ⟨by simp [units_succ], fun c hc => ?_⟩
  obtain ⟨unit, hunit, hmem⟩ := List.mem_flatten.mp hc
  rw [List.eq_of_mem_replicate hunit] at hmem
  have hblank : ∀ d ∈ ['k', 'B'], Text.isBlank d = false := by simp; decide
  exact hblank c hmem

theorem dropReversedUnits_append (k : Nat) (s : List Char) :
    dropReversedUnits ((units k).reverse ++ s) = dropReversedUnits s := by
  induction k with
  | zero => rfl
  | succ k ih =>
    rw [units_succ, List.reverse_append]
    exact ih

theorem dropReversedUnits_eq_self {s : List Char} (h : ¬['B', 'k'] <+: s) : dropReversedUnits s = s := by
  unfold dropReversedUnits
  split
  · exact absurd ⟨_, rfl⟩ h
  · rfl

theorem exists_reversed_units (s : List Char) :
    ∃ k, s = (units k).reverse ++ dropReversedUnits s ∧ ¬['B', 'k'] <+: dropReversedUnits s := by
  induction s using dropReversedUnits.induct with
  | case1 rest ih =>
    obtain ⟨k, hrest, hnot⟩ := ih
    refine ⟨k + 1, ?_, hnot⟩
    rw [units_succ, List.reverse_append]
    exact congrArg ('B' :: 'k' :: ·) hrest
  | case2 s h =>
    have hnot : ¬['B', 'k'] <+: s := fun ⟨rest, hs⟩ => h rest hs.symm
    rw [dropReversedUnits_eq_self hnot]
    exact ⟨0, rfl, hnot⟩

theorem dropUnits_append_units {body : List Char} (h : ¬['k', 'B'] <:+ body) (k : Nat) :
    dropUnits (body ++ units k) = body := by
  have hreverse : ¬['k', 'B'].reverse <+: body.reverse := mt List.reverse_prefix.mp h
  rw [dropUnits, List.reverse_append, dropReversedUnits_append, dropReversedUnits_eq_self hreverse,
    List.reverse_reverse]

theorem exists_units (s : List Char) :
    ∃ k, s = dropUnits s ++ units k ∧ ¬['k', 'B'] <:+ dropUnits s := by
  obtain ⟨k, hs, hnot⟩ := exists_reversed_units s.reverse
  refine ⟨k, ?_, ?_⟩
  · rw [dropUnits, ← List.reverse_inj, List.reverse_append, List.reverse_reverse]
    exact hs
  · rw [dropUnits, ← List.reverse_prefix, List.reverse_reverse]
    exact hnot

/-! ## 2. What stands behind the label -/

/-- A number with blanks around it, any copies of the unit, and blanks at the end. -/
inductive StandsFor : List Char → Nat → Prop
  | written {before digits between after : List Char} {n k : Nat}
      (hbefore : ∀ c ∈ before, Text.isBlank c = true) (hdigits : Text.UnsignedDigits digits n)
      (hbetween : ∀ c ∈ between, Text.isBlank c = true) (hafter : ∀ c ∈ after, Text.isBlank c = true) :
      StandsFor (before ++ (digits ++ (between ++ (units k ++ after)))) n

/-- Trimmed, without the copies of the unit at its end and trimmed again, the text is a number. -/
def TrimsTo (rest : List Char) (n : Nat) : Prop :=
  ∃ body k, Text.trim rest = body ++ units k ∧ ¬['k', 'B'] <:+ body ∧
    Text.UnsignedDigits (Text.trim body) n

theorem amount?_eq_some_iff {rest : List Char} {n : UInt64} :
    amount? rest = some n ↔ TrimsTo rest n.toNat := by
  rw [amount?, Text.word?_eq_some_iff]
  constructor
  · intro h
    obtain ⟨k, hrest, hnot⟩ := exists_units (Text.trim rest)
    exact ⟨_, k, hrest, hnot, h⟩
  · rintro ⟨body, k, hrest, hnot, h⟩
    rwa [hrest, dropUnits_append_units hnot]

theorem not_unit_suffix {body : List Char} (h : 'B' ∉ body) : ¬['k', 'B'] <:+ body :=
  fun hsuffix => h (hsuffix.mem (by simp))

theorem not_mem_of_unsignedDigits {digits : List Char} {n : Nat} (h : Text.UnsignedDigits digits n) :
    'B' ∉ digits := by
  have hletter : ¬Char.isDigit 'B' = true := by decide
  cases h with
  | plain hne hdigits => exact fun hmem => hletter (hdigits _ hmem)
  | plus hne hdigits => simpa using fun hmem => hletter (hdigits _ hmem)

theorem not_mem_of_blank {gap : List Char} (h : ∀ c ∈ gap, Text.isBlank c = true) : 'B' ∉ gap :=
  fun hmem => absurd (h _ hmem) (by decide)

theorem standsFor_iff {rest : List Char} {n : Nat} : StandsFor rest n ↔ TrimsTo rest n := by
  constructor
  · rintro @⟨before, digits, between, after, _, k, hbefore, hdigits, hbetween, hafter⟩
    have hword := hdigits.isWord
    have houter : Text.trim (before ++ (digits ++ (between ++ (units k ++ after)))) =
        Text.trim (digits ++ (between ++ units k)) := by
      have hsplit : digits ++ (between ++ (units k ++ after)) =
          (digits ++ (between ++ units k)) ++ after := by
        simp only [List.append_assoc]
      rw [Text.trim_of_blank_append hbefore, hsplit, Text.trim_append_of_blank hafter]
    have hinner : Text.trim (digits ++ between) = digits := by
      rw [Text.trim_append_of_blank hbetween, Text.trim_eq_self hword.isTrimmed]
    cases k with
    | zero =>
      refine ⟨digits, 0, ?_, not_unit_suffix (not_mem_of_unsignedDigits hdigits), ?_⟩
      · rw [houter, units, List.replicate_zero, List.flatten_nil, List.append_nil, hinner,
          List.append_nil]
      · rwa [Text.trim_eq_self hword.isTrimmed]
    | succ k =>
      have hunits := isWord_units k
      have hmem : 'B' ∉ digits ++ between := by
        rw [List.mem_append, not_or]
        exact ⟨not_mem_of_unsignedDigits hdigits, not_mem_of_blank hbetween⟩
      refine ⟨digits ++ between, k + 1, ?_, not_unit_suffix hmem, by rwa [hinner]⟩
      rw [houter, List.append_assoc]
      -- The digits and the units hold the blanks between them.
      exact Text.trim_eq_self <|
        hword.isTrimmed.append_append hunits.isTrimmed hword.1 hunits.1 between
  · rintro ⟨body, k, htrim, -, hdigits⟩
    obtain ⟨before, after, hbefore, hafter, hrest⟩ := Text.exists_blank_append_trim rest
    obtain ⟨gap₁, gap₂, hgap₁, hgap₂, hbody⟩ := Text.exists_blank_append_trim body
    have hlaid : rest =
        before ++ gap₁ ++ (Text.trim body ++ (gap₂ ++ (units k ++ after))) := by
      rw [hrest, htrim]
      conv_lhs => rw [hbody]
      simp only [List.append_assoc]
    rw [hlaid]
    exact .written (List.forall_mem_append.mpr ⟨hbefore, hgap₁⟩) hdigits hgap₂ hafter

/-! ## 3. The line that decides -/

/-- The text behind the label, on the first line that begins with the label. -/
def FirstField (content rest : List Char) : Prop :=
  ∃ before after, Text.lines content = before ++ (activeAnonLabel ++ rest) :: after ∧
    ∀ line ∈ before, ¬activeAnonLabel <+: line

theorem afterLabel?_eq_some_iff {label line rest : List Char} :
    afterLabel? label line = some rest ↔ line = label ++ rest := by
  rw [afterLabel?, Option.ite_none_right_eq_some, List.isPrefixOf_iff_prefix, Option.some.injEq]
  constructor
  · rintro ⟨⟨rest, rfl⟩, h⟩
    rw [← h, List.drop_left]
  · rintro rfl
    exact ⟨List.prefix_append label rest, List.drop_left⟩

theorem afterLabel?_eq_none_iff {label line : List Char} :
    afterLabel? label line = none ↔ ¬label <+: line := by
  simp [afterLabel?]

theorem findSome?_eq_some_iff_firstField {content rest : List Char} :
    (Text.lines content).findSome? (afterLabel? activeAnonLabel) = some rest ↔
      FirstField content rest := by
  rw [List.findSome?_eq_some_iff, FirstField]
  constructor
  · rintro ⟨before, line, after, hlines, hline, hbefore⟩
    obtain rfl := afterLabel?_eq_some_iff.mp hline
    exact ⟨before, after, hlines, fun l hl => afterLabel?_eq_none_iff.mp (hbefore l hl)⟩
  · rintro ⟨before, after, hlines, hbefore⟩
    exact ⟨before, _, after, hlines, afterLabel?_eq_some_iff.mpr rfl,
      fun l hl => afterLabel?_eq_none_iff.mpr (hbefore l hl)⟩

theorem findSome?_eq_none_iff_label {content : List Char} :
    (Text.lines content).findSome? (afterLabel? activeAnonLabel) = none ↔
      ∀ line ∈ Text.lines content, ¬activeAnonLabel <+: line := by
  simp only [List.findSome?_eq_none_iff, afterLabel?_eq_none_iff]

/-! ## 4. The answer -/

section Answer

variable {content rest : List Char}

theorem activeAnon_of_number (h : FirstField content rest) {n : UInt64} (hn : StandsFor rest n.toNat) :
    activeAnon content = .ok n := by
  have hamount : amount? rest = some n := amount?_eq_some_iff.mpr (standsFor_iff.mp hn)
  simp only [activeAnon, findSome?_eq_some_iff_firstField.mpr h, hamount]

theorem activeAnon_of_no_number (h : FirstField content rest)
    (hnone : ∀ n : UInt64, ¬StandsFor rest n.toNat) :
    activeAnon content = .error (.invalidActiveAnon (String.ofList (Text.trim rest))) := by
  have hamount : amount? rest = none := by
    rw [Option.eq_none_iff_forall_ne_some]
    exact fun n hn => hnone n (standsFor_iff.mpr (amount?_eq_some_iff.mp hn))
  simp only [activeAnon, findSome?_eq_some_iff_firstField.mpr h, hamount]

theorem activeAnon_of_no_field (h : ∀ line ∈ Text.lines content, ¬activeAnonLabel <+: line) :
    activeAnon content = .error .noActiveAnon := by
  simp only [activeAnon, findSome?_eq_none_iff_label.mpr h]

/-- Two statistics with the same first field come to the same. -/
theorem activeAnon_congr {other : List Char} (h : FirstField content rest)
    (hother : FirstField other rest) : activeAnon other = activeAnon content := by
  simp only [activeAnon, findSome?_eq_some_iff_firstField.mpr h,
    findSome?_eq_some_iff_firstField.mpr hother]

/-- What statistics can come to. -/
theorem activeAnon_cases (content : List Char) :
    (∃ rest n, FirstField content rest ∧ StandsFor rest (UInt64.toNat n) ∧ activeAnon content = .ok n) ∨
    (∃ rest, FirstField content rest ∧ (∀ n : UInt64, ¬StandsFor rest n.toNat) ∧
      activeAnon content = .error (.invalidActiveAnon (String.ofList (Text.trim rest)))) ∨
    ((∀ line ∈ Text.lines content, ¬activeAnonLabel <+: line) ∧
      activeAnon content = .error .noActiveAnon) := by
  cases hfield : (Text.lines content).findSome? (afterLabel? activeAnonLabel) with
  | none =>
    have hnone := findSome?_eq_none_iff_label.mp hfield
    exact .inr (.inr ⟨hnone, activeAnon_of_no_field hnone⟩)
  | some rest =>
    have hfirst := findSome?_eq_some_iff_firstField.mp hfield
    by_cases hn : ∃ n : UInt64, StandsFor rest n.toNat
    · obtain ⟨n, hn⟩ := hn
      exact .inl ⟨rest, n, hfirst, hn, activeAnon_of_number hfirst hn⟩
    · rw [not_exists] at hn
      exact .inr (.inl ⟨rest, hfirst, hn, activeAnon_of_no_number hfirst hn⟩)

theorem readActiveAnon_eq_ok_iff {source : String} {n : UInt64} :
    readActiveAnon source content = .ok n ↔ activeAnon content = .ok n := by
  unfold readActiveAnon
  cases activeAnon content <;> simp

theorem readActiveAnon_eq_malformed_iff {source : String} {flaw : Flaw} :
    readActiveAnon source content = .error (.malformed source flaw) ↔
      activeAnon content = .error flaw := by
  unfold readActiveAnon
  cases activeAnon content <;> simp

end Answer

/-- How statistics that came from a path are read, said of their lines. -/
structure ReadByField (source : String) (content : List Char) (result : Except Failure UInt64) :
    Prop where
  number_iff : ∀ n, result = .ok n ↔ ∃ rest, FirstField content rest ∧ StandsFor rest n.toNat
  trimmed : ∀ rest, FirstField content rest → ∀ n, StandsFor rest n ↔ TrimsTo rest n
  no_number : ∀ rest, FirstField content rest → (∀ n : UInt64, ¬StandsFor rest n.toNat) →
    result = .error (.malformed source (.invalidActiveAnon (String.ofList (Text.trim rest))))
  no_field_iff : result = .error (.malformed source .noActiveAnon) ↔
    ∀ line ∈ Text.lines content, ¬activeAnonLabel <+: line
  fails_iff : (∃ flaw, result = .error (.malformed source flaw)) ↔
    ¬∃ rest, ∃ n : UInt64, FirstField content rest ∧ StandsFor rest n.toNat
  other_lines : ∀ other rest, FirstField content rest → FirstField other rest →
    readActiveAnon source other = result

/-- The first field alone decides how statistics are read: the number that it holds is the answer, and
without one the statistics are malformed. -/
theorem readActiveAnon_by_first_field (source : String) (content : List Char) :
    ReadByField source content (readActiveAnon source content) where
  number_iff n := by
    rw [readActiveAnon_eq_ok_iff]
    constructor
    · intro h
      rcases activeAnon_cases content with ⟨rest, m, hfirst, hm, hok⟩ | ⟨rest, -, -, herror⟩ |
        ⟨-, herror⟩
      · obtain rfl : m = n := Except.ok.inj (hok.symm.trans h)
        exact ⟨rest, hfirst, hm⟩
      · cases herror.symm.trans h
      · cases herror.symm.trans h
    · rintro ⟨rest, hfirst, hn⟩
      exact activeAnon_of_number hfirst hn
  trimmed rest _ n := standsFor_iff
  no_number rest hfirst hnone :=
    readActiveAnon_eq_malformed_iff.mpr (activeAnon_of_no_number hfirst hnone)
  no_field_iff := by
    rw [readActiveAnon_eq_malformed_iff]
    refine ⟨fun h => ?_, activeAnon_of_no_field⟩
    rcases activeAnon_cases content with ⟨rest, n, -, -, hok⟩ | ⟨rest, -, -, herror⟩ | ⟨hnone, -⟩
    · cases hok.symm.trans h
    · cases herror.symm.trans h
    · exact hnone
  fails_iff := by
    simp only [readActiveAnon_eq_malformed_iff]
    constructor
    · rintro ⟨flaw, hflaw⟩ ⟨rest, n, hfirst, hn⟩
      cases hflaw.symm.trans (activeAnon_of_number hfirst hn)
    · intro hnone
      rcases activeAnon_cases content with ⟨rest, n, hfirst, hn, -⟩ | ⟨rest, -, -, herror⟩ |
        ⟨-, herror⟩
      · exact absurd ⟨rest, n, hfirst, hn⟩ hnone
      · exact ⟨_, herror⟩
      · exact ⟨_, herror⟩
  other_lines other rest hfirst hother := by
    simp only [readActiveAnon, activeAnon_congr hfirst hother]

-- The lines above the field have other labels or begin with a blank.
example : readActiveAnon "/proc/meminfo"
    "Active: 1 kB\nInactive(anon): 2 kB\n Active(anon): 3 kB\nActive(anon):\t+045 kBkB\r\n".toList =
      .ok 45 := by
  decide +kernel

-- A good field behind a bad one is not looked at.
example : readActiveAnon "/proc/meminfo"
    "Active(anon): 18446744073709551616 kB\nActive(anon): 5 kB\n".toList =
      .error (.malformed "/proc/meminfo" (.invalidActiveAnon "18446744073709551616 kB")) := by
  decide +kernel

end Memory

end SleepPolicy
