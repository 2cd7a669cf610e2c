import SleepPolicy.Proofs.Text.Words
import SleepPolicy.Text.Numeral

/-!
# Numerals are read back

The decimal numeral of a number is read as that number, with any zeros in front, and with a minus sign as
its negative.  The sign tells the two apart because no numeral begins with one.
-/

namespace SleepPolicy.Text

theorem isDigit_of_mem_decimal {n : Nat} {c : Char} (h : c ∈ decimal n) : c.isDigit = true :=
  Nat.isDigit_of_mem_toDigits (by decide) (by decide) h

theorem decimal_ne_nil (n : Nat) : decimal n ≠ [] :=
  Nat.toDigits_ne_nil

/-- The digits of a number, or zeros and the digits. -/
def IsNumeral (n : Nat) (s : List Char) : Prop :=
  ∃ zeros, s = List.replicate zeros '0' ++ decimal n

/-- The numeral of an integer has a minus sign if the integer is negative. -/
inductive IsSignedNumeral : Int → List Char → Prop
  | natural {n : Nat} {s : List Char} (h : IsNumeral n s) : IsSignedNumeral n s
  | negative {n : Nat} {s : List Char} (h : IsNumeral (n + 1) s) :
      IsSignedNumeral (Int.negSucc n) ('-' :: s)

section Natural

variable {n : Nat} {s : List Char}

theorem IsNumeral.ne_nil (h : IsNumeral n s) : s ≠ [] := by
  obtain ⟨zeros, rfl⟩ := h
  exact List.append_ne_nil_of_right_ne_nil _ (decimal_ne_nil n)

theorem IsNumeral.isDigit (h : IsNumeral n s) : ∀ c ∈ s, c.isDigit = true := by
  obtain ⟨zeros, rfl⟩ := h
  intro c hc
  rcases List.mem_append.mp hc with hc | hc
  · rw [List.eq_of_mem_replicate hc]
    rfl
  · exact isDigit_of_mem_decimal hc

theorem IsNumeral.natural?_eq (h : IsNumeral n s) : natural? s = some n := by
  have hdigits : (!s.isEmpty && s.all Char.isDigit) = true := by
    rw [Bool.and_eq_true, List.all_eq_true]
    exact ⟨by simpa using h.ne_nil, h.isDigit⟩
  obtain ⟨zeros, rfl⟩ := h
  rw [natural?, if_pos hdigits, Nat.ofDigitChars_append, Nat.ofDigitChars_replicate_zero, Nat.mul_zero,
    decimal, Nat.ofDigitChars_ten_toDigits]

theorem IsNumeral.isWord (h : IsNumeral n s) : IsWord s :=
  ⟨h.ne_nil, fun c hc => isBlank_eq_false_of_isDigit (h.isDigit c hc)⟩

-- A sign is no digit, so none is taken off.
theorem unsigned?_of_isDigit (hne : s ≠ []) (hdigits : ∀ c ∈ s, c.isDigit = true) :
    unsigned? s = natural? s := by
  obtain ⟨c, rest, rfl⟩ := List.exists_cons_of_ne_nil hne
  have hplus : c ≠ '+' := by
    rintro rfl
    exact absurd (hdigits '+' (by simp)) (by decide)
  unfold unsigned?
  split
  · rename_i heq
    exact absurd (List.cons.inj heq).1 hplus
  · rfl

theorem signed?_of_isDigit (hne : s ≠ []) (hdigits : ∀ c ∈ s, c.isDigit = true) :
    signed? s = (natural? s).map fun n => (n : Int) := by
  have hunsigned := unsigned?_of_isDigit hne hdigits
  obtain ⟨c, rest, rfl⟩ := List.exists_cons_of_ne_nil hne
  have hminus : c ≠ '-' := by
    rintro rfl
    exact absurd (hdigits '-' (by simp)) (by decide)
  unfold signed?
  split
  · rename_i heq
    exact absurd (List.cons.inj heq).1 hminus
  · rw [hunsigned]

theorem IsNumeral.signed?_eq (h : IsNumeral n s) : signed? s = some (n : Int) := by
  rw [signed?_of_isDigit h.ne_nil h.isDigit, h.natural?_eq]
  rfl

end Natural

variable {i : Int} {s : List Char}

theorem IsSignedNumeral.isWord (h : IsSignedNumeral i s) : IsWord s := by
  cases h with
  | natural h => exact h.isWord
  | negative h =>
    exact ⟨List.cons_ne_nil _ _, List.forall_mem_cons.mpr ⟨by decide, h.isWord.2⟩⟩

theorem IsSignedNumeral.signed?_eq (h : IsSignedNumeral i s) : signed? s = some i := by
  cases h with
  | natural h => exact h.signed?_eq
  | negative h =>
    rw [signed?, h.natural?_eq]
    rfl

theorem IsSignedNumeral.integer?_eq (h : IsSignedNumeral i s) (hlo : Int64.minValue.toInt ≤ i)
    (hhi : i ≤ Int64.maxValue.toInt) : integer? s = some (Int64.ofInt i) := by
  rw [integer?, h.signed?_eq]
  exact if_pos ⟨hlo, hhi⟩

/-! ## Which numerals are read -/

/-- Digits after an optional plus sign, and the number that they stand for. -/
inductive UnsignedDigits : List Char → Nat → Prop
  | plain {ds : List Char} (hne : ds ≠ []) (hdigits : ∀ c ∈ ds, c.isDigit = true) :
      UnsignedDigits ds (Nat.ofDigitChars 10 ds 0)
  | plus {ds : List Char} (hne : ds ≠ []) (hdigits : ∀ c ∈ ds, c.isDigit = true) :
      UnsignedDigits ('+' :: ds) (Nat.ofDigitChars 10 ds 0)

/-- Digits after an optional sign, and the integer that they stand for. -/
inductive SignedDigits : List Char → Int → Prop
  | plain {ds : List Char} (hne : ds ≠ []) (hdigits : ∀ c ∈ ds, c.isDigit = true) :
      SignedDigits ds (Nat.ofDigitChars 10 ds 0 : Nat)
  | plus {ds : List Char} (hne : ds ≠ []) (hdigits : ∀ c ∈ ds, c.isDigit = true) :
      SignedDigits ('+' :: ds) (Nat.ofDigitChars 10 ds 0 : Nat)
  | minus {ds : List Char} (hne : ds ≠ []) (hdigits : ∀ c ∈ ds, c.isDigit = true) :
      SignedDigits ('-' :: ds) (-(Nat.ofDigitChars 10 ds 0 : Nat))

theorem natural?_eq_some_iff {n : Nat} :
    natural? s = some n ↔ s ≠ [] ∧ (∀ c ∈ s, c.isDigit = true) ∧ Nat.ofDigitChars 10 s 0 = n := by
  rw [natural?, Option.ite_none_right_eq_some, Bool.and_eq_true, List.all_eq_true, and_assoc,
    Option.some.injEq]
  simp

theorem unsigned?_eq_some_iff {n : Nat} : unsigned? s = some n ↔ UnsignedDigits s n := by
  constructor
  · intro h
    unfold unsigned? at h
    split at h
    · obtain ⟨hne, hdigits, rfl⟩ := natural?_eq_some_iff.mp h
      exact .plus hne hdigits
    · obtain ⟨hne, hdigits, rfl⟩ := natural?_eq_some_iff.mp h
      exact .plain hne hdigits
  · intro h
    cases h with
    | plain hne hdigits =>
      rw [unsigned?_of_isDigit hne hdigits]
      exact natural?_eq_some_iff.mpr ⟨hne, hdigits, rfl⟩
    | plus hne hdigits => exact natural?_eq_some_iff.mpr ⟨hne, hdigits, rfl⟩

theorem UnsignedDigits.isWord {n : Nat} (h : UnsignedDigits s n) : IsWord s := by
  cases h with
  | plain hne hdigits => exact ⟨hne, fun c hc => isBlank_eq_false_of_isDigit (hdigits c hc)⟩
  | plus hne hdigits =>
    have hblank := fun c hc => isBlank_eq_false_of_isDigit (hdigits c hc)
    exact ⟨List.cons_ne_nil _ _, List.forall_mem_cons.mpr ⟨by decide, hblank⟩⟩

theorem signed?_eq_some_iff : signed? s = some i ↔ SignedDigits s i := by
  constructor
  · intro h
    unfold signed? at h
    split at h
    · obtain ⟨n, hn, rfl⟩ : ∃ n : Nat, natural? _ = some n ∧ -(n : Int) = i := by
        simpa [Option.bind_eq_some_iff] using h
      obtain ⟨hne, hdigits, rfl⟩ := natural?_eq_some_iff.mp hn
      exact .minus hne hdigits
    · obtain ⟨n, hn, rfl⟩ : ∃ n : Nat, unsigned? _ = some n ∧ (n : Int) = i := by
        simpa [Option.bind_eq_some_iff] using h
      cases unsigned?_eq_some_iff.mp hn with
      | plain hne hdigits => exact .plain hne hdigits
      | plus hne hdigits => exact .plus hne hdigits
  · intro h
    cases h with
    | plain hne hdigits =>
      rw [signed?_of_isDigit hne hdigits, natural?_eq_some_iff.mpr ⟨hne, hdigits, rfl⟩]
      rfl
    | plus hne hdigits =>
      rw [signed?, unsigned?_eq_some_iff.mpr (.plus hne hdigits)]
      · rfl
      · simp
    | minus hne hdigits =>
      rw [signed?, natural?_eq_some_iff.mpr ⟨hne, hdigits, rfl⟩]
      rfl

theorem word?_eq_some_iff {w : UInt64} : word? s = some w ↔ UnsignedDigits s w.toNat := by
  simp only [word?, Option.bind_eq_bind, Option.bind_eq_some_iff, unsigned?_eq_some_iff,
    Option.ite_none_right_eq_some, Option.some.injEq]
  constructor
  · rintro ⟨n, hn, hlt, rfl⟩
    rwa [UInt64.toNat_ofNat_of_lt' hlt]
  · intro h
    exact ⟨w.toNat, h, w.toNat_lt, UInt64.ofNat_toNat⟩

theorem integer?_eq_some_iff {w : Int64} : integer? s = some w ↔ SignedDigits s w.toInt := by
  simp only [integer?, Option.bind_eq_bind, Option.bind_eq_some_iff, signed?_eq_some_iff,
    Option.ite_none_right_eq_some, Option.some.injEq]
  constructor
  · rintro ⟨i, hi, ⟨hlo, hhi⟩, rfl⟩
    rw [Int64.toInt_minValue] at hlo
    rw [Int64.toInt_maxValue] at hhi
    rwa [Int64.toInt_ofInt_of_le (by omega) (by omega)]
  · intro h
    refine ⟨w.toInt, h, ⟨?_, ?_⟩, Int64.ofInt_toInt w⟩
    · rw [Int64.toInt_minValue]
      exact w.le_toInt
    · have hlt := w.toInt_lt
      rw [Int64.toInt_maxValue]
      omega

/-! ## Numerals without zeros in front -/

theorem digitChar_of_isDigit {c : Char} (h : c.isDigit = true) :
    c.toNat - 48 < 10 ∧ Nat.digitChar (c.toNat - 48) = c := by
  have hlo : 48 ≤ c.toNat := (Char.isDigit_iff_toNat.mp h).1
  have hhi : c.toNat ≤ 57 := (Char.isDigit_iff_toNat.mp h).2
  have hlt : c.toNat - 48 < 10 := by omega
  refine ⟨hlt, Char.toNat_inj.mp ?_⟩
  rw [Nat.toNat_digitChar_of_lt_ten hlt]
  omega

theorem head?_decimal_ne_zero {n : Nat} (h : 0 < n) : (decimal n).head? ≠ some '0' := by
  induction n using Nat.base_induction 10 (by decide) with
  | single m hm =>
    rw [decimal, Nat.toDigits_of_lt_base hm, List.head?_cons, Ne, Option.some.injEq,
      Nat.digitChar_eq_zero]
    omega
  | digit m k hk hm ih =>
    rw [decimal, ← Nat.toDigits_append_toDigits (by decide) hm hk,
      List.head?_append_of_ne_nil _ Nat.toDigits_ne_nil]
    exact ih hm

/-- Digits of which the first is not zero are the numeral of the number that they stand for. -/
theorem eq_decimal_of_head?_ne_zero {ds : List Char} (hne : ds ≠ [])
    (hdigits : ∀ c ∈ ds, c.isDigit = true) (hhead : ds.head? ≠ some '0') :
    ds = decimal (Nat.ofDigitChars 10 ds 0) := by
  induction ds using List.reverseRecOn with
  | nil => exact absurd rfl hne
  | append_singleton ds c ih =>
    obtain ⟨hlt, hc⟩ := digitChar_of_isDigit (hdigits c (by simp))
    have hlast : Nat.toDigits 10 (c.toNat - 48) = [c] := by
      rw [Nat.toDigits_of_lt_base hlt, hc]
    rw [Nat.ofDigitChars_append, Nat.ofDigitChars_cons, Nat.ofDigitChars_nil, decimal,
      show '0'.toNat = 48 from rfl]
    by_cases hnil : ds = []
    · rw [hnil, Nat.ofDigitChars_nil, Nat.mul_zero, Nat.zero_add]
      exact hlast.symm
    · rw [List.head?_append_of_ne_nil _ hnil] at hhead
      have hds := ih hnil (fun d hd => hdigits d (List.mem_append_left [c] hd)) hhead
      -- The digits before the last one do not stand for zero, whose numeral begins with it.
      have hpos : 0 < Nat.ofDigitChars 10 ds 0 := by
        rw [Nat.pos_iff_ne_zero]
        intro hzero
        rw [hds, hzero] at hhead
        exact hhead rfl
      rw [← Nat.toDigits_append_toDigits (by decide) hpos hlt, ← decimal, ← hds]
      exact congrArg (ds ++ ·) hlast.symm

end SleepPolicy.Text
