import SleepPolicy.Text.Utf8

/-!
# UTF-8 as an encoding

Strict decoding undoes encoding and accepts nothing else: a byte string is decoded exactly if it is the
encoding of a text, and then that text comes out.

## 1. Bytes of a character

The bounds on the bytes of each length are those that a scan goes by: a first byte of some lengths binds
the second byte too, to keep out overlong forms, surrogates and what lies above the last code point.
-/

namespace SleepPolicy.Text

theorem ofNat_eq_iff {n : Nat} {b : UInt8} : UInt8.ofNat n = b ↔ n % 256 = b.toNat := by
  rw [← UInt8.toNat_inj, UInt8.toNat_ofNat']

theorem isValidChar_toNat (c : Char) : c.toNat.isValidChar := by
  have h := c.valid
  simpa only [UInt32.isValidChar, Char.toNat_val] using h

theorem toNat_ofNat {n : Nat} (h : n.isValidChar) : (Char.ofNat n).toNat = n := by
  rw [Char.ofNat, dif_pos h]
  rfl

section Lengths

variable {c : Char} {b b₁ b₂ b₃ : UInt8}

theorem utf8EncodeChar_eq_one_iff :
    String.utf8EncodeChar c = [b] ↔ b.toNat < 0x80 ∧ c.toNat = b.toNat := by
  have hb := b.toNat_lt
  unfold String.utf8EncodeChar
  simp only [Char.toNat_val]
  generalize c.toNat = n
  repeat' split
  all_goals simp only [List.cons.injEq, ofNat_eq_iff, reduceCtorEq, and_true, and_false, false_iff]
  all_goals omega

theorem utf8EncodeChar_eq_two_iff :
    String.utf8EncodeChar c = [b, b₁] ↔
      (0xC2 ≤ b.toNat ∧ b.toNat < 0xE0) ∧ (0x80 ≤ b₁.toNat ∧ b₁.toNat ≤ 0xBF) ∧
        c.toNat = b.toNat % 32 * 64 + b₁.toNat % 64 := by
  unfold String.utf8EncodeChar
  simp only [Char.toNat_val]
  generalize c.toNat = n
  repeat' split
  all_goals simp only [List.cons.injEq, ofNat_eq_iff, reduceCtorEq, and_true, and_false, false_iff]
  all_goals omega

theorem utf8EncodeChar_eq_three_iff :
    String.utf8EncodeChar c = [b, b₁, b₂] ↔
      (0xE0 ≤ b.toNat ∧ b.toNat < 0xF0) ∧
        (0x80 ≤ b₁.toNat ∧ b₁.toNat ≤ 0xBF ∧ (b.toNat = 0xE0 → 0xA0 ≤ b₁.toNat) ∧
          (b.toNat = 0xED → b₁.toNat ≤ 0x9F)) ∧
        (0x80 ≤ b₂.toNat ∧ b₂.toNat ≤ 0xBF) ∧
        c.toNat = (b.toNat % 16 * 64 + b₁.toNat % 64) * 64 + b₂.toNat % 64 := by
  have hvalid := isValidChar_toNat c
  unfold Nat.isValidChar at hvalid
  unfold String.utf8EncodeChar
  simp only [Char.toNat_val]
  generalize c.toNat = n at hvalid ⊢
  repeat' split
  all_goals simp only [List.cons.injEq, ofNat_eq_iff, reduceCtorEq, and_true, and_false, false_iff]
  · omega
  · omega
  · constructor
    · rintro ⟨h, h₁, h₂⟩
      omega
    · intro h
      omega
  · omega

theorem utf8EncodeChar_eq_four_iff :
    String.utf8EncodeChar c = [b, b₁, b₂, b₃] ↔
      (0xF0 ≤ b.toNat ∧ b.toNat < 0xF5) ∧
        (0x80 ≤ b₁.toNat ∧ b₁.toNat ≤ 0xBF ∧ (b.toNat = 0xF0 → 0x90 ≤ b₁.toNat) ∧
          (b.toNat = 0xF4 → b₁.toNat ≤ 0x8F)) ∧
        (0x80 ≤ b₂.toNat ∧ b₂.toNat ≤ 0xBF) ∧ (0x80 ≤ b₃.toNat ∧ b₃.toNat ≤ 0xBF) ∧
        c.toNat =
          ((b.toNat % 8 * 64 + b₁.toNat % 64) * 64 + b₂.toNat % 64) * 64 + b₃.toNat % 64 := by
  have hvalid := isValidChar_toNat c
  unfold Nat.isValidChar at hvalid
  unfold String.utf8EncodeChar
  simp only [Char.toNat_val]
  generalize c.toNat = n at hvalid ⊢
  repeat' split
  all_goals simp only [List.cons.injEq, ofNat_eq_iff, reduceCtorEq, and_true, and_false, false_iff]
  · omega
  · omega
  · omega
  · constructor
    · rintro ⟨h, h₁, h₂, h₃⟩
      omega
    · intro h
      omega

theorem utf8EncodeChar_lengths (c : Char) :
    (∃ b, String.utf8EncodeChar c = [b]) ∨ (∃ b b₁, String.utf8EncodeChar c = [b, b₁]) ∨
      (∃ b b₁ b₂, String.utf8EncodeChar c = [b, b₁, b₂]) ∨
      ∃ b b₁ b₂ b₃, String.utf8EncodeChar c = [b, b₁, b₂, b₃] := by
  unfold String.utf8EncodeChar
  simp only
  repeat' split
  · exact .inl ⟨_, rfl⟩
  · exact .inr (.inl ⟨_, _, rfl⟩)
  · exact .inr (.inr (.inl ⟨_, _, _, rfl⟩))
  · exact .inr (.inr (.inr ⟨_, _, _, _, rfl⟩))

/-! ## 2. First bytes -/

theorem ofFirst?_two (hlo : 0xC2 ≤ b.toNat) (hhi : b.toNat < 0xE0) :
    Sequence.ofFirst? b = some ⟨b.toNat % 32, 0x80, 0xBF, 0⟩ := by
  unfold Sequence.ofFirst?
  simp only [UInt8.lt_iff_toNat_lt, ← UInt8.toNat_inj, UInt8.reduceToNat]
  rw [if_neg (by omega), if_pos hhi]

theorem ofFirst?_three (hlo : 0xE0 ≤ b.toNat) (hhi : b.toNat < 0xF0) :
    ∃ lo hi, Sequence.ofFirst? b = some ⟨b.toNat % 16, lo, hi, 1⟩ ∧
      ∀ b₁ : UInt8, lo ≤ b₁ ∧ b₁ ≤ hi ↔
        0x80 ≤ b₁.toNat ∧ b₁.toNat ≤ 0xBF ∧ (b.toNat = 0xE0 → 0xA0 ≤ b₁.toNat) ∧
          (b.toNat = 0xED → b₁.toNat ≤ 0x9F) := by
  unfold Sequence.ofFirst?
  simp only [UInt8.lt_iff_toNat_lt, ← UInt8.toNat_inj, UInt8.le_iff_toNat_le, UInt8.reduceToNat]
  rw [if_neg (by omega), if_neg (by omega)]
  by_cases hE0 : b.toNat = 0xE0
  · refine ⟨0xA0, 0xBF, by simp [hE0], fun b₁ => ?_⟩
    simp only [UInt8.reduceToNat]
    omega
  by_cases hED : b.toNat = 0xED
  · refine ⟨0x80, 0x9F, by simp [hED], fun b₁ => ?_⟩
    simp only [UInt8.reduceToNat]
    omega
  refine ⟨0x80, 0xBF, by simp [hE0, hED, hhi], fun b₁ => ?_⟩
  simp only [UInt8.reduceToNat]
  omega

theorem ofFirst?_four (hlo : 0xF0 ≤ b.toNat) (hhi : b.toNat < 0xF5) :
    ∃ lo hi, Sequence.ofFirst? b = some ⟨b.toNat % 8, lo, hi, 2⟩ ∧
      ∀ b₁ : UInt8, lo ≤ b₁ ∧ b₁ ≤ hi ↔
        0x80 ≤ b₁.toNat ∧ b₁.toNat ≤ 0xBF ∧ (b.toNat = 0xF0 → 0x90 ≤ b₁.toNat) ∧
          (b.toNat = 0xF4 → b₁.toNat ≤ 0x8F) := by
  unfold Sequence.ofFirst?
  simp only [UInt8.lt_iff_toNat_lt, ← UInt8.toNat_inj, UInt8.le_iff_toNat_le, UInt8.reduceToNat]
  rw [if_neg (by omega), if_neg (by omega), if_neg (by omega), if_neg (by omega), if_neg (by omega)]
  by_cases hF0 : b.toNat = 0xF0
  · refine ⟨0x90, 0xBF, by simp [hF0], fun b₁ => ?_⟩
    simp only [UInt8.reduceToNat]
    omega
  by_cases hF4 : b.toNat = 0xF4
  · refine ⟨0x80, 0x8F, by simp [hF4], fun b₁ => ?_⟩
    simp only [UInt8.reduceToNat]
    omega
  refine ⟨0x80, 0xBF, ?_, fun b₁ => ?_⟩
  · rw [if_neg hF0, if_pos (by omega)]
  · simp only [UInt8.reduceToNat]
    omega

theorem bounds_of_ofFirst? {s : Sequence} (h : Sequence.ofFirst? b = some s) :
    0xC2 ≤ b.toNat ∧ b.toNat < 0xF5 := by
  unfold Sequence.ofFirst? at h
  simp only [UInt8.lt_iff_toNat_lt, ← UInt8.toNat_inj, UInt8.reduceToNat] at h
  repeat' split at h
  case isTrue => cases h
  case isFalse => cases h
  all_goals omega

end Lengths

/-! ## 3. Completed sequences -/

/-- The bytes that complete a sequence that has begun, and the character that it then stands for. -/
inductive Sequence.Completes : Sequence → List UInt8 → Char → Prop
  | last {bits : Nat} {lo hi b : UInt8} {c : Char} (hb : lo ≤ b ∧ b ≤ hi)
      (hc : Char.ofNat (bits * 64 + b.toNat % 64) = c) : Completes ⟨bits, lo, hi, 0⟩ [b] c
  | next {bits more : Nat} {lo hi b : UInt8} {tail : List UInt8} {c : Char} (hb : lo ≤ b ∧ b ≤ hi)
      (htail : Completes ⟨bits * 64 + b.toNat % 64, 0x80, 0xBF, more⟩ tail c) :
      Completes ⟨bits, lo, hi, more + 1⟩ (b :: tail) c

theorem continuation_iff {b : UInt8} : (0x80 ≤ b ∧ b ≤ 0xBF) ↔ 0x80 ≤ b.toNat ∧ b.toNat ≤ 0xBF := by
  simp only [UInt8.le_iff_toNat_le, UInt8.reduceToNat]

theorem utf8EncodeChar_of_completes {b : UInt8} {s : Sequence}
    (hfirst : Sequence.ofFirst? b = some s) {tail : List UInt8} {c : Char}
    (h : s.Completes tail c) : String.utf8EncodeChar c = b :: tail := by
  obtain ⟨hlo, hhi⟩ := bounds_of_ofFirst? hfirst
  by_cases htwo : b.toNat < 0xE0
  · rw [ofFirst?_two hlo htwo, Option.some.injEq] at hfirst
    subst hfirst
    obtain ⟨hb₁, rfl⟩ := h
    rw [continuation_iff] at hb₁
    exact utf8EncodeChar_eq_two_iff.mpr ⟨⟨hlo, htwo⟩, hb₁, toNat_ofNat (.inl (by omega))⟩
  by_cases hthree : b.toNat < 0xF0
  · obtain ⟨lo, hi, heq, hbounds⟩ := ofFirst?_three (by omega) hthree
    rw [heq, Option.some.injEq] at hfirst
    subst hfirst
    obtain _ | ⟨hb₁, ⟨hb₂, rfl⟩⟩ := h
    rw [hbounds] at hb₁
    rw [continuation_iff] at hb₂
    refine utf8EncodeChar_eq_three_iff.mpr ⟨⟨by omega, hthree⟩, hb₁, hb₂, toNat_ofNat ?_⟩
    unfold Nat.isValidChar
    omega
  obtain ⟨lo, hi, heq, hbounds⟩ := ofFirst?_four (by omega) hhi
  rw [heq, Option.some.injEq] at hfirst
  subst hfirst
  obtain _ | ⟨hb₁, _ | ⟨hb₂, ⟨hb₃, rfl⟩⟩⟩ := h
  rw [hbounds] at hb₁
  rw [continuation_iff] at hb₂ hb₃
  exact utf8EncodeChar_eq_four_iff.mpr
    ⟨⟨by omega, hhi⟩, hb₁, hb₂, hb₃, toNat_ofNat (.inr (by omega))⟩

/-- A character is one byte of ASCII, or a first byte with what completes it. -/
theorem utf8EncodeChar_cases (c : Char) :
    (∃ b, String.utf8EncodeChar c = [b] ∧ b.toNat < 0x80 ∧ Char.ofNat b.toNat = c) ∨
      ∃ b s tail, String.utf8EncodeChar c = b :: tail ∧ Sequence.ofFirst? b = some s ∧
        s.Completes tail c := by
  rcases utf8EncodeChar_lengths c with
    ⟨b, h⟩ | ⟨b, b₁, h⟩ | ⟨b, b₁, b₂, h⟩ | ⟨b, b₁, b₂, b₃, h⟩
  · obtain ⟨hb, hc⟩ := utf8EncodeChar_eq_one_iff.mp h
    exact .inl ⟨b, h, hb, hc ▸ c.ofNat_toNat⟩
  · obtain ⟨hb, hb₁, hc⟩ := utf8EncodeChar_eq_two_iff.mp h
    refine .inr ⟨b, _, [b₁], h, ofFirst?_two hb.1 hb.2, ?_⟩
    exact .last (continuation_iff.mpr hb₁) (hc ▸ c.ofNat_toNat)
  · obtain ⟨hb, hb₁, hb₂, hc⟩ := utf8EncodeChar_eq_three_iff.mp h
    obtain ⟨lo, hi, heq, hbounds⟩ := ofFirst?_three hb.1 hb.2
    refine .inr ⟨b, _, [b₁, b₂], h, heq, ?_⟩
    exact .next ((hbounds b₁).mpr hb₁) (.last (continuation_iff.mpr hb₂) (hc ▸ c.ofNat_toNat))
  · obtain ⟨hb, hb₁, hb₂, hb₃, hc⟩ := utf8EncodeChar_eq_four_iff.mp h
    obtain ⟨lo, hi, heq, hbounds⟩ := ofFirst?_four hb.1 hb.2
    refine .inr ⟨b, _, [b₁, b₂, b₃], h, heq, ?_⟩
    exact .next ((hbounds b₁).mpr hb₁) (.next (continuation_iff.mpr hb₂)
      (.last (continuation_iff.mpr hb₃) (hc ▸ c.ofNat_toNat)))

/-! ## 4. Scanning -/

theorem Sequence.Completes.scan_append {s : Sequence} {tail : List UInt8} {c : Char}
    (h : s.Completes tail c) (rest : List UInt8) :
    scan (some s) (tail ++ rest) = some c :: scan none rest := by
  induction h with
  | last hb hc => simp [scan, scanByte, hb, hc]
  | next hb _ ih => simp [scan, scanByte, hb, ih]

theorem scanFirst_ascii {b : UInt8} (h : b.toNat < 0x80) :
    scanFirst b = ([some (Char.ofNat b.toNat)], none) := by
  rw [scanFirst, if_pos (UInt8.lt_iff_toNat_lt.mpr h)]

theorem scanFirst_begun {b : UInt8} {s : Sequence} (h : Sequence.ofFirst? b = some s) :
    scanFirst b = ([], some s) := by
  have hlo := (bounds_of_ofFirst? h).1
  have hnot : ¬ b < 0x80 := by
    rw [UInt8.lt_iff_toNat_lt]
    show ¬ b.toNat < 128
    omega
  rw [scanFirst, if_neg hnot, h]

theorem scan_utf8EncodeChar (c : Char) (rest : List UInt8) :
    scan none (String.utf8EncodeChar c ++ rest) = some c :: scan none rest := by
  rcases utf8EncodeChar_cases c with ⟨b, h, hb, hc⟩ | ⟨b, s, tail, h, hfirst, htail⟩
  · rw [h, List.singleton_append, scan, scanByte, scanFirst_ascii hb, hc]
    rfl
  · rw [h, List.cons_append, scan, scanByte, scanFirst_begun hfirst]
    exact htail.scan_append rest

theorem scan_encodeUtf8 (s : List Char) : scan none (encodeUtf8 s) = s.map some := by
  induction s with
  | nil => rfl
  | cons c s ih => rw [encodeUtf8, List.flatMap_cons, scan_utf8EncodeChar, ← encodeUtf8, ih]; rfl

/-- The bytes that have been read of a character, when a scan is in some state. -/
def Begun : Option Sequence → List UInt8 → Prop
  | none, read => read = []
  | some s, read => ∀ tail c, s.Completes tail c → String.utf8EncodeChar c = read ++ tail

theorem scanFirst_begins {b : UInt8} (h : none ∉ (scanFirst b).1) :
    ∃ s read, (scanFirst b).1 = s.map some ∧ Begun (scanFirst b).2 read ∧
      [b] = encodeUtf8 s ++ read := by
  by_cases hb : b.toNat < 0x80
  · rw [scanFirst_ascii hb]
    have hvalid : b.toNat.isValidChar := .inl (by omega)
    have hbytes : String.utf8EncodeChar (Char.ofNat b.toNat) = [b] :=
      utf8EncodeChar_eq_one_iff.mpr ⟨hb, toNat_ofNat hvalid⟩
    exact ⟨[Char.ofNat b.toNat], [], rfl, rfl, by simp [encodeUtf8, hbytes]⟩
  · cases hfirst : Sequence.ofFirst? b with
    | none =>
      have hnot : ¬ b < 0x80 := mt UInt8.lt_iff_toNat_lt.mp hb
      rw [scanFirst, if_neg hnot, hfirst] at h
      exact absurd (List.mem_singleton_self _) h
    | some s =>
      rw [scanFirst_begun hfirst]
      exact ⟨[], [b], rfl, fun tail c => utf8EncodeChar_of_completes hfirst, rfl⟩

-- One step keeps account of every byte: it belongs to a character that is done or to the one that has
-- begun.
theorem scanByte_begins {state : Option Sequence} {b : UInt8} {read : List UInt8}
    (hread : Begun state read) (h : none ∉ (scanByte state b).1) :
    ∃ s read', (scanByte state b).1 = s.map some ∧ Begun (scanByte state b).2 read' ∧
      read ++ [b] = encodeUtf8 s ++ read' := by
  cases state with
  | none =>
    obtain rfl : read = [] := hread
    exact scanFirst_begins h
  | some seq =>
    obtain ⟨bits, lo, hi, more⟩ := seq
    by_cases hb : lo ≤ b ∧ b ≤ hi
    · cases more with
      | zero =>
        have hchar := hread [b] _ (.last hb rfl)
        refine ⟨[Char.ofNat (bits * 64 + b.toNat % 64)], [], ?_, ?_, ?_⟩
        · simp [scanByte, hb]
        · simp [scanByte, hb, Begun]
        · simp [encodeUtf8, hchar]
      | succ more =>
        refine ⟨[], read ++ [b], ?_, ?_, rfl⟩
        · simp [scanByte, hb]
        · simp only [scanByte, hb, decide_true, Bool.and_self, if_true]
          intro tail c htail
          rw [List.append_assoc]
          exact hread (b :: tail) c (.next hb htail)
    · exfalso
      apply h
      have hnot : ¬ (decide (lo ≤ b) && decide (b ≤ hi)) = true := by simpa using hb
      rw [scanByte]
      simp only [if_neg hnot]
      exact List.mem_cons_self

theorem eq_encodeUtf8_of_scan {bytes : List UInt8} {state : Option Sequence} {read : List UInt8}
    (hread : Begun state read) {s : List Char} (h : scan state bytes = s.map some) :
    read ++ bytes = encodeUtf8 s := by
  induction bytes generalizing state read s with
  | nil =>
    cases state with
    | none =>
      obtain rfl : read = [] := hread
      obtain rfl : s = [] := List.map_eq_nil_iff.mp h.symm
      rfl
    | some seq =>
      -- A sequence that is not completed leaves a gap.
      have hgap : none ∈ s.map some := by
        rw [← h, scan]
        exact List.mem_singleton_self _
      simp at hgap
  | cons b bytes ih =>
    rw [scan] at h
    obtain ⟨s₁, s₂, rfl, h₁, h₂⟩ := List.map_eq_append_iff.mp h.symm
    have hgap : none ∉ (scanByte state b).1 := by
      rw [← h₁]
      simp
    obtain ⟨s₁', read', hs₁', hread', hbytes⟩ := scanByte_begins hread hgap
    obtain rfl : s₁ = s₁' := by
      rw [hs₁'] at h₁
      exact (List.map_inj_right fun _ _ => Option.some.inj).mp h₁
    rw [← List.singleton_append, ← List.append_assoc, hbytes, List.append_assoc, ih hread' h₂.symm,
      encodeUtf8, encodeUtf8, encodeUtf8, List.flatMap_append]

/-! ## 5. Decoding -/

theorem mapM_id_eq_some_iff {α : Type} {l : List (Option α)} {s : List α} :
    l.mapM id = some s ↔ l = s.map some := by
  induction l generalizing s with
  | nil =>
    rw [List.mapM_nil, eq_comm (a := []), List.map_eq_nil_iff]
    exact Option.some_inj.trans eq_comm
  | cons a l ih =>
    rw [List.mapM_cons, eq_comm (a := a :: l), List.map_eq_cons_iff]
    simp only [id, Option.bind_eq_bind, Option.bind_eq_some_iff, ih, Option.pure_def,
      Option.some.injEq]
    constructor
    · rintro ⟨c, rfl, s, rfl, rfl⟩
      exact ⟨c, s, rfl, rfl, rfl⟩
    · rintro ⟨c, s, rfl, rfl, rfl⟩
      exact ⟨c, rfl, s, rfl, rfl⟩

theorem decodeUtf8?_eq_some_iff {bytes : List UInt8} {s : List Char} :
    decodeUtf8? bytes = some s ↔ bytes = encodeUtf8 s := by
  rw [decodeUtf8?, mapM_id_eq_some_iff]
  constructor
  · intro h
    have hnone : Begun none [] := rfl
    exact eq_encodeUtf8_of_scan hnone h
  · rintro rfl
    exact scan_encodeUtf8 s

end SleepPolicy.Text
