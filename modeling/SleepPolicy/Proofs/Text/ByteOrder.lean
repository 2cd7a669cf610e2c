import SleepPolicy.Text.Utf8

/-!
# Byte order

In UTF-8 the bytes of two texts stand in the same order as their characters.  The first characters
that differ have bytes that differ, and the first of those bytes goes the way the characters go.

## 1. Bytes of a character
-/

namespace SleepPolicy.Text

/-- The two differ, neither ends before that, and at the first difference the left byte is smaller. -/
def DiffersBelow : List UInt8 → List UInt8 → Prop
  | x :: xs, y :: ys => x < y ∨ x = y ∧ DiffersBelow xs ys
  | _, _ => False

-- Whatever follows, the order is settled.
theorem DiffersBelow.append_lt {xs ys : List UInt8} (h : DiffersBelow xs ys) (s t : List UInt8) :
    xs ++ s < ys ++ t := by
  induction xs generalizing ys with
  | nil => exact h.elim
  | cons x xs ih =>
    cases ys with
    | nil => exact h.elim
    | cons y ys =>
      rw [List.cons_append, List.cons_append, List.cons_lt_cons_iff]
      rcases h with h | ⟨rfl, h⟩
      · exact .inl h
      · exact .inr ⟨rfl, ih h⟩

theorem differsBelow_ofNat_cons {m n : Nat} {xs ys : List UInt8} (hm : m < 256) (hn : n < 256) :
    DiffersBelow (.ofNat m :: xs) (.ofNat n :: ys) ↔ m < n ∨ m = n ∧ DiffersBelow xs ys := by
  rw [DiffersBelow, UInt8.lt_iff_toNat_lt, ← UInt8.toNat_inj, UInt8.toNat_ofNat', UInt8.toNat_ofNat',
    Nat.mod_eq_of_lt hm, Nat.mod_eq_of_lt hn]

theorem differsBelow_utf8EncodeChar {c d : Char} (h : c < d) :
    DiffersBelow (String.utf8EncodeChar c) (String.utf8EncodeChar d) := by
  have hlt : c.val.toNat < d.val.toNat := h
  have hd : d.val.toNat < 1114112 := by
    have := d.valid
    simp only [UInt32.isValidChar, Nat.isValidChar] at this
    omega
  have htwo : ∀ k : Nat, k / 4096 = k / 64 / 64 := by omega
  have hthree : ∀ k : Nat, k / 262144 = k / 64 / 64 / 64 := by omega
  unfold String.utf8EncodeChar
  generalize c.val.toNat = m at hlt
  generalize d.val.toNat = n at hlt hd
  -- One case for each pair of lengths.  The first bytes of different lengths lie in different ranges,
  -- and bytes of the same length are the digits of the two numbers to the base 64.
  simp only [htwo, hthree]
  repeat' split
  all_goals simp (disch := omega) only [differsBelow_ofNat_cons]
  all_goals omega

/-! ## 2. Texts -/

theorem encodeUtf8_lt {s t : List Char} (h : s < t) : encodeUtf8 s < encodeUtf8 t := by
  induction s generalizing t with
  | nil =>
    obtain ⟨d, t, rfl⟩ := List.exists_cons_of_ne_nil (l := t) (by rintro rfl; exact absurd h (by simp))
    rw [encodeUtf8, encodeUtf8, List.flatMap_nil, List.flatMap_cons]
    obtain ⟨b, bs, hd⟩ := List.exists_cons_of_ne_nil (String.utf8EncodeChar_ne_nil (c := d))
    rw [hd, List.cons_append]
    exact List.nil_lt_cons b _
  | cons c s ih =>
    cases t with
    | nil => exact absurd h (List.not_lt_nil _)
    | cons d t =>
      rw [encodeUtf8, encodeUtf8, List.flatMap_cons, List.flatMap_cons]
      rcases List.cons_lt_cons_iff.mp h with hcd | ⟨rfl, hst⟩
      · exact (differsBelow_utf8EncodeChar hcd).append_lt _ _
      · exact List.append_left_lt (ih hst)

theorem encodeUtf8_lt_iff {s t : List Char} : encodeUtf8 s < encodeUtf8 t ↔ s < t := by
  refine ⟨fun h => ?_, encodeUtf8_lt⟩
  rcases List.le_total s t with hst | hts
  · rcases List.le_iff_lt_or_eq.mp hst with hst | rfl
    · exact hst
    · exact absurd h (List.lt_irrefl _)
  · rcases List.le_iff_lt_or_eq.mp hts with hts | rfl
    · exact absurd h (List.lt_asymm (encodeUtf8_lt hts))
    · exact absurd h (List.lt_irrefl _)

end SleepPolicy.Text
