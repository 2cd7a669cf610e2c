import SleepPolicy.Proofs.Text.Octal

/-!
# Escapes one by one

A backslash is no octal digit, so an escape never reaches into the next one, and the text in front of a
backslash can be undone without what follows.  Each escape is then undone by itself: the byte that it
stands for is not looked at again, neither with the characters in front of it nor with those behind it.  A
text without an escape stays as it is.

## 1. Where an escape begins
-/

namespace SleepPolicy.Text

/-- A digit from 0 to 7. -/
def IsOctalDigit (c : Char) : Prop :=
  '0' ≤ c ∧ c ≤ '7'

instance (c : Char) : Decidable (IsOctalDigit c) :=
  inferInstanceAs (Decidable (_ ∧ _))

/-- Somewhere a backslash is followed by three octal digits. -/
def HasEscape (s : List Char) : Prop :=
  ∃ before x y z after, s = before ++ '\\' :: x :: y :: z :: after ∧
    IsOctalDigit x ∧ IsOctalDigit y ∧ IsOctalDigit z

theorem HasEscape.cons {s : List Char} (h : HasEscape s) (c : Char) : HasEscape (c :: s) := by
  obtain ⟨before, x, y, z, after, rfl, hdigits⟩ := h
  exact ⟨c :: before, x, y, z, after, rfl, hdigits⟩

theorem isOctalDigit_iff {c : Char} : IsOctalDigit c ↔ 48 ≤ c.toNat ∧ c.toNat ≤ 55 :=
  Iff.rfl

theorem IsOctalDigit.eq_octalDigit {c : Char} (h : IsOctalDigit c) : c = octalDigit (c.toNat - 48) := by
  rw [isOctalDigit_iff] at h
  have hn : 48 + (c.toNat - 48) % 8 = c.toNat := by omega
  rw [octalDigit, hn, Char.ofNat_toNat]

theorem IsOctalDigit.encodeUtf8_cons {c : Char} (h : IsOctalDigit c) (s : List Char) :
    encodeUtf8 (c :: s) = .ofNat (48 + (c.toNat - 48) % 8) :: encodeUtf8 s := by
  conv_lhs => rw [h.eq_octalDigit]
  rw [encodeUtf8, List.flatMap_cons, utf8EncodeChar_octalDigit, encodeUtf8, List.singleton_append]

/-- A byte that is an octal digit is a character of its own. -/
theorem exists_octalDigit_of_encodeUtf8 {s : List Char} {b : UInt8} {bs : List UInt8}
    (h : encodeUtf8 s = b :: bs) (hb : isOctal b = true) :
    ∃ c t, s = c :: t ∧ IsOctalDigit c ∧ encodeUtf8 t = bs := by
  cases s with
  | nil => cases h
  | cons c t =>
    rw [encodeUtf8, List.flatMap_cons] at h
    have hdigit : 48 ≤ b.toNat ∧ b.toNat ≤ 55 := by
      simpa [isOctal, UInt8.le_iff_toNat_le] using hb
    rcases utf8EncodeChar_cases c with ⟨a, hc, -, rfl⟩ | ⟨a, seq, tail, hc, hfirst, -⟩
    · rw [hc, List.singleton_append] at h
      obtain ⟨rfl, hbs⟩ := List.cons.inj h
      refine ⟨_, t, rfl, ?_, hbs⟩
      rwa [isOctalDigit_iff, toNat_ofNat (.inl (by omega))]
    · rw [hc, List.cons_append] at h
      obtain ⟨rfl, -⟩ := List.cons.inj h
      have hlo := (bounds_of_ofFirst? hfirst).1
      omega

/-! ## 2. Cutting at a backslash -/

/-- The bytes begin with a backslash and three octal digits. -/
def beginsEscape : List UInt8 → Bool
  | a :: b :: c :: d :: _ => a == 0x5C && isOctal b && isOctal c && isOctal d
  | _ => false

theorem unescapeBytes_cons {b : UInt8} {bs : List UInt8} (h : beginsEscape (b :: bs) = false) :
    unescapeBytes (b :: bs) = b :: unescapeBytes bs := by
  rcases bs with _ | ⟨c, _ | ⟨d, _ | ⟨e, bs⟩⟩⟩
  · rfl
  · rfl
  · rfl
  · exact if_neg (Bool.eq_false_iff.mp h)

theorem unescapeBytes_escape {x y z : UInt8} (hx : isOctal x = true) (hy : isOctal y = true)
    (hz : isOctal z = true) (bs : List UInt8) :
    unescapeBytes (0x5C :: x :: y :: z :: bs) = octalByte x y z :: unescapeBytes bs := by
  simp [unescapeBytes, hx, hy, hz]

-- A backslash among the four bytes of an escape can only be the first of them.
theorem beginsEscape_append_backslash (b : UInt8) (bs rest : List UInt8) :
    beginsEscape (b :: (bs ++ 0x5C :: rest)) = beginsEscape (b :: bs) := by
  have hbackslash : isOctal 0x5C = false := by decide
  rcases bs with _ | ⟨c, _ | ⟨d, _ | ⟨e, bs⟩⟩⟩
  · rcases rest with _ | ⟨c, _ | ⟨d, rest⟩⟩ <;> simp [beginsEscape, hbackslash]
  · rcases rest with _ | ⟨c, rest⟩ <;> simp [beginsEscape, hbackslash]
  · simp [beginsEscape, hbackslash]
  · rfl

theorem beginsEscape_eq_true_iff {bs : List UInt8} :
    beginsEscape bs = true ↔ ∃ x y z rest, bs = 0x5C :: x :: y :: z :: rest ∧
      isOctal x = true ∧ isOctal y = true ∧ isOctal z = true := by
  constructor
  · intro h
    rcases bs with _ | ⟨b, _ | ⟨x, _ | ⟨y, _ | ⟨z, rest⟩⟩⟩⟩
    · cases h
    · cases h
    · cases h
    · cases h
    · obtain ⟨⟨⟨rfl, hx⟩, hy⟩, hz⟩ :
          ((b = 0x5C ∧ isOctal x = true) ∧ isOctal y = true) ∧ isOctal z = true := by
        simpa [beginsEscape] using h
      exact ⟨x, y, z, rest, rfl, hx, hy, hz⟩
  · rintro ⟨x, y, z, rest, rfl, hx, hy, hz⟩
    simp [beginsEscape, hx, hy, hz]

/-- What stands in front of a backslash is undone by itself. -/
theorem unescapeBytes_append_backslash (bs rest : List UInt8) :
    unescapeBytes (bs ++ 0x5C :: rest) = unescapeBytes bs ++ unescapeBytes (0x5C :: rest) := by
  -- An escape takes four bytes at once, so the induction is on the length.
  induction hn : bs.length using Nat.strongRecOn generalizing bs with
  | ind n ih =>
    cases bs with
    | nil => rfl
    | cons b bs =>
      cases hescape : beginsEscape (b :: bs) with
      | true =>
        obtain ⟨x, y, z, tail, hbs, hx, hy, hz⟩ := beginsEscape_eq_true_iff.mp hescape
        have hlt : tail.length < n := by
          rw [← hn, hbs]
          simp only [List.length_cons]
          omega
        simp only [hbs, List.cons_append, unescapeBytes_escape hx hy hz, ih _ hlt tail rfl]
      | false =>
        have hlt : bs.length < n := by
          rw [← hn]
          exact Nat.lt_succ_self _
        have happend := beginsEscape_append_backslash b bs rest
        rw [List.cons_append, unescapeBytes_cons (happend.trans hescape), ih _ hlt bs rfl,
          unescapeBytes_cons hescape, List.cons_append]

/-! ## 3. Escapes in texts -/

-- Modulo 256 only the last two bits of the first digit count, so it may be anything.
theorem octalByte_eq (x : Char) {y z : Char} (hy : IsOctalDigit y) (hz : IsOctalDigit z) :
    octalByte (.ofNat (48 + (x.toNat - 48) % 8)) (.ofNat (48 + (y.toNat - 48) % 8))
      (.ofNat (48 + (z.toNat - 48) % 8)) = .ofNat (Nat.ofDigitChars 8 [x, y, z] 0) := by
  rw [isOctalDigit_iff] at hy hz
  have hzero : '0'.toNat = 48 := rfl
  rw [← UInt8.toNat_inj, octalByte]
  simp only [Nat.ofDigitChars_cons, Nat.ofDigitChars_nil, UInt8.toNat_add, UInt8.toNat_mul,
    UInt8.toNat_sub, UInt8.toNat_ofNat', UInt8.reduceToNat, hzero]
  omega

theorem encodeUtf8_backslash (s : List Char) : encodeUtf8 ('\\' :: s) = 0x5C :: encodeUtf8 s := by
  have hbytes : String.utf8EncodeChar '\\' = [0x5C] := by
    decide
  rw [encodeUtf8, List.flatMap_cons, hbytes, List.singleton_append, encodeUtf8]

/-- An escape is undone by itself, wherever it stands. -/
theorem unescapeBytes_escape_within {x y z : Char} (hx : IsOctalDigit x) (hy : IsOctalDigit y)
    (hz : IsOctalDigit z) (s t : List Char) :
    unescapeBytes (encodeUtf8 (s ++ '\\' :: x :: y :: z :: t)) =
      unescapeBytes (encodeUtf8 s) ++
        .ofNat (Nat.ofDigitChars 8 [x, y, z] 0) :: unescapeBytes (encodeUtf8 t) := by
  have hbytes : encodeUtf8 (s ++ '\\' :: x :: y :: z :: t) =
      encodeUtf8 s ++ encodeUtf8 ('\\' :: x :: y :: z :: t) :=
    List.flatMap_append
  rw [hbytes, encodeUtf8_backslash, unescapeBytes_append_backslash, hx.encodeUtf8_cons,
    hy.encodeUtf8_cons, hz.encodeUtf8_cons,
    unescapeBytes_escape (isOctal_ofNat _) (isOctal_ofNat _) (isOctal_ofNat _), octalByte_eq x hy hz]

theorem beginsEscape_encodeUtf8 {s : List Char} (h : ¬HasEscape ('\\' :: s)) :
    beginsEscape (0x5C :: encodeUtf8 s) = false := by
  rw [Bool.eq_false_iff]
  intro hescape
  obtain ⟨a, b, c, rest, hbytes, ha, hb, hc⟩ := beginsEscape_eq_true_iff.mp hescape
  obtain ⟨x, s, rfl, hx, hs⟩ := exists_octalDigit_of_encodeUtf8 (List.cons.inj hbytes).2 ha
  obtain ⟨y, s, rfl, hy, hs⟩ := exists_octalDigit_of_encodeUtf8 hs hb
  obtain ⟨z, s, rfl, hz, -⟩ := exists_octalDigit_of_encodeUtf8 hs hc
  exact h ⟨[], x, y, z, s, rfl, hx, hy, hz⟩

theorem unescapeBytes_of_no_escape {s : List Char} (h : ¬HasEscape s) :
    unescapeBytes (encodeUtf8 s) = encodeUtf8 s := by
  induction s with
  | nil => rfl
  | cons c s ih =>
    have hs := ih (mt (fun hescape => hescape.cons c) h)
    by_cases hc : c = '\\'
    · subst hc
      rw [encodeUtf8_backslash, unescapeBytes_cons (beginsEscape_encodeUtf8 h), hs]
    · have hbytes := fun b => ne_backslash_of_mem_utf8EncodeChar hc (b := b)
      rw [encodeUtf8, List.flatMap_cons, unescapeBytes_append hbytes, ← encodeUtf8, hs]

theorem unescape_of_no_escape {s : List Char} (h : ¬HasEscape s) : unescape s = s := by
  rw [unescape, unescapeBytes_of_no_escape h, decodeUtf8Lossy_encodeUtf8]

theorem not_hasEscape_of_not_mem {s : List Char} (h : '\\' ∉ s) : ¬HasEscape s := by
  rintro ⟨before, x, y, z, after, rfl, -⟩
  simp at h

/-- What undoing escapes does to texts.  A text comes back from every way to write it that escapes its
backslashes.  An escape becomes one byte, and what stands in front of it and behind it becomes what it
would become alone.  A text without an escape stays as it is. -/
theorem unescape_by_escapes :
    (∀ s w, Escaped (· ≠ '\\') s w → unescape w = s) ∧
    (∀ s t x y z, IsOctalDigit x → IsOctalDigit y → IsOctalDigit z →
      unescapeBytes (encodeUtf8 (s ++ '\\' :: x :: y :: z :: t)) =
        unescapeBytes (encodeUtf8 s) ++
          .ofNat (Nat.ofDigitChars 8 [x, y, z] 0) :: unescapeBytes (encodeUtf8 t)) ∧
    (∀ s, ¬HasEscape s → unescape s = s) := by
  refine ⟨fun s w h => ?_, fun s t x y z hx hy hz => ?_, fun s h => ?_⟩
  · exact h.unescape_eq fun _ hc => hc
  · exact unescapeBytes_escape_within hx hy hz s t
  · exact unescape_of_no_escape h

-- The backslash that comes of an escape has octal digits behind it, the digit that comes of one has a
-- backslash in front of it, and the last escape is cut short.
theorem unescape_by_escapes_lookalikes :
    let s := ['\\', '0', '4', '0', 'é', '\\']
    let w := escapeChar '\\' ++ '0' :: '4' :: '0' :: (escapeChar 'é' ++ escapeChar '\\')
    String.ofList w = "\\134040\\303\\251\\134" ∧ Escaped (· ≠ '\\') s w ∧ unescape w = s ∧
      unescapeBytes (encodeUtf8 ['\\', '\\', '0', '6', '0', '4', '0']) = [0x5C, 0x30, 0x34, 0x30] ∧
      ¬HasEscape ['\\', '0', '4'] ∧ unescape ['\\', '0', '4'] = ['\\', '0', '4'] := by
  intro s w
  have hw : Escaped (· ≠ '\\') s w :=
    .escape (.keep (by decide) (.keep (by decide) (.keep (by decide) (.escape (.escape .nil)))))
  have hcut : ¬HasEscape ['\\', '0', '4'] := by
    rintro ⟨before, x, y, z, after, h, -⟩
    have hlength := congrArg List.length h
    simp only [List.length_append, List.length_cons, List.length_nil] at hlength
    omega
  obtain ⟨hescaped, hwithin, hnone⟩ := unescape_by_escapes
  refine ⟨by decide +kernel, hw, hescaped s w hw, ?_, hcut, hnone _ hcut⟩
  exact (hwithin ['\\'] ['4', '0'] '0' '6' '0' (by decide) (by decide) (by decide)).trans (by decide)

end SleepPolicy.Text
