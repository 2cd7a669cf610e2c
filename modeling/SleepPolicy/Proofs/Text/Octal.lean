import SleepPolicy.Proofs.Text.Utf8
import SleepPolicy.Proofs.Text.Words
import SleepPolicy.Text.Octal

/-!
# Escaped texts

Undoing the escapes of a written text gives the text back, however many characters were escaped beyond
those that had to be.  An escape holds one byte, and the bytes come together again before they are
decoded, so a character may be spread over several escapes.

## 1. Escapes
-/

namespace SleepPolicy.Text

/-- A text and a way to write it: some characters may stay as they are, and every character may become
escapes, one for each of its bytes. -/
inductive Escaped (plain : Char → Prop) : List Char → List Char → Prop
  | nil : Escaped plain [] []
  | keep {c : Char} {s w : List Char} (hc : plain c) (h : Escaped plain s w) :
      Escaped plain (c :: s) (c :: w)
  | escape {c : Char} {s w : List Char} (h : Escaped plain s w) :
      Escaped plain (c :: s) (escapeChar c ++ w)

theorem isDigit_octalDigit (n : Nat) : (octalDigit n).isDigit = true := by
  have hall : ∀ d < 8, (Char.ofNat (48 + d)).isDigit = true := by
    decide
  exact hall (n % 8) (Nat.mod_lt n (by decide))

theorem utf8EncodeChar_octalDigit (n : Nat) :
    String.utf8EncodeChar (octalDigit n) = [UInt8.ofNat (48 + n % 8)] := by
  have hall : ∀ d < 8, String.utf8EncodeChar (Char.ofNat (48 + d)) = [UInt8.ofNat (48 + d)] := by
    decide
  exact hall (n % 8) (Nat.mod_lt n (by decide))

theorem isOctal_ofNat (n : Nat) : isOctal (UInt8.ofNat (48 + n % 8)) = true := by
  simp only [isOctal, Bool.and_eq_true, decide_eq_true_eq, UInt8.le_iff_toNat_le, UInt8.toNat_ofNat',
    UInt8.reduceToNat]
  omega

theorem octalByte_digits (b : UInt8) :
    octalByte (.ofNat (48 + b.toNat / 64 % 8)) (.ofNat (48 + b.toNat / 8 % 8))
      (.ofNat (48 + b.toNat % 8)) = b := by
  have hb := b.toNat_lt
  rw [← UInt8.toNat_inj, octalByte]
  simp only [UInt8.toNat_add, UInt8.toNat_mul, UInt8.toNat_sub, UInt8.toNat_ofNat', UInt8.reduceToNat]
  omega

theorem encodeUtf8_escapeByte (b : UInt8) :
    encodeUtf8 (escapeByte b) =
      [0x5C, .ofNat (48 + b.toNat / 64 % 8), .ofNat (48 + b.toNat / 8 % 8),
        .ofNat (48 + b.toNat % 8)] := by
  have hbackslash : String.utf8EncodeChar '\\' = [0x5C] := by
    decide
  simp only [encodeUtf8, escapeByte, List.flatMap_cons, List.flatMap_nil, utf8EncodeChar_octalDigit,
    hbackslash, List.cons_append, List.nil_append]

theorem isBlank_of_mem_escapeChar {c d : Char} (h : d ∈ escapeChar c) : isBlank d = false := by
  obtain ⟨b, -, hd⟩ := List.mem_flatMap.mp h
  simp only [escapeByte, List.mem_cons, List.not_mem_nil, or_false] at hd
  rcases hd with rfl | rfl | rfl | rfl
  · decide
  · exact isBlank_eq_false_of_isDigit (isDigit_octalDigit _)
  · exact isBlank_eq_false_of_isDigit (isDigit_octalDigit _)
  · exact isBlank_eq_false_of_isDigit (isDigit_octalDigit _)

theorem escapeChar_ne_nil (c : Char) : escapeChar c ≠ [] := by
  intro h
  obtain ⟨b, hb⟩ := List.exists_mem_of_ne_nil _ (String.utf8EncodeChar_ne_nil (c := c))
  exact absurd (List.flatMap_eq_nil_iff.mp h b hb) (by simp [escapeByte])

theorem Escaped.isWord {plain : Char → Prop} (hplain : ∀ c, plain c → isBlank c = false)
    {s w : List Char} (h : Escaped plain s w) (hs : s ≠ []) : IsWord w := by
  constructor
  · cases h with
    | nil => exact absurd rfl hs
    | keep hc h => exact List.cons_ne_nil _ _
    | escape h => exact List.append_ne_nil_of_left_ne_nil (escapeChar_ne_nil _) _
  · clear hs
    induction h with
    | nil => simp
    | keep hc h ih => exact List.forall_mem_cons.mpr ⟨hplain _ hc, ih⟩
    | escape h ih =>
      intro d hd
      rcases List.mem_append.mp hd with hd | hd
      · exact isBlank_of_mem_escapeChar hd
      · exact ih d hd

/-! ## 2. Undoing them -/

theorem unescapeBytes_cons_of_ne {a : UInt8} (ha : a ≠ 0x5C) (rest : List UInt8) :
    unescapeBytes (a :: rest) = a :: unescapeBytes rest := by
  rcases rest with _ | ⟨b, _ | ⟨c, _ | ⟨d, rest⟩⟩⟩
  · rfl
  · rfl
  · rfl
  · rw [unescapeBytes, if_neg (by simp [ha])]

theorem unescapeBytes_append {bs : List UInt8} (h : ∀ b ∈ bs, b ≠ 0x5C) (rest : List UInt8) :
    unescapeBytes (bs ++ rest) = bs ++ unescapeBytes rest := by
  induction bs with
  | nil => rfl
  | cons b bs ih =>
    rw [List.cons_append, unescapeBytes_cons_of_ne (h b (by simp)),
      ih fun c hc => h c (List.mem_cons_of_mem b hc), List.cons_append]

theorem unescapeBytes_escapeByte (b : UInt8) (rest : List UInt8) :
    unescapeBytes (encodeUtf8 (escapeByte b) ++ rest) = b :: unescapeBytes rest := by
  rw [encodeUtf8_escapeByte]
  simp only [List.cons_append, List.nil_append, unescapeBytes, isOctal_ofNat, octalByte_digits,
    beq_self_eq_true, Bool.and_self, if_true]

theorem unescapeBytes_escapeBytes (bs rest : List UInt8) :
    unescapeBytes (encodeUtf8 (bs.flatMap escapeByte) ++ rest) = bs ++ unescapeBytes rest := by
  induction bs with
  | nil => rfl
  | cons b bs ih =>
    have hsplit : encodeUtf8 ((b :: bs).flatMap escapeByte) =
        encodeUtf8 (escapeByte b) ++ encodeUtf8 (bs.flatMap escapeByte) := by
      simp only [encodeUtf8, List.flatMap_cons, List.flatMap_append]
    rw [hsplit, List.append_assoc, unescapeBytes_escapeByte, ih, List.cons_append]

-- The byte of the backslash begins no other character and is inside none.
theorem ne_backslash_of_mem_utf8EncodeChar {c : Char} (hc : c ≠ '\\') {b : UInt8}
    (h : b ∈ String.utf8EncodeChar c) : b ≠ 0x5C := by
  rintro rfl
  rcases utf8EncodeChar_lengths c with
    ⟨b, hbytes⟩ | ⟨b, b₁, hbytes⟩ | ⟨b, b₁, b₂, hbytes⟩ | ⟨b, b₁, b₂, b₃, hbytes⟩
  · rw [hbytes, List.mem_singleton] at h
    subst h
    exact hc (Char.toNat_inj.mp (utf8EncodeChar_eq_one_iff.mp hbytes).2)
  · obtain ⟨hb, hb₁, -⟩ := utf8EncodeChar_eq_two_iff.mp hbytes
    simp only [hbytes, List.mem_cons, List.not_mem_nil, or_false, ← UInt8.toNat_inj,
      UInt8.reduceToNat] at h
    omega
  · obtain ⟨hb, hb₁, hb₂, -⟩ := utf8EncodeChar_eq_three_iff.mp hbytes
    simp only [hbytes, List.mem_cons, List.not_mem_nil, or_false, ← UInt8.toNat_inj,
      UInt8.reduceToNat] at h
    omega
  · obtain ⟨hb, hb₁, hb₂, hb₃, -⟩ := utf8EncodeChar_eq_four_iff.mp hbytes
    simp only [hbytes, List.mem_cons, List.not_mem_nil, or_false, ← UInt8.toNat_inj,
      UInt8.reduceToNat] at h
    omega

theorem Escaped.unescapeBytes_eq {plain : Char → Prop} (hplain : ∀ c, plain c → c ≠ '\\')
    {s w : List Char} (h : Escaped plain s w) : unescapeBytes (encodeUtf8 w) = encodeUtf8 s := by
  induction h with
  | nil => rfl
  | keep hc h ih =>
    have hbytes := fun b => ne_backslash_of_mem_utf8EncodeChar (hplain _ hc) (b := b)
    rw [encodeUtf8, List.flatMap_cons, unescapeBytes_append hbytes, ← encodeUtf8, ih, encodeUtf8,
      encodeUtf8, List.flatMap_cons]
  | escape h ih =>
    rw [encodeUtf8, List.flatMap_append, escapeChar, ← encodeUtf8, ← encodeUtf8,
      unescapeBytes_escapeBytes, ih, encodeUtf8, encodeUtf8, List.flatMap_cons]

theorem decodeUtf8Lossy_encodeUtf8 (s : List Char) : decodeUtf8Lossy (encodeUtf8 s) = s := by
  rw [decodeUtf8Lossy, scan_encodeUtf8, List.map_map]
  exact List.map_id' s

theorem Escaped.unescape_eq {plain : Char → Prop} (hplain : ∀ c, plain c → c ≠ '\\')
    {s w : List Char} (h : Escaped plain s w) : unescape w = s := by
  rw [unescape, h.unescapeBytes_eq hplain, decodeUtf8Lossy_encodeUtf8]

end SleepPolicy.Text
