import Mathlib.Data.List.DropRight
import Mathlib.Data.List.TakeWhile
import SleepPolicy.Text.Blank

/-!
# Words

A word is a text that is not empty and has no blanks.  Cutting a text finds nothing but words, and it
finds again any words that were joined by spaces.  Trimming leaves a text alone that has no blank at
either end, which is so of joined words.
-/

namespace SleepPolicy.Text

/-- Not empty, and without blanks. -/
def IsWord (s : List Char) : Prop :=
  s ≠ [] ∧ ∀ c ∈ s, isBlank c = false

-- A search through the text alone; asking every character there is would take too long.
instance (s : List Char) : Decidable (IsWord s) :=
  decidable_of_iff (s.isEmpty = false ∧ s.all (fun c => !isBlank c) = true) (by simp [IsWord])

/-- Without a blank at either end. -/
def IsTrimmed (s : List Char) : Prop :=
  (∀ c ∈ s.head?, isBlank c = false) ∧ (∀ c ∈ s.getLast?, isBlank c = false)

/-- Words with one space between them. -/
def joined (ws : List (List Char)) : List Char :=
  [' '].intercalate ws

theorem isBlank_eq_false_of_isDigit {c : Char} (h : c.isDigit) : isBlank c = false := by
  have hlo : 48 ≤ c.toNat := (Char.isDigit_iff_toNat.mp h).1
  have hhi : c.toNat ≤ 57 := (Char.isDigit_iff_toNat.mp h).2
  simp only [isBlank, blankRanges, List.any_cons, List.any_nil, Bool.or_eq_false_iff,
    Bool.and_eq_false_iff, decide_eq_false_iff_not, and_true]
  omega

/-! ## 1. Trimming -/

theorem trimStart_eq_self {s : List Char} (h : ∀ c ∈ s.head?, isBlank c = false) :
    trimStart s = s := by
  cases s with
  | nil => rfl
  | cons c s => exact List.dropWhile_cons_of_neg (by simpa using h c rfl)

theorem trim_eq_self {s : List Char} (h : IsTrimmed s) : trim s = s := by
  have hend : trimStart s.reverse = s.reverse := by
    apply trimStart_eq_self
    rw [List.head?_reverse]
    exact h.2
  unfold trim trimEnd
  rw [trimStart_eq_self h.1]
  rw [trimStart] at hend
  rw [hend, List.reverse_reverse]

theorem trimEnd_concat_blank {c : Char} (h : isBlank c = true) (s : List Char) :
    trimEnd (s ++ [c]) = trimEnd s := by
  rw [trimEnd, List.reverse_concat, List.dropWhile_cons_of_pos h, trimEnd]

theorem trim_concat_blank {c : Char} (h : isBlank c = true) (s : List Char) :
    trim (s ++ [c]) = trim s := by
  have hc : [c].dropWhile isBlank = [] := List.dropWhile_cons_of_pos h
  rw [trim, trimStart, List.dropWhile_append, hc]
  -- Either all of it is blank, or the start is cut off as before.
  split
  · rename_i hnil
    rw [trim, trimStart, List.isEmpty_iff.mp hnil]
  · rw [trimEnd_concat_blank h, trim, trimStart]

theorem trim_append_of_blank {gap : List Char} (hgap : ∀ c ∈ gap, isBlank c = true) (s : List Char) :
    trim (s ++ gap) = trim s := by
  induction gap using List.reverseRecOn with
  | nil => rw [List.append_nil]
  | append_singleton gap c ih =>
    rw [← List.append_assoc, trim_concat_blank (hgap c (by simp)),
      ih fun d hd => hgap d (List.mem_append_left [c] hd)]

theorem trim_of_blank_append {gap : List Char} (hgap : ∀ c ∈ gap, isBlank c = true) (s : List Char) :
    trim (gap ++ s) = trim s := by
  rw [trim, trimStart, List.dropWhile_append_of_pos hgap, trim, trimStart]

theorem trim_trimStart (s : List Char) : trim (trimStart s) = trim s := by
  have hgap : ∀ c ∈ s.takeWhile isBlank, isBlank c = true := fun _ => List.mem_takeWhile_imp
  have h := trim_of_blank_append hgap (trimStart s)
  rwa [trimStart, List.takeWhile_append_dropWhile, eq_comm] at h

theorem trim_trimEnd (s : List Char) : trim (trimEnd s) = trim s := by
  have hgap : ∀ c ∈ s.rtakeWhile isBlank, isBlank c = true := fun _ => List.mem_rtakeWhile_imp
  have hs : trimEnd s ++ s.rtakeWhile isBlank = s := List.rdropWhile_append_rtakeWhile
  have h := trim_append_of_blank hgap (trimEnd s)
  rwa [hs, eq_comm] at h

/-- A character that is not blank keeps what stands on its two sides apart. -/
theorem trim_append_cons {c : Char} (hc : isBlank c = false) (s t : List Char) :
    trim (s ++ c :: t) = trimStart s ++ c :: trimEnd t := by
  have hstart : ∀ s t : List Char, (s ++ c :: t).dropWhile isBlank = s.dropWhile isBlank ++ c :: t := by
    intro s t
    rw [List.dropWhile_append, List.dropWhile_cons_of_neg (by simp [hc])]
    split
    · rename_i hnil
      rw [List.isEmpty_iff.mp hnil, List.nil_append]
    · rfl
  rw [trim, trimStart, hstart, trimEnd, List.reverse_append, List.reverse_cons, List.append_assoc,
    List.singleton_append, hstart, List.reverse_append, List.reverse_cons, List.reverse_reverse,
    List.append_assoc, List.singleton_append, trimStart, trimEnd]

/-- Trimming takes off blanks and nothing else. -/
theorem exists_blank_append_trim (s : List Char) :
    ∃ before after, (∀ c ∈ before, isBlank c = true) ∧ (∀ c ∈ after, isBlank c = true) ∧
      s = before ++ (trim s ++ after) := by
  refine ⟨s.takeWhile isBlank, (trimStart s).rtakeWhile isBlank, fun _ => List.mem_takeWhile_imp,
    fun _ => List.mem_rtakeWhile_imp, ?_⟩
  have hend : trim s ++ (trimStart s).rtakeWhile isBlank = trimStart s :=
    List.rdropWhile_append_rtakeWhile
  rw [hend, trimStart, List.takeWhile_append_dropWhile]

theorem trim_eq_nil_iff {s : List Char} : trim s = [] ↔ ∀ c ∈ s, isBlank c = true := by
  constructor
  · intro h
    obtain ⟨before, after, hbefore, hafter, hs⟩ := exists_blank_append_trim s
    rw [h, List.nil_append] at hs
    rw [hs]
    exact List.forall_mem_append.mpr ⟨hbefore, hafter⟩
  · intro h
    have hstart : trimStart s = [] := List.dropWhile_eq_nil_iff.mpr h
    rw [trim, hstart]
    rfl

theorem eq_false_of_mem_head?_dropWhile {p : Char → Bool} {s : List Char} :
    ∀ c ∈ (s.dropWhile p).head?, p c = false := by
  intro c hc
  have hstop := List.head?_dropWhile_not p s
  rwa [hc] at hstop

theorem isBlank_of_mem_head?_trim {s : List Char} : ∀ c ∈ (trim s).head?, isBlank c = false := by
  intro c hc
  obtain ⟨after, hafter⟩ : trim s <+: trimStart s := List.rdropWhile_prefix isBlank _
  apply eq_false_of_mem_head?_dropWhile (s := s)
  rw [← trimStart, ← hafter, List.head?_append, hc]
  rfl

theorem isTrimmed_nil : IsTrimmed [] := by
  constructor <;> simp

theorem IsTrimmed.append {s t : List Char} (hs : IsTrimmed s) (ht : IsTrimmed t) :
    IsTrimmed (s ++ t) := by
  constructor
  · intro c hc
    rw [List.head?_append] at hc
    rcases Option.or_eq_some_iff.mp hc with h | h
    · exact hs.1 c h
    · exact ht.1 c h.2
  · intro c hc
    rw [List.getLast?_append] at hc
    rcases Option.or_eq_some_iff.mp hc with h | h
    · exact ht.2 c h
    · exact hs.2 c h.2

/-- Between two texts that are not empty there may stand anything. -/
theorem IsTrimmed.append_append {s t : List Char} (hs : IsTrimmed s) (ht : IsTrimmed t)
    (hs' : s ≠ []) (ht' : t ≠ []) (m : List Char) : IsTrimmed (s ++ (m ++ t)) := by
  constructor
  · intro c hc
    rw [List.head?_append] at hc
    rcases Option.or_eq_some_iff.mp hc with h | h
    · exact hs.1 c h
    · exact absurd (List.head?_eq_none_iff.mp h.1) hs'
  · intro c hc
    -- The last character is that of `t`, whatever stands in the middle.
    rw [List.getLast?_append, List.getLast?_append] at hc
    rcases Option.or_eq_some_iff.mp hc with h | h
    · rcases Option.or_eq_some_iff.mp h with h | h
      · exact ht.2 c h
      · exact absurd (List.getLast?_eq_none_iff.mp h.1) ht'
    · exact absurd (Option.or_eq_none_iff.mp h.1).1 (by simpa using ht')

theorem IsWord.isTrimmed {w : List Char} (h : IsWord w) : IsTrimmed w :=
  ⟨fun c hc => h.2 c (List.mem_of_mem_head? hc), fun c hc => h.2 c (List.mem_of_getLast? hc)⟩

/-! ## 2. Joined words -/

theorem joined_cons_cons (w v : List Char) (ws : List (List Char)) :
    joined (w :: v :: ws) = w ++ ' ' :: joined (v :: ws) := by
  simp [joined, List.intercalate_cons_cons]

theorem joined_singleton (w : List Char) : joined [w] = w := by
  simp [joined]

/-- Beyond the words themselves there are only the spaces. -/
theorem eq_space_of_mem_joined {ws : List (List Char)} {c : Char} (h : c ∈ joined ws) :
    c = ' ' ∨ ∃ w ∈ ws, c ∈ w := by
  induction ws with
  | nil => simp [joined] at h
  | cons w ws ih =>
    cases ws with
    | nil => exact .inr ⟨w, by simp, by rwa [joined_singleton] at h⟩
    | cons v ws =>
      rw [joined_cons_cons, List.mem_append, List.mem_cons] at h
      rcases h with h | h | h
      · exact .inr ⟨w, by simp, h⟩
      · exact .inl h
      · rcases ih h with hspace | ⟨u, hu, hc⟩
        · exact .inl hspace
        · exact .inr ⟨u, List.mem_cons_of_mem w hu, hc⟩

theorem joined_ne_nil {w : List Char} {ws : List (List Char)} (h : w ≠ []) :
    joined (w :: ws) ≠ [] := by
  cases ws with
  | nil => rwa [joined_singleton]
  | cons v ws => simp [joined_cons_cons]

theorem isTrimmed_joined {ws : List (List Char)} (h : ∀ w ∈ ws, IsWord w) :
    IsTrimmed (joined ws) := by
  induction ws with
  | nil => exact isTrimmed_nil
  | cons w ws ih =>
    have hw : IsWord w := h w (by simp)
    have hws : ∀ v ∈ ws, IsWord v := fun v hv => h v (List.mem_cons_of_mem w hv)
    -- The ends of the joined text are ends of words; the space stands between two of them.
    cases ws with
    | nil => simpa [joined_singleton] using hw.isTrimmed
    | cons v ws =>
      have hne : joined (v :: ws) ≠ [] := joined_ne_nil (hws v (by simp)).1
      rw [joined_cons_cons]
      exact hw.isTrimmed.append_append (ih hws) hw.1 hne [' ']

/-! ## 3. Cutting a text into words -/

theorem eq_false_of_mem_splitOnP {p : Char → Bool} {s piece : List Char}
    (h : piece ∈ s.splitOnP p) : ∀ c ∈ piece, p c = false := by
  induction s generalizing piece with
  | nil =>
    obtain rfl : piece = [] := by simpa using h
    simp
  | cons c s ih =>
    rw [List.splitOnP_cons_eq_if_modifyHead] at h
    -- Either `c` ends a piece or the first piece of the rest grows by `c`.
    split at h
    · rcases List.mem_cons.mp h with rfl | h
      · simp
      · exact ih h
    · rename_i hc
      obtain ⟨first, rest, hsplit⟩ := List.exists_cons_of_ne_nil (List.splitOnP_ne_nil p s)
      rw [hsplit, List.modifyHead_cons] at h
      rcases List.mem_cons.mp h with rfl | h
      · intro d hd
        rcases List.mem_cons.mp hd with rfl | hd
        · simpa using hc
        · exact ih (by simp [hsplit]) d hd
      · exact ih (by simp [hsplit, h])

theorem isWord_of_mem_words {s w : List Char} (h : w ∈ words s) : IsWord w := by
  obtain ⟨hsplit, hne⟩ := List.mem_filter.mp h
  exact ⟨by simpa using hne, eq_false_of_mem_splitOnP hsplit⟩

theorem words_eq_singleton {w : List Char} (h : IsWord w) : words w = [w] := by
  unfold words
  rw [List.splitOnP_eq_singleton h.2]
  simpa using h.1

theorem words_append_cons_blank {c : Char} (hc : isBlank c = true) (s t : List Char) :
    words (s ++ c :: t) = words s ++ words t := by
  rw [words, List.splitOnP_append_cons s t hc, List.filter_append, words, words]

theorem words_append_blank {w s : List Char} {c : Char} (h : IsWord w) (hc : isBlank c) :
    words (w ++ c :: s) = w :: words s := by
  rw [words_append_cons_blank hc, words_eq_singleton h, List.singleton_append]

theorem words_cons_blank {c : Char} (hc : isBlank c = true) (s : List Char) :
    words (c :: s) = words s :=
  words_append_cons_blank hc [] s

theorem words_concat_blank {c : Char} (hc : isBlank c = true) (s : List Char) :
    words (s ++ [c]) = words s :=
  (words_append_cons_blank hc s []).trans (List.append_nil _)

theorem words_append_of_blank {gap : List Char} (hgap : ∀ c ∈ gap, isBlank c = true) (s : List Char) :
    words (gap ++ s) = words s := by
  induction gap with
  | nil => rfl
  | cons c gap ih =>
    rw [List.cons_append, words_cons_blank (hgap c (by simp)),
      ih fun d hd => hgap d (List.mem_cons_of_mem c hd)]

theorem words_eq_nil_iff {s : List Char} : words s = [] ↔ ∀ c ∈ s, isBlank c = true := by
  constructor
  · intro h
    induction s with
    | nil => simp
    | cons c s ih =>
      by_cases hc : isBlank c = true
      · rw [words_cons_blank hc] at h
        exact List.forall_mem_cons.mpr ⟨hc, ih h⟩
      · -- The first piece would begin with `c` and be a word.
        obtain ⟨first, rest, hsplit⟩ := List.exists_cons_of_ne_nil (List.splitOnP_ne_nil isBlank s)
        rw [words, List.splitOnP_cons_eq_if_modifyHead, if_neg hc, hsplit, List.modifyHead_cons,
          List.filter_cons_of_pos (by simp)] at h
        cases h
  · intro h
    rw [← List.append_nil s, words_append_of_blank h]
    rfl

/-- Between two texts with a blank between them no word goes across. -/
theorem words_append_gap {gap : List Char} (hne : gap ≠ []) (hgap : ∀ c ∈ gap, isBlank c = true)
    (s t : List Char) : words (s ++ (gap ++ t)) = words s ++ words t := by
  obtain ⟨c, gap, rfl⟩ := List.exists_cons_of_ne_nil hne
  rw [List.cons_append, words_append_cons_blank (hgap c (by simp)),
    words_append_of_blank fun d hd => hgap d (List.mem_cons_of_mem c hd)]

theorem words_append_of_blank_right {gap : List Char} (hgap : ∀ c ∈ gap, isBlank c = true)
    (s : List Char) : words (s ++ gap) = words s := by
  cases gap with
  | nil => rw [List.append_nil]
  | cons c gap =>
    rw [words_append_cons_blank (hgap c (by simp)),
      words_eq_nil_iff.mpr fun d hd => hgap d (List.mem_cons_of_mem c hd), List.append_nil]

theorem words_trim (s : List Char) : words (trim s) = words s := by
  obtain ⟨before, after, hbefore, hafter, hs⟩ := exists_blank_append_trim s
  conv_rhs => rw [hs]
  rw [words_append_of_blank hbefore, words_append_of_blank_right hafter]

theorem words_joined {ws : List (List Char)} (h : ∀ w ∈ ws, IsWord w) : words (joined ws) = ws := by
  induction ws with
  | nil => rfl
  | cons w ws ih =>
    have hw : IsWord w := h w (by simp)
    have hws : ∀ v ∈ ws, IsWord v := fun v hv => h v (List.mem_cons_of_mem w hv)
    cases ws with
    | nil => rw [joined_singleton, words_eq_singleton hw]
    | cons v ws => rw [joined_cons_cons, words_append_blank hw (by decide), ih hws]

/-! ## 4. Where a word stands -/

/-- The word stands in the text with a blank or an end of the text on either side. -/
def StandsIn (w s : List Char) : Prop :=
  IsWord w ∧ ∃ before after, s = before ++ (w ++ after) ∧
    (∀ c ∈ before.getLast?, isBlank c = true) ∧ (∀ c ∈ after.head?, isBlank c = true)

theorem words_standing {w before after : List Char} (hw : IsWord w)
    (hbefore : ∀ c ∈ before.getLast?, isBlank c = true)
    (hafter : ∀ c ∈ after.head?, isBlank c = true) :
    words (before ++ (w ++ after)) = words before ++ w :: words after := by
  have hfirst : words (w ++ after) = w :: words after := by
    cases after with
    | nil => rw [List.append_nil, words_eq_singleton hw]; rfl
    | cons c after => rw [words_append_blank hw (hafter c rfl), words_cons_blank (hafter c rfl)]
  cases hlast : before.getLast? with
  | none =>
    obtain rfl := List.getLast?_eq_none_iff.mp hlast
    exact hfirst
  | some c =>
    obtain ⟨rest, rfl⟩ := List.getLast?_eq_some_iff.mp hlast
    have hc : isBlank c = true := hbefore c hlast
    rw [List.append_assoc, List.singleton_append, words_append_cons_blank hc, hfirst,
      words_concat_blank hc]

theorem StandsIn.mem_words {w s : List Char} (h : StandsIn w s) : w ∈ words s := by
  obtain ⟨hw, before, after, rfl, hbefore, hafter⟩ := h
  rw [words_standing hw hbefore hafter]
  exact List.mem_append_right (words before) List.mem_cons_self

/-- The first word stands behind blanks only. -/
theorem exists_blank_append_of_words_eq {w s : List Char} {ws : List (List Char)}
    (h : words s = w :: ws) :
    ∃ gap after, s = gap ++ (w ++ after) ∧ (∀ c ∈ gap, isBlank c = true) ∧
      (∀ c ∈ after.head?, isBlank c = true) ∧ words after = ws := by
  let rest := s.dropWhile isBlank
  let first := rest.takeWhile fun c => !isBlank c
  let after := rest.dropWhile fun c => !isBlank c
  have hgap : ∀ c ∈ s.takeWhile isBlank, isBlank c = true := fun c hc => List.mem_takeWhile_imp hc
  have hafter : ∀ c ∈ after.head?, isBlank c = true := by
    intro c hc
    simpa using eq_false_of_mem_head?_dropWhile c hc
  have hrest : first ++ after = rest := List.takeWhile_append_dropWhile
  have hs : s = s.takeWhile isBlank ++ (first ++ after) := by
    rw [hrest, List.takeWhile_append_dropWhile]
  have hwords : words s = words (first ++ after) := by
    conv_lhs => rw [hs]
    exact words_append_of_blank hgap _
  have hfirst : first ≠ [] := by
    intro hnil
    rw [hnil, List.nil_append] at hwords hrest
    cases hhead : after.head? with
    | none =>
      rw [List.head?_eq_none_iff.mp hhead, h] at hwords
      cases hwords
    | some c =>
      -- The rest would begin with a blank, and its blanks have been taken off.
      have hblank : isBlank c = false := eq_false_of_mem_head?_dropWhile c (hrest ▸ hhead)
      rw [hafter c hhead] at hblank
      cases hblank
  have hword : IsWord first := ⟨hfirst, fun c hc => by simpa using List.mem_takeWhile_imp hc⟩
  rw [hwords, ← List.nil_append (first ++ after), words_standing hword (by simp) hafter] at h
  obtain ⟨rfl, rfl⟩ := List.cons.inj h
  exact ⟨_, after, hs, hgap, hafter, rfl⟩

/-- Every word that is found stands in the text with the words before and behind it on its sides. -/
theorem exists_standing_of_words_eq {w s : List Char} {ws ws' : List (List Char)}
    (h : words s = ws ++ w :: ws') :
    ∃ before after, s = before ++ (w ++ after) ∧ (∀ c ∈ before.getLast?, isBlank c = true) ∧
      (∀ c ∈ after.head?, isBlank c = true) ∧ words before = ws ∧ words after = ws' := by
  induction ws generalizing s with
  | nil =>
    obtain ⟨gap, after, rfl, hgap, hafter, hwords⟩ := exists_blank_append_of_words_eq h
    exact ⟨gap, after, rfl, fun c hc => hgap c (List.mem_of_getLast? hc), hafter,
      words_eq_nil_iff.mpr hgap, hwords⟩
  | cons v ws ih =>
    have hv : IsWord v := isWord_of_mem_words (by rw [h]; exact List.mem_cons_self)
    have hw : IsWord w := isWord_of_mem_words (by rw [h]; simp)
    obtain ⟨gap, rest, rfl, hgap, hrest, hwords⟩ := exists_blank_append_of_words_eq h
    obtain ⟨before, after, rfl, hbefore, hafter, hws, hws'⟩ := ih hwords
    -- Two words do not touch, so there is something between them, and it begins with a blank.
    cases before with
    | nil =>
      obtain ⟨c, w, rfl⟩ := List.exists_cons_of_ne_nil hw.1
      have hblank := hrest c rfl
      rw [hw.2 c List.mem_cons_self] at hblank
      cases hblank
    | cons b before =>
      refine ⟨gap ++ (v ++ b :: before), after, by simp, ?_, hafter, ?_, hws'⟩
      · intro c hc
        exact hbefore c (by simpa using hc)
      · have hfirst : words ([] ++ (v ++ b :: before)) = v :: words (b :: before) :=
          words_standing hv (by simp) hrest
        rw [words_append_of_blank hgap, ← hws]
        exact hfirst

theorem mem_words_iff {w s : List Char} : w ∈ words s ↔ StandsIn w s := by
  refine ⟨fun h => ⟨isWord_of_mem_words h, ?_⟩, StandsIn.mem_words⟩
  obtain ⟨ws, ws', hwords⟩ := List.append_of_mem h
  obtain ⟨before, after, hs, hbefore, hafter, -, -⟩ := exists_standing_of_words_eq hwords
  exact ⟨before, after, hs, hbefore, hafter⟩

end SleepPolicy.Text
