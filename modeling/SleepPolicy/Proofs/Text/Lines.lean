import SleepPolicy.Proofs.Text.Words
import SleepPolicy.Text.Lines

/-!
# Written lines

Lines that were each written with a line feed are read back as they were, and a text of whole lines
keeps its lines apart from those of what follows it.
-/

namespace SleepPolicy.Text

/-- A text that can stand on a line of its own: the line feed would end it, and a carriage return
before the line feed would belong to the line end. -/
def IsLine (s : List Char) : Prop :=
  '\n' ∉ s ∧ s.getLast? ≠ some '\r'

def written (ls : List (List Char)) : List Char :=
  ls.flatMap fun l => l ++ ['\n']

theorem dropReturn_eq_self {s : List Char} (h : IsLine s) : dropReturn s = s := by
  unfold dropReturn
  rw [if_neg h.2]

theorem beq_newline_of_not_mem {s : List Char} (h : '\n' ∉ s) : ∀ c ∈ s, (c == '\n') = false := by
  intro c hc
  rw [beq_eq_false_iff_ne]
  rintro rfl
  exact h hc

/-- The last piece is what stands behind the last line feed: nothing. -/
theorem splitOnP_written {ls : List (List Char)} (h : ∀ l ∈ ls, IsLine l) :
    (written ls).splitOnP (· == '\n') = ls ++ [[]] := by
  induction ls with
  | nil => rfl
  | cons l ls ih =>
    have hl : ∀ c ∈ l, (c == '\n') = false := beq_newline_of_not_mem (h l (by simp)).1
    have hcons : written (l :: ls) = l ++ '\n' :: written ls := by
      simp [written]
    -- The first line feed is the one behind `l`, since `l` has none.
    rw [hcons, List.splitOnP_append_cons_of_forall_mem hl '\n' rfl,
      ih fun k hk => h k (List.mem_cons_of_mem l hk), List.cons_append]

theorem lines_of_splitOnP {s last : List Char} {pieces : List (List Char)}
    (h : s.splitOnP (· == '\n') = pieces ++ [last]) :
    lines s = pieces.map dropReturn ++ if last.isEmpty then [] else [last] := by
  unfold lines
  simp only [h, List.dropLast_concat, List.getLastD_concat]

theorem lines_written {ls : List (List Char)} (h : ∀ l ∈ ls, IsLine l) :
    lines (written ls) = ls := by
  rw [lines_of_splitOnP (splitOnP_written h),
    List.map_congr_left fun l hl => dropReturn_eq_self (h l hl), List.map_id']
  exact List.append_nil ls

/-! ## Lines that follow each other -/

theorem exists_splitOnP_eq (s : List Char) :
    ∃ pieces last, s.splitOnP (· == '\n') = pieces ++ [last] :=
  ⟨_, _, (List.dropLast_concat_getLast (List.splitOnP_ne_nil _ s)).symm⟩

theorem lines_cons {line : List Char} (h : '\n' ∉ line) (s : List Char) :
    lines (line ++ '\n' :: s) = dropReturn line :: lines s := by
  obtain ⟨pieces, last, hs⟩ := exists_splitOnP_eq s
  have hsplit : (line ++ '\n' :: s).splitOnP (· == '\n') = (line :: pieces) ++ [last] := by
    rw [List.splitOnP_append_cons_of_forall_mem (beq_newline_of_not_mem h) '\n' rfl, hs,
      List.cons_append]
  rw [lines_of_splitOnP hsplit, lines_of_splitOnP hs, List.map_cons, List.cons_append]

theorem lines_of_not_mem {line : List Char} (h : '\n' ∉ line) (hne : line ≠ []) :
    lines line = [line] := by
  have hsplit : line.splitOnP (· == '\n') = [] ++ [line] :=
    List.splitOnP_eq_singleton (beq_newline_of_not_mem h)
  rw [lines_of_splitOnP hsplit, if_neg (by simpa using hne)]
  rfl

/-- The first of several lines is one of its own, possibly without a carriage return at its end, unless
it is all there is and empty. -/
theorem lines_intercalate_cons {line : List Char} {ls : List (List Char)} (h : '\n' ∉ line)
    (hne : line ≠ [] ∨ ls ≠ []) :
    ∃ first, (first = line ∨ first = dropReturn line) ∧
      lines (['\n'].intercalate (line :: ls)) = first :: lines (['\n'].intercalate ls) := by
  by_cases hls : ls = []
  · subst hls
    refine ⟨line, .inl rfl, ?_⟩
    rw [List.intercalate_singleton, lines_of_not_mem h (hne.resolve_right fun hne => hne rfl)]
    rfl
  · refine ⟨dropReturn line, .inr rfl, ?_⟩
    rw [List.intercalate_cons_of_ne_nil hls, List.append_assoc, List.singleton_append, lines_cons h]

/-- A line feed behind a text ends its last line, if need be an empty one. -/
theorem lines_append_newline {s last : List Char} {pieces : List (List Char)}
    (hs : s.splitOnP (· == '\n') = pieces ++ [last]) (t : List Char) :
    lines (s ++ '\n' :: t) = pieces.map dropReturn ++ dropReturn last :: lines t := by
  obtain ⟨pieces', last', ht⟩ := exists_splitOnP_eq t
  have hsplit : (s ++ '\n' :: t).splitOnP (· == '\n') = (pieces ++ last :: pieces') ++ [last'] := by
    rw [List.splitOnP_append_cons s t rfl, hs, ht]
    simp
  rw [lines_of_splitOnP hsplit, lines_of_splitOnP ht, List.map_append, List.map_cons,
    List.append_assoc, List.cons_append]

/-- Nothing, or a text that ends with a line feed. -/
def IsWhole (s : List Char) : Prop :=
  ∀ c ∈ s.getLast?, c = '\n'

theorem lines_append {above : List Char} (h : IsWhole above) (below : List Char) :
    lines (above ++ below) = lines above ++ lines below := by
  rcases List.eq_nil_or_concat above with rfl | ⟨before, c, rfl⟩
  · rfl
  · obtain rfl : c = '\n' := h c (by simp)
    obtain ⟨pieces, last, hbelow⟩ := exists_splitOnP_eq below
    -- The line feed at the end leaves an empty piece behind it, and that is no line.
    have habove : (before ++ ['\n']).splitOnP (· == '\n') = before.splitOnP (· == '\n') ++ [[]] := by
      rw [List.splitOnP_append_cons before [] rfl, List.splitOnP_nil]
    have hsplit : (before ++ ['\n'] ++ below).splitOnP (· == '\n') =
        (before.splitOnP (· == '\n') ++ pieces) ++ [last] := by
      rw [List.append_assoc, List.singleton_append, List.splitOnP_append_cons before below rfl, hbelow,
        List.append_assoc]
    rw [List.concat_eq_append, lines_of_splitOnP hsplit, lines_of_splitOnP habove,
      lines_of_splitOnP hbelow, List.map_append, List.append_assoc]
    simp

theorem lines_ne_nil_of_isWhole {s : List Char} (h : IsWhole s) (hne : s ≠ []) : lines s ≠ [] := by
  rcases List.eq_nil_or_concat s with rfl | ⟨before, c, rfl⟩
  · exact absurd rfl hne
  · obtain rfl : c = '\n' := h c (by simp)
    obtain ⟨pieces, last, hbefore⟩ := exists_splitOnP_eq before
    rw [List.concat_eq_append, lines_append_newline hbefore]
    simp

/-- A line between lines: what is below begins with the line feed that ends it, if there is anything. -/
theorem lines_append_line {above line below : List Char} (habove : IsWhole above) (hline : IsLine line)
    (hne : line ≠ []) (hbelow : ∀ c ∈ below.head?, c = '\n') :
    lines (above ++ (line ++ below)) = lines above ++ line :: (lines below).drop 1 := by
  rw [lines_append habove]
  cases below with
  | nil =>
    rw [List.append_nil, lines_of_not_mem hline.1 hne]
    rfl
  | cons c below =>
    obtain rfl : c = '\n' := hbelow c rfl
    have hempty : lines ('\n' :: below) = dropReturn [] :: lines below := lines_cons List.not_mem_nil below
    rw [lines_cons hline.1, dropReturn_eq_self hline, hempty, List.drop_one, List.tail_cons]

/-! ## Emptied lines -/

/-- The text with some of its lines emptied.  Lines count from one, and the line feeds stay. -/
def emptied (ns : List Nat) (s : List Char) : List Char :=
  ['\n'].intercalate <|
    ((s.splitOnP (· == '\n')).zipIdx 1).map fun (line, n) => if n ∈ ns then [] else line

theorem splitOnP_emptied (ns : List Nat) (s : List Char) :
    (emptied ns s).splitOnP (· == '\n') =
      ((s.splitOnP (· == '\n')).zipIdx 1).map fun (line, n) => if n ∈ ns then [] else line := by
  apply List.splitOn_intercalate '\n'
  · intro l hl hmem
    obtain ⟨⟨line, n⟩, hline, rfl⟩ := List.mem_map.mp hl
    dsimp only at hmem
    split at hmem
    · cases hmem
    · have hpiece : line ∈ s.splitOnP (· == '\n') := List.fst_mem_of_mem_zipIdx hline
      exact absurd (eq_false_of_mem_splitOnP hpiece _ hmem) (by decide)
  · simp [List.splitOnP_ne_nil]

end SleepPolicy.Text
