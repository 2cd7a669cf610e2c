import SleepPolicy.Proofs.Settings.InsertedLine

/-!
# Files that follow each other

A file begins outside all sections, whatever was read before it, and a header takes nothing from the
lines above it.  So a text that begins with a header has the same effect as a file of its own and below
another text, and a text without any header has no effect at all.

## 1. Entries below a header
-/

namespace SleepPolicy

namespace SettingsEntry

theorem ofLine?_nil (above : List (List Char)) : ofLine? above [] = none :=
  if_neg fun h => h.1 rfl

theorem ofLine?_header {line : List Char} (h : SettingsLine.isHeader line = true)
    (above : List (List Char)) : ofLine? above line = none := by
  obtain ⟨name, rfl⟩ := SettingsLine.isHeader_iff.mp h
  exact if_neg fun heffective => heffective.2.1 '[' (by simp) rfl

theorem below_header {line : List Char} (h : SettingsLine.isHeader line = true)
    (above rest : List (List Char)) : below above (line :: rest) = below [] (line :: rest) := by
  have hlast : lastHeader? (above ++ [line]) = lastHeader? ([] ++ [line]) := by
    rw [Finding.lastHeader?_concat, Finding.lastHeader?_concat, if_pos h, if_pos h]
  rw [below_cons, below_cons, ofLine?_header h, ofLine?_header h, below_congr hlast]

/-- A text goes on below the lines of another, and takes from them at most the section. -/
theorem exists_inContent_append_newline (s : List Char) :
    ∃ above, ∀ t, inContent (s ++ '\n' :: t) =
      inContent s ++ below above ((Text.lines t).map Text.trim) := by
  obtain ⟨pieces, last, hs⟩ := Text.exists_splitOnP_eq s
  let first := (pieces.map Text.dropReturn).map Text.trim
  refine ⟨first ++ [Text.trim last], fun t => ?_⟩
  -- Without the line feed an empty last piece is no line, but as a line it has no entry.
  have hinContent : inContent s = below [] first ++ (ofLine? first (Text.trim last)).toList := by
    rw [inContent_eq_below, Text.lines_of_splitOnP hs, List.map_append, below_append, List.nil_append]
    cases last with
    | nil =>
      rw [Text.trim_eq_self Text.isTrimmed_nil, ofLine?_nil]
      rfl
    | cons c last =>
      rw [List.isEmpty_cons, if_neg Bool.false_ne_true, List.map_singleton, below_cons, below_nil,
        List.append_nil]
  rw [hinContent, inContent_eq_below, Text.lines_append_newline hs, List.map_append, List.map_cons,
    trim_dropReturn, below_append, List.nil_append, below_cons, List.append_assoc]

/-- A header that follows a text on a line of its own could as well begin a new file. -/
theorem inContent_append_header {header : List Char} (hline : '\n' ∉ header)
    (hheader : SettingsLine.isHeader (Text.trim header) = true) (s t : List Char) :
    inContent (s ++ '\n' :: (header ++ '\n' :: t)) = inContent s ++ inContent (header ++ '\n' :: t) := by
  obtain ⟨above, habove⟩ := exists_inContent_append_newline s
  have hfile : inContent (header ++ '\n' :: t) =
      below [] (Text.trim header :: (Text.lines t).map Text.trim) := by
    rw [inContent_eq_below, Text.lines_cons hline, List.map_cons, trim_dropReturn]
  rw [habove, hfile, Text.lines_cons hline, List.map_cons, trim_dropReturn, below_header hheader]

/-! ## 2. Texts without a header -/

theorem ofLine?_of_no_header {above : List (List Char)}
    (h : ∀ line ∈ above, SettingsLine.isHeader line = false) (line : List Char) :
    ofLine? above line = none := by
  have hnone : lastHeader? above = none := by
    rw [lastHeader?, List.getLast?_eq_none_iff, List.filter_eq_nil_iff]
    simpa using h
  refine if_neg fun heffective => ?_
  rw [heffective.2.2.2] at hnone
  cases hnone

theorem inContent_of_no_header {content : List Char}
    (h : ∀ line ∈ Text.lines content, SettingsLine.isHeader (Text.trim line) = false) :
    inContent content = [] := by
  rw [inContent, List.filterMap_eq_nil_iff]
  rintro ⟨line, i⟩ -
  apply ofLine?_of_no_header
  intro above habove
  obtain ⟨untrimmed, hmem, rfl⟩ := List.mem_map.mp (List.mem_of_mem_take habove)
  exact h untrimmed hmem

end SettingsEntry

/-! ## 3. Settings -/

namespace Settings

theorem value_read (s : Settings) (source : String) (content : List Char) :
    (s.read source content).value =
      ((SettingsEntry.inContent content).filterMap SettingsEntry.assignment?).foldl assign s := by
  rw [← assignmentsIn_eq]
  rfl

/-- How files follow each other, on top of any settings.  A text below the header of the section can be
read as a file of its own or together with what stands above, and a file without a header, between
brackets on a line of its own, leaves the settings as they are. -/
theorem read_composes (s : Settings) :
    (∀ (source source' whole : String) (a b : List Char),
      ((s.read source a).value.read source' ("[Sleep]\n".toList ++ b)).value =
        (s.read whole (a ++ "\n[Sleep]\n".toList ++ b)).value) ∧
    (∀ (source : String) (content : List Char),
      (∀ line ∈ Text.lines content, ∀ name, Text.trim line ≠ '[' :: (name ++ [']'])) →
        (s.read source content).value = s) := by
  constructor
  · intro source source' whole a b
    have hentries : SettingsEntry.inContent (a ++ "\n[Sleep]\n".toList ++ b) =
        SettingsEntry.inContent a ++ SettingsEntry.inContent ("[Sleep]\n".toList ++ b) := by
      have hline : '\n' ∉ "[Sleep]".toList := by decide
      rw [List.append_assoc]
      exact SettingsEntry.inContent_append_header hline (by decide) a b
    rw [value_read, value_read, value_read, hentries, List.filterMap_append, List.foldl_append]
  · intro source content hcontent
    have hnone : ∀ line ∈ Text.lines content, SettingsLine.isHeader (Text.trim line) = false := by
      intro line hline
      rw [Bool.eq_false_iff]
      intro hheader
      obtain ⟨name, hname⟩ := SettingsLine.isHeader_iff.mp hheader
      exact hcontent line hline name hname
    rw [value_read, SettingsEntry.inContent_of_no_header hnone]
    rfl

-- The first text breaks off in a header, and the second never completes one.
theorem read_composes_broken_header :
    let opened := (empty.read "a" "[Sleep]\nAllowSuspend=no\r\n[Unit".toList).value
    let headless := "AllowSuspend=yes\n[Sleep\nAllowHibernation=no".toList
    (∀ line ∈ Text.lines headless, ∀ name, Text.trim line ≠ '[' :: (name ++ [']'])) ∧
      (opened.read "b" headless).value = opened ∧
      (opened.read "b" ("[Sleep]\n".toList ++ headless)).value =
        (empty.read "ab" ("[Sleep]\nAllowSuspend=no\r\n[Unit".toList ++ "\n[Sleep]\n".toList ++
          headless)).value ∧
      opened.allow.get .suspend = .deny ∧
      (opened.read "b" ("[Sleep]\n".toList ++ headless)).value.allow.get .suspend = .allow := by
  intro opened headless
  have hheadless : ∀ line ∈ Text.lines headless,
      ∀ name, Text.trim line ≠ '[' :: (name ++ [']']) := by
    intro line hline name hname
    have hnone : ((Text.lines headless).all fun line =>
        !SettingsLine.isHeader (Text.trim line)) = true := by
      decide +kernel
    have hheader := SettingsLine.isHeader_iff.mpr ⟨name, hname⟩
    simpa [hheader] using List.all_eq_true.mp hnone line hline
  refine ⟨hheadless, (read_composes opened).2 "b" headless hheadless,
    (read_composes empty).1 "a" "b" "ab" _ headless, ?_, ?_⟩ <;> decide +kernel

end Settings

end SleepPolicy
