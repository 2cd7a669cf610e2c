import SleepPolicy.Proofs.Swap.WrittenTable
import SleepPolicy.Proofs.Text.Escapes

/-!
# Paths that are not escaped

The kernel escapes spaces, tabs, line feeds and backslashes, and writes every other character as it is.
The table is cut at all blank characters, and there are more of those.  A path that stands in its line as
it is comes back exactly if it has no blank at all.  With blanks at its ends it loses them, and with blanks
inside it spoils the table.
-/

namespace SleepPolicy

namespace SwapRow

/-- A path without a character that the kernel escapes. -/
def IsVerbatim (path : List Char) : Prop :=
  ∀ c ∈ path, c ≠ ' ' ∧ c ≠ '\t' ∧ c ≠ '\n' ∧ c ≠ '\\'

-- A search through the text alone, as for words.
instance (path : List Char) : Decidable (IsVerbatim path) :=
  decidable_of_iff (path.all (fun c => c != ' ' && c != '\t' && c != '\n' && c != '\\') = true)
    (by simp [IsVerbatim, and_assoc])

section Verbatim

variable {path : List Char} (h : IsVerbatim path)

include h

theorem IsVerbatim.newline_not_mem : '\n' ∉ path :=
  fun hmem => (h _ hmem).2.2.1 rfl

theorem IsVerbatim.backslash_not_mem : '\\' ∉ path :=
  fun hmem => (h _ hmem).2.2.2 rfl

-- The words of the path are parts of it.
theorem IsVerbatim.unescape_word {word : List Char} (hword : word ∈ Text.words path) :
    Text.unescape word = word := by
  obtain ⟨-, before, after, rfl, -⟩ := Text.mem_words_iff.mp hword
  have hmem : '\\' ∉ word := fun hmem =>
    h.backslash_not_mem (List.mem_append_right before (List.mem_append_left after hmem))
  exact Text.unescape_of_no_escape (Text.not_hasEscape_of_not_mem hmem)

end Verbatim

end SwapRow

namespace SwapTable

open SwapRow

/-- The texts around a line of a table: the heading is above it, and nothing below is on it. -/
structure Frames (above below : List Char) : Prop where
  heading : above ≠ []
  whole : Text.IsWhole above
  ended : ∀ c ∈ below.head?, c = '\n'

section Framed

variable {source : String} {above line below : List Char} {ds₁ ds₂ : List SwapDevice}
variable (hframe : Frames above below) (hline : Text.IsLine line) (hne : line ≠ [])

include hframe hline hne

theorem rows_framed : rows (above ++ (line ++ below)) = rows above ++ ofLine line :: rows below := by
  have hheading : 1 ≤ (Text.lines above).length :=
    List.length_pos_iff.mpr (Text.lines_ne_nil_of_isWhole hframe.whole hframe.heading)
  rw [rows, rows, rows, Text.lines_append_line hframe.whole hline hne hframe.ended,
    List.drop_append_of_le_length hheading, List.map_append, List.map_cons]

/-- The devices of the lines above come first, and those of the lines below come last. -/
theorem value_read_framed_device (hds₁ : (read source above).value = .ok ds₁)
    (hds₂ : (read source below).value = .ok ds₂) {e : SwapDevice} (he : ofLine line = .device e) :
    (read source (above ++ (line ++ below))).value = .ok (ds₁ ++ e :: ds₂) := by
  rw [value_read_eq_ok_iff] at hds₁ hds₂ ⊢
  rw [rows_framed hframe hline hne, he]
  have hdevice : (SwapRow.device e).device? = some e := rfl
  constructor
  · rw [List.findSome?_append, hds₁.1, Option.none_or, List.findSome?_cons]
    exact hds₂.1
  · rw [List.filterMap_append, hds₁.2, List.filterMap_cons_some hdevice, hds₂.2]

/-- A flaw spoils the table whatever stands below. -/
theorem value_read_framed_flawed (hds₁ : (read source above).value = .ok ds₁) {flaw : Flaw}
    (hflaw : ofLine line = .flawed flaw) :
    (read source (above ++ (line ++ below))).value = .error (.malformed source flaw) := by
  apply value_read_of_flaw
  rw [rows_framed hframe hline hne, hflaw, List.findSome?_append, (value_read_eq_ok_iff.mp hds₁).1]
  rfl

end Framed

/-- When a path that is not escaped comes back.  Its line stands among others, above and below, that are
read as some devices.  Between those devices there is one with exactly that path if and only if the path
has no blank; it is then the device of the line.  A path of one word between blanks loses them, and any
other path makes the table flawed. -/
theorem read_verbatim_iff {d : SwapDevice} (hd : d.Listable) (hpath : IsVerbatim d.path.toList)
    {columns : List Char} (hcolumns : WritesColumns d columns) {above below : List Char}
    (hframe : Frames above below) {source : String} {ds₁ ds₂ : List SwapDevice}
    (hds₁ : (read source above).value = .ok ds₁) (hds₂ : (read source below).value = .ok ds₂) :
    let line := d.path.toList ++ columns
    let answer := (read source (above ++ (line ++ below))).value
    ((∃ e, answer = .ok (ds₁ ++ e :: ds₂) ∧ e.path = d.path) ↔
      ∀ c ∈ d.path.toList, Text.isBlank c = false) ∧
    ((∀ c ∈ d.path.toList, Text.isBlank c = false) → answer = .ok (ds₁ ++ d :: ds₂)) ∧
    (∀ word, Text.words d.path.toList = [word] →
      answer = .ok (ds₁ ++ { d with path := String.ofList word } :: ds₂)) ∧
    ((Text.words d.path.toList).length ≠ 1 →
      answer = .error (.malformed source (.unexpectedLine (String.ofList line)))) := by
  intro line answer
  have hline : Text.IsLine line := hcolumns.isLine hpath.newline_not_mem
  have hne : line ≠ [] := List.append_ne_nil_of_right_ne_nil _ hcolumns.ne_nil
  have hword : ∀ word, Text.words d.path.toList = [word] →
      answer = .ok (ds₁ ++ { d with path := String.ofList word } :: ds₂) := by
    intro word hwords
    have hunescape : Text.unescape word = word := hpath.unescape_word (by simp [hwords])
    have hdevice := hcolumns.ofLine_of_words_eq hd hwords
    rw [hunescape] at hdevice
    exact value_read_framed_device hframe hline hne hds₁ hds₂ hdevice
  have hother : (Text.words d.path.toList).length ≠ 1 →
      answer = .error (.malformed source (.unexpectedLine (String.ofList line))) := fun hlength =>
    value_read_framed_flawed hframe hline hne hds₁ (hcolumns.ofLine_of_length_ne hd hlength)
  have hwhole : (∀ c ∈ d.path.toList, Text.isBlank c = false) → answer = .ok (ds₁ ++ d :: ds₂) := by
    intro hblank
    have hpath_ne : d.path.toList ≠ [] := fun hnil => hd.path_ne (String.toList_inj.mp hnil)
    have hd' := hword _ (Text.words_eq_singleton ⟨hpath_ne, hblank⟩)
    rwa [String.ofList_toList] at hd'
  refine ⟨⟨?_, fun hblank => ⟨d, hwhole hblank, rfl⟩⟩, hwhole, hword, hother⟩
  rintro ⟨e, he, hepath⟩
  by_cases hlength : (Text.words d.path.toList).length = 1
  · obtain ⟨word, hwords⟩ := List.length_eq_one_iff.mp hlength
    have hsame := (hword word hwords).symm.trans he
    obtain rfl : { d with path := String.ofList word } = e := by simpa using hsame
    have hw : Text.IsWord word := Text.isWord_of_mem_words (by rw [hwords]; simp)
    rw [← hepath, String.toList_ofList]
    exact hw.2
  · rw [hother hlength] at he
    cases he

-- The path has characters of several bytes and brackets, and its line stands between two others.
theorem read_verbatim_iff_between_lines :
    let d : SwapDevice := ⟨"/[é]\uFFFD", .file, 9223372036854775807, 7, -2147483648⟩
    let columns := "\tfile 9223372036854775807\t007  -2147483648".toList
    let above := "Filename\tType\n/dev/sda2 partition 9 1 -2\n".toList
    let below := "\n/b file 2 0 7".toList
    d.Listable ∧ IsVerbatim d.path.toList ∧ WritesColumns d columns ∧ Frames above below ∧
      (read "/proc/swaps" (above ++ (d.path.toList ++ columns ++ below))).value =
        .ok [⟨"/dev/sda2", .partition, 9, 1, -2⟩, d, ⟨"/b", .file, 2, 0, 7⟩] := by
  intro d columns above below
  have hd : d.Listable := ⟨by decide +kernel, by decide, by decide⟩
  have hpath : IsVerbatim d.path.toList := by decide +kernel
  have hrank : Text.IsSignedNumeral d.priority.toInt ('-' :: Text.decimal 2147483648) := by
    rw [show d.priority.toInt = Int.negSucc 2147483647 by decide]
    exact .negative ⟨0, rfl⟩
  have hcolumns : WritesColumns d columns := by
    have hgap₁ : IsGap ['\t'] := by decide
    have hgap₂ : IsGap [' '] := by decide
    have hgap₃ : IsGap [' ', ' '] := by decide
    have h := WritesColumns.fields hgap₁ hgap₂ ⟨0, rfl⟩ hgap₁ ⟨2, rfl⟩ hgap₃ hrank
    exact cast (congrArg (WritesColumns d) (by decide +kernel)) h
  have hframe : Frames above below := by
    have hlast : above.getLast? = some '\n' := by decide +kernel
    have hhead : below.head? = some '\n' := by decide +kernel
    exact ⟨by decide +kernel, by simp [Text.IsWhole, hlast], by simp [hhead]⟩
  have hword : Text.IsWord d.path.toList := by decide +kernel
  have hds₁ : (read "/proc/swaps" above).value = .ok [⟨"/dev/sda2", .partition, 9, 1, -2⟩] := by
    decide +kernel
  have hds₂ : (read "/proc/swaps" below).value = .ok [⟨"/b", .file, 2, 0, 7⟩] := by decide +kernel
  have hanswer := read_verbatim_iff hd hpath hcolumns hframe hds₁ hds₂
  exact ⟨hd, hpath, hcolumns, hframe, hanswer.2.1 hword.2⟩

/-- A no-break space is not escaped, and the path around it becomes two fields. -/
theorem read_cuts_verbatim_path :
    let d : SwapDevice := ⟨"/swap\u00A0file", .file, 1024, 0, 5⟩
    let columns := " file 1024 0 5".toList
    let header := "Filename\tType\tSize\tUsed\tPriority\n".toList
    d.Listable ∧ IsVerbatim d.path.toList ∧ WritesColumns d columns ∧
      (read "/proc/swaps" (header ++ (d.path.toList ++ columns ++ ['\n']))).value =
        .error (.malformed "/proc/swaps" (.unexpectedLine "/swap\u00A0file file 1024 0 5")) := by
  intro d columns header
  have hd : d.Listable := ⟨by decide +kernel, by decide, by decide⟩
  have hcolumns : WritesColumns d columns := by
    have hgap : IsGap [' '] := by decide
    have h : WritesColumns d _ := .fields hgap hgap ⟨0, rfl⟩ hgap ⟨0, rfl⟩ hgap (.natural ⟨0, rfl⟩)
    exact cast (congrArg (WritesColumns d) (by decide +kernel)) h
  exact ⟨hd, by decide +kernel, hcolumns, by decide +kernel⟩

end SwapTable

end SleepPolicy
