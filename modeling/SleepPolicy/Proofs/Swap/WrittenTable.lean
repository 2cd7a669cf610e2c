import SleepPolicy.Proofs.Swap.Rows
import SleepPolicy.Proofs.Text.Lines
import SleepPolicy.Proofs.Text.Octal

/-!
# Written swap tables

A table of swap devices is read back as the devices it was written for, in order.  Each device has a line
of five fields, and the blanks and backslashes of its path are written as escapes, so that only the
blanks between the fields divide the line.

## 1. Fields
-/

namespace SleepPolicy

/-- A device that a table can show: its path is not empty, and its sizes fit into a signed number. -/
structure SwapDevice.Listable (d : SwapDevice) : Prop where
  path_ne : d.path ≠ ""
  size_le : d.size.toNat ≤ Int64.maxValue.toInt
  used_le : d.used.toNat ≤ Int64.maxValue.toInt

namespace SwapRow

/-- Spaces and tabs, at least one. -/
def IsGap (s : List Char) : Prop :=
  s ≠ [] ∧ ∀ c ∈ s, c = ' ' ∨ c = '\t'

-- As for words, a search through the text alone.
instance (s : List Char) : Decidable (IsGap s) :=
  decidable_of_iff (s.isEmpty = false ∧ s.all (fun c => c == ' ' || c == '\t') = true) (by simp [IsGap])

/-- A character that can stand for itself in a path. -/
def IsPlain (c : Char) : Prop :=
  Text.isBlank c = false ∧ c ≠ '\\'

instance (c : Char) : Decidable (IsPlain c) :=
  inferInstanceAs (Decidable (_ ∧ _))

/-- What stands behind the path: the type, the two sizes and the priority, each with a gap in front. -/
inductive WritesColumns (d : SwapDevice) : List Char → Prop
  | fields {size used rank gap₁ gap₂ gap₃ gap₄ : List Char} (hgap₁ : IsGap gap₁) (hgap₂ : IsGap gap₂)
      (hsize : Text.IsNumeral d.size.toNat size) (hgap₃ : IsGap gap₃)
      (hused : Text.IsNumeral d.used.toNat used) (hgap₄ : IsGap gap₄)
      (hrank : Text.IsSignedNumeral d.priority.toInt rank) :
      WritesColumns d (gap₁ ++ (d.kind.name.toList ++ (gap₂ ++ (size ++ (gap₃ ++ (used ++
        (gap₄ ++ rank)))))))

/-- A line for a device: the path, with its blanks and backslashes escaped, and the columns behind it. -/
inductive Writes (d : SwapDevice) : List Char → Prop
  | line {path columns : List Char} (hpath : Text.Escaped IsPlain d.path.toList path)
      (hcolumns : WritesColumns d columns) : Writes d (path ++ columns)

theorem IsGap.isBlank {gap : List Char} (h : IsGap gap) : ∀ c ∈ gap, Text.isBlank c = true := by
  intro c hc
  rcases h.2 c hc with rfl | rfl <;> decide

theorem IsGap.newline_not_mem {gap : List Char} (h : IsGap gap) : '\n' ∉ gap := by
  intro hmem
  rcases h.2 _ hmem with hc | hc <;> exact absurd hc (by decide)

theorem words_append_gap {word gap : List Char} (hword : Text.IsWord word) (hgap : IsGap gap)
    (s : List Char) : Text.words (word ++ (gap ++ s)) = word :: Text.words s := by
  rw [Text.words_append_gap hgap.1 hgap.isBlank, Text.words_eq_singleton hword, List.singleton_append]

theorem isWord_path {d : SwapDevice} (hd : d.Listable) {path : List Char}
    (h : Text.Escaped IsPlain d.path.toList path) : Text.IsWord path :=
  h.isWord (fun _ hc => hc.1) fun hnil => hd.path_ne (String.toList_inj.mp hnil)

theorem isWord_kindName (kind : SwapKind) : Text.IsWord kind.name.toList := by
  cases kind <;> decide

theorem number_of_isSignedNumeral {i : Int} {field : List Char} (h : Text.IsSignedNumeral i field)
    (hlo : Int64.minValue.toInt ≤ i) (hhi : i ≤ Int64.maxValue.toInt) :
    number field = .ok (Int64.ofInt i) := by
  rw [number, h.integer?_eq hlo hhi]

theorem amount_of_isNumeral {n : UInt64} {field : List Char} (h : Text.IsNumeral n.toNat field)
    (hn : n.toNat ≤ Int64.maxValue.toInt) : amount field = .ok n := by
  have hlo : Int64.minValue.toInt ≤ n.toNat := by
    rw [Int64.toInt_minValue]
    omega
  have hnumber : number field = .ok (Int64.ofInt n.toNat) :=
    number_of_isSignedNumeral (.natural h) hlo hn
  have hvalue : UInt64.ofNat (Int64.ofInt n.toNat).toInt.toNat = n := by
    rw [Int64.toInt_maxValue] at hn
    rw [Int64.toInt_ofInt_of_le (by omega) (by omega), Int.toNat_natCast, UInt64.ofNat_toNat]
  rw [amount, hnumber]
  exact congrArg Except.ok hvalue

theorem priority_of_isSignedNumeral {i : Int32} {field : List Char}
    (h : Text.IsSignedNumeral i.toInt field) : priority field = .ok i := by
  have hlo : Int64.minValue.toInt ≤ i.toInt := by
    have hle := i.le_toInt
    rw [Int64.toInt_minValue]
    omega
  have hhi : i.toInt ≤ Int64.maxValue.toInt := by
    have hlt := i.toInt_lt
    rw [Int64.toInt_maxValue]
    omega
  have hvalue : (Int64.ofInt i.toInt).toInt32 = i := by
    rw [Int64.toInt32_ofInt, Int32.ofInt_toInt]
  rw [priority, number_of_isSignedNumeral h hlo hhi]
  exact congrArg Except.ok hvalue

/-! ## 2. Columns -/

theorem newline_not_mem_of_isWord {word : List Char} (h : Text.IsWord word) : '\n' ∉ word :=
  fun hmem => absurd (h.2 _ hmem) (by decide)

section Columns

variable {d : SwapDevice} {columns : List Char} (h : WritesColumns d columns)

include h

theorem WritesColumns.ne_nil : columns ≠ [] := by
  obtain ⟨hgap₁, hgap₂, hsize, hgap₃, hused, hgap₄, hrank⟩ := h
  simp [hgap₁.1]

/-- The columns are four fields, and they are the device whatever path stands in front of them. -/
theorem WritesColumns.exists_fields (hd : d.Listable) :
    ∃ size used rank,
      (∀ path, Text.words (path ++ columns) =
        Text.words path ++ [d.kind.name.toList, size, used, rank]) ∧
      ∀ path, readDevice path d.kind size used rank =
        .ok { d with path := String.ofList (Text.unescape path) } := by
  obtain @⟨size, used, rank, gap₁, gap₂, gap₃, gap₄, hgap₁, hgap₂, hsize, hgap₃, hused, hgap₄, hrank⟩ := h
  refine ⟨size, used, rank, fun path => ?_, fun path => ?_⟩
  · rw [Text.words_append_gap hgap₁.1 hgap₁.isBlank, words_append_gap (isWord_kindName d.kind) hgap₂,
      words_append_gap hsize.isWord hgap₃, words_append_gap hused.isWord hgap₄,
      Text.words_eq_singleton hrank.isWord]
  · simp only [readDevice, amount_of_isNumeral hsize hd.size_le, amount_of_isNumeral hused hd.used_le,
      priority_of_isSignedNumeral hrank]
    rfl

/-- A line ends with the numeral of the priority, so it can stand on its own. -/
theorem WritesColumns.isLine {path : List Char} (hpath : '\n' ∉ path) : Text.IsLine (path ++ columns) := by
  obtain ⟨hgap₁, hgap₂, hsize, hgap₃, hused, hgap₄, hrank⟩ := h
  constructor
  · simp only [List.mem_append, not_or]
    exact ⟨hpath, hgap₁.newline_not_mem, newline_not_mem_of_isWord (isWord_kindName d.kind),
      hgap₂.newline_not_mem, newline_not_mem_of_isWord hsize.isWord, hgap₃.newline_not_mem,
      newline_not_mem_of_isWord hused.isWord, hgap₄.newline_not_mem,
      newline_not_mem_of_isWord hrank.isWord⟩
  · intro hreturn
    simp only [List.getLast?_append, List.getLast?_eq_some_getLast hrank.isWord.1, Option.some_or,
      Option.some.injEq] at hreturn
    have hmem : '\r' ∈ _ := hreturn ▸ List.getLast_mem hrank.isWord.1
    exact absurd (hrank.isWord.2 _ hmem) (by decide)

/-- A path of one word is a field of its own. -/
theorem WritesColumns.ofLine_of_words_eq (hd : d.Listable) {path word : List Char}
    (hpath : Text.words path = [word]) :
    ofLine (path ++ columns) = .device { d with path := String.ofList (Text.unescape word) } := by
  obtain ⟨size, used, rank, hwords, hread⟩ := h.exists_fields hd
  refine ofLine_of_readDevice_eq_ok ?_ (hread word)
  rw [hwords, hpath, List.singleton_append]

/-- A path of no word or of several words leaves a wrong number of fields. -/
theorem WritesColumns.ofLine_of_length_ne (hd : d.Listable) {path : List Char}
    (hpath : (Text.words path).length ≠ 1) :
    ofLine (path ++ columns) = .flawed (.unexpectedLine (String.ofList (path ++ columns))) := by
  obtain ⟨size, used, rank, hwords, -⟩ := h.exists_fields hd
  refine SwapRow.ofLine_of_length_ne ?_ ?_
  · simp [hwords]
  · simpa [hwords] using hpath

end Columns

/-! ## 3. Lines -/

theorem Writes.ofLine_eq {d : SwapDevice} {line : List Char} (h : Writes d line) (hd : d.Listable) :
    ofLine line = .device d := by
  obtain ⟨hpath, hcolumns⟩ := h
  rw [hcolumns.ofLine_of_words_eq hd (Text.words_eq_singleton (isWord_path hd hpath)),
    hpath.unescape_eq fun c hc => hc.2, String.ofList_toList]

theorem Writes.isLine {d : SwapDevice} {line : List Char} (h : Writes d line) (hd : d.Listable) :
    Text.IsLine line := by
  obtain ⟨hpath, hcolumns⟩ := h
  exact hcolumns.isLine (newline_not_mem_of_isWord (isWord_path hd hpath))

theorem Writes.ne_nil {d : SwapDevice} {line : List Char} (h : Writes d line) : line ≠ [] := by
  obtain ⟨-, hcolumns⟩ := h
  exact List.append_ne_nil_of_right_ne_nil _ hcolumns.ne_nil

theorem ofLine_blank {line : List Char} (h : ∀ c ∈ line, Text.isBlank c = true) :
    ofLine line = .blank :=
  ofLine_of_words_nil (Text.words_eq_nil_iff.mpr h)

theorem isBlank_dropReturn {line : List Char} (h : ∀ c ∈ line, Text.isBlank c = true) :
    ∀ c ∈ Text.dropReturn line, Text.isBlank c = true := by
  unfold Text.dropReturn
  split
  · exact fun c hc => h c ((List.dropLast_sublist line).subset hc)
  · exact h

end SwapRow

/-! ## 4. Tables -/

namespace SwapTable

/-- The lines below the heading: one for each device, in order, and blank ones among them. -/
inductive Writes : List SwapDevice → List (List Char) → Prop
  | nil : Writes [] []
  | blank {ds : List SwapDevice} {line : List Char} {ls : List (List Char)}
      (hblank : ∀ c ∈ line, Text.isBlank c = true) (hline : '\n' ∉ line) (h : Writes ds ls) :
      Writes ds (line :: ls)
  | device {d : SwapDevice} {ds : List SwapDevice} {line : List Char} {ls : List (List Char)}
      (hline : SwapRow.Writes d line) (h : Writes ds ls) : Writes (d :: ds) (line :: ls)

theorem devices_written {ds : List SwapDevice} {ls : List (List Char)} (h : Writes ds ls)
    (hds : ∀ d ∈ ds, d.Listable) :
    SwapRow.devices ((Text.lines (['\n'].intercalate ls)).map SwapRow.ofLine) = pure (.ok ds) := by
  induction h with
  | nil => rfl
  | @blank ds line ls hblank hline h ih =>
    by_cases hne : line ≠ [] ∨ ls ≠ []
    · obtain ⟨first, hfirst, hlines⟩ := Text.lines_intercalate_cons hline hne
      have hrow : SwapRow.ofLine first = .blank := by
        rcases hfirst with rfl | rfl
        · exact SwapRow.ofLine_blank hblank
        · exact SwapRow.ofLine_blank (SwapRow.isBlank_dropReturn hblank)
      rw [hlines, List.map_cons, hrow, SwapRow.devices, ih hds]
    · -- An empty line at the very end is only the end of the line before it.
      obtain ⟨rfl, rfl⟩ : line = [] ∧ ls = [] := by simpa [not_or] using hne
      cases h
      rfl
  | @device d ds line ls hline h ih =>
    have hd : d.Listable := hds d (by simp)
    have hne : line ≠ [] ∨ ls ≠ [] := .inl hline.ne_nil
    obtain ⟨first, hfirst, hlines⟩ := Text.lines_intercalate_cons (hline.isLine hd).1 hne
    have hrow : SwapRow.ofLine first = .device d := by
      rcases hfirst with rfl | rfl
      · exact hline.ofLine_eq hd
      · rw [Text.dropReturn_eq_self (hline.isLine hd), hline.ofLine_eq hd]
    rw [hlines, List.map_cons, hrow, SwapRow.devices,
      ih fun e he => hds e (List.mem_cons_of_mem d he), pure_bind]

theorem rows_written {header : List Char} (hheader : '\n' ∉ header) (ls : List (List Char)) :
    rows (['\n'].intercalate (header :: ls)) =
      (Text.lines (['\n'].intercalate ls)).map SwapRow.ofLine := by
  by_cases hne : header ≠ [] ∨ ls ≠ []
  · obtain ⟨first, -, hlines⟩ := Text.lines_intercalate_cons hheader hne
    rw [rows, hlines]
    rfl
  · obtain ⟨rfl, rfl⟩ : header = [] ∧ ls = [] := by simpa [not_or] using hne
    rfl

/-- A table that was written for some devices is read as those devices, in order and without a report,
whatever its heading says and whichever characters were escaped beyond those that have to be. -/
theorem read_written {ds : List SwapDevice} (hds : ∀ d ∈ ds, d.Listable) {header : List Char}
    (hheader : '\n' ∉ header) {ls : List (List Char)} (h : Writes ds ls) (source : String) :
    read source (['\n'].intercalate (header :: ls)) = pure (.ok ds) := by
  rw [read, rows_written hheader, devices_written h hds, pure_bind]

-- The path holds a space, text that looks like an escape, and a blank of two bytes at its very end; the
-- sizes and the priority are at their limits.
theorem read_written_escaped_path :
    let d : SwapDevice := ⟨"/é \\040\u00A0", .file, 9223372036854775807, 0, -2147483648⟩
    let line := "/é\\040\\134040\\302\\240 \tfile\t9223372036854775807 00  -2147483648".toList
    let header := "Filename\tType".toList
    let ls := ["\t\r".toList, line, []]
    (∀ e ∈ [d], e.Listable) ∧ '\n' ∉ header ∧ Writes [d] ls ∧
      read "/proc/swaps" (['\n'].intercalate (header :: ls)) = pure (.ok [d]) := by
  intro d line header ls
  have hd : ∀ e ∈ [d], e.Listable :=
    List.forall_mem_singleton.mpr ⟨by decide +kernel, by decide, by decide⟩
  have hheader : '\n' ∉ header := by
    decide +kernel
  have htext : d.path.toList = ['/', 'é', ' ', '\\', '0', '4', '0', '\u00A0'] := by
    decide +kernel
  have hpath : Text.Escaped SwapRow.IsPlain d.path.toList
      ('/' :: 'é' :: (Text.escapeChar ' ' ++ (Text.escapeChar '\\' ++ ('0' :: '4' :: '0' ::
        (Text.escapeChar '\u00A0' ++ []))))) := by
    rw [htext]
    exact .keep (by decide) (.keep (by decide) (.escape (.escape (.keep (by decide)
      (.keep (by decide) (.keep (by decide) (.escape .nil)))))))
  have hrank : Text.IsSignedNumeral d.priority.toInt ('-' :: Text.decimal 2147483648) := by
    rw [show d.priority.toInt = Int.negSucc 2147483647 by decide]
    exact .negative ⟨0, rfl⟩
  have hline : SwapRow.Writes d line := by
    have hgap₁ : SwapRow.IsGap [' ', '\t'] := by decide
    have hgap₂ : SwapRow.IsGap ['\t'] := by decide
    have hgap₃ : SwapRow.IsGap [' '] := by decide
    have hgap₄ : SwapRow.IsGap [' ', ' '] := by decide
    have hcolumns := SwapRow.WritesColumns.fields hgap₁ hgap₂ ⟨0, rfl⟩ hgap₃ ⟨1, rfl⟩ hgap₄ hrank
    exact cast (congrArg (SwapRow.Writes d) (by decide +kernel)) (SwapRow.Writes.line hpath hcolumns)
  have hblank : ∀ c ∈ "\t\r".toList, Text.isBlank c = true := List.all_eq_true.mp (by decide +kernel)
  have h : Writes [d] ls :=
    .blank hblank (by decide +kernel) (.device hline (.blank (by simp) (by simp) .nil))
  exact ⟨hd, hheader, h, read_written hd hheader h "/proc/swaps"⟩

end SwapTable

end SleepPolicy
