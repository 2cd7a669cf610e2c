import SleepPolicy.Proofs.Settings.Reports

/-!
# Layout

Blanks at the ends of a line do not count, nor do those around the equals sign of an entry.  So a file that is
laid out anew, be it with other line ends, is read alike and gets the same reports.

## 1. Lines
-/

namespace SleepPolicy

namespace SettingsLine

/-- Blanks that stay within a line. -/
def IsGap (s : List Char) : Prop :=
  ∀ c ∈ s, Text.isBlank c = true ∧ c ≠ '\n'

instance (s : List Char) : Decidable (IsGap s) :=
  decidable_of_iff (s.all (fun c => Text.isBlank c && c != '\n') = true) (by simp [IsGap])

theorem IsGap.isBlank {s : List Char} (h : IsGap s) : ∀ c ∈ s, Text.isBlank c = true :=
  fun c hc => (h c hc).1

theorem IsGap.newline_not_mem {s : List Char} (h : IsGap s) : '\n' ∉ s :=
  fun hmem => (h '\n' hmem).2 rfl

/-- The first character that is not blank begins neither a comment nor a header. -/
def IsPlain (line : List Char) : Prop :=
  ∀ c ∈ line.find? fun c => !Text.isBlank c, c ∉ ['#', ';', '[']

instance (line : List Char) : Decidable (IsPlain line) :=
  decidable_of_iff ((line.find? fun c => !Text.isBlank c).all (· ∉ ['#', ';', '[']) = true)
    (by rw [Option.all_eq_true]; simp only [decide_eq_true_eq]; rfl)

/-- The second line is the first one with blanks put at its ends and, unless it begins like a comment or a
header, around its first equals sign. -/
inductive Relaid : List Char → List Char → Prop
  | ends {line before after : List Char} (hbefore : IsGap before) (hafter : IsGap after) :
      Relaid line (before ++ (line ++ after))
  | equals {key value before left right after : List Char} (hkey : '=' ∉ key)
      (hplain : IsPlain (key ++ '=' :: value)) (hbefore : IsGap before) (hleft : IsGap left)
      (hright : IsGap right) (hafter : IsGap after) :
      Relaid (key ++ '=' :: value) (before ++ (key ++ left ++ '=' :: (right ++ value) ++ after))

theorem isBlank_equals : Text.isBlank '=' = false := by
  decide

theorem head?_trim_equals (key value : List Char) :
    (Text.trim (key ++ '=' :: value)).head? =
      (key ++ '=' :: value).find? fun c => !Text.isBlank c := by
  have hstop : ('=' :: value).find? (fun c => !Text.isBlank c) = some '=' :=
    List.find?_cons_of_pos (by simp [isBlank_equals])
  rw [Text.trim_append_cons isBlank_equals, List.find?_append, hstop, List.find?_not_eq_head?_dropWhile,
    List.head?_append, Text.trimStart]
  rfl

theorem ofText_equals {key value : List Char} (hkey : '=' ∉ key)
    (hplain : IsPlain (key ++ '=' :: value)) :
    ofText (key ++ '=' :: value) = entry (Text.trim key) (Text.trim value) := by
  have hkey' : '=' ∉ Text.trimStart key := fun h => hkey ((List.dropWhile_sublist _).subset h)
  have hhead := head?_trim_equals key value
  have htrim : Text.trim (key ++ '=' :: value) = Text.trimStart key ++ '=' :: Text.trimEnd value :=
    Text.trim_append_cons isBlank_equals key value
  cases hline : Text.trim (key ++ '=' :: value) with
  | nil =>
    rw [hline] at htrim
    simp at htrim
  | cons c rest =>
    rw [hline] at hhead htrim
    have hc : c ∉ ['#', ';', '['] := hplain c hhead.symm
    rw [ofText, hline, ofTrimmed_cons hc, htrim, splitEquals?_append hkey']
    simp only [Text.trim_trimStart, Text.trim_trimEnd]

theorem isPlain_equals {key value left right : List Char} (hleft : IsGap left)
    (h : IsPlain (key ++ '=' :: value)) : IsPlain (key ++ left ++ '=' :: (right ++ value)) := by
  have hblank : left.find? (fun c => !Text.isBlank c) = none := by
    simpa using hleft.isBlank
  intro c hc
  refine h c ?_
  simpa [List.find?_append, hblank, isBlank_equals] using hc

theorem Relaid.ofText_eq {line line' : List Char} (h : Relaid line line') :
    ofText line' = ofText line := by
  cases h with
  | ends hbefore hafter =>
    rw [ofText, Text.trim_of_blank_append hbefore.isBlank, Text.trim_append_of_blank hafter.isBlank,
      ofText]
  | @equals key value before left right after hkey hplain hbefore hleft hright hafter =>
    have hkey' : '=' ∉ key ++ left := by
      rw [List.mem_append, not_or]
      refine ⟨hkey, fun h => ?_⟩
      have hblank : Text.isBlank '=' = true := hleft.isBlank '=' h
      rw [isBlank_equals] at hblank
      cases hblank
    rw [ofText, Text.trim_of_blank_append hbefore.isBlank, Text.trim_append_of_blank hafter.isBlank,
      ← ofText, ofText_equals hkey' (isPlain_equals hleft hplain), ofText_equals hkey hplain,
      Text.trim_append_of_blank hleft.isBlank, Text.trim_of_blank_append hright.isBlank]

theorem Relaid.newline_not_mem {line line' : List Char} (h : Relaid line line') (hline : '\n' ∉ line) :
    '\n' ∉ line' := by
  cases h with
  | ends hbefore hafter =>
    simp [hbefore.newline_not_mem, hline, hafter.newline_not_mem]
  | equals hkey hplain hbefore hleft hright hafter =>
    simpa [hbefore.newline_not_mem, hleft.newline_not_mem, hright.newline_not_mem,
      hafter.newline_not_mem] using hline

end SettingsLine

/-! ## 2. Files -/

namespace Settings

/-- The second text is the first one with its lines laid out anew. -/
inductive Relaid : List Char → List Char → Prop
  | last {line line' : List Char} (hline : '\n' ∉ line) (h : SettingsLine.Relaid line line') :
      Relaid line line'
  | cons {line line' rest rest' : List Char} (hline : '\n' ∉ line)
      (h : SettingsLine.Relaid line line') (hrest : Relaid rest rest') :
      Relaid (line ++ '\n' :: rest) (line' ++ '\n' :: rest')

theorem Relaid.map_ofText {content content' : List Char} (h : Relaid content content') :
    (content'.splitOnP (· == '\n')).map SettingsLine.ofText =
      (content.splitOnP (· == '\n')).map SettingsLine.ofText := by
  have hpiece : ∀ {line : List Char}, '\n' ∉ line → ∀ c ∈ line, (c == '\n') = false :=
    Text.beq_newline_of_not_mem
  induction h with
  | last hline h =>
    rw [List.splitOnP_eq_singleton (hpiece hline),
      List.splitOnP_eq_singleton (hpiece (h.newline_not_mem hline)), List.map_singleton,
      List.map_singleton, h.ofText_eq]
  | cons hline h _ ih =>
    rw [List.splitOnP_append_cons_of_forall_mem (hpiece hline) '\n' rfl,
      List.splitOnP_append_cons_of_forall_mem (hpiece (h.newline_not_mem hline)) '\n' rfl,
      List.map_cons, List.map_cons, h.ofText_eq, ih]

/-- What is found in the pieces between the line feeds decides about the settings and the reports. -/
theorem read_congr {content content' : List Char}
    (h : Finding.ofPieces content' = Finding.ofPieces content) (s : Settings) (source : String) :
    s.read source content' = s.read source content := by
  rw [read, read, assignmentsIn_eq_ofPieces content' 1, assignmentsIn_eq_ofPieces content 1,
    faultsIn_eq_ofPieces, faultsIn_eq_ofPieces, h]

theorem Relaid.read_eq {content content' : List Char} (h : Relaid content content') (s : Settings)
    (source : String) : s.read source content' = s.read source content := by
  apply read_congr
  rw [Finding.ofPieces, Finding.ofPieces, h.map_ofText]

/-- The text with a carriage return put before every line feed. -/
def withReturns (content : List Char) : List Char :=
  content.flatMap fun c => if c = '\n' then ['\r', '\n'] else [c]

theorem withReturns_of_not_mem {line : List Char} (h : '\n' ∉ line) : withReturns line = line := by
  have hsame : ∀ c ∈ line, (if c = '\n' then ['\r', '\n'] else [c]) = [c] :=
    fun c hc => if_neg (ne_of_mem_of_not_mem hc h)
  rw [withReturns, List.flatMap_congr hsame]
  simp

theorem withReturns_append_newline {line : List Char} (h : '\n' ∉ line) (rest : List Char) :
    withReturns (line ++ '\n' :: rest) = (line ++ ['\r']) ++ '\n' :: withReturns rest := by
  have hline : withReturns line = line := withReturns_of_not_mem h
  rw [withReturns, List.flatMap_append, ← withReturns, hline, List.flatMap_cons, if_pos rfl, ← withReturns]
  simp

theorem relaid_withReturns (content : List Char) : Relaid content (withReturns content) := by
  induction hlength : content.length using Nat.strong_induction_on generalizing content with
  | h n ih =>
    by_cases hmem : '\n' ∈ content
    · obtain ⟨line, rest, rfl, hline⟩ := List.eq_append_cons_of_mem hmem
      have hshorter : rest.length < n := by
        rw [← hlength, List.length_append, List.length_cons]
        omega
      have hreturn : SettingsLine.Relaid line ([] ++ (line ++ ['\r'])) := .ends (by decide) (by decide)
      rw [withReturns_append_newline hline]
      exact .cons hline hreturn (ih rest.length hshorter rest rfl)
    · have hsame : SettingsLine.Relaid content ([] ++ (content ++ [])) := .ends (by decide) (by decide)
      rw [List.append_nil] at hsame
      rw [withReturns_of_not_mem hmem]
      exact .last hmem hsame

/-- The layout of a file makes no difference, on top of any settings: laid out anew it leads to the same
settings and the same reports.  In particular it does not matter whether lines end with a carriage return. -/
theorem read_relaid (s : Settings) (source : String) :
    (∀ content content', Relaid content content' → s.read source content' = s.read source content) ∧
      ∀ content, Relaid content (withReturns content) ∧
        s.read source (withReturns content) = s.read source content :=
  ⟨fun _ _ h => h.read_eq s source,
    fun content => ⟨relaid_withReturns content, (relaid_withReturns content).read_eq s source⟩⟩

-- Around the equals sign of a comment or a broken header nothing is put: the report of the header quotes it.
theorem read_relaid_each_kind :
    let content := "[Sleep]\n#a=b\n[c=d\nSuspendMode=x  y\nAllowSuspend=may be\n".toList
    let content' := ("\t[Sleep] \r\n #a=b\n[c=d\u00a0\nSuspendMode \u2003= x  y\u000b\n" ++
      " AllowSuspend\r=\u2028may be\n ").toList
    Relaid content content' ∧
      empty.read "f" content' =
        ⟨{ empty with modes := ⟨["x", "y"], [], []⟩ },
          [.lineFault "f" 3 (.malformedHeader "[c=d"),
            .lineFault "f" 5 (.invalidValue (.allow .suspend) "may be")]⟩ := by
  intro content content'
  have hheader : SettingsLine.Relaid "[Sleep]".toList (['\t'] ++ ("[Sleep]".toList ++ [' ', '\r'])) :=
    .ends (by decide) (by decide)
  have hcomment : SettingsLine.Relaid "#a=b".toList ([' '] ++ ("#a=b".toList ++ [])) :=
    .ends (by decide) (by decide)
  have hbroken : SettingsLine.Relaid "[c=d".toList ([] ++ ("[c=d".toList ++ ['\u00a0'])) :=
    .ends (by decide) (by decide)
  have hmode : SettingsLine.Relaid ("SuspendMode".toList ++ '=' :: "x  y".toList)
      ([] ++ ("SuspendMode".toList ++ [' ', '\u2003'] ++ '=' :: ([' '] ++ "x  y".toList) ++ ['\u000b'])) :=
    .equals (by decide) (by decide) (by decide) (by decide) (by decide) (by decide)
  have hallow : SettingsLine.Relaid ("AllowSuspend".toList ++ '=' :: "may be".toList)
      ([' '] ++ ("AllowSuspend".toList ++ ['\r'] ++ '=' :: (['\u2028'] ++ "may be".toList) ++ [])) :=
    .equals (by decide) (by decide) (by decide) (by decide) (by decide) (by decide)
  have hend : SettingsLine.Relaid [] ([] ++ ([] ++ [' '])) := .ends (by decide) (by decide)
  have hrelaid : Relaid content content' :=
    .cons (by decide) hheader <| .cons (by decide) hcomment <| .cons (by decide) hbroken <|
      .cons (by decide) hmode <| .cons (by decide) hallow <| .last (by decide) hend
  refine ⟨hrelaid, ?_⟩
  rw [(read_relaid empty "f").1 content content' hrelaid]
  decide +kernel

end Settings

end SleepPolicy
