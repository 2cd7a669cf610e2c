import SleepPolicy.Proofs.Settings.Composition

/-!
# Reported lines

A file is reported line by line, each line at most once and in order.  A line that is reported has no
effect, unless it is the header of an unknown section: it can be emptied, and the settings and all other
reports stay as they are.

## 1. Findings by line feeds
-/

namespace SleepPolicy

namespace Fault

def isUnknownSection : Fault → Bool
  | unknownSection _ => true
  | _ => false

end Fault

namespace Event

/-- The line of a settings file that is reported. -/
def faultLine? : Event → Option Nat
  | lineFault _ n _ => some n
  | _ => none

def isUnknownSection : Event → Bool
  | lineFault _ _ f => f.isUnknownSection
  | _ => false

/-- The line that is reported, unless it is the header of an unknown section. -/
def strayLine? (e : Event) : Option Nat :=
  if e.isUnknownSection then none else e.faultLine?

end Event

namespace Finding

/-- The findings for the pieces between the line feeds.  Behind the last line feed there may be an empty
piece that is no line, and it comes to nothing. -/
def ofPieces (content : List Char) : List (Option Finding) :=
  ofLines none ((content.splitOnP (· == '\n')).map SettingsLine.ofText)

theorem length_ofLines (current : Option String) (ls : List SettingsLine) :
    (ofLines current ls).length = ls.length := by
  induction ls generalizing current with
  | nil => rfl
  | cons line ls ih => rw [ofLines, List.length_cons, ih, List.length_cons]

theorem ofLines_concat_empty (current : Option String) (ls : List SettingsLine) :
    ofLines current (ls ++ [.empty]) = ofLines current ls ++ [none] := by
  induction ls generalizing current with
  | nil => rfl
  | cons line ls ih => rw [List.cons_append, ofLines, ih, ofLines, List.cons_append]

theorem ofText_dropReturn (line : List Char) :
    SettingsLine.ofText (Text.dropReturn line) = SettingsLine.ofText line := by
  rw [SettingsLine.ofText, SettingsEntry.trim_dropReturn, SettingsLine.ofText]

theorem ofPieces_eq (content : List Char) :
    ofPieces content = ofContent content ∨ ofPieces content = ofContent content ++ [none] := by
  obtain ⟨pieces, last, hs⟩ := Text.exists_splitOnP_eq content
  have hlines : (pieces.map Text.dropReturn).map SettingsLine.ofText =
      pieces.map SettingsLine.ofText := by
    rw [List.map_map]
    exact List.map_congr_left fun line _ => ofText_dropReturn line
  rw [ofPieces, ofContent, hs, Text.lines_of_splitOnP hs, List.map_append, List.map_append, hlines]
  cases last with
  | nil =>
    right
    rw [← ofLines_concat_empty]
    simp
    rfl
  | cons c last => exact .inl rfl

theorem sectionAfter_of_fault {current : Option String} {line : SettingsLine} {f : Fault}
    (h : ofLine current line = some (.fault f)) (hf : f.isUnknownSection = false)
    (above : Option String) : sectionAfter above line = above := by
  cases line with
  | header name =>
    rw [ofLine] at h
    split at h
    · cases h
    · cases h
      cases hf
  | _ => rfl

theorem exists_getElem?_of_ofLines {current : Option String} {ls : List SettingsLine} {i : Nat}
    {finding : Option Finding} (h : (ofLines current ls)[i]? = some finding) :
    ∃ above line, ls[i]? = some line ∧ finding = ofLine above line := by
  induction ls generalizing current i with
  | nil => simp [ofLines] at h
  | cons line ls ih =>
    cases i with
    | zero => exact ⟨current, line, rfl, (Option.some.inj h).symm⟩
    | succ i => exact ih h

/-- Emptying lines takes their findings away and leaves the others, if all that was found in them are
faults that do not open a section. -/
theorem zipIdx_ofLines_emptied {ns : List Nat} (current : Option String) (k : Nat)
    (pieces : List (List Char))
    (h : ∀ finding n, (finding, n) ∈ (ofLines current (pieces.map SettingsLine.ofText)).zipIdx k →
      n ∈ ns → ∃ f, finding = some (.fault f) ∧ f.isUnknownSection = false) :
    (ofLines current (((pieces.zipIdx k).map fun (line, n) => if n ∈ ns then [] else line).map
        SettingsLine.ofText)).zipIdx k =
      ((ofLines current (pieces.map SettingsLine.ofText)).zipIdx k).map fun (finding, n) =>
        (if n ∈ ns then none else finding, n) := by
  induction pieces generalizing current k with
  | nil => rfl
  | cons piece pieces ih =>
    simp only [List.map_cons, ofLines, List.zipIdx_cons] at h ⊢
    have hrest := ih (sectionAfter current (SettingsLine.ofText piece)) (k + 1)
      fun finding n hmem => h finding n (List.mem_cons_of_mem _ hmem)
    by_cases hk : k ∈ ns
    · obtain ⟨f, hfinding, hf⟩ := h _ k List.mem_cons_self hk
      -- The line leaves the section open that was open above it, as an empty line does.
      rw [sectionAfter_of_fault hfinding hf current] at hrest ⊢
      rw [if_pos hk, if_pos hk, ← hrest]
      rfl
    · rw [if_neg hk, if_neg hk, ← hrest]

end Finding

/-! ## 2. Reports -/

namespace Settings

theorem assignmentsIn_eq_ofPieces (content : List Char) (k : Nat) :
    assignmentsIn content = ((Finding.ofPieces content).zipIdx k).filterMap fun (finding, _) =>
      finding.bind Finding.assignment? := by
  have hzip : ((Finding.ofPieces content).zipIdx k).filterMap
      (fun (finding, _) => finding.bind Finding.assignment?) =
        (Finding.ofPieces content).filterMap fun finding => finding.bind Finding.assignment? := by
    conv_rhs => rw [← List.zipIdx_map_fst k (Finding.ofPieces content), List.filterMap_map]
    rfl
  rw [hzip, assignmentsIn]
  rcases Finding.ofPieces_eq content with h | h
  · rw [h]
  · rw [h, List.filterMap_append]
    exact (List.append_nil _).symm

theorem faultsIn_eq_ofPieces (content : List Char) :
    faultsIn content = ((Finding.ofPieces content).zipIdx 1).filterMap fun (finding, n) =>
      (finding.bind Finding.fault?).map fun f => (n, f) := by
  rw [faultsIn]
  rcases Finding.ofPieces_eq content with h | h
  · rw [h]
  · rw [h, List.zipIdx_append, List.filterMap_append]
    exact (List.append_nil _).symm

theorem mem_filterMap_fault {findings : List (Option Finding)} {n : Nat} {f : Fault} :
    ((n, f) ∈ (findings.zipIdx 1).filterMap fun (finding, n) =>
      (finding.bind Finding.fault?).map fun f => (n, f)) ↔
        (some (.fault f), n) ∈ findings.zipIdx 1 := by
  rw [List.mem_filterMap]
  constructor
  · rintro ⟨⟨finding, m⟩, hmem, hfault⟩
    obtain ⟨g, hg, heq⟩ := Option.map_eq_some_iff.mp hfault
    cases heq
    obtain ⟨_ | g, rfl, hg⟩ := Option.bind_eq_some_iff.mp hg
    · cases hg
    · cases hg
      exact hmem
  · exact fun hmem => ⟨_, hmem, rfl⟩

theorem mem_faultsIn {content : List Char} {n : Nat} {f : Fault} :
    (n, f) ∈ faultsIn content ↔
      1 ≤ n ∧ (Finding.ofContent content)[n - 1]? = some (some (.fault f)) := by
  rw [faultsIn, mem_filterMap_fault, List.mk_mem_zipIdx_iff_le_and_getElem?_sub]

theorem mem_faultsIn_ofPieces {content : List Char} {n : Nat} {f : Fault} :
    (n, f) ∈ faultsIn content ↔
      1 ≤ n ∧ (Finding.ofPieces content)[n - 1]? = some (some (.fault f)) := by
  rw [faultsIn_eq_ofPieces, mem_filterMap_fault, List.mk_mem_zipIdx_iff_le_and_getElem?_sub]

/-- The numbers of the reported lines rise. -/
theorem faultsIn_ascending (content : List Char) :
    (faultsIn content).Pairwise fun a b => a.1 < b.1 := by
  have hnumbers : ((Finding.ofContent content).zipIdx 1).Pairwise fun a b => a.2 < b.2 := by
    rw [← List.pairwise_map, List.zipIdx_map_snd]
    exact List.pairwise_lt_range'
  rw [faultsIn, List.pairwise_filterMap]
  refine hnumbers.imp ?_
  rintro ⟨x, m⟩ ⟨y, n⟩ hlt a ha b hb
  obtain ⟨f, -, rfl⟩ := Option.map_eq_some_iff.mp ha
  obtain ⟨g, -, rfl⟩ := Option.map_eq_some_iff.mp hb
  exact hlt

theorem le_of_mem_faultsIn {content : List Char} {n : Nat} {f : Fault}
    (h : (n, f) ∈ faultsIn content) : 1 ≤ n ∧ n ≤ (Text.lines content).length := by
  obtain ⟨hpos, hget⟩ := mem_faultsIn.mp h
  have hlt := (List.getElem?_eq_some_iff.mp hget).1
  rw [Finding.ofContent, Finding.length_ofLines, List.length_map] at hlt
  omega

theorem fault_unique {content : List Char} {n : Nat} {f g : Fault} (hf : (n, f) ∈ faultsIn content)
    (hg : (n, g) ∈ faultsIn content) : f = g := by
  have hfg := (mem_faultsIn.mp hg).2
  rw [(mem_faultsIn.mp hf).2] at hfg
  cases hfg
  rfl

/-- A reported line leaves the section open that was open above it. -/
theorem sectionBelow_of_fault {content : List Char} {n : Nat} {f : Fault}
    (h : (n, f) ∈ faultsIn content) (hf : f.isUnknownSection = false) :
    Finding.sectionBelow (((Text.lines content).map Text.trim).take n) =
      Finding.sectionBelow (((Text.lines content).map Text.trim).take (n - 1)) := by
  obtain ⟨hpos, hget⟩ := mem_faultsIn.mp h
  obtain ⟨m, rfl⟩ := Nat.exists_eq_add_of_le' hpos
  obtain ⟨above, line, hline, hfinding⟩ := Finding.exists_getElem?_of_ofLines hget
  obtain ⟨text, htext, rfl⟩ := Option.map_eq_some_iff.mp (List.getElem?_map.symm.trans hline)
  have htake : ((Text.lines content).map Text.trim).take (m + 1) =
      ((Text.lines content).map Text.trim).take m ++ [Text.trim text] := by
    rw [List.take_add_one, List.getElem?_map]
    rw [Nat.add_sub_cancel] at htext
    rw [htext]
    rfl
  rw [htake, Nat.add_sub_cancel, Finding.sectionBelow_concat]
  exact Finding.sectionAfter_of_fault hfinding.symm hf _

/-! ## 3. Emptied lines -/

section Emptied

variable {content : List Char} {ns : List Nat}
  (h : ∀ n ∈ ns, ∃ f, (n, f) ∈ faultsIn content ∧ f.isUnknownSection = false)

include h

-- There is one finding for each line.
theorem exists_fault_of_mem {finding : Option Finding} {n : Nat}
    (hmem : (finding, n) ∈ (Finding.ofPieces content).zipIdx 1) (hn : n ∈ ns) :
    ∃ f, finding = some (.fault f) ∧ f.isUnknownSection = false := by
  obtain ⟨f, hf, hknown⟩ := h n hn
  have hfault := (mem_faultsIn_ofPieces.mp hf).2
  rw [(List.mk_mem_zipIdx_iff_le_and_getElem?_sub.mp hmem).2] at hfault
  exact ⟨f, Option.some.inj hfault, hknown⟩

theorem zipIdx_ofPieces_emptied :
    (Finding.ofPieces (Text.emptied ns content)).zipIdx 1 =
      ((Finding.ofPieces content).zipIdx 1).map fun (finding, n) =>
        (if n ∈ ns then none else finding, n) := by
  rw [Finding.ofPieces, Text.splitOnP_emptied]
  exact Finding.zipIdx_ofLines_emptied none 1 _ fun _ _ => exists_fault_of_mem h

theorem assignmentsIn_emptied : assignmentsIn (Text.emptied ns content) = assignmentsIn content := by
  rw [assignmentsIn_eq_ofPieces _ 1, assignmentsIn_eq_ofPieces _ 1, zipIdx_ofPieces_emptied h,
    List.filterMap_map]
  apply List.filterMap_congr
  rintro ⟨finding, n⟩ hmem
  by_cases hn : n ∈ ns
  · obtain ⟨f, rfl, -⟩ := exists_fault_of_mem h hmem hn
    simp only [Function.comp_apply, if_pos hn]
    rfl
  · simp only [Function.comp_apply, if_neg hn]

theorem faultsIn_emptied :
    faultsIn (Text.emptied ns content) = (faultsIn content).filter fun (n, _) => n ∉ ns := by
  rw [faultsIn_eq_ofPieces, faultsIn_eq_ofPieces, zipIdx_ofPieces_emptied h, List.filterMap_map,
    List.filter_filterMap]
  apply List.filterMap_congr
  rintro ⟨finding, n⟩ -
  rcases finding with _ | (a | f)
  · simp
  · by_cases hn : n ∈ ns <;> simp [hn, Finding.fault?]
  · by_cases hn : n ∈ ns <;> simp [hn, Finding.fault?, Option.filter_some]

/-- A file without some of its reported lines is read alike, and only those lines are not reported. -/
theorem read_emptied (s : Settings) (source : String) :
    s.read source (Text.emptied ns content) =
      ⟨(s.read source content).value,
        (s.read source content).log.filter fun e => ∀ n ∈ ns, e.faultLine? ≠ some n⟩ := by
  have hlog : ((faultsIn content).filter fun (n, _) => n ∉ ns) =
      (faultsIn content).filter ((fun e => decide (∀ n ∈ ns, e.faultLine? ≠ some n)) ∘
        fun (n, f) => Event.lineFault source n f) := by
    apply List.filter_congr
    rintro ⟨n, f⟩ -
    simp [Event.faultLine?, imp_not_comm]
  unfold read
  rw [assignmentsIn_emptied h, faultsIn_emptied h, List.filter_map, hlog]

end Emptied

/-! ## 4. Reading -/

section Read

variable (s : Settings) (source : String) {content : List Char}

theorem mem_log_read {e : Event} :
    e ∈ (s.read source content).log ↔
      ∃ n f, (n, f) ∈ faultsIn content ∧ e = .lineFault source n f := by
  rw [read, List.mem_map]
  constructor
  · rintro ⟨⟨n, f⟩, hmem, rfl⟩
    exact ⟨n, f, hmem, rfl⟩
  · rintro ⟨n, f, hmem, rfl⟩
    exact ⟨(n, f), hmem, rfl⟩

theorem mem_strayLines {n : Nat} :
    n ∈ (s.read source content).log.filterMap Event.strayLine? ↔
      ∃ f, (n, f) ∈ faultsIn content ∧ f.isUnknownSection = false := by
  simp only [List.mem_filterMap, mem_log_read]
  constructor
  · rintro ⟨_, ⟨m, f, hmem, rfl⟩, hline⟩
    unfold Event.strayLine? at hline
    split at hline
    · cases hline
    · rename_i hknown
      cases hline
      exact ⟨f, hmem, by simpa [Event.isUnknownSection] using hknown⟩
  · rintro ⟨f, hmem, hknown⟩
    exact ⟨_, ⟨n, f, hmem, rfl⟩, by simp [Event.strayLine?, Event.isUnknownSection, hknown,
      Event.faultLine?]⟩

end Read

/-- What the reports of a file say about its lines, on top of any settings.  Each line is reported at most
once, in order, and without the reported lines the file is read alike; only the headers of unknown sections
are reported still.  No such line changes the section that is open. -/
theorem read_reports (s : Settings) (source : String) (content : List Char) :
    let run := s.read source content
    let stray := run.log.filterMap Event.strayLine?
    let ls := (Text.lines content).map Text.trim
    (∀ e ∈ run.log, e.level = .warn ∧
      ∃ n f, e = .lineFault source n f ∧ 1 ≤ n ∧ n ≤ (Text.lines content).length) ∧
    (run.log.filterMap Event.faultLine?).Pairwise (· < ·) ∧
    s.read source (Text.emptied stray content) =
      ⟨run.value, run.log.filter Event.isUnknownSection⟩ ∧
    (∀ n ∈ stray, s.read source (Text.emptied [n] content) =
      ⟨run.value, run.log.filter (·.faultLine? ≠ some n)⟩) ∧
    (∀ n ∈ stray, Finding.sectionBelow (ls.take n) = Finding.sectionBelow (ls.take (n - 1))) := by
  intro run stray ls
  refine ⟨fun e he => ?_, ?_, ?_, fun n hn => ?_, fun n hn => ?_⟩
  · obtain ⟨n, f, hmem, rfl⟩ := (mem_log_read s source).mp he
    exact ⟨rfl, n, f, rfl, le_of_mem_faultsIn hmem⟩
  · have hlines : run.log.filterMap Event.faultLine? = (faultsIn content).map Prod.fst := by
      simp only [run, read, List.filterMap_map]
      exact congrFun (List.filterMap_eq_map (f := Prod.fst)) _
    rw [hlines, List.pairwise_map]
    exact faultsIn_ascending content
  · rw [read_emptied fun n hn => (mem_strayLines s source).mp hn]
    congr 1
    apply List.filter_congr
    intro e he
    obtain ⟨n, f, hmem, rfl⟩ := (mem_log_read s source).mp he
    rw [Event.isUnknownSection, Bool.eq_iff_iff, decide_eq_true_eq]
    constructor
    · intro hnot
      by_contra hknown
      exact hnot n ((mem_strayLines s source).mpr ⟨f, hmem, by simpa using hknown⟩) rfl
    · rintro hunknown m hm heq
      obtain rfl : n = m := Option.some.inj heq
      obtain ⟨g, hg, hknown⟩ := (mem_strayLines s source).mp hm
      rw [fault_unique hmem hg, hknown] at hunknown
      cases hunknown
  · rw [read_emptied fun m hm => (mem_strayLines s source).mp (List.mem_singleton.mp hm ▸ hn)]
    simp only [List.mem_singleton, forall_eq]
    rfl
  · obtain ⟨f, hmem, hf⟩ := (mem_strayLines s source).mp hn
    exact sectionBelow_of_fault hmem hf

-- A line of every kind that is reported, with an unknown section and a malformed header on the way to the
-- header that counts.
theorem read_reports_each_kind :
    let content :=
      "AllowSuspend=no\n[Unit]\nx=1\nwords\n[Sleep\n[Sleep]\nAllowSuspend=maybe\r\nx=1\n".toList
    let cleaned := "\n[Unit]\nx=1\n\n\n[Sleep]\n\n\n".toList
    let s : Settings := { empty with allow := .fill .allow }
    let run := s.read "f" content
    run.log.filterMap Event.faultLine? = [1, 2, 4, 5, 7, 8] ∧
      7 ∈ run.log.filterMap Event.strayLine? ∧
      s.read "f" (Text.emptied [7] content) =
        ⟨run.value, run.log.filter (·.faultLine? ≠ some 7)⟩ ∧
      s.read "f" cleaned = ⟨s, [.lineFault "f" 2 (.unknownSection "Unit")]⟩ := by
  intro content cleaned s run
  have hrun : run = ⟨s, [.lineFault "f" 1 .outsideSection, .lineFault "f" 2 (.unknownSection "Unit"),
      .lineFault "f" 4 .missingEquals, .lineFault "f" 5 (.malformedHeader "[Sleep"),
      .lineFault "f" 7 (.invalidValue (.allow .suspend) "maybe"), .lineFault "f" 8 (.unknownKey "x")]⟩ := by
    decide +kernel
  have hlines : run.log.filterMap Event.faultLine? = [1, 2, 4, 5, 7, 8] := by
    rw [hrun]
    rfl
  have hstray : run.log.filterMap Event.strayLine? = [1, 4, 5, 7, 8] := by
    rw [hrun]
    rfl
  have hinvalid : 7 ∈ run.log.filterMap Event.strayLine? := by
    rw [hstray]
    decide
  have hcleaned : cleaned = Text.emptied (run.log.filterMap Event.strayLine?) content := by
    rw [hstray]
    decide +kernel
  have hreports := read_reports s "f" content
  refine ⟨hlines, hinvalid, hreports.2.2.2.1 7 hinvalid, ?_⟩
  have hwhole : s.read "f" (Text.emptied (run.log.filterMap Event.strayLine?) content) =
      ⟨run.value, run.log.filter Event.isUnknownSection⟩ := hreports.2.2.1
  rw [hcleaned, hwhole, hrun]
  rfl

end Settings

end SleepPolicy
