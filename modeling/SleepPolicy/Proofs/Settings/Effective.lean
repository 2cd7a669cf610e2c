import Mathlib.Data.List.TakeWhile
import SleepPolicy.Proofs.Settings.WrittenLine
import SleepPolicy.Settings.Read

/-!
# Effective lines

Which lines of a file take effect, said of the place of a line in its file: the last header above it
has to be that of the section.  Reading carries the section from line to line instead, and finds just
the assignments of the effective lines, in order.  It begins every file outside all sections, so several
files assign what their effective lines assign, one file after the other.

## 1. Headers
-/

namespace SleepPolicy

namespace SettingsLine

/-- Between brackets, the two of which are not one and the same. -/
def isHeader (line : List Char) : Bool :=
  line.head? == some '[' && line.tail.getLast? == some ']'

theorem isHeader_iff {line : List Char} :
    isHeader line = true ↔ ∃ name, line = '[' :: (name ++ [']']) := by
  simp only [isHeader, Bool.and_eq_true, beq_iff_eq]
  constructor
  · rintro ⟨hopen, hclose⟩
    obtain ⟨rest, rfl⟩ := List.head?_eq_some_iff.mp hopen
    obtain ⟨name, hname⟩ := List.getLast?_eq_some_iff.mp hclose
    exact ⟨name, by rw [← hname, List.tail_cons]⟩
  · rintro ⟨name, rfl⟩
    exact ⟨rfl, by rw [List.tail_cons, List.getLast?_concat]⟩

theorem ofTrimmed_brackets (name : List Char) :
    ofTrimmed ('[' :: (name ++ [']'])) = header (String.ofList name) := by
  have hname : headerName? (name ++ [']']) = some name := by
    rw [headerName?, List.getLast?_concat, if_pos rfl, List.dropLast_concat]
  rw [ofTrimmed, hname]

theorem isHeader_of_ofTrimmed {line : List Char} {name : String}
    (h : ofTrimmed line = header name) : isHeader line = true := by
  unfold ofTrimmed at h
  split at h
  · cases h
  · cases h
  · cases h
  · split at h
    · rename_i rest _ name hname
      have hclose : rest.getLast? = some ']' := by
        unfold headerName? at hname
        split at hname
        · assumption
        · cases hname
      rw [isHeader, List.tail_cons, hclose]
      rfl
    · cases h
  · split at h <;> cases h

theorem splitEquals?_eq (text : List Char) :
    splitEquals? text =
      if '=' ∈ text then some (text.takeWhile (· != '='), (text.dropWhile (· != '=')).tail)
      else none := by
  have hnil : text.dropWhile (· != '=') = [] ↔ '=' ∉ text := by
    rw [List.dropWhile_eq_nil_iff]
    simp only [bne_iff_ne]
    exact ⟨fun h hmem => h '=' hmem rfl, fun h c hc heq => h (heq ▸ hc)⟩
  rw [splitEquals?]
  cases hdrop : text.dropWhile (· != '=') with
  | nil => rw [if_neg (hnil.mp hdrop)]
  | cons c value =>
    have hmem : '=' ∈ text := by
      refine Decidable.of_not_not fun hnot => ?_
      rw [hnil.mpr hnot] at hdrop
      cases hdrop
    rw [if_pos hmem, List.tail_cons]

end SettingsLine

/-! ## 2. Effective lines -/

/-- A key and a value, as texts. -/
structure SettingsEntry where
  key : List Char
  value : List Char
  deriving DecidableEq, Repr

namespace SettingsEntry

/-- What is assigned, if the key is known and the value is accepted. -/
def assignment? (e : SettingsEntry) : Option Assignment :=
  (Key.ofName? (String.ofList e.key)).bind fun key => Assignment.read? key e.value

/-- The last header among some lines. -/
def lastHeader? (above : List (List Char)) : Option (List Char) :=
  (above.filter SettingsLine.isHeader).getLast?

/-- Neither blank nor a comment nor like a header, with an equals sign, and the last header above is
that of the section. -/
def IsEffective (above : List (List Char)) (line : List Char) : Prop :=
  line ≠ [] ∧ (∀ c ∈ ['#', ';', '['], line.head? ≠ some c) ∧ '=' ∈ line ∧
    lastHeader? above = some "[Sleep]".toList

instance (above : List (List Char)) (line : List Char) : Decidable (IsEffective above line) :=
  inferInstanceAs (Decidable (_ ∧ _))

/-- The entry of an effective line: the texts around its first equals sign. -/
def ofLine? (above : List (List Char)) (line : List Char) : Option SettingsEntry :=
  if IsEffective above line then
    some ⟨Text.trim (line.takeWhile (· != '=')), Text.trim (line.dropWhile (· != '=')).tail⟩
  else none

/-- The entries of the effective lines of a file, in order. -/
def inContent (content : List Char) : List SettingsEntry :=
  let ls := (Text.lines content).map Text.trim
  ls.zipIdx.filterMap fun (line, i) => ofLine? (ls.take i) line

/-- The entries of several files, each with its source, one file after the other. -/
def inParts (parts : List (String × List Char)) : List SettingsEntry :=
  parts.flatMap fun (_, content) => inContent content

end SettingsEntry

/-! ## 3. The section that is carried along -/

namespace Finding

/-- The section that is open below some lines. -/
def sectionBelow (above : List (List Char)) : Option String :=
  (SettingsEntry.lastHeader? above).map fun line => String.ofList line.tail.dropLast

theorem lastHeader?_concat (above : List (List Char)) (line : List Char) :
    SettingsEntry.lastHeader? (above ++ [line]) =
      if SettingsLine.isHeader line then some line else SettingsEntry.lastHeader? above := by
  rw [SettingsEntry.lastHeader?, List.filter_append, List.filter_cons, List.filter_nil]
  split
  · rw [List.getLast?_concat]
  · rw [List.append_nil, SettingsEntry.lastHeader?]

theorem sectionBelow_concat (above : List (List Char)) (line : List Char) :
    sectionBelow (above ++ [line]) =
      sectionAfter (sectionBelow above) (SettingsLine.ofTrimmed line) := by
  rw [sectionBelow, lastHeader?_concat]
  split
  · rename_i h
    obtain ⟨name, rfl⟩ := SettingsLine.isHeader_iff.mp h
    rw [SettingsLine.ofTrimmed_brackets, Option.map_some, List.tail_cons, List.dropLast_concat]
    rfl
  · rename_i h
    cases hline : SettingsLine.ofTrimmed line with
    | header name => exact absurd (SettingsLine.isHeader_of_ofTrimmed hline) h
    | _ => rfl

theorem sectionBelow_eq_section_iff {above : List (List Char)} :
    sectionBelow above = some Key.sectionName ↔
      SettingsEntry.lastHeader? above = some "[Sleep]".toList := by
  rw [sectionBelow, Option.map_eq_some_iff]
  constructor
  · rintro ⟨line, hline, hname⟩
    -- A header is its name between the brackets, so only `[Sleep]` has the name of the section.
    have hmem : line ∈ above.filter SettingsLine.isHeader := List.mem_of_getLast? hline
    obtain ⟨name, rfl⟩ := SettingsLine.isHeader_iff.mp (List.mem_filter.mp hmem).2
    rw [List.tail_cons, List.dropLast_concat] at hname
    obtain rfl : name = Key.sectionName.toList := by rw [← hname, String.toList_ofList]
    exact hline
  · intro h
    exact ⟨_, h, by decide⟩

/-! ## 4. Findings and entries -/

theorem assignment?_ofEntry (key value : List Char) :
    (ofEntry key value).assignment? = SettingsEntry.assignment? ⟨key, value⟩ := by
  unfold ofEntry SettingsEntry.assignment?
  cases Key.ofName? (String.ofList key) with
  | none => rfl
  | some k =>
    simp only [Option.bind_some]
    cases Assignment.read? k value <;> rfl

theorem assignment?_ofLine_entry (current : Option String) (key value : List Char) :
    (ofLine current (.entry key value)).bind assignment? =
      if current = some Key.sectionName then SettingsEntry.assignment? ⟨key, value⟩ else none := by
  unfold ofLine
  cases current with
  | none => rfl
  | some name =>
    simp only [Option.some.injEq]
    split
    · exact assignment?_ofEntry key value
    · rfl

-- A header may be reported, but it assigns nothing.
theorem assignment?_ofLine_header (current : Option String) (name : String) :
    (ofLine current (.header name)).bind assignment? = none := by
  rw [ofLine]
  split <;> rfl

theorem assignment?_ofLine_marked (current : Option String) {c : Char} (hc : c ∈ ['#', ';', '['])
    (rest : List Char) :
    (ofLine current (SettingsLine.ofTrimmed (c :: rest))).bind assignment? = none := by
  simp only [List.mem_cons, List.not_mem_nil, or_false] at hc
  obtain rfl | rfl | rfl := hc
  · rfl
  · rfl
  · rw [SettingsLine.ofTrimmed]
    cases SettingsLine.headerName? rest with
    | none => rfl
    | some name => exact assignment?_ofLine_header _ _

theorem assignment?_ofLine_plain (current : Option String) {c : Char} (hc : c ∉ ['#', ';', '['])
    (rest : List Char) :
    (ofLine current (SettingsLine.ofTrimmed (c :: rest))).bind assignment? =
      if '=' ∈ c :: rest ∧ current = some Key.sectionName then
        SettingsEntry.assignment? ⟨Text.trim ((c :: rest).takeWhile (· != '=')),
          Text.trim ((c :: rest).dropWhile (· != '=')).tail⟩
      else none := by
  rw [SettingsLine.ofTrimmed_cons hc, SettingsLine.splitEquals?_eq]
  by_cases hequals : '=' ∈ c :: rest
  · simp only [hequals, true_and]
    exact assignment?_ofLine_entry _ _ _
  · simp only [hequals, false_and, if_false]
    rfl

/-- A line assigns what its entry assigns, and nothing if it is not effective. -/
theorem assignment?_ofLine (above : List (List Char)) (line : List Char) :
    (ofLine (sectionBelow above) (SettingsLine.ofTrimmed line)).bind assignment? =
      (SettingsEntry.ofLine? above line).bind SettingsEntry.assignment? := by
  rw [SettingsEntry.ofLine?]
  cases line with
  | nil =>
    rw [if_neg fun h => h.1 rfl]
    rfl
  | cons c rest =>
    by_cases hc : c ∈ ['#', ';', '[']
    · rw [if_neg fun h => h.2.1 c hc rfl, assignment?_ofLine_marked _ hc]
      rfl
    · have heffective : SettingsEntry.IsEffective above (c :: rest) ↔
          '=' ∈ c :: rest ∧ sectionBelow above = some Key.sectionName := by
        rw [sectionBelow_eq_section_iff]
        refine ⟨fun h => h.2.2, fun h => ⟨List.cons_ne_nil c rest, ?_, h⟩⟩
        intro d hd heq
        exact hc (Option.some.inj heq ▸ hd)
      simp only [assignment?_ofLine_plain _ hc, heffective]
      split <;> rfl

-- By induction on the lines that are left; `above` holds those that have been passed.
theorem filterMap_ofLines (above rest : List (List Char)) :
    ((ofLines (sectionBelow above) (rest.map SettingsLine.ofTrimmed)).filterMap
        fun finding => finding.bind assignment?) =
      ((rest.zipIdx above.length).filterMap fun (line, i) =>
        SettingsEntry.ofLine? ((above ++ rest).take i) line).filterMap SettingsEntry.assignment? := by
  induction rest generalizing above with
  | nil => rfl
  | cons line rest ih =>
    have hstep := ih (above ++ [line])
    rw [sectionBelow_concat, List.length_append, List.length_singleton, List.append_assoc,
      List.singleton_append] at hstep
    rw [List.map_cons, ofLines, List.zipIdx_cons, List.filterMap_cons, List.filterMap_cons, hstep,
      assignment?_ofLine]
    simp only [List.take_left']
    cases SettingsEntry.ofLine? above line with
    | none => rfl
    | some e => simp only [Option.bind_some, List.filterMap_cons]

end Finding

/-! ## 5. Files -/

namespace Settings

theorem assignmentsIn_eq (content : List Char) :
    assignmentsIn content =
      (SettingsEntry.inContent content).filterMap SettingsEntry.assignment? := by
  have htrim : (Text.lines content).map SettingsLine.ofText =
      ((Text.lines content).map Text.trim).map SettingsLine.ofTrimmed := by
    rw [List.map_map]
    rfl
  rw [assignmentsIn, Finding.ofContent, htrim]
  exact Finding.filterMap_ofLines [] _

/-- Reads files with their sources, in order and from the start. -/
def readParts (parts : List (String × List Char)) : Settings :=
  parts.foldl (fun s (source, content) => (s.read source content).value) Settings.empty

theorem readParts_eq (parts : List (String × List Char)) :
    readParts parts =
      ((SettingsEntry.inParts parts).filterMap SettingsEntry.assignment?).foldl assign .empty := by
  rw [SettingsEntry.inParts, List.filterMap_flatMap, List.foldl_flatMap]
  unfold readParts
  congr 1
  funext s (source, content)
  rw [← assignmentsIn_eq]
  rfl

end Settings

end SleepPolicy
