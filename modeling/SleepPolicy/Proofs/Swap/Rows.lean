import Mathlib.Data.List.Forall2
import SleepPolicy.Proofs.Text.Numeral
import SleepPolicy.Swap.Table

/-!
# Rows of the swap table

What a line of the table comes to, said of its fields, and what the table comes to, said of its lines.  The
first bad line below the heading decides that the table is not read, whatever stands above or below it.
Without a bad line there is one device for each line of a known type, in order, and each line of another
type is reported once.

## 1. Fields
-/

namespace SleepPolicy

namespace SwapRow

/-- The types of the devices that are listed. -/
def kindNames : List (List Char) := ["partition".toList, "file".toList]

/-- The second of five fields. -/
def type? (line : List Char) : Option (List Char) :=
  match Text.words line with
  | [_, type, _, _, _] => some type
  | _ => none

/-- A number with an optional sign that a signed number of 64 bits can hold. -/
def IsInteger (field : List Char) : Prop :=
  ∃ w : Int64, Text.SignedDigits field w.toInt

/-- What is wrong with a bad line: its fields are not five, though it is not blank, or it has a known type
and then a field that is no number, the first of which counts. -/
inductive HasFlaw (line : List Char) : Flaw → Prop
  | fields (hne : Text.words line ≠ []) (hlength : (Text.words line).length ≠ 5) :
      HasFlaw line (.unexpectedLine (String.ofList line))
  | number {path type size used rank field : List Char} {before after : List (List Char)}
      (hwords : Text.words line = [path, type, size, used, rank]) (htype : type ∈ kindNames)
      (hnumbers : [size, used, rank] = before ++ field :: after)
      (hbefore : ∀ g ∈ before, IsInteger g) (hfield : ¬IsInteger field) :
      HasFlaw line (.invalidNumber (String.ofList field))

def IsBad (line : List Char) : Prop :=
  ∃ flaw, HasFlaw line flaw

/-- The device of a line: negative sizes count as zero, and the priority is reduced to 32 bits. -/
inductive Shows (line : List Char) : SwapDevice → Prop
  | device {path size used rank : List Char} {kind : SwapKind} {i j k : Int64}
      (hwords : Text.words line = [path, kind.name.toList, size, used, rank])
      (hsize : Text.SignedDigits size i.toInt) (hused : Text.SignedDigits used j.toInt)
      (hrank : Text.SignedDigits rank k.toInt) :
      Shows line ⟨String.ofList (Text.unescape path), kind, UInt64.ofNat i.toInt.toNat,
        UInt64.ofNat j.toInt.toNat, k.toInt32⟩

theorem ofName?_eq_some_iff {type : List Char} {kind : SwapKind} :
    SwapKind.ofName? (String.ofList type) = some kind ↔ type = kind.name.toList := by
  constructor
  · intro h
    have hname : kind.name = String.ofList type := by
      simpa using List.find?_some h
    rw [hname, String.toList_ofList]
  · rintro rfl
    rw [String.ofList_toList]
    cases kind <;> decide

theorem mem_kindNames {type : List Char} :
    type ∈ kindNames ↔ ∃ kind : SwapKind, type = kind.name.toList := by
  constructor
  · intro h
    rcases List.mem_cons.mp h with h | h
    · exact ⟨.partition, h⟩
    · exact ⟨.file, List.mem_singleton.mp h⟩
  · rintro ⟨_ | _, rfl⟩ <;> decide

theorem number_eq_ok_iff {field : List Char} {w : Int64} :
    number field = .ok w ↔ Text.SignedDigits field w.toInt := by
  rw [← Text.integer?_eq_some_iff, number]
  cases Text.integer? field <;> simp

theorem number_eq_error_iff {field : List Char} {flaw : Flaw} :
    number field = .error flaw ↔ ¬IsInteger field ∧ flaw = .invalidNumber (String.ofList field) := by
  rw [IsInteger]
  simp only [← Text.integer?_eq_some_iff, number]
  cases Text.integer? field <;> simp [eq_comm]

section Numbers

variable {path size used rank : List Char} {kind : SwapKind}

theorem readDevice_eq_ok {i j k : Int64} (hsize : number size = .ok i) (hused : number used = .ok j)
    (hrank : number rank = .ok k) :
    readDevice path kind size used rank =
      .ok ⟨String.ofList (Text.unescape path), kind, UInt64.ofNat i.toInt.toNat,
        UInt64.ofNat j.toInt.toNat, k.toInt32⟩ := by
  simp only [readDevice, amount, priority, hsize, hused, hrank]
  rfl

theorem readDevice_bad_size {flaw : Flaw} (hsize : number size = .error flaw) :
    readDevice path kind size used rank = .error flaw := by
  simp only [readDevice, amount, hsize]
  rfl

theorem readDevice_bad_used {i : Int64} {flaw : Flaw} (hsize : number size = .ok i)
    (hused : number used = .error flaw) : readDevice path kind size used rank = .error flaw := by
  simp only [readDevice, amount, hsize, hused]
  rfl

theorem readDevice_bad_rank {i j : Int64} {flaw : Flaw} (hsize : number size = .ok i)
    (hused : number used = .ok j) (hrank : number rank = .error flaw) :
    readDevice path kind size used rank = .error flaw := by
  simp only [readDevice, amount, priority, hsize, hused, hrank]
  rfl

theorem readDevice_eq_ok_iff {d : SwapDevice} :
    readDevice path kind size used rank = .ok d ↔
      ∃ i j k : Int64, Text.SignedDigits size i.toInt ∧ Text.SignedDigits used j.toInt ∧
        Text.SignedDigits rank k.toInt ∧
        d = ⟨String.ofList (Text.unescape path), kind, UInt64.ofNat i.toInt.toNat,
          UInt64.ofNat j.toInt.toNat, k.toInt32⟩ := by
  simp only [← number_eq_ok_iff]
  constructor
  · intro h
    cases hsize : number size with
    | error flaw => rw [readDevice_bad_size hsize] at h; cases h
    | ok i =>
      cases hused : number used with
      | error flaw => rw [readDevice_bad_used hsize hused] at h; cases h
      | ok j =>
        cases hrank : number rank with
        | error flaw => rw [readDevice_bad_rank hsize hused hrank] at h; cases h
        | ok k =>
          rw [readDevice_eq_ok hsize hused hrank] at h
          exact ⟨i, j, k, rfl, rfl, rfl, (Except.ok.inj h).symm⟩
  · rintro ⟨i, j, k, hsize, hused, hrank, rfl⟩
    exact readDevice_eq_ok hsize hused hrank

/-- What is wrong with a field that is to be a number. -/
def numberFlaw? (field : List Char) : Option Flaw :=
  match number field with
  | .ok _ => none
  | .error flaw => some flaw

theorem numberFlaw?_eq_some_iff {field : List Char} {flaw : Flaw} :
    numberFlaw? field = some flaw ↔ number field = .error flaw := by
  unfold numberFlaw?
  cases number field <;> simp

theorem numberFlaw?_eq_none_iff {field : List Char} : numberFlaw? field = none ↔ IsInteger field := by
  simp only [IsInteger, ← number_eq_ok_iff]
  unfold numberFlaw?
  cases number field <;> simp

theorem readDevice_eq_error_iff_findSome? {flaw : Flaw} :
    readDevice path kind size used rank = .error flaw ↔
      [size, used, rank].findSome? numberFlaw? = some flaw := by
  cases hsize : number size with
  | error f => simp [readDevice_bad_size hsize, numberFlaw?, hsize]
  | ok i =>
    cases hused : number used with
    | error f => simp [readDevice_bad_used hsize hused, numberFlaw?, hsize, hused]
    | ok j =>
      cases hrank : number rank with
      | error f => simp [readDevice_bad_rank hsize hused hrank, numberFlaw?, hsize, hused, hrank]
      | ok k => simp [readDevice_eq_ok hsize hused hrank, numberFlaw?, hsize, hused, hrank]

theorem readDevice_eq_error_iff {flaw : Flaw} :
    readDevice path kind size used rank = .error flaw ↔
      ∃ before field after, [size, used, rank] = before ++ field :: after ∧
        (∀ g ∈ before, IsInteger g) ∧ number field = .error flaw := by
  simp only [readDevice_eq_error_iff_findSome?, List.findSome?_eq_some_iff, numberFlaw?_eq_some_iff,
    numberFlaw?_eq_none_iff, and_comm]

end Numbers

/-! ## 2. Lines -/

section Line

variable {line : List Char}

theorem ofLine_of_words_nil (hwords : Text.words line = []) : ofLine line = .blank := by
  rw [ofLine, hwords]

theorem type?_of_length_ne (hlength : (Text.words line).length ≠ 5) : type? line = none := by
  unfold type?
  split
  · simp [*] at hlength
  · rfl

theorem ofLine_of_length_ne (hne : Text.words line ≠ []) (hlength : (Text.words line).length ≠ 5) :
    ofLine line = .flawed (.unexpectedLine (String.ofList line)) := by
  unfold ofLine
  split
  · exact absurd ‹_› hne
  · simp [*] at hlength
  · rfl

variable {path type size used rank : List Char}

theorem type?_of_words (hwords : Text.words line = [path, type, size, used, rank]) :
    type? line = some type := by
  simp only [type?, hwords]

theorem ofLine_of_not_mem (hwords : Text.words line = [path, type, size, used, rank])
    (htype : type ∉ kindNames) : ofLine line = .unsupported (String.ofList type) := by
  have hkind : SwapKind.ofName? (String.ofList type) = none := by
    rw [Option.eq_none_iff_forall_ne_some]
    intro kind h
    exact htype (mem_kindNames.mpr ⟨kind, ofName?_eq_some_iff.mp h⟩)
  simp only [ofLine, hwords, hkind]

section Kind

variable {kind : SwapKind} (hwords : Text.words line = [path, kind.name.toList, size, used, rank])

include hwords

theorem ofLine_of_readDevice_eq_ok {d : SwapDevice} (hread : readDevice path kind size used rank = .ok d) :
    ofLine line = .device d := by
  simp only [ofLine, hwords, ofName?_eq_some_iff.mpr rfl, hread]

theorem ofLine_of_readDevice_eq_error {flaw : Flaw}
    (hread : readDevice path kind size used rank = .error flaw) : ofLine line = .flawed flaw := by
  simp only [ofLine, hwords, ofName?_eq_some_iff.mpr rfl, hread]

end Kind

/-- The kinds of lines. -/
theorem line_cases (line : List Char) :
    Text.words line = [] ∨ (Text.words line ≠ [] ∧ (Text.words line).length ≠ 5) ∨
      ∃ path type size used rank, Text.words line = [path, type, size, used, rank] ∧
        (type ∉ kindNames ∨ ∃ kind : SwapKind, type = kind.name.toList) := by
  by_cases hlength : (Text.words line).length = 5
  · right; right
    rcases hwords : Text.words line with _ | ⟨a, _ | ⟨b, _ | ⟨c, _ | ⟨d, _ | ⟨e, _ | ⟨f, fields⟩⟩⟩⟩⟩⟩ <;>
      simp [hwords] at hlength
    refine ⟨a, b, c, d, e, rfl, ?_⟩
    rw [← mem_kindNames]
    exact (em _).symm
  · by_cases hne : Text.words line = []
    · exact .inl hne
    · exact .inr (.inl ⟨hne, hlength⟩)

/-- What a line can come to, with what is so of its fields then. -/
theorem ofLine_cases (line : List Char) :
    (ofLine line = .blank ∧ type? line = none) ∨
    (∃ flaw, ofLine line = .flawed flaw ∧ HasFlaw line flaw ∧ ∀ type ∈ type? line, type ∈ kindNames) ∨
    (∃ type, ofLine line = .unsupported (String.ofList type) ∧ type? line = some type ∧
      type ∉ kindNames) ∨
    (∃ d type, ofLine line = .device d ∧ Shows line d ∧ type? line = some type ∧ type ∈ kindNames) := by
  rcases line_cases line with hwords | ⟨hne, hlength⟩ |
    ⟨path, type, size, used, rank, hwords, htype | ⟨kind, rfl⟩⟩
  · exact .inl ⟨ofLine_of_words_nil hwords, type?_of_length_ne (by simp [hwords])⟩
  · refine .inr (.inl ⟨_, ofLine_of_length_ne hne hlength, .fields hne hlength, ?_⟩)
    simp [type?_of_length_ne hlength]
  · exact .inr (.inr (.inl ⟨type, ofLine_of_not_mem hwords htype, type?_of_words hwords, htype⟩))
  · have htype := type?_of_words hwords
    have hmem : kind.name.toList ∈ kindNames := mem_kindNames.mpr ⟨kind, rfl⟩
    cases hread : readDevice path kind size used rank with
    | ok d =>
      have hline := ofLine_of_readDevice_eq_ok hwords hread
      obtain ⟨i, j, k, hsize, hused, hrank, rfl⟩ := readDevice_eq_ok_iff.mp hread
      exact .inr (.inr (.inr ⟨_, _, hline, .device hwords hsize hused hrank, htype, hmem⟩))
    | error flaw =>
      have hline := ofLine_of_readDevice_eq_error hwords hread
      obtain ⟨before, field, after, hnumbers, hbefore, hfield⟩ := readDevice_eq_error_iff.mp hread
      obtain ⟨hinteger, rfl⟩ := number_eq_error_iff.mp hfield
      refine .inr (.inl ⟨_, hline, .number hwords hmem hnumbers hbefore hinteger, ?_⟩)
      simpa [htype] using hmem

theorem ofLine_eq_flawed_iff {flaw : Flaw} : ofLine line = .flawed flaw ↔ HasFlaw line flaw := by
  constructor
  · intro h
    rcases ofLine_cases line with ⟨hline, -⟩ | ⟨f, hline, hflaw, -⟩ | ⟨type, hline, -⟩ |
      ⟨d, type, hline, -⟩ <;> rw [hline] at h
    · cases h
    · cases h
      exact hflaw
    · cases h
    · cases h
  · intro h
    cases h with
    | fields hne hlength => exact ofLine_of_length_ne hne hlength
    | number hwords htype hnumbers hbefore hfield =>
      obtain ⟨kind, rfl⟩ := mem_kindNames.mp htype
      exact ofLine_of_readDevice_eq_error hwords <| readDevice_eq_error_iff.mpr
        ⟨_, _, _, hnumbers, hbefore, number_eq_error_iff.mpr ⟨hfield, rfl⟩⟩

end Line

/-! ## 3. Tables -/

def flaw? : SwapRow → Option Flaw
  | flawed flaw => some flaw
  | _ => none

def device? : SwapRow → Option SwapDevice
  | device d => some d
  | _ => none

def report? : SwapRow → Option Event
  | unsupported type => some (.swapTypeUnsupported type)
  | _ => none

theorem value_devices (rows : List SwapRow) :
    (devices rows).value =
      match rows.findSome? flaw? with
      | some flaw => .error flaw
      | none => .ok (rows.filterMap device?) := by
  induction rows with
  | nil => rfl
  | cons row rows ih =>
    rw [List.findSome?_cons, List.filterMap_cons]
    cases row with
    | blank => exact ih
    | unsupported type => exact ih
    | device d =>
      rw [devices, Logged.value_bind, ih]
      simp only [flaw?, device?]
      cases rows.findSome? flaw? <;> rfl
    | flawed flaw => rfl

theorem log_devices (rows : List SwapRow) :
    (devices rows).log = (rows.takeWhile fun row => row.flaw?.isNone).filterMap report? := by
  induction rows with
  | nil => rfl
  | cons row rows ih =>
    cases row with
    | blank => exact ih
    | unsupported type => exact congrArg (_ :: ·) ih
    | device d =>
      -- The devices below are put together without another report.
      rw [devices, Logged.log_bind, ih]
      cases (devices rows).value <;> exact List.append_nil _
    | flawed flaw => rfl

theorem flaw?_ofLine_eq_some_iff {line : List Char} {flaw : Flaw} :
    (ofLine line).flaw? = some flaw ↔ HasFlaw line flaw := by
  rw [← ofLine_eq_flawed_iff]
  cases ofLine line <;> simp [flaw?]

theorem flaw?_ofLine_eq_none_iff {line : List Char} : (ofLine line).flaw? = none ↔ ¬IsBad line := by
  simp only [IsBad, ← flaw?_ofLine_eq_some_iff, Option.eq_none_iff_forall_ne_some, not_exists, ne_eq]

theorem findSome?_flaw?_eq_none_iff {ls : List (List Char)} :
    ls.findSome? (fun line => (ofLine line).flaw?) = none ↔ ∀ line ∈ ls, ¬IsBad line := by
  simp only [List.findSome?_eq_none_iff, flaw?_ofLine_eq_none_iff]

theorem report?_ofLine (line : List Char) :
    (ofLine line).report? = ((type? line).filter (· ∉ kindNames)).map fun type =>
      .swapTypeUnsupported (String.ofList type) := by
  rcases ofLine_cases line with ⟨hline, htype⟩ | ⟨flaw, hline, -, htype⟩ | ⟨type, hline, htype, hmem⟩ |
    ⟨d, type, hline, -, htype, hmem⟩ <;> rw [hline]
  · rw [htype]
    rfl
  · have hnone : (type? line).filter (· ∉ kindNames) = none := by
      simpa [Option.filter_eq_none_iff] using htype
    rw [hnone]
    rfl
  · rw [htype, Option.filter_some, if_pos (by simpa using hmem)]
    rfl
  · rw [htype, Option.filter_some, if_neg (by simpa using hmem)]
    rfl

/-- A line that is not bad shows a device if it has a known type, and nothing otherwise. -/
theorem device?_ofLine {line : List Char} (h : ¬IsBad line) :
    (∃ d, (type? line).any (· ∈ kindNames) = true ∧ (ofLine line).device? = some d ∧ Shows line d) ∨
      (type? line).any (· ∈ kindNames) = false ∧ (ofLine line).device? = none := by
  rcases ofLine_cases line with ⟨hline, htype⟩ | ⟨flaw, -, hflaw, -⟩ | ⟨type, hline, htype, hmem⟩ |
    ⟨d, type, hline, hshows, htype, hmem⟩
  · right
    rw [hline, htype]
    exact ⟨rfl, rfl⟩
  · exact absurd ⟨flaw, hflaw⟩ h
  · right
    rw [hline, htype]
    exact ⟨by simpa using hmem, rfl⟩
  · left
    rw [hline, htype]
    exact ⟨d, by simpa using hmem, rfl, hshows⟩

/-- Without a bad line the devices are those of the lines of a known type. -/
theorem forall₂_shows {ls : List (List Char)} (h : ∀ line ∈ ls, ¬IsBad line) :
    List.Forall₂ Shows (ls.filter fun line => (type? line).any (· ∈ kindNames))
      ((ls.map ofLine).filterMap device?) := by
  induction ls with
  | nil => exact .nil
  | cons line ls ih =>
    have hrest := ih fun l hl => h l (List.mem_cons_of_mem line hl)
    rw [List.map_cons]
    rcases device?_ofLine (h line (by simp)) with ⟨d, hknown, hdevice, hshows⟩ | ⟨hknown, hdevice⟩
    · rw [List.filter_cons, if_pos hknown, List.filterMap_cons_some hdevice]
      exact .cons hshows hrest
    · rw [List.filter_cons, if_neg (by simp [hknown]), List.filterMap_cons_none hdevice]
      exact hrest

end SwapRow

namespace SwapTable

open SwapRow

/-- What the lines below the heading make of the table. -/
structure ReadsAs (source : String) (ls : List (List Char))
    (result : Logged (Except Failure (List SwapDevice))) : Prop where
  fails_iff : (∃ failure, result.value = .error failure) ↔ ∃ line ∈ ls, IsBad line
  first_flaw : ∀ before line after flaw, ls = before ++ line :: after →
    (∀ l ∈ before, ¬IsBad l) → HasFlaw line flaw → result.value = .error (.malformed source flaw)
  devices : (∀ line ∈ ls, ¬IsBad line) → ∃ ds, result.value = .ok ds ∧
    List.Forall₂ Shows (ls.filter fun line => (type? line).any (· ∈ kindNames)) ds
  reports : ∀ before after, ls = before ++ after → (∀ l ∈ before, ¬IsBad l) →
    (∀ l ∈ after.head?, IsBad l) →
      result.log = ((before.filterMap type?).filter (· ∉ kindNames)).map fun type =>
        .swapTypeUnsupported (String.ofList type)
  levels : ∀ e ∈ result.log, e.level = .debug

theorem value_read_eq (source : String) (content : List Char) :
    (read source content).value =
      match ((Text.lines content).drop 1).findSome? (fun line => (ofLine line).flaw?) with
      | some flaw => .error (.malformed source flaw)
      | none => .ok ((((Text.lines content).drop 1).map ofLine).filterMap device?) := by
  have hflaw : (rows content).findSome? flaw? =
      ((Text.lines content).drop 1).findSome? fun line => (ofLine line).flaw? := by
    rw [rows, List.findSome?_map]
    rfl
  rw [read, Logged.value_bind, value_devices, hflaw]
  cases ((Text.lines content).drop 1).findSome? fun line => (ofLine line).flaw? <;> rfl

theorem value_read_of_flaw {source : String} {content : List Char} {flaw : Flaw}
    (h : (rows content).findSome? flaw? = some flaw) :
    (read source content).value = .error (.malformed source flaw) := by
  rw [read, Logged.value_bind, value_devices, h]
  rfl

theorem value_read_eq_ok_iff {source : String} {content : List Char} {ds : List SwapDevice} :
    (read source content).value = .ok ds ↔
      (rows content).findSome? flaw? = none ∧ (rows content).filterMap device? = ds := by
  cases hflaw : (rows content).findSome? flaw? with
  | some flaw => simp [value_read_of_flaw hflaw]
  | none =>
    rw [read, Logged.value_bind, value_devices, hflaw]
    simp

theorem log_read_eq (source : String) (content : List Char) :
    (read source content).log =
      ((rows content).takeWhile fun row => row.flaw?.isNone).filterMap report? := by
  rw [read, Logged.log_bind, log_devices]
  cases (SwapRow.devices (rows content)).value <;> exact List.append_nil _

/-- Every table is read, or refused, by its lines below the heading. -/
theorem read_by_lines (source : String) (content : List Char) :
    ReadsAs source ((Text.lines content).drop 1) (read source content) where
  fails_iff := by
    rw [value_read_eq]
    constructor
    · rintro ⟨failure, h⟩
      by_contra hbad
      rw [findSome?_flaw?_eq_none_iff.mpr (by simpa using hbad)] at h
      cases h
    · rintro ⟨line, hline, hbad⟩
      cases hfirst : ((Text.lines content).drop 1).findSome? fun line => (ofLine line).flaw? with
      | none => exact absurd hbad (findSome?_flaw?_eq_none_iff.mp hfirst line hline)
      | some flaw => exact ⟨_, rfl⟩
  first_flaw before line after flaw hls hbefore hflaw := by
    have hfirst : ((Text.lines content).drop 1).findSome? (fun line => (ofLine line).flaw?) =
        some flaw := by
      rw [List.findSome?_eq_some_iff]
      exact ⟨before, line, after, hls, flaw?_ofLine_eq_some_iff.mpr hflaw,
        fun l hl => flaw?_ofLine_eq_none_iff.mpr (hbefore l hl)⟩
    rw [value_read_eq, hfirst]
  devices h := by
    rw [value_read_eq, findSome?_flaw?_eq_none_iff.mpr h]
    exact ⟨_, rfl, forall₂_shows h⟩
  reports before after hls hbefore hafter := by
    have hgood : ∀ row ∈ before.map ofLine, row.flaw?.isNone = true := by
      intro row hrow
      obtain ⟨line, hline, rfl⟩ := List.mem_map.mp hrow
      rw [flaw?_ofLine_eq_none_iff.mpr (hbefore line hline)]
      rfl
    have hend : (after.map ofLine).takeWhile (fun row => row.flaw?.isNone) = [] := by
      cases after with
      | nil => rfl
      | cons line after =>
        obtain ⟨flaw, hflaw⟩ := hafter line rfl
        rw [List.map_cons, List.takeWhile_cons_of_neg]
        simp [flaw?_ofLine_eq_some_iff.mpr hflaw]
    rw [log_read_eq, rows, hls, List.map_append, List.takeWhile_append_of_pos hgood, hend,
      List.append_nil, List.filterMap_map, List.filter_filterMap, List.map_filterMap]
    exact List.filterMap_congr fun line _ => report?_ofLine line
  levels e he := by
    rw [log_read_eq] at he
    obtain ⟨row, -, hrow⟩ := List.mem_filterMap.mp he
    cases row with
    | unsupported type =>
      cases hrow
      rfl
    | _ => cases hrow

-- A line of another type is skipped whatever its numbers are; the line below is bad in its second number
-- first, and the one that follows is not looked at.
example : read "/proc/swaps"
    "head\n/a disk x y z\n\n/b file +1 1k 9223372036854775808\n/c file\n".toList =
      ⟨.error (.malformed "/proc/swaps" (.invalidNumber "1k")), [.swapTypeUnsupported "disk"]⟩ := by
  decide +kernel

end SwapTable

end SleepPolicy
