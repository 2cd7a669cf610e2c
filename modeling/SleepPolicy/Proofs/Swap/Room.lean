import SleepPolicy.Proofs.FileTree.Reading
import SleepPolicy.Proofs.Swap.Location
import SleepPolicy.Swap.Check

/-!
# The answer of the swap check

Which of its answers the check gives, in order of precedence: the bypass, a missing table, a table that
cannot be read, a flaw in the table, no location, memory statistics that cannot be read, a flaw in those,
and last the comparison.  What comes later has no part in what comes earlier, so a machine without a
location needs no memory statistics.

## 1. The bypass
-/

namespace SleepPolicy

namespace SwapCheck

/-- The variable is set to UTF-8 text, and the text spells true in some case. -/
def Bypasses (setting : Option (List UInt8)) : Prop :=
  ∃ text, setting = some (Text.encodeUtf8 text) ∧
    String.ofList (text.map Char.toLower) ∈ ["yes", "y", "true", "t", "on", "1"]

theorem boolean?_eq_some_true_iff {s : List Char} :
    Text.boolean? s = some true ↔ String.ofList (s.map Char.toLower) ∈ Text.trueSpellings := by
  unfold Text.boolean?
  simp only
  split
  · simp [*]
  · split <;> simp [*]

theorem bypassed_eq_true_iff {setting : Option (List UInt8)} :
    bypassed setting = true ↔ Bypasses setting := by
  have hbypassed : bypassed setting = true ↔
      (setting.bind Text.decodeUtf8?).bind Text.boolean? = some true := by
    unfold bypassed
    rcases (setting.bind Text.decodeUtf8?).bind Text.boolean? with _ | (_ | _) <;> simp
  rw [hbypassed, Bypasses]
  simp only [Option.bind_eq_some_iff, Text.decodeUtf8?_eq_some_iff, boolean?_eq_some_true_iff]
  constructor
  · rintro ⟨text, ⟨bytes, hsetting, rfl⟩, htext⟩
    exact ⟨text, hsetting, htext⟩
  · rintro ⟨text, hsetting, htext⟩
    exact ⟨text, ⟨_, hsetting, rfl⟩, htext⟩

theorem bypassed_eq_false {setting : Option (List UInt8)} (h : ¬Bypasses setting) :
    bypassed setting = false :=
  Bool.eq_false_iff.mpr (mt bypassed_eq_true_iff.mp h)

/-! ## 2. The comparison -/

theorem toNat_free (d : SwapDevice) :
    (d.free.toNat : Int) = max ((d.size.toNat : Int) - d.used.toNat) 0 := by
  have hsize := d.size.toNat_lt
  rw [SwapDevice.free, UInt64.toNat_ofNat']
  omega

-- A product that does not fit is the largest number, which any product that fits is at most.
theorem fits_eq_true_iff {active free : UInt64}
    (h : active.toNat * 100 < UInt64.size ∨ free.toNat * 98 < UInt64.size) :
    fits active free = true ↔ active.toNat * 100 ≤ free.toNat * 98 := by
  have hsize : UInt64.size = 2 ^ 64 := rfl
  rw [fits, decide_eq_true_eq, product, product]
  omega

/-- How the memory in use and the room at a location decide. -/
structure Compared (t : FileTree) (meminfo : String) (location : SwapDevice)
    (answer : Except Failure Bool) : Prop where
  unreadable : (∀ text, ¬t.HoldsText meminfo text) →
    ∃ e, t.readText meminfo = .error e ∧ answer = .error (.unreadable meminfo e)
  flawed : ∀ text failure, t.HoldsText meminfo text →
    Memory.readActiveAnon meminfo text = .error failure →
      answer = .error failure ∧ ∃ flaw, failure = .malformed meminfo flaw
  decided : ∀ text active, t.HoldsText meminfo text →
    Memory.readActiveAnon meminfo text = .ok active →
      ∃ enough, answer = .ok enough ∧
        (active.toNat * 100 < UInt64.size ∨ location.free.toNat * 98 < UInt64.size →
          (enough = true ↔
            (active.toNat : Int) * 100 ≤
              max ((location.size.toNat : Int) - location.used.toNat) 0 * 98))

theorem readActiveAnon_error {source : String} {text : List Char} {failure : Failure}
    (h : Memory.readActiveAnon source text = .error failure) :
    ∃ flaw, failure = .malformed source flaw := by
  unfold Memory.readActiveAnon at h
  split at h
  · cases h
  · rename_i flaw _
    exact ⟨flaw, (Except.error.inj h).symm⟩

theorem value_compareMemory_ok {t : FileTree} {meminfo : String} {text : List Char} {active : UInt64}
    (htext : t.HoldsText meminfo text) (hread : Memory.readActiveAnon meminfo text = .ok active)
    (location : SwapDevice) :
    (compareMemory t meminfo location).value = .ok (fits active location.free) := by
  simp only [compareMemory, FileTree.readText_eq_ok_iff.mpr htext, hread, Logged.value_bind,
    Logged.value_pure]

theorem compareMemory_compared (t : FileTree) (meminfo : String) (location : SwapDevice) :
    Compared t meminfo location (compareMemory t meminfo location).value where
  unreadable hnone := by
    obtain ⟨e, he⟩ := FileTree.exists_readText_error hnone
    refine ⟨e, he, ?_⟩
    rw [compareMemory, he]
    rfl
  flawed text failure htext hread := by
    refine ⟨?_, readActiveAnon_error hread⟩
    simp only [compareMemory, FileTree.readText_eq_ok_iff.mpr htext, hread, Logged.value_pure]
  decided text active htext hread := by
    refine ⟨fits active location.free, value_compareMemory_ok htext hread location, fun hfit => ?_⟩
    rw [fits_eq_true_iff hfit, ← toNat_free]
    omega

/-! ## 3. The table -/

/-- How the text of a table decides. -/
structure Checked (t : FileTree) (files : SystemFiles) (text : List Char)
    (answer : Except Failure Bool) : Prop where
  flawed : ∀ failure, (SwapTable.read files.swaps text).value = .error failure →
    answer = .error failure ∧ ∃ flaw, failure = .malformed files.swaps flaw
  nowhere : ∀ ds, (SwapTable.read files.swaps text).value = .ok ds →
    (∀ d ∈ ds, d.onZram = true) → answer = .ok false
  somewhere : ∀ ds, (SwapTable.read files.swaps text).value = .ok ds →
    (∃ d ∈ ds, d.onZram = false) →
      ∃ location, (∀ d, SwapDevice.IsLocation ds d ↔ d = location) ∧
        Compared t files.meminfo location answer

theorem read_error {source : String} {text : List Char} {failure : Failure}
    (h : (SwapTable.read source text).value = .error failure) :
    ∃ flaw, failure = .malformed source flaw := by
  rw [SwapTable.read, Logged.value_bind] at h
  split at h
  · cases h
  · rename_i flaw _
    exact ⟨flaw, (Except.error.inj h).symm⟩

section CheckTable

variable (t : FileTree) {files : SystemFiles} {text : List Char} {ds : List SwapDevice}
variable (hread : (SwapTable.read files.swaps text).value = .ok ds)

include hread

theorem value_checkTable_nowhere (hzram : ∀ d ∈ ds, d.onZram = true) :
    (checkTable t files text).value = .ok false := by
  have hlocation : (SwapDevice.findLocation ds).value = none :=
    SwapDevice.location?_eq_none_iff.mpr hzram
  rw [checkTable, Logged.value_bind, hread]
  simp only [Logged.value_bind, hlocation, Logged.value_pure]

theorem value_checkTable_somewhere {location : SwapDevice}
    (hlocation : SwapDevice.location? ds = some location) :
    (checkTable t files text).value = (compareMemory t files.meminfo location).value := by
  have hfind : (SwapDevice.findLocation ds).value = some location := hlocation
  rw [checkTable, Logged.value_bind, hread]
  simp only [Logged.value_bind, hfind]

end CheckTable

theorem checkTable_checked (t : FileTree) (files : SystemFiles) (text : List Char) :
    Checked t files text (checkTable t files text).value where
  flawed failure hread := by
    refine ⟨?_, read_error hread⟩
    rw [checkTable, Logged.value_bind, hread]
    rfl
  nowhere ds hread hzram := value_checkTable_nowhere t hread hzram
  somewhere ds hread hdevice := by
    cases hlocation : SwapDevice.location? ds with
    | none =>
      obtain ⟨d, hd, hzram⟩ := hdevice
      rw [SwapDevice.location?_eq_none_iff.mp hlocation d hd] at hzram
      cases hzram
    | some location =>
      refine ⟨location, fun d => ?_, ?_⟩
      · rw [← SwapDevice.location?_eq_some_iff, hlocation, Option.some.injEq, eq_comm]
      · rw [value_checkTable_somewhere t hread hlocation]
        exact compareMemory_compared t files.meminfo location

/-! ## 4. The check -/

/-- How the check answers. -/
structure Answered (t : FileTree) (bypass : Option (List UInt8)) (files : SystemFiles)
    (answer : Except Failure Bool) : Prop where
  skipped : Bypasses bypass → answer = .ok true
  missing : ¬Bypasses bypass → t.Missing files.swaps → answer = .ok false
  unreadable : ¬Bypasses bypass → ¬t.Missing files.swaps → (∀ text, ¬t.HoldsText files.swaps text) →
    ∃ e, t.readText files.swaps = .error e ∧ answer = .error (.unreadable files.swaps e)
  checked : ¬Bypasses bypass → ∀ text, t.HoldsText files.swaps text → Checked t files text answer

section HasRoom

variable (t : FileTree) {bypass : Option (List UInt8)} {files : SystemFiles}

theorem value_hasRoom_error (hbypass : bypassed bypass = false) {e : ReadError}
    (he : t.readText files.swaps = .error e) (hne : e ≠ .system .noEntry) :
    (hasRoom t bypass files).value = .error (.unreadable files.swaps e) := by
  simp only [hasRoom, hbypass, Bool.false_eq_true, if_false, he]
  rcases e with cause | _
  · cases cause with
    | noEntry => exact absurd rfl hne
    | _ => rfl
  · rfl

theorem value_hasRoom_missing (hbypass : bypassed bypass = false)
    (he : t.readText files.swaps = .error (.system .noEntry)) :
    (hasRoom t bypass files).value = .ok false := by
  simp only [hasRoom, hbypass, Bool.false_eq_true, if_false, he]
  rfl

theorem value_hasRoom_ok (hbypass : bypassed bypass = false) {text : List Char}
    (he : t.readText files.swaps = .ok text) :
    (hasRoom t bypass files).value = (checkTable t files text).value := by
  simp only [hasRoom, hbypass, Bool.false_eq_true, if_false, he]

end HasRoom

/-- What the check answers on any tree, with any value of the variable and for any files. -/
theorem hasRoom_answered (t : FileTree) (bypass : Option (List UInt8)) (files : SystemFiles) :
    Answered t bypass files (hasRoom t bypass files).value := by
  have hnot : ¬Bypasses bypass → bypassed bypass = false :=
    fun h => Bool.eq_false_iff.mpr (mt bypassed_eq_true_iff.mp h)
  constructor
  · intro h
    rw [hasRoom, if_pos (bypassed_eq_true_iff.mpr h)]
    rfl
  · intro h hmissing
    exact value_hasRoom_missing t (hnot h) (FileTree.readText_eq_noEntry_iff.mpr hmissing)
  · intro h hmissing hnone
    obtain ⟨e, he⟩ := FileTree.exists_readText_error hnone
    refine ⟨e, he, value_hasRoom_error t (hnot h) he ?_⟩
    rintro rfl
    exact hmissing (FileTree.readText_eq_noEntry_iff.mp he)
  · intro h text htext
    rw [value_hasRoom_ok t (hnot h) (FileTree.readText_eq_ok_iff.mpr htext)]
    exact checkTable_checked t files text

-- A link that leads nowhere is a missing table and a plain no; without statistics the check fails as
-- soon as there is a location.
example : (hasRoom ⟨[(["proc"], .directory), (["proc", "swaps"], .link "gone")], []⟩ none
    .standard).value = .ok false := by
  rfl

example :
    let table := Text.encodeUtf8 "header\n/dev/sda2 partition 100 0 -2\n".toList
    (hasRoom ⟨[(["proc"], .directory), (["proc", "swaps"], .file table)], []⟩ none .standard).value =
      .error (.unreadable "/proc/meminfo" (.system .noEntry)) := by
  rfl

end SwapCheck

end SleepPolicy
