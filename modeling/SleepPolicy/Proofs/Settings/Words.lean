import SleepPolicy.Policy.Load
import SleepPolicy.Proofs.Text.Words

/-!
# Words in settings

The lists of modes and states hold words and nothing else, whatever files have been read.  An
assignment that a line makes brings only words, carrying it out keeps only words, and so does every
file, the main one and the drop-ins alike.
-/

namespace SleepPolicy

def AllWords (list : List String) : Prop :=
  ∀ w ∈ list, Text.IsWord w.toList

instance (list : List String) : Decidable (AllWords list) :=
  inferInstanceAs (Decidable (∀ w ∈ list, Text.IsWord w.toList))

theorem allWords_nil : AllWords [] := by
  simp [AllWords]

theorem AllWords.append {a b : List String} (ha : AllWords a) (hb : AllWords b) :
    AllWords (a ++ b) := by
  intro w hw
  rcases List.mem_append.mp hw with h | h
  · exact ha w h
  · exact hb w h

/-! ## 1. Assignments -/

namespace Assignment

/-- The list that is assigned, if there is one, holds only words. -/
def HasWords : Assignment → Prop
  | modes _ words => AllWords words
  | states _ words => AllWords words
  | _ => True

theorem allWords_wordList (value : List Char) : AllWords (wordList value) := by
  intro w hw
  obtain ⟨v, hv, rfl⟩ := List.mem_map.mp hw
  rw [String.toList_ofList]
  exact Text.isWord_of_mem_words hv

theorem hasWords_of_read? {key : Key} {value : List Char} {a : Assignment}
    (h : read? key value = some a) : a.HasWords := by
  cases key with
  | allow operation =>
    obtain ⟨permission, -, rfl⟩ := Option.map_eq_some_iff.mp h
    trivial
  | modes method =>
    obtain rfl := Option.some.inj h
    exact allWords_wordList value
  | states method =>
    obtain rfl := Option.some.inj h
    exact allWords_wordList value
  | delay =>
    obtain ⟨span, -, rfl⟩ := Option.map_eq_some_iff.mp h
    trivial
  | estimation =>
    obtain ⟨span, -, rfl⟩ := Option.map_eq_some_iff.mp h
    trivial

end Assignment

/-! ## 2. Findings -/

namespace Finding

-- Only an entry below the header of the section makes an assignment.
theorem exists_read?_of_ofLine {current : Option String} {line : SettingsLine} {a : Assignment}
    (h : ofLine current line = some (.assignment a)) :
    ∃ key value, Assignment.read? key value = some a := by
  unfold ofLine at h
  split at h
  · cases h
  · split at h <;> cases h
  · cases h
  · cases h
  · split at h
    · cases h
    · split at h
      · rename_i key value _ _ _
        unfold ofEntry at h
        split at h
        · cases h
        · rename_i k _
          split at h
          · rename_i b hread
            obtain rfl : b = a := by simpa using h
            exact ⟨k, value, hread⟩
          · cases h
      · cases h

theorem exists_ofLine_of_mem_ofLines {current : Option String} {ls : List SettingsLine}
    {finding : Option Finding} (h : finding ∈ ofLines current ls) :
    ∃ above line, finding = ofLine above line := by
  induction ls generalizing current with
  | nil => simp [ofLines] at h
  | cons line rest ih =>
    rw [ofLines] at h
    rcases List.mem_cons.mp h with rfl | h
    · exact ⟨current, line, rfl⟩
    · exact ih h

end Finding

/-! ## 3. Settings -/

namespace Settings

/-- All lists hold only words. -/
structure HasWords (s : Settings) : Prop where
  modes : ∀ method, AllWords (s.modes.get method)
  states : ∀ method, AllWords (s.states.get method)

theorem hasWords_of_mem_assignmentsIn {content : List Char} {a : Assignment}
    (h : a ∈ assignmentsIn content) : a.HasWords := by
  obtain ⟨finding, hmem, hfinding⟩ := List.mem_filterMap.mp h
  obtain ⟨f, rfl, hf⟩ := Option.bind_eq_some_iff.mp hfinding
  obtain ⟨above, line, hline⟩ := Finding.exists_ofLine_of_mem_ofLines hmem
  cases f with
  | fault fault => cases hf
  | assignment b =>
    obtain rfl : b = a := by simpa [Finding.assignment?] using hf
    obtain ⟨key, value, hread⟩ := Finding.exists_read?_of_ofLine hline.symm
    exact Assignment.hasWords_of_read? hread

theorem allWords_extendList {old words : List String} (hold : AllWords old)
    (hwords : AllWords words) : AllWords (extendList old words) := by
  unfold extendList
  split
  · exact allWords_nil
  · exact hold.append hwords

theorem hasWords_empty : Settings.empty.HasWords :=
  ⟨fun method => by rw [Settings.empty, PerMethod.get_fill]; exact allWords_nil,
   fun method => by rw [Settings.empty, PerMethod.get_fill]; exact allWords_nil⟩

theorem HasWords.assign {s : Settings} (hs : s.HasWords) {a : Assignment} (ha : a.HasWords) :
    (s.assign a).HasWords := by
  cases a with
  | allow operation permission => exact ⟨hs.modes, hs.states⟩
  | modes method words =>
    refine ⟨fun m => ?_, hs.states⟩
    rw [Settings.assign, PerMethod.get_set]
    -- The list that is assigned to, and the others.
    split
    · exact allWords_extendList (hs.modes method) ha
    · exact hs.modes m
  | states method words =>
    refine ⟨hs.modes, fun m => ?_⟩
    rw [Settings.assign, PerMethod.get_set]
    split
    · exact allWords_extendList (hs.states method) ha
    · exact hs.states m
  | delay span => exact ⟨hs.modes, hs.states⟩
  | estimation span => exact ⟨hs.modes, hs.states⟩

theorem HasWords.foldl_assign {s : Settings} (hs : s.HasWords) {as : List Assignment}
    (has : ∀ a ∈ as, a.HasWords) : (as.foldl Settings.assign s).HasWords := by
  induction as generalizing s with
  | nil => exact hs
  | cons a as ih =>
    exact ih (hs.assign (has a (by simp))) fun b hb => has b (List.mem_cons_of_mem a hb)

theorem HasWords.read {s : Settings} (hs : s.HasWords) (source : String) (content : List Char) :
    (s.read source content).value.HasWords :=
  hs.foldl_assign fun _ ha => hasWords_of_mem_assignmentsIn ha

/-! ## 4. Files -/

theorem HasWords.addMain {s : Settings} (hs : s.HasWords) (t : FileTree) (path : String) :
    (s.addMain t path).value.HasWords := by
  unfold Settings.addMain
  split
  · exact hs.read path _
  · exact hs
  · exact hs

theorem HasWords.addDropIn {s : Settings} (hs : s.HasWords) (t : FileTree) (path : String) :
    (s.addDropIn t path).value.HasWords := by
  unfold Settings.addDropIn
  split
  · exact hs.read path _
  · exact hs

theorem HasWords.addDropIns {s : Settings} (hs : s.HasWords) (t : FileTree) (ds : List DropIn) :
    (addDropIns t ds s).value.HasWords := by
  induction ds generalizing s with
  | nil => exact hs
  | cons d ds ih => exact ih (hs.addDropIn t d.path)

theorem hasWords_load (t : FileTree) (root : String) : (Settings.load t root).value.HasWords :=
  (hasWords_empty.addMain t _).addDropIns t _

end Settings

end SleepPolicy
