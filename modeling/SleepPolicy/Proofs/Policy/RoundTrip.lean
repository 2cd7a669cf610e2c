import SleepPolicy.Policy.Render
import SleepPolicy.Proofs.Policy.Expressible
import SleepPolicy.Proofs.Settings.WrittenLine
import SleepPolicy.Proofs.Text.Lines
import SleepPolicy.Proofs.Timespan.RoundTrip

/-!
# Written policies are read back

A written policy is a header and one entry for each key.  Each entry assigns what the policy holds, so
the settings that come out of the text say all that the policy says, and no line has a fault.
Completing these settings gives the policy back if it is expressible, and only then, because nothing
else is ever read.
-/

namespace SleepPolicy

namespace Policy

/-! ## 1. Values -/

/-- The words that are assigned to a key. -/
def words (p : Policy) : Key → List (List Char)
  | .allow operation => [yesNo (p.allow.get operation)]
  | .modes method => (p.modes.get method).map String.toList
  | .states method => (p.states.get method).map String.toList
  | .delay => p.delay.words
  | .estimation => p.estimation.words

theorem value_eq_joined (p : Policy) (key : Key) : p.value key = Text.joined (p.words key) := by
  cases key with
  | allow operation => exact (Text.joined_singleton _).symm
  | modes method => rfl
  | states method => rfl
  | delay => exact p.delay.render_eq_joined
  | estimation => exact p.estimation.render_eq_joined

theorem isWord_of_mem_map_toList {list : List String} (h : AllWords list) :
    ∀ w ∈ list.map String.toList, Text.IsWord w := by
  intro w hw
  obtain ⟨v, hv, rfl⟩ := List.mem_map.mp hw
  exact h v hv

theorem isWord_of_mem_words {p : Policy} (hp : p.Expressible) (key : Key) :
    ∀ w ∈ p.words key, Text.IsWord w := by
  cases key with
  | allow operation =>
    intro w hw
    obtain rfl : w = yesNo (p.allow.get operation) := by simpa [words] using hw
    cases p.allow.get operation <;> decide
  | modes method => exact isWord_of_mem_map_toList (hp.modes_words method)
  | states method => exact isWord_of_mem_map_toList (hp.states_words method)
  | delay => exact fun w hw => Timespan.isWord_of_mem_words hw
  | estimation => exact fun w hw => Timespan.isWord_of_mem_words hw

theorem isTrimmed_value {p : Policy} (hp : p.Expressible) (key : Key) :
    Text.IsTrimmed (p.value key) := by
  rw [value_eq_joined]
  exact Text.isTrimmed_joined (isWord_of_mem_words hp key)

theorem newline_not_mem_value {p : Policy} (hp : p.Expressible) (key : Key) :
    '\n' ∉ p.value key := by
  rw [value_eq_joined]
  intro h
  rcases Text.eq_space_of_mem_joined h with hspace | ⟨w, hw, hmem⟩
  · exact absurd hspace (by decide)
  · exact absurd ((isWord_of_mem_words hp key w hw).2 '\n' hmem) (by decide)

/-! ## 2. Lines -/

/-- The two characters that a line end is made of are blank. -/
theorem isLine_entryLine {p : Policy} (hp : p.Expressible) (key : Key) :
    Text.IsLine (p.entryLine key) := by
  constructor
  · intro h
    rcases List.mem_append.mp h with h | h
    · exact absurd (key.isWord_name.2 '\n' h) (by decide)
    · rcases List.mem_cons.mp h with h | h
      · exact absurd h (by decide)
      · exact newline_not_mem_value hp key h
  · intro h
    have hend := (SettingsLine.isTrimmed_entry key.isWord_name (isTrimmed_value hp key)).2 '\r' h
    exact absurd hend (by decide)

theorem lines_render {p : Policy} (hp : p.Expressible) :
    Text.lines p.render = headerLine :: Key.all.map p.entryLine := by
  apply Text.lines_written
  intro l hl
  rcases List.mem_cons.mp hl with rfl | hl
  · exact ⟨by decide, by decide⟩
  · obtain ⟨key, -, rfl⟩ := List.mem_map.mp hl
    exact isLine_entryLine hp key

theorem ofText_headerLine : SettingsLine.ofText headerLine = .header Key.sectionName := by
  decide

theorem ofText_entryLine {p : Policy} (hp : p.Expressible) (key : Key) :
    SettingsLine.ofText (p.entryLine key) = .entry key.name.toList (p.value key) :=
  SettingsLine.ofText_entry key.isWord_name key.first_name key.equals_not_mem_name
    (isTrimmed_value hp key)

/-! ## 3. Assignments -/

def permission (b : Bool) : Permission :=
  if b then .allow else .deny

def assignment (p : Policy) : Key → Assignment
  | .allow operation => .allow operation (permission (p.allow.get operation))
  | .modes method => .modes method (p.modes.get method)
  | .states method => .states method (p.states.get method)
  | .delay => .delay (some p.delay)
  | .estimation => .estimation (some p.estimation)

theorem read?_yesNo (b : Bool) : Permission.read? (yesNo b) = some (permission b) := by
  cases b <;> decide

theorem wordList_joinWords {list : List String} (h : AllWords list) :
    Assignment.wordList (joinWords list) = list := by
  have hwords : Text.words (joinWords list) = list.map String.toList :=
    Text.words_joined (isWord_of_mem_map_toList h)
  rw [Assignment.wordList, hwords, List.map_map]
  have hsame : ∀ w ∈ list, (String.ofList ∘ String.toList) w = w :=
    fun w _ => String.ofList_toList
  rw [List.map_congr_left hsame, List.map_id']

theorem span?_render (t : Timespan) : Assignment.span? t.render = some (some t) := by
  -- An empty value would unset the time span.
  have hne : t.render ≠ [] := by
    intro h
    have hread := t.read?_render
    rw [h] at hread
    cases hread
  rw [Assignment.span?, if_neg (by simpa using hne), t.read?_render, Option.map_some]

theorem read?_value {p : Policy} (hp : p.Expressible) (key : Key) :
    Assignment.read? key (p.value key) = some (p.assignment key) := by
  cases key with
  | allow operation => rw [value, Assignment.read?, read?_yesNo, Option.map_some, assignment]
  | modes method =>
    rw [value, Assignment.read?, wordList_joinWords (hp.modes_words method), assignment]
  | states method =>
    rw [value, Assignment.read?, wordList_joinWords (hp.states_words method), assignment]
  | delay => rw [value, Assignment.read?, span?_render, Option.map_some, assignment]
  | estimation => rw [value, Assignment.read?, span?_render, Option.map_some, assignment]

theorem ofEntry_value {p : Policy} (hp : p.Expressible) (key : Key) :
    Finding.ofEntry key.name.toList (p.value key) = .assignment (p.assignment key) := by
  simp only [Finding.ofEntry, String.ofList_toList, key.ofName?_name, read?_value hp key]

theorem ofLines_entries {p : Policy} (hp : p.Expressible) (keys : List Key) :
    Finding.ofLines (some Key.sectionName)
        (keys.map fun key => .entry key.name.toList (p.value key)) =
      keys.map fun key => some (.assignment (p.assignment key)) := by
  induction keys with
  | nil => rfl
  | cons key keys ih =>
    -- an entry leaves the section open that it stands in
    have hafter : Finding.sectionAfter (some Key.sectionName)
        (.entry key.name.toList (p.value key)) = some Key.sectionName := rfl
    rw [List.map_cons, Finding.ofLines, hafter, ih, Finding.ofLine, if_pos rfl,
      ofEntry_value hp key, List.map_cons]

theorem ofContent_render {p : Policy} (hp : p.Expressible) :
    Finding.ofContent p.render =
      none :: Key.all.map fun key => some (.assignment (p.assignment key)) := by
  have hentries : (Key.all.map p.entryLine).map SettingsLine.ofText =
      Key.all.map fun key => .entry key.name.toList (p.value key) := by
    rw [List.map_map]
    exact List.map_congr_left fun key _ => ofText_entryLine hp key
  rw [Finding.ofContent, lines_render hp, List.map_cons, ofText_headerLine, hentries,
    Finding.ofLines, Finding.ofLine, if_pos rfl, Finding.sectionAfter, ofLines_entries hp]

theorem assignmentsIn_render {p : Policy} (hp : p.Expressible) :
    Settings.assignmentsIn p.render = Key.all.map p.assignment := by
  rw [Settings.assignmentsIn, ofContent_render hp, List.filterMap_cons_none rfl, List.filterMap_map]
  exact congrFun List.filterMap_eq_map Key.all

theorem faultsIn_render {p : Policy} (hp : p.Expressible) : Settings.faultsIn p.render = [] := by
  rw [Settings.faultsIn, ofContent_render hp, List.filterMap_eq_nil_iff]
  intro (finding, line) hmem
  have hfinding := List.fst_mem_of_mem_zipIdx hmem
  have hfault : finding.bind Finding.fault? = none := by
    -- The header finds nothing, and every other line an assignment.
    rcases List.mem_cons.mp hfinding with h | h
    · rw [show finding = none from h, Option.bind_none]
    · obtain ⟨key, -, hkey⟩ := List.mem_map.mp h
      rw [show finding = _ from hkey.symm, Option.bind_some, Finding.fault?]
  simp only [hfault, Option.map_none]

/-! ## 4. Settings -/

/-- The settings that assign all that a policy holds. -/
def settings (p : Policy) : Settings where
  allow := ⟨permission p.allow.suspend, permission p.allow.hibernate,
    permission p.allow.hybridSleep, permission p.allow.suspendThenHibernate⟩
  modes := p.modes
  states := p.states
  delay := some p.delay
  estimation := some p.estimation

theorem extendList_nil (list : List String) : Settings.extendList [] list = list := by
  cases list <;> rfl

theorem foldl_assignment (p : Policy) :
    (Key.all.map p.assignment).foldl Settings.assign Settings.empty = p.settings := by
  simp only [Key.all, List.map_cons, List.map_nil, List.foldl_cons, List.foldl_nil, assignment,
    Settings.assign, Settings.empty, PerOperation.fill, PerOperation.set, PerOperation.get,
    PerMethod.fill, PerMethod.set, PerMethod.get, extendList_nil]
  rfl

theorem orElse_permission (b default : Bool) : (permission b).orElse default = b := by
  cases b <;> rfl

theorem completeList_eq_self {list : List String} (h : list ≠ []) (default : List String) :
    Settings.completeList list default = list := by
  rw [Settings.completeList, if_neg (by simpa using h)]

theorem completeList_nil_right (list : List String) : Settings.completeList list [] = list := by
  cases list <;> rfl

theorem complete_settings {p : Policy} (hp : p.Expressible) : p.settings.complete = p := by
  have hallow : Settings.completeAllow p.settings.allow = p.allow := by
    simp only [Settings.completeAllow, settings, orElse_permission]
  -- Only where a list could be empty is there a default to lose it to.
  have hmodes : p.modes.zipWith Settings.completeList defaultModes = p.modes := by
    have hhibernate : p.modes.hibernate ≠ [] := hp.modes_ne_nil .hibernate (by decide)
    have hhybridSleep : p.modes.hybridSleep ≠ [] := hp.modes_ne_nil .hybridSleep (by decide)
    rw [PerMethod.zipWith, defaultModes, completeList_nil_right, completeList_eq_self hhibernate,
      completeList_eq_self hhybridSleep]
  have hstates : p.states.zipWith Settings.completeList defaultStates = p.states := by
    have hsuspend : p.states.suspend ≠ [] := hp.states_ne_nil .suspend
    have hhibernate : p.states.hibernate ≠ [] := hp.states_ne_nil .hibernate
    have hhybridSleep : p.states.hybridSleep ≠ [] := hp.states_ne_nil .hybridSleep
    rw [PerMethod.zipWith, completeList_eq_self hsuspend, completeList_eq_self hhibernate,
      completeList_eq_self hhybridSleep]
  have hestimation : Settings.completeEstimation (some p.estimation) = p.estimation := by
    rw [Settings.completeEstimation, if_neg hp.estimation_ne_zero]
  rw [Settings.complete, hallow]
  simp only [settings, hmodes, hstates, hestimation, Option.getD_some]

theorem read_render {p : Policy} (hp : p.Expressible) (source : String) :
    Policy.read source p.render = pure p := by
  have hvalue : (Settings.empty.read source p.render).value = p.settings := by
    rw [Settings.read, assignmentsIn_render hp, foldl_assignment]
  have hlog : (Settings.empty.read source p.render).log = [] := by
    rw [Settings.read, faultsIn_render hp, List.map_nil]
  apply Logged.ext
  · rw [Policy.read, Logged.value_map, hvalue, complete_settings hp, Logged.value_pure]
  · rw [Policy.read, Logged.log_map, hlog, Logged.log_pure]

/-- A written policy is read back exactly when it is expressible, and then without a report; and every
policy that is read or loaded is expressible. -/
theorem read_render_eq_iff_expressible (p : Policy) (source : String) :
    ((Policy.read source p.render).value = p ↔ p.Expressible) ∧
      (∀ content, (Policy.read source content).value.Expressible) ∧
      (∀ t root, (Policy.load t root).value.Expressible) ∧
      (p.Expressible → (Policy.read source p.render).log = []) := by
  refine ⟨⟨fun h => ?_, fun hp => ?_⟩, expressible_read source, expressible_load, fun hp => ?_⟩
  -- Whatever is read is expressible, so what is read back is.
  · rw [← h]
    exact expressible_read source p.render
  · rw [read_render hp, Logged.value_pure]
  · rw [read_render hp, Logged.log_pure]

end Policy

end SleepPolicy
