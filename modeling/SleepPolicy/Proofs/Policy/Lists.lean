import SleepPolicy.Policy.Basic
import SleepPolicy.Proofs.Settings.InsertedLine
import SleepPolicy.Proofs.Settings.LastValue

/-!
# Lists of words

What the files make of a list of modes or states: the words of all values that its key has been given
since the last blank one.  A line that gives the key no value has no part in that.  The policy takes the
list over, or the default in place of an empty one.

## 1. Values
-/

namespace SleepPolicy

/-- The values that a key is given, in order. -/
def SettingsEntry.valuesOf (key : Key) (es : List SettingsEntry) : List (List Char) :=
  (es.filter fun e => e.key = key.name.toList).map SettingsEntry.value

theorem SettingsEntry.valuesOf_append (key : Key) (es fs : List SettingsEntry) :
    valuesOf key (es ++ fs) = valuesOf key es ++ valuesOf key fs := by
  simp [valuesOf]

theorem SettingsEntry.valuesOf_eq_nil {key : Key} {es : List SettingsEntry}
    (h : ∀ e ∈ es, e.key ≠ key.name.toList) : valuesOf key es = [] := by
  rw [valuesOf, List.map_eq_nil_iff, List.filter_eq_nil_iff]
  simpa using h

namespace Settings

def IsBlankValue (value : List Char) : Prop :=
  ∀ c ∈ value, Text.isBlank c = true

/-- The list has the words of the values after the last blank one, or of all values if none is blank. -/
structure Collects (values : List (List Char)) (list : List String) : Prop where
  all : (∀ v ∈ values, ¬IsBlankValue v) → list = values.flatMap Assignment.wordList
  sinceBlank : ∀ before blank after, values = before ++ blank :: after → IsBlankValue blank →
    (∀ v ∈ after, ¬IsBlankValue v) → list = after.flatMap Assignment.wordList

/-- A list with the words of one more value, or without any if the value is blank. -/
def grow (list : List String) (value : List Char) : List String :=
  extendList list (Assignment.wordList value)

theorem grow_blank (list : List String) {value : List Char} (h : IsBlankValue value) :
    grow list value = [] := by
  rw [grow, Assignment.wordList, Text.words_eq_nil_iff.mpr h]
  rfl

theorem grow_of_not_blank (list : List String) {value : List Char} (h : ¬IsBlankValue value) :
    grow list value = list ++ Assignment.wordList value := by
  have hwords : Assignment.wordList value ≠ [] := by
    rw [Assignment.wordList, Ne, List.map_eq_nil_iff, Text.words_eq_nil_iff]
    exact h
  rw [grow, extendList, if_neg (by simpa using hwords)]

theorem foldl_grow {values : List (List Char)} (h : ∀ v ∈ values, ¬IsBlankValue v)
    (list : List String) :
    values.foldl grow list = list ++ values.flatMap Assignment.wordList := by
  induction values generalizing list with
  | nil => simp
  | cons v values ih =>
    rw [List.foldl_cons, grow_of_not_blank list (h v (by simp)),
      ih (fun w hw => h w (List.mem_cons_of_mem v hw)), List.flatMap_cons, List.append_assoc]

theorem collects_foldl_grow (values : List (List Char)) : Collects values (values.foldl grow []) where
  all h := by rw [foldl_grow h, List.nil_append]
  sinceBlank before blank after hvalues hblank hafter := by
    -- Whatever stands in the list by then, the blank value clears it.
    rw [hvalues, List.foldl_append, List.foldl_cons, grow_blank _ hblank, foldl_grow hafter,
      List.nil_append]

/-! ## 2. Fields and their keys -/

/-- A list that grows by what its key is given, and that no other key touches. -/
structure GrownBy (field : Settings → List String) (key : Key) : Prop where
  own : ∀ (s : Settings) value,
    (Assignment.read? key value).map (fun a => field (s.assign a)) = some (grow (field s) value)
  others : ∀ (s : Settings) a, a.key ≠ key → field (s.assign a) = field s

theorem grownBy_modes (method : Method) : GrownBy (fun s => s.modes.get method) (.modes method) where
  own s value := by
    simp only [Assignment.read?, Option.map_some, assign, PerMethod.get_set, if_pos]
    rfl
  others s a h := by
    cases a with
    | modes m words =>
      have hne : m ≠ method := by
        rintro rfl
        exact h rfl
      simp only [assign, PerMethod.get_set, if_neg hne]
    | _ => rfl

theorem grownBy_states (method : Method) :
    GrownBy (fun s => s.states.get method) (.states method) where
  own s value := by
    simp only [Assignment.read?, Option.map_some, assign, PerMethod.get_set, if_pos]
    rfl
  others s a h := by
    cases a with
    | states m words =>
      have hne : m ≠ method := by
        rintro rfl
        exact h rfl
      simp only [assign, PerMethod.get_set, if_neg hne]
    | _ => rfl

section Field

variable {field : Settings → List String} {key : Key}

theorem GrownBy.step (h : GrownBy field key) (s : Settings) (e : SettingsEntry) :
    field (s.apply e) = if e.key = key.name.toList then grow (field s) e.value else field s := by
  have hown := h.own s e.value
  rw [apply_owned h.others]
  split
  · -- Every text can be read as a list.
    cases hread : Assignment.read? key e.value with
    | none =>
      rw [hread] at hown
      cases hown
    | some a =>
      rw [hread] at hown
      exact Option.some.inj hown
  · rfl

theorem GrownBy.run (h : GrownBy field key) (es : List SettingsEntry) (s : Settings) :
    field (es.foldl apply s) = (SettingsEntry.valuesOf key es).foldl grow (field s) := by
  induction es generalizing s with
  | nil => rfl
  | cons e es ih =>
    rw [List.foldl_cons, ih, h.step, SettingsEntry.valuesOf, SettingsEntry.valuesOf, List.filter_cons]
    by_cases hkey : e.key = key.name.toList
    · simp [hkey]
    · simp [hkey]

theorem GrownBy.readParts (h : GrownBy field key) (hempty : field empty = [])
    (parts : List (String × List Char)) :
    field (readParts parts) =
      (SettingsEntry.valuesOf key (SettingsEntry.inParts parts)).foldl grow [] := by
  rw [readParts_eq, foldl_assign_eq, h.run, hempty]

/-- Whatever line is put in, among whole lines of one of several files: it does not change the field
unless it is a header or gives the key a value. -/
def Undisturbed (field : Settings → List String) (key : Key) : Prop :=
  ∀ (earlier later : List (String × List Char)) (source : String) (above line rest : List Char),
    Text.IsWhole above → '\n' ∉ line → SettingsLine.isHeader (Text.trim line) = false →
    (∀ e, SettingsEntry.ofLine? ((Text.lines above).map Text.trim) (Text.trim line) = some e →
      e.key ≠ key.name.toList) →
    field (Settings.readParts (earlier ++ (source, above ++ (line ++ '\n' :: rest)) :: later)) =
      field (Settings.readParts (earlier ++ (source, above ++ rest) :: later))

theorem GrownBy.undisturbed (h : GrownBy field key) (hempty : field empty = []) :
    Undisturbed field key := by
  intro earlier later source above line rest habove hline hheader hother
  obtain ⟨before, after, hwith, hwithout⟩ :=
    SettingsEntry.inContent_insert habove hline hheader rest
  have hnone : SettingsEntry.valuesOf key (SettingsEntry.ofLine? ((Text.lines above).map Text.trim)
      (Text.trim line)).toList = [] :=
    SettingsEntry.valuesOf_eq_nil fun e he => hother e (Option.mem_toList.mp he)
  rw [h.readParts hempty, h.readParts hempty]
  simp only [SettingsEntry.inParts, List.flatMap_append, List.flatMap_cons, hwith, hwithout,
    SettingsEntry.valuesOf_append, hnone, List.append_nil]

end Field

/-! ## 3. The settings and the policy -/

/-- All lists have the words that their keys have been given. -/
structure Listed (s : Settings) (es : List SettingsEntry) : Prop where
  modes : ∀ method, Collects (SettingsEntry.valuesOf (.modes method) es) (s.modes.get method)
  states : ∀ method, Collects (SettingsEntry.valuesOf (.states method) es) (s.states.get method)

theorem modes_empty (method : Method) : empty.modes.get method = [] :=
  PerMethod.get_fill [] method

theorem states_empty (method : Method) : empty.states.get method = [] :=
  PerMethod.get_fill [] method

theorem readParts_listed (parts : List (String × List Char)) :
    (readParts parts).Listed (SettingsEntry.inParts parts) where
  modes method := by
    rw [(grownBy_modes method).readParts (modes_empty method)]
    exact collects_foldl_grow _
  states method := by
    rw [(grownBy_states method).readParts (states_empty method)]
    exact collects_foldl_grow _

end Settings

namespace Policy

/-- A list that is not empty is taken over, and in place of an empty one stands the default.  There are
no modes for suspending by default. -/
structure TakesLists (s : Settings) (p : Policy) : Prop where
  modes : ∀ method, s.modes.get method ≠ [] → p.modes.get method = s.modes.get method
  states : ∀ method, s.states.get method ≠ [] → p.states.get method = s.states.get method
  noModes : ∀ method, s.modes.get method = [] → p.modes.get method =
    PerMethod.get ⟨[], ["platform", "shutdown"], ["suspend", "platform", "shutdown"]⟩ method
  noStates : ∀ method, s.states.get method = [] → p.states.get method =
    PerMethod.get ⟨["mem", "standby", "freeze"], ["disk"], ["disk"]⟩ method

theorem takesLists_complete (s : Settings) : TakesLists s s.complete where
  modes method h := by
    rw [Settings.complete, PerMethod.get_zipWith, Settings.completeList, if_neg (by simpa using h)]
  states method h := by
    rw [Settings.complete, PerMethod.get_zipWith, Settings.completeList, if_neg (by simpa using h)]
  noModes method h := by
    rw [Settings.complete, PerMethod.get_zipWith, h]
    rfl
  noStates method h := by
    rw [Settings.complete, PerMethod.get_zipWith, h]
    rfl

/-- Files that are read in order, from the start, leave in each list the words that its key has been
given since it was last cleared, and no other line has any part in the list. -/
theorem readParts_lists_words (parts : List (String × List Char)) :
    let settings := Settings.readParts parts
    settings.Listed (SettingsEntry.inParts parts) ∧ TakesLists settings settings.complete ∧
      (∀ method, Settings.Undisturbed (fun s => s.modes.get method) (.modes method)) ∧
      (∀ method, Settings.Undisturbed (fun s => s.states.get method) (.states method)) :=
  ⟨Settings.readParts_listed parts, takesLists_complete _,
    fun method => (Settings.grownBy_modes method).undisturbed (Settings.modes_empty method),
    fun method => (Settings.grownBy_states method).undisturbed (Settings.states_empty method)⟩

-- A blank value clears what an earlier file has listed, and the default takes the place of nothing only.
example :
    (Settings.readParts [("main", "[Sleep]\nSuspendState=mem\nHibernateMode=reboot".toList),
      ("late", "[Sleep]\nSuspendState= \nHibernateMode=shutdown".toList)]).complete.states.suspend =
      ["mem", "standby", "freeze"] := by
  decide

end Policy

end SleepPolicy
