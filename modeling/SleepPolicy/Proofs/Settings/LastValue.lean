import SleepPolicy.Proofs.Settings.Effective

/-!
# Last values

A flag or a time span is what its key is given last, among the values that can be read; the other
keys have no part in it.

## 1. Values of a key
-/

namespace SleepPolicy

namespace Key

theorem ofName?_eq_some_iff {name : String} {key : Key} :
    ofName? name = some key ↔ name = key.name := by
  constructor
  · intro h
    have hname : (key.name == name) = true := by simpa using List.find?_some h
    exact (beq_iff_eq.mp hname).symm
  · rintro rfl
    exact ofName?_name key

end Key

section LastValue

variable {α : Type} (read : List Char → Option α) (key : Key)

/-- The value of an entry, if it belongs to the key and can be read. -/
def SettingsEntry.value? (e : SettingsEntry) : Option α :=
  if e.key = key.name.toList then read e.value else none

/-- The last value that the entries of a key have, entries with unreadable values left out. -/
def SettingsEntry.lastValue? (es : List SettingsEntry) : Option α :=
  (es.filterMap (SettingsEntry.value? read key)).getLast?

end LastValue

/-! ## 2. Fields and their keys -/

theorem Assignment.key_of_read? {key : Key} {value : List Char} {a : Assignment}
    (h : read? key value = some a) : a.key = key := by
  cases key with
  | modes method => rw [← Option.some.inj h, Assignment.key]
  | states method => rw [← Option.some.inj h, Assignment.key]
  | _ =>
    obtain ⟨b, -, rfl⟩ := Option.map_eq_some_iff.mp h
    rfl

namespace Settings

/-- The settings after an entry, the same as before if it assigns nothing. -/
def apply (s : Settings) (e : SettingsEntry) : Settings :=
  e.assignment?.elim s s.assign

theorem foldl_assign_eq (es : List SettingsEntry) (s : Settings) :
    (es.filterMap SettingsEntry.assignment?).foldl assign s = es.foldl apply s := by
  rw [List.foldl_filterMap]
  congr 1
  funext s e
  rw [apply]
  cases e.assignment? <;> rfl

/-- A part of the settings that no key but its own touches changes only with entries of that key. -/
theorem apply_owned {α : Type} {field : Settings → α} {key : Key}
    (h : ∀ (s : Settings) a, a.key ≠ key → field (s.assign a) = field s) (s : Settings)
    (e : SettingsEntry) :
    field (s.apply e) =
      if e.key = key.name.toList then
        (Assignment.read? key e.value).elim (field s) fun a => field (s.assign a)
      else field s := by
  have hkey : e.key = key.name.toList ↔ Key.ofName? (String.ofList e.key) = some key := by
    rw [Key.ofName?_eq_some_iff, ← String.toList_inj, String.toList_ofList]
  rw [apply, SettingsEntry.assignment?]
  simp only [hkey]
  cases Key.ofName? (String.ofList e.key) with
  | none => rfl
  | some k =>
    simp only [Option.bind_some, Option.some.injEq]
    by_cases hk : k = key
    · rw [if_pos hk, hk]
      cases Assignment.read? key e.value <;> rfl
    · rw [if_neg hk]
      cases hread : Assignment.read? k e.value with
      | none => rfl
      | some a => exact h s a (Assignment.key_of_read? hread ▸ hk)

/-- A part of the settings that its key sets to what is read from the text, and that no other key
touches. -/
structure SetBy {α : Type} (field : Settings → α) (key : Key) (read : List Char → Option α) :
    Prop where
  own : ∀ (s : Settings) value,
    (Assignment.read? key value).map (fun a => field (s.assign a)) = read value
  others : ∀ (s : Settings) a, a.key ≠ key → field (s.assign a) = field s

theorem setBy_allow (operation : Operation) :
    SetBy (fun s => s.allow.get operation) (.allow operation) Permission.read? where
  own s value := by
    rw [Assignment.read?, Option.map_map]
    simp only [Function.comp_def, assign, PerOperation.get_set, if_pos]
    exact Option.map_id'
  others s a h := by
    cases a with
    | allow o permission =>
      have hne : o ≠ operation := by
        rintro rfl
        exact h rfl
      simp only [assign, PerOperation.get_set, if_neg hne]
    | _ => rfl

theorem setBy_delay : SetBy Settings.delay .delay Assignment.span? where
  own s value := by
    rw [Assignment.read?, Option.map_map]
    exact Option.map_id'
  others s a h := by
    cases a with
    | delay span => exact absurd rfl h
    | _ => rfl

theorem setBy_estimation : SetBy Settings.estimation .estimation Assignment.span? where
  own s value := by
    rw [Assignment.read?, Option.map_map]
    exact Option.map_id'
  others s a h := by
    cases a with
    | estimation span => exact absurd rfl h
    | _ => rfl

/-! ## 3. The settings -/

section Field

variable {α : Type} {field : Settings → α} {key : Key} {read : List Char → Option α}

/-- An entry sets the field to its value if it has one. -/
theorem SetBy.step (h : SetBy field key read) (s : Settings) (e : SettingsEntry) :
    field (s.apply e) = (e.value? read key).getD (field s) := by
  rw [apply_owned h.others, SettingsEntry.value?]
  split
  · rw [← h.own s e.value]
    cases Assignment.read? key e.value <;> rfl
  · rfl

/-- So after all entries the field has the last value. -/
theorem SetBy.run (h : SetBy field key read) (es : List SettingsEntry) (s : Settings) :
    field (es.foldl apply s) = (SettingsEntry.lastValue? read key es).getD (field s) := by
  induction es generalizing s with
  | nil => rfl
  | cons e es ih =>
    rw [List.foldl_cons, ih, h.step, SettingsEntry.lastValue?, SettingsEntry.lastValue?,
      List.filterMap_cons]
    cases e.value? read key with
    | none => rfl
    | some value => simp [List.getLast?_cons]

end Field

/-- The flags and time spans are the last values of their keys. -/
structure Assigned (s : Settings) (es : List SettingsEntry) : Prop where
  allow : ∀ operation, s.allow.get operation =
    (SettingsEntry.lastValue? Permission.read? (.allow operation) es).getD .unset
  delay : s.delay = (SettingsEntry.lastValue? Assignment.span? .delay es).getD none
  estimation : s.estimation = (SettingsEntry.lastValue? Assignment.span? .estimation es).getD none

theorem readParts_assigned (parts : List (String × List Char)) :
    (readParts parts).Assigned (SettingsEntry.inParts parts) := by
  rw [readParts_eq, foldl_assign_eq]
  constructor
  · intro operation
    have hempty : empty.allow.get operation = .unset :=
      PerOperation.get_fill Permission.unset operation
    rw [← hempty]
    exact (setBy_allow operation).run _ empty
  · exact setBy_delay.run _ empty
  · exact setBy_estimation.run _ empty

end Settings

end SleepPolicy
