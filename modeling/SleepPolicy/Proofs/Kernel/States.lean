import SleepPolicy.Proofs.Kernel

/-!
# Which states the kernel knows

Without states the control file is not looked at.  Otherwise a path that leads nowhere or may not be written
to comes first, then a node that is no text, and a text counts up to its first line feed: one of the states
must stand there as a whole word.  The order of the words and of the states decides nothing but which state
is reported, and that is the first of the states and not of the words.

## 1. Words of the first line
-/

namespace SleepPolicy.Kernel

/-- The word stands in the first line of the text. -/
def InFirstLine (text : List Char) (word : String) : Prop :=
  Text.StandsIn word.toList (text.takeWhile (· ≠ '\n'))

theorem contains_firstWords_iff {text : List Char} {word : String} :
    (firstWords text).contains word = true ↔ InFirstLine text word := by
  rw [List.contains_iff_mem, firstWords, List.mem_map, InFirstLine, ← Text.mem_words_iff]
  constructor
  · rintro ⟨w, hw, rfl⟩
    rwa [String.toList_ofList]
  · intro h
    exact ⟨word.toList, h, String.ofList_toList⟩

/-! ## 2. The answer for a text -/

section States

variable {t : FileTree} {refusals : FileTree.Refusals} {path : String} {states : List String}

theorem knowsState_of_error (hstates : states ≠ []) {failure : Failure} {log : List Event}
    (h : listed t refusals path = ⟨.error failure, log⟩) :
    knowsState t refusals path states = ⟨.error failure, log⟩ := by
  rw [knowsState, if_neg (by simpa using hstates), h]
  exact Logged.ext rfl (List.append_nil log)

theorem knowsState_refused (hstates : states ≠ []) {e : SystemError} (h : t.Refused refusals path e) :
    knowsState t refusals path states = ⟨.error (.notWritable path e), [.notWritable path e]⟩ :=
  knowsState_of_error hstates (listed_refused h)

example :
    let mem := Node.file [0x6D, 0x65, 0x6D]
    knowsState ⟨[(["state"], mem)], []⟩ [(["state"], .accessDenied)] "state" ["mem"] =
      ⟨.error (.notWritable "state" .accessDenied), [.notWritable "state" .accessDenied]⟩ := by
  decide +kernel

theorem knowsState_free (h : states = [] ∨ ∀ e, ¬t.Refused refusals path e) :
    knowsState t refusals path states = knowsState t [] path states := by
  rcases h with rfl | hfree
  · rfl
  · rw [knowsState, knowsState, listed_free hfree]

/-- The answer for a text: a yes that names the first of the states that its first line has. -/
def answerFrom (states : List String) (text : List Char) : Logged (Except Failure Bool) :=
  match states.find? ((firstWords text).contains ·) with
  | some state => ⟨.ok true, [.stateSupported state]⟩
  | none => ⟨.ok false, [.statesUnsupported states]⟩

theorem knowsState_text (hstates : states ≠ []) {text : List Char} (h : t.HoldsText path text) :
    knowsState t [] path states = answerFrom states text := by
  rw [knowsState, if_neg (by simpa using hstates), listed_text h, pure_bind, answerFrom]
  dsimp only
  cases states.find? ((firstWords text).contains ·) <;> rfl

theorem value_answerFrom (states : List String) (text : List Char) :
    (answerFrom states text).value = .ok (states.any ((firstWords text).contains ·)) := by
  rw [answerFrom, ← List.isSome_find?]
  cases states.find? ((firstWords text).contains ·) <;> rfl

theorem any_firstWords_iff {text : List Char} :
    states.any ((firstWords text).contains ·) = true ↔ ∃ state ∈ states, InFirstLine text state := by
  simp only [List.any_eq_true, contains_firstWords_iff]

theorem answerFrom_first {text : List Char} {before after : List String} {state : String}
    (hbefore : ∀ earlier ∈ before, ¬InFirstLine text earlier) (hstate : InFirstLine text state) :
    answerFrom (before ++ state :: after) text = ⟨.ok true, [.stateSupported state]⟩ := by
  have hfind : (before ++ state :: after).find? ((firstWords text).contains ·) = some state := by
    refine List.find?_eq_some_iff_append.mpr ⟨contains_firstWords_iff.mpr hstate, before, after, rfl, ?_⟩
    intro earlier hearlier
    rw [Bool.not_eq_true', Bool.eq_false_iff, Ne, contains_firstWords_iff]
    exact hbefore earlier hearlier
  rw [answerFrom, hfind]

example : answerFrom ["standby", "mem", "freeze"] "freeze mem\nstandby".toList =
    ⟨.ok true, [.stateSupported "mem"]⟩ := by decide

theorem value_answerFrom_perm {states' : List String} {text text' : List Char}
    (hstates : states.Perm states') (hwords : (firstWords text).Perm (firstWords text')) :
    (answerFrom states text).value = (answerFrom states' text').value := by
  have hsame : ((firstWords text).contains ·) = ((firstWords text').contains ·) :=
    funext fun _ => hwords.contains_eq
  rw [value_answerFrom, value_answerFrom, hsame, hstates.any_eq]

end States

/-! ## 3. Every answer -/

/-- How a question about states is answered.  Whether a state is known goes by the words in the first line,
and a yes names the first of the states that is. -/
structure StatesAnswered (t : FileTree) (path : String) (states : List String)
    (answer : Logged (Except Failure Bool)) : Prop where
  unconfigured : states = [] → answer = ⟨.error .noStateConfigured, [.noStateConfigured]⟩
  unresolved : states ≠ [] → ∀ e, t.find path = .error e →
    answer = ⟨.error (.notWritable path e), [.notWritable path e]⟩
  unreadable : states ≠ [] → ∀ node, t.find path = .ok node → (∀ text, ¬t.HoldsText path text) →
    ∃ e, answer = ⟨.error (.unreadable path e), [.controlUnreadable path e]⟩ ∧
      (node = .directory → e = .system .isDirectory) ∧ (∀ content, node = .file content → e = .notUtf8)
  yes : states ≠ [] → ∀ text, t.HoldsText path text →
    (answer.value = .ok true ↔ ∃ state ∈ states, InFirstLine text state)
  no : states ≠ [] → ∀ text, t.HoldsText path text →
    (answer.value = .ok false ↔ ∀ state ∈ states, ¬InFirstLine text state)
  first : ∀ text, t.HoldsText path text → ∀ before state after, states = before ++ state :: after →
    (∀ earlier ∈ before, ¬InFirstLine text earlier) → InFirstLine text state →
      answer.log.map Event.entry = ["DEBUG: Sleep state '" ++ state ++ "' is supported by kernel."]

theorem statesAnswered (t : FileTree) (path : String) (states : List String) :
    StatesAnswered t path states (knowsState t [] path states) := by
  constructor
  case unconfigured =>
    rintro rfl
    rfl
  case unresolved =>
    exact fun hstates e he => knowsState_of_error hstates (listed_unresolved he)
  case unreadable =>
    intro hstates node hnode hnone
    obtain ⟨e, he, hcause⟩ := listed_not_text hnode hnone
    exact ⟨e, knowsState_of_error hstates he, hcause⟩
  case yes =>
    intro hstates text htext
    rw [knowsState_text hstates htext, value_answerFrom, Except.ok.injEq, any_firstWords_iff]
  case no =>
    intro hstates text htext
    rw [knowsState_text hstates htext, value_answerFrom, Except.ok.injEq, Bool.eq_false_iff, Ne,
      any_firstWords_iff]
    simp only [not_exists, not_and]
  case first =>
    rintro text htext before state after rfl hbefore hstate
    rw [knowsState_text (by simp) htext, answerFrom_first hbefore hstate]
    rfl

/-- The answer is by the words alone: it is the same for texts whose first lines have the same words and
for the same states, both in any order, whatever stands below the first line.  A refusal to let the control
file be written to takes the place of its words, and a refusal elsewhere changes nothing. -/
theorem knowsState_by_words :
    (∀ t path states, StatesAnswered t path states (knowsState t [] path states)) ∧
      (∀ (t t' : FileTree) path path' states states' text text',
        t.HoldsText path text → t'.HoldsText path' text' → states.Perm states' →
        (Text.words (text.takeWhile (· ≠ '\n'))).Perm (Text.words (text'.takeWhile (· ≠ '\n'))) →
          (knowsState t [] path states).value = (knowsState t' [] path' states').value) ∧
      ∀ t refusals path states,
        (states ≠ [] → ∀ e, t.Refused refusals path e →
          knowsState t refusals path states = ⟨.error (.notWritable path e), [.notWritable path e]⟩) ∧
        ((states = [] ∨ ∀ e, ¬t.Refused refusals path e) →
          knowsState t refusals path states = knowsState t [] path states) := by
  refine ⟨statesAnswered, ?_, fun t refusals path states =>
    ⟨fun hstates e he => knowsState_refused hstates he, knowsState_free⟩⟩
  intro t t' path path' states states' text text' htext htext' hstates hwords
  by_cases hne : states = []
  · obtain rfl := hne
    rw [List.nil_perm.mp hstates]
    rfl
  · have hne' : states' ≠ [] := fun h => hne (List.perm_nil.mp (h ▸ hstates))
    rw [knowsState_text hne htext, knowsState_text hne' htext']
    exact value_answerFrom_perm hstates (hwords.map String.ofList)

end SleepPolicy.Kernel
