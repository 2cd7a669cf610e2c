import SleepPolicy.Proofs.Kernel.States

/-!
# Which modes the kernel knows

Without modes the kernel takes its default, and the control file is not looked at.  Otherwise the file must be
open to writing, and the words of its first line count, each without the pair of brackets that may be around it.
The first of them that is one of the modes is reported.  The kernel puts brackets around the mode in force:
which one that is makes no difference.

## 1. Modes of the first line
-/

namespace SleepPolicy.Kernel

/-- The words in the first line of the text, without their brackets. -/
def firstModes (text : List Char) : List String :=
  (firstWords text).map withoutBrackets

theorem mem_firstModes_iff {text : List Char} {mode : String} :
    mode ∈ firstModes text ↔ ∃ word, InFirstLine text word ∧ Unbracketed word mode := by
  simp only [firstModes, List.mem_map, ← contains_firstWords_iff, List.contains_iff_mem,
    withoutBrackets_eq_iff]

/-- The mode is one of the list and stands in the first line, possibly in brackets, and none of the words
before it is one of the list. -/
def IsFirstMode (modes : List String) (text : List Char) (mode : String) : Prop :=
  mode ∈ modes ∧ ∃ before word after,
    text.takeWhile (· ≠ '\n') = before ++ (word ++ after) ∧ Text.IsWord word ∧
    (∀ c ∈ before.getLast?, Text.isBlank c = true) ∧ (∀ c ∈ after.head?, Text.isBlank c = true) ∧
    Unbracketed (String.ofList word) mode ∧
    ∀ earlier other, Text.StandsIn earlier before → Unbracketed (String.ofList earlier) other →
      other ∉ modes

theorem isFirstMode_of_find? {modes : List String} {text : List Char} {mode : String}
    (h : (firstModes text).find? (modes.contains ·) = some mode) : IsFirstMode modes text mode := by
  obtain ⟨hmode, first, rest, hsplit, hfirst⟩ := List.find?_eq_some_iff_append.mp h
  -- The modes before the one that is found come from the words before its word.
  rw [firstModes, firstWords, List.map_map] at hsplit
  obtain ⟨ws, found, hwords, rfl, hfound⟩ := List.map_eq_append_iff.mp hsplit
  obtain ⟨word, ws', rfl, rfl, -⟩ := List.map_eq_cons_iff.mp hfound
  have hword : Text.IsWord word := Text.isWord_of_mem_words (by rw [hwords]; simp)
  obtain ⟨before, after, hline, hbefore, hafter, rfl, -⟩ := Text.exists_standing_of_words_eq hwords
  refine ⟨by simpa using hmode, before, word, after, hline, hword, hbefore, hafter,
    withoutBrackets_eq_iff.mp rfl, fun earlier other hearlier hother => ?_⟩
  have hmem : other ∈ (Text.words before).map (withoutBrackets ∘ String.ofList) :=
    List.mem_map.mpr ⟨earlier, hearlier.mem_words, withoutBrackets_eq_iff.mpr hother⟩
  simpa using hfirst other hmem

/-! ## 2. The answer for a text -/

section Modes

variable {t : FileTree} {refusals : FileTree.Refusals} {path : String} {modes : List String}

theorem knowsMode_of_error (hmodes : modes ≠ []) {failure : Failure} {log : List Event}
    (h : listed t refusals path = ⟨.error failure, log⟩) :
    knowsMode t refusals path modes = ⟨.error failure, log⟩ := by
  rw [knowsMode, if_neg (by simpa using hmodes), h]
  exact Logged.ext rfl (List.append_nil log)

theorem knowsMode_refused (hmodes : modes ≠ []) {e : SystemError} (h : t.Refused refusals path e) :
    knowsMode t refusals path modes = ⟨.error (.notWritable path e), [.notWritable path e]⟩ :=
  knowsMode_of_error hmodes (listed_refused h)

theorem knowsMode_free (h : modes = [] ∨ ∀ e, ¬t.Refused refusals path e) :
    knowsMode t refusals path modes = knowsMode t [] path modes := by
  rcases h with rfl | hfree
  · rfl
  · rw [knowsMode, knowsMode, listed_free hfree]

/-- The answer for the modes of a first line: a yes that names the first of them that is wanted. -/
def answerAmong (modes known : List String) : Logged (Except Failure Bool) :=
  match known.find? (modes.contains ·) with
  | some mode => ⟨.ok true, [.modeSupported mode]⟩
  | none => ⟨.ok false, [.modesUnsupported modes]⟩

theorem knowsMode_text (hmodes : modes ≠ []) {text : List Char} (h : t.HoldsText path text) :
    knowsMode t [] path modes = answerAmong modes (firstModes text) := by
  rw [knowsMode, if_neg (by simpa using hmodes), listed_text h, pure_bind, answerAmong, firstModes]
  dsimp only
  cases ((firstWords text).map withoutBrackets).find? (modes.contains ·) <;> rfl

theorem value_answerAmong (modes known : List String) :
    (answerAmong modes known).value = .ok (known.any (modes.contains ·)) := by
  rw [answerAmong, ← List.isSome_find?]
  cases known.find? (modes.contains ·) <;> rfl

theorem any_firstModes_iff {text : List Char} :
    (firstModes text).any (modes.contains ·) = true ↔
      ∃ word mode, InFirstLine text word ∧ Unbracketed word mode ∧ mode ∈ modes := by
  simp only [List.any_eq_true, List.contains_iff_mem, mem_firstModes_iff]
  constructor
  · rintro ⟨mode, ⟨word, hword, hbare⟩, hmode⟩
    exact ⟨word, mode, hword, hbare, hmode⟩
  · rintro ⟨word, mode, hword, hbare, hmode⟩
    exact ⟨mode, ⟨word, hword, hbare⟩, hmode⟩

theorem exists_isFirstMode {text : List Char} (h : (answerAmong modes (firstModes text)).value = .ok true) :
    ∃ mode, IsFirstMode modes text mode ∧
      answerAmong modes (firstModes text) = ⟨.ok true, [.modeSupported mode]⟩ := by
  rw [value_answerAmong, Except.ok.injEq, ← List.isSome_find?] at h
  obtain ⟨mode, hmode⟩ := Option.isSome_iff_exists.mp h
  exact ⟨mode, isFirstMode_of_find? hmode, by rw [answerAmong, hmode]⟩

example : answerAmong ["shutdown", "[platform]", "platform"] (firstModes "test [platform] shutdown\n".toList) =
    ⟨.ok true, [.modeSupported "platform"]⟩ := by decide

/-! ## 3. Every answer -/

/-- How a question about modes is answered.  A yes names the first word of the first line that is one of the
modes. -/
structure ModesAnswered (t : FileTree) (path : String) (modes : List String)
    (answer : Logged (Except Failure Bool)) : Prop where
  unconfigured : modes = [] → answer = ⟨.ok true, [.noModeConfigured]⟩
  unresolved : modes ≠ [] → ∀ e, t.find path = .error e →
    answer = ⟨.error (.notWritable path e), [.notWritable path e]⟩
  unreadable : modes ≠ [] → ∀ node, t.find path = .ok node → (∀ text, ¬t.HoldsText path text) →
    ∃ e, answer = ⟨.error (.unreadable path e), [.controlUnreadable path e]⟩ ∧
      (node = .directory → e = .system .isDirectory) ∧ (∀ content, node = .file content → e = .notUtf8)
  yes : modes ≠ [] → ∀ text, t.HoldsText path text →
    (answer.value = .ok true ↔
      ∃ word mode, InFirstLine text word ∧ Unbracketed word mode ∧ mode ∈ modes)
  no : modes ≠ [] → ∀ text, t.HoldsText path text →
    (answer.value = .ok false ↔
      ∀ word mode, InFirstLine text word → Unbracketed word mode → mode ∉ modes)
  first : modes ≠ [] → ∀ text, t.HoldsText path text → answer.value = .ok true →
    ∃ mode, IsFirstMode modes text mode ∧
      answer.log.map Event.entry = ["DEBUG: Disk sleep mode '" ++ mode ++ "' is supported by kernel."]

theorem modesAnswered (t : FileTree) (path : String) (modes : List String) :
    ModesAnswered t path modes (knowsMode t [] path modes) := by
  constructor
  case unconfigured =>
    rintro rfl
    rfl
  case unresolved =>
    exact fun hmodes e he => knowsMode_of_error hmodes (listed_unresolved he)
  case unreadable =>
    intro hmodes node hnode hnone
    obtain ⟨e, he, hcause⟩ := listed_not_text hnode hnone
    exact ⟨e, knowsMode_of_error hmodes he, hcause⟩
  case yes =>
    intro hmodes text htext
    rw [knowsMode_text hmodes htext, value_answerAmong, Except.ok.injEq, any_firstModes_iff]
  case no =>
    intro hmodes text htext
    rw [knowsMode_text hmodes htext, value_answerAmong, Except.ok.injEq, Bool.eq_false_iff, Ne,
      any_firstModes_iff]
    simp only [not_exists, not_and]
  case first =>
    intro hmodes text htext hyes
    rw [knowsMode_text hmodes htext] at hyes ⊢
    obtain ⟨mode, hfirst, hanswer⟩ := exists_isFirstMode hyes
    refine ⟨mode, hfirst, ?_⟩
    rw [hanswer]
    rfl

end Modes

/-! ## 4. The mode in force -/

/-- The second line is the first one with a pair of brackets put around one of its words. -/
def Marks (plain line : List Char) : Prop :=
  ∃ before word after, plain = before ++ (word ++ after) ∧
    line = before ++ ('[' :: (word ++ [']']) ++ after) ∧ Text.IsWord word ∧
    (∀ c ∈ before.getLast?, Text.isBlank c = true) ∧ (∀ c ∈ after.head?, Text.isBlank c = true)

theorem withoutBrackets_of_not_mem {word : List Char} (h : '[' ∉ word) :
    withoutBrackets (String.ofList word) = String.ofList word := by
  apply withoutBrackets_plain
  intro inner heq
  have hword : word = '[' :: (inner.toList ++ [']']) := by
    rw [← @String.toList_ofList word, heq]
    simp
  exact h (hword ▸ List.mem_cons_self)

theorem withoutBrackets_marked (word : List Char) :
    withoutBrackets (String.ofList ('[' :: (word ++ [']']))) = String.ofList word := by
  have hword : String.ofList ('[' :: (word ++ [']'])) = "[" ++ String.ofList word ++ "]" := by
    rw [← String.toList_inj]
    simp
  rw [hword, withoutBrackets_bracketed]

theorem Marks.map_words {plain line : List Char} (h : Marks plain line) (hopen : '[' ∉ plain) :
    (Text.words line).map (withoutBrackets ∘ String.ofList) = (Text.words plain).map String.ofList := by
  obtain ⟨before, word, after, rfl, rfl, hword, hbefore, hafter⟩ := h
  have hmarked : Text.IsWord ('[' :: (word ++ [']'])) := by
    refine ⟨List.cons_ne_nil _ _, ?_⟩
    rw [List.forall_mem_cons, List.forall_mem_append]
    exact ⟨by decide, hword.2, List.forall_mem_singleton.mpr (by decide)⟩
  have hplain : ∀ s, (∀ c ∈ s, c ∈ before ++ (word ++ after)) →
      (Text.words s).map (withoutBrackets ∘ String.ofList) = (Text.words s).map String.ofList := by
    intro s hs
    refine List.map_congr_left fun w hw => withoutBrackets_of_not_mem fun hmem => ?_
    obtain ⟨-, first, rest, rfl, -⟩ := Text.mem_words_iff.mp hw
    exact hopen (hs '[' (by simp [hmem]))
  have hword' : Text.words word = [word] := Text.words_eq_singleton hword
  rw [Text.words_standing hmarked hbefore hafter, Text.words_standing hword hbefore hafter,
    List.map_append, List.map_append, List.map_cons, List.map_cons, hplain before (by simp +contextual),
    hplain after (by simp +contextual), Function.comp_apply, withoutBrackets_marked]

/-- Every question about modes is answered by the words of the first line.  If no other bracket opens there
than that around the mode in force, then the answer and its report are the same whichever mode is in force.
A refusal to let the control file be written to takes the place of its words, and a refusal elsewhere changes
nothing. -/
theorem knowsMode_by_words :
    (∀ t path modes, ModesAnswered t path modes (knowsMode t [] path modes)) ∧
      (∀ (t t' : FileTree) path path' modes text text' plain,
        t.HoldsText path text → t'.HoldsText path' text' → '[' ∉ plain →
        Marks plain (text.takeWhile (· ≠ '\n')) → Marks plain (text'.takeWhile (· ≠ '\n')) →
          knowsMode t [] path modes = knowsMode t' [] path' modes) ∧
      ∀ t refusals path modes,
        (modes ≠ [] → ∀ e, t.Refused refusals path e →
          knowsMode t refusals path modes = ⟨.error (.notWritable path e), [.notWritable path e]⟩) ∧
        ((modes = [] ∨ ∀ e, ¬t.Refused refusals path e) →
          knowsMode t refusals path modes = knowsMode t [] path modes) := by
  refine ⟨modesAnswered, ?_, fun t refusals path modes =>
    ⟨fun hmodes e he => knowsMode_refused hmodes he, knowsMode_free⟩⟩
  intro t t' path path' modes text text' plain htext htext' hopen hmarks hmarks'
  by_cases hne : modes = []
  · rw [hne]
    rfl
  · have hmodes : firstModes text = firstModes text' := by
      rw [firstModes, firstWords, List.map_map, hmarks.map_words hopen, ← hmarks'.map_words hopen,
        firstModes, firstWords, List.map_map]
    rw [knowsMode_text hne htext, knowsMode_text hne htext', hmodes]

-- The kernel switches from the first mode to the last; the line end takes a carriage return along.
theorem knowsMode_by_words_switched :
    let holding := fun text : String =>
      (⟨[(["disk"], .file (Text.encodeUtf8 text.toList))], []⟩ : FileTree)
    let t := holding "[platform] test shutdown\r\n[reboot]\n"
    let t' := holding "platform test [shutdown]\r\n"
    let plain := "platform test shutdown\r".toList
    Marks plain ("[platform] test shutdown\r\n[reboot]\n".toList.takeWhile (· ≠ '\n')) ∧
      Marks plain ("platform test [shutdown]\r\n".toList.takeWhile (· ≠ '\n')) ∧
      knowsMode t [] "disk" ["reboot", "shutdown"] = ⟨.ok true, [.modeSupported "shutdown"]⟩ ∧
      knowsMode t' [] "disk" ["reboot", "shutdown"] = ⟨.ok true, [.modeSupported "shutdown"]⟩ := by
  intro holding t t' plain
  have hmarks : Marks plain ("[platform] test shutdown\r\n[reboot]\n".toList.takeWhile (· ≠ '\n')) :=
    ⟨[], "platform".toList, " test shutdown\r".toList, by decide, by decide, by decide, by simp,
      fun _ h => Option.some.inj h ▸ by decide⟩
  have hmarks' : Marks plain ("platform test [shutdown]\r\n".toList.takeWhile (· ≠ '\n')) :=
    ⟨"platform test ".toList, "shutdown".toList, ['\r'], by decide, by decide, by decide,
      fun _ h => Option.some.inj h ▸ by decide, fun _ h => Option.some.inj h ▸ by decide⟩
  have hanswer : knowsMode t [] "disk" ["reboot", "shutdown"] = ⟨.ok true, [.modeSupported "shutdown"]⟩ := by
    decide +kernel
  have hsame := knowsMode_by_words.2.1 t t' "disk" "disk" ["reboot", "shutdown"] _ _ plain
    (.inl rfl) (.inl rfl) (by decide) hmarks hmarks'
  exact ⟨hmarks, hmarks', hanswer, hsame ▸ hanswer⟩

end SleepPolicy.Kernel
