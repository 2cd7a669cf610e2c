import Mathlib.Data.List.TakeWhile
import SleepPolicy.Kernel
import SleepPolicy.Proofs.FileTree.Reading
import SleepPolicy.Proofs.Text.Lines
import SleepPolicy.Proofs.Text.Words
import SleepPolicy.SystemFiles

/-!
# What the kernel knows

The kernel knows a state if its control file lists the state, and a mode if the other file lists it
with or without brackets.  A control file that cannot be read lists nothing, and one that may not be
written to answers nothing.

## 1. Words of a control file
-/

namespace SleepPolicy.Kernel

/-- The path leads to a text, and the word is in its first line. -/
def Listed (t : FileTree) (path word : String) : Prop :=
  ∃ text, t.HoldsText path text ∧ word.toList ∈ Text.words (text.takeWhile (· ≠ '\n'))

theorem words_dropReturn (line : List Char) : Text.words (Text.dropReturn line) = Text.words line := by
  unfold Text.dropReturn
  split
  · rename_i hlast
    obtain ⟨before, rfl⟩ := List.getLast?_eq_some_iff.mp hlast
    rw [List.dropLast_concat, Text.words_concat_blank (by decide)]
  · rfl

-- The carriage return that a line end may take along is blank.
theorem words_firstLine (text : List Char) :
    Text.words (Text.firstLine text) = Text.words (text.takeWhile (· ≠ '\n')) := by
  have hinside : ∀ line : List Char, '\n' ∉ line → ∀ c ∈ line, decide (c ≠ '\n') = true :=
    fun line hline c hc => decide_eq_true (ne_of_mem_of_not_mem hc hline)
  by_cases hmem : '\n' ∈ text
  · obtain ⟨line, below, rfl, hline⟩ := List.eq_append_cons_of_mem hmem
    rw [List.takeWhile_append_of_pos (hinside line hline), List.takeWhile_cons_of_neg (by simp),
      List.append_nil, Text.firstLine, Text.lines_cons hline, List.headD_cons, words_dropReturn]
  · rw [List.takeWhile_eq_self_iff.mpr (hinside text hmem)]
    by_cases hne : text = []
    · rw [hne]
      rfl
    · rw [Text.firstLine, Text.lines_of_not_mem hmem hne]
      rfl

/-- The words in the first line of the text. -/
def firstWords (text : List Char) : List String :=
  (Text.words (text.takeWhile (· ≠ '\n'))).map String.ofList

section ListedOf

variable {t : FileTree} {refusals : FileTree.Refusals} {path : String}

/-- Write access comes before anything is read. -/
theorem listed_of_not_writable {e : SystemError} (h : t.checkWritable refusals path = .error e) :
    listed t refusals path = ⟨.error (.notWritable path e), [.notWritable path e]⟩ := by
  rw [listed, h]
  rfl

theorem listed_refused {e : SystemError} (h : t.Refused refusals path e) :
    listed t refusals path = ⟨.error (.notWritable path e), [.notWritable path e]⟩ :=
  listed_of_not_writable (FileTree.checkWritable_refused h)

theorem listed_free (h : ∀ e, ¬t.Refused refusals path e) :
    listed t refusals path = listed t [] path := by
  rw [listed, listed, FileTree.checkWritable_free h, FileTree.checkWritable_nil]

theorem listed_text {text : List Char} (h : t.HoldsText path text) :
    listed t [] path = pure (.ok (firstWords text)) := by
  have hread : t.readText path = .ok text := FileTree.readText_eq_ok_iff.mpr h
  have hwritable : t.checkWritable [] path = .ok () := by
    rcases h with h | ⟨h, -⟩ <;> rw [FileTree.checkWritable_nil, h] <;> rfl
  simp only [listed, hwritable, hread, words_firstLine, firstWords]

theorem listed_unresolved {e : SystemError} (h : t.find path = .error e) :
    listed t [] path = ⟨.error (.notWritable path e), [.notWritable path e]⟩ := by
  apply listed_of_not_writable
  rw [FileTree.checkWritable_nil, h]
  rfl

theorem listed_unreadable {node : Node} {e : ReadError} (hnode : t.find path = .ok node)
    (he : t.readText path = .error e) :
    listed t [] path = ⟨.error (.unreadable path e), [.controlUnreadable path e]⟩ := by
  rw [listed, FileTree.checkWritable_nil, hnode, he]
  rfl

/-- A directory and a file that is no text are told apart by the cause. -/
theorem listed_not_text {node : Node} (hnode : t.find path = .ok node)
    (hnone : ∀ text, ¬t.HoldsText path text) :
    ∃ e, listed t [] path = ⟨.error (.unreadable path e), [.controlUnreadable path e]⟩ ∧
      (node = .directory → e = .system .isDirectory) ∧ (∀ content, node = .file content → e = .notUtf8) := by
  obtain ⟨e, he⟩ := FileTree.exists_readText_error hnone
  refine ⟨e, listed_unreadable hnode he, ?_, ?_⟩
  · rintro rfl
    exact Except.error.inj (he.symm.trans (FileTree.readText_directory hnode))
  · rintro content rfl
    exact Except.error.inj (he.symm.trans (FileTree.readText_notUtf8 hnode hnone))

theorem value_listed_ok {text : List Char} (h : t.HoldsText path text) :
    (listed t [] path).value = .ok (firstWords text) := by
  rw [listed_text h, Logged.value_pure]

theorem value_listed_error (h : ∀ text, ¬t.HoldsText path text) :
    ∃ failure, (listed t [] path).value = .error failure := by
  obtain ⟨e, hread⟩ := FileTree.exists_readText_error h
  cases hnode : t.find path with
  | error cause => exact ⟨.notWritable path cause, congrArg Logged.value (listed_unresolved hnode)⟩
  | ok node => exact ⟨.unreadable path e, congrArg Logged.value (listed_unreadable hnode hread)⟩

end ListedOf

/-! ## 2. Brackets -/

/-- One pair of brackets around a mode, if there is one, is not part of it. -/
def Unbracketed (word mode : String) : Prop :=
  word = "[" ++ mode ++ "]" ∨ word = mode ∧ ∀ inner, word ≠ "[" ++ inner ++ "]"

theorem withoutBrackets_bracketed (mode : String) : withoutBrackets ("[" ++ mode ++ "]") = mode := by
  have hlist : ("[" ++ mode ++ "]").toList = '[' :: (mode.toList ++ [']']) := by simp
  simp [withoutBrackets, hlist]

theorem withoutBrackets_plain {word : String} (h : ∀ inner, word ≠ "[" ++ inner ++ "]") :
    withoutBrackets word = word := by
  unfold withoutBrackets
  split
  · rename_i rest hword
    split
    · rename_i hlast
      obtain ⟨inner, rfl⟩ := List.getLast?_eq_some_iff.mp hlast
      refine absurd ?_ (h (String.ofList inner))
      rw [← String.toList_inj, hword]
      simp
    · rfl
  · rfl

theorem withoutBrackets_eq_iff {word mode : String} :
    withoutBrackets word = mode ↔ Unbracketed word mode := by
  by_cases h : ∃ inner, word = "[" ++ inner ++ "]"
  · obtain ⟨inner, rfl⟩ := h
    rw [withoutBrackets_bracketed]
    constructor
    · rintro rfl
      exact .inl rfl
    · rintro (hmode | ⟨-, hplain⟩)
      · rw [← withoutBrackets_bracketed inner, hmode, withoutBrackets_bracketed]
      · exact absurd rfl (hplain inner)
  · have hplain : ∀ inner, word ≠ "[" ++ inner ++ "]" := not_exists.mp h
    rw [withoutBrackets_plain hplain]
    constructor
    · rintro rfl
      exact .inr ⟨rfl, hplain⟩
    · rintro (hmode | ⟨rfl, -⟩)
      · exact absurd hmode (hplain mode)
      · rfl

/-! ## 3. States and modes -/

section Known

variable {t : FileTree} {refusals : FileTree.Refusals} {path : String}

/-- A yes rests on a word of a file that may be written to. -/
theorem exists_mem_listed_iff {P : String → Prop} :
    (∃ known, (listed t refusals path).value = .ok known ∧ ∃ word ∈ known, P word) ↔
      (∀ e, ¬t.Refused refusals path e) ∧ ∃ word, Listed t path word ∧ P word := by
  constructor
  · rintro ⟨known, hknown, word, hword, hP⟩
    have hfree : ∀ e, ¬t.Refused refusals path e := by
      intro e he
      rw [listed_refused he] at hknown
      cases hknown
    refine ⟨hfree, ?_⟩
    rw [listed_free hfree] at hknown
    by_cases hread : ∃ text, t.HoldsText path text
    · obtain ⟨text, htext⟩ := hread
      rw [value_listed_ok htext, Except.ok.injEq] at hknown
      subst hknown
      obtain ⟨w, hw, rfl⟩ := List.mem_map.mp hword
      exact ⟨String.ofList w, ⟨text, htext, by rwa [String.toList_ofList]⟩, hP⟩
    · obtain ⟨failure, hfailure⟩ := value_listed_error (not_exists.mp hread)
      rw [hfailure] at hknown
      cases hknown
  · rintro ⟨hfree, word, ⟨text, htext, hword⟩, hP⟩
    rw [listed_free hfree]
    exact ⟨_, value_listed_ok htext, word, List.mem_map.mpr ⟨_, hword, String.ofList_toList⟩, hP⟩

theorem value_knowsState_eq_true_iff {states : List String} :
    (knowsState t refusals path states).value = .ok true ↔
      (∀ e, ¬t.Refused refusals path e) ∧ ∃ state ∈ states, Listed t path state := by
  have hcomm : (∃ state ∈ states, Listed t path state) ↔ ∃ word, Listed t path word ∧ word ∈ states :=
    exists_congr fun _ => and_comm
  rw [hcomm, ← exists_mem_listed_iff]
  by_cases hstates : states = []
  · simp [knowsState, hstates]
  · cases hlisted : (listed t refusals path).value with
    | error failure => simp [knowsState, hstates, hlisted]
    | ok known =>
      have hyes : (knowsState t refusals path states).value = .ok true ↔
          (states.find? (known.contains ·)).isSome := by
        simp only [knowsState, List.isEmpty_iff, hstates, if_false, Logged.value_bind, hlisted]
        cases states.find? (known.contains ·) <;> simp
      rw [hyes, List.find?_isSome]
      simp [and_comm]

theorem value_knowsMode_eq_true_iff {modes : List String} :
    (knowsMode t refusals path modes).value = .ok true ↔
      modes = [] ∨ (∀ e, ¬t.Refused refusals path e) ∧
        ∃ word mode, Listed t path word ∧ Unbracketed word mode ∧ mode ∈ modes := by
  have hmode : (∃ word mode, Listed t path word ∧ Unbracketed word mode ∧ mode ∈ modes) ↔
      ∃ word, Listed t path word ∧ withoutBrackets word ∈ modes := by
    simp only [← withoutBrackets_eq_iff, exists_and_left, exists_eq_left']
  rw [hmode, ← exists_mem_listed_iff]
  by_cases hmodes : modes = []
  · simp [knowsMode, hmodes]
  · rw [or_iff_right hmodes]
    cases hlisted : (listed t refusals path).value with
    | error failure => simp [knowsMode, hmodes, hlisted]
    | ok known =>
      have hyes : (knowsMode t refusals path modes).value = .ok true ↔
          ((known.map withoutBrackets).find? (modes.contains ·)).isSome := by
        simp only [knowsMode, List.isEmpty_iff, hmodes, if_false, Logged.value_bind, hlisted]
        cases (known.map withoutBrackets).find? (modes.contains ·) <;> simp
      rw [hyes, List.find?_isSome]
      simp only [Except.ok.injEq, exists_eq_left', List.mem_map, List.contains_iff_mem,
        exists_exists_and_eq_and]

end Known

/-- What an operation with such states and modes needs from the kernel: one of the states, and one of
the modes if there are any. -/
structure Knows (t : FileTree) (files : SystemFiles) (states modes : List String) : Prop where
  state : ∃ state ∈ states, Listed t files.state state
  mode : modes = [] ∨ ∃ word mode, Listed t files.disk word ∧ Unbracketed word mode ∧ mode ∈ modes

/-- A control file that an operation with such modes asks for may not be written to. -/
def Withheld (t : FileTree) (refusals : FileTree.Refusals) (files : SystemFiles)
    (modes : List String) : Prop :=
  ∃ e, t.Refused refusals files.state e ∨ modes ≠ [] ∧ t.Refused refusals files.disk e

theorem not_withheld_nil {t : FileTree} {files : SystemFiles} {modes : List String} :
    ¬Withheld t [] files modes := by
  rintro ⟨e, hrefused | ⟨-, hrefused⟩⟩ <;> exact FileTree.not_refused_nil hrefused

theorem knows_iff {t : FileTree} {refusals : FileTree.Refusals} {files : SystemFiles}
    {states modes : List String} :
    Knows t files states modes ∧ ¬Withheld t refusals files modes ↔
      (knowsState t refusals files.state states).value = .ok true ∧
        (knowsMode t refusals files.disk modes).value = .ok true := by
  rw [value_knowsState_eq_true_iff, value_knowsMode_eq_true_iff]
  constructor
  · rintro ⟨⟨hstate, hmode⟩, hfree⟩
    refine ⟨⟨fun e he => hfree ⟨e, .inl he⟩, hstate⟩, ?_⟩
    by_cases hmodes : modes = []
    · exact .inl hmodes
    · exact .inr ⟨fun e he => hfree ⟨e, .inr ⟨hmodes, he⟩⟩, hmode.resolve_left hmodes⟩
  · rintro ⟨⟨hfree, hstate⟩, hmode⟩
    refine ⟨⟨hstate, hmode.imp_right And.right⟩, ?_⟩
    rintro ⟨e, hrefused | ⟨hmodes, hrefused⟩⟩
    · exact hfree e hrefused
    · exact (hmode.resolve_left hmodes).1 e hrefused

end SleepPolicy.Kernel
