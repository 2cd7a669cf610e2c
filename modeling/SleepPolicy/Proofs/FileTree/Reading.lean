import SleepPolicy.FileTree.Access
import SleepPolicy.Proofs.Text.Utf8

/-!
# Reading files

What can be read from a path is decided by the node that it leads to: a file that holds UTF-8 can be
read, and so can the null device, which is empty.  Whether it may be written to is decided by the place.

## 1. Texts
-/

namespace SleepPolicy.FileTree

variable {t : FileTree} {path : String} {text : List Char}

/-- The path leads nowhere: there is nothing at it, or a link whose target is not there. -/
def Missing (t : FileTree) (path : String) : Prop :=
  t.find path = .error .noEntry

/-- The path leads to a text. -/
def HoldsText (t : FileTree) (path : String) (text : List Char) : Prop :=
  t.find path = .ok (.file (Text.encodeUtf8 text)) ∨ t.find path = .ok .nullDevice ∧ text = []

theorem readText_eq_ok_iff : t.readText path = .ok text ↔ t.HoldsText path text := by
  have hempty : Text.decodeUtf8? [] = some [] := rfl
  unfold readText readBytes HoldsText
  cases hnode : t.find path with
  | error e => simp [bind, Except.bind]
  | ok node =>
    cases node with
    | file content =>
      simp only [bind, Except.bind, Except.ok.injEq, Node.file.injEq, reduceCtorEq, false_and,
        or_false, ← Text.decodeUtf8?_eq_some_iff]
      cases Text.decodeUtf8? content <;> simp
    | nullDevice => simp [bind, Except.bind, hempty, eq_comm]
    | directory => simp [bind, Except.bind]
    | link target => simp [bind, Except.bind]

theorem exists_readText_error (h : ∀ text, ¬t.HoldsText path text) :
    ∃ e, t.readText path = .error e := by
  cases hread : t.readText path with
  | error e => exact ⟨e, rfl⟩
  | ok text => exact absurd (readText_eq_ok_iff.mp hread) (h text)

theorem readText_directory (h : t.find path = .ok .directory) :
    t.readText path = .error (.system .isDirectory) := by
  rw [readText, readBytes, h]
  rfl

theorem readText_notUtf8 {content : List UInt8} (h : t.find path = .ok (.file content))
    (hnone : ∀ text, ¬t.HoldsText path text) : t.readText path = .error .notUtf8 := by
  have hdecode : Text.decodeUtf8? content = none := by
    rw [Option.eq_none_iff_forall_ne_some]
    intro text htext
    rw [Text.decodeUtf8?_eq_some_iff] at htext
    exact hnone text (.inl (htext ▸ h))
  have hbytes : t.readBytes path = .ok content := by
    rw [readBytes, h]
    rfl
  simp only [readText, hbytes, hdecode]

theorem readText_eq_noEntry_iff : t.readText path = .error (.system .noEntry) ↔ t.Missing path := by
  unfold readText readBytes Missing
  cases t.find path with
  | error e => simp [bind, Except.bind]
  | ok node =>
    cases node with
    | file content =>
      simp only [bind, Except.bind, reduceCtorEq, iff_false]
      cases Text.decodeUtf8? content <;> simp
    | nullDevice => simp [bind, Except.bind, Text.decodeUtf8?, Text.scan]
    | directory => simp [bind, Except.bind]
    | link target => simp [bind, Except.bind]

/-! ## 2. Write access -/

variable {refusals : Refusals} {e : SystemError}

/-- The path leads to something that may not be written to, for this reason. -/
def Refused (t : FileTree) (refusals : Refusals) (path : String) (e : SystemError) : Prop :=
  ∃ place node, t.resolve path = .ok place ∧ t.node? place = some node ∧
    refusals.lookup place = some e

theorem not_refused_nil : ¬t.Refused [] path e := by
  rintro ⟨place, node, -, -, hlookup⟩
  cases hlookup

theorem checkWritable_refused (h : t.Refused refusals path e) :
    t.checkWritable refusals path = .error e := by
  obtain ⟨place, node, hplace, hnode, hlookup⟩ := h
  simp [checkWritable, hplace, hnode, hlookup, bind, Except.bind]

/-- A refusal at other places makes no difference: what is there may be written to. -/
theorem checkWritable_free (h : ∀ e, ¬t.Refused refusals path e) :
    t.checkWritable refusals path = (t.find path).map fun _ => () := by
  unfold checkWritable find
  cases hplace : t.resolve path with
  | error cause => rfl
  | ok place =>
    cases hnode : t.node? place with
    | none => simp [bind, Except.bind, hnode, Except.map]
    | some node =>
      have hlookup : refusals.lookup place = none := by
        rw [Option.eq_none_iff_forall_ne_some]
        exact fun cause hcause => h cause ⟨place, node, hplace, hnode, hcause⟩
      simp [bind, Except.bind, hnode, hlookup, Except.map]

theorem checkWritable_nil : t.checkWritable [] path = (t.find path).map fun _ => () :=
  checkWritable_free fun _ => not_refused_nil

end SleepPolicy.FileTree
