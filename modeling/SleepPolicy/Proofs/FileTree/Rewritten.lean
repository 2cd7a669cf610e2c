import SleepPolicy.Proofs.FileTree.Listing
import SleepPolicy.Proofs.FileTree.Reading

/-!
# Rewritten files

A file that gets another content stays where it is.  Every path leads where it led and every directory
lists what it listed, and only what is read through a path that leads to the file can differ.

## 1. Paths
-/

namespace SleepPolicy.FileTree

/-- The trees differ at most in what the file at a place holds. -/
structure Rewritten (t t' : FileTree) (place : Place) (old new : List UInt8) : Prop where
  base_eq : t.base = t'.base
  old_eq : t.node? place = some (.file old)
  new_eq : t'.node? place = some (.file new)
  node?_eq : ∀ p, p ≠ place → t.node? p = t'.node? p

/-- The tree with another content for a file. -/
def rewrite (t : FileTree) (place : Place) (content : List UInt8) : FileTree :=
  { t with nodes := (place, .file content) :: t.nodes }

theorem rewritten_rewrite {t : FileTree} {place : Place} {old : List UInt8}
    (h : t.node? place = some (.file old)) (new : List UInt8) :
    t.Rewritten (t.rewrite place new) place old new where
  base_eq := rfl
  old_eq := h
  new_eq := by
    -- At the root there is a directory and never a file.
    cases place with
    | nil => cases h
    | cons name rest => exact List.lookup_cons_self
  node?_eq p hp := by
    rw [node?, node?, rewrite, List.lookup_cons, beq_false_of_ne hp]

section Walk

variable {t t' : FileTree} {jump jump' : Place → List String → Except SystemError Place}

theorem walkNames_of_step_eq (hstep : ∀ here name, t.step here name = t'.step here name)
    (hjump : ∀ here names, jump here names = jump' here names) (here : Place) (names : List String) :
    t.walkNames jump here names = t'.walkNames jump' here names := by
  induction names generalizing here with
  | nil => rfl
  | cons name rest ih =>
    rw [walkNames_cons, walkNames_cons, hstep]
    cases t'.step here name with
    | fail cause => rfl
    | go there => exact ih there
    | follow target => exact hjump _ _

theorem walk_of_step_eq (hstep : ∀ here name, t.step here name = t'.step here name) (links : Nat)
    (here : Place) (names : List String) : t.walk links here names = t'.walk links here names := by
  induction links generalizing here names with
  | zero => exact walkNames_of_step_eq hstep (fun _ _ => rfl) here names
  | succ links ih => exact walkNames_of_step_eq hstep ih here names

end Walk

namespace Rewritten

variable {t t' : FileTree} {place : Place} {old new : List UInt8}

theorem isSome_node?_eq (h : t.Rewritten t' place old new) (p : Place) :
    (t.node? p).isSome = (t'.node? p).isSome := by
  by_cases hp : p = place
  · rw [hp, h.old_eq, h.new_eq, Option.isSome_some, Option.isSome_some]
  · rw [h.node?_eq p hp]

theorem directory_iff (h : t.Rewritten t' place old new) (p : Place) :
    t.node? p = some .directory ↔ t'.node? p = some .directory := by
  by_cases hp : p = place
  · simp [hp, h.old_eq, h.new_eq]
  · rw [h.node?_eq p hp]

-- The walk asks of a node what it is, and what a file holds is not part of that.
theorem step_eq (h : t.Rewritten t' place old new) (here : Place) (name : String) :
    t.step here name = t'.step here name := by
  by_cases hhere : here = place
  · rw [step, step, hhere, h.old_eq, h.new_eq]
  · by_cases hthere : here ++ [name] = place
    · rw [step, step, h.node?_eq here hhere, hthere, h.old_eq, h.new_eq]
    · exact step_congr (h.node?_eq here hhere) (h.node?_eq _ hthere)

theorem resolve_eq (h : t.Rewritten t' place old new) (path : String) :
    t.resolve path = t'.resolve path := by
  rw [resolve, resolve, h.base_eq, walk_of_step_eq h.step_eq]

theorem lists_iff (h : t.Rewritten t' place old new) (path name : String) :
    t.Lists path name ↔ t'.Lists path name := by
  rw [FileTree.lists_iff, FileTree.lists_iff]
  simp only [h.resolve_eq path, h.directory_iff, h.isSome_node?_eq]

theorem isNullDevice_eq (h : t.Rewritten t' place old new) (path : String) :
    t.isNullDevice path = t'.isNullDevice path := by
  rw [isNullDevice, isNullDevice, h.resolve_eq path]
  cases t'.resolve path with
  | error cause => rfl
  | ok p => simp only [h.isSome_node?_eq]

/-! ## 2. What is read -/

theorem find_eq (h : t.Rewritten t' place old new) {path : String}
    (hpath : t.resolve path ≠ .ok place) : t.find path = t'.find path := by
  have hresolve := h.resolve_eq path
  rw [find, find, ← hresolve]
  cases hplace : t.resolve path with
  | error cause => rfl
  | ok p =>
    have hp : p ≠ place := by
      rintro rfl
      exact hpath hplace
    simp only [bind, Except.bind, h.node?_eq p hp]

theorem find_old (h : t.Rewritten t' place old new) {path : String}
    (hpath : t.resolve path = .ok place) : t.find path = .ok (.file old) := by
  rw [find, hpath]
  simp only [bind, Except.bind, h.old_eq]

theorem find_new (h : t.Rewritten t' place old new) {path : String}
    (hpath : t.resolve path = .ok place) : t'.find path = .ok (.file new) := by
  rw [find, ← h.resolve_eq path, hpath]
  simp only [bind, Except.bind, h.new_eq]

theorem isFile_eq (h : t.Rewritten t' place old new) (path : String) :
    t.isFile path = t'.isFile path := by
  by_cases hpath : t.resolve path = .ok place
  · rw [isFile, isFile, h.find_old hpath, h.find_new hpath]
  · rw [isFile, isFile, h.find_eq hpath]

theorem readText_eq (h : t.Rewritten t' place old new) {path : String}
    (hpath : t.resolve path ≠ .ok place) : t.readText path = t'.readText path := by
  rw [readText, readText, readBytes, readBytes, h.find_eq hpath]

theorem readText_old (h : t.Rewritten t' place old new) (hold : ¬∃ text, old = Text.encodeUtf8 text)
    {path : String} (hpath : t.resolve path = .ok place) :
    t.readText path = .error .notUtf8 := by
  have hdecode : Text.decodeUtf8? old = none := by
    rw [Option.eq_none_iff_forall_ne_some]
    exact fun text htext => hold ⟨text, Text.decodeUtf8?_eq_some_iff.mp htext⟩
  rw [readText, readBytes, h.find_old hpath]
  simp only [bind, Except.bind, hdecode]

theorem readText_new {text : List Char} (h : t.Rewritten t' place old (Text.encodeUtf8 text))
    {path : String} (hpath : t.resolve path = .ok place) : t'.readText path = .ok text :=
  readText_eq_ok_iff.mpr (.inl (h.find_new hpath))

end Rewritten

end SleepPolicy.FileTree
