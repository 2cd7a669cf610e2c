import Mathlib.Data.List.Infix
import SleepPolicy.FileTree.Edit
import SleepPolicy.Proofs.FileTree.Listing

/-!
# Edited trees

An edit puts something else at a place, with whatever is below it.  Paths that do not lead over the
place do not notice, and neither does a directory about its other names.
-/

namespace SleepPolicy.FileTree

/-- The trees differ at most at a place and below it. -/
structure EditedAt (t t' : FileTree) (place : Place) : Prop where
  base_eq : t.base = t'.base
  node?_eq : ∀ p, ¬place <+: p → t.node? p = t'.node? p

/-- Nothing at the place or below it is looked at when the path is resolved. -/
def PassesBy (t : FileTree) (place : Place) (path : String) : Prop :=
  ∀ p ∈ t.wayTo path, ¬place <+: p

section Edits

variable {t t' : FileTree} {place : Place}

theorem lookup_filter_of_pos (keep : Place → Bool) {p : Place} (h : keep p = true)
    (nodes : List (Place × Node)) :
    (nodes.filter fun entry => keep entry.1).lookup p = nodes.lookup p := by
  induction nodes with
  | nil => rfl
  | cons entry nodes ih =>
    obtain ⟨q, node⟩ := entry
    by_cases hq : p = q
    · subst hq
      rw [List.filter_cons, if_pos h, List.lookup_cons_self, List.lookup_cons_self]
    · have hskip : ∀ rest : List (Place × Node), ((q, node) :: rest).lookup p = rest.lookup p := by
        intro rest
        rw [List.lookup_cons, beq_false_of_ne hq]
      rw [List.filter_cons, hskip]
      split
      · rw [hskip, ih]
      · exact ih

theorem lookup_erase (t : FileTree) {p : Place} (h : ¬place <+: p) :
    (t.erase place).nodes.lookup p = t.nodes.lookup p := by
  have hkeep : (!place.isPrefixOf p) = true := by
    rw [Bool.not_eq_true', ← Bool.not_eq_true, List.isPrefixOf_iff_prefix]
    exact h
  exact lookup_filter_of_pos (fun q => !place.isPrefixOf q) hkeep t.nodes

theorem editedAt_put (t : FileTree) (place : Place) (node : Node) :
    t.EditedAt (t.put place node) place where
  base_eq := rfl
  node?_eq p hp := by
    have hne : p ≠ place := by
      rintro rfl
      exact hp List.prefix_rfl
    have hlookup : (t.put place node).nodes.lookup p = t.nodes.lookup p := by
      rw [put, List.lookup_cons, beq_false_of_ne hne]
      exact lookup_erase t hp
    rw [node?, node?, hlookup]

theorem EditedAt.agreeAlong (h : t.EditedAt t' place) {path : String} (hpath : t.PassesBy place path) :
    t.AgreeAlong t' path :=
  ⟨h.base_eq, fun p hp => h.node?_eq p (hpath p hp)⟩

end Edits

/-- An entry of one directory is not listed in others, and the directory lists its other names as
before. -/
theorem EditedAt.lists_iff {t t' : FileTree} {directory : Place} {name : String}
    (h : t.EditedAt t' (directory ++ [name])) {path other : String}
    (hpath : t.PassesBy (directory ++ [name]) path)
    (hother : t.resolve path = .ok directory → other ≠ name) :
    t.Lists path other ↔ t'.Lists path other := by
  have hagree := h.agreeAlong hpath
  rw [FileTree.lists_iff, FileTree.lists_iff, ← hagree.resolve_eq]
  cases hplace : t.resolve path with
  | error cause => simp
  | ok place =>
    have hentry : ¬directory ++ [name] <+: place ++ [other] := by
      rw [List.prefix_concat_iff, List.append_singleton_inj]
      rintro (⟨rfl, rfl⟩ | hbelow)
      · exact hother hplace rfl
      · exact hpath place (mem_wayTo_of_resolve hplace) hbelow
    simp only [Except.ok.injEq, exists_eq_left', hagree.end_eq hplace, h.node?_eq _ hentry]

end SleepPolicy.FileTree
