import SleepPolicy.Proofs.FileTree.Way

/-!
# Listings

Two trees that hold the same nodes look the same, whatever the order in which their nodes are written
down: every path leads to the same place in both, and every directory lists the same names.

## 1. Trees with the same nodes
-/

namespace SleepPolicy.FileTree

structure Same (t t' : FileTree) : Prop where
  base_eq : t.base = t'.base
  node?_eq : ∀ place, t.node? place = t'.node? place

theorem Same.agreeAlong {t t' : FileTree} (h : t.Same t') (path : String) : t.AgreeAlong t' path :=
  ⟨h.base_eq, fun place _ => h.node?_eq place⟩

/-! ## 2. Names in a directory -/

theorem nameIn?_eq_some_iff {directory place : Place} {name : String} :
    nameIn? directory place = some name ↔ place = directory ++ [name] := by
  unfold nameIn?
  constructor
  · intro h
    split at h
    · rename_i last hlast
      split at h
      · rename_i hdirectory
        obtain rfl := Option.some.inj h
        rw [← hdirectory]
        obtain ⟨rest, rfl⟩ := List.getLast?_eq_some_iff.mp hlast
        rw [List.dropLast_concat]
      · cases h
    · cases h
  · rintro rfl
    simp

theorem mem_namesIn {t : FileTree} {directory : Place} {name : String} :
    name ∈ t.namesIn directory ↔ (t.node? (directory ++ [name])).isSome := by
  have hnode : t.node? (directory ++ [name]) = t.nodes.lookup (directory ++ [name]) := by
    simp [node?]
  rw [hnode, List.lookup_isSome_iff, namesIn, List.mem_eraseDups, List.mem_filterMap]
  constructor
  · rintro ⟨p, hp, hname⟩
    exact ⟨p, hp, beq_iff_eq.mpr (nameIn?_eq_some_iff.mp hname).symm⟩
  · rintro ⟨p, hp, hplace⟩
    exact ⟨p, hp, nameIn?_eq_some_iff.mpr (beq_iff_eq.mp hplace).symm⟩

theorem list_eq_ok_iff {t : FileTree} {path : String} {names : List String} :
    t.list path = .ok names ↔
      ∃ place, t.resolve path = .ok place ∧ t.node? place = some .directory ∧
        t.namesIn place = names := by
  cases hplace : t.resolve path with
  | error e => simp [list, hplace, bind, Except.bind]
  | ok place =>
    simp only [list, hplace, bind, Except.bind, Except.ok.injEq, exists_eq_left']
    split
    · rename_i hdirectory
      rw [hdirectory, Except.ok.injEq]
      simp
    · rename_i hother
      simp only [reduceCtorEq, false_iff, not_and]
      exact fun hdirectory _ => hother hdirectory

/-- A path leads to a directory that can be listed, and the name is in it. -/
def Lists (t : FileTree) (path name : String) : Prop :=
  ∃ names, t.list path = .ok names ∧ name ∈ names

theorem lists_iff {t : FileTree} {path name : String} :
    t.Lists path name ↔
      ∃ place, t.resolve path = .ok place ∧ t.node? place = some .directory ∧
        (t.node? (place ++ [name])).isSome := by
  constructor
  · rintro ⟨names, hlist, hname⟩
    obtain ⟨place, hplace, hdirectory, rfl⟩ := list_eq_ok_iff.mp hlist
    exact ⟨place, hplace, hdirectory, mem_namesIn.mp hname⟩
  · rintro ⟨place, hplace, hdirectory, hname⟩
    exact ⟨t.namesIn place, list_eq_ok_iff.mpr ⟨place, hplace, hdirectory, rfl⟩,
      mem_namesIn.mpr hname⟩

theorem Same.lists_iff {t t' : FileTree} (h : t.Same t') (path name : String) :
    t.Lists path name ↔ t'.Lists path name := by
  rw [FileTree.lists_iff, FileTree.lists_iff]
  simp only [(h.agreeAlong path).resolve_eq, h.node?_eq]

end SleepPolicy.FileTree
