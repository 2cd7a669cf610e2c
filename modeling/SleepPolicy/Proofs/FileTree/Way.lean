import SleepPolicy.FileTree.Access

/-!
# The way of a path

A path is resolved by looking at some places in turn, and nothing else in the tree has any part in it.
So trees that agree at these places agree about all that the path leads to.

## 1. Single steps
-/

namespace SleepPolicy.FileTree

/-- What comes of a name on the way. -/
inductive Step
  | fail (cause : SystemError)
  | go (there : Place)
  | follow (target : String)

def step (t : FileTree) (here : Place) (name : String) : Step :=
  match t.node? here with
  | none => .fail .noEntry
  | some .directory =>
      if name = "" ∨ name = "." then .go here
      else if name = ".." then .go here.dropLast
      else
        match t.node? (here ++ [name]) with
        | none => .fail .noEntry
        | some (.link target) => .follow target
        | some _ => .go (here ++ [name])
  | some _ => .fail .notDirectory

theorem walkNames_cons (t : FileTree) (jump : Place → List String → Except SystemError Place)
    (here : Place) (name : String) (rest : List String) :
    t.walkNames jump here (name :: rest) =
      match t.step here name with
      | .fail cause => .error cause
      | .go there => t.walkNames jump there rest
      | .follow target => jump (startOf here target) (components target ++ rest) := by
  rw [walkNames, step]
  cases t.node? here with
  | none => rfl
  | some node =>
    cases node with
    | directory =>
      by_cases hstay : name = "" ∨ name = "."
      · simp only [if_pos hstay]
      · by_cases hup : name = ".."
        · simp only [if_neg hstay, if_pos hup]
        · simp only [if_neg hstay, if_neg hup]
          rcases t.node? (here ++ [name]) with _ | (_ | _ | _ | _) <;> rfl
    | _ => rfl

theorem step_congr {t t' : FileTree} {here : Place} {name : String}
    (hhere : t.node? here = t'.node? here)
    (hthere : t.node? (here ++ [name]) = t'.node? (here ++ [name])) :
    t.step here name = t'.step here name := by
  rw [step, step, hhere, hthere]

/-! ## 2. The whole way -/

/-- The places that are looked at on the way down the names, with the place where the way ends. -/
def wayNames (t : FileTree) (jump : Place → List String → List Place) :
    Place → List String → List Place
  | here, [] => [here]
  | here, name :: rest =>
      here :: (here ++ [name]) ::
        match t.step here name with
        | .fail _ => []
        | .go there => t.wayNames jump there rest
        | .follow target => jump (startOf here target) (components target ++ rest)

def way (t : FileTree) : Nat → Place → List String → List Place
  | 0 => t.wayNames fun _ _ => []
  | links + 1 => t.wayNames (t.way links)

/-- The places that are looked at when a path is resolved. -/
def wayTo (t : FileTree) (path : String) : List Place :=
  if path = "" then [] else t.way linkLimit (startOf t.base path) (components path)

section Walk

variable {t t' : FileTree} {here place : Place} {names : List String}
variable {jump jump' : Place → List String → Except SystemError Place}
variable {places : Place → List String → List Place}

theorem walkNames_congr
    (hjump : ∀ here names, (∀ p ∈ places here names, t.node? p = t'.node? p) →
      jump here names = jump' here names)
    (h : ∀ p ∈ t.wayNames places here names, t.node? p = t'.node? p) :
    t.walkNames jump here names = t'.walkNames jump' here names := by
  induction names generalizing here with
  | nil => rfl
  | cons name rest ih =>
    rw [wayNames, List.forall_mem_cons, List.forall_mem_cons] at h
    obtain ⟨hhere, hthere, hrest⟩ := h
    rw [walkNames_cons, walkNames_cons, ← step_congr hhere hthere]
    cases hstep : t.step here name with
    | fail cause => rfl
    | go there => exact ih (by simpa only [hstep] using hrest)
    | follow target => exact hjump _ _ (by simpa only [hstep] using hrest)

theorem walk_congr {links : Nat} (h : ∀ p ∈ t.way links here names, t.node? p = t'.node? p) :
    t.walk links here names = t'.walk links here names := by
  induction links generalizing here names with
  | zero => exact walkNames_congr (fun _ _ _ => rfl) h
  | succ links ih => exact walkNames_congr (fun _ _ => ih) h

theorem mem_wayNames_of_walkNames
    (hjump : ∀ here names, jump here names = .ok place → place ∈ places here names)
    (h : t.walkNames jump here names = .ok place) : place ∈ t.wayNames places here names := by
  induction names generalizing here with
  | nil =>
    rw [walkNames, Except.ok.injEq] at h
    rw [wayNames, h]
    exact List.mem_singleton_self place
  | cons name rest ih =>
    rw [walkNames_cons] at h
    rw [wayNames]
    refine List.mem_cons_of_mem _ (List.mem_cons_of_mem _ ?_)
    cases hstep : t.step here name with
    | fail cause =>
      rw [hstep] at h
      cases h
    | go there => exact ih (by simpa only [hstep] using h)
    | follow target => exact hjump _ _ (by simpa only [hstep] using h)

theorem mem_way_of_walk {links : Nat} (h : t.walk links here names = .ok place) :
    place ∈ t.way links here names := by
  induction links generalizing here names with
  | zero => exact mem_wayNames_of_walkNames (fun _ _ hjump => by cases hjump) h
  | succ links ih => exact mem_wayNames_of_walkNames (fun _ _ => ih) h

theorem mem_wayTo_of_resolve {path : String} (h : t.resolve path = .ok place) :
    place ∈ t.wayTo path := by
  rw [resolve] at h
  rw [wayTo]
  split at h
  · cases h
  · rename_i hpath
    rw [if_neg hpath]
    exact mem_way_of_walk h

end Walk

/-! ## 3. Trees that agree on the way -/

/-- The trees hold the same wherever the path is looked up. -/
structure AgreeAlong (t t' : FileTree) (path : String) : Prop where
  base_eq : t.base = t'.base
  node?_eq : ∀ place ∈ t.wayTo path, t.node? place = t'.node? place

namespace AgreeAlong

variable {t t' : FileTree} {path : String}

theorem resolve_eq (h : t.AgreeAlong t' path) : t.resolve path = t'.resolve path := by
  have hnode := h.node?_eq
  rw [wayTo] at hnode
  rw [resolve, resolve, ← h.base_eq]
  by_cases hpath : path = ""
  · rw [if_pos hpath, if_pos hpath]
  · rw [if_neg hpath] at hnode
    rw [if_neg hpath, if_neg hpath]
    exact walk_congr hnode

theorem end_eq (h : t.AgreeAlong t' path) {place : Place} (hplace : t.resolve path = .ok place) :
    t.node? place = t'.node? place :=
  h.node?_eq place (mem_wayTo_of_resolve hplace)

theorem find_eq (h : t.AgreeAlong t' path) : t.find path = t'.find path := by
  rw [find, find, ← h.resolve_eq]
  cases hplace : t.resolve path with
  | error cause => rfl
  | ok place => simp only [bind, Except.bind, h.end_eq hplace]

theorem readText_eq (h : t.AgreeAlong t' path) : t.readText path = t'.readText path := by
  simp only [readText, readBytes, h.find_eq]

theorem isFile_eq (h : t.AgreeAlong t' path) : t.isFile path = t'.isFile path := by
  rw [isFile, isFile, h.find_eq]

theorem isNullDevice_eq (h : t.AgreeAlong t' path) : t.isNullDevice path = t'.isNullDevice path := by
  rw [isNullDevice, isNullDevice, ← h.resolve_eq]
  cases hplace : t.resolve path with
  | error cause => rfl
  | ok place => simp only [h.end_eq hplace]

end AgreeAlong

end SleepPolicy.FileTree
