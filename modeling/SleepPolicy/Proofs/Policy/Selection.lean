import SleepPolicy.Policy.Load
import SleepPolicy.Proofs.FileTree.Listing
import SleepPolicy.Proofs.Policy.Choice

/-!
# The drop-ins that are read

Which drop-ins a policy is loaded from can be said without the steps that find them.  A name that a
directory lists hides the same name in all later directories, whatever it is; after that, only regular
files count, and they are read in the order of their names.

## 1. Paths
-/

namespace SleepPolicy

namespace DropIn

def pathIn (root directory name : String) : String :=
  FileTree.below root directory ++ "/" ++ name

theorem append_eq_of_below {root a b x y : String}
    (h : FileTree.below root a ++ x = FileTree.below root b ++ y) :
    a.toList.dropWhile (· == '/') ++ x.toList = b.toList.dropWhile (· == '/') ++ y.toList := by
  unfold FileTree.below at h
  simp only at h
  split at h <;>
    simpa [String.append_assoc, String.append_right_inj, ← String.toList_inj] using h

-- None of the directories goes on as another does.
theorem eq_of_beginning {a b : String} (ha : a ∈ WellKnown.dropInDirectories)
    (hb : b ∈ WellKnown.dropInDirectories)
    (h : a.toList.dropWhile (· == '/') <+: b.toList.dropWhile (· == '/')) : a = b := by
  have hdirectories : ∀ a ∈ WellKnown.dropInDirectories, ∀ b ∈ WellKnown.dropInDirectories,
      a.toList.dropWhile (· == '/') <+: b.toList.dropWhile (· == '/') → a = b := by
    decide
  exact hdirectories a ha b hb h

theorem pathIn_inj {root a b name other : String} (ha : a ∈ WellKnown.dropInDirectories)
    (hb : b ∈ WellKnown.dropInDirectories) (h : pathIn root a name = pathIn root b other) :
    a = b ∧ name = other := by
  rw [pathIn, pathIn, String.append_assoc, String.append_assoc] at h
  have happend := append_eq_of_below h
  have hleft : a.toList.dropWhile (· == '/') <+:
      b.toList.dropWhile (· == '/') ++ ("/" ++ other).toList := by
    rw [← happend]
    exact List.prefix_append _ _
  have hright := List.prefix_append (b.toList.dropWhile (· == '/')) ("/" ++ other).toList
  have hab : a = b := by
    rcases List.prefix_or_prefix_of_prefix hleft hright with h | h
    · exact eq_of_beginning ha hb h
    · exact (eq_of_beginning hb ha h).symm
  subst hab
  exact ⟨rfl, by simpa [← String.toList_inj] using happend⟩

/-- No directory comes twice. -/
theorem index_unique {i j : Nat} {directory : String}
    (hi : WellKnown.dropInDirectories[i]? = some directory)
    (hj : WellKnown.dropInDirectories[j]? = some directory) : i = j := by
  have hlength : i < WellKnown.dropInDirectories.length := (List.getElem?_eq_some_iff.mp hi).1
  exact (List.getElem?_inj hlength (by decide)).mp (hi.trans hj.symm)

/-! ## 2. The first directory that lists a name -/

theorem findSome?_filterMap {α β γ : Type} (f : α → Option β) (g : β → Option γ) (l : List α) :
    (l.filterMap f).findSome? g = l.findSome? fun a => (f a).bind g := by
  induction l with
  | nil => rfl
  | cons a l ih =>
    rw [List.findSome?_cons]
    cases h : f a with
    | none => rw [List.filterMap_cons_none h, ih, Option.bind_none]
    | some b => rw [List.filterMap_cons_some h, List.findSome?_cons, ih, Option.bind_some]

theorem findSome?_eq_some_iff_getElem? {α β : Type} {f : α → Option β} {l : List α} {b : β} :
    l.findSome? f = some b ↔
      ∃ (i : Nat) (a : α), l[i]? = some a ∧ f a = some b ∧
        ∀ j < i, ∀ c, l[j]? = some c → f c = none := by
  rw [List.findSome?_eq_some_iff]
  constructor
  · rintro ⟨before, a, after, rfl, ha, hbefore⟩
    refine ⟨before.length, a, by simp, ha, fun j hj c hc => hbefore c ?_⟩
    rw [List.getElem?_append_left hj] at hc
    exact List.mem_of_getElem? hc
  · rintro ⟨i, a, hi, ha, hbefore⟩
    obtain ⟨hlength, rfl⟩ := List.getElem?_eq_some_iff.mp hi
    refine ⟨l.take i, l[i], l.drop (i + 1), ?_, ha, fun c hc => ?_⟩
    · rw [← List.drop_eq_getElem_cons hlength, List.take_append_drop]
    · obtain ⟨j, hj⟩ := List.mem_iff_getElem?.mp hc
      rw [List.getElem?_take] at hj
      split at hj
      · rename_i hlt
        exact hbefore j hlt c hj
      · cases hj

section Choice

variable {t : FileTree} {root : String}

/-- The drop-in of a name in one of the directories. -/
def listed (t : FileTree) (root name directory : String) : Option DropIn :=
  (match t.list (FileTree.below root directory) with
    | .ok names => some (FileTree.below root directory, names)
    | .error _ => none).bind (named name)

theorem listed_eq_some_iff {name directory : String} {d : DropIn} :
    listed t root name directory = some d ↔
      isName name = true ∧ t.Lists (FileTree.below root directory) name ∧
        d = ⟨name, pathIn root directory name⟩ := by
  unfold listed FileTree.Lists
  cases t.list (FileTree.below root directory) with
  | error e => simp
  | ok names =>
    simp only [Option.bind_some, named, Except.ok.injEq, exists_eq_left', pathIn]
    rw [Option.ite_none_right_eq_some, Option.some.injEq, and_assoc, eq_comm (b := d)]

theorem listed_eq_none_iff {name directory : String} :
    listed t root name directory = none ↔
      ¬(isName name = true ∧ t.Lists (FileTree.below root directory) name) := by
  rw [Option.eq_none_iff_forall_ne_some]
  constructor
  · intro h hlisted
    exact h _ (listed_eq_some_iff.mpr ⟨hlisted.1, hlisted.2, rfl⟩)
  · intro h d hd
    obtain ⟨hname, hlists, -⟩ := listed_eq_some_iff.mp hd
    exact h ⟨hname, hlists⟩

theorem mem_choose_listings {d : DropIn} :
    d ∈ choose (listings t root) ↔
      ∃ (i : Nat) (directory : String), WellKnown.dropInDirectories[i]? = some directory ∧
        d.path = pathIn root directory d.name ∧ isName d.name = true ∧
        t.Lists (FileTree.below root directory) d.name ∧
        ∀ j < i, ∀ above, WellKnown.dropInDirectories[j]? = some above →
          ¬t.Lists (FileTree.below root above) d.name := by
  rw [mem_choose, listings, findSome?_filterMap]
  change WellKnown.dropInDirectories.findSome? (listed t root d.name) = some d ↔ _
  rw [findSome?_eq_some_iff_getElem?]
  constructor
  · rintro ⟨i, directory, hi, hd, habove⟩
    obtain ⟨hname, hlists, heq⟩ := listed_eq_some_iff.mp hd
    refine ⟨i, directory, hi, congrArg path heq, hname, hlists, fun j hj above hj' h => ?_⟩
    exact listed_eq_none_iff.mp (habove j hj above hj') ⟨hname, h⟩
  · rintro ⟨i, directory, hi, hpath, hname, hlists, habove⟩
    refine ⟨i, directory, hi, listed_eq_some_iff.mpr ⟨hname, hlists, ?_⟩, fun j hj above hj' => ?_⟩
    · rw [← hpath]
    · exact listed_eq_none_iff.mpr fun h => habove j hj above hj' h.2

end Choice

/-! ## 3. The selection -/

/-- What is read, said without the steps that find it.  The directories are counted from the first. -/
structure IsSelection (t : FileTree) (root : String) (selection : List DropIn) : Prop where
  mem_directories : ∀ d ∈ selection,
    ∃ directory ∈ WellKnown.dropInDirectories, d.path = pathIn root directory d.name
  mem_iff : ∀ (i : Nat) (directory name : String), WellKnown.dropInDirectories[i]? = some directory →
    (⟨name, pathIn root directory name⟩ ∈ selection ↔
      (∃ stem : String, stem ≠ "" ∧ name = stem ++ ".conf") ∧
      t.Lists (FileTree.below root directory) name ∧
      (∀ j < i, ∀ above, WellKnown.dropInDirectories[j]? = some above →
        ¬t.Lists (FileTree.below root above) name) ∧
      t.isFile (pathIn root directory name) = true ∧
      t.isNullDevice (pathIn root directory name) = false)
  ascending : selection.Pairwise fun d e => d.nameBytes < e.nameBytes

theorem value_keepFiles (t : FileTree) (ds : List DropIn) :
    (keepFiles t ds).value = ds.filter fun d => t.isFile d.path && !t.isNullDevice d.path := by
  induction ds with
  | nil => rfl
  | cons d rest ih =>
    rw [keepFiles, List.filter_cons]
    by_cases hnull : t.isNullDevice d.path = true
    · rw [if_pos hnull, hnull, Logged.value_bind, ih]
      simp
    · rw [if_neg hnull, Logged.value_bind, Logged.value_pure, ih]
      simp [hnull]

theorem mem_collect {t : FileTree} {root : String} {d : DropIn} :
    d ∈ (collect t root).value ↔
      d ∈ choose (listings t root) ∧ t.isFile d.path = true ∧ t.isNullDevice d.path = false := by
  rw [collect, value_keepFiles, List.mem_filter, Bool.and_eq_true, Bool.not_eq_true']

theorem isSelection_collect (t : FileTree) (root : String) :
    IsSelection t root (collect t root).value where
  mem_directories d hd := by
    obtain ⟨i, directory, hi, hpath, -⟩ := mem_choose_listings.mp (mem_collect.mp hd).1
    exact ⟨directory, List.mem_of_getElem? hi, hpath⟩
  mem_iff i directory name hi := by
    rw [mem_collect, mem_choose_listings, ← isName_eq_true_iff]
    constructor
    · rintro ⟨⟨i', directory', hi', hpath, hname, hlists, habove⟩, hfile, hnull⟩
      -- The path says which directory it is.
      obtain rfl : directory = directory' :=
        (pathIn_inj (List.mem_of_getElem? hi) (List.mem_of_getElem? hi') hpath).1
      obtain rfl : i = i' := index_unique hi hi'
      exact ⟨hname, hlists, habove, hfile, hnull⟩
    · rintro ⟨hname, hlists, habove, hfile, hnull⟩
      exact ⟨⟨i, directory, hi, rfl, hname, hlists, habove⟩, hfile, hnull⟩
  ascending := by
    rw [collect, value_keepFiles]
    exact (choose_ascending (listings t root)).filter _

theorem IsSelection.subset {t : FileTree} {root : String} {ds es : List DropIn}
    (hds : IsSelection t root ds) (hes : IsSelection t root es) {d : DropIn} (hd : d ∈ ds) :
    d ∈ es := by
  obtain ⟨directory, hdirectory, hpath⟩ := hds.mem_directories d hd
  obtain ⟨i, hi⟩ := List.mem_iff_getElem?.mp hdirectory
  obtain ⟨name, path⟩ := d
  obtain rfl : path = pathIn root directory name := hpath
  exact (hes.mem_iff i directory name hi).mpr ((hds.mem_iff i directory name hi).mp hd)

theorem IsSelection.unique {t : FileTree} {root : String} {ds es : List DropIn}
    (hds : IsSelection t root ds) (hes : IsSelection t root es) : ds = es :=
  eq_of_ascending hds.ascending hes.ascending fun _ => ⟨hds.subset hes, hes.subset hds⟩

end DropIn

/-! ## 4. Loading -/

namespace Settings

/-- The settings with a file on top, or as they are if it cannot be read. -/
def withFile (t : FileTree) (s : Settings) (path : String) : Settings :=
  match t.readText path with
  | .ok content => (assignmentsIn content).foldl assign s
  | .error _ => s

theorem value_addMain (s : Settings) (t : FileTree) (path : String) :
    (s.addMain t path).value = s.withFile t path := by
  unfold addMain withFile
  rcases t.readText path with (e | _) | content
  · cases e <;> rfl
  · rfl
  · rfl

theorem value_addDropIn (s : Settings) (t : FileTree) (path : String) :
    (s.addDropIn t path).value = s.withFile t path := by
  unfold addDropIn withFile
  cases t.readText path <;> rfl

theorem value_addDropIns (t : FileTree) (ds : List DropIn) (s : Settings) :
    (addDropIns t ds s).value = (ds.map DropIn.path).foldl (withFile t) s := by
  induction ds generalizing s with
  | nil => rfl
  | cons d rest ih =>
    rw [addDropIns, Logged.value_bind, ih, value_addDropIn]
    rfl

end Settings

namespace Policy

/-- Loads a policy when the directories have given these listings. -/
def loadListed (t : FileTree) (root : String) (listings : List (String × List String)) :
    Logged Policy :=
  Settings.complete <$> do
    let s ← Settings.empty.addMain t (FileTree.below root WellKnown.settingsFile)
    let dropIns ← DropIn.keepFiles t (DropIn.choose listings)
    Settings.addDropIns t dropIns s

theorem loadListed_listings (t : FileTree) (root : String) :
    loadListed t root (DropIn.listings t root) = Policy.load t root := rfl

theorem value_load (t : FileTree) (root : String) :
    (Policy.load t root).value =
      (((DropIn.collect t root).value.map DropIn.path).foldl (Settings.withFile t)
        (Settings.empty.withFile t (FileTree.below root WellKnown.settingsFile))).complete := by
  rw [Policy.load, Logged.value_map, Settings.load, Logged.value_bind, Logged.value_bind,
    Settings.value_addDropIns, Settings.value_addMain]

end Policy

/-! ## 5. Trees that agree -/

section Agreement

variable {t t' : FileTree}

/-- The choice goes by what the directories list. -/
theorem DropIn.choose_congr (h : ∀ path name, t.Lists path name ↔ t'.Lists path name)
    (root : String) : choose (listings t root) = choose (listings t' root) := by
  apply choose_eq
  intro name
  rw [listings, listings, findSome?_filterMap, findSome?_filterMap]
  congr 1
  funext directory
  change listed t root name directory = listed t' root name directory
  apply Option.ext
  intro d
  rw [listed_eq_some_iff, listed_eq_some_iff, h]

theorem DropIn.keepFiles_congr {ds : List DropIn}
    (hnull : ∀ d ∈ ds, t.isNullDevice d.path = t'.isNullDevice d.path)
    (hfile : ∀ d ∈ ds, t.isFile d.path = t'.isFile d.path) : keepFiles t ds = keepFiles t' ds := by
  induction ds with
  | nil => rfl
  | cons d rest ih =>
    have hrest := ih (fun e he => hnull e (List.mem_cons_of_mem d he))
      fun e he => hfile e (List.mem_cons_of_mem d he)
    simp only [keepFiles, hnull d List.mem_cons_self, hfile d List.mem_cons_self, hrest]

theorem Settings.addMain_congr {path : String} (h : t.AgreeAlong t' path) (s : Settings) :
    s.addMain t path = s.addMain t' path := by
  unfold Settings.addMain
  rw [h.readText_eq]

theorem Settings.addDropIns_congr {ds : List DropIn} (h : ∀ d ∈ ds, t.AgreeAlong t' d.path)
    (s : Settings) : addDropIns t ds s = addDropIns t' ds s := by
  induction ds generalizing s with
  | nil => rfl
  | cons d rest ih =>
    have hfirst : s.addDropIn t d.path = s.addDropIn t' d.path := by
      unfold Settings.addDropIn
      rw [(h d List.mem_cons_self).readText_eq]
    rw [addDropIns, addDropIns, hfirst]
    congr 1
    funext s
    exact ih (fun e he => h e (List.mem_cons_of_mem d he)) s

/-- Once the directories have given their names, only the main file and the chosen drop-ins matter. -/
theorem Policy.loadListed_congr {root : String} {listings : List (String × List String)}
    (hmain : t.AgreeAlong t' (FileTree.below root WellKnown.settingsFile))
    (hchosen : ∀ d ∈ DropIn.choose listings, t.AgreeAlong t' d.path) :
    loadListed t root listings = loadListed t' root listings := by
  have hkept : ∀ d ∈ (DropIn.keepFiles t' (DropIn.choose listings)).value, t.AgreeAlong t' d.path := by
    intro d hd
    rw [DropIn.value_keepFiles] at hd
    exact hchosen d (List.mem_filter.mp hd).1
  have hkeep := DropIn.keepFiles_congr (fun d hd => (hchosen d hd).isNullDevice_eq)
    fun d hd => (hchosen d hd).isFile_eq
  rw [loadListed, loadListed, Settings.addMain_congr hmain, hkeep]
  apply Logged.ext
  · simp only [Logged.value_map, Logged.value_bind, Settings.addDropIns_congr hkept]
  · simp only [Logged.log_map, Logged.log_bind, Settings.addDropIns_congr hkept]

namespace FileTree

theorem Same.choose_eq (h : t.Same t') (root : String) :
    DropIn.choose (DropIn.listings t root) = DropIn.choose (DropIn.listings t' root) :=
  DropIn.choose_congr h.lists_iff root

theorem Same.loadListed_eq (h : t.Same t') (root : String)
    (listings : List (String × List String)) :
    Policy.loadListed t root listings = Policy.loadListed t' root listings :=
  Policy.loadListed_congr (h.agreeAlong _) fun d _ => h.agreeAlong d.path

end FileTree

end Agreement

/-! ## 6. The result -/

/-- What loading a policy comes to.  The main file and then one list of drop-ins are read, the list is
known by what is on it and by its order, and neither the order in which the directories list their names
nor the order in which a tree is written down has any part in it. -/
theorem Policy.load_eq_selection (t : FileTree) (root : String) :
    (∃ selection : List DropIn,
      DropIn.IsSelection t root selection ∧
      (∀ other, DropIn.IsSelection t root other → other = selection) ∧
      (Policy.load t root).value =
        ((selection.map DropIn.path).foldl (Settings.withFile t)
          (Settings.empty.withFile t (FileTree.below root WellKnown.settingsFile))).complete) ∧
    (∀ order : String → List String → List String, (∀ path names, (order path names).Perm names) →
      Policy.loadListed t root
          ((DropIn.listings t root).map fun (path, names) => (path, order path names)) =
        Policy.load t root) ∧
    (∀ t' : FileTree, t.Same t' → Policy.load t' root = Policy.load t root) := by
  refine ⟨⟨(DropIn.collect t root).value, DropIn.isSelection_collect t root, ?_, ?_⟩, ?_, ?_⟩
  · exact fun other hother => hother.unique (DropIn.isSelection_collect t root)
  · exact Policy.value_load t root
  · intro order horder
    rw [Policy.loadListed, DropIn.choose_relisted _ order horder]
    rfl
  · intro t' h
    rw [← Policy.loadListed_listings, ← Policy.loadListed_listings, h.loadListed_eq]
    simp only [Policy.loadListed, h.choose_eq]

end SleepPolicy
