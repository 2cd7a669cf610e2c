import SleepPolicy.Proofs.FileTree.Edited
import SleepPolicy.Proofs.Policy.Selection

/-!
# Hidden entries

An entry of a drop-in directory is hidden by the same name in an earlier directory, and one without the
name of a drop-in is never looked for.  Editing such an entry changes nothing about the policy that is
loaded, its reports included, as long as nothing else that is looked up leads over the entry.

## 1. Entries
-/

namespace SleepPolicy

namespace DropIn

/-- The drop-in directory with a number is at a place, and the trees differ at most in what one of its
entries is and holds. -/
structure EditsEntry (t t' : FileTree) (root : String) (i : Nat) (place : Place) (name : String) :
    Prop where
  resolve_eq : ∃ directory, WellKnown.dropInDirectories[i]? = some directory ∧
    t.resolve (FileTree.below root directory) = .ok place
  node?_eq : t.node? place = some .directory
  edited : t.EditedAt t' (place ++ [name])

/-- What is looked up below a root leads over the entry of a directory only as that entry, by whichever
name the directory goes. -/
structure Apart (t : FileTree) (root : String) (place : Place) (name : String) : Prop where
  main : t.PassesBy (place ++ [name]) (FileTree.below root WellKnown.settingsFile)
  directories : ∀ directory ∈ WellKnown.dropInDirectories,
    t.PassesBy (place ++ [name]) (FileTree.below root directory)
  entries : ∀ directory ∈ WellKnown.dropInDirectories, ∀ other,
    t.Lists (FileTree.below root directory) other →
    (t.resolve (FileTree.below root directory) = .ok place → other ≠ name) →
      t.PassesBy (place ++ [name]) (pathIn root directory other)

/-- Before the directory with a number, and before any other that is at its place, there is one that
lists the name; or the name is not that of a drop-in. -/
def Hidden (t : FileTree) (root : String) (i : Nat) (place : Place) (name : String) : Prop :=
  (∃ j < i,
    (∃ above, WellKnown.dropInDirectories[j]? = some above ∧ t.Lists (FileTree.below root above) name) ∧
    ∀ k ≤ j, ∀ directory, WellKnown.dropInDirectories[k]? = some directory →
      t.resolve (FileTree.below root directory) ≠ .ok place) ∨
  ¬∃ stem : String, stem ≠ "" ∧ name = stem ++ ".conf"

/-! ## 2. The choice -/

/-- The directories are where they were, and list the same names but for that of the entry. -/
structure SameListings (t t' : FileTree) (root : String) (place : Place) (name : String) : Prop where
  resolve_eq : ∀ directory ∈ WellKnown.dropInDirectories,
    t.resolve (FileTree.below root directory) = t'.resolve (FileTree.below root directory)
  lists_iff : ∀ directory ∈ WellKnown.dropInDirectories, ∀ other,
    (t.resolve (FileTree.below root directory) = .ok place → other ≠ name) →
      (t.Lists (FileTree.below root directory) other ↔ t'.Lists (FileTree.below root directory) other)

section Choice

variable {t t' : FileTree} {root name : String} {i : Nat} {place : Place}

/-- The search for a drop-in of that name ends before it comes to the place. -/
theorem Hidden.resolve_ne (h : Hidden t root i place name) {k : Nat} (hname : isName name = true)
    (habove : ∀ j < k, ∀ above, WellKnown.dropInDirectories[j]? = some above →
      ¬t.Lists (FileTree.below root above) name) :
    ∀ j ≤ k, ∀ directory, WellKnown.dropInDirectories[j]? = some directory →
      t.resolve (FileTree.below root directory) ≠ .ok place := by
  rcases h with ⟨l, -, ⟨above, hl, hlists⟩, hfree⟩ | hno
  · have hkl : k ≤ l := by
      by_contra hlt
      exact habove l (by omega) above hl hlists
    exact fun j hj => hfree j (hj.trans hkl)
  · exact absurd (isName_eq_true_iff.mp hname) hno

theorem SameListings.symm (h : SameListings t t' root place name) :
    SameListings t' t root place name where
  resolve_eq directory hdirectory := (h.resolve_eq directory hdirectory).symm
  lists_iff directory hdirectory other hother := by
    rw [← h.resolve_eq directory hdirectory] at hother
    exact (h.lists_iff directory hdirectory other hother).symm

theorem SameListings.hidden (h : SameListings t t' root place name)
    (hhidden : Hidden t root i place name) : Hidden t' root i place name := by
  refine hhidden.imp_left ?_
  rintro ⟨j, hj, ⟨above, habove, hlists⟩, hfree⟩
  refine ⟨j, hj, ⟨above, habove, ?_⟩, fun k hk directory hdirectory => ?_⟩
  · have hother := hfree j le_rfl above habove
    exact (h.lists_iff above (List.mem_of_getElem? habove) name fun hplace => absurd hplace hother).mp
      hlists
  · rw [← h.resolve_eq directory (List.mem_of_getElem? hdirectory)]
    exact hfree k hk directory hdirectory

theorem SameListings.mem_choose (h : SameListings t t' root place name)
    (hhidden : Hidden t root i place name) {d : DropIn} (hd : d ∈ choose (listings t root)) :
    d ∈ choose (listings t' root) := by
  obtain ⟨k, chosen, hk, hpath, hname, hlisted, habove⟩ := mem_choose_listings.mp hd
  -- Up to the chosen directory the name is listed as before.
  have hsame : ∀ j ≤ k, ∀ directory, WellKnown.dropInDirectories[j]? = some directory →
      (t.Lists (FileTree.below root directory) d.name ↔
        t'.Lists (FileTree.below root directory) d.name) := by
    intro j hj directory hdirectory
    apply h.lists_iff directory (List.mem_of_getElem? hdirectory)
    rintro hplace rfl
    exact hhidden.resolve_ne hname habove j hj directory hdirectory hplace
  refine mem_choose_listings.mpr ⟨k, chosen, hk, hpath, hname, (hsame k le_rfl chosen hk).mp hlisted, ?_⟩
  intro j hj above hj' hlists
  exact habove j hj above hj' ((hsame j hj.le above hj').mpr hlists)

theorem SameListings.choose_eq (h : SameListings t t' root place name)
    (hhidden : Hidden t root i place name) :
    choose (listings t root) = choose (listings t' root) :=
  eq_of_ascending (choose_ascending _) (choose_ascending _) fun _ =>
    ⟨h.mem_choose hhidden, h.symm.mem_choose (h.hidden hhidden)⟩

/-! ## 3. What is looked up -/

theorem Apart.sameListings (h : Apart t root place name) (hedit : t.EditedAt t' (place ++ [name])) :
    SameListings t t' root place name where
  resolve_eq directory hdirectory := (hedit.agreeAlong (h.directories directory hdirectory)).resolve_eq
  lists_iff directory hdirectory _ hother := hedit.lists_iff (h.directories directory hdirectory) hother

theorem Apart.passesBy (h : Apart t root place name) (hhidden : Hidden t root i place name)
    {d : DropIn} (hd : d ∈ choose (listings t root)) : t.PassesBy (place ++ [name]) d.path := by
  obtain ⟨k, chosen, hk, hpath, hname, hlisted, habove⟩ := mem_choose_listings.mp hd
  rw [hpath]
  apply h.entries chosen (List.mem_of_getElem? hk) d.name hlisted
  rintro hplace rfl
  exact hhidden.resolve_ne hname habove k le_rfl chosen hk hplace

end Choice

end DropIn

/-- A hidden entry of a drop-in directory may be created, removed or replaced by anything, and the same
policy is loaded with the same reports. -/
theorem Policy.load_hidden_edit {t t' : FileTree} {root name : String} {i : Nat} {place : Place}
    (hedit : DropIn.EditsEntry t t' root i place name) (hapart : DropIn.Apart t root place name)
    (hhidden : DropIn.Hidden t root i place name) : Policy.load t' root = Policy.load t root := by
  have hchoose : DropIn.choose (DropIn.listings t root) = DropIn.choose (DropIn.listings t' root) :=
    (hapart.sameListings hedit.edited).choose_eq hhidden
  have hload : loadListed t root (DropIn.listings t root) =
      loadListed t' root (DropIn.listings t root) :=
    loadListed_congr (hedit.edited.agreeAlong hapart.main) fun _ hd =>
      hedit.edited.agreeAlong (hapart.passesBy hhidden hd)
  rw [← loadListed_listings t root, hload, ← loadListed_listings t' root, loadListed, loadListed,
    hchoose]

-- The name stands in the first directory as a link that leads nowhere, and a file is put behind it.
theorem Policy.load_hidden_edit_behind_dangling_link :
    let place : Place := ["run", "elogind", "sleep.conf.d"]
    let t : FileTree :=
      ⟨[(["etc"], .directory), (["etc", "elogind"], .directory),
        (["etc", "elogind", "sleep.conf.d"], .directory),
        (["etc", "elogind", "sleep.conf.d", "50.conf"], .link "gone"),
        (["run"], .directory), (["run", "elogind"], .directory), (place, .directory)], []⟩
    let t' := t.put (place ++ ["50.conf"]) (.file (Text.encodeUtf8 "[Sleep]\nAllowSuspend=no\n".toList))
    DropIn.EditsEntry t t' "" 1 place "50.conf" ∧ DropIn.Apart t "" place "50.conf" ∧
      DropIn.Hidden t "" 1 place "50.conf" ∧ Policy.load t' "" = Policy.load t "" := by
  intro place t t'
  have hedit : DropIn.EditsEntry t t' "" 1 place "50.conf" :=
    ⟨⟨"/run/elogind/sleep.conf.d", by decide, by decide +kernel⟩, by decide +kernel, t.editedAt_put _ _⟩
  have hapart : DropIn.Apart t "" place "50.conf" := by
    refine ⟨?_, ?_, ?_⟩
    · unfold FileTree.PassesBy
      decide +kernel
    · unfold FileTree.PassesBy
      decide +kernel
    · rintro directory hdirectory other ⟨names, hlist, hother⟩ -
      have hlisted : ∀ directory ∈ WellKnown.dropInDirectories,
          ∀ other ∈ (t.list (FileTree.below "" directory)).toOption.getD [],
            ∀ p ∈ t.wayTo (DropIn.pathIn "" directory other), ¬place ++ ["50.conf"] <+: p := by
        decide +kernel
      apply hlisted directory hdirectory other
      rw [hlist]
      exact hother
  have hhidden : DropIn.Hidden t "" 1 place "50.conf" := by
    have hlists : t.Lists (FileTree.below "" "/etc/elogind/sleep.conf.d") "50.conf" :=
      ⟨["50.conf"], by decide +kernel, by decide⟩
    refine .inl ⟨0, by decide, ⟨_, rfl, hlists⟩, fun k hk directory hdirectory => ?_⟩
    obtain rfl : k = 0 := by omega
    obtain rfl : "/etc/elogind/sleep.conf.d" = directory := Option.some.inj hdirectory
    decide +kernel
  exact ⟨hedit, hapart, hhidden, load_hidden_edit hedit hapart hhidden⟩

-- A directory that goes by two names does not hide an entry from itself.
example :
    let place : Place := ["etc", "elogind", "sleep.conf.d"]
    let t : FileTree :=
      ⟨[(["etc"], .directory), (["etc", "elogind"], .directory), (place, .directory),
        (place ++ ["50.conf"], .link "gone"), (["run"], .link "etc")], []⟩
    let t' := t.put (place ++ ["50.conf"]) (.file (Text.encodeUtf8 "[Sleep]\nAllowSuspend=no\n".toList))
    t.list "run/elogind/sleep.conf.d" = .ok ["50.conf"] ∧
      (Policy.load t' "").value ≠ (Policy.load t "").value := by
  decide +kernel

/-- The places at which there are links. -/
def FileTree.linkPlaces (t : FileTree) : List Place :=
  t.nodes.filterMap fun (place, node) =>
    match node with
    | .link _ => some place
    | _ => none

/-- A root may itself lead over an entry.  Then an edit of the entry shows, although the entry is the
only link there is, has not the name of a drop-in, and its directory can be listed before and after. -/
theorem Policy.load_root_over_entry :
    let place : Place := ["a", "etc", "elogind", "sleep.conf.d"]
    let nodes : List (Place × Node) :=
      [(["a"], .directory), (["a", "etc"], .directory), (["a", "etc", "elogind"], .directory),
       (place, .directory), (["b"], .directory), (["b", "etc"], .directory),
       (["b", "etc", "elogind"], .directory), (["b", "etc", "elogind", "sleep.conf.d"], .directory),
       (["b", "etc", "elogind", "sleep.conf"],
        .file (Text.encodeUtf8 "[Sleep]\nAllowSuspend=no\n".toList))]
    let t : FileTree := ⟨(place ++ ["n"], .link "../../..") :: nodes, []⟩
    let t' := t.put (place ++ ["n"]) (.link "../../../../b")
    let root := "a/etc/elogind/sleep.conf.d/n"
    DropIn.EditsEntry t t' root 0 place "n" ∧
      t'.node? place = some .directory ∧
      t'.list (FileTree.below root "/etc/elogind/sleep.conf.d") = .ok [] ∧
      t.linkPlaces = [place ++ ["n"]] ∧ t'.linkPlaces = [place ++ ["n"]] ∧
      (¬∃ stem : String, stem ≠ "" ∧ "n" = stem ++ ".conf") ∧
      (Policy.load t' root).value ≠ (Policy.load t root).value ∧
      (Policy.load t' root).log ≠ (Policy.load t root).log := by
  intro place nodes t t' root
  have hedit : DropIn.EditsEntry t t' root 0 place "n" :=
    ⟨⟨"/etc/elogind/sleep.conf.d", by decide, by decide +kernel⟩, by decide +kernel, t.editedAt_put _ _⟩
  have hname : ¬∃ stem : String, stem ≠ "" ∧ "n" = stem ++ ".conf" := by
    rw [← DropIn.isName_eq_true_iff]
    decide
  refine ⟨hedit, ?_, ?_, ?_, ?_, hname, ?_⟩ <;> decide +kernel

end SleepPolicy
