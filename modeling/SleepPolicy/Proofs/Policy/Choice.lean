import Mathlib.Data.List.Sort
import SleepPolicy.Policy.DropIn
import SleepPolicy.Proofs.Text.ByteOrder

/-!
# The choice among drop-ins

For each name the first directory that lists it is chosen, and the chosen names ascend in the order of
their bytes.  Only which names a directory lists matters, never in which order it lists them.

## 1. Names
-/

namespace SleepPolicy.DropIn

theorem isName_eq_true_iff {name : String} :
    isName name = true ↔ ∃ stem : String, stem ≠ "" ∧ name = stem ++ ".conf" := by
  simp only [isName, Bool.and_eq_true, List.isSuffixOf_iff_suffix, decide_eq_true_eq]
  constructor
  · rintro ⟨⟨stem, hstem⟩, hlength⟩
    refine ⟨String.ofList stem, ?_, ?_⟩
    · intro hempty
      have hnil : stem = [] := by
        rw [← String.toList_ofList (l := stem), hempty]
        rfl
      rw [← hstem, hnil, List.nil_append] at hlength
      omega
    · apply String.toList_inj.mp
      rw [String.toList_append, String.toList_ofList, hstem]
  · rintro ⟨stem, hstem, rfl⟩
    rw [String.toList_append]
    refine ⟨List.suffix_append stem.toList _, ?_⟩
    have hpos : 0 < stem.toList.length := by
      apply List.length_pos_iff.mpr
      intro hnil
      exact hstem (String.toList_inj.mp hnil)
    rw [List.length_append]
    omega

/-- The bytes by which a drop-in is put in order. -/
def nameBytes (d : DropIn) : List UInt8 :=
  Text.encodeUtf8 d.name.toList

theorem nameBytes_lt_iff {d e : DropIn} : d.nameBytes < e.nameBytes ↔ d.name < e.name :=
  Text.encodeUtf8_lt_iff

/-! ## 2. The first of each name -/

theorem mem_firstOfEachName {ds : List DropIn} {d : DropIn} :
    d ∈ firstOfEachName ds ↔ ds.find? (fun e => e.name == d.name) = some d := by
  induction ds with
  | nil => simp [firstOfEachName]
  | cons e rest ih =>
    rw [firstOfEachName, List.mem_cons, List.mem_filter, ih]
    by_cases hname : e.name = d.name
    · rw [List.find?_cons_of_pos (by simp [hname]), Option.some.injEq]
      simp [hname, eq_comm]
    · rw [List.find?_cons_of_neg (by simp [hname])]
      constructor
      · rintro (rfl | ⟨h, -⟩)
        · exact absurd rfl hname
        · exact h
      · exact fun h => .inr ⟨h, by simp [Ne.symm hname]⟩

theorem firstOfEachName_distinct (ds : List DropIn) :
    (firstOfEachName ds).Pairwise fun d e => d.name ≠ e.name := by
  induction ds with
  | nil => exact .nil
  | cons d rest ih =>
    rw [firstOfEachName]
    refine .cons (fun e he => ?_) (ih.filter _)
    rw [List.mem_filter, bne_iff_ne] at he
    exact he.2.symm

/-! ## 3. Order -/

theorem mem_inOrder {ds : List DropIn} {d : DropIn} : d ∈ inOrder ds ↔ d ∈ ds := by
  rw [inOrder, List.mem_mergeSort]

theorem inOrder_ascending {ds : List DropIn} (hds : ds.Pairwise fun d e => d.name ≠ e.name) :
    (inOrder ds).Pairwise fun d e => d.nameBytes < e.nameBytes := by
  have hsorted : (inOrder ds).Pairwise fun d e => d.name ≤ e.name := by
    have htrans : ∀ a b c : DropIn, decide (a.name ≤ b.name) = true → decide (b.name ≤ c.name) = true →
        decide (a.name ≤ c.name) = true := by
      intro a b c hab hbc
      simp only [decide_eq_true_eq] at hab hbc ⊢
      exact String.le_trans hab hbc
    have htotal : ∀ a b : DropIn, (decide (a.name ≤ b.name) || decide (b.name ≤ a.name)) = true := by
      intro a b
      simp only [Bool.or_eq_true, decide_eq_true_eq]
      exact String.le_total a.name b.name
    exact (List.pairwise_mergeSort htrans htotal ds).imp fun hle => of_decide_eq_true hle
  have hdistinct : (inOrder ds).Pairwise fun d e => d.name ≠ e.name :=
    (List.mergeSort_perm ds _).symm.pairwise hds fun h => h.symm
  refine hsorted.imp₂ (fun d e hle hne => ?_) hdistinct
  -- Not above and not equal is below.
  rw [nameBytes_lt_iff]
  apply String.not_le.mp
  exact fun hge => hne (String.le_antisymm hle hge)

/-- A list in ascending order is known by its members. -/
theorem eq_of_ascending {ds es : List DropIn}
    (hds : ds.Pairwise fun d e => d.nameBytes < e.nameBytes)
    (hes : es.Pairwise fun d e => d.nameBytes < e.nameBytes) (h : ∀ d, d ∈ ds ↔ d ∈ es) :
    ds = es := by
  have : Std.Irrefl fun d e : DropIn => d.nameBytes < e.nameBytes := ⟨fun d => List.lt_irrefl _⟩
  have : Std.Antisymm fun d e : DropIn => d.nameBytes < e.nameBytes :=
    ⟨fun d e hde hed => absurd hed (List.lt_asymm hde)⟩
  exact List.Pairwise.eq_of_mem_iff hds hes h

/-! ## 4. The choice -/

/-- The drop-in of a name in a directory that lists these names. -/
def named (name : String) : String × List String → Option DropIn
  | (directory, names) =>
      if isName name ∧ name ∈ names then some ⟨name, directory ++ "/" ++ name⟩ else none

theorem find?_ofDirectory (directory : String) (names : List String) (name : String) :
    (ofDirectory directory names).find? (fun e => e.name == name) = named name (directory, names) := by
  rw [ofDirectory, List.find?_map, List.find?_filter]
  show (names.find? fun a => decide (isName a = true ∧ (a == name) = true)).map _ = _
  by_cases h : isName name ∧ name ∈ names
  · have hsome : (names.find? fun a => decide (isName a = true ∧ (a == name) = true)).isSome :=
      List.find?_isSome.mpr ⟨name, h.2, by simp [h.1]⟩
    obtain ⟨a, ha⟩ := Option.isSome_iff_exists.mp hsome
    have hboth : isName a = true ∧ a = name := by simpa using List.find?_some ha
    rw [ha, hboth.2, named, if_pos h, Option.map_some]
  · rw [named, if_neg h, Option.map_eq_none_iff, List.find?_eq_none]
    intro a ha hboth
    obtain ⟨hconf, hname⟩ := of_decide_eq_true hboth
    rw [beq_iff_eq.mp hname] at ha hconf
    exact h ⟨hconf, ha⟩

theorem mem_choose {listings : List (String × List String)} {d : DropIn} :
    d ∈ choose listings ↔ listings.findSome? (named d.name) = some d := by
  rw [choose, mem_inOrder, mem_firstOfEachName, List.find?_flatMap]
  simp only [find?_ofDirectory]

theorem choose_ascending (listings : List (String × List String)) :
    (choose listings).Pairwise fun d e => d.nameBytes < e.nameBytes :=
  inOrder_ascending (firstOfEachName_distinct _)

theorem choose_eq {listings listings' : List (String × List String)}
    (h : ∀ name, listings.findSome? (named name) = listings'.findSome? (named name)) :
    choose listings = choose listings' := by
  refine eq_of_ascending (choose_ascending _) (choose_ascending _) fun d => ?_
  rw [mem_choose, mem_choose, h]

/-- The order in which a directory lists its names has no part in the choice. -/
theorem choose_relisted (listings : List (String × List String))
    (order : String → List String → List String)
    (horder : ∀ path names, (order path names).Perm names) :
    choose (listings.map fun (path, names) => (path, order path names)) = choose listings := by
  apply choose_eq
  intro name
  rw [List.findSome?_map]
  congr 1
  funext (path, names)
  simp only [Function.comp_apply, named, (horder path names).mem_iff]

end SleepPolicy.DropIn
