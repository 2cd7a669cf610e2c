import SleepPolicy.Proofs.FileTree.Rewritten
import SleepPolicy.Proofs.Policy.Selection

/-!
# Settings files that are no text

A settings file that is not UTF-8 has no partial effect.  Were it empty, the same files would be read in
the same order and the same policy would come out; the only difference is one report for each path under
which the file is read.

## 1. The paths that are read
-/

namespace SleepPolicy

namespace DropIn

theorem settingsFile_ne_pathIn {root directory name : String}
    (hdirectory : directory ∈ WellKnown.dropInDirectories) :
    FileTree.below root WellKnown.settingsFile ≠ pathIn root directory name := by
  intro h
  rw [pathIn, String.append_assoc, ← String.append_empty (s := FileTree.below root _)] at h
  have happend := append_eq_of_below h
  have hprefix : directory.toList.dropWhile (· == '/') <+:
      WellKnown.settingsFile.toList.dropWhile (· == '/') := by
    have hwhole := List.prefix_append (directory.toList.dropWhile (· == '/')) ("/" ++ name).toList
    rw [← happend] at hwhole
    simpa using hwhole
  have hnot : ∀ directory ∈ WellKnown.dropInDirectories,
      ¬directory.toList.dropWhile (· == '/') <+:
        WellKnown.settingsFile.toList.dropWhile (· == '/') := by
    decide
  exact hnot directory hdirectory hprefix

end DropIn

namespace Policy

/-- The paths that are read, in order. -/
def pathsRead (t : FileTree) (root : String) : List String :=
  FileTree.below root WellKnown.settingsFile :: (DropIn.collect t root).value.map DropIn.path

theorem pathsRead_nodup (t : FileTree) (root : String) : (pathsRead t root).Nodup := by
  have hselection := DropIn.isSelection_collect t root
  rw [pathsRead, List.nodup_cons]
  constructor
  · intro hmain
    obtain ⟨d, hd, hpath⟩ := List.mem_map.mp hmain
    obtain ⟨directory, hdirectory, hin⟩ := hselection.mem_directories d hd
    exact DropIn.settingsFile_ne_pathIn hdirectory (hpath ▸ hin)
  · rw [List.nodup_iff_pairwise_ne, List.pairwise_map]
    refine hselection.ascending.imp_of_mem fun {d e} hd he hlt hpath => ?_
    obtain ⟨directory, hdirectory, hin⟩ := hselection.mem_directories d hd
    obtain ⟨directory', hdirectory', hin'⟩ := hselection.mem_directories e he
    have hname := (DropIn.pathIn_inj hdirectory hdirectory' (hin ▸ hin' ▸ hpath)).2
    rw [DropIn.nameBytes, DropIn.nameBytes, hname] at hlt
    exact List.lt_irrefl _ hlt

end Policy

/-! ## 2. Reports -/

/-- A path leads to the file at a place, and the report is that no text could be read from it. -/
def Event.saysNotText (t : FileTree) (place : Place) : Event → Bool
  | .settingsUnreadable path .notUtf8 => t.resolve path = .ok place
  | _ => false

/-- The second computation goes as the first, without the reports that the file at a place is no text.
Of these the first has one for each of the paths that leads there. -/
structure SparesReports {α : Type} (t : FileTree) (place : Place) (paths : List String)
    (x x' : Logged α) : Prop where
  value_eq : x'.value = x.value
  rest_eq : x'.log = x.log.filter fun e => !e.saysNotText t place
  reports_eq : x.log.filter (Event.saysNotText t place) =
    (paths.filter fun path => t.resolve path = .ok place).map fun path =>
      .settingsUnreadable path .notUtf8

namespace SparesReports

variable {α β : Type} {t t' : FileTree} {place : Place} {paths paths' : List String}

theorem bind {x x' : Logged α} {f f' : α → Logged β} (h : SparesReports t place paths x x')
    (hf : SparesReports t place paths' (f x.value) (f' x.value)) :
    SparesReports t place (paths ++ paths') (x >>= f) (x' >>= f') where
  value_eq := by rw [Logged.value_bind, Logged.value_bind, h.value_eq, hf.value_eq]
  rest_eq := by
    rw [Logged.log_bind, Logged.log_bind, List.filter_append, h.rest_eq, h.value_eq, hf.rest_eq]
  reports_eq := by
    rw [Logged.log_bind, List.filter_append, List.filter_append, List.map_append, h.reports_eq,
      hf.reports_eq]

theorem map {x x' : Logged α} (f : α → β) (h : SparesReports t place paths x x') :
    SparesReports t place paths (f <$> x) (f <$> x') where
  value_eq := by rw [Logged.value_map, Logged.value_map, h.value_eq]
  rest_eq := by rw [Logged.log_map, Logged.log_map, h.rest_eq]
  reports_eq := by rw [Logged.log_map, h.reports_eq]

/-- Without such a report, nothing is left out. -/
theorem refl {x : Logged α} (hlog : ∀ e ∈ x.log, e.saysNotText t place = false)
    (hpaths : ∀ path ∈ paths, t.resolve path ≠ .ok place) : SparesReports t place paths x x where
  value_eq := rfl
  rest_eq := by
    symm
    rw [List.filter_eq_self]
    intro e he
    rw [hlog e he]
    rfl
  reports_eq := by
    have hnone : (paths.filter fun path => t.resolve path = .ok place) = [] := by
      simpa [List.filter_eq_nil_iff] using hpaths
    rw [hnone, List.map_nil, List.filter_eq_nil_iff]
    intro e he
    simp [hlog e he]

end SparesReports

/-! ## 3. Loading -/

namespace Settings

/-- Reads a file on top of the settings, or reports why there is no text. -/
def readOrReport (s : Settings) (t : FileTree) (path : String) (report : ReadError → Event) :
    Logged Settings :=
  match t.readText path with
  | .ok content => s.read path content
  | .error e => ⟨s, [report e]⟩

def reportOnMain (path : String) : ReadError → Event
  | .system .noEntry => .settingsMissing path
  | e => .settingsUnreadable path e

theorem addMain_eq (s : Settings) (t : FileTree) (path : String) :
    s.addMain t path = s.readOrReport t path (reportOnMain path) := by
  rw [addMain, readOrReport]
  rcases t.readText path with (cause | _) | content
  · cases cause <;> rfl
  · rfl
  · rfl

theorem addDropIn_eq (s : Settings) (t : FileTree) (path : String) :
    s.addDropIn t path = s.readOrReport t path (.settingsUnreadable path) := by
  rw [addDropIn, readOrReport]
  cases t.readText path <;> rfl

end Settings

section Load

variable {t t' : FileTree} {place : Place} {old : List UInt8}

theorem Event.saysNotText_unreadable {path : String} (h : t.resolve path ≠ .ok place)
    (e : ReadError) : (Event.settingsUnreadable path e).saysNotText t place = false := by
  cases e with
  | system cause => rfl
  | notUtf8 => exact decide_eq_false h

theorem Event.saysNotText_reportOnMain {path : String} (h : t.resolve path ≠ .ok place)
    (e : ReadError) : (Settings.reportOnMain path e).saysNotText t place = false := by
  rcases e with cause | _
  · cases cause <;> rfl
  · exact saysNotText_unreadable h .notUtf8

theorem Settings.saysNotText_read (s : Settings) (source : String) (content : List Char) :
    ∀ e ∈ (s.read source content).log, e.saysNotText t place = false := by
  intro e he
  obtain ⟨⟨line, fault⟩, -, rfl⟩ := List.mem_map.mp he
  rfl

/-- Reading a single path: either it leads to the file, and all there is to read is the report, or it
leads elsewhere, and the trees are the same there. -/
theorem Settings.readOrReport_spares (h : t.Rewritten t' place old [])
    (hold : ¬∃ text, old = Text.encodeUtf8 text) {path : String} {report : ReadError → Event}
    (hnotUtf8 : report .notUtf8 = .settingsUnreadable path .notUtf8)
    (hother : t.resolve path ≠ .ok place → ∀ e, (report e).saysNotText t place = false)
    (s : Settings) :
    SparesReports t place [path] (s.readOrReport t path report) (s.readOrReport t' path report) := by
  by_cases hpath : t.resolve path = .ok place
  · have hreport : s.readOrReport t path report = ⟨s, [.settingsUnreadable path .notUtf8]⟩ := by
      rw [readOrReport, h.readText_old hold hpath, ← hnotUtf8]
    have hempty : s.readOrReport t' path report = ⟨s, []⟩ := by
      have htext : t'.readText path = .ok [] := h.readText_new hpath
      rw [readOrReport, htext]
      rfl
    rw [hreport, hempty]
    exact ⟨rfl, by simp [Event.saysNotText, hpath], by simp [Event.saysNotText, hpath]⟩
  · rw [readOrReport, readOrReport, ← h.readText_eq hpath]
    apply SparesReports.refl
    · cases t.readText path with
      | ok content => exact s.saysNotText_read path content
      | error e => simpa using hother hpath e
    · simpa using hpath

theorem Settings.addMain_spares (h : t.Rewritten t' place old [])
    (hold : ¬∃ text, old = Text.encodeUtf8 text) (s : Settings) (path : String) :
    SparesReports t place [path] (s.addMain t path) (s.addMain t' path) := by
  have hnotUtf8 : reportOnMain path .notUtf8 = .settingsUnreadable path .notUtf8 := rfl
  rw [addMain_eq, addMain_eq]
  exact readOrReport_spares h hold hnotUtf8 Event.saysNotText_reportOnMain s

theorem Settings.addDropIns_spares (h : t.Rewritten t' place old [])
    (hold : ¬∃ text, old = Text.encodeUtf8 text) (ds : List DropIn) (s : Settings) :
    SparesReports t place (ds.map DropIn.path) (addDropIns t ds s) (addDropIns t' ds s) := by
  induction ds generalizing s with
  | nil => exact .refl (fun e he => absurd he List.not_mem_nil) (fun d hd => absurd hd List.not_mem_nil)
  | cons d rest ih =>
    rw [addDropIns, addDropIns, addDropIn_eq, addDropIn_eq]
    exact (readOrReport_spares h hold rfl Event.saysNotText_unreadable s).bind (ih _)

theorem DropIn.log_keepFiles (t : FileTree) (ds : List DropIn) :
    ∀ e ∈ (keepFiles t ds).log, ∃ path, e = .dropInMasked path := by
  induction ds with
  | nil => simp [keepFiles]
  | cons d rest ih =>
    rw [keepFiles]
    split
    · rw [Logged.log_bind, Logged.log_report, List.singleton_append, List.forall_mem_cons]
      exact ⟨⟨d.path, rfl⟩, ih⟩
    · simpa using ih

/-- The same drop-ins are collected, whatever the file holds. -/
theorem DropIn.collect_rewritten {new : List UInt8} (h : t.Rewritten t' place old new)
    (root : String) : collect t' root = collect t root := by
  rw [collect, collect, choose_congr h.lists_iff root]
  exact (keepFiles_congr (fun d _ => h.isNullDevice_eq d.path) fun d _ => h.isFile_eq d.path).symm

theorem Settings.load_spares (h : t.Rewritten t' place old [])
    (hold : ¬∃ text, old = Text.encodeUtf8 text) (root : String) :
    SparesReports t place (Policy.pathsRead t root) (load t root) (load t' root) := by
  have hmasked : ∀ e ∈ (DropIn.collect t root).log, e.saysNotText t place = false := by
    intro e he
    obtain ⟨path, rfl⟩ := DropIn.log_keepFiles t _ e he
    rfl
  have hcollect : SparesReports t place [] (DropIn.collect t root) (DropIn.collect t root) :=
    .refl hmasked (by simp)
  rw [load, load, DropIn.collect_rewritten h]
  exact (addMain_spares h hold _ _).bind (hcollect.bind (addDropIns_spares h hold _ _))

end Load

/-- A settings file that is not UTF-8 against an empty one in its place.  The same paths are read and
the same policy is loaded, and all reports stay but one warning for each path that leads to the file. -/
theorem Policy.load_not_text {t t' : FileTree} {place : Place} {old : List UInt8}
    (h : t.Rewritten t' place old []) (hold : ¬∃ text, old = Text.encodeUtf8 text) (root : String) :
    let paths := (pathsRead t root).filter fun path => t.resolve path = .ok place
    let reports := paths.map fun path => Event.settingsUnreadable path .notUtf8
    (Policy.load t' root).value = (Policy.load t root).value ∧
    (Policy.load t' root).log = (Policy.load t root).log.filter (· ∉ reports) ∧
    (Policy.load t root).log.filter (· ∈ reports) = reports ∧
    (∀ report ∈ reports, report.level = .warn) ∧
    paths.Nodup ∧ pathsRead t' root = pathsRead t root := by
  intro paths reports
  have hspares := (Settings.load_spares h hold root).map Settings.complete
  have hreports : (Policy.load t root).log.filter (Event.saysNotText t place) = reports :=
    hspares.reports_eq
  have hmem : ∀ e ∈ (Policy.load t root).log, decide (e ∈ reports) = e.saysNotText t place := by
    intro e he
    rw [Bool.eq_iff_iff, decide_eq_true_iff, ← hreports, List.mem_filter]
    exact ⟨fun h => h.2, fun h => ⟨he, h⟩⟩
  refine ⟨hspares.value_eq, ?_, ?_, ?_, (pathsRead_nodup t root).filter _, ?_⟩
  · refine hspares.rest_eq.trans (List.filter_congr fun e he => ?_)
    rw [decide_not, hmem e he]
  · exact (List.filter_congr hmem).trans hreports
  · intro report hreport
    obtain ⟨path, -, rfl⟩ := List.mem_map.mp hreport
    rfl
  · rw [pathsRead, pathsRead, DropIn.collect_rewritten h]

-- The main file is a link to a drop-in that ends in a byte of no text, and the drop-in hides another of
-- its name.
theorem Policy.load_not_text_twice :
    let place : Place := ["etc", "elogind", "sleep.conf.d", "50.conf"]
    let old := Text.encodeUtf8 "[Sleep]\nAllowSuspend=no\n".toList ++ [0xFF]
    let file := fun text : String => Node.file (Text.encodeUtf8 text.toList)
    let t : FileTree :=
      ⟨[(["etc"], .directory), (["etc", "elogind"], .directory),
        (["etc", "elogind", "sleep.conf"], .link "sleep.conf.d/50.conf"),
        (["etc", "elogind", "sleep.conf.d"], .directory), (place, .file old),
        (["run"], .directory), (["run", "elogind"], .directory),
        (["run", "elogind", "sleep.conf.d"], .directory),
        (["run", "elogind", "sleep.conf.d", "50.conf"], file "[Sleep]\nAllowHibernation=no\n")], []⟩
    let t' := t.rewrite place []
    t.Rewritten t' place old [] ∧ (¬∃ text, old = Text.encodeUtf8 text) ∧
      (Policy.load t' "").value = (Policy.load t "").value ∧
      (Policy.load t "").value = Policy.default ∧
      (Policy.load t "").log =
        [.settingsUnreadable "etc/elogind/sleep.conf" .notUtf8,
         .settingsUnreadable "etc/elogind/sleep.conf.d/50.conf" .notUtf8] ∧
      (Policy.load t' "").log = [] := by
  intro place old file t t'
  have h : t.Rewritten t' place old [] := FileTree.rewritten_rewrite (by decide +kernel) []
  have hold : ¬∃ text, old = Text.encodeUtf8 text := by
    rintro ⟨text, htext⟩
    have hdecode : Text.decodeUtf8? old = none := by decide +kernel
    rw [Text.decodeUtf8?_eq_some_iff.mpr htext] at hdecode
    cases hdecode
  have hvalue := (load_not_text h hold "").1
  refine ⟨h, hold, hvalue, ?_, ?_, ?_⟩ <;> decide +kernel

end SleepPolicy
