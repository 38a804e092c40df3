import HostInventory.Proofs.Json.Unambiguous
import HostInventory.Inventory.NormalizeCurrent
/-!
# What the current-schema normalizer reports

Normalizing a snapshot to the current schema reports every record of the installed and the update
collections as exactly one package, collection by collection in a fixed order, and reports pip and
gem records not at all (`toCurrent_reports_every_record`). The kind of a package depends on the
collection of its record alone, except for plain rpm records, whose kind the rpm policy resolves
for the host's tooling. Whether a package keeps the source package of its record depends on its
kind alone: apt and yum packages keep a named one.

What the normalizer cannot carry over it reports. Its warnings are, in order, one for each Windows
update whose category names and ids differ in number and one for each hotfix whose install date
does not read, first about the installed collection and then about the update collection, each
naming the record by its index within its own collection
(`toCurrent_warnings_describe_degradations`). The path a warning gives names one record only
(`installDatePath_inj`), so a hotfix package lacks its install time exactly when a warning names
its install date.

The statements compare the normalizer with `reportedPackages` and `degradations`, which say the
same per collection as plain maps and filters over the records, indexed from zero.
-/

namespace HostInventory

/-- The records of the Windows updates of an optional collection. -/
def updateRecords (c : Option Collections) : List UpdateRecord := (c.map Collections.wua).getD []

/-- The records of the hotfixes of an optional collection. -/
def hotfixRecords (c : Option Collections) : List HotfixRecord := (c.map Collections.qfe).getD []

/-- The kind a plain rpm record is reported as under a flavor. -/
def RpmFlavor.packageKind : RpmFlavor → Current.PackageKind
  | .yum => .yum
  | .zypper => .zypper

theorem RpmFlavor.packageKind_shape (flavor : RpmFlavor) :
    flavor.packageKind.shape = .versioned := by
  cases flavor <;> rfl

theorem Text.isEmpty_eq_false {t : Text} : t.isEmpty = false ↔ t ≠ Text.empty := by
  cases t
  simp [Text.isEmpty, Text.empty]

namespace Current

/-! ### The packages of a collection -/

/-- The kinds whose packages keep the source package of their record: apt and yum. -/
def PackageKind.keepsSource : PackageKind → Bool
  | .apt | .yum => true
  | _ => false

/-- The details a package record is reported with as a package of `kind`: the record's name,
architecture and version, and its source package when the kind keeps one and it is named. -/
def Versioned.reported (kind : PackageKind) (p : PackageRecord) : Versioned :=
  { packageName := p.name, architecture := p.arch, version := p.version,
    source :=
      if kind.keepsSource = true ∧ p.source.name ≠ Text.empty then
        some ⟨p.source.name, p.source.version⟩
      else none }

/-- The package a record of a versioned collection is reported as. -/
def Package.ofRecord (kind : PackageKind) (shape : kind.shape = .versioned) (p : PackageRecord) :
    Package :=
  Package.versioned kind shape (Versioned.reported kind p)

/-- The details of a hotfix record: its install time is the midnight of its install date when that
reads as a slash date, and absent otherwise. -/
def HotfixDetails.reported (q : HotfixRecord) : HotfixDetails :=
  { caption := q.caption, description := q.description, hotFixId := q.hotfixId,
    installTime := (SlashDate.read q.installedOn).toOption.map DateTime.toTimestamp }

/-- The packages an optional collection is reported as: apt and deb records as apt packages, then
googet, yum, zypper and rpm records, zypper patches, Windows updates, hotfixes, cos records and
Windows applications, one package per record. -/
def reportedPackages (flavor : RpmFlavor) : Option Collections → List Package
  | none => []
  | some c =>
    -- the shape proofs are closed terms, so the body names no auxiliary lemma
    (c.apt ++ c.deb).map (Package.ofRecord .apt (Eq.refl DetailsShape.versioned)) ++
      c.googet.map (Package.ofRecord .googet (Eq.refl DetailsShape.versioned)) ++
      c.yum.map (Package.ofRecord .yum (Eq.refl DetailsShape.versioned)) ++
      c.zypper.map (Package.ofRecord .zypper (Eq.refl DetailsShape.versioned)) ++
      c.rpm.map (Package.ofRecord flavor.packageKind flavor.packageKind_shape) ++
      c.zypperPatches.map (fun p =>
        ⟨.zypperPatch, .patch (PatchDetails.ofRecord p), Eq.refl DetailsShape.patch⟩) ++
      c.wua.map (fun u => ⟨.wua, .update (UpdateDetails.ofRecord u), Eq.refl DetailsShape.update⟩) ++
      c.qfe.map (fun q => ⟨.qfe, .hotfix (HotfixDetails.reported q), Eq.refl DetailsShape.hotfix⟩) ++
      c.cos.map (Package.ofRecord .cos (Eq.refl DetailsShape.versioned)) ++
      c.windowsApplication.map (fun a => ⟨.windowsApplication, .application (AppDetails.ofRecord a),
        Eq.refl DetailsShape.application⟩)

/-! ### The warnings about a collection -/

/-- The path of the category names of the `i`-th Windows update of the collection named `field`. -/
def categoryPath (field : String) (i : Nat) : Text :=
  indexed (field ++ ".wua") i ++ Text.ofString ".categories"

/-- The path of the install date of the `i`-th hotfix of the collection named `field`. -/
def installDatePath (field : String) (i : Nat) : Text :=
  indexed (field ++ ".qfe") i ++ Text.ofString ".installed_on"

/-- The warning about a Windows update and its index in the collection named `field`, when its
category names and ids differ in number. -/
def categoryDegradation (field : String) : UpdateRecord × Nat → Option Warning
  | (u, i) =>
    if u.categories.length = u.categoryIds.length then none
    else
      some ⟨categoryPath field i,
        Text.ofNat u.categories.length ++ Text.ofString " category names for " ++
          Text.ofNat u.categoryIds.length ++ Text.ofString " category ids, unpaired entries dropped"⟩

/-- The warning about a hotfix and its index in the collection named `field`, when its install date
does not read as a slash date: the date as written and why it was refused. -/
def hotfixDegradation (field : String) : HotfixRecord × Nat → Option Warning
  | (q, i) =>
    match SlashDate.read q.installedOn with
    | .ok _ => none
    | .error e =>
      some ⟨installDatePath field i,
        Text.ofString "cannot parse QFE install date " ++ Text.quoted q.installedOn ++
          Text.ofString ": " ++ e.message⟩

/-- The warnings about the Windows updates of the collection named `field`, in order. -/
def categoryDegradations (field : String) (updates : List UpdateRecord) : List Warning :=
  updates.zipIdx.filterMap (categoryDegradation field)

/-- The warnings about the hotfixes of the collection named `field`, in order. -/
def hotfixDegradations (field : String) (hotfixes : List HotfixRecord) : List Warning :=
  hotfixes.zipIdx.filterMap (hotfixDegradation field)

/-- The warnings about an optional collection named `field`: its Windows updates', then its
hotfixes'. -/
def degradations (field : String) (c : Option Collections) : List Warning :=
  categoryDegradations field (updateRecords c) ++ hotfixDegradations field (hotfixRecords c)

/-- No Windows update of a list is warned about exactly when each pairs all its categories. -/
theorem categoryDegradations_eq_nil_iff (field : String) (updates : List UpdateRecord) :
    categoryDegradations field updates = [] ↔
      ∀ u ∈ updates, u.categories.length = u.categoryIds.length := by
  rw [categoryDegradations, List.filterMap_eq_nil_iff]
  constructor
  · intro unwarned u mem
    obtain ⟨i, atI⟩ := List.mem_iff_getElem?.mp mem
    have none := unwarned (u, i) (List.mem_zipIdx_iff_getElem?.mpr atI)
    simpa [categoryDegradation] using none
  · rintro paired ⟨u, i⟩ mem
    have atI := List.mem_zipIdx_iff_getElem?.mp mem
    simp [categoryDegradation, paired u (List.mem_of_getElem? atI)]

/-! ### The normalizer, collection by collection -/

theorem Versioned.ofRecord_keepsSource (kind : PackageKind) (p : PackageRecord) :
    Versioned.ofRecord kind.keepsSource p = Versioned.reported kind p := by
  by_cases keeps : kind.keepsSource = true <;>
    simp [Versioned.ofRecord, Versioned.reported, keeps, Text.isEmpty_eq_false]

theorem versionedPackages_eq (kind : PackageKind) (shape : kind.shape = .versioned)
    (withSource : Bool) (keeps : kind.keepsSource = withSource) (records : List PackageRecord) :
    versionedPackages kind shape withSource records = records.map (Package.ofRecord kind shape) := by
  subst keeps
  simp [versionedPackages, Package.ofRecord, Versioned.ofRecord_keepsSource]

theorem categoryWarnings_eq (field : String) (i : Nat) (u : UpdateRecord) :
    categoryWarnings (indexed (field ++ ".wua") i) u = (categoryDegradation field (u, i)).toList := by
  by_cases paired : u.categories.length = u.categoryIds.length <;>
    simp [categoryWarnings, categoryDegradation, categoryPath, paired]

theorem HotfixDetails.ofRecord_eq (field : String) (i : Nat) (q : HotfixRecord) :
    HotfixDetails.ofRecord (indexed (field ++ ".qfe") i) q =
      (HotfixDetails.reported q, (hotfixDegradation field (q, i)).toList) := by
  cases read : SlashDate.read q.installedOn <;>
    simp [HotfixDetails.ofRecord, HotfixDetails.reported, hotfixDegradation, installDatePath, read,
      Except.toOption]

/-- The update loop reports every update, and warns with the index counted from `i`. -/
theorem updatePackages_eq (field : String) : ∀ (i : Nat) (updates : List UpdateRecord),
    updatePackages field i updates =
      (updates.map fun u => ⟨.wua, .update (UpdateDetails.ofRecord u), rfl⟩,
        (updates.zipIdx i).filterMap (categoryDegradation field))
  | _, [] => rfl
  | i, u :: rest => by
    rw [updatePackages, updatePackages_eq field (i + 1) rest, categoryWarnings_eq]
    cases warned : categoryDegradation field (u, i) <;>
      simp [List.zipIdx_cons, warned]

/-- The hotfix loop reports every hotfix, and warns with the index counted from `i`. -/
theorem hotfixPackages_eq (field : String) : ∀ (i : Nat) (hotfixes : List HotfixRecord),
    hotfixPackages field i hotfixes =
      (hotfixes.map fun q => ⟨.qfe, .hotfix (HotfixDetails.reported q), rfl⟩,
        (hotfixes.zipIdx i).filterMap (hotfixDegradation field))
  | _, [] => rfl
  | i, q :: rest => by
    rw [hotfixPackages, hotfixPackages_eq field (i + 1) rest, HotfixDetails.ofRecord_eq]
    cases warned : hotfixDegradation field (q, i) <;>
      simp [List.zipIdx_cons, warned]

theorem collectionPackages_eq (flavor : RpmFlavor) (field : String) (c : Collections) :
    collectionPackages flavor field c =
      (reportedPackages flavor (some c), degradations field (some c)) := by
  -- the flavor decides the kind of the rpm packages, and with it whether they keep a source package
  cases flavor <;>
  simp only [collectionPackages, RpmFlavor.packageKind, updatePackages_eq, hotfixPackages_eq,
    versionedPackages_eq .apt rfl true rfl, versionedPackages_eq .googet rfl false rfl,
    versionedPackages_eq .yum rfl true rfl, versionedPackages_eq .zypper rfl false rfl,
    versionedPackages_eq .cos rfl false rfl, reportedPackages, degradations, categoryDegradations,
    hotfixDegradations, updateRecords, hotfixRecords, Option.map_some, Option.getD_some,
    List.map_append, List.append_assoc]

theorem packagesOf_eq (flavor : RpmFlavor) (field : String) (c : Option Collections) :
    packagesOf flavor field c = (reportedPackages flavor c, degradations field c) := by
  cases c with
  | none => rfl
  | some c => exact collectionPackages_eq flavor field c

/-- The normalizer as plain maps and filters over the two collections. -/
theorem toCurrent_eq (s : Snapshot) (tooling : Tooling) (policy : RpmPolicy) :
    s.toCurrent tooling policy =
      { inventory :=
          { os := OsInfo.ofSnapshot s,
            installed := reportedPackages (policy.resolve tooling) s.installed,
            available := reportedPackages (policy.resolve tooling) s.updates },
        warnings := degradations "installed_packages" s.installed ++
          degradations "package_updates" s.updates } := by
  simp only [Snapshot.toCurrent, packagesOf_eq]

/-- Normalizing to the current schema reports the operating system's eight fields, and every
record of the installed and the update collections as one package, in the fixed order of
`reportedPackages`: each package copies its record, apt and yum packages keep a named source
package and no other kind does, and plain rpm records become packages of the kind the policy
resolves for the tooling. -/
theorem toCurrent_reports_every_record (s : Snapshot) (tooling : Tooling) (policy : RpmPolicy) :
    let inv := (s.toCurrent tooling policy).inventory
    inv.os =
        { hostname := s.hostname, longName := s.longName, shortName := s.shortName,
          version := s.version, architecture := s.architecture, kernelVersion := s.kernelVersion,
          kernelRelease := s.kernelRelease, osconfigAgentVersion := s.osconfigAgentVersion } ∧
      inv.installed = reportedPackages (policy.resolve tooling) s.installed ∧
      inv.available = reportedPackages (policy.resolve tooling) s.updates := by
  rw [toCurrent_eq]
  exact ⟨rfl, rfl, rfl⟩

/-! ### Warnings against the packages they are about -/

/-- The details of a Windows update package. -/
def Package.update? (p : Package) : Option UpdateDetails :=
  match p.details with
  | .update d => some d
  | _ => none

/-- The details of a hotfix package. -/
def Package.hotfix? (p : Package) : Option HotfixDetails :=
  match p.details with
  | .hotfix d => some d
  | _ => none

/-- A Windows update package against its record: the categories pair the record's category ids
with its category names position by position, as far as both lists go, and the deployment time is
absent exactly when the record's is missing or zero. -/
structure UpdateDetails.Pairs (u : UpdateRecord) (d : UpdateDetails) : Prop where
  length : d.categories.length = min u.categories.length u.categoryIds.length
  category : ∀ k (inNames : k < u.categories.length) (inIds : k < u.categoryIds.length),
    d.categories[k]? = some ⟨u.categoryIds[k], u.categories[k]⟩
  deployment : d.lastDeploymentChangeTime = none ↔
    u.lastDeploymentChangeTime = none ∨ ∃ t, u.lastDeploymentChangeTime = some t ∧ t.isZero = true

/-- What the warnings of a normalization say about the packages of the collection named `field`:
each Windows update package pairs its record's categories, and each hotfix package lacks its
install time exactly when a warning names the install date of its record. -/
structure DescribesDegradation (warnings : List Warning) (field : String) (c : Option Collections)
    (packages : List Package) : Prop where
  updates : List.Forall₂ UpdateDetails.Pairs (updateRecords c) (packages.filterMap Package.update?)
  hotfixes : List.Forall₂
    (fun (record : HotfixRecord × Nat) (d : HotfixDetails) =>
      d.installTime = none ↔ ∃ w ∈ warnings, w.field = installDatePath field record.2)
    (hotfixRecords c).zipIdx (packages.filterMap Package.hotfix?)

theorem UpdateDetails.pairs_ofRecord (u : UpdateRecord) : UpdateDetails.Pairs u (ofRecord u) where
  length := by simp [UpdateDetails.ofRecord, Nat.min_comm]
  category := by
    intro k inNames inIds
    simp [UpdateDetails.ofRecord, inNames, inIds]
  deployment := by
    cases time : u.lastDeploymentChangeTime with
    | none => simp [UpdateDetails.ofRecord, deploymentTime, time]
    | some t => cases zero : t.isZero <;> simp [UpdateDetails.ofRecord, deploymentTime, time, zero]

theorem reportedPackages_updates (flavor : RpmFlavor) (c : Option Collections) :
    (reportedPackages flavor c).filterMap Package.update? = (updateRecords c).map UpdateDetails.ofRecord := by
  cases c with
  | none => rfl
  | some c =>
    simp [reportedPackages, updateRecords, List.filterMap_append, List.filterMap_map, Package.update?,
      Package.ofRecord, Package.versioned, Function.comp_def]

theorem reportedPackages_hotfixes (flavor : RpmFlavor) (c : Option Collections) :
    (reportedPackages flavor c).filterMap Package.hotfix? = (hotfixRecords c).map HotfixDetails.reported := by
  cases c with
  | none => rfl
  | some c =>
    simp [reportedPackages, hotfixRecords, List.filterMap_append, List.filterMap_map, Package.hotfix?,
      Package.ofRecord, Package.versioned, Function.comp_def]

/-! ### Warning paths name one record -/

/-- The index in a path is read up to the closing bracket, which no digit is. -/
theorem indexed_append_inj {field : String} {i j : Nat} {rest rest' : Text}
    (same : indexed field i ++ rest = indexed field j ++ rest') : i = j ∧ rest = rest' := by
  have points := congrArg Text.points same
  simp only [indexed, Text.points_append, List.append_assoc] at points
  have digits := Json.append_inj_of_stop (fun c mem => Json.digit_of_mem_toString mem)
    (fun c mem => Json.digit_of_mem_toString mem) (by simp [Text.ofString]) (by simp [Text.ofString])
    (List.append_cancel_left (List.append_cancel_left points))
  constructor
  · exact Text.ofNat_injective (Text.points_injective digits.1)
  · apply Text.points_injective
    simpa [Text.ofString] using digits.2

theorem installDatePath_ne_categoryPath (field field' : String) (i j : Nat) :
    installDatePath field i ≠ categoryPath field' j := by
  intro same
  have last := congrArg (fun t => t.points.getLast?) same
  simp [installDatePath, categoryPath, List.getLast?_append, Text.ofString] at last

/-- Install-date paths into the two collections of a snapshot name the collection and the index. -/
theorem installDatePath_inj {field field' : String} {i j : Nat}
    (named : field = "installed_packages" ∨ field = "package_updates")
    (named' : field' = "installed_packages" ∨ field' = "package_updates")
    (same : installDatePath field i = installDatePath field' j) : field = field' ∧ i = j := by
  have first := congrArg (fun t => t.points.head?) same
  rcases named with rfl | rfl <;> rcases named' with rfl | rfl
  · exact ⟨rfl, (indexed_append_inj same).1⟩
  · simp [installDatePath, indexed, Text.ofString] at first
  · simp [installDatePath, indexed, Text.ofString] at first
  · exact ⟨rfl, (indexed_append_inj same).1⟩

theorem mem_degradations {field : String} {c : Option Collections} {w : Warning} :
    w ∈ degradations field c ↔
      (∃ u i, (updateRecords c)[i]? = some u ∧ categoryDegradation field (u, i) = some w) ∨
        ∃ q i, (hotfixRecords c)[i]? = some q ∧ hotfixDegradation field (q, i) = some w := by
  simp [degradations, categoryDegradations, hotfixDegradations, List.mem_filterMap,
    List.mem_zipIdx_iff_getElem?]

theorem categoryDegradation_field {field : String} {u : UpdateRecord} {i : Nat} {w : Warning}
    (warned : categoryDegradation field (u, i) = some w) : w.field = categoryPath field i := by
  by_cases paired : u.categories.length = u.categoryIds.length
  · simp [categoryDegradation, paired] at warned
  · simp only [categoryDegradation, paired, if_false, Option.some.injEq] at warned
    rw [← warned]

theorem hotfixDegradation_field {field : String} {q : HotfixRecord} {i : Nat} {w : Warning}
    (warned : hotfixDegradation field (q, i) = some w) : w.field = installDatePath field i := by
  cases read : SlashDate.read q.installedOn <;>
    simp only [hotfixDegradation, read, reduceCtorEq, Option.some.injEq] at warned
  rw [← warned]

/-- A hotfix is warned about exactly when its package lacks an install time. -/
theorem hotfixDegradation_isSome (field : String) (q : HotfixRecord) (i : Nat) :
    (hotfixDegradation field (q, i)).isSome = true ↔ (HotfixDetails.reported q).installTime = none := by
  cases read : SlashDate.read q.installedOn <;>
    simp [hotfixDegradation, HotfixDetails.reported, read, Except.toOption]

/-- A warning about a collection that names the install date of a hotfix is about one of that
collection's own hotfixes, at that index. -/
theorem installDate_warning {field field' : String}
    (named : field = "installed_packages" ∨ field = "package_updates")
    (named' : field' = "installed_packages" ∨ field' = "package_updates")
    {c : Option Collections} {w : Warning} {i : Nat} (mem : w ∈ degradations field' c)
    (names : w.field = installDatePath field i) :
    field' = field ∧ ∃ q, (hotfixRecords c)[i]? = some q ∧ hotfixDegradation field (q, i) = some w := by
  rcases mem_degradations.mp mem with ⟨u, j, -, warned⟩ | ⟨q, j, atJ, warned⟩
  · rw [categoryDegradation_field warned] at names
    exact absurd names.symm (installDatePath_ne_categoryPath _ _ _ _)
  · rw [hotfixDegradation_field warned] at names
    obtain ⟨rfl, rfl⟩ := installDatePath_inj named' named names
    exact ⟨rfl, q, atJ, warned⟩

/-- Among the warnings about both collections of a snapshot, one names the install date of the
`i`-th hotfix of a collection exactly when that hotfix's package lacks an install time. -/
theorem warned_installDate_iff (installed updates : Option Collections) {field : String}
    {c : Option Collections}
    (named : field = "installed_packages" ∧ c = installed ∨ field = "package_updates" ∧ c = updates)
    {q : HotfixRecord} {i : Nat} (atI : (hotfixRecords c)[i]? = some q) :
    (∃ w ∈ degradations "installed_packages" installed ++ degradations "package_updates" updates,
      w.field = installDatePath field i) ↔ (HotfixDetails.reported q).installTime = none := by
  rw [← hotfixDegradation_isSome field q i]
  have fieldNamed : field = "installed_packages" ∨ field = "package_updates" := by
    rcases named with ⟨rfl, -⟩ | ⟨rfl, -⟩ <;> simp
  constructor
  · rintro ⟨w, mem, names⟩
    -- the warning is about one of the two collections, and its path says which
    have found : ∃ q', (hotfixRecords c)[i]? = some q' ∧ hotfixDegradation field (q', i) = some w := by
      rcases List.mem_append.mp mem with inInstalled | inUpdates
      · obtain ⟨rfl, found⟩ := installDate_warning fieldNamed (.inl rfl) inInstalled names
        rcases named with ⟨-, rfl⟩ | ⟨other, -⟩
        · exact found
        · simp at other
      · obtain ⟨rfl, found⟩ := installDate_warning fieldNamed (.inr rfl) inUpdates names
        rcases named with ⟨other, -⟩ | ⟨-, rfl⟩
        · simp at other
        · exact found
    obtain ⟨q', atI', warned⟩ := found
    rw [atI] at atI'
    cases atI'
    simp [warned]
  · intro warned
    obtain ⟨w, warned⟩ := Option.isSome_iff_exists.mp warned
    have mine : w ∈ degradations field c := mem_degradations.mpr (.inr ⟨q, i, atI, warned⟩)
    refine ⟨w, ?_, hotfixDegradation_field warned⟩
    rcases named with ⟨rfl, rfl⟩ | ⟨rfl, rfl⟩
    · exact List.mem_append_left _ mine
    · exact List.mem_append_right _ mine

theorem describesDegradation (installed updates : Option Collections) (flavor : RpmFlavor)
    {field : String} {c : Option Collections}
    (named : field = "installed_packages" ∧ c = installed ∨ field = "package_updates" ∧ c = updates) :
    DescribesDegradation
      (degradations "installed_packages" installed ++ degradations "package_updates" updates)
      field c (reportedPackages flavor c) where
  updates := by
    rw [reportedPackages_updates, List.forall₂_map_right_iff, List.forall₂_same]
    exact fun u _ => UpdateDetails.pairs_ofRecord u
  hotfixes := by
    have byIndex : (hotfixRecords c).map HotfixDetails.reported =
        (hotfixRecords c).zipIdx.map (HotfixDetails.reported ∘ Prod.fst) := by
      rw [← List.map_map, List.zipIdx_map_fst]
    rw [reportedPackages_hotfixes, byIndex, List.forall₂_map_right_iff, List.forall₂_same]
    rintro ⟨q, i⟩ mem
    exact (warned_installDate_iff installed updates named (List.mem_zipIdx_iff_getElem?.mp mem)).symm

/-- The warnings of normalizing to the current schema are exactly, installed collection first, one
per Windows update whose category names and ids differ in number and then one per hotfix whose
install date does not read, each naming its record by the index within its collection. Each
Windows update package pairs its record's category ids and names as far as both go and drops a
missing or zero deployment time; each hotfix package lacks its install time exactly when a warning
names its install date; and the normalization is clean exactly when there is no warning. -/
theorem toCurrent_warnings_describe_degradations (s : Snapshot) (tooling : Tooling)
    (policy : RpmPolicy) :
    let n := s.toCurrent tooling policy
    n.warnings = degradations "installed_packages" s.installed ++
        degradations "package_updates" s.updates ∧
      DescribesDegradation n.warnings "installed_packages" s.installed n.inventory.installed ∧
      DescribesDegradation n.warnings "package_updates" s.updates n.inventory.available ∧
      (n.ok = true ↔ n.warnings = []) := by
  rw [toCurrent_eq]
  exact ⟨rfl, describesDegradation _ _ _ (.inl ⟨rfl, rfl⟩),
    describesDegradation _ _ _ (.inr ⟨rfl, rfl⟩), Normalized.ok_iff _⟩

end Current

end HostInventory
