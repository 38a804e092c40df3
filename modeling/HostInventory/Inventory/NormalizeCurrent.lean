import HostInventory.Inventory.Current
import HostInventory.Inventory.Snapshot
import HostInventory.Inventory.Warning
import HostInventory.Time.SlashDate
import HostInventory.Text.Quoted
/-!
# Normalizing to the current schema

Each collection of a snapshot maps to one package kind:

* apt and deb records become apt packages, yum records yum packages, zypper records zypper
  packages, googet and cos records packages of their own kinds;
* rpm records become yum or zypper packages, as the rpm policy resolves for the host's tooling;
* zypper patches, Windows updates, hotfixes and Windows applications become packages of their
  own kinds;
* pip and gem records are not reported.

Packages come in that order: apt, deb, googet, yum, zypper, rpm, zypper patches, Windows updates,
hotfixes, cos, Windows applications; the installed collection gives the installed packages and the
update collection the available ones.

Only apt, deb, yum and rpm-as-yum records keep a source package, and only a named one. A Windows
update pairs its category ids with its category names position by position, dropping unpaired
entries with a warning, and a zero deployment time is left out. A hotfix whose install date does
not read as a slash date keeps no install time and gives a warning. A Windows application's zero
or missing install date becomes the date `0/0/0`; any other keeps its fields as written, before
any conversion to UTC.
-/

namespace HostInventory

namespace Current

/-- Versioned details of a package record; a source package is kept when `withSource` holds and
the source is named. -/
def Versioned.ofRecord (withSource : Bool) (p : PackageRecord) : Versioned :=
  { packageName := p.name, architecture := p.arch, version := p.version,
    source :=
      if withSource && !p.source.name.isEmpty then some ⟨p.source.name, p.source.version⟩
      else none }

/-- Details of a zypper patch record. -/
def PatchDetails.ofRecord (p : PatchRecord) : PatchDetails :=
  { patchName := p.name, category := p.category, severity := p.severity, summary := p.summary }

/-- The deployment time of an update: absent when missing or zero. -/
def deploymentTime : Option DateTime → Option Timestamp
  | some d => if d.isZero then none else some d.toTimestamp
  | none => none

/-- Details of an update record; categories pair ids with names position by position. -/
def UpdateDetails.ofRecord (u : UpdateRecord) : UpdateDetails :=
  { title := u.title, description := u.description,
    categories := List.zipWith UpdateCategory.mk u.categoryIds u.categories,
    kbArticleIds := u.kbArticleIds, supportUrl := u.supportUrl, moreInfoUrls := u.moreInfoUrls,
    updateId := u.updateId, revisionNumber := u.revisionNumber,
    lastDeploymentChangeTime := deploymentTime u.lastDeploymentChangeTime }

/-- The warning about an update whose category names and ids differ in number. -/
def categoryWarnings (field : Text) (u : UpdateRecord) : List Warning :=
  if u.categories.length = u.categoryIds.length then []
  else
    [⟨field ++ Text.ofString ".categories",
      Text.ofNat u.categories.length ++ Text.ofString " category names for " ++
        Text.ofNat u.categoryIds.length ++
        Text.ofString " category ids, unpaired entries dropped"⟩]

/-- Details of a hotfix record, with the warning about an unreadable install date. -/
def HotfixDetails.ofRecord (field : Text) (q : HotfixRecord) : HotfixDetails × List Warning :=
  let details (t : Option Timestamp) : HotfixDetails :=
    { caption := q.caption, description := q.description, hotFixId := q.hotfixId,
      installTime := t }
  match SlashDate.read q.installedOn with
  | .ok d => (details (some d.toTimestamp), [])
  | .error e =>
    (details none,
      [⟨field ++ Text.ofString ".installed_on",
        Text.ofString "cannot parse QFE install date " ++ Text.quoted q.installedOn ++
          Text.ofString ": " ++ e.message⟩])

/-- The calendar date of an install date: its fields as written, `0/0/0` when missing or zero. -/
def CalendarDate.ofInstallDate : Option DateTime → CalendarDate
  | some d => if d.isZero then {} else ⟨d.year, d.month, d.day⟩
  | none => {}

/-- Details of an application record. -/
def AppDetails.ofRecord (a : AppRecord) : AppDetails :=
  { displayName := a.displayName, displayVersion := a.displayVersion, publisher := a.publisher,
    installDate := CalendarDate.ofInstallDate a.installDate, helpLink := a.helpLink }

/-- A package of a kind with versioned details. -/
def Package.versioned (kind : PackageKind) (h : kind.shape = .versioned) (v : Versioned) :
    Package :=
  ⟨kind, .versioned v, h.symm⟩

/-- Versioned packages of one kind from package records. -/
def versionedPackages (kind : PackageKind) (h : kind.shape = .versioned) (withSource : Bool)
    (records : List PackageRecord) : List Package :=
  records.map fun p => Package.versioned kind h (Versioned.ofRecord withSource p)

/-- Update packages with their warnings; the first update has index `i`. -/
def updatePackages (field : String) (i : Nat) : List UpdateRecord → List Package × List Warning
  | [] => ([], [])
  | u :: rest =>
    let (packages, warnings) := updatePackages field (i + 1) rest
    (⟨.wua, .update (UpdateDetails.ofRecord u), rfl⟩ :: packages,
      categoryWarnings (indexed (field ++ ".wua") i) u ++ warnings)

/-- Hotfix packages with their warnings; the first hotfix has index `i`. -/
def hotfixPackages (field : String) (i : Nat) : List HotfixRecord → List Package × List Warning
  | [] => ([], [])
  | q :: rest =>
    let (details, warning) := HotfixDetails.ofRecord (indexed (field ++ ".qfe") i) q
    let (packages, warnings) := hotfixPackages field (i + 1) rest
    (⟨.qfe, .hotfix details, rfl⟩ :: packages, warning ++ warnings)

/-- The packages of one collection, with the warnings about it; `field` names the collection in
the snapshot. -/
def collectionPackages (flavor : RpmFlavor) (field : String) (c : Collections) :
    List Package × List Warning :=
  let rpm :=
    match flavor with
    | .yum => versionedPackages .yum rfl true c.rpm
    | .zypper => versionedPackages .zypper rfl false c.rpm
  let (updates, updateWarnings) := updatePackages field 0 c.wua
  let (hotfixes, hotfixWarnings) := hotfixPackages field 0 c.qfe
  (versionedPackages .apt rfl true c.apt ++ versionedPackages .apt rfl true c.deb ++
      versionedPackages .googet rfl false c.googet ++ versionedPackages .yum rfl true c.yum ++
      versionedPackages .zypper rfl false c.zypper ++ rpm ++
      c.zypperPatches.map (fun p => ⟨.zypperPatch, .patch (PatchDetails.ofRecord p), rfl⟩) ++
      updates ++ hotfixes ++ versionedPackages .cos rfl false c.cos ++
      c.windowsApplication.map (fun a => ⟨.windowsApplication, .application (AppDetails.ofRecord a),
        rfl⟩),
    updateWarnings ++ hotfixWarnings)

/-- The packages of an optional collection: none when it is missing. -/
def packagesOf (flavor : RpmFlavor) (field : String) : Option Collections →
    List Package × List Warning
  | some c => collectionPackages flavor field c
  | none => ([], [])

/-- The operating system of a snapshot. -/
def OsInfo.ofSnapshot (s : Snapshot) : OsInfo :=
  { hostname := s.hostname, longName := s.longName, shortName := s.shortName,
    version := s.version, architecture := s.architecture, kernelVersion := s.kernelVersion,
    kernelRelease := s.kernelRelease, osconfigAgentVersion := s.osconfigAgentVersion }

end Current

/-- The current-schema inventory of a snapshot, rpm packages taking the flavor the policy
resolves for the tooling; warnings about installed packages come first. -/
def Snapshot.toCurrent (s : Snapshot) (tooling : Tooling) (policy : RpmPolicy) :
    Normalized Current.Inventory :=
  let flavor := policy.resolve tooling
  let (installed, installedWarnings) := Current.packagesOf flavor "installed_packages" s.installed
  let (available, availableWarnings) := Current.packagesOf flavor "package_updates" s.updates
  { inventory := { os := Current.OsInfo.ofSnapshot s, installed, available },
    warnings := installedWarnings ++ availableWarnings }

end HostInventory
