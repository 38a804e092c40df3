import HostInventory.Inventory.Policy
import HostInventory.Time.Instant
/-!
# Snapshots

A snapshot is everything the collectors found on a host in one cycle: the operating system's
description, the legacy per-manager package collections (installed and available updates), and
the flat item list of the manager-agnostic collector, whose metadata is free-form.

The document form of a snapshot (`toDocument`) lists every field, the collections as `null` or as
an object with all thirteen lists, and date-times as ISO texts; it is what the loader reads back
and what attribute publishing stores.
-/

namespace HostInventory

/-- The source package a binary package was built from, when the manager knows it. -/
structure SourceRef where
  name : Text := Text.empty
  version : Text := Text.empty
deriving DecidableEq, Inhabited

/-- A package of apt, deb, googet, yum, zypper, rpm, cos, pip or gem. -/
structure PackageRecord where
  name : Text
  arch : Text := Text.empty
  version : Text := Text.empty
  source : SourceRef := {}
deriving DecidableEq, Inhabited

/-- A zypper patch. -/
structure PatchRecord where
  name : Text
  category : Text := Text.empty
  severity : Text := Text.empty
  summary : Text := Text.empty
deriving DecidableEq, Inhabited

/-- A Windows Update Agent update. Its category names and ids are parallel lists. -/
structure UpdateRecord where
  title : Text
  description : Text := Text.empty
  categories : List Text := []
  categoryIds : List Text := []
  kbArticleIds : List Text := []
  moreInfoUrls : List Text := []
  supportUrl : Text := Text.empty
  updateId : Text := Text.empty
  revisionNumber : Int := 0
  lastDeploymentChangeTime : Option DateTime := none
deriving DecidableEq, Inhabited

/-- A Windows quick-fix (hotfix) record; the install date is free text, usually `M/D/YYYY`. -/
structure HotfixRecord where
  caption : Text
  description : Text := Text.empty
  hotfixId : Text := Text.empty
  installedOn : Text := Text.empty
deriving DecidableEq, Inhabited

/-- An installed Windows application. -/
structure AppRecord where
  displayName : Text
  displayVersion : Text := Text.empty
  publisher : Text := Text.empty
  installDate : Option DateTime := none
  helpLink : Text := Text.empty
deriving DecidableEq, Inhabited

/-- The legacy per-manager collections. pip and gem are collected but reported by no schema. -/
structure Collections where
  apt : List PackageRecord := []
  deb : List PackageRecord := []
  googet : List PackageRecord := []
  yum : List PackageRecord := []
  zypper : List PackageRecord := []
  rpm : List PackageRecord := []
  cos : List PackageRecord := []
  zypperPatches : List PatchRecord := []
  wua : List UpdateRecord := []
  qfe : List HotfixRecord := []
  windowsApplication : List AppRecord := []
  pip : List PackageRecord := []
  gem : List PackageRecord := []
deriving Inhabited

/-- A record of the manager-agnostic collector. -/
structure CollectedItem where
  name : Text
  type : Text := Text.empty
  version : Text := Text.empty
  purl : Text := Text.empty
  location : List Text := []
  metadata : List (Text × Json) := []
deriving Inhabited

/-- Everything collected about a host in one cycle. -/
structure Snapshot where
  hostname : Text := Text.empty
  longName : Text := Text.empty
  shortName : Text := Text.empty
  version : Text := Text.empty
  architecture : Text := Text.empty
  kernelVersion : Text := Text.empty
  kernelRelease : Text := Text.empty
  osconfigAgentVersion : Text := Text.empty
  lastUpdated : Text := Text.empty
  installed : Option Collections := none
  updates : Option Collections := none
  items : List CollectedItem := []
deriving Inhabited

/-- A snapshot with the package tools found on the host. -/
structure Collected where
  snapshot : Snapshot
  tooling : Tooling

section Document

/-- An optional date-time as its ISO text or `null`. -/
def Json.dateTime? : Option DateTime → Json
  | some d => .str d.isoText
  | none => .null

/-- The document form of a package record. -/
def PackageRecord.toDocument (p : PackageRecord) : Json :=
  Json.record [("name", .str p.name), ("arch", .str p.arch), ("version", .str p.version),
    ("source", Json.record [("name", .str p.source.name), ("version", .str p.source.version)])]

/-- The document form of a patch record. -/
def PatchRecord.toDocument (p : PatchRecord) : Json :=
  Json.record [("name", .str p.name), ("category", .str p.category),
    ("severity", .str p.severity), ("summary", .str p.summary)]

/-- The document form of an update record. -/
def UpdateRecord.toDocument (u : UpdateRecord) : Json :=
  Json.record [("title", .str u.title), ("description", .str u.description),
    ("categories", Json.texts u.categories), ("category_ids", Json.texts u.categoryIds),
    ("kb_article_ids", Json.texts u.kbArticleIds), ("more_info_urls", Json.texts u.moreInfoUrls),
    ("support_url", .str u.supportUrl), ("update_id", .str u.updateId),
    ("revision_number", .int u.revisionNumber),
    ("last_deployment_change_time", Json.dateTime? u.lastDeploymentChangeTime)]

/-- The document form of a hotfix record. -/
def HotfixRecord.toDocument (q : HotfixRecord) : Json :=
  Json.record [("caption", .str q.caption), ("description", .str q.description),
    ("hotfix_id", .str q.hotfixId), ("installed_on", .str q.installedOn)]

/-- The document form of an application record. -/
def AppRecord.toDocument (a : AppRecord) : Json :=
  Json.record [("display_name", .str a.displayName), ("display_version", .str a.displayVersion),
    ("publisher", .str a.publisher), ("install_date", Json.dateTime? a.installDate),
    ("help_link", .str a.helpLink)]

/-- The document form of the collections: all thirteen lists. -/
def Collections.toDocument (c : Collections) : Json :=
  let pkgs (ps : List PackageRecord) : Json := .arr (ps.map PackageRecord.toDocument)
  Json.record [("apt", pkgs c.apt), ("deb", pkgs c.deb), ("googet", pkgs c.googet),
    ("yum", pkgs c.yum), ("zypper", pkgs c.zypper), ("rpm", pkgs c.rpm), ("cos", pkgs c.cos),
    ("zypper_patches", .arr (c.zypperPatches.map PatchRecord.toDocument)),
    ("wua", .arr (c.wua.map UpdateRecord.toDocument)),
    ("qfe", .arr (c.qfe.map HotfixRecord.toDocument)),
    ("windows_application", .arr (c.windowsApplication.map AppRecord.toDocument)),
    ("pip", pkgs c.pip), ("gem", pkgs c.gem)]

/-- The document form of a collected item. -/
def CollectedItem.toDocument (i : CollectedItem) : Json :=
  Json.record [("name", .str i.name), ("type", .str i.type), ("version", .str i.version),
    ("purl", .str i.purl), ("location", Json.texts i.location), ("metadata", .obj i.metadata)]

/-- The document form of a snapshot. -/
def Snapshot.toDocument (s : Snapshot) : Json :=
  let collections : Option Collections → Json
    | some c => c.toDocument
    | none => .null
  Json.record [("hostname", .str s.hostname), ("long_name", .str s.longName),
    ("short_name", .str s.shortName), ("version", .str s.version),
    ("architecture", .str s.architecture), ("kernel_version", .str s.kernelVersion),
    ("kernel_release", .str s.kernelRelease),
    ("osconfig_agent_version", .str s.osconfigAgentVersion),
    ("last_updated", .str s.lastUpdated),
    ("installed_packages", collections s.installed),
    ("package_updates", collections s.updates),
    ("new_installed_packages", .arr (s.items.map CollectedItem.toDocument))]

/-- The document form of tooling flags. -/
def Tooling.toDocument (t : Tooling) : Json :=
  Json.record [("yum_exists", .bool t.yumExists), ("zypper_exists", .bool t.zypperExists)]

end Document

end HostInventory
