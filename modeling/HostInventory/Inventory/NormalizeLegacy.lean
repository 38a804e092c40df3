import HostInventory.Inventory.Legacy
import HostInventory.Inventory.Snapshot
import HostInventory.Inventory.Warning
import HostInventory.Inventory.NormalizeCurrent
/-!
# Normalizing to the legacy schema

The installed items are the manager-agnostic collector's items, which always come first, followed
by the installed records of the kinds that collector does not cover yet: zypper patches, Windows
updates, hotfixes and Windows applications, in that order. They are never deduplicated against the
collector's items.

The available items come from the update collections alone: apt and deb records as `deb` items
with their source name and version, googet records as `googet` items, yum, zypper and rpm records
as `rpm` items with their source package name, cos records as `cos` items, then the uncovered
kinds as above.

The collector's metadata is sanitized entry by entry, each dropped entry warned about. A Windows
update's unpaired category names or ids are dropped with a warning, as in the current schema.
Date-times in metadata are ISO texts, or empty when missing or zero.
-/

namespace HostInventory

namespace Legacy

/-- An optional date-time as metadata text: its ISO text, empty when missing or zero. -/
def timeText : Option DateTime → Text
  | some d => if d.isZero then Text.empty else d.isoText
  | none => Text.empty

/-- An item of the manager-agnostic collector, its metadata sanitized; `field` names it in the
snapshot. -/
def Item.ofCollected (field : Text) (i : CollectedItem) : Item × List Warning :=
  let (metadata, warnings) := sanitizeMetadata field (Json.toDatumMembers i.metadata)
  ({ name := i.name, type := i.type, version := i.version, purl := i.purl,
      location := i.location, metadata }, warnings)

/-- The collector's items with their warnings; the first item has index `i`. -/
def collectedItems (i : Nat) : List CollectedItem → List Item × List Warning
  | [] => ([], [])
  | c :: rest =>
    let (item, warning) := Item.ofCollected (indexed "new_installed_packages" i) c
    let (items, warnings) := collectedItems (i + 1) rest
    (item :: items, warning ++ warnings)

/-- A `deb` item with its source name and version. -/
def Item.ofDeb (p : PackageRecord) : Item :=
  { name := p.name, type := Text.ofString "deb", version := p.version,
    metadata := [(Text.ofString "SourceName", .str p.source.name),
      (Text.ofString "SourceVersion", .str p.source.version)] }

/-- An `rpm` item with its source package name. -/
def Item.ofRpm (p : PackageRecord) : Item :=
  { name := p.name, type := Text.ofString "rpm", version := p.version,
    metadata := [(Text.ofString "SourceRPM", .str p.source.name)] }

/-- An item of a plain type with no metadata. -/
def Item.ofPlain (type : String) (p : PackageRecord) : Item :=
  { name := p.name, type := Text.ofString type, version := p.version }

/-- A `ZypperPatch` item. -/
def Item.ofPatch (p : PatchRecord) : Item :=
  { name := p.name, type := Text.ofString "ZypperPatch",
    metadata := [(Text.ofString "Category", .str p.category),
      (Text.ofString "Severity", .str p.severity), (Text.ofString "Summary", .str p.summary)] }

/-- A `WUAPackage` item; categories pair ids with names position by position. -/
def Item.ofUpdate (u : UpdateRecord) : Item :=
  let categories := List.zipWith (fun id name =>
    Json.record [("Id", .str id), ("Name", .str name)]) u.categoryIds u.categories
  { name := u.title, type := Text.ofString "WUAPackage", version := u.updateId,
    purl := u.supportUrl,
    metadata := [(Text.ofString "Description", .str u.description),
      (Text.ofString "Categories", .arr categories),
      (Text.ofString "CategoryIds", Json.texts u.categoryIds),
      (Text.ofString "KbArticleId", Json.texts u.kbArticleIds),
      (Text.ofString "MoreInfoUrls", Json.texts u.moreInfoUrls),
      (Text.ofString "RevisionNumber", .int u.revisionNumber),
      (Text.ofString "LastDeploymentChangeTime", .str (timeText u.lastDeploymentChangeTime))] }

/-- A `QFEPackage` item; the install date stays as collected. -/
def Item.ofHotfix (q : HotfixRecord) : Item :=
  { name := q.caption, type := Text.ofString "QFEPackage", version := q.hotfixId,
    metadata := [(Text.ofString "Description", .str q.description),
      (Text.ofString "InstalledOn", .str q.installedOn)] }

/-- A `WindowsApplication` item. -/
def Item.ofApp (a : AppRecord) : Item :=
  { name := a.displayName, type := Text.ofString "WindowsApplication",
    version := a.displayVersion,
    metadata := [(Text.ofString "Publisher", .str a.publisher),
      (Text.ofString "InstallDate", .str (timeText a.installDate)),
      (Text.ofString "HelpLink", .str a.helpLink)] }

/-- Update items with the warnings about unpaired categories; the first update has index `i`. -/
def updateItems (field : String) (i : Nat) : List UpdateRecord → List Item × List Warning
  | [] => ([], [])
  | u :: rest =>
    let (items, warnings) := updateItems field (i + 1) rest
    (Item.ofUpdate u :: items,
      Current.categoryWarnings (indexed (field ++ ".wua") i) u ++ warnings)

/-- Items of the kinds the manager-agnostic collector does not cover, from an optional
collection named `field`. -/
def uncoveredItems (field : String) : Option Collections → List Item × List Warning
  | some c =>
    let (updates, warnings) := updateItems field 0 c.wua
    (c.zypperPatches.map Item.ofPatch ++ updates ++ c.qfe.map Item.ofHotfix ++
      c.windowsApplication.map Item.ofApp, warnings)
  | none => ([], [])

/-- Items of the update collections. -/
def availableItems : Option Collections → List Item × List Warning
  | some c =>
    let (uncovered, warnings) := uncoveredItems "package_updates" (some c)
    (c.apt.map Item.ofDeb ++ c.deb.map Item.ofDeb ++ c.googet.map (Item.ofPlain "googet") ++
      c.yum.map Item.ofRpm ++ c.zypper.map Item.ofRpm ++ c.rpm.map Item.ofRpm ++
      c.cos.map (Item.ofPlain "cos") ++ uncovered, warnings)
  | none => ([], [])

/-- The operating system of a snapshot. -/
def OsInfo.ofSnapshot (s : Snapshot) : OsInfo :=
  { hostName := s.hostname, longName := s.longName, shortName := s.shortName,
    version := s.version, architecture := s.architecture, kernelVersion := s.kernelVersion,
    kernelRelease := s.kernelRelease, osconfigAgentVersion := s.osconfigAgentVersion }

end Legacy

/-- The legacy-schema inventory of a snapshot; warnings come in the order of the items they
concern, installed before available. -/
def Snapshot.toLegacy (s : Snapshot) : Normalized Legacy.Inventory :=
  let (collected, collectedWarnings) := Legacy.collectedItems 0 s.items
  let (uncovered, uncoveredWarnings) := Legacy.uncoveredItems "installed_packages" s.installed
  let (available, availableWarnings) := Legacy.availableItems s.updates
  let inventory : Legacy.Inventory :=
    { os := Legacy.OsInfo.ofSnapshot s, installed := collected ++ uncovered,
      available := available }
  { inventory,
    warnings := collectedWarnings ++ uncoveredWarnings ++ availableWarnings }

end HostInventory
