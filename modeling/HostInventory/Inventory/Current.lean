import HostInventory.Error
import HostInventory.Time.Instant
import HostInventory.Datum.Key
/-!
# The current schema

The current schema reports each package as a kind and the details of that kind. Five kinds share
the versioned details (name, architecture, version and an optional source package); zypper
patches, Windows updates, hotfixes and Windows applications each have details of their own.
A package pairs a kind with details of the matching shape, and `Package.make` is the only way to
pair them: details of another shape are refused.

On the wire a package is an object with one member, named by the kind's wire name, holding the
details. Optional parts (a source package, a deployment time, an install time) are left out when
absent, never written as `null`.
-/

namespace HostInventory.Current

/-- The kinds of packages of the current schema. -/
inductive PackageKind where
  | apt
  | yum
  | zypper
  | googet
  | cos
  | zypperPatch
  | wua
  | qfe
  | windowsApplication
deriving DecidableEq, Inhabited

/-- The shapes of package details. -/
inductive DetailsShape where
  | versioned
  | patch
  | update
  | hotfix
  | application
deriving DecidableEq, Inhabited

namespace PackageKind

/-- All kinds, in declaration order. -/
def all : List PackageKind :=
  [.apt, .yum, .zypper, .googet, .cos, .zypperPatch, .wua, .qfe, .windowsApplication]

/-- The name of a kind. -/
def name : PackageKind → String
  | .apt => "apt"
  | .yum => "yum"
  | .zypper => "zypper"
  | .googet => "googet"
  | .cos => "cos"
  | .zypperPatch => "zypper_patch"
  | .wua => "wua"
  | .qfe => "qfe"
  | .windowsApplication => "windows_application"

/-- The wire name of a kind: the member name its details travel under. -/
def wireName : PackageKind → String
  | .apt => "apt_package"
  | .yum => "yum_package"
  | .zypper => "zypper_package"
  | .googet => "googet_package"
  | .cos => "cos_package"
  | .zypperPatch => "zypper_patch"
  | .wua => "wua_package"
  | .qfe => "qfe_package"
  | .windowsApplication => "windows_application"

/-- The shape of details a kind carries. -/
def shape : PackageKind → DetailsShape
  | .apt | .yum | .zypper | .googet | .cos => .versioned
  | .zypperPatch => .patch
  | .wua => .update
  | .qfe => .hotfix
  | .windowsApplication => .application

/-- The kind with a given name or wire name. -/
def ofText? (t : Text) : Option PackageKind :=
  all.find? (fun k => t == Text.ofString k.name || t == Text.ofString k.wireName)

/-- The failure for a value that was given as a kind and names none: a value that cannot be a
key of the kind table is refused for that before it is looked up. -/
def unknown (v : Datum) : InventoryError :=
  match v.unhashable? with
  | some u => .unhashable u.kind
  | none => .unknownKind v

end PackageKind

/-- The name of a details shape, as schema diagnostics give it. -/
def DetailsShape.name : DetailsShape → String
  | .versioned => "VersionedPackage"
  | .patch => "ZypperPatchDetails"
  | .update => "WindowsUpdatePackage"
  | .hotfix => "WindowsQuickFixEngineeringPackage"
  | .application => "WindowsApplicationDetails"

/-- The operating system a host runs. -/
structure OsInfo where
  hostname : Text := Text.empty
  longName : Text := Text.empty
  shortName : Text := Text.empty
  version : Text := Text.empty
  architecture : Text := Text.empty
  kernelVersion : Text := Text.empty
  kernelRelease : Text := Text.empty
  osconfigAgentVersion : Text := Text.empty
deriving DecidableEq, Inhabited

/-- The source package of a versioned package. -/
structure VersionedSource where
  name : Text
  version : Text := Text.empty
deriving DecidableEq, Inhabited

/-- Details of apt, yum, zypper, googet and cos packages. -/
structure Versioned where
  packageName : Text
  architecture : Text := Text.empty
  version : Text := Text.empty
  source : Option VersionedSource := none
deriving DecidableEq, Inhabited

/-- Details of a zypper patch. -/
structure PatchDetails where
  patchName : Text
  category : Text := Text.empty
  severity : Text := Text.empty
  summary : Text := Text.empty
deriving DecidableEq, Inhabited

/-- A Windows update category. -/
structure UpdateCategory where
  id : Text
  name : Text
deriving DecidableEq, Inhabited

/-- Details of a Windows update. -/
structure UpdateDetails where
  title : Text
  description : Text := Text.empty
  categories : List UpdateCategory := []
  kbArticleIds : List Text := []
  supportUrl : Text := Text.empty
  moreInfoUrls : List Text := []
  updateId : Text := Text.empty
  revisionNumber : Int := 0
  lastDeploymentChangeTime : Option Timestamp := none
deriving DecidableEq, Inhabited

/-- Details of a Windows hotfix; the install time is absent when the collected date was not
readable. -/
structure HotfixDetails where
  caption : Text
  description : Text := Text.empty
  hotFixId : Text := Text.empty
  installTime : Option Timestamp := none
deriving DecidableEq, Inhabited

/-- A calendar date as three numbers; `0/0/0` stands for no date. -/
structure CalendarDate where
  year : Int := 0
  month : Int := 0
  day : Int := 0
deriving DecidableEq, Inhabited

/-- Details of a Windows application. -/
structure AppDetails where
  displayName : Text
  displayVersion : Text := Text.empty
  publisher : Text := Text.empty
  installDate : CalendarDate := {}
  helpLink : Text := Text.empty
deriving DecidableEq, Inhabited

/-- Package details of any shape. -/
inductive Details where
  | versioned (d : Versioned)
  | patch (d : PatchDetails)
  | update (d : UpdateDetails)
  | hotfix (d : HotfixDetails)
  | application (d : AppDetails)
deriving DecidableEq, Inhabited

/-- The shape of details. -/
def Details.shape : Details → DetailsShape
  | .versioned _ => .versioned
  | .patch _ => .patch
  | .update _ => .update
  | .hotfix _ => .hotfix
  | .application _ => .application

/-- A package: a kind and details of the shape the kind carries. -/
structure Package where
  kind : PackageKind
  details : Details
  fits : details.shape = kind.shape
deriving DecidableEq

/-- Pair a kind with details, refusing details of another shape. -/
def Package.make (kind : PackageKind) (details : Details) : Except InventoryError Package :=
  if h : details.shape = kind.shape then .ok ⟨kind, details, h⟩
  else .error (.detailsMismatch kind.name kind.shape.name details.shape.name)

/-- An inventory of the current schema. -/
structure Inventory where
  os : OsInfo := {}
  installed : List Package := []
  available : List Package := []
deriving DecidableEq, Inhabited

section Wire

/-- A timestamp on the wire. -/
def Timestamp.toWire (t : Timestamp) : Json :=
  Json.record [("seconds", .int t.seconds), ("nanos", .int t.nanos)]

/-- A calendar date on the wire. -/
def CalendarDate.toWire (d : CalendarDate) : Json :=
  Json.record [("year", .int d.year), ("month", .int d.month), ("day", .int d.day)]

/-- The operating system on the wire. -/
def OsInfo.toWire (o : OsInfo) : Json :=
  Json.record [("hostname", .str o.hostname), ("long_name", .str o.longName),
    ("short_name", .str o.shortName), ("version", .str o.version),
    ("architecture", .str o.architecture), ("kernel_version", .str o.kernelVersion),
    ("kernel_release", .str o.kernelRelease),
    ("osconfig_agent_version", .str o.osconfigAgentVersion)]

/-- Details on the wire. -/
def Details.toWire : Details → Json
  | .versioned d =>
    Json.record ([("package_name", .str d.packageName), ("architecture", .str d.architecture),
      ("version", .str d.version)] ++
      match d.source with
      | some s => [("source", Json.record [("name", .str s.name), ("version", .str s.version)])]
      | none => [])
  | .patch d =>
    Json.record [("patch_name", .str d.patchName), ("category", .str d.category),
      ("severity", .str d.severity), ("summary", .str d.summary)]
  | .update d =>
    Json.record ([("title", .str d.title), ("description", .str d.description),
      ("categories", .arr (d.categories.map fun c =>
        Json.record [("id", .str c.id), ("name", .str c.name)])),
      ("kb_article_ids", Json.texts d.kbArticleIds), ("support_url", .str d.supportUrl),
      ("more_info_urls", Json.texts d.moreInfoUrls), ("update_id", .str d.updateId),
      ("revision_number", .int d.revisionNumber)] ++
      match d.lastDeploymentChangeTime with
      | some t => [("last_deployment_change_time", Timestamp.toWire t)]
      | none => [])
  | .hotfix d =>
    Json.record ([("caption", .str d.caption), ("description", .str d.description),
      ("hot_fix_id", .str d.hotFixId)] ++
      match d.installTime with
      | some t => [("install_time", Timestamp.toWire t)]
      | none => [])
  | .application d =>
    Json.record [("display_name", .str d.displayName),
      ("display_version", .str d.displayVersion), ("publisher", .str d.publisher),
      ("install_date", d.installDate.toWire), ("help_link", .str d.helpLink)]

/-- A package on the wire: its details under the kind's wire name. -/
def Package.toWire (p : Package) : Json := Json.record [(p.kind.wireName, p.details.toWire)]

/-- An inventory on the wire. -/
def Inventory.toWire (inv : Inventory) : Json :=
  Json.record [("os_info", inv.os.toWire),
    ("installed_packages", .arr (inv.installed.map Package.toWire)),
    ("available_packages", .arr (inv.available.map Package.toWire))]

end Wire

end HostInventory.Current
