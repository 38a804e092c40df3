import HostInventory.Inventory.Snapshot
import HostInventory.Time.Iso
import HostInventory.Stack.Metadata
/-!
# Loading a snapshot document

A snapshot document is read leniently. A top level that is not an object counts as empty. A text
field takes the display text of whatever value stands there (`12` becomes `"12"`, `null` becomes
`"None"`) and is empty when missing. A list keeps only its object elements, and a value that is
not a list counts as an empty one. A collection object that is not an object is absent.

Only a few values make loading fail, and the first one met, in field order, is reported:

* the document is not JSON;
* `tooling`, or a package record's `source`, is a true value that is not an object;
* an update's `revision_number` is not a whole number;
* a date-time field is true and its display text is not an ISO 8601 date-time.

Package records of the nine simple kinds are read first (apt, deb, googet, yum, zypper, rpm,
cos, pip, gem), then patches, updates (revision number before date), hotfixes and applications.
-/

namespace HostInventory

namespace Load

/-- The member of an object, if present. -/
def member (members : List (Text × Json)) (name : String) : Option Json :=
  (members.find? (fun m => m.1 == Text.ofString name)).map Prod.snd

/-- A text field: the display text of the member, empty when missing. -/
def text (members : List (Text × Json)) (name : String) : Text :=
  match member members name with
  | some v => v.display
  | none => Text.empty

/-- The object elements of a list member; nothing when the member is not a list. -/
def objects (members : List (Text × Json)) (name : String) : List (List (Text × Json)) :=
  match member members name with
  | some (.arr items) => items.filterMap Json.members?
  | _ => []

/-- A list of texts: the display text of each element; nothing when the member is not a list. -/
def texts (members : List (Text × Json)) (name : String) : List Text :=
  match member members name with
  | some (.arr items) => items.map Json.display
  | _ => []

/-- The members of an optional object member: a false or missing value counts as an empty
object, and a true value that is not an object is refused. -/
def subObject (members : List (Text × Json)) (name : String) :
    Except InventoryError (List (Text × Json)) :=
  match member members name with
  | none => pure []
  | some v =>
    if !v.truthy then pure []
    else match v with
      | .obj inner => pure inner
      | other => throw (.noAttribute other.toDatum.kindName "get")

/-- A date-time field: absent when false or missing, otherwise the ISO reading of its display
text. -/
def dateTime (members : List (Text × Json)) (name : String) :
    Except InventoryError (Option DateTime) :=
  match member members name with
  | none => pure none
  | some v =>
    if !v.truthy then pure none
    else match DateTime.ofIso v.display with
      | .ok d => pure (some d)
      | .error e => throw (.date e)

/-- A package record. -/
def packageRecord (o : List (Text × Json)) : Except InventoryError PackageRecord := do
  let source ← subObject o "source"
  pure { name := text o "name", arch := text o "arch", version := text o "version",
         source := { name := text source "name", version := text source "version" } }

/-- A patch record. -/
def patchRecord (o : List (Text × Json)) : PatchRecord :=
  { name := text o "name", category := text o "category", severity := text o "severity",
    summary := text o "summary" }

/-- An update record. -/
def updateRecord (o : List (Text × Json)) : Except InventoryError UpdateRecord := do
  let revision ← match (member o "revision_number").getD (.int 0) |>.toInteger with
    | .ok n => pure n
    | .error e => throw (.integer e)
  let deployed ← dateTime o "last_deployment_change_time"
  pure { title := text o "title", description := text o "description",
         categories := texts o "categories", categoryIds := texts o "category_ids",
         kbArticleIds := texts o "kb_article_ids", moreInfoUrls := texts o "more_info_urls",
         supportUrl := text o "support_url", updateId := text o "update_id",
         revisionNumber := revision, lastDeploymentChangeTime := deployed }

/-- A hotfix record. -/
def hotfixRecord (o : List (Text × Json)) : HotfixRecord :=
  { caption := text o "caption", description := text o "description",
    hotfixId := text o "hotfix_id", installedOn := text o "installed_on" }

/-- An application record. -/
def appRecord (o : List (Text × Json)) : Except InventoryError AppRecord := do
  let installed ← dateTime o "install_date"
  pure { displayName := text o "display_name", displayVersion := text o "display_version",
         publisher := text o "publisher", installDate := installed,
         helpLink := text o "help_link" }

/-- The package records of a simple-kind list. -/
def packageList (o : List (Text × Json)) (name : String) :
    Except InventoryError (List PackageRecord) :=
  (objects o name).mapM packageRecord

/-- The collections of a collection object; absent when the value is not an object. -/
def collections : Option Json → Except InventoryError (Option Collections)
  | some (.obj o) => do
    let apt ← packageList o "apt"
    let deb ← packageList o "deb"
    let googet ← packageList o "googet"
    let yum ← packageList o "yum"
    let zypper ← packageList o "zypper"
    let rpm ← packageList o "rpm"
    let cos ← packageList o "cos"
    let pip ← packageList o "pip"
    let gem ← packageList o "gem"
    let wua ← (objects o "wua").mapM updateRecord
    let apps ← (objects o "windows_application").mapM appRecord
    pure (some { apt, deb, googet, yum, zypper, rpm, cos, pip, gem,
                 zypperPatches := (objects o "zypper_patches").map patchRecord, wua,
                 qfe := (objects o "qfe").map hotfixRecord, windowsApplication := apps })
  | _ => pure none

/-- A collected item; metadata that is not an object counts as empty. -/
def collectedItem (o : List (Text × Json)) : CollectedItem :=
  let metadata := match member o "metadata" with
    | some (.obj m) => m
    | _ => []
  { name := text o "name", type := text o "type", version := text o "version",
    purl := text o "purl", location := texts o "location", metadata }

end Load

open Load in
/-- A snapshot from the members of a snapshot document. -/
def Snapshot.ofMembers (o : List (Text × Json)) : Except InventoryError Snapshot := do
  let installed ← collections (member o "installed_packages")
  let updates ← collections (member o "package_updates")
  pure { hostname := text o "hostname", longName := text o "long_name",
         shortName := text o "short_name", version := text o "version",
         architecture := text o "architecture", kernelVersion := text o "kernel_version",
         kernelRelease := text o "kernel_release",
         osconfigAgentVersion := text o "osconfig_agent_version",
         lastUpdated := text o "last_updated", installed, updates,
         items := (objects o "new_installed_packages").map collectedItem }

/-- The snapshot and the host's tooling flags of a read document; tooling comes first. -/
def Collected.ofDocument (v : Json) : Except InventoryError Collected := do
  let o := (v.members?).getD []
  let tooling ← Load.subObject o "tooling"
  let flag (name : String) : Bool := ((Load.member tooling name).map Json.truthy).getD false
  let snapshot ← Snapshot.ofMembers o
  pure ⟨snapshot, ⟨flag "yum_exists", flag "zypper_exists"⟩⟩

/-- Load a snapshot document text whose containers may nest `room` deep. -/
def Collected.load (room : Nat) (doc : Text) : Except InventoryError Collected := do
  match Json.readWithin room doc with
  | .ok v => Collected.ofDocument v
  | .error e => throw (.unreadable doc e)

/-- Where a snapshot document comes from: a text to read, or a value already read. -/
inductive SnapshotSource where
  | text (doc : Text)
  | value (doc : Json)

/-- The containers a document may nest when it is loaded for a caller at stack depth `depth`:
the source and the loader take two frames below the caller, the reader three more, and the
scanner it calls one more, so the first container opens seven places below the caller. -/
def SnapshotSource.room (depth : Nat) : Nat := stackLimit - 6 - depth

/-- Load the snapshot and tooling of a document for a caller at stack depth `depth`. A value is
written out and read again, so it meets the same room for nesting as a text. -/
def SnapshotSource.load (depth : Nat) : SnapshotSource → Except InventoryError Collected
  | .text doc => Collected.load (SnapshotSource.room depth) doc
  | .value doc =>
    match doc.firstTooDeep (SnapshotSource.room depth) with
    | some array => throw (.unreadable Text.empty (.tooDeep array))
    | none => Collected.ofDocument doc

end HostInventory
