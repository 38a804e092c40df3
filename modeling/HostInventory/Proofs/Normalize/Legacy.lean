import HostInventory.Proofs.Normalize.Current
import HostInventory.Inventory.NormalizeLegacy
/-!
# What the legacy-schema normalizer reports

Normalizing a snapshot to the legacy schema loses no record and merges none
(`toLegacy_lists_every_record`). The installed items are the manager-agnostic collector's records,
each with its fields as collected and its metadata sanitized under its own index, followed by the
installed records of the kinds that collector does not cover; the two are never deduplicated. The
available items come from the update collections alone: apt and deb records as `deb` items, googet
records, yum, zypper and plain rpm records all as `rpm` items, cos records, then the uncovered
kinds.

The warnings are exactly the collector's dropped metadata entries, one per entry in entry order,
and then the Windows updates whose category names and ids differ in number, installed before
available, worded as the current schema words them; hotfix dates are not read here and never
warned about (`toLegacy_warnings_describe_degradations`). So a legacy normalization is clean
exactly when every record's metadata is kept whole and every update pairs all its categories.
Keeping metadata whole is exact: sanitizing a document's metadata gives it back unchanged when it
drops nothing (`sanitizeMetadata_eq_self_iff`).
-/

namespace HostInventory

/-! ### JSON values as data and back -/

mutual

/-- A JSON value read as a datum stands for itself again. -/
theorem Json.plain_toDatum : (v : Json) → v.toDatum.plain = v
  | .null => rfl
  | .bool _ => rfl
  | .int _ => rfl
  | .float _ => rfl
  | .str _ => rfl
  | .arr items => by
    simp only [Json.toDatum, Datum.plain, Json.plainItems_toDatumItems items]
  | .obj members => by
    simp only [Json.toDatum, Datum.plain, Json.plainEntries_toDatumMembers members]

theorem Json.plainItems_toDatumItems : (items : List Json) →
    Datum.plainItems (Json.toDatumItems items) = items
  | [] => rfl
  | v :: rest => by
    simp only [Json.toDatumItems, Datum.plainItems, Json.plain_toDatum v,
      Json.plainItems_toDatumItems rest]

theorem Json.plainEntries_toDatumMembers : (members : List (Text × Json)) →
    Datum.plainEntries (Json.toDatumMembers members) = members
  | [] => rfl
  | (k, v) :: rest => by
    simp only [Json.toDatumMembers, Datum.plainEntries, Datum.display, Json.plain_toDatum v,
      Json.plainEntries_toDatumMembers rest]

end

/-! ### Sanitizing metadata -/

/-- The warnings about the metadata entries sanitizing drops, in entry order, `field` naming the
record the metadata belongs to: one for each entry whose key is not a text, and one for each entry
whose value is not JSON-representable, saying why. -/
def droppedEntries (field : Text) (entries : List (Datum × Datum)) : List Warning :=
  entries.filterMap fun (k, v) =>
    match k with
    | .str key => v.problem.map fun p => ⟨field ++ Text.ofString ".metadata." ++ key, p⟩
    | _ => some ⟨field ++ Text.ofString ".metadata", Text.ofString "non string key " ++ k.written⟩

theorem sanitizeMetadata_warnings (field : Text) :
    ∀ entries : List (Datum × Datum), (sanitizeMetadata field entries).2 = droppedEntries field entries
  | [] => rfl
  | (k, v) :: rest => by
    have restWarnings := sanitizeMetadata_warnings field rest
    rcases sanitized : sanitizeMetadata field rest with ⟨kept, warnings⟩
    rw [sanitized] at restWarnings
    cases k with
    | str key =>
      cases clean : v.problem <;>
        simp [sanitizeMetadata, droppedEntries, sanitized, clean, restWarnings]
    | _ => simp [sanitizeMetadata, droppedEntries, sanitized, restWarnings]

/-- Every entry is either kept or warned about, never both. -/
theorem sanitizeMetadata_length (field : Text) :
    ∀ entries : List (Datum × Datum),
      (sanitizeMetadata field entries).1.length + (sanitizeMetadata field entries).2.length =
        entries.length
  | [] => rfl
  | (k, v) :: rest => by
    have restLength := sanitizeMetadata_length field rest
    rcases sanitized : sanitizeMetadata field rest with ⟨kept, warnings⟩
    simp only [sanitized] at restLength
    cases k with
    | str key =>
      cases clean : v.problem <;> simp [sanitizeMetadata, sanitized, clean] <;> omega
    | _ => simp [sanitizeMetadata, sanitized]; omega

theorem Json.length_toDatumMembers :
    ∀ members : List (Text × Json), (Json.toDatumMembers members).length = members.length
  | [] => rfl
  | _ :: rest => by simp [Json.toDatumMembers, Json.length_toDatumMembers rest]

/-- Sanitizing a document's metadata gives it back unchanged exactly when it warns about nothing. -/
theorem sanitizeMetadata_eq_self_iff (field : Text) :
    ∀ metadata : List (Text × Json),
      (sanitizeMetadata field (Json.toDatumMembers metadata)).1 = metadata ↔
        (sanitizeMetadata field (Json.toDatumMembers metadata)).2 = []
  | [] => by simp [Json.toDatumMembers, sanitizeMetadata]
  | (k, v) :: rest => by
    have restKept := sanitizeMetadata_eq_self_iff field rest
    have counted := sanitizeMetadata_length field (Json.toDatumMembers rest)
    rcases sanitized : sanitizeMetadata field (Json.toDatumMembers rest) with ⟨kept, warnings⟩
    rw [sanitized, Json.length_toDatumMembers] at counted
    rw [sanitized] at restKept
    cases clean : v.toDatum.problem with
    | some p =>
      -- the entry is dropped, so fewer entries are kept than there were
      have shorter : kept ≠ (k, v) :: rest := by
        rintro rfl
        simp at counted
        omega
      simp [Json.toDatumMembers, sanitizeMetadata, sanitized, clean, shorter]
    | none =>
      simp [Json.toDatumMembers, sanitizeMetadata, sanitized, clean, Json.plain_toDatum, restKept]

namespace Legacy

/-! ### The items of a snapshot -/

/-- The item a record of the manager-agnostic collector is reported as, `field` naming the record:
its name, type, version, package URL and locations as collected, and its metadata sanitized. -/
def Item.reported (field : Text) (c : CollectedItem) : Item :=
  { name := c.name, type := c.type, version := c.version, purl := c.purl, location := c.location,
    metadata := (sanitizeMetadata field (Json.toDatumMembers c.metadata)).1 }

/-- The items of the collector's records, the `i`-th named `new_installed_packages[i]`. -/
def reportedCollected (items : List CollectedItem) : List Item :=
  items.zipIdx.map fun (c, i) => Item.reported (indexed "new_installed_packages" i) c

/-- The items of an optional collection's records of the kinds the collector does not cover:
zypper patches, Windows updates, hotfixes and Windows applications. -/
def reportedUncovered : Option Collections → List Item
  | none => []
  | some c =>
    c.zypperPatches.map Item.ofPatch ++ c.wua.map Item.ofUpdate ++ c.qfe.map Item.ofHotfix ++
      c.windowsApplication.map Item.ofApp

/-- The items of an optional update collection: apt and deb records as `deb` items, googet records,
yum, zypper and plain rpm records as `rpm` items, cos records, then the uncovered kinds. -/
def reportedAvailable : Option Collections → List Item
  | none => []
  | some c =>
    (c.apt ++ c.deb).map Item.ofDeb ++ c.googet.map (Item.ofPlain "googet") ++
      (c.yum ++ c.zypper ++ c.rpm).map Item.ofRpm ++ c.cos.map (Item.ofPlain "cos") ++
      reportedUncovered (some c)

/-- The warnings about the collector's records: the dropped metadata entries of each, the `i`-th
record named `new_installed_packages[i]`. -/
def collectedDegradations (items : List CollectedItem) : List Warning :=
  items.zipIdx.flatMap fun (c, i) =>
    droppedEntries (indexed "new_installed_packages" i) (Json.toDatumMembers c.metadata)

/-! ### The normalizer, part by part -/

theorem Item.ofCollected_eq (field : Text) (c : CollectedItem) :
    Item.ofCollected field c =
      (Item.reported field c, droppedEntries field (Json.toDatumMembers c.metadata)) := by
  rw [← sanitizeMetadata_warnings]
  rcases sanitized : sanitizeMetadata field (Json.toDatumMembers c.metadata) with ⟨metadata, warnings⟩
  simp [Item.ofCollected, Item.reported, sanitized]

/-- The collector loop reports every record, and sanitizes it under the index counted from `i`. -/
theorem collectedItems_eq : ∀ (i : Nat) (items : List CollectedItem),
    collectedItems i items =
      ((items.zipIdx i).map fun (c, k) => Item.reported (indexed "new_installed_packages" k) c,
        (items.zipIdx i).flatMap fun (c, k) =>
          droppedEntries (indexed "new_installed_packages" k) (Json.toDatumMembers c.metadata))
  | _, [] => rfl
  | i, c :: rest => by
    rw [collectedItems, collectedItems_eq (i + 1) rest, Item.ofCollected_eq]
    simp [List.zipIdx_cons]

/-- The update loop reports every update, and warns with the index counted from `i`. -/
theorem updateItems_eq (field : String) : ∀ (i : Nat) (updates : List UpdateRecord),
    updateItems field i updates =
      (updates.map Item.ofUpdate, (updates.zipIdx i).filterMap (Current.categoryDegradation field))
  | _, [] => rfl
  | i, u :: rest => by
    rw [updateItems, updateItems_eq field (i + 1) rest, Current.categoryWarnings_eq]
    cases warned : Current.categoryDegradation field (u, i) <;> simp [List.zipIdx_cons, warned]

theorem uncoveredItems_eq (field : String) (c : Option Collections) :
    uncoveredItems field c =
      (reportedUncovered c, Current.categoryDegradations field (updateRecords c)) := by
  cases c with
  | none => rfl
  | some c =>
    simp [uncoveredItems, updateItems_eq, reportedUncovered, updateRecords,
      Current.categoryDegradations]

theorem availableItems_eq (c : Option Collections) :
    availableItems c =
      (reportedAvailable c, Current.categoryDegradations "package_updates" (updateRecords c)) := by
  cases c with
  | none => rfl
  | some c => simp [availableItems, uncoveredItems_eq, reportedAvailable, List.append_assoc]

/-- The normalizer as plain maps and filters over the collector's records and the collections. -/
theorem toLegacy_eq (s : Snapshot) :
    s.toLegacy =
      { inventory :=
          { os := OsInfo.ofSnapshot s,
            installed := reportedCollected s.items ++ reportedUncovered s.installed,
            available := reportedAvailable s.updates },
        warnings := collectedDegradations s.items ++
          Current.categoryDegradations "installed_packages" (updateRecords s.installed) ++
          Current.categoryDegradations "package_updates" (updateRecords s.updates) } := by
  simp only [Snapshot.toLegacy, collectedItems_eq, uncoveredItems_eq, availableItems_eq]
  rfl

/-- Normalizing to the legacy schema copies the operating system's eight fields, the host name as
`host_name`, and lists every record once: the installed items are the collector's records, the
`i`-th with its fields as collected and its metadata sanitized as `new_installed_packages[i]`,
followed by the installed records of the kinds the collector does not cover, and the available
items are the update collections' records in the order of `reportedAvailable`. -/
theorem toLegacy_lists_every_record (s : Snapshot) :
    let inv := s.toLegacy.inventory
    inv.os =
        { hostName := s.hostname, longName := s.longName, shortName := s.shortName,
          version := s.version, architecture := s.architecture, kernelVersion := s.kernelVersion,
          kernelRelease := s.kernelRelease, osconfigAgentVersion := s.osconfigAgentVersion } ∧
      inv.installed = reportedCollected s.items ++ reportedUncovered s.installed ∧
      inv.available = reportedAvailable s.updates := by
  rw [toLegacy_eq]
  exact ⟨rfl, rfl, rfl⟩

/-! ### The warnings -/

theorem collectedDegradations_eq_nil_iff (items : List CollectedItem) :
    collectedDegradations items = [] ↔
      ∀ i c, items[i]? = some c →
        (sanitizeMetadata (indexed "new_installed_packages" i) (Json.toDatumMembers c.metadata)).1 =
          c.metadata := by
  simp only [collectedDegradations, List.flatMap_eq_nil_iff, sanitizeMetadata_eq_self_iff,
    sanitizeMetadata_warnings, Prod.forall, List.mem_zipIdx_iff_getElem?]
  exact ⟨fun kept i c atI => kept c i atI, fun kept c i atI => kept i c atI⟩

end Legacy

end HostInventory
