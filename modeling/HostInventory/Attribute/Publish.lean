import HostInventory.Attribute.Store
import HostInventory.Inventory.Snapshot
import HostInventory.Inventory.Fingerprint
/-!
# Publishing snapshots as attributes

A snapshot is published field by field under a base path (trailing slashes removed), the path of
a field being the base, a slash and the field's attribute name. The table of fields is fixed:
nine text fields, then the installed and update collections as structured fields.

Every field is written on its own: a refused write is recorded as that field's failure and the
other fields are still written. A missing collection is skipped. A collection whose canonical
text cannot be encoded fails before any write is attempted at its path.
-/

namespace HostInventory

/-- The attribute names and values of the text fields, in publishing order. -/
def Snapshot.textFields (s : Snapshot) : List (String × Text) :=
  [("Hostname", s.hostname), ("LongName", s.longName), ("ShortName", s.shortName),
    ("Version", s.version), ("Architecture", s.architecture),
    ("KernelVersion", s.kernelVersion), ("KernelRelease", s.kernelRelease),
    ("OSConfigAgentVersion", s.osconfigAgentVersion), ("LastUpdated", s.lastUpdated)]

/-- The attribute names and values of the structured fields, in publishing order. -/
def Snapshot.structuredFields (s : Snapshot) : List (String × Option Collections) :=
  [("InstalledPackages", s.installed), ("PackageUpdates", s.updates)]

/-- A field that was not written: its path and why. -/
structure PublishFailure where
  path : Text
  error : Text
deriving DecidableEq, Inhabited

/-- What publishing a snapshot did, each list in table order. -/
structure PublishReport where
  published : List Text := []
  failed : List PublishFailure := []
  skipped : List Text := []
deriving DecidableEq, Inhabited

/-- Whether every field that was present was written. -/
def PublishReport.ok (r : PublishReport) : Bool := r.failed.isEmpty

/-- The path of a field under a base path with its trailing slashes removed. -/
def attributePath (base : Text) (name : String) : Text :=
  ⟨(base.points.reverse.dropWhile (· == 0x2F)).reverse⟩ ++ Text.ofString "/" ++ Text.ofString name

/-- The stored value of a collection: its canonical document text, or the encoding failure's
message. -/
def Collections.attributeValue (c : Collections) : Except Text AttributeValue :=
  match c.toDocument.encodableText with
  | .ok t => .ok (.json t)
  | .error e => .error e.message

/-- Write one field, recording it as published or failed. -/
def publishField (path : Text) (value : Except Text AttributeValue)
    (state : AttributeStore × PublishReport) : AttributeStore × PublishReport :=
  let (store, report) := state
  match value with
  | .error why => (store, { report with failed := report.failed ++ [⟨path, why⟩] })
  | .ok v =>
    match store.write path v with
    | (store, some why) => (store, { report with failed := report.failed ++ [⟨path, why⟩] })
    | (store, none) => (store, { report with published := report.published ++ [path] })

/-- Write a structured field, or record it as skipped when missing. -/
def publishStructured (path : Text) (value : Option Collections)
    (state : AttributeStore × PublishReport) : AttributeStore × PublishReport :=
  match value with
  | none => (state.1, { state.2 with skipped := state.2.skipped ++ [path] })
  | some c => publishField path c.attributeValue state

/-- Publish the text and structured fields of a snapshot under a base path. -/
def publishSnapshot (store : AttributeStore) (s : Snapshot) (base : Text) :
    AttributeStore × PublishReport :=
  let state := s.textFields.foldl
    (fun state (name, v) => publishField (attributePath base name) (.ok (.text v)) state)
    (store, {})
  s.structuredFields.foldl
    (fun state (name, c) => publishStructured (attributePath base name) c state) state

end HostInventory
