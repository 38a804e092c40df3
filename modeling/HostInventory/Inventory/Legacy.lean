import HostInventory.Json.Basic
/-!
# The legacy schema

The legacy schema reports every package as a flat item: a name, a type tag (`deb`, `rpm`,
`googet`, `cos`, or a manager-specific tag such as `WUAPackage`), a version, a package URL, install
locations, and metadata for whatever does not fit the flat shape. Metadata holds JSON values only.
-/

namespace HostInventory.Legacy

/-- The operating system a host runs, as the legacy schema names its fields. -/
structure OsInfo where
  hostName : Text := Text.empty
  longName : Text := Text.empty
  shortName : Text := Text.empty
  version : Text := Text.empty
  architecture : Text := Text.empty
  kernelVersion : Text := Text.empty
  kernelRelease : Text := Text.empty
  osconfigAgentVersion : Text := Text.empty
deriving DecidableEq, Inhabited

/-- A flat package item. -/
structure Item where
  name : Text
  type : Text
  version : Text := Text.empty
  purl : Text := Text.empty
  location : List Text := []
  metadata : List (Text × Json) := []
deriving Inhabited

/-- An inventory of the legacy schema. -/
structure Inventory where
  os : OsInfo := {}
  installed : List Item := []
  available : List Item := []
deriving Inhabited

/-- The operating system on the wire. -/
def OsInfo.toWire (o : OsInfo) : Json :=
  Json.record [("host_name", .str o.hostName), ("long_name", .str o.longName),
    ("short_name", .str o.shortName), ("version", .str o.version),
    ("architecture", .str o.architecture), ("kernel_version", .str o.kernelVersion),
    ("kernel_release", .str o.kernelRelease),
    ("osconfig_agent_version", .str o.osconfigAgentVersion)]

/-- An item on the wire. -/
def Item.toWire (i : Item) : Json :=
  Json.record [("name", .str i.name), ("type", .str i.type), ("version", .str i.version),
    ("purl", .str i.purl), ("location", Json.texts i.location), ("metadata", .obj i.metadata)]

/-- An inventory on the wire. -/
def Inventory.toWire (inv : Inventory) : Json :=
  Json.record [("os_info", inv.os.toWire),
    ("installed_packages", .arr (inv.installed.map Item.toWire)),
    ("available_packages", .arr (inv.available.map Item.toWire))]

end HostInventory.Legacy
