import HostInventory.Report.Coordinator
import HostInventory.Attribute.Publish
import HostInventory.Inventory.Load
import HostInventory.Inventory.NormalizeCurrent
import HostInventory.Inventory.NormalizeLegacy
import HostInventory.Stack.Snapshot
/-!
# The reporter

The reporter composes one cycle from its parts:

1. it loads the snapshot document; a failure ends the cycle before anything else is touched;
2. when attributes are enabled and not opted out of, and there is an attribute store, it
   publishes the snapshot under the configured base path;
3. it normalizes the snapshot into both schemas, rpm packages following the configured policy;
   metadata nested too deep for the stack makes the cycle fail here, after publishing;
4. it runs the reporting cycle against the client.

The client's state and the attribute store live across cycles. What a cycle did to them stays done
when the cycle fails, so a cancelled cycle has still published its attributes.
-/

namespace HostInventory

/-- The reporter's configuration. -/
structure ReporterConfig where
  /-- The platform switch for instance attributes. -/
  guestAttributesEnabled : Bool := false
  /-- The opt-out of writing inventory attributes even when they are enabled. -/
  disableInventoryWrite : Bool := false
  /-- The path prefix of every published attribute. -/
  attributeBasePath : Text := Text.ofString "guestInventory"
  /-- Whether rpm packages are reported as yum or zypper packages. -/
  policy : RpmPolicy := {}

/-- Whether cycles publish attributes. -/
def ReporterConfig.writeAttributes (c : ReporterConfig) : Bool :=
  c.guestAttributesEnabled && !c.disableInventoryWrite

/-- What lives across cycles: the client's state and the attribute store, if there is one. -/
structure Host (σ : Type) where
  caller : σ
  store : Option AttributeStore := none

/-- Run one reporter cycle with a client from a frame at stack depth `depth`: the host
afterwards, and the cycle's result or the failure that ended it. The snapshot is loaded for this
frame and the normalizers run one frame below it. -/
def runCycle {σ : Type} (client : Client σ) (config : ReporterConfig) (source : SnapshotSource)
    (ctx : CycleContext) (depth : Nat) (host : Host σ) : Host σ × Except InventoryError CycleResult :=
  match source.load depth with
  | .error e => (host, .error e)
  | .ok collected =>
    let s := collected.snapshot
    let store :=
      if config.writeAttributes then
        host.store.map fun store => (publishSnapshot store s config.attributeBasePath).1
      else host.store
    match s.legacyChecks (depth + 1) with
    | .error check => (⟨host.caller, store⟩, .error (.stackFull check))
    | .ok () =>
      let current := s.toCurrent collected.tooling config.policy
      let legacy := s.toLegacy
      let (caller, result) :=
        coordinate client ctx ⟨current.inventory, legacy.inventory⟩ host.caller
      (⟨caller, store⟩, result)

end HostInventory
