import HostInventory.Report.Collector
/-!
# The reporting cycle

One reporting cycle is a small state machine over the collector.

* Checksum: report the current-schema inventory without the full payload. When the collector
  refuses with a failed precondition, report the legacy-schema inventory instead, still checksum
  only. Any other refusal, or a refusal of the legacy report, ends the cycle.
* Escalate: entered only when the answering report asked for the full inventory. The full
  inventory is sent in the schema that answered, with the same fallback from current to legacy.
  A refusal here ends the cycle, which keeps the checksum schema.
* Done.

No state survives a cycle: every cycle starts with the current schema. Before every report the
cycle checks for cancellation; a cancelled cycle, like a report that fails otherwise, ends with a
failure instead of a result, and leaves the client as it was at that point. The cycle works with
any client (`Client`): what it needs is a report operation over the client's own state.
-/

namespace HostInventory

/-- A reporting cycle: its identifier and whether it was cancelled. -/
structure CycleContext where
  cycleId : Text
  cancelled : Bool := false
deriving DecidableEq, Inhabited

/-- The phases of a reporting cycle. -/
inductive Phase where
  | checksum
  | escalate
  | done
deriving DecidableEq, Inhabited

/-- The name of a phase. -/
def Phase.name : Phase → String
  | .checksum => "checksum"
  | .escalate => "escalate"
  | .done => "done"

/-- One report made in a cycle; the error code is that of the refusal, if refused. -/
structure ReportCall where
  schema : Schema
  full : Bool
  errorCode : Option Text := none
deriving DecidableEq, Inhabited

/-- The result of a reporting cycle. `schema` is that of the last answered report, or none when
no report was answered; `error` is the refusal that ended the cycle. -/
structure CycleResult where
  ok : Bool
  phase : Phase := .done
  failedPhase : Option Phase := none
  schema : Option Schema := none
  fullSent : Bool := false
  calls : List ReportCall := []
  error : Option ReportError := none
deriving DecidableEq, Inhabited

/-- What a reporting cycle needs of a collector client with state `σ`: it takes a report of the
inventories in a schema, checksum only or full, for a cycle, and answers; or it fails in a way
that ends the cycle. -/
structure Client (σ : Type) where
  report : σ → CycleContext → Inventories → Schema → Bool → σ × Except InventoryError Outcome

/-- The scripted collector as a client. -/
def Collector.client : Client Collector :=
  ⟨fun c ctx inv schema full => c.receive ctx.cycleId inv schema full⟩

/-- The client's state and the reports made so far in a cycle. -/
structure Exchange (σ : Type) where
  state : σ
  calls : List ReportCall := []

/-- How a report, or a report with its fallback, came out. -/
inductive Reported where
  /-- The collector answered in a schema, saying whether it wants the full inventory. -/
  | answered (schema : Schema) (full : Bool)
  /-- The collector refused. -/
  | refused (error : ReportError)
  /-- The cycle was cancelled or the report failed otherwise. -/
  | failed (error : InventoryError)
deriving Inhabited

section Cycle

variable {σ : Type} (client : Client σ) (ctx : CycleContext) (inv : Inventories)

/-- Make one report: check for cancellation, then report and record the call. -/
def Exchange.report (x : Exchange σ) (schema : Schema) (full : Bool) : Exchange σ × Reported :=
  if ctx.cancelled then
    (x, .failed (.cancelled ctx.cycleId))
  else
    match client.report x.state ctx inv schema full with
    | (s, .error e) => ({ x with state := s }, .failed e)
    | (s, .ok (.response wanted)) =>
      (⟨s, x.calls ++ [⟨schema, full, none⟩]⟩, .answered schema wanted)
    | (s, .ok (.refusal e)) =>
      (⟨s, x.calls ++ [⟨schema, full, some e.code⟩]⟩, .refused e)

/-- Report starting at a schema, falling back once from current to legacy on a failed
precondition. -/
def Exchange.reportFrom (x : Exchange σ) (start : Schema) (full : Bool) :
    Exchange σ × Reported :=
  match start with
  | .legacy => x.report client ctx inv .legacy full
  | .current =>
    match x.report client ctx inv .current full with
    | (x, .refused e) =>
      if e.precondition then x.report client ctx inv .legacy full else (x, .refused e)
    | other => other

/-- Run one reporting cycle against a client: the client's state afterwards, and the cycle's
result or the failure that ended it. -/
def coordinate (s : σ) : σ × Except InventoryError CycleResult :=
  match (Exchange.mk s []).reportFrom client ctx inv .current false with
  | (x, .failed e) => (x.state, .error e)
  | (x, .refused e) =>
    let result : CycleResult :=
      { ok := false, failedPhase := some .checksum, calls := x.calls, error := some e }
    (x.state, .ok result)
  | (x, .answered schema false) =>
    let result : CycleResult := { ok := true, schema := some schema, calls := x.calls }
    (x.state, .ok result)
  | (x, .answered schema true) =>
    match x.reportFrom client ctx inv schema true with
    | (x, .failed e) => (x.state, .error e)
    | (x, .refused e) =>
      let result : CycleResult :=
        { ok := false, failedPhase := some .escalate, schema := some schema, calls := x.calls,
          error := some e }
      (x.state, .ok result)
    | (x, .answered final _) =>
      let result : CycleResult :=
        { ok := true, schema := some final, fullSent := true, calls := x.calls }
      (x.state, .ok result)

end Cycle

/-- Run reporting cycles one after another against one client, each with its own context and
inventories: the client's state afterwards, and each cycle's result or failure, in order. The
cycles share nothing but the client's state. -/
def coordinateEach {σ : Type} (client : Client σ) :
    List (CycleContext × Inventories) → σ → σ × List (Except InventoryError CycleResult)
  | [], s => (s, [])
  | (ctx, inv) :: rest, s =>
    let (s, result) := coordinate client ctx inv s
    let (s, results) := coordinateEach client rest s
    (s, result :: results)

end HostInventory
