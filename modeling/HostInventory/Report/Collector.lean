import HostInventory.Inventory.Fingerprint
/-!
# Reports and the scripted collector

An inventory is reported to a collector in one of two schemas, current or legacy, either as its
stable fingerprint alone (a checksum report) or with the whole encoded inventory (a full report).
The collector answers whether it wants the full inventory, or refuses the report with an error
that carries a code and a message. One kind of refusal, the failed precondition, says that the
collector does not take the schema for this host.

The collector of this library answers from scripts: each schema has a list of answers consumed in
call order, and a default answer once its script is used up. It records the body of every report
it receives before answering, so refused reports are recorded too. Building the body computes
the stable fingerprint, which fails on unencodable texts; such a report is neither recorded nor
answered.
-/

namespace HostInventory

/-- The schemas an inventory is reported in. -/
inductive Schema where
  | current
  | legacy
deriving DecidableEq, Inhabited

/-- The name of a schema. -/
def Schema.name : Schema → String
  | .current => "current"
  | .legacy => "legacy"

/-- A refused report: whether the refusal is a failed precondition, its code and its message. -/
structure ReportError where
  precondition : Bool
  code : Text
  message : Text := Text.empty
deriving DecidableEq, Inhabited

namespace ReportError

/-- A failed precondition, with the default code unless one is given. -/
def failedPrecondition (message : Text) (code : Option Text) : ReportError :=
  ⟨true, code.getD (Text.ofString "FAILED_PRECONDITION"), message⟩

/-- Another refusal, with the default code unless one is given. -/
def general (message : Text) (code : Option Text) : ReportError :=
  ⟨false, code.getD (Text.ofString "UNKNOWN"), message⟩

/-- The kind of refusal, as callers match on it. -/
def kindName (e : ReportError) : String :=
  if e.precondition then "PreconditionFailed" else "ReportError"

/-- The refusal as text: the code, then a colon and the message when there is one. -/
def text (e : ReportError) : Text :=
  if e.message.isEmpty then e.code else e.code ++ Text.ofString ": " ++ e.message

end ReportError

/-- An answer of the collector: a response saying whether it wants the full inventory, or a
refusal. -/
inductive Outcome where
  | response (full : Bool)
  | refusal (error : ReportError)
deriving DecidableEq, Inhabited

/-- The inventory of a host in both schemas. -/
structure Inventories where
  current : Current.Inventory
  legacy : Legacy.Inventory

/-- The wire version of report bodies. -/
def apiVersion : String := "v1"

/-- The body of a report: the version and the stable fingerprint, and for a full report the
encoded inventory. -/
def reportBody (checksum : String) (full : Bool) (inventory : Json) : Json :=
  Json.record ([("api_version", .str (Text.ofString apiVersion)),
    ("inventory_checksum", .str (Text.ofString checksum))] ++
    if full then [("inventory", inventory)] else [])

/-- The body of a report of an inventory in a schema. -/
def Inventories.body (inv : Inventories) (schema : Schema) (full : Bool) :
    Except InventoryError Json :=
  match schema with
  | .current => do pure (reportBody (← inv.current.stableFingerprint) full inv.current.toWire)
  | .legacy => do pure (reportBody (← inv.legacy.stableFingerprint) full inv.legacy.toWire)

/-- A report as the collector recorded it. -/
structure Request where
  schema : Schema
  full : Bool
  cycleId : Text
  body : Json

/-- The scripted collector. -/
structure Collector where
  /-- Answers to current-schema reports, in call order. -/
  current : List Outcome := []
  /-- Answers to legacy-schema reports, in call order. -/
  legacy : List Outcome := []
  /-- The answer once a script is used up. -/
  default : Outcome := .response false
  /-- Every report received, in order. -/
  requests : List Request := []

namespace Collector

/-- The next answer for a schema, and the collector with it consumed. -/
def next (c : Collector) : Schema → Outcome × Collector
  | .current =>
    match c.current with
    | o :: rest => (o, { c with current := rest })
    | [] => (c.default, c)
  | .legacy =>
    match c.legacy with
    | o :: rest => (o, { c with legacy := rest })
    | [] => (c.default, c)

/-- Receive a report for a cycle: build its body, record it, and answer from the script. A body
that cannot be built fails the report before anything is recorded. -/
def receive (c : Collector) (cycleId : Text) (inv : Inventories) (schema : Schema)
    (full : Bool) : Collector × Except InventoryError Outcome :=
  match inv.body schema full with
  | .error e => (c, .error e)
  | .ok body =>
    let request : Request := ⟨schema, full, cycleId, body⟩
    let c := { c with requests := c.requests ++ [request] }
    let (o, c) := c.next schema
    (c, .ok o)

/-- Taking the next answer records nothing. -/
@[simp]
theorem next_requests (c : Collector) (schema : Schema) :
    (c.next schema).2.requests = c.requests := by
  cases schema <;> simp only [next] <;> split <;> rfl

/-- A received report is recorded after the earlier ones exactly when its body can be built. -/
theorem receive_requests (c : Collector) (cycleId : Text) (inv : Inventories) (schema : Schema)
    (full : Bool) :
    (c.receive cycleId inv schema full).1.requests =
      match inv.body schema full with
      | .ok body => c.requests ++ [⟨schema, full, cycleId, body⟩]
      | .error _ => c.requests := by
  unfold receive
  cases inv.body schema full <;> simp

end Collector

end HostInventory
