import HostInventory.Proofs.Order
import HostInventory.Proofs.Report.Protocol
/-!
# Runs against the scripted collector

The scripted collector keeps a script of answers for each schema, consumed one per report of
that schema, and a default answer for every report once the script is used up. It records the
body of every report before it answers. Over any run of cycles that are not cancelled and whose
report bodies can be built (`coordinateEach_scripted`):

* every cycle makes the reports of one walk of the protocol, starting afresh with a
  current-schema checksum report whatever the earlier cycles were answered, and its result
  reflects that walk;
* the reports of a schema, counted over the whole run, receive that schema's script in order
  and then the default (`Collector.upcoming`);
* the collector's log lists the calls of the cycles' results in order, each with its cycle's id
  and the body built from the cycle's inventories, which carries the stable fingerprint of the
  reported inventory, and the inventory itself exactly when the report is full
  (`Request.Records`).

One report takes the next answer of its schema (`Collector.receive_eq_ok`), the reports of a
cycle take the next ones in turn (`Collector.answers_spec`), and the cycles of a run do so one
after another.
-/

namespace HostInventory

/-! ### Report bodies -/

namespace Inventories

/-- The inventory of a schema on the wire. -/
def wire (inv : Inventories) : Schema → Json
  | .current => inv.current.toWire
  | .legacy => inv.legacy.toWire

/-- The stable fingerprint of the inventory of a schema. -/
def fingerprint (inv : Inventories) : Schema → Except InventoryError String
  | .current => inv.current.stableFingerprint
  | .legacy => inv.legacy.stableFingerprint

/-- Both schemas build their bodies alike, from the schema's fingerprint and wire form. -/
theorem body_eq (inv : Inventories) (schema : Schema) (full : Bool) :
    inv.body schema full =
      (inv.fingerprint schema).map fun sum => reportBody sum full (inv.wire schema) := by
  cases schema
  · cases inv.current.stableFingerprint <;> rfl
  · cases inv.legacy.stableFingerprint <;> rfl

end Inventories

theorem reportBody_inventory (sum : String) (full : Bool) (inventory : Json) :
    (reportBody sum full inventory).get? "inventory" = if full then some inventory else none := by
  have versionFirst : Text.ofString "api_version" ≠ Text.ofString "inventory" := by decide
  have checksumSecond : Text.ofString "inventory_checksum" ≠ Text.ofString "inventory" := by
    decide
  cases full <;> simp [reportBody, Json.get?, Json.record, versionFirst, checksumSecond]

theorem reportBody_checksum (sum : String) (full : Bool) (inventory : Json) :
    (reportBody sum full inventory).get? "inventory_checksum" = some (.str (Text.ofString sum)) := by
  have versionFirst : Text.ofString "api_version" ≠ Text.ofString "inventory_checksum" := by
    decide
  cases full <;> simp [reportBody, Json.get?, Json.record, versionFirst]

/-- A request as the collector records the report of `call` in the cycle `ctx` over `inv`: the
call's schema and flag, the cycle's id, and the body built from the inventories, which carries
the stable fingerprint of the reported inventory, the same for a checksum and a full report, and
the inventory itself exactly when the report is full. -/
structure Request.Records (req : Request) (ctx : CycleContext) (inv : Inventories)
    (call : ReportCall) : Prop where
  schema : req.schema = call.schema
  full : req.full = call.full
  cycleId : req.cycleId = ctx.cycleId
  body : inv.body call.schema call.full = .ok req.body
  inventory : req.body.get? "inventory" = if call.full then some (inv.wire call.schema) else none
  checksum : ∃ sum, inv.fingerprint call.schema = .ok sum ∧
    req.body.get? "inventory_checksum" = some (.str (Text.ofString sum))

/-- The request holding the body built for a call records that call. -/
theorem Request.records_of_body {ctx : CycleContext} {inv : Inventories} {call : ReportCall}
    {body : Json} (built : inv.body call.schema call.full = .ok body) :
    Request.Records ⟨call.schema, call.full, ctx.cycleId, body⟩ ctx inv call := by
  rw [Inventories.body_eq] at built
  obtain ⟨sum, fingerprinted, rfl⟩ := Except.map_eq_ok_iff.mp built
  refine ⟨rfl, rfl, rfl, ?_, reportBody_inventory _ _ _, sum, fingerprinted,
    reportBody_checksum _ _ _⟩
  rw [Inventories.body_eq, fingerprinted]
  rfl

/-! ### The collector's scripts -/

/-- The rounds of a schema, in order. -/
def Round.inSchema (schema : Schema) (rounds : List Round) : List Round :=
  rounds.filter fun r => r.schema == schema

namespace Collector

/-- The answers left in a schema's script. -/
def script (c : Collector) : Schema → List Outcome
  | .current => c.current
  | .legacy => c.legacy

/-- The next `n` answers the collector gives in a schema: those left in its script, in order,
then the default. -/
def upcoming (c : Collector) (schema : Schema) (n : Nat) : List Outcome :=
  (List.range n).map fun j => (c.script schema).getD j c.default

/-- The next answer of a schema is the first one left in its script, or the default. -/
@[simp] theorem next_fst (c : Collector) (schema : Schema) :
    (c.next schema).1 = (c.script schema).headD c.default := by
  rcases c with ⟨_ | ⟨o, rest⟩, _ | ⟨o', rest'⟩, default, requests⟩ <;> cases schema <;> rfl

/-- Taking the next answer of a schema uses up the first one left in its script, and no other. -/
@[simp] theorem next_script (c : Collector) (schema other : Schema) :
    (c.next schema).2.script other =
      if other = schema then (c.script other).tail else c.script other := by
  rcases c with ⟨_ | ⟨o, rest⟩, _ | ⟨o', rest'⟩, default, requests⟩ <;> cases schema <;>
    cases other <;> rfl

@[simp] theorem next_default (c : Collector) (schema : Schema) :
    (c.next schema).2.default = c.default := by
  rcases c with ⟨_ | ⟨o, rest⟩, _ | ⟨o', rest'⟩, default, requests⟩ <;> cases schema <;> rfl

/-- Answers taken from the collector in two stretches are its upcoming answers over both. -/
theorem upcoming_add {c c' : Collector} {schema : Schema} {m : Nat} (n : Nat)
    (sameDefault : c'.default = c.default) (advanced : c'.script schema = (c.script schema).drop m) :
    c.upcoming schema (m + n) = c.upcoming schema m ++ c'.upcoming schema n := by
  simp only [upcoming, List.range_add, List.map_append, List.map_map, advanced, sameDefault]
  congr 1
  apply List.map_congr_left
  intro j _
  simp [List.getD_eq_getElem?_getD, List.getElem?_drop]

/-- A report answered by the collector had a body that could be built: it is recorded, and
answered with the next answer of its schema, which is used up. -/
theorem receive_eq_ok {c c' : Collector} {cycleId : Text} {inv : Inventories} {schema : Schema}
    {full : Bool} {o : Outcome} (answered : c.receive cycleId inv schema full = (c', .ok o)) :
    ∃ body, inv.body schema full = .ok body ∧ o = (c.script schema).headD c.default ∧
      c'.default = c.default ∧ c'.requests = c.requests ++ [⟨schema, full, cycleId, body⟩] ∧
      ∀ other, c'.script other = if other = schema then (c.script other).tail else c.script other := by
  unfold receive at answered
  cases built : inv.body schema full with
  | error e => simp [built] at answered
  | ok body =>
    simp only [built, Prod.mk.injEq, Except.ok.injEq] at answered
    rcases answered with ⟨rfl, rfl⟩
    refine ⟨body, rfl, ?_, by simp, by simp, ?_⟩
    · rw [next_fst]
      cases schema <;> rfl
    · intro other
      rw [next_script]
      cases other <;> rfl

/-- The collector went from `c` to `c'` answering `rounds`: the rounds of each schema received
its upcoming answers in that schema, which are used up, and the default stayed. -/
structure Answered (c c' : Collector) (rounds : List Round) : Prop where
  default : c'.default = c.default
  script : ∀ schema,
    c'.script schema = (c.script schema).drop (Round.inSchema schema rounds).length
  outcomes : ∀ schema, (Round.inSchema schema rounds).map Round.outcome =
    c.upcoming schema (Round.inSchema schema rounds).length

namespace Answered

theorem nil (c : Collector) : Answered c c [] :=
  ⟨rfl, fun _ => rfl, fun _ => rfl⟩

/-- Answering one stretch of rounds and then another answers them all. -/
theorem append {c c₁ c₂ : Collector} {first second : List Round} (answered₁ : Answered c c₁ first)
    (answered₂ : Answered c₁ c₂ second) : Answered c c₂ (first ++ second) := by
  have split : ∀ schema, Round.inSchema schema (first ++ second) =
      Round.inSchema schema first ++ Round.inSchema schema second := by
    intro schema
    simp [Round.inSchema, List.filter_append]
  refine ⟨answered₂.default.trans answered₁.default, ?_, ?_⟩
  · intro schema
    rw [answered₂.script, answered₁.script, List.drop_drop, split, List.length_append]
  · intro schema
    rw [split, List.map_append, answered₁.outcomes, answered₂.outcomes, List.length_append,
      upcoming_add _ answered₁.default (answered₁.script schema)]

/-- A report the collector answers is a round answered with the next answer of its schema. -/
theorem single {c c' : Collector} {cycleId : Text} {inv : Inventories} {r : Round}
    (answered : c.receive cycleId inv r.schema r.full = (c', .ok r.outcome)) :
    Answered c c' [r] := by
  rcases receive_eq_ok answered with ⟨body, -, received, sameDefault, -, advanced⟩
  refine ⟨sameDefault, ?_, ?_⟩
  · intro schema
    rw [advanced]
    by_cases same : schema = r.schema
    · simp [same, Round.inSchema]
    · simp [same, Round.inSchema, Ne.symm same]
  · intro schema
    by_cases same : schema = r.schema
    · subst same
      simp only [Round.inSchema, List.filter_cons, beq_self_eq_true, if_true, List.filter_nil,
        List.map_cons, List.map_nil, List.length_cons, List.length_nil, received]
      simp only [upcoming, Nat.zero_add, List.range_one, List.map_cons, List.map_nil]
      cases c.script r.schema <;> rfl
    · simp [Round.inSchema, Ne.symm same, upcoming]

end Answered

section Cycle

variable {ctx : CycleContext} {inv : Inventories}

/-- The collector after the reports of a cycle: it answered them with its upcoming answers and
recorded each, with the cycle's id and the body built for it. -/
theorem answers_spec {c c' : Collector} {rounds : List Round}
    (answered : Answers Collector.client ctx inv c rounds c') :
    Answered c c' rounds ∧ ∃ recorded, c'.requests = c.requests ++ recorded ∧
      List.Forall₂ (fun req r => req.Records ctx inv (Round.call r)) recorded rounds := by
  induction answered with
  | nil c => exact ⟨Answered.nil c, [], by simp, .nil⟩
  | @cons c c₁ c₂ r rest reported _ ih =>
    rcases ih with ⟨answeredRest, recorded, log, logged⟩
    rcases receive_eq_ok reported with ⟨body, built, -, -, recordedFirst, -⟩
    refine ⟨(Answered.single reported).append answeredRest, ⟨r.schema, r.full, ctx.cycleId, body⟩ :: recorded,
      by rw [log, recordedFirst, List.append_assoc, List.singleton_append], ?_⟩
    exact .cons (@Request.records_of_body ctx inv r.call body built) logged

/-- The collector answers every report of a cycle whose bodies can be built. -/
theorem client_answers (builds : ∀ schema full, ∃ body, inv.body schema full = .ok body) :
    ∀ c schema full, ∃ c' o, Collector.client.report c ctx inv schema full = (c', .ok o) := by
  intro c schema full
  rcases builds schema full with ⟨body, built⟩
  let recorded : Collector := { c with requests := c.requests ++ [⟨schema, full, ctx.cycleId, body⟩] }
  have received : Collector.client.report c ctx inv schema full =
      ((recorded.next schema).2, .ok (recorded.next schema).1) := by
    show c.receive ctx.cycleId inv schema full = _
    rw [receive, built]
  exact ⟨_, _, received⟩

end Cycle

end Collector

/-- A cycle's first call is the current-schema checksum report of its walk. -/
theorem Reflects.first_call {rounds : List Round} {r : CycleResult}
    (walk : Protocol.Run (.current, false) rounds) (reflects : Reflects rounds r) :
    ∃ code, r.calls.head? = some ⟨.current, false, code⟩ := by
  cases walk with
  | last _ => exact ⟨_, by rw [reflects.calls]; rfl⟩
  | step _ _ => exact ⟨_, by rw [reflects.calls]; rfl⟩

/-- A run of cycles against the collector, none cancelled and each with bodies that can be built:
every cycle makes a walk of the protocol that its result reflects; over the whole run the
collector answers the walks' rounds with its upcoming answers, and records every call of every
cycle's result, in order. -/
theorem coordinateEach_collector : ∀ (cycles : List (CycleContext × Inventories)) (c : Collector),
    (∀ k ∈ cycles, k.1.cancelled = false) →
    (∀ k ∈ cycles, ∀ schema full, ∃ body, k.2.body schema full = .ok body) →
    ∃ results rounds, (coordinateEach Collector.client cycles c).2 = results.map .ok ∧
      List.Forall₂ (fun rs r => Protocol.Run (.current, false) rs ∧ Reflects rs r) rounds results ∧
      Collector.Answered c (coordinateEach Collector.client cycles c).1 rounds.flatten ∧
      ∃ recorded, (coordinateEach Collector.client cycles c).1.requests = c.requests ++ recorded ∧
        List.Forall₂ (fun req (kc : (CycleContext × Inventories) × ReportCall) =>
            req.Records kc.1.1 kc.1.2 kc.2)
          recorded (List.zipWith (fun k r => r.calls.map (k, ·)) cycles results).flatten
  | [], c, _, _ => ⟨[], [], rfl, .nil, Collector.Answered.nil c, [], (List.append_nil _).symm, .nil⟩
  | (ctx, inv) :: rest, c, live, builds => by
    -- the first cycle, against the collector as the run found it
    have liveHere : ctx.cancelled = false := live (ctx, inv) List.mem_cons_self
    rcases coordinate_walks liveHere
        (Collector.client_answers (builds (ctx, inv) List.mem_cons_self)) c
      with ⟨rs, c₁, r, ran, walk, answered, reflects⟩
    rcases Collector.answers_spec answered with ⟨took, recorded, log, logged⟩
    -- the other cycles, against the collector the first one left
    rcases coordinateEach_collector rest c₁ (fun k mem => live k (List.mem_cons_of_mem _ mem))
        (fun k mem => builds k (List.mem_cons_of_mem _ mem))
      with ⟨results, rounds, ranRest, walks, tookRest, recordedRest, logRest, loggedRest⟩
    have step : coordinateEach Collector.client ((ctx, inv) :: rest) c =
        ((coordinateEach Collector.client rest c₁).1,
          .ok r :: (coordinateEach Collector.client rest c₁).2) := by
      simp [coordinateEach, ran]
    refine ⟨r :: results, rs :: rounds, ?_, .cons ⟨walk, reflects⟩ walks, ?_,
      recorded ++ recordedRest, ?_, ?_⟩
    · rw [step, ranRest]
      rfl
    · rw [step, List.flatten_cons]
      exact took.append tookRest
    · rw [step, logRest, log, List.append_assoc]
    · rw [List.zipWith_cons_cons, List.flatten_cons]
      refine List.rel_append ?_ loggedRest
      rw [reflects.calls, List.map_map]
      exact List.forall₂_map_right_iff.mpr logged

/-- Over any run of cycles against one scripted collector, none cancelled and each with report
bodies that can be built, every cycle succeeds and starts with a current-schema checksum report,
whatever the earlier ones were answered, and its result reflects a walk of the protocol. The
calls of a schema, counted over the whole run, receive that schema's script in order and then the
default. The collector's log lists the calls of the cycles' results, cycle after cycle, each with
its cycle's id and the body built from its cycle's inventories: the stable fingerprint of the
reported inventory, and the inventory itself exactly when the call is full. -/
theorem coordinateEach_scripted (current legacy : List Outcome) (default : Outcome)
    (cycles : List (CycleContext × Inventories))
    (live : ∀ k ∈ cycles, k.1.cancelled = false)
    (builds : ∀ k ∈ cycles, ∀ schema full, ∃ body, k.2.body schema full = .ok body) :
    let start : Collector := { current, legacy, default }
    let run := coordinateEach Collector.client cycles start
    ∃ results rounds, run.2 = results.map .ok ∧
      List.Forall₂ (fun rs r => Protocol.Run (.current, false) rs ∧ Reflects rs r) rounds results ∧
      (∀ r ∈ results, ∃ code, r.calls.head? = some ⟨.current, false, code⟩) ∧
      (∀ schema, (Round.inSchema schema rounds.flatten).map Round.outcome =
        start.upcoming schema (Round.inSchema schema rounds.flatten).length) ∧
      List.Forall₂ (fun req (kc : (CycleContext × Inventories) × ReportCall) =>
          req.Records kc.1.1 kc.1.2 kc.2)
        run.1.requests (List.zipWith (fun k r => r.calls.map (k, ·)) cycles results).flatten := by
  intro start run
  rcases coordinateEach_collector cycles start live builds
    with ⟨results, rounds, ran, walks, took, recorded, log, logged⟩
  have firstCalls : ∀ r ∈ results, ∃ code, r.calls.head? = some ⟨.current, false, code⟩ := by
    clear ran log logged took
    induction walks with
    | nil => simp
    | cons head _ ih =>
      intro r mem
      rcases List.mem_cons.mp mem with rfl | later
      · exact Reflects.first_call head.1 head.2
      · exact ih r later
  refine ⟨results, rounds, ran, walks, firstCalls, took.outcomes, ?_⟩
  have fromEmpty : run.1.requests = recorded := by
    simpa [start] using log
  rw [fromEmpty]
  exact logged

/-- A collector that refuses every current-schema report with a failed precondition, by default,
and accepts the first two legacy-schema reports, over two cycles of empty inventories: each cycle
starts again with the current schema. -/
theorem coordinateEach_scripted_restarts_current :
    let current : List Outcome := []
    let legacy : List Outcome := [.response false, .response false]
    let default : Outcome := .refusal (ReportError.failedPrecondition Text.empty none)
    let cycles : List (CycleContext × Inventories) :=
      [({ cycleId := Text.ofString "cycle-0" }, ⟨{}, {}⟩),
        ({ cycleId := Text.ofString "cycle-1" }, ⟨{}, {}⟩)]
    (∀ k ∈ cycles, k.1.cancelled = false) ∧
      (∀ k ∈ cycles, ∀ schema full, ∃ body, k.2.body schema full = .ok body) ∧
      let start : Collector := { current, legacy, default }
      let run := coordinateEach Collector.client cycles start
      ∃ results rounds, run.2 = results.map .ok ∧
        List.Forall₂ (fun rs r => Protocol.Run (.current, false) rs ∧ Reflects rs r) rounds
          results ∧
        (∀ r ∈ results, ∃ code, r.calls.head? = some ⟨.current, false, code⟩) ∧
        (∀ schema, (Round.inSchema schema rounds.flatten).map Round.outcome =
          start.upcoming schema (Round.inSchema schema rounds.flatten).length) ∧
        List.Forall₂ (fun req (kc : (CycleContext × Inventories) × ReportCall) =>
            req.Records kc.1.1 kc.1.2 kc.2)
          run.1.requests (List.zipWith (fun k r => r.calls.map (k, ·)) cycles results).flatten := by
  intro current legacy default cycles
  have live : ∀ k ∈ cycles, k.1.cancelled = false := by
    simp [cycles]
  -- the bodies need the stable streams only; the digest of a stream always exists
  have emptyBuilds : ∀ schema full, ∃ body, (⟨{}, {}⟩ : Inventories).body schema full = .ok body := by
    intro schema full
    rw [Inventories.body_eq]
    cases schema
    · have streamed : ({} : Current.Inventory).stableStream.isOk = true := by cbv
      rcases Except.exists_eq_ok_of_isOk streamed with ⟨s, stream⟩
      exact ⟨reportBody (Sha256.hexDigest s) full (Inventories.wire ⟨{}, {}⟩ .current),
        by simp [Inventories.fingerprint, Current.Inventory.stableFingerprint, stream, Except.map]⟩
    · have streamed : ({} : Legacy.Inventory).stableStream.isOk = true := by cbv
      rcases Except.exists_eq_ok_of_isOk streamed with ⟨s, stream⟩
      exact ⟨reportBody (Sha256.hexDigest s) full (Inventories.wire ⟨{}, {}⟩ .legacy),
        by simp [Inventories.fingerprint, Legacy.Inventory.stableFingerprint, stream, Except.map]⟩
  have builds : ∀ k ∈ cycles, ∀ schema full, ∃ body, k.2.body schema full = .ok body := by
    intro k mem
    simp only [cycles, List.mem_cons, List.not_mem_nil, or_false] at mem
    rcases mem with rfl | rfl <;> exact emptyBuilds
  exact ⟨live, builds, coordinateEach_scripted current legacy default cycles live builds⟩

end HostInventory
