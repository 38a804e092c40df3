import HostInventory.Report.Coordinator
/-!
# The reporting protocol

A reporting cycle is a walk through a small automaton. Its positions are the reports a cycle can
make, a schema and whether the report is full; after each report the collector's answer decides
the next one (`Protocol.next`):

* a current-schema report refused with a failed precondition is made again in the legacy schema,
  with the same flag;
* a checksum report whose answer asks for the full inventory is made again, full, in the schema
  that answered;
* any other answer ends the cycle.

A cycle that is not cancelled, against a client that always answers, makes the reports of one
complete walk from a current-schema checksum report (`Protocol.Run`), the client answering each
report in turn (`Answers`), and its result is read off that walk (`Reflects`). A walk has at most
three reports, and no current-schema report follows a legacy one
(`coordinate_follows_protocol`).

The cycle is two reports with fallback (`Exchange.reportFrom`), the second made only on request.
Each is described once (`Fallback`, `Exchange.reportFrom_spec`), and the cycle from the two.
-/

namespace HostInventory

/-- One report of a cycle with the collector's answer. -/
structure Round where
  schema : Schema
  full : Bool
  outcome : Outcome
deriving DecidableEq

namespace Round

/-- The refusal that answered the report, if it was refused. -/
def refusal (r : Round) : Option ReportError :=
  match r.outcome with
  | .response _ => none
  | .refusal e => some e

/-- Whether the report was answered. -/
def answered (r : Round) : Bool := r.refusal.isNone

/-- The report as a cycle's result lists it: with the refusal's code when it was refused. -/
def call (r : Round) : ReportCall := ⟨r.schema, r.full, r.refusal.map ReportError.code⟩

/-- The phase a report is made in: checksum reports in the checksum phase, full ones in the
escalation. -/
def phase (r : Round) : Phase := if r.full then .escalate else .checksum

end Round

namespace Protocol

/-- Whether an answer sends the report to the legacy schema: a current-schema report refused with
a failed precondition. -/
def fallsBack : Schema → Outcome → Bool
  | .current, .refusal e => e.precondition
  | _, _ => false

/-- The report that follows a report in a schema, full or not, given the collector's answer;
none when the cycle ends there. -/
def next : Schema → Bool → Outcome → Option (Schema × Bool)
  | .current, full, .refusal e => if e.precondition then some (.legacy, full) else none
  | schema, false, .response true => some (schema, true)
  | _, _, _ => none

/-- A complete walk from a report: each report is followed by the one `next` gives, and the walk
ends where `next` gives none. -/
inductive Run : Schema × Bool → List Round → Prop
  | last {schema : Schema} {full : Bool} {outcome : Outcome} :
      next schema full outcome = none → Run (schema, full) [⟨schema, full, outcome⟩]
  | step {schema : Schema} {full : Bool} {outcome : Outcome} {following : Schema × Bool}
      {rest : List Round} :
      next schema full outcome = some following → Run following rest →
      Run (schema, full) (⟨schema, full, outcome⟩ :: rest)

theorem fallsBack_schema {schema : Schema} {outcome : Outcome}
    (falls : fallsBack schema outcome = true) : schema = .current := by
  cases schema <;> cases outcome <;> simp_all [fallsBack]

theorem next_of_fallsBack {schema : Schema} {outcome : Outcome}
    (falls : fallsBack schema outcome = true) (full : Bool) :
    next schema full outcome = some (.legacy, full) := by
  cases schema <;> cases outcome <;> simp_all [fallsBack, next]

/-- Without a fallback, only a checksum report answered with a request for the full inventory
goes on, to the full report in the same schema. -/
theorem next_of_stays {schema : Schema} {outcome : Outcome}
    (stays : fallsBack schema outcome = false) (full : Bool) :
    next schema full outcome =
      if full = false ∧ outcome = .response true then some (schema, true) else none := by
  rcases outcome with (_ | _) | e
  · cases schema <;> cases full <;> rfl
  · cases schema <;> cases full <;> rfl
  · cases schema <;> simp_all [fallsBack, next]

/-- Every step of a walk is a fallback or the escalation of a checksum report. -/
theorem next_eq_some {schema : Schema} {full : Bool} {outcome : Outcome}
    {following : Schema × Bool} (goes : next schema full outcome = some following) :
    (fallsBack schema outcome = true ∧ following = (.legacy, full)) ∨
      (full = false ∧ outcome = .response true ∧ following = (schema, true)) := by
  cases falls : fallsBack schema outcome
  · rw [next_of_stays falls] at goes
    split at goes
    · next escalates => exact .inr ⟨escalates.1, escalates.2, (Option.some.inj goes).symm⟩
    · cases goes
  · rw [next_of_fallsBack falls] at goes
    exact .inl ⟨rfl, (Option.some.inj goes).symm⟩

/-- The size of what is left of a walk from a report: each step of a walk goes to a smaller
one. -/
def room : Schema × Bool → Nat
  | (.current, false) => 3
  | (.legacy, false) | (.current, true) => 2
  | (.legacy, true) => 1

theorem room_next {schema : Schema} {full : Bool} {outcome : Outcome} {following : Schema × Bool}
    (goes : next schema full outcome = some following) : room following < room (schema, full) := by
  rcases next_eq_some goes with ⟨falls, rfl⟩ | ⟨rfl, -, rfl⟩
  · rw [fallsBack_schema falls]
    cases full <;> decide
  · cases schema <;> decide

/-- A walk never reports more than the room it started with. -/
theorem Run.length_le {start : Schema × Bool} {rounds : List Round} (walk : Run start rounds) :
    rounds.length ≤ room start := by
  induction walk with
  | @last schema full outcome _ => cases schema <;> cases full <;> simp [room]
  | step goes _ ih =>
    have smaller := room_next goes
    simp only [List.length_cons]
    omega

/-- From the legacy schema a walk goes on in the legacy schema. -/
theorem next_legacy {full : Bool} {outcome : Outcome} {following : Schema × Bool}
    (goes : next .legacy full outcome = some following) : following.1 = .legacy := by
  rcases next_eq_some goes with ⟨falls, -⟩ | ⟨-, -, rfl⟩
  · simp [fallsBack] at falls
  · rfl

/-- A walk from a legacy-schema report stays in the legacy schema. -/
theorem Run.all_legacy {start : Schema × Bool} {rounds : List Round} (walk : Run start rounds)
    (legacy : start.1 = .legacy) : ∀ r ∈ rounds, r.schema = .legacy := by
  induction walk with
  | last => simpa using legacy
  | step goes _ ih =>
    simp only at legacy
    subst legacy
    intro r mem
    rcases List.mem_cons.mp mem with rfl | later
    · rfl
    · exact ih (next_legacy goes) r later

/-- A walk makes its current-schema reports first and its legacy-schema reports after them. -/
theorem Run.currents_then_legacies {start : Schema × Bool} {rounds : List Round}
    (walk : Run start rounds) :
    ∃ currents legacies, rounds = currents ++ legacies ∧
      (∀ r ∈ currents, r.schema = .current) ∧ ∀ r ∈ legacies, r.schema = .legacy := by
  induction walk with
  | @last schema full outcome _ =>
    cases schema
    · exact ⟨[⟨.current, full, outcome⟩], [], rfl, by simp, by simp⟩
    · exact ⟨[], [⟨.legacy, full, outcome⟩], rfl, by simp, by simp⟩
  | @step schema full outcome following rest goes rest_walk ih =>
    cases schema
    · rcases ih with ⟨currents, legacies, rfl, allCurrent, allLegacy⟩
      refine ⟨⟨.current, full, outcome⟩ :: currents, legacies, rfl, ?_, allLegacy⟩
      intro r mem
      rcases List.mem_cons.mp mem with rfl | later
      · rfl
      · exact allCurrent r later
    · refine ⟨[], ⟨.legacy, full, outcome⟩ :: rest, rfl, by simp, ?_⟩
      intro r mem
      rcases List.mem_cons.mp mem with rfl | later
      · rfl
      · exact rest_walk.all_legacy (next_legacy goes) r later

/-- One report with its fallback: the rounds from `(schema, full)` up to the first answer that
does not send the report to the legacy schema, and that last round. -/
inductive Fallback : Schema × Bool → List Round → Round → Prop
  | direct {schema : Schema} {full : Bool} {outcome : Outcome} :
      fallsBack schema outcome = false →
      Fallback (schema, full) [⟨schema, full, outcome⟩] ⟨schema, full, outcome⟩
  | fallback {full : Bool} {e : ReportError} {outcome : Outcome} :
      e.precondition = true →
      Fallback (.current, full) [⟨.current, full, .refusal e⟩, ⟨.legacy, full, outcome⟩]
        ⟨.legacy, full, outcome⟩

namespace Fallback

variable {start : Schema × Bool} {rounds : List Round} {last : Round}

theorem getLast? (report : Fallback start rounds last) : rounds.getLast? = some last := by
  cases report <;> rfl

/-- Every report of a fallback has the flag it started with. -/
theorem full_eq (report : Fallback start rounds last) : ∀ r ∈ rounds, r.full = start.2 := by
  cases report <;> simp

theorem last_full (report : Fallback start rounds last) : last.full = start.2 :=
  report.full_eq last (List.mem_of_getLast? report.getLast?)

/-- Only the last report of a fallback can have been answered. -/
theorem filter_answered (report : Fallback start rounds last) :
    rounds.filter Round.answered = if last.answered then [last] else [] := by
  cases report with
  | @direct schema full outcome _ => cases outcome <;> rfl
  | @fallback full e outcome _ => cases outcome <;> rfl

/-- The last report never sends the cycle to the legacy schema. -/
theorem last_stays (report : Fallback start rounds last) :
    fallsBack last.schema last.outcome = false := by
  cases report with
  | direct stays => exact stays
  | fallback _ => rfl

/-- A fallback whose last report ends the cycle is a complete walk. -/
theorem run (report : Fallback start rounds last)
    (ends : next last.schema last.full last.outcome = none) : Run start rounds := by
  cases report with
  | direct _ => exact .last ends
  | fallback falls =>
    exact .step (next_of_fallsBack (by simpa [fallsBack] using falls) _) (.last ends)

/-- A fallback whose last report goes on to a complete walk is the start of one. -/
theorem run_append (report : Fallback start rounds last) {following : Schema × Bool}
    {rest : List Round} (goes : next last.schema last.full last.outcome = some following)
    (walk : Run following rest) : Run start (rounds ++ rest) := by
  cases report with
  | direct _ => exact .step goes walk
  | fallback falls =>
    exact .step (next_of_fallsBack (by simpa [fallsBack] using falls) _) (.step goes walk)

end Fallback

theorem Run.ne_nil {start : Schema × Bool} {rounds : List Round} (walk : Run start rounds) :
    rounds ≠ [] := by
  cases walk <;> simp

namespace Fallback

variable {start : Schema × Bool} {rounds : List Round} {last : Round}

/-- A full report was answered in a fallback exactly when the fallback was full and its last
report was answered. -/
theorem any_full_answered (report : Fallback start rounds last) :
    (rounds.any fun r => r.full && r.answered) = (start.2 && last.answered) := by
  cases report <;> simp [Round.answered, Round.refusal]

end Fallback

end Protocol

/-- How a report came out, from its round. -/
def Round.reported (r : Round) : Reported :=
  match r.outcome with
  | .response wanted => .answered r.schema wanted
  | .refusal e => .refused e

/-- What a cycle's result says about the rounds it made: the calls are the rounds; the cycle is
done; it succeeded exactly when its last report was answered, and otherwise failed with that
report's refusal, in that report's phase; it names the schema of the last answered report, and
says whether a full report was answered. -/
structure Reflects (rounds : List Round) (r : CycleResult) : Prop where
  calls : r.calls = rounds.map Round.call
  phase : r.phase = .done
  ok : r.ok = rounds.getLast?.any Round.answered
  error : r.error = rounds.getLast?.bind Round.refusal
  failedPhase :
    r.failedPhase = rounds.getLast?.bind fun last => last.refusal.map fun _ => last.phase
  schema : r.schema = (rounds.filter Round.answered).getLast?.map Round.schema
  fullSent : r.fullSent = rounds.any fun round => round.full && round.answered

namespace Reflects

variable {rounds : List Round} {r : CycleResult}

/-- A result reflects rounds that end in `last` when it lists their calls, is done, and reads
whether it succeeded, its refusal and the failed phase off `last`. -/
theorem of_getLast? {last : Round} (lastEq : rounds.getLast? = some last)
    (calls : r.calls = rounds.map Round.call) (phase : r.phase = .done)
    (ok : r.ok = last.answered) (error : r.error = last.refusal)
    (failedPhase : r.failedPhase = last.refusal.map fun _ => last.phase)
    (schema : r.schema = (rounds.filter Round.answered).getLast?.map Round.schema)
    (fullSent : r.fullSent = rounds.any fun round => round.full && round.answered) :
    Reflects rounds r := by
  refine ⟨calls, phase, ?_, ?_, ?_, schema, fullSent⟩
  · rw [ok, lastEq]
    rfl
  · rw [error, lastEq]
    rfl
  · rw [failedPhase, lastEq]
    rfl

theorem ok_iff_error (reflects : Reflects rounds r) (made : rounds ≠ []) :
    r.ok = true ↔ r.error = none := by
  cases last : rounds.getLast? with
  | none => exact absurd (List.getLast?_eq_none_iff.mp last) made
  | some final =>
    rw [reflects.ok, reflects.error, last]
    simp [Round.answered]

theorem ok_iff_failedPhase (reflects : Reflects rounds r) (made : rounds ≠ []) :
    r.ok = true ↔ r.failedPhase = none := by
  cases last : rounds.getLast? with
  | none => exact absurd (List.getLast?_eq_none_iff.mp last) made
  | some final =>
    rw [reflects.ok, reflects.failedPhase, last]
    simp [Round.answered]

end Reflects

section Cycle

variable {σ : Type} (client : Client σ) (ctx : CycleContext) (inv : Inventories)

/-- The client, from state `s`, answers the rounds' reports in turn with the rounds' outcomes
and is left in state `s'`. -/
inductive Answers : σ → List Round → σ → Prop
  | nil (s : σ) : Answers s [] s
  | cons {s s₁ s₂ : σ} {r : Round} {rest : List Round} :
      client.report s ctx inv r.schema r.full = (s₁, .ok r.outcome) →
      Answers s₁ rest s₂ → Answers s (r :: rest) s₂

variable {client ctx inv}

theorem Answers.append {s s₁ s₂ : σ} {first second : List Round}
    (answers₁ : Answers client ctx inv s first s₁)
    (answers₂ : Answers client ctx inv s₁ second s₂) :
    Answers client ctx inv s (first ++ second) s₂ := by
  induction answers₁ with
  | nil => exact answers₂
  | cons answered _ ih => exact .cons answered (ih answers₂)

/-- A report the client answers appends its round to the calls. -/
theorem Exchange.report_answered (live : ctx.cancelled = false) (x : Exchange σ) {schema : Schema}
    {full : Bool} {s' : σ} {outcome : Outcome}
    (answered : client.report x.state ctx inv schema full = (s', .ok outcome)) :
    x.report client ctx inv schema full =
      (⟨s', x.calls ++ [Round.call ⟨schema, full, outcome⟩]⟩,
        Round.reported ⟨schema, full, outcome⟩) := by
  unfold Exchange.report
  rw [if_neg (by simp [live]), answered]
  cases outcome <;> rfl

/-- A report with its fallback, the client answering: the rounds of a fallback are appended to
the calls, and the report came out as the last of them. -/
theorem Exchange.reportFrom_spec (live : ctx.cancelled = false)
    (answers : ∀ s schema full, ∃ s' o, client.report s ctx inv schema full = (s', .ok o))
    (x : Exchange σ) (start : Schema) (full : Bool) :
    ∃ rounds last s', Protocol.Fallback (start, full) rounds last ∧
      Answers client ctx inv x.state rounds s' ∧
      x.reportFrom client ctx inv start full =
        (⟨s', x.calls ++ rounds.map Round.call⟩, last.reported) := by
  rcases answers x.state start full with ⟨s₁, outcome, answered⟩
  cases falls : Protocol.fallsBack start outcome
  · -- the first report stands
    refine ⟨[⟨start, full, outcome⟩], ⟨start, full, outcome⟩, s₁, .direct falls,
      .cons answered (.nil _), ?_⟩
    cases start
    · cases outcome with
      | response wanted =>
        simp only [Exchange.reportFrom, Exchange.report_answered live x answered]
        rfl
      | refusal e =>
        simp only [Protocol.fallsBack] at falls
        simp [Exchange.reportFrom, Exchange.report_answered live x answered, Round.reported, falls]
    · simp [Exchange.reportFrom, Exchange.report_answered live x answered]
  · -- a current-schema report refused with a failed precondition is made again in the legacy one
    have current := Protocol.fallsBack_schema falls
    subst current
    cases outcome with
    | response wanted => simp [Protocol.fallsBack] at falls
    | refusal e =>
      simp only [Protocol.fallsBack] at falls
      rcases answers s₁ .legacy full with ⟨s₂, outcome₂, answered₂⟩
      refine ⟨[⟨.current, full, .refusal e⟩, ⟨.legacy, full, outcome₂⟩],
        ⟨.legacy, full, outcome₂⟩, s₂, .fallback falls,
        .cons answered (.cons answered₂ (.nil _)), ?_⟩
      simp only [Exchange.reportFrom, Exchange.report_answered live x answered, Round.reported,
        falls, if_true]
      rw [Exchange.report_answered live _ answered₂]
      simp [Round.reported]

/-- A cycle that is not cancelled, against a client that answers every report, makes the reports
of a complete walk from a current-schema checksum report, the client answering each in turn, and
its result reflects that walk. -/
theorem coordinate_walks (live : ctx.cancelled = false)
    (answers : ∀ s schema full, ∃ s' o, client.report s ctx inv schema full = (s', .ok o))
    (s : σ) :
    ∃ rounds s' r, coordinate client ctx inv s = (s', .ok r) ∧
      Protocol.Run (.current, false) rounds ∧ Answers client ctx inv s rounds s' ∧
      Reflects rounds r := by
  rcases Exchange.reportFrom_spec live answers ⟨s, []⟩ .current false
    with ⟨rounds, ⟨schema, full, outcome⟩, s₁, report, answered, reported⟩
  have checksum : full = false := report.last_full
  subst checksum
  have stays := report.last_stays
  unfold coordinate
  rw [reported]
  cases outcome with
  | refusal e =>
    -- the checksum report was refused: the cycle fails in the checksum phase
    have ends : Protocol.next schema false (.refusal e) = none := by
      simp [Protocol.next_of_stays stays]
    refine ⟨rounds, s₁, _, rfl, report.run ends, answered,
      .of_getLast? report.getLast? (by simp) rfl rfl rfl rfl ?_ ?_⟩
    · simp [report.filter_answered, Round.answered, Round.refusal]
    · simp [report.any_full_answered]
  | response wanted =>
    cases wanted with
    | false =>
      -- the checksum was accepted: the cycle succeeds
      have ends : Protocol.next schema false (.response false) = none := by
        simp [Protocol.next_of_stays stays]
      refine ⟨rounds, s₁, _, rfl, report.run ends, answered,
        .of_getLast? report.getLast? (by simp) rfl rfl rfl rfl ?_ ?_⟩
      · simp [report.filter_answered, Round.answered, Round.refusal]
      · simp [report.any_full_answered]
    | true =>
      -- the collector asked for the full inventory: a full report follows in the same schema
      have second := Exchange.reportFrom_spec live answers
        ⟨s₁, [] ++ rounds.map Round.call⟩ schema true
      rcases second with ⟨rounds₂, ⟨schema₂, full₂, outcome₂⟩, s₂, report₂, answered₂, reported₂⟩
      have escalated : full₂ = true := report₂.last_full
      subst escalated
      have stays₂ := report₂.last_stays
      have walk : Protocol.Run (.current, false) (rounds ++ rounds₂) :=
        report.run_append (by simp [Protocol.next_of_stays stays])
          (report₂.run (by simp [Protocol.next_of_stays stays₂]))
      simp only [Round.reported]
      rw [reported₂]
      have last₂ : (rounds ++ rounds₂).getLast? = some ⟨schema₂, true, outcome₂⟩ := by
        rw [List.getLast?_append, report₂.getLast?]
        rfl
      cases outcome₂ with
      | refusal e =>
        -- the full report was refused: the cycle fails in the escalation
        refine ⟨rounds ++ rounds₂, s₂, _, rfl, walk, answered.append answered₂,
          .of_getLast? last₂ (by simp) rfl rfl rfl rfl ?_ ?_⟩
        · simp [report.filter_answered, report₂.filter_answered, Round.answered, Round.refusal]
        · rw [List.any_append, report.any_full_answered, report₂.any_full_answered]
          simp [Round.answered, Round.refusal]
      | response wanted₂ =>
        -- the full report was answered: the cycle succeeds with the full inventory sent
        refine ⟨rounds ++ rounds₂, s₂, _, rfl, walk, answered.append answered₂,
          .of_getLast? last₂ (by simp) rfl rfl rfl rfl ?_ ?_⟩
        · simp [report.filter_answered, report₂.filter_answered, Round.answered, Round.refusal]
        · rw [List.any_append, report.any_full_answered, report₂.any_full_answered]
          simp [Round.answered, Round.refusal]

/-- A reporting cycle that is not cancelled, against a client that answers every report, makes
the reports of one complete walk of the protocol from a current-schema checksum report, the client
answering each in turn. Its result lists those reports with their refusal codes and is done; it
succeeds exactly when the last report was answered, exactly when it names no refusal, exactly when
it names no failed phase. The walk has at most three reports, the current-schema ones first. -/
theorem coordinate_follows_protocol (s : σ) (live : ctx.cancelled = false)
    (answers : ∀ s schema full, ∃ s' o, client.report s ctx inv schema full = (s', .ok o)) :
    ∃ rounds s' r, coordinate client ctx inv s = (s', .ok r) ∧
      Protocol.Run (.current, false) rounds ∧ Answers client ctx inv s rounds s' ∧
      Reflects rounds r ∧ (r.ok = true ↔ r.error = none) ∧
      (r.ok = true ↔ r.failedPhase = none) ∧ r.calls.length ≤ 3 ∧
      ∃ currents legacies, r.calls = currents ++ legacies ∧
        (∀ c ∈ currents, c.schema = .current) ∧ ∀ c ∈ legacies, c.schema = .legacy := by
  rcases coordinate_walks live answers s with ⟨rounds, s', r, ran, walk, answered, reflects⟩
  refine ⟨rounds, s', r, ran, walk, answered, reflects, reflects.ok_iff_error walk.ne_nil,
    reflects.ok_iff_failedPhase walk.ne_nil, ?_, ?_⟩
  · rw [reflects.calls, List.length_map]
    exact walk.length_le
  · rcases walk.currents_then_legacies with ⟨currents, legacies, split, allCurrent, allLegacy⟩
    refine ⟨currents.map Round.call, legacies.map Round.call, ?_, ?_, ?_⟩
    · rw [reflects.calls, split, List.map_append]
    · intro c mem
      rcases List.mem_map.mp mem with ⟨round, inCurrents, rfl⟩
      exact allCurrent round inCurrents
    · intro c mem
      rcases List.mem_map.mp mem with ⟨round, inLegacies, rfl⟩
      exact allLegacy round inLegacies

end Cycle

/-- A collector that refuses current-schema checksum reports with a failed precondition, asks
for the full inventory at a legacy-schema checksum report and accepts the full one: the cycle
falls back, then escalates. -/
theorem coordinate_follows_protocol_fallback_then_escalate :
    let client : Client Nat := ⟨fun n _ _ schema full =>
      (n + 1, .ok (match schema, full with
        | .current, false => .refusal (ReportError.failedPrecondition Text.empty none)
        | .legacy, false => .response true
        | _, _ => .response false))⟩
    let ctx : CycleContext := { cycleId := Text.ofString "cycle-1" }
    let inv : Inventories := ⟨{}, {}⟩
    ctx.cancelled = false ∧
      (∀ s schema full, ∃ s' o, client.report s ctx inv schema full = (s', .ok o)) ∧
      ∃ rounds s' r, coordinate client ctx inv 0 = (s', .ok r) ∧
        Protocol.Run (.current, false) rounds ∧ Answers client ctx inv 0 rounds s' ∧
        Reflects rounds r ∧ (r.ok = true ↔ r.error = none) ∧
        (r.ok = true ↔ r.failedPhase = none) ∧ r.calls.length ≤ 3 ∧
        ∃ currents legacies, r.calls = currents ++ legacies ∧
          (∀ c ∈ currents, c.schema = .current) ∧ ∀ c ∈ legacies, c.schema = .legacy := by
  intro client ctx inv
  have live : ctx.cancelled = false := rfl
  have answers : ∀ s schema full, ∃ s' o, client.report s ctx inv schema full = (s', .ok o) :=
    fun _ _ _ => ⟨_, _, rfl⟩
  exact ⟨live, answers, coordinate_follows_protocol 0 live answers⟩

end HostInventory
