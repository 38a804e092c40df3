import HostInventory.Inventory.Load
import HostInventory.Proofs.Json.Nesting
/-!
# Where loading a document fails

Loading is lenient: most of a document is read whatever it holds, and only a few values make it
fail. Those values are named here as checks (`LoadCheck`), each with the error it fails with, and
the checks of a document are listed in the order the loader meets them (`Load.checks`): the
tooling first, then the installed collections, then the update collections; within a collection
the source of every package record of the nine plain kinds, kind by kind, then the revision number
and the deployment time of every update, then the install date of every application. List
elements that are not objects and collections that are not objects make no checks.

Each step of the loader fails exactly where the first of its checks fails (`FailsFirst`), and
binds join the check lists of their steps, so loading a document that the reader accepts fails
with the error of its first failing check (`Collected.ofDocument_failsFirst`). A text the reader
refuses fails with the reader's error, and that is not only text that is not JSON: arrays nested
past the reader's room are JSON and are refused as too deep
(`SnapshotSource.load_refuses_deeply_nested_json`).
-/

namespace HostInventory

/-- A value the loader checks, by the way it can refuse it. -/
inductive LoadCheck where
  /-- An optional object, such as the tooling or a package's source. -/
  | object (value : Json)
  /-- An update's revision number. -/
  | integer (value : Json)
  /-- A date-time field. -/
  | dateTime (value : Json)

namespace LoadCheck

/-- Why the loader refuses a checked value, if it does: a true value that is not an object has no
members to read; a revision number must convert to a whole number; a true date-time's display
text must be an ISO date-time. -/
def failure : LoadCheck → Option InventoryError
  | .object v =>
    if v.truthy && v.members?.isNone then some (.noAttribute v.toDatum.kindName "get") else none
  | .integer v =>
    match v.toInteger with
    | .ok _ => none
    | .error e => some (.integer e)
  | .dateTime v =>
    if v.truthy then
      match DateTime.ofIso v.display with
      | .ok _ => none
      | .error e => some (.date e)
    else none

/-- The classes of the errors a check can fail with. -/
def classNames : LoadCheck → List String
  | .object _ => ["AttributeError"]
  | .integer _ => ["ValueError", "TypeError", "OverflowError"]
  | .dateTime _ => ["ValueError"]

/-- A failing check's error is of one of the check's classes. -/
theorem failure_className {c : LoadCheck} {e : InventoryError} (failed : c.failure = some e) :
    e.className ∈ c.classNames := by
  cases c with
  | object v =>
    simp only [failure, Option.ite_none_right_eq_some, Option.some.injEq] at failed
    simp [← failed.2, InventoryError.className, classNames]
  | integer v =>
    simp only [failure] at failed
    split at failed
    · cases failed
    · next err _ =>
      cases failed
      cases err <;> simp [InventoryError.className, IntegerError.className, classNames]
  | dateTime v =>
    simp only [failure] at failed
    split_ifs at failed
    split at failed
    · cases failed
    · cases failed
      simp [InventoryError.className, classNames]

end LoadCheck

/-- `m` fails exactly where the first of `checks` fails, with that check's error. -/
def FailsFirst {α : Type} (m : Except InventoryError α) (checks : List LoadCheck) : Prop :=
  ∀ e, m = .error e ↔ checks.findSome? LoadCheck.failure = some e

namespace FailsFirst

variable {α β : Type}

/-- A computation that succeeds passed every one of its checks. -/
theorem passed {m : Except InventoryError α} {checks : List LoadCheck}
    (first : FailsFirst m checks) {a : α} (done : m = .ok a) : checks.findSome? LoadCheck.failure = none := by
  cases found : checks.findSome? LoadCheck.failure with
  | none => rfl
  | some e => cases done ▸ (first e).mpr found

/-- A computation that fails only at failing checks succeeds exactly when none fails. -/
theorem isOk_iff {m : Except InventoryError α} {checks : List LoadCheck}
    (first : FailsFirst m checks) : (∃ a, m = .ok a) ↔ ∀ c ∈ checks, c.failure = none := by
  rw [← List.findSome?_eq_none_iff]
  cases m with
  | ok a =>
    simp only [Except.ok.injEq, exists_eq', true_iff]
    exact first.passed rfl
  | error e =>
    simp only [reduceCtorEq, exists_false, false_iff]
    rw [(first e).mp rfl]
    simp

theorem pure (a : α) : FailsFirst (pure a : Except InventoryError α) [] := by
  intro e
  simp [Pure.pure, Except.pure]

theorem bind {m : Except InventoryError α} {f : α → Except InventoryError β}
    {cs ds : List LoadCheck} (first : FailsFirst m cs) (rest : ∀ a, FailsFirst (f a) ds) :
    FailsFirst (m >>= f) (cs ++ ds) := by
  intro e
  rw [List.findSome?_append]
  cases m with
  | error e' =>
    have failed := (first e').mp rfl
    simp only [Bind.bind, Except.bind, Except.error.injEq, failed, Option.some_or,
      Option.some.injEq]
  | ok a =>
    simp only [Bind.bind, Except.bind, first.passed rfl, Option.none_or]
    exact rest a e

/-- A computation that ends by returning a value makes the checks of what it runs first. -/
theorem bind_pure {m : Except InventoryError α} {cs : List LoadCheck} (first : FailsFirst m cs)
    (g : α → β) : FailsFirst (m >>= fun a => Pure.pure (g a)) cs := by
  simpa using first.bind fun a => FailsFirst.pure (g a)

theorem mapM {f : α → Except InventoryError β} {checks : α → List LoadCheck}
    (each : ∀ a, FailsFirst (f a) (checks a)) :
    ∀ l : List α, FailsFirst (l.mapM f) (l.flatMap checks)
  | [] => by simpa using FailsFirst.pure ([] : List β)
  | a :: l => by
    simp only [List.mapM_cons, List.flatMap_cons]
    have tail := mapM each l
    have := (each a).bind (fun b => tail.bind (fun bs => FailsFirst.pure (b :: bs)))
    simpa using this

end FailsFirst

namespace Load

/-- The package kinds read as plain package records, in the order they are read. -/
def plainKinds : List String :=
  ["apt", "deb", "googet", "yum", "zypper", "rpm", "cos", "pip", "gem"]

/-- The checks of a collection object, in the order the loader makes them: the source of every
package record of the plain kinds, kind by kind; then the revision number and the deployment time
of every update; then the install date of every application. A missing member is checked as
`null`, and a missing revision number as `0`. -/
def collectionChecks (o : List (Text × Json)) : List LoadCheck :=
  (plainKinds.flatMap fun kind =>
    (objects o kind).map fun r => .object ((member r "source").getD .null)) ++
  ((objects o "wua").flatMap fun r =>
    [.integer ((member r "revision_number").getD (.int 0)),
      .dateTime ((member r "last_deployment_change_time").getD .null)]) ++
  ((objects o "windows_application").map fun r => .dateTime ((member r "install_date").getD .null))

/-- The checks of a collection member: those of its object, and none for anything else. -/
def memberChecks : Option Json → List LoadCheck
  | some (.obj o) => collectionChecks o
  | _ => []

/-- The checks loading a document makes, in order: the tooling, then the installed collections,
then the update collections. A document that is not an object is checked as an empty one. -/
def checks (v : Json) : List LoadCheck :=
  let o := (v.members?).getD []
  .object ((member o "tooling").getD .null) ::
    (memberChecks (member o "installed_packages") ++ memberChecks (member o "package_updates"))

theorem subObject_failsFirst (o : List (Text × Json)) (name : String) :
    FailsFirst (subObject o name) [.object ((member o name).getD .null)] := by
  intro e
  unfold subObject
  cases member o name with
  | none => simp [LoadCheck.failure, Json.truthy, pure, Except.pure]
  | some v =>
    simp only [Option.getD_some, List.findSome?_cons, List.findSome?_nil, LoadCheck.failure]
    -- a false value reads as no members; a true one must be an object
    cases truthy : v.truthy with
    | false => simp [pure, Except.pure]
    | true =>
      cases v with
      | obj inner => simp [Json.members?, pure, Except.pure]
      | _ => simp [Json.members?, throw, throwThe, MonadExceptOf.throw]

theorem dateTime_failsFirst (o : List (Text × Json)) (name : String) :
    FailsFirst (dateTime o name) [.dateTime ((member o name).getD .null)] := by
  intro e
  unfold dateTime
  cases member o name with
  | none => simp [LoadCheck.failure, Json.truthy, pure, Except.pure]
  | some v =>
    simp only [Option.getD_some, List.findSome?_cons, List.findSome?_nil, LoadCheck.failure]
    cases v.truthy with
    | false => simp [pure, Except.pure]
    | true =>
      cases DateTime.ofIso v.display <;> simp [pure, Except.pure, throw, throwThe,
        MonadExceptOf.throw]

theorem packageRecord_failsFirst (o : List (Text × Json)) :
    FailsFirst (packageRecord o) [.object ((member o "source").getD .null)] :=
  (subObject_failsFirst o "source").bind_pure _

theorem updateRecord_failsFirst (o : List (Text × Json)) :
    FailsFirst (updateRecord o) [.integer ((member o "revision_number").getD (.int 0)),
      .dateTime ((member o "last_deployment_change_time").getD .null)] := by
  intro e
  unfold updateRecord
  rw [List.findSome?_cons]
  -- the revision number is read by a match of its own, which the rest of the record joins
  cases read : ((member o "revision_number").getD (.int 0)).toInteger with
  | error err =>
    simp [LoadCheck.failure, read, Bind.bind, Except.bind, throw, throwThe, MonadExceptOf.throw]
  | ok n =>
    simp only [LoadCheck.failure, read]
    exact (dateTime_failsFirst o _).bind_pure _ e

theorem appRecord_failsFirst (o : List (Text × Json)) :
    FailsFirst (appRecord o) [.dateTime ((member o "install_date").getD .null)] :=
  (dateTime_failsFirst o _).bind_pure _

theorem packageList_failsFirst (o : List (Text × Json)) (name : String) :
    FailsFirst (packageList o name)
      ((objects o name).map fun r => .object ((member r "source").getD .null)) := by
  simpa [packageList, List.map_eq_flatMap] using
    FailsFirst.mapM packageRecord_failsFirst (objects o name)

theorem collections_failsFirst (m : Option Json) :
    FailsFirst (collections m) (memberChecks m) := by
  cases m with
  | none => exact FailsFirst.pure none
  | some v =>
    cases v with
    | obj o =>
      have chain : FailsFirst (collections (some (.obj o))) _ :=
        (packageList_failsFirst o "apt").bind fun _ =>
        (packageList_failsFirst o "deb").bind fun _ =>
        (packageList_failsFirst o "googet").bind fun _ =>
        (packageList_failsFirst o "yum").bind fun _ =>
        (packageList_failsFirst o "zypper").bind fun _ =>
        (packageList_failsFirst o "rpm").bind fun _ =>
        (packageList_failsFirst o "cos").bind fun _ =>
        (packageList_failsFirst o "pip").bind fun _ =>
        (packageList_failsFirst o "gem").bind fun _ =>
        (FailsFirst.mapM updateRecord_failsFirst _).bind fun _ =>
        (FailsFirst.mapM appRecord_failsFirst _).bind_pure _
      simpa [memberChecks, collectionChecks, plainKinds, List.map_eq_flatMap] using chain
    | _ => exact FailsFirst.pure none

end Load

open Load in
theorem Snapshot.ofMembers_failsFirst (o : List (Text × Json)) :
    FailsFirst (Snapshot.ofMembers o)
      (memberChecks (member o "installed_packages") ++
        memberChecks (member o "package_updates")) := by
  exact (collections_failsFirst _).bind fun _ => (collections_failsFirst _).bind_pure _

theorem Collected.ofDocument_failsFirst (v : Json) :
    FailsFirst (Collected.ofDocument v) (Load.checks v) := by
  unfold Collected.ofDocument
  show FailsFirst _ ([_] ++ (_ ++ _))
  refine (Load.subObject_failsFirst _ "tooling").bind fun _ => ?_
  exact (Snapshot.ofMembers_failsFirst _).bind_pure _

/-- Loading a document text fails exactly when the reader refuses the text, with the reader's error,
or when a check of the value read fails, with the error of the first check that fails. -/
theorem Collected.load_eq_error_iff (room : Nat) (doc : Text) (e : InventoryError) :
    Collected.load room doc = .error e ↔
      (∃ r, Json.readWithin room doc = .error r ∧ e = .unreadable doc r) ∨
      ∃ v, Json.readWithin room doc = .ok v ∧
        (Load.checks v).findSome? LoadCheck.failure = some e := by
  unfold Collected.load
  cases Json.readWithin room doc with
  | error r => simp [throw, throwThe, MonadExceptOf.throw, eq_comm]
  | ok v => simpa using Collected.ofDocument_failsFirst v e

/-- Loading a document text for a caller fails exactly where the reader or the first failing check
fails: the reader refuses a text that is not JSON, or that nests deeper than the room the caller's
depth leaves; then the tooling is checked, then the installed collections and then the update
collections, each in the order of `Load.collectionChecks`, skipping non-object list elements and
collections that are not objects. Loading succeeds exactly when the reader accepts the text and no
check fails, and each check fails with an error of the classes it names. -/
theorem SnapshotSource.load_text_fails_at_first_check (depth : Nat) (doc : Text) :
    (∀ e, SnapshotSource.load depth (.text doc) = .error e ↔
      (∃ r, Json.readWithin (SnapshotSource.room depth) doc = .error r ∧ e = .unreadable doc r) ∨
      ∃ v, Json.readWithin (SnapshotSource.room depth) doc = .ok v ∧
        (Load.checks v).findSome? LoadCheck.failure = some e) ∧
    ((∃ c, SnapshotSource.load depth (.text doc) = .ok c) ↔
      ∃ v, Json.readWithin (SnapshotSource.room depth) doc = .ok v ∧
        ∀ c ∈ Load.checks v, c.failure = none) ∧
    ∀ c : LoadCheck, ∀ e, c.failure = some e → e.className ∈ c.classNames := by
  refine ⟨Collected.load_eq_error_iff _ doc, ?_, fun _ _ => LoadCheck.failure_className⟩
  show (∃ c, Collected.load _ doc = .ok c) ↔ _
  unfold Collected.load
  cases Json.readWithin (SnapshotSource.room depth) doc with
  | error r => simp [throw, throwThe, MonadExceptOf.throw]
  | ok v => simpa using (Collected.ofDocument_failsFirst v).isOk_iff

/-- Arrays nested 1001 deep are JSON: their text is the canonical text of a value, and that value
passes every check of the loader. Loading the text is refused all the same, even for a caller at
the outermost frame, as nested too deep, an error of class `RecursionError`. -/
theorem SnapshotSource.load_refuses_deeply_nested_json :
    (Json.nestedArrays 1000).canonical = .ok (Json.bracketsText 1001) ∧
    (∃ c, Collected.ofDocument (Json.nestedArrays 1000) = .ok c) ∧
    SnapshotSource.load 0 (.text (Json.bracketsText 1001)) =
      .error (.unreadable (Json.bracketsText 1001) (.tooDeep true)) ∧
    (InventoryError.unreadable (Json.bracketsText 1001) (.tooDeep true)).className =
      "RecursionError" := by
  -- the outermost caller leaves room for 994 levels
  have deep : SnapshotSource.room 0 < 1001 := by
    unfold SnapshotSource.room stackLimit
    omega
  refine ⟨Json.canonical_nestedArrays 1000, ⟨_, rfl⟩, ?_, rfl⟩
  show Collected.load (SnapshotSource.room 0) (Json.bracketsText 1001) = _
  rw [Collected.load, Json.readWithin_bracketsText deep]
  rfl

end HostInventory
