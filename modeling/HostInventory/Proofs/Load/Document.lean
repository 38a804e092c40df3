import HostInventory.Proofs.Normalize.Agreement
import HostInventory.Proofs.Fingerprint.Raw
import HostInventory.Proofs.Json.Nesting
import HostInventory.Inventory.Load
import HostInventory.Stack.Snapshot
/-!
# A snapshot's document reads back

The document form of a snapshot lists every field under the name the loader reads it by, texts as
strings, lists of texts as arrays of strings, revision numbers as integers, missing collections as
`null` and date-times as ISO texts. Loading that document gives the snapshot again
(`Snapshot.toDocument_reads_back`), field for field, floats in the metadata bit for bit and
date-times with their offsets.

The proof has two halves that meet at `Snapshot.DatesValid`: every date-time in the snapshot is one
the ISO reader gives. The loader only gives such snapshots (`Snapshot.ofMembers_valid`), and every
such snapshot reads back from its document (`Snapshot.ofMembers_toDocument`), record by record
(`Load.packageRecord_toDocument`, ..., `Load.collections_toDocument`).

Writing the document is a traversal of the items' metadata, and the stack bounds it: metadata
nested some five hundred arrays deep loads, but its document cannot be written
(`Snapshot.document_of_deep_metadata_overflows`).
-/

namespace HostInventory

/-! ### Reading a record back -/

namespace Load

@[simp] theorem ofString_beq (a b : String) : (Text.ofString a == Text.ofString b) = (a == b) := by
  simp [Text.ofString_injective.eq_iff]

@[simp] theorem display_str (t : Text) : (Json.str t).display = t := rfl

@[simp] theorem members?_obj (ms : List (Text × Json)) : (Json.obj ms).members? = some ms := rfl

theorem packageRecord_toDocument (p : PackageRecord) :
    packageRecord ((p.toDocument.members?).getD []) = .ok p := by
  simp [PackageRecord.toDocument, Json.record, Json.members?, packageRecord, subObject, text,
    member, List.find?, Json.truthy, bind, Except.bind, pure, Except.pure]

theorem patchRecord_toDocument (p : PatchRecord) :
    patchRecord ((p.toDocument.members?).getD []) = p := by
  simp [PatchRecord.toDocument, Json.record, Json.members?, patchRecord, text, member, List.find?]

theorem hotfixRecord_toDocument (q : HotfixRecord) :
    hotfixRecord ((q.toDocument.members?).getD []) = q := by
  simp [HotfixRecord.toDocument, Json.record, Json.members?, hotfixRecord, text, member, List.find?]

theorem isoText_isEmpty (d : DateTime) : d.isoText.isEmpty = false := by
  simp [Text.isEmpty, DateTime.isoText_points]

/-- A date-time member written as the ISO text of a date-time the reader gives reads back as
that date-time, and a `null` one as none. -/
theorem dateTime_eq {o : List (Text × Json)} {name : String} {when : Option DateTime}
    (found : member o name = some (Json.dateTime? when))
    (valid : ∀ d, when = some d → d.Valid) :
    dateTime o name = .ok when := by
  cases when with
  | none => simp [dateTime, found, Json.dateTime?, Json.truthy, pure, Except.pure]
  | some d =>
    simp [dateTime, found, Json.dateTime?, Json.truthy, isoText_isEmpty,
      DateTime.ofIso_isoText (valid d rfl), pure, Except.pure]

theorem updateRecord_toDocument (u : UpdateRecord)
    (valid : ∀ d, u.lastDeploymentChangeTime = some d → d.Valid) :
    updateRecord ((u.toDocument.members?).getD []) = .ok u := by
  have found : member ((u.toDocument.members?).getD []) "last_deployment_change_time" =
      some (Json.dateTime? u.lastDeploymentChangeTime) := by
    simp [UpdateRecord.toDocument, Json.record, Json.members?, member, List.find?]
  simp only [updateRecord, dateTime_eq found valid]
  simp [UpdateRecord.toDocument, Json.record,
    Json.members?, text, texts, member, List.find?, Json.texts, Json.toInteger, Function.comp_def,
    bind, Except.bind, pure, Except.pure]

theorem appRecord_toDocument (a : AppRecord) (valid : ∀ d, a.installDate = some d → d.Valid) :
    appRecord ((a.toDocument.members?).getD []) = .ok a := by
  have found : member ((a.toDocument.members?).getD []) "install_date" =
      some (Json.dateTime? a.installDate) := by
    simp [AppRecord.toDocument, Json.record, Json.members?, member, List.find?]
  simp only [appRecord, dateTime_eq found valid]
  simp [AppRecord.toDocument, Json.record, Json.members?, text,
    member, List.find?, bind, Except.bind, pure, Except.pure]

/-- Records written as object documents, in a list, read back record by record. -/
theorem mapM_objects_of_documents {α : Type} (doc : α → Json)
    {read : List (Text × Json) → Except InventoryError α}
    (objectDoc : ∀ a, ∃ ms, doc a = .obj ms) :
    ∀ {l : List α}, (∀ a ∈ l, read ((doc a).members?.getD []) = .ok a) →
      (l.filterMap fun a => (doc a).members?).mapM read = .ok l
  | [], _ => rfl
  | a :: l, reads => by
    obtain ⟨ms, isObj⟩ := objectDoc a
    have first := reads a List.mem_cons_self
    simp only [isObj, members?_obj, Option.getD_some] at first
    simp only [List.filterMap_cons, isObj, members?_obj, List.mapM_cons]
    rw [first,
      mapM_objects_of_documents doc objectDoc (fun b mem => reads b (List.mem_cons_of_mem a mem))]
    rfl

/-- Records that always read, written as object documents, read back record by record. -/
theorem map_objects_of_documents {α : Type} (doc : α → Json) {read : List (Text × Json) → α}
    (objectDoc : ∀ a, ∃ ms, doc a = .obj ms)
    (reads : ∀ a, read ((doc a).members?.getD []) = a) :
    ∀ l : List α, (l.filterMap fun a => (doc a).members?).map read = l
  | [] => rfl
  | a :: l => by
    obtain ⟨ms, isObj⟩ := objectDoc a
    have first := reads a
    simp only [isObj, members?_obj, Option.getD_some] at first
    simp only [List.filterMap_cons, isObj, members?_obj, List.map_cons]
    rw [first, map_objects_of_documents doc objectDoc reads l]

theorem collections_toDocument (c : Collections) (valid : c.DatesValid) :
    collections (some c.toDocument) = .ok (some c) := by
  obtain ⟨updatesValid, appsValid⟩ := valid
  have packages (l : List PackageRecord) :=
    mapM_objects_of_documents PackageRecord.toDocument (fun _ => ⟨_, rfl⟩) (l := l)
      (fun p _ => packageRecord_toDocument p)
  have updates := mapM_objects_of_documents UpdateRecord.toDocument (fun _ => ⟨_, rfl⟩)
    (fun u mem => updateRecord_toDocument u (updatesValid u mem))
  have apps := mapM_objects_of_documents AppRecord.toDocument (fun _ => ⟨_, rfl⟩)
    (fun a mem => appRecord_toDocument a (appsValid a mem))
  have patches := map_objects_of_documents PatchRecord.toDocument (fun _ => ⟨_, rfl⟩)
    patchRecord_toDocument c.zypperPatches
  have hotfixes := map_objects_of_documents HotfixRecord.toDocument (fun _ => ⟨_, rfl⟩)
    hotfixRecord_toDocument c.qfe
  simp [collections, Collections.toDocument, Json.record, packageList, objects, member, List.find?,
    packages, updates, apps, patches, hotfixes, bind, Except.bind, pure, Except.pure]

theorem collectedItem_toDocument (i : CollectedItem) :
    collectedItem ((i.toDocument.members?).getD []) = i := by
  simp [collectedItem, CollectedItem.toDocument, Json.record, text, texts, member, List.find?,
    Json.texts, Function.comp_def]

/-- A collection that is `null` is missing. -/
theorem collections_null : collections (some .null) = .ok none := rfl

end Load

/-! ### Date-times the loader gives -/

namespace Load

theorem dateTime_valid {o : List (Text × Json)} {name : String} {d : DateTime}
    (read : dateTime o name = .ok (some d)) : d.Valid := by
  unfold dateTime at read
  split at read
  · cases read
  · split_ifs at read
    · cases read
    · split at read
      · next parsed =>
        cases read
        exact DateTime.ofIso_valid parsed
      · cases read

theorem updateRecord_valid {o : List (Text × Json)} {u : UpdateRecord}
    (read : updateRecord o = .ok u) : ∀ d, u.lastDeploymentChangeTime = some d → d.Valid := by
  intro d deployed
  unfold updateRecord at read
  -- the revision number is read first, and a failure there gives no record
  split at read
  · obtain ⟨n, -, rest⟩ := Except.bind_eq_ok_iff.mp read
    obtain ⟨when, dated, made⟩ := Except.bind_eq_ok_iff.mp rest
    cases made
    cases deployed
    exact dateTime_valid dated
  · cases read

theorem appRecord_valid {o : List (Text × Json)} {a : AppRecord}
    (read : appRecord o = .ok a) : ∀ d, a.installDate = some d → d.Valid := by
  intro d installed
  obtain ⟨when, dated, made⟩ := Except.bind_eq_ok_iff.mp read
  cases made
  cases installed
  exact dateTime_valid dated

theorem collections_valid {v : Option Json} {c : Collections}
    (read : collections v = .ok (some c)) : c.DatesValid := by
  unfold collections at read
  split at read
  · -- the nine simple lists, then the updates and the applications
    iterate 9 obtain ⟨_, -, read⟩ := Except.bind_eq_ok_iff.mp read
    obtain ⟨wua, updates, read⟩ := Except.bind_eq_ok_iff.mp read
    obtain ⟨apps, applications, read⟩ := Except.bind_eq_ok_iff.mp read
    cases read
    refine ⟨fun u mem => ?_, fun a mem => ?_⟩
    · obtain ⟨_, -, readU⟩ := exists_of_mem_mapM_ok updates mem
      exact updateRecord_valid readU
    · obtain ⟨_, -, readA⟩ := exists_of_mem_mapM_ok applications mem
      exact appRecord_valid readA
  · cases read

end Load

/-- The loader gives only date-times the ISO reader gives. -/
theorem Snapshot.ofMembers_valid {o : List (Text × Json)} {s : Snapshot}
    (read : Snapshot.ofMembers o = .ok s) : s.DatesValid := by
  obtain ⟨installed, readInstalled, rest⟩ := Except.bind_eq_ok_iff.mp read
  obtain ⟨updates, readUpdates, made⟩ := Except.bind_eq_ok_iff.mp rest
  cases made
  refine ⟨fun c (known : installed = some c) => ?_, fun c (known : updates = some c) => ?_⟩
  · exact Load.collections_valid (known ▸ readInstalled)
  · exact Load.collections_valid (known ▸ readUpdates)

/-! ### The round trip -/

open Load in
/-- A snapshot whose date-times the ISO reader gives reads back from its document. -/
theorem Snapshot.ofMembers_toDocument (s : Snapshot) (valid : s.DatesValid) :
    Snapshot.ofMembers ((s.toDocument.members?).getD []) = .ok s := by
  have items := map_objects_of_documents CollectedItem.toDocument (fun _ => ⟨_, rfl⟩)
    collectedItem_toDocument s.items
  obtain ⟨installedValid, updatesValid⟩ := valid
  -- a collection is written as its document and a missing one as `null`; both read back
  have collection : ∀ (name : String) (c : Option Collections),
      (∀ c', c = some c' → c'.DatesValid) →
      member ((s.toDocument.members?).getD []) name = some (c.elim .null Collections.toDocument) →
      collections (member ((s.toDocument.members?).getD []) name) = .ok c := by
    rintro name (_ | c) valid found <;> rw [found]
    · exact collections_null
    · exact collections_toDocument c (valid c rfl)
  have installed := collection "installed_packages" s.installed installedValid (by
    cases known : s.installed <;>
      simp [Snapshot.toDocument, known, Json.record, member, List.find?])
  have updates := collection "package_updates" s.updates updatesValid (by
    cases known : s.updates <;>
      simp [Snapshot.toDocument, known, Json.record, member, List.find?])
  simp only [Snapshot.ofMembers, installed, updates]
  simp [Snapshot.toDocument, Json.record, text, objects, member, List.find?, items, bind,
    Except.bind, pure, Except.pure]

/-- A snapshot's document reads back as the snapshot. Whenever a snapshot document loads as `s`,
the document form of `s` is an object, and loading it gives `s` again. -/
theorem Snapshot.toDocument_reads_back {o : List (Text × Json)} {s : Snapshot}
    (loaded : Snapshot.ofMembers o = .ok s) :
    ∃ ms, s.toDocument = .obj ms ∧ Snapshot.ofMembers ms = .ok s :=
  ⟨_, rfl, Snapshot.ofMembers_toDocument s (Snapshot.ofMembers_valid loaded)⟩

/-- A host name and an empty collection object load, and read back from the document written. -/
theorem Snapshot.hostDocument_reads_back :
    Snapshot.ofMembers [(Text.ofString "hostname", .str (Text.ofString "h1")),
        (Text.ofString "installed_packages", .obj [])] =
      .ok { hostname := Text.ofString "h1", installed := some {} } ∧
    ∃ ms, ({ hostname := Text.ofString "h1", installed := some {} } : Snapshot).toDocument = .obj ms ∧
      Snapshot.ofMembers ms = .ok { hostname := Text.ofString "h1", installed := some {} } := by
  refine ⟨?loaded, Snapshot.toDocument_reads_back ?loaded⟩
  rfl

/-! ### Metadata too deep to write -/

/-- Metadata nested 501 arrays deep loads, but writing the snapshot's document fills the stack,
even for a writer whose frame is right above the program's outermost one. -/
theorem Snapshot.document_of_deep_metadata_overflows :
    Snapshot.ofMembers [(Text.ofString "new_installed_packages",
        .arr [.obj [(Text.ofString "metadata", .obj [(Text.ofString "a", Json.nestedArrays 500)])]])] =
      .ok { items := [{ name := Text.empty, metadata := [(Text.ofString "a", Json.nestedArrays 500)] }] } ∧
    Snapshot.documentChecks 2
        { items := [{ name := Text.empty, metadata := [(Text.ofString "a", Json.nestedArrays 500)] }] } =
      .error .call := by
  refine ⟨rfl, ?_⟩
  have deep : Json.recordChecks 10 (Json.nestedArrays 500) = .error .call :=
    Json.recordChecks_nestedArrays (by decide)
  simp [Snapshot.documentChecks, Json.recordScalarChecks, StackCheck.at, stackLimit, deep,
    List.forM, bind, Except.bind, pure, Except.pure]

end HostInventory
