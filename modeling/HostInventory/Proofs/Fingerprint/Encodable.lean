import HostInventory.Proofs.Json.Surrogates
import HostInventory.Proofs.Fingerprint.Reordering
import HostInventory.Proofs.Normalize.Legacy
/-!
# Normalized inventories always encode, unless a text holds a surrogate

Encoding an inventory can fail in two ways: a double that is not finite has no JSON spelling, and
a text that holds a surrogate has no UTF-8 form. The first never happens to what the normalizers
build. A current-schema inventory holds texts and integers only. A legacy-schema inventory holds
the collector's metadata as well, but only after sanitizing, which keeps the JSON-representable
entries, and a representable datum holds finite doubles only (`Datum.plain_finite`).

So the canonical bytes and the raw fingerprint of a normalized inventory fail exactly when one of
the texts the inventory stores holds a surrogate, the names of metadata members included
(`texts`), and every fingerprint fails only with the encoding failure
(`normalized_encoding_fails_only_on_surrogates`).
-/

namespace HostInventory

/-! ### Representable data hold finite doubles -/

namespace Datum

/-- A double passes the datum check exactly when it has a JSON spelling. -/
theorem finiteFloat_eq_isSome (x : Float) : finiteFloat x = (Json.floatText? x).isSome := by
  unfold finiteFloat Json.floatText?
  cases Binary64.kind x with
  | nan => rfl
  | infinite _ => rfl
  | finite v =>
    dsimp only
    split_ifs <;> rfl

mutual

/-- A representable datum stands for a value whose doubles are all finite. -/
theorem plain_finite : (d : Datum) → d.problem = Option.none → d.plain.finite = true
  | .none, _ => rfl
  | .bool _, _ => rfl
  | .int _, _ => rfl
  | .float x, clean => by
    unfold problem at clean
    split at clean
    · next finite => simpa [plain, Json.finite, finiteFloat_eq_isSome] using finite
    · cases clean
  | .str _, _ => rfl
  | .bytes _, clean => by simp [problem] at clean
  | .list items, clean => by
    simp only [plain, Json.finite]
    exact plainItems_finite 0 items clean
  | .tuple items, clean => by
    simp only [plain, Json.finite]
    exact plainItems_finite 0 items clean
  | .set _, clean => by simp [problem] at clean
  | .object, clean => by simp [problem] at clean
  | .datetime _, clean => by simp [problem] at clean
  | .dict entries, clean => by
    simp only [plain, Json.finite]
    exact plainEntries_finite entries clean

theorem plainItems_finite : (i : Nat) → (items : List Datum) → itemsProblem i items = Option.none →
    Json.finiteItems (plainItems items) = true
  | _, [], _ => rfl
  | i, d :: rest, clean => by
    unfold itemsProblem at clean
    split at clean
    · cases clean
    · next headClean =>
      simp only [plainItems, Json.finiteItems, Bool.and_eq_true]
      exact ⟨plain_finite d headClean, plainItems_finite (i + 1) rest clean⟩

theorem plainEntries_finite : (entries : List (Datum × Datum)) → entriesProblem entries = Option.none →
    Json.finiteMembers (plainEntries entries) = true
  | [], _ => rfl
  | (k, v) :: rest, clean => by
    unfold entriesProblem at clean
    split at clean
    · split at clean
      · cases clean
      · next valueClean =>
        simp only [plainEntries, Json.finiteMembers, Bool.and_eq_true]
        exact ⟨plain_finite v valueClean, plainEntries_finite rest clean⟩
    · cases clean

end

end Datum

/-- Sanitized metadata holds finite doubles only. -/
theorem sanitizeMetadata_finite (field : Text) :
    ∀ entries : List (Datum × Datum), Json.finiteMembers (sanitizeMetadata field entries).1 = true
  | [] => rfl
  | (k, v) :: rest => by
    have restFinite := sanitizeMetadata_finite field rest
    rcases sanitized : sanitizeMetadata field rest with ⟨kept, warnings⟩
    rw [sanitized] at restFinite
    -- an entry is kept only under a text key and with a representable value
    cases k with
    | str key =>
      cases clean : v.problem with
      | some p => simpa [sanitizeMetadata, sanitized, clean] using restFinite
      | none => simpa [sanitizeMetadata, sanitized, clean, Datum.plain_finite v clean] using restFinite
    | _ => simpa [sanitizeMetadata, sanitized] using restFinite

/-! ### The texts an inventory stores -/

namespace Current

/-- The texts of the operating system, field by field. -/
def OsInfo.texts (o : OsInfo) : List Text :=
  [o.hostname, o.longName, o.shortName, o.version, o.architecture, o.kernelVersion,
    o.kernelRelease, o.osconfigAgentVersion]

/-- The texts of package details, field by field; an absent source package stores none. -/
def Details.texts : Details → List Text
  | .versioned d =>
    [d.packageName, d.architecture, d.version] ++
      match d.source with
      | some s => [s.name, s.version]
      | none => []
  | .patch d => [d.patchName, d.category, d.severity, d.summary]
  | .update d =>
    [d.title, d.description] ++ d.categories.flatMap (fun c => [c.id, c.name]) ++
      d.kbArticleIds ++ [d.supportUrl] ++ d.moreInfoUrls ++ [d.updateId]
  | .hotfix d => [d.caption, d.description, d.hotFixId]
  | .application d => [d.displayName, d.displayVersion, d.publisher, d.helpLink]

/-- The texts an inventory stores: the operating system's, then every package's. -/
def Inventory.texts (inv : Inventory) : List Text :=
  inv.os.texts ++ (inv.installed ++ inv.available).flatMap fun p => p.details.texts

theorem OsInfo.toWire_hasSurrogate (o : OsInfo) :
    o.toWire.heldTexts.any Text.hasSurrogate = o.texts.any Text.hasSurrogate := by
  simp [OsInfo.toWire, OsInfo.texts, Json.record, Json.heldTexts]

theorem Details.toWire_hasSurrogate (d : Details) :
    d.toWire.heldTexts.any Text.hasSurrogate = d.texts.any Text.hasSurrogate := by
  cases d with
  | versioned d =>
    cases source : d.source <;>
      simp [Details.toWire, Details.texts, source, Json.record, Json.heldTexts]
  | patch d => simp [Details.toWire, Details.texts, Json.record, Json.heldTexts]
  | update d =>
    cases time : d.lastDeploymentChangeTime <;>
      simp [Details.toWire, Details.texts, time, Json.record, Json.heldTexts, Json.texts,
        Timestamp.toWire, List.any_flatMap, Function.comp_def]
  | hotfix d =>
    cases time : d.installTime <;>
      simp [Details.toWire, Details.texts, time, Json.record, Json.heldTexts, Timestamp.toWire]
  | application d =>
    simp [Details.toWire, Details.texts, Json.record, Json.heldTexts, CalendarDate.toWire]

theorem Package.toWire_hasSurrogate (p : Package) :
    p.toWire.heldTexts.any Text.hasSurrogate = p.details.texts.any Text.hasSurrogate := by
  simp [Package.toWire, Json.record, Json.heldTexts, Details.toWire_hasSurrogate]

theorem Inventory.toWire_hasSurrogate (inv : Inventory) :
    inv.toWire.heldTexts.any Text.hasSurrogate = inv.texts.any Text.hasSurrogate := by
  simp [Inventory.toWire, Inventory.texts, Json.record, Json.heldTexts, List.any_flatMap,
    Function.comp_def, OsInfo.toWire_hasSurrogate, Package.toWire_hasSurrogate]

theorem Inventory.toWire_finite (inv : Inventory) : inv.toWire.finite = true := by
  simp [Inventory.toWire, Json.record, Json.finite, OsInfo.toWire_finite, Package.toWire_finite]

end Current

namespace Legacy

/-- The texts of the operating system, field by field. -/
def OsInfo.texts (o : OsInfo) : List Text :=
  [o.hostName, o.longName, o.shortName, o.version, o.architecture, o.kernelVersion,
    o.kernelRelease, o.osconfigAgentVersion]

/-- The texts of an item: its fields, its locations, and its metadata's names and strings. -/
def Item.texts (i : Item) : List Text :=
  [i.name, i.type, i.version, i.purl] ++ i.location ++ (Json.obj i.metadata).heldTexts

/-- The texts an inventory stores: the operating system's, then every item's. -/
def Inventory.texts (inv : Inventory) : List Text :=
  inv.os.texts ++ (inv.installed ++ inv.available).flatMap Item.texts

theorem OsInfo.toWire_finite (o : OsInfo) : o.toWire.finite = true := by
  simp [OsInfo.toWire, Json.record, Json.finite]

theorem Item.toWire_finite {i : Item} (finite : Json.finiteMembers i.metadata = true) :
    i.toWire.finite = true := by
  simp only [Json.finiteMembers_eq_all] at finite
  simp [Item.toWire, Json.record, Json.finite, Json.texts, finite]

theorem Item.toWire_hasSurrogate (i : Item) :
    i.toWire.heldTexts.any Text.hasSurrogate = i.texts.any Text.hasSurrogate := by
  simp [Item.toWire, Item.texts, Json.record, Json.heldTexts, Json.texts, Function.comp_def]

theorem Inventory.toWire_hasSurrogate (inv : Inventory) :
    inv.toWire.heldTexts.any Text.hasSurrogate = inv.texts.any Text.hasSurrogate := by
  simp [Inventory.toWire, Inventory.texts, OsInfo.texts, OsInfo.toWire, Json.record,
    Json.heldTexts, List.any_flatMap, Function.comp_def, Item.toWire_hasSurrogate]

/-! ### What the legacy normalizer builds -/

/-- Whatever holds of every pairing holds of every element of a pairwise combination. -/
theorem forall_mem_zipWith {α β γ : Type} {f : α → β → γ} {p : γ → Prop} (each : ∀ a b, p (f a b)) :
    ∀ (l₁ : List α) (l₂ : List β), ∀ x ∈ List.zipWith f l₁ l₂, p x
  | [], _, x, mem => by simp at mem
  | _ :: _, [], x, mem => by simp at mem
  | a :: l₁, b :: l₂, x, mem => by
    rcases List.mem_cons.mp mem with rfl | later
    · exact each a b
    · exact forall_mem_zipWith each l₁ l₂ x later

/-- The items built from typed records hold texts, integers, and lists and objects of them. -/
theorem recordItems_finite :
    (∀ p, Json.finiteMembers (Item.ofDeb p).metadata = true) ∧
      (∀ p, Json.finiteMembers (Item.ofRpm p).metadata = true) ∧
      (∀ type p, Json.finiteMembers (Item.ofPlain type p).metadata = true) ∧
      (∀ p, Json.finiteMembers (Item.ofPatch p).metadata = true) ∧
      (∀ u, Json.finiteMembers (Item.ofUpdate u).metadata = true) ∧
      (∀ q, Json.finiteMembers (Item.ofHotfix q).metadata = true) ∧
      ∀ a, Json.finiteMembers (Item.ofApp a).metadata = true := by
  refine ⟨fun _ => rfl, fun _ => rfl, fun _ _ => rfl, fun _ => rfl, ?_, fun _ => rfl, fun _ => rfl⟩
  intro u
  have categories : ∀ x ∈ List.zipWith (fun id name =>
      Json.record [("Id", .str id), ("Name", .str name)]) u.categoryIds u.categories,
      x.finite = true :=
    @forall_mem_zipWith Text Text Json _ (fun x => x.finite = true) (fun _ _ => rfl) _ _
  simpa [Item.ofUpdate, Json.finite, Json.texts, Json.record] using categories

/-- The collector's records keep only sanitized metadata. -/
theorem reportedCollected_finite (items : List CollectedItem) :
    ∀ item ∈ reportedCollected items, Json.finiteMembers item.metadata = true := by
  intro item mem
  obtain ⟨⟨c, i⟩, -, rfl⟩ := List.mem_map.mp mem
  exact sanitizeMetadata_finite _ _

theorem reportedUncovered_finite (c : Option Collections) :
    ∀ item ∈ reportedUncovered c, Json.finiteMembers item.metadata = true := by
  rcases recordItems_finite with ⟨-, -, -, patch, update, hotfix, app⟩
  cases c with
  | none => simp [reportedUncovered]
  | some c =>
    intro item mem
    simp only [reportedUncovered, List.mem_append, List.mem_map] at mem
    rcases mem with ((⟨p, -, rfl⟩ | ⟨u, -, rfl⟩) | ⟨q, -, rfl⟩) | ⟨a, -, rfl⟩
    · exact patch p
    · exact update u
    · exact hotfix q
    · exact app a

theorem reportedAvailable_finite (c : Option Collections) :
    ∀ item ∈ reportedAvailable c, Json.finiteMembers item.metadata = true := by
  rcases recordItems_finite with ⟨deb, rpm, plain, -⟩
  cases c with
  | none => simp [reportedAvailable]
  | some c =>
    intro item mem
    simp only [reportedAvailable, List.mem_append, List.mem_map] at mem
    rcases mem with (((⟨p, -, rfl⟩ | ⟨p, -, rfl⟩) | ⟨p, -, rfl⟩) | ⟨p, -, rfl⟩) | uncovered
    · exact deb p
    · exact plain _ p
    · exact rpm p
    · exact plain _ p
    · exact reportedUncovered_finite (some c) item uncovered

/-- Every item of a legacy-schema inventory a snapshot normalizes to holds finite doubles
only. -/
theorem toLegacy_items_finite (s : Snapshot) :
    ∀ item ∈ s.toLegacy.inventory.installed ++ s.toLegacy.inventory.available,
      Json.finiteMembers item.metadata = true := by
  intro item mem
  simp only [toLegacy_eq, List.mem_append] at mem
  rcases mem with (collected | uncovered) | available
  · exact reportedCollected_finite s.items item collected
  · exact reportedUncovered_finite s.installed item uncovered
  · exact reportedAvailable_finite s.updates item available

/-! ### Encoding legacy-schema inventories -/

theorem Inventory.toWire_finite {inv : Inventory}
    (finite : ∀ i ∈ inv.installed ++ inv.available, Json.finiteMembers i.metadata = true) :
    inv.toWire.finite = true := by
  have installed : ∀ i ∈ inv.installed, i.toWire.finite = true := fun i mem =>
    Item.toWire_finite (finite i (List.mem_append_left _ mem))
  have available : ∀ i ∈ inv.available, i.toWire.finite = true := fun i mem =>
    Item.toWire_finite (finite i (List.mem_append_right _ mem))
  simp only [Inventory.toWire, Json.record, Json.finite, Json.finiteMembers_eq_all,
    Json.finiteItems_eq_all, List.map_cons, List.map_nil, List.all_cons, List.all_nil,
    List.all_map, OsInfo.toWire_finite, Bool.true_and, Bool.and_true, Bool.and_eq_true,
    List.all_eq_true, Function.comp_apply]
  exact ⟨installed, available⟩

theorem Inventory.bytes_isOk_iff {inv : Inventory}
    (finite : ∀ i ∈ inv.installed ++ inv.available, Json.finiteMembers i.metadata = true) :
    (∃ octets, inv.bytes = .ok octets) ↔ inv.texts.any Text.hasSurrogate = false := by
  rw [← Inventory.toWire_hasSurrogate]
  exact Json.encodedBytes_isOk_iff (Inventory.toWire_finite finite)

theorem Inventory.stableStream_error {inv : Inventory}
    (finite : ∀ i ∈ inv.installed ++ inv.available, Json.finiteMembers i.metadata = true)
    {e : InventoryError} (refused : inv.stableStream = .error e) : ∃ run, e = .unencodable run :=
  stableStream_bind_error
    (fun i mem _ failed => Json.encodableText_error (Item.toWire_finite (finite i mem)) failed)
    (OsInfo.toWire_finite _) refused

end Legacy

/-! ### Encoding current-schema inventories -/

theorem Current.Inventory.bytes_isOk_iff (inv : Current.Inventory) :
    (∃ octets, inv.bytes = .ok octets) ↔ inv.texts.any Text.hasSurrogate = false := by
  rw [← Current.Inventory.toWire_hasSurrogate]
  exact Json.encodedBytes_isOk_iff inv.toWire_finite

/-- The inventories a snapshot normalizes to, in either schema, have canonical bytes and a raw
fingerprint exactly when no text they store holds a surrogate, and when an encoding or any
fingerprint of them fails, it fails on a surrogate and on nothing else: no double that is not
finite and no value JSON cannot hold reaches the encoder. -/
theorem normalized_encoding_fails_only_on_surrogates (s : Snapshot) (tooling : Tooling)
    (policy : RpmPolicy) :
    let I := (s.toCurrent tooling policy).inventory
    let V := s.toLegacy.inventory
    ((∃ octets, I.bytes = .ok octets) ↔ I.texts.any Text.hasSurrogate = false) ∧
      ((∃ d, I.rawFingerprint = .ok d) ↔ I.texts.any Text.hasSurrogate = false) ∧
      ((∃ octets, V.bytes = .ok octets) ↔ V.texts.any Text.hasSurrogate = false) ∧
      ((∃ d, V.rawFingerprint = .ok d) ↔ V.texts.any Text.hasSurrogate = false) ∧
      ∀ e, (I.bytes = .error e ∨ I.rawFingerprint = .error e ∨ I.stableFingerprint = .error e ∨
        V.bytes = .error e ∨ V.rawFingerprint = .error e ∨ V.stableFingerprint = .error e) →
        ∃ run, e = .unencodable run := by
  intro I V
  have finite := Legacy.toLegacy_items_finite s
  refine ⟨I.bytes_isOk_iff, ?_, Legacy.Inventory.bytes_isOk_iff finite, ?_, ?_⟩
  · rw [Current.Inventory.rawFingerprint, Except.map_isOk_iff]
    exact I.bytes_isOk_iff
  · rw [Legacy.Inventory.rawFingerprint, Except.map_isOk_iff]
    exact Legacy.Inventory.bytes_isOk_iff finite
  · intro e failed
    rcases failed with bytes | raw | stable | bytes | raw | stable
    · exact Json.encodedBytes_error I.toWire_finite bytes
    · exact Json.encodedBytes_error I.toWire_finite (Except.map_eq_error raw)
    · exact Current.Inventory.stableStream_error (Except.map_eq_error stable)
    · exact Json.encodedBytes_error (Legacy.Inventory.toWire_finite finite) bytes
    · exact Json.encodedBytes_error (Legacy.Inventory.toWire_finite finite) (Except.map_eq_error raw)
    · exact Legacy.Inventory.stableStream_error finite (Except.map_eq_error stable)

end HostInventory
