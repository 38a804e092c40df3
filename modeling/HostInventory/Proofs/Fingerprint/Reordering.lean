import HostInventory.Proofs.Json.Canonical
/-!
# Stable fingerprints forget the order of packages

The stable fingerprint digests the operating-system bytes and then the UTF-8 octets of one entry
per package, sorted. The order of the packages therefore cannot matter, nor the list a package
sits in, installed or available. Neither can anything an entry does not read:

* in the current schema, a Windows update's entry reads only its title, update id and revision
  number (`Current.Package.SameIdentity`);
* in the legacy schema, an item's entry is its canonical text, which sorts metadata members by
  name (`Legacy.Item.Equiv`).

Both facts are stated up to failure: when one inventory fails, so does the other. A
current-schema inventory can only fail on a surrogate, since its values hold no doubles.
-/

namespace HostInventory

/-- The octets of the stable fingerprint do not depend on the order of the entries. -/
theorem stableStream_toOption_eq_of_perm {osBytes : List Nat} {e₁ e₂ : List Text}
    (perm : e₁.Perm e₂) :
    (stableStream osBytes e₁).toOption = (stableStream osBytes e₂).toOption := by
  cases encoded : e₁.mapM Text.encoded with
  | ok o₁ =>
    rcases mapM_ok_of_perm perm encoded with ⟨o₂, encoded₂, reordered⟩
    simp [stableStream, encoded, encoded₂, sortOctets_eq_of_perm reordered, bind, Except.bind,
      pure, Except.pure]
  | error e =>
    cases encoded₂ : e₂.mapM Text.encoded with
    | ok o₂ =>
      rcases mapM_ok_of_perm perm.symm encoded₂ with ⟨o₁, encoded₁, -⟩
      simp [encoded] at encoded₁
    | error e' => simp [stableStream, encoded, encoded₂, bind, Except.bind, Except.toOption]

/-- Mapping two lists that hold the same elements up to `related`, in any order, through a
function that agrees on related elements: both fail, or both succeed with reordered results. -/
theorem mapM_toOption_perm_of_reordered {α β ε : Type} {related : α → α → Prop}
    {f : α → Except ε β} (agree : ∀ a b, related a b → f a = f b) {l₁ l₂ : List α}
    (reordered : Relation.Comp (List.Forall₂ related) List.Perm l₁ l₂) :
    (∃ r₁ r₂, l₁.mapM f = .ok r₁ ∧ l₂.mapM f = .ok r₂ ∧ r₁.Perm r₂) ∨
      ((∃ e₁, l₁.mapM f = .error e₁) ∧ ∃ e₂, l₂.mapM f = .error e₂) := by
  rcases reordered with ⟨l, pointwise, perm⟩
  have sameMap : l₁.mapM f = l.mapM f := mapM_eq_of_forall₂ (pointwise.imp agree)
  rw [sameMap]
  cases mapped : l.mapM f with
  | ok r₁ =>
    rcases mapM_ok_of_perm perm mapped with ⟨r₂, mapped₂, perm₂⟩
    exact .inl ⟨r₁, r₂, rfl, mapped₂, perm₂⟩
  | error e₁ =>
    cases mapped₂ : l₂.mapM f with
    | ok r₂ =>
      rcases mapM_ok_of_perm perm.symm mapped₂ with ⟨r, mapped', -⟩
      simp [mapped] at mapped'
    | error e₂ => exact .inr ⟨⟨e₁, rfl⟩, e₂, rfl⟩

/-- The stable stream of an inventory of either schema depends on the operating system and on the
entries up to order: listing elements that are related, in any order, through an entry function
that agrees on related elements gives streams that agree. -/
theorem stableStream_bind_toOption_eq {α : Type} {related : α → α → Prop}
    {entry : α → Except InventoryError Text} (agree : ∀ a b, related a b → entry a = entry b)
    {os : Json} {l₁ l₂ : List α} (reordered : Relation.Comp (List.Forall₂ related) List.Perm l₁ l₂) :
    Except.toOption (do
      let es ← l₁.mapM entry
      let osBytes ← os.encodedBytes
      stableStream osBytes es) =
    Except.toOption (do
      let es ← l₂.mapM entry
      let osBytes ← os.encodedBytes
      stableStream osBytes es) := by
  rcases mapM_toOption_perm_of_reordered agree reordered with
    ⟨r₁, r₂, listed₁, listed₂, perm⟩ | ⟨⟨e₁, failed₁⟩, e₂, failed₂⟩
  · cases os.encodedBytes with
    | ok bytes =>
      simp only [listed₁, listed₂, bind, Except.bind]
      exact stableStream_toOption_eq_of_perm perm
    | error e => simp [listed₁, listed₂, bind, Except.bind, Except.toOption]
  · simp [failed₁, failed₂, bind, Except.bind, Except.toOption]

theorem Text.encoded_error {t : Text} {e : InventoryError} (refused : t.encoded = .error e) :
    ∃ run, e = .unencodable run := by
  cases encoded : Text.utf8 t with
  | ok bytes => simp [Text.encoded, encoded, Except.mapError] at refused
  | error run =>
    simp [Text.encoded, encoded, Except.mapError] at refused
    exact ⟨run, refused.symm⟩

/-- The canonical text of a value whose doubles are finite fails only on a surrogate. -/
theorem Json.encodableText_error {v : Json} (finite : v.finite = true) {e : InventoryError}
    (refused : v.encodableText = .error e) : ∃ run, e = .unencodable run := by
  rcases (Json.canonical_ok_iff v).mpr finite with ⟨t, made⟩
  simp only [Json.encodableText_eq, made] at refused
  exact Text.encoded_error (Except.map_eq_error refused)

/-- The canonical bytes of a value whose doubles are finite fail only on a surrogate. -/
theorem Json.encodedBytes_error {v : Json} (finite : v.finite = true) {e : InventoryError}
    (refused : v.encodedBytes = .error e) : ∃ run, e = .unencodable run := by
  rcases (Json.canonical_ok_iff v).mpr finite with ⟨t, made⟩
  simp only [Json.encodedBytes_eq, made] at refused
  exact Text.encoded_error refused

/-- The stable stream of an inventory of either schema fails only on a text with a surrogate,
provided its entries do and the operating system's wire form has finite doubles only. -/
theorem stableStream_bind_error {α : Type} {l : List α} {entry : α → Except InventoryError Text}
    {os : Json} (entries : ∀ a ∈ l, ∀ e, entry a = .error e → ∃ run, e = .unencodable run)
    (finite : os.finite = true) {e : InventoryError}
    (refused : (do
      let es ← l.mapM entry
      let osBytes ← os.encodedBytes
      stableStream osBytes es) = .error e) :
    ∃ run, e = .unencodable run := by
  -- the entries, then the operating system, then the entries' octets
  rcases Except.bind_eq_error_iff.mp refused with listedFails | ⟨es, -, rest⟩
  · rcases mapM_eq_error listedFails with ⟨a, mem, failed⟩
    exact entries a mem e failed
  rcases Except.bind_eq_error_iff.mp rest with bytesFail | ⟨bytes, -, streamFails⟩
  · exact Json.encodedBytes_error finite bytesFail
  rcases Except.bind_eq_error_iff.mp streamFails with encodeFails | ⟨octets, -, made⟩
  · rcases mapM_eq_error encodeFails with ⟨t, -, failed⟩
    exact Text.encoded_error failed
  · cases made

namespace Current

/-- Packages that stand for one entry of the stable fingerprint by identity: the same package, or
two Windows updates with the same title, update id and revision number. -/
def Package.SameIdentity (p q : Package) : Prop :=
  p = q ∨ ∃ d e, p.details = .update d ∧ q.details = .update e ∧
    d.title = e.title ∧ d.updateId = e.updateId ∧ d.revisionNumber = e.revisionNumber

theorem Package.entry_eq_of_sameIdentity {p q : Package} (same : p.SameIdentity q) :
    p.entry = q.entry := by
  rcases same with rfl | ⟨d, e, updateP, updateQ, title, updateId, revision⟩
  · rfl
  · simp [Package.entry, updateP, updateQ, title, updateId, revision]

/-- The octets of the stable fingerprint depend on the operating system and on the packages up
to order and identity. -/
theorem Inventory.stableStream_toOption_eq {I J : Inventory} (sameOs : J.os = I.os)
    (reordered : Relation.Comp (List.Forall₂ Package.SameIdentity) List.Perm
      (I.installed ++ I.available) (J.installed ++ J.available)) :
    I.stableStream.toOption = J.stableStream.toOption := by
  unfold Inventory.stableStream
  rw [sameOs]
  exact stableStream_bind_toOption_eq (fun _ _ same => Package.entry_eq_of_sameIdentity same)
    reordered

theorem Package.toWire_finite (p : Package) : p.toWire.finite = true := by
  rcases p with ⟨kind, details, _⟩
  cases details with
  | versioned d =>
    cases source : d.source <;> simp [Package.toWire, Details.toWire, Json.record, Json.finite, source]
  | patch d => simp [Package.toWire, Details.toWire, Json.record, Json.finite]
  | update d =>
    cases time : d.lastDeploymentChangeTime <;>
      simp [Package.toWire, Details.toWire, Json.record, Json.finite, time, Json.texts, Timestamp.toWire]
  | hotfix d =>
    cases time : d.installTime <;>
      simp [Package.toWire, Details.toWire, Json.record, Json.finite, time, Timestamp.toWire]
  | application d => simp [Package.toWire, Details.toWire, Json.record, Json.finite, CalendarDate.toWire]

theorem OsInfo.toWire_finite (o : OsInfo) : o.toWire.finite = true := by
  simp [OsInfo.toWire, Json.record, Json.finite]

theorem Package.entry_error {p : Package} {e : InventoryError} (refused : p.entry = .error e) :
    ∃ run, e = .unencodable run := by
  rcases p with ⟨kind, details, fits⟩
  cases details with
  | update d => simp [Package.entry, pure, Except.pure] at refused
  | versioned d => exact Json.encodableText_error (Package.toWire_finite _) refused
  | patch d => exact Json.encodableText_error (Package.toWire_finite _) refused
  | hotfix d => exact Json.encodableText_error (Package.toWire_finite _) refused
  | application d => exact Json.encodableText_error (Package.toWire_finite _) refused

/-- A current-schema inventory fails its stable fingerprint only on a text with a surrogate. -/
theorem Inventory.stableStream_error {I : Inventory} {e : InventoryError}
    (refused : I.stableStream = .error e) : ∃ run, e = .unencodable run :=
  stableStream_bind_error (fun _ _ _ failed => Package.entry_error failed) (OsInfo.toWire_finite _)
    refused

end Current

namespace Legacy

/-- Two items that differ at most in the order of their metadata members. -/
structure Item.Equiv (i j : Item) : Prop where
  name : i.name = j.name
  type : i.type = j.type
  version : i.version = j.version
  purl : i.purl = j.purl
  location : i.location = j.location
  metadata : (Json.obj i.metadata).Equiv (.obj j.metadata)

theorem itemsEquiv_texts : ∀ ts : List Text, Json.ItemsEquiv (ts.map Json.str) (ts.map Json.str)
  | [] => trivial
  | _ :: ts => ⟨rfl, itemsEquiv_texts ts⟩

theorem Item.toWire_equiv {i j : Item} (same : i.Equiv j) : i.toWire.Equiv j.toWire := by
  rcases same with ⟨name, type, version, purl, location, metadata⟩
  refine ⟨by simp only [List.map]; decide, _, ?_, List.Perm.refl _⟩
  simp only [List.map, Json.MembersEquiv, Json.Equiv, name, type, version, purl, location,
    Json.texts, itemsEquiv_texts, true_and, and_true]
  exact metadata

theorem Item.entry_eq_of_equiv {i j : Item} (same : i.Equiv j) : i.entry = j.entry := by
  simp only [Item.entry, Json.encodableText, Json.canonicalText,
    Json.canonical_congr _ _ (Item.toWire_equiv same)]

/-- The octets of the stable fingerprint depend on the operating system and on the items up to
order and the order of metadata members. -/
theorem Inventory.stableStream_toOption_eq {V W : Inventory} (sameOs : W.os = V.os)
    (reordered : Relation.Comp (List.Forall₂ Item.Equiv) List.Perm
      (V.installed ++ V.available) (W.installed ++ W.available)) :
    V.stableStream.toOption = W.stableStream.toOption := by
  unfold Inventory.stableStream
  rw [sameOs]
  exact stableStream_bind_toOption_eq (fun _ _ same => Item.entry_eq_of_equiv same) reordered

end Legacy

end HostInventory
