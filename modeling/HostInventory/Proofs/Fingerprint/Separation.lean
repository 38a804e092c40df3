import HostInventory.Proofs.Json.Delimiting
/-!
# What the stable fingerprint tells apart

The stable stream is the UTF-8 form of the operating system's canonical text followed by the
entries' octets, sorted, with nothing between them. Up to collisions of the digest, two inventories
have one stable fingerprint exactly when they have one stable stream, so what the stream
determines is what the fingerprint separates.

UTF-8 is a prefix code, so the stream determines the code points it encodes. The operating
system's text is a canonical object, which ends at its closing brace (`Json.Closes`), so it is
read off the front of the stream, and as its members are strings under fixed names it determines
the operating system. When every entry is a canonical object too, the rest of the stream splits
into the entries one way, and the entries are determined up to order:

* in the legacy schema every entry is an item's canonical text, so the stream determines the
  items' entries as a multiset (`Legacy.Inventory.stableStream_determines_items`);
* in the current schema a Windows update's entry is the free text `title-updateId-revision`,
  which ends nowhere in particular and is ambiguous in `-`. Without Windows updates the stream
  determines the packages' canonical texts as a multiset
  (`Current.Inventory.stableStream_determines_packages`); with them, updates with different
  identities can give one stream (`Current.stableStream_conflates_update_identities`).
-/

namespace HostInventory

theorem Text.encoded_eq_ok {t : Text} {octets : List Nat} (encoded : t.encoded = .ok octets) :
    octets = t.points.flatMap utf8Point :=
  Text.utf8_eq_ok (Except.mapError_eq_ok_iff.mp encoded)

namespace Json

/-- A value's text that has a UTF-8 form is its canonical text. -/
theorem encodableText_eq_ok {v : Json} {t : Text} (written : v.encodableText = .ok t) :
    v.canonical = .ok t := by
  rw [encodableText_eq] at written
  split at written
  · next u canonical =>
    obtain ⟨_, -, rfl⟩ := Except.map_eq_ok_iff.mp written
    exact canonical
  · cases written

/-- A value's canonical bytes are the UTF-8 octets of its canonical text. -/
theorem encodedBytes_eq_ok {v : Json} {octets : List Nat} (encoded : v.encodedBytes = .ok octets) :
    ∃ t, v.canonical = .ok t ∧ octets = t.points.flatMap Text.utf8Point := by
  rw [encodedBytes_eq] at encoded
  split at encoded
  · next t canonical => exact ⟨t, canonical, Text.encoded_eq_ok encoded⟩
  · cases encoded

end Json

/-- A stable stream: the operating system's octets, then the entries' code points in some order,
in UTF-8. -/
theorem stableStream_eq_ok {osBytes : List Nat} {entries : List Text} {s : List Nat}
    (streamed : stableStream osBytes entries = .ok s) :
    ∃ sorted : List Text, sorted.Perm entries ∧
      s = osBytes ++ ((sorted.map Text.points).flatten).flatMap Text.utf8Point := by
  unfold stableStream at streamed
  obtain ⟨octets, mapped, made⟩ := Except.bind_eq_ok_iff.mp streamed
  cases made
  have octetsOf : entries.map (fun e => e.points.flatMap Text.utf8Point) = octets := by
    have pairs := List.forall₂_map_left_iff.mpr
      ((mapM_eq_ok_iff.mp mapped).imp fun _ _ encoded => (Text.encoded_eq_ok encoded).symm)
    rwa [List.forall₂_eq_eq_eq] at pairs
  let byOctets := fun a b : Text =>
    !Text.lexLt (b.points.flatMap Text.utf8Point) (a.points.flatMap Text.utf8Point)
  have sorted : sortOctets (entries.map fun e => e.points.flatMap Text.utf8Point) =
      (entries.mergeSort byOctets).map fun e => e.points.flatMap Text.utf8Point := by
    symm
    exact List.map_mergeSort (fun _ _ _ _ => rfl)
  refine ⟨entries.mergeSort byOctets, List.mergeSort_perm _ _, ?_⟩
  rw [← octetsOf, sorted]
  -- the octets of each entry in turn are the octets of all of them
  congr 1
  induction entries.mergeSort byOctets with
  | nil => rfl
  | cons e rest ih => simp [ih]

/-- Streams that agree, each the operating-system text and entries that end where their braces
balance: the operating-system texts agree and the entries agree up to order. -/
theorem stableStream_separates {osText osText' : Text} {es fs : List Text} {s : List Nat}
    (osCloses : Json.Closes osText) (osCloses' : Json.Closes osText')
    (entriesClose : ∀ e ∈ es, Json.Closes e) (entriesClose' : ∀ f ∈ fs, Json.Closes f)
    (streamed : stableStream (osText.points.flatMap Text.utf8Point) es = .ok s)
    (streamed' : stableStream (osText'.points.flatMap Text.utf8Point) fs = .ok s) :
    osText = osText' ∧ es.Perm fs := by
  rcases stableStream_eq_ok streamed with ⟨sorted, perm, rfl⟩
  rcases stableStream_eq_ok streamed' with ⟨sorted', perm', same⟩
  rw [← List.flatMap_append, ← List.flatMap_append] at same
  have points := Text.flatMap_utf8Point_injective same
  have closes : ∀ t ∈ osText :: sorted, Json.Closes t := by
    intro t mem
    rcases List.mem_cons.mp mem with rfl | entry
    · exact osCloses
    · exact entriesClose t (perm.subset entry)
  have closes' : ∀ t ∈ osText' :: sorted', Json.Closes t := by
    intro t mem
    rcases List.mem_cons.mp mem with rfl | entry
    · exact osCloses'
    · exact entriesClose' t (perm'.subset entry)
  rcases List.cons.inj (Json.flatten_closes_inj closes closes' points) with ⟨sameOs, sameSorted⟩
  exact ⟨sameOs, perm.symm.trans (sameSorted ▸ perm')⟩

/-- The stable stream of an inventory of either schema, taken apart: the entries, the operating
system's canonical text, and the stream they make. -/
theorem stableStream_bind_eq_ok {entries : Except InventoryError (List Text)} {os : Json}
    {s : List Nat}
    (streamed : (do
      let es ← entries
      let osBytes ← os.encodedBytes
      stableStream osBytes es) = .ok s) :
    ∃ es osText, entries = .ok es ∧ os.canonical = .ok osText ∧
      stableStream (osText.points.flatMap Text.utf8Point) es = .ok s := by
  obtain ⟨es, listed, rest⟩ := Except.bind_eq_ok_iff.mp streamed
  obtain ⟨osBytes, encoded, streamedEs⟩ := Except.bind_eq_ok_iff.mp rest
  obtain ⟨osText, written, rfl⟩ := Json.encodedBytes_eq_ok encoded
  exact ⟨es, osText, listed, written, streamedEs⟩

/-- Streams that agree, each starting with the UTF-8 form of a text that ends where its braces
balance: the texts agree. -/
theorem stableStream_os_eq {osText osText' : Text} {es fs : List Text} {s : List Nat}
    (osCloses : Json.Closes osText) (osCloses' : Json.Closes osText')
    (streamed : stableStream (osText.points.flatMap Text.utf8Point) es = .ok s)
    (streamed' : stableStream (osText'.points.flatMap Text.utf8Point) fs = .ok s) :
    osText = osText' := by
  rcases stableStream_eq_ok streamed with ⟨sorted, -, rfl⟩
  rcases stableStream_eq_ok streamed' with ⟨sorted', -, same⟩
  rw [← List.flatMap_append, ← List.flatMap_append] at same
  exact (osCloses.append_inj osCloses' (Text.flatMap_utf8Point_injective same)).1

namespace Legacy

/-- The operating system is determined by its canonical text. -/
theorem OsInfo.canonical_injective {o o' : OsInfo}
    (same : o.toWire.canonical = o'.toWire.canonical) : o = o' := by
  have fields := @Json.canonical_stringRecord_inj
    [(Text.ofString "host_name", o.hostName, o'.hostName),
      (Text.ofString "long_name", o.longName, o'.longName),
      (Text.ofString "short_name", o.shortName, o'.shortName),
      (Text.ofString "version", o.version, o'.version),
      (Text.ofString "architecture", o.architecture, o'.architecture),
      (Text.ofString "kernel_version", o.kernelVersion, o'.kernelVersion),
      (Text.ofString "kernel_release", o.kernelRelease, o'.kernelRelease),
      (Text.ofString "osconfig_agent_version", o.osconfigAgentVersion, o'.osconfigAgentVersion)]
    same
  cases o
  cases o'
  simp_all

/-- Items' entries are canonical objects, each of which ends at its closing brace. -/
theorem Item.entries_close {items : List Item} {es : List Text}
    (listed : items.mapM Item.entry = .ok es) : ∀ e ∈ es, Json.Closes e := by
  intro e mem
  rcases exists_of_mem_mapM_ok listed mem with ⟨i, -, entry⟩
  exact Json.closes_canonical_obj (Json.encodableText_eq_ok entry)

/-- Inventories with one stable stream have the same operating system, and their items, installed
and available together, have the same entries up to order. -/
theorem Inventory.stableStream_determines_items {V W : Inventory} {s : List Nat}
    (streamed : V.stableStream = .ok s) (streamed' : W.stableStream = .ok s) :
    V.os = W.os ∧
      ((V.installed ++ V.available).map Item.entry).Perm
        ((W.installed ++ W.available).map Item.entry) := by
  rcases stableStream_bind_eq_ok streamed with ⟨es, osText, listed, written, streamedV⟩
  rcases stableStream_bind_eq_ok streamed' with ⟨fs, osText', listed', written', streamedW⟩
  rcases stableStream_separates (Json.closes_canonical_obj written)
    (Json.closes_canonical_obj written') (Item.entries_close listed) (Item.entries_close listed')
    streamedV streamedW with ⟨sameOs, perm⟩
  refine ⟨OsInfo.canonical_injective (by rw [written, written', sameOs]), ?_⟩
  rw [map_eq_of_mapM_eq_ok listed, map_eq_of_mapM_eq_ok listed']
  exact perm.map _

/-- An item moved from the installed list to the available list leaves the stream as it was. -/
theorem Inventory.stableStream_determines_items_moved :
    let item : Item := { name := Text.ofString "bash", type := Text.ofString "deb" }
    let V : Inventory := { installed := [item] }
    let W : Inventory := { available := [item] }
    ∃ s, V.stableStream = .ok s ∧ W.stableStream = .ok s ∧ V.os = W.os ∧
      ((V.installed ++ V.available).map Item.entry).Perm
        ((W.installed ++ W.available).map Item.entry) := by
  intro item V W
  have same : V.stableStream = W.stableStream := rfl
  have succeeds : V.stableStream.isOk = true := by cbv
  rcases Except.exists_eq_ok_of_isOk succeeds with ⟨s, streamed⟩
  have streamed' : W.stableStream = .ok s := same.symm.trans streamed
  exact ⟨s, streamed, streamed', Inventory.stableStream_determines_items streamed streamed'⟩

end Legacy

namespace Current

/-- The operating system is determined by its canonical text. -/
theorem OsInfo.canonical_injective {o o' : OsInfo}
    (same : o.toWire.canonical = o'.toWire.canonical) : o = o' := by
  have fields := @Json.canonical_stringRecord_inj
    [(Text.ofString "hostname", o.hostname, o'.hostname),
      (Text.ofString "long_name", o.longName, o'.longName),
      (Text.ofString "short_name", o.shortName, o'.shortName),
      (Text.ofString "version", o.version, o'.version),
      (Text.ofString "architecture", o.architecture, o'.architecture),
      (Text.ofString "kernel_version", o.kernelVersion, o'.kernelVersion),
      (Text.ofString "kernel_release", o.kernelRelease, o'.kernelRelease),
      (Text.ofString "osconfig_agent_version", o.osconfigAgentVersion, o'.osconfigAgentVersion)]
    same
  cases o
  cases o'
  simp_all

/-- A package other than a Windows update has its canonical text as its entry. -/
theorem Package.entry_of_kind_ne_wua {p : Package} (notUpdate : p.kind ≠ .wua) :
    p.entry = p.toWire.encodableText := by
  rcases p with ⟨kind, details, fits⟩
  cases details with
  | update d =>
    -- only the Windows-update kind carries update details
    cases kind
    case wua => exact absurd rfl notUpdate
    all_goals cases fits
  | _ => rfl

/-- Without Windows updates, the entries of packages are their canonical texts, each a canonical
object. -/
theorem Package.entries_of_no_update {l : List Package} {es : List Text}
    (noUpdates : ∀ p ∈ l, p.kind ≠ .wua) (listed : l.mapM Package.entry = .ok es) :
    (l.map fun p => p.toWire.canonical) = es.map .ok ∧ ∀ e ∈ es, Json.Closes e := by
  have canonical : ∀ p ∈ l, ∀ {e : Text}, p.entry = .ok e → p.toWire.canonical = .ok e := by
    intro p mem e entry
    rw [Package.entry_of_kind_ne_wua (noUpdates p mem)] at entry
    exact Json.encodableText_eq_ok entry
  constructor
  · exact map_eq_of_mapM_eq_ok (mapM_eq_ok_of_agree listed canonical)
  · intro e mem
    rcases exists_of_mem_mapM_ok listed mem with ⟨p, memP, entry⟩
    exact Json.closes_canonical_obj (canonical p memP entry)

/-- Inventories with one stable stream have the same operating system. When neither holds a
Windows update, their packages, installed and available together, have the same canonical texts
up to order. -/
theorem Inventory.stableStream_determines_packages {I J : Inventory} {s : List Nat}
    (streamed : I.stableStream = .ok s) (streamed' : J.stableStream = .ok s) :
    I.os = J.os ∧
      ((∀ p ∈ I.installed ++ I.available, p.kind ≠ .wua) →
        (∀ p ∈ J.installed ++ J.available, p.kind ≠ .wua) →
        ((I.installed ++ I.available).map fun p => p.toWire.canonical).Perm
          ((J.installed ++ J.available).map fun p => p.toWire.canonical)) := by
  rcases stableStream_bind_eq_ok streamed with ⟨es, osText, listed, written, streamedI⟩
  rcases stableStream_bind_eq_ok streamed' with ⟨fs, osText', listed', written', streamedJ⟩
  have osCloses := Json.closes_canonical_obj written
  have osCloses' := Json.closes_canonical_obj written'
  refine ⟨OsInfo.canonical_injective ?_, ?_⟩
  · rw [written, written', stableStream_os_eq osCloses osCloses' streamedI streamedJ]
  · intro noUpdates noUpdates'
    rcases Package.entries_of_no_update noUpdates listed with ⟨textsI, closesI⟩
    rcases Package.entries_of_no_update noUpdates' listed' with ⟨textsJ, closesJ⟩
    rw [textsI, textsJ]
    exact (stableStream_separates osCloses osCloses' closesI closesJ streamedI streamedJ).2.map _

/-- A package moved from the installed list to the available list leaves the stream as it was,
and the packages' canonical texts as they were. -/
theorem Inventory.stableStream_determines_packages_moved :
    let bash : Package := ⟨.apt, .versioned { packageName := Text.ofString "bash" }, rfl⟩
    let I : Inventory := { installed := [bash] }
    let J : Inventory := { available := [bash] }
    ∃ s, I.stableStream = .ok s ∧ J.stableStream = .ok s ∧ I.os = J.os ∧
      ((I.installed ++ I.available).map fun p => p.toWire.canonical).Perm
        ((J.installed ++ J.available).map fun p => p.toWire.canonical) := by
  intro bash I J
  have same : I.stableStream = J.stableStream := rfl
  have succeeds : I.stableStream.isOk = true := by cbv
  rcases Except.exists_eq_ok_of_isOk succeeds with ⟨s, streamed⟩
  have streamed' : J.stableStream = .ok s := same.symm.trans streamed
  have separated := Inventory.stableStream_determines_packages streamed streamed'
  have noUpdates : ∀ p ∈ I.installed ++ I.available, p.kind ≠ .wua := by
    simp [I, bash]
  have noUpdates' : ∀ p ∈ J.installed ++ J.available, p.kind ≠ .wua := by
    simp [J, bash]
  exact ⟨s, streamed, streamed', separated.1, separated.2 noUpdates noUpdates'⟩

/-- Windows updates with the identities `(a-b, c, 1)` and `(a, b-c, 1)` have one entry, so two
inventories that differ only in which of them they hold have one stable stream. -/
theorem stableStream_conflates_update_identities :
    let hyphenInTitle : UpdateDetails :=
      { title := Text.ofString "a-b", updateId := Text.ofString "c", revisionNumber := 1 }
    let hyphenInId : UpdateDetails :=
      { title := Text.ofString "a", updateId := Text.ofString "b-c", revisionNumber := 1 }
    let holding (d : UpdateDetails) : Inventory :=
      { os := { hostname := Text.ofString "h1" }, installed := [⟨.wua, .update d, rfl⟩] }
    (hyphenInTitle.title, hyphenInTitle.updateId, hyphenInTitle.revisionNumber) ≠
        (hyphenInId.title, hyphenInId.updateId, hyphenInId.revisionNumber) ∧
      ∃ s, (holding hyphenInTitle).stableStream = .ok s ∧
        (holding hyphenInId).stableStream = .ok s := by
  intro hyphenInTitle hyphenInId holding
  have differ : (hyphenInTitle.title, hyphenInTitle.updateId, hyphenInTitle.revisionNumber) ≠
      (hyphenInId.title, hyphenInId.updateId, hyphenInId.revisionNumber) := by
    simp only [hyphenInTitle, hyphenInId]
    decide
  -- both entries spell `a-b-c-1`
  have sameEntry : Package.entry ⟨.wua, .update hyphenInTitle, rfl⟩ =
      Package.entry ⟨.wua, .update hyphenInId, rfl⟩ := by
    simp only [Package.entry, hyphenInTitle, hyphenInId]
    congr 1
  have same : (holding hyphenInTitle).stableStream = (holding hyphenInId).stableStream := by
    simp only [Inventory.stableStream, holding, List.append_nil, List.mapM_cons, List.mapM_nil,
      sameEntry]
  have succeeds : (holding hyphenInTitle).stableStream.isOk = true := by cbv
  rcases Except.exists_eq_ok_of_isOk succeeds with ⟨s, streamed⟩
  exact ⟨differ, s, streamed, same.symm.trans streamed⟩

end Current

end HostInventory
