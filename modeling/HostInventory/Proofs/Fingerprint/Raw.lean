import HostInventory.Proofs.Json.Unambiguous
import HostInventory.Proofs.Fingerprint.Reordering
import HostInventory.Proofs.Fingerprint.Separation
/-!
# Raw fingerprints tell inventories apart

The raw fingerprint digests an inventory's canonical bytes. Canonical text reads one way
(`Json.equiv_of_canonical_eq`) and UTF-8 is a prefix code, so two inventories with the same bytes
have equivalent wire forms. The wire form of an inventory is made of records with fixed, distinct
member names, and a record is read back member by member (`Json.Equiv.record_fields`). An
optional member is left out when absent, which changes the number of members, and a package's
single member is named by its kind, whose details have the kind's shape. So the wire form
determines a current-schema inventory, the order of packages included
(`raw_bytes_injective`). A legacy item's metadata is an object of its own and is determined
up to the order of its members only.
-/

namespace HostInventory

theorem Text.ofString_injective : Function.Injective Text.ofString := by
  intro s s' same
  apply String.toList_inj.mp
  apply List.map_injective_iff.mpr (fun _ _ sameCode => Char.toNat_inj.mp sameCode)
  exact congrArg Text.points same

namespace Json

/-! ### Distinct names -/

@[simp] theorem distinct_null : Json.null.Distinct := trivial
@[simp] theorem distinct_bool (b : Bool) : (Json.bool b).Distinct := trivial
@[simp] theorem distinct_int (n : Int) : (Json.int n).Distinct := trivial
@[simp] theorem distinct_float (x : Float) : (Json.float x).Distinct := trivial
@[simp] theorem distinct_str (t : Text) : (Json.str t).Distinct := trivial

theorem itemsDistinct_iff {xs : List Json} : ItemsDistinct xs ↔ ∀ x ∈ xs, x.Distinct := by
  induction xs with
  | nil => simp [ItemsDistinct]
  | cons x xs ih => simp [ItemsDistinct, ih]

theorem membersDistinct_iff {ms : List (Text × Json)} :
    MembersDistinct ms ↔ ∀ m ∈ ms, m.2.Distinct := by
  induction ms with
  | nil => simp [MembersDistinct]
  | cons m ms ih =>
    obtain ⟨_, v⟩ := m
    simp [MembersDistinct, ih]

@[simp] theorem distinct_arr {xs : List Json} : (Json.arr xs).Distinct ↔ ∀ x ∈ xs, x.Distinct :=
  itemsDistinct_iff

theorem record_names (L : List (String × Json)) :
    (L.map fun m => (Text.ofString m.1, m.2)).map Prod.fst = (L.map Prod.fst).map Text.ofString := by
  simp only [List.map_map, Function.comp_def]

/-- A record whose names differ and whose values name each member once names each member
once. -/
theorem distinct_record {L : List (String × Json)} (names : (L.map Prod.fst).Nodup)
    (values : ∀ m ∈ L, m.2.Distinct) : (record L).Distinct := by
  refine ⟨?_, membersDistinct_iff.mpr ?_⟩
  · rw [record_names]
    exact names.map Text.ofString_injective
  · intro m mem
    obtain ⟨n, named, rfl⟩ := List.mem_map.mp mem
    exact values n named

@[simp] theorem distinct_record_iff {L : List (String × Json)} (names : (L.map Prod.fst).Nodup) :
    (record L).Distinct ↔ ∀ m ∈ L, m.2.Distinct :=
  ⟨fun distinct _ mem => membersDistinct_iff.mp distinct.2 _ (List.mem_map_of_mem mem),
    distinct_record names⟩

@[simp] theorem distinct_texts (ts : List Text) : (texts ts).Distinct := by
  simp [texts]

/-! ### Equivalent objects -/

@[simp] theorem equiv_str_iff {a b : Text} : (Json.str a).Equiv (.str b) ↔ a = b := Iff.rfl
@[simp] theorem equiv_int_iff {a b : Int} : (Json.int a).Equiv (.int b) ↔ a = b := Iff.rfl
@[simp] theorem equiv_arr_iff {xs ys : List Json} :
    (Json.arr xs).Equiv (.arr ys) ↔ ItemsEquiv xs ys := Iff.rfl

/-- Equivalent objects name the same members, in some order. -/
theorem Equiv.obj_names_perm {ms ns : List (Text × Json)} (equiv : (obj ms).Equiv (obj ns)) :
    (ms.map Prod.fst).Perm (ns.map Prod.fst) := by
  obtain ⟨-, ls, pointwise, perm⟩ := equiv
  rw [pointwise.names_eq]
  exact perm.map Prod.fst

/-- A permutation that keeps distinct keys in place keeps everything in place. -/
theorem perm_eq_of_keys_eq {α β : Type} : ∀ {l l' : List (α × β)}, l.Perm l' →
    l.map Prod.fst = l'.map Prod.fst → (l.map Prod.fst).Nodup → l = l'
  | [], _, perm, _, _ => perm.nil_eq
  | _ :: _, [], perm, _, _ => absurd perm.length_eq (by simp)
  | a :: t, b :: t', perm, keys, nodup => by
    simp only [List.map_cons, List.cons.injEq] at keys
    rw [List.map_cons, List.nodup_cons] at nodup
    have head : a = b := by
      rcases List.mem_cons.mp (perm.subset List.mem_cons_self) with same | later
      · exact same
      · -- `a` further on would repeat its key
        have key : a.1 ∈ t.map Prod.fst := by
          rw [keys.2]
          exact List.mem_map_of_mem later
        exact absurd key nodup.1
    subst head
    rw [perm_eq_of_keys_eq perm.cons_inv keys.2 nodup.2]

/-- Equivalent objects whose members are named in the same order match member by member. -/
theorem Equiv.obj_members {ms ns : List (Text × Json)} (equiv : (obj ms).Equiv (obj ns))
    (names : ms.map Prod.fst = ns.map Prod.fst) : MembersEquiv ms ns := by
  obtain ⟨nodup, ls, pointwise, perm⟩ := equiv
  have keys : ls.map Prod.fst = ns.map Prod.fst := pointwise.names_eq.symm.trans names
  rw [← perm_eq_of_keys_eq perm keys (pointwise.names_eq ▸ nodup)]
  exact pointwise

theorem membersEquiv_iff_forall₂ : ∀ {ms ns : List (Text × Json)},
    MembersEquiv ms ns ↔ List.Forall₂ (fun m n => m.1 = n.1 ∧ m.2.Equiv n.2) ms ns
  | [], [] => by simp [MembersEquiv]
  | [], _ :: _ => by simp [MembersEquiv]
  | _ :: _, [] => by simp [MembersEquiv]
  | (_, _) :: _, (_, _) :: _ => by simp [MembersEquiv, membersEquiv_iff_forall₂, and_assoc]

/-- Equivalent records with the same names in the same order have equivalent values, member by
member. -/
theorem Equiv.record_fields {L L' : List (String × Json)} (equiv : (record L).Equiv (record L'))
    (names : L.map Prod.fst = L'.map Prod.fst) : List.Forall₂ (fun a b => a.2.Equiv b.2) L L' := by
  have members := equiv.obj_members (by rw [record_names, record_names, names])
  rw [membersEquiv_iff_forall₂, List.forall₂_map_left_iff,
    List.forall₂_map_right_iff] at members
  exact members.imp fun _ _ related => related.2

/-- Items equivalent in order come from related sources where equivalent images do. -/
theorem forall₂_of_itemsEquiv_map {α : Type} {f : α → Json} {R : α → α → Prop}
    (related : ∀ {a b}, (f a).Equiv (f b) → R a b) :
    ∀ {xs ys : List α}, ItemsEquiv (xs.map f) (ys.map f) → List.Forall₂ R xs ys
  | [], [], _ => .nil
  | [], _ :: _, equiv => by simp [ItemsEquiv] at equiv
  | _ :: _, [], equiv => by simp [ItemsEquiv] at equiv
  | _ :: _, _ :: _, equiv => .cons (related equiv.1) (forall₂_of_itemsEquiv_map related equiv.2)

theorem eq_of_itemsEquiv_map {α : Type} {f : α → Json} (inj : ∀ {a b}, (f a).Equiv (f b) → a = b)
    {xs ys : List α} (equiv : ItemsEquiv (xs.map f) (ys.map f)) : xs = ys :=
  List.forall₂_eq_eq_eq ▸ forall₂_of_itemsEquiv_map inj equiv

theorem eq_of_texts_equiv {ts ts' : List Text} (equiv : (texts ts).Equiv (texts ts')) : ts = ts' :=
  eq_of_itemsEquiv_map equiv_str_iff.mp equiv

/-- Values with the same canonical bytes are equivalent, the first naming each member of its
objects once. -/
theorem equiv_of_encodedBytes_eq {v w : Json} {b : List Nat} (distinct : v.Distinct)
    (encodes : v.encodedBytes = .ok b) (encodes' : w.encodedBytes = .ok b) : v.Equiv w := by
  obtain ⟨t, written, octets⟩ := encodedBytes_eq_ok encodes
  obtain ⟨t', written', octets'⟩ := encodedBytes_eq_ok encodes'
  obtain rfl : t = t' :=
    Text.points_injective (Text.flatMap_utf8Point_injective (octets.symm.trans octets'))
  exact equiv_of_canonical_eq distinct written written'

end Json

namespace Current

open Json

theorem Timestamp.eq_of_toWire_equiv {t t' : Timestamp}
    (equiv : (Timestamp.toWire t).Equiv (Timestamp.toWire t')) : t = t' := by
  have fields := equiv.record_fields rfl
  simp only [List.forall₂_cons, equiv_int_iff, List.Forall₂.nil, and_true] at fields
  cases t
  cases t'
  simp_all

theorem CalendarDate.eq_of_toWire_equiv {d d' : CalendarDate}
    (equiv : d.toWire.Equiv d'.toWire) : d = d' := by
  have fields := equiv.record_fields rfl
  simp only [List.forall₂_cons, equiv_int_iff, List.Forall₂.nil, and_true] at fields
  cases d
  cases d'
  simp_all

theorem OsInfo.eq_of_toWire_equiv {o o' : OsInfo} (equiv : o.toWire.Equiv o'.toWire) : o = o' := by
  have fields := equiv.record_fields rfl
  simp only [List.forall₂_cons, equiv_str_iff, List.Forall₂.nil, and_true] at fields
  cases o
  cases o'
  simp_all

theorem Details.versioned_eq_of_toWire_equiv {d d' : Versioned}
    (equiv : (Details.versioned d).toWire.Equiv (Details.versioned d').toWire) : d = d' := by
  obtain ⟨name, architecture, version, source⟩ := d
  obtain ⟨name', architecture', version', source'⟩ := d'
  cases source <;> cases source' <;>
    simp only [Details.toWire, List.cons_append, List.nil_append, List.append_nil] at equiv
  · have fields := equiv.record_fields rfl
    simp only [List.forall₂_cons, equiv_str_iff, List.Forall₂.nil, and_true] at fields
    simp [fields]
  · exact absurd equiv.obj_names_perm.length_eq (by simp)
  · exact absurd equiv.obj_names_perm.length_eq (by simp)
  · rename_i s s'
    have fields := equiv.record_fields rfl
    simp only [List.forall₂_cons, equiv_str_iff, List.Forall₂.nil, and_true] at fields
    have source := fields.2.2.2.record_fields rfl
    simp only [List.forall₂_cons, equiv_str_iff, List.Forall₂.nil, and_true] at source
    cases s
    cases s'
    simp_all

theorem Details.patch_eq_of_toWire_equiv {d d' : PatchDetails}
    (equiv : (Details.patch d).toWire.Equiv (Details.patch d').toWire) : d = d' := by
  have fields := equiv.record_fields rfl
  simp only [List.forall₂_cons, equiv_str_iff, List.Forall₂.nil, and_true] at fields
  cases d
  cases d'
  simp_all

theorem UpdateCategory.eq_of_toWire_equiv {c c' : UpdateCategory}
    (equiv : (Json.record [("id", .str c.id), ("name", .str c.name)]).Equiv
      (Json.record [("id", .str c'.id), ("name", .str c'.name)])) : c = c' := by
  have fields := equiv.record_fields rfl
  simp only [List.forall₂_cons, equiv_str_iff, List.Forall₂.nil, and_true] at fields
  cases c
  cases c'
  simp_all

theorem Details.update_eq_of_toWire_equiv {d d' : UpdateDetails}
    (equiv : (Details.update d).toWire.Equiv (Details.update d').toWire) : d = d' := by
  obtain ⟨title, description, categories, kbArticleIds, supportUrl, moreInfoUrls, updateId,
    revisionNumber, changed⟩ := d
  obtain ⟨title', description', categories', kbArticleIds', supportUrl', moreInfoUrls', updateId',
    revisionNumber', changed'⟩ := d'
  cases changed <;> cases changed' <;>
    simp only [Details.toWire, List.cons_append, List.nil_append, List.append_nil] at equiv
  · have fields := equiv.record_fields rfl
    simp only [List.forall₂_cons, equiv_str_iff, equiv_int_iff, equiv_arr_iff, List.Forall₂.nil,
      and_true] at fields
    obtain ⟨title, description, categories, kb, support, more, update, revision⟩ := fields
    simp only [title, description, eq_of_itemsEquiv_map UpdateCategory.eq_of_toWire_equiv categories,
      eq_of_texts_equiv kb, support, eq_of_texts_equiv more, update, revision]
  · exact absurd equiv.obj_names_perm.length_eq (by simp)
  · exact absurd equiv.obj_names_perm.length_eq (by simp)
  · have fields := equiv.record_fields rfl
    simp only [List.forall₂_cons, equiv_str_iff, equiv_int_iff, equiv_arr_iff, List.Forall₂.nil,
      and_true] at fields
    obtain ⟨title, description, categories, kb, support, more, update, revision, changed⟩ := fields
    simp only [title, description, eq_of_itemsEquiv_map UpdateCategory.eq_of_toWire_equiv categories,
      eq_of_texts_equiv kb, support, eq_of_texts_equiv more, update, revision,
      Timestamp.eq_of_toWire_equiv changed]

theorem Details.hotfix_eq_of_toWire_equiv {d d' : HotfixDetails}
    (equiv : (Details.hotfix d).toWire.Equiv (Details.hotfix d').toWire) : d = d' := by
  obtain ⟨caption, description, hotFixId, installed⟩ := d
  obtain ⟨caption', description', hotFixId', installed'⟩ := d'
  cases installed <;> cases installed' <;>
    simp only [Details.toWire, List.cons_append, List.nil_append, List.append_nil] at equiv
  · have fields := equiv.record_fields rfl
    simp only [List.forall₂_cons, equiv_str_iff, List.Forall₂.nil, and_true] at fields
    simp [fields]
  · exact absurd equiv.obj_names_perm.length_eq (by simp)
  · exact absurd equiv.obj_names_perm.length_eq (by simp)
  · have fields := equiv.record_fields rfl
    simp only [List.forall₂_cons, equiv_str_iff, List.Forall₂.nil, and_true] at fields
    obtain ⟨caption, description, hotFixId, installed⟩ := fields
    simp only [caption, description, hotFixId, Timestamp.eq_of_toWire_equiv installed]

theorem Details.application_eq_of_toWire_equiv {d d' : AppDetails}
    (equiv : (Details.application d).toWire.Equiv (Details.application d').toWire) : d = d' := by
  obtain ⟨name, version, publisher, date, link⟩ := d
  obtain ⟨name', version', publisher', date', link'⟩ := d'
  have fields := equiv.record_fields rfl
  simp only [List.forall₂_cons, equiv_str_iff, List.Forall₂.nil, and_true] at fields
  obtain ⟨name, version, publisher, date, link⟩ := fields
  simp only [name, version, publisher, CalendarDate.eq_of_toWire_equiv date, link]

theorem PackageKind.wireName_injective : Function.Injective PackageKind.wireName := by
  intro k k' same
  cases k <;> cases k' <;> simp_all [PackageKind.wireName]

/-- Details of one shape are determined by their wire form up to equivalence. -/
theorem Details.eq_of_toWire_equiv {d d' : Details} (shape : d.shape = d'.shape)
    (equiv : d.toWire.Equiv d'.toWire) : d = d' := by
  cases d <;> cases d' <;> simp only [Details.shape, reduceCtorEq] at shape
  case versioned.versioned => rw [Details.versioned_eq_of_toWire_equiv equiv]
  case patch.patch => rw [Details.patch_eq_of_toWire_equiv equiv]
  case update.update => rw [Details.update_eq_of_toWire_equiv equiv]
  case hotfix.hotfix => rw [Details.hotfix_eq_of_toWire_equiv equiv]
  case application.application => rw [Details.application_eq_of_toWire_equiv equiv]

/-- A package is determined by its wire form up to equivalence: the member name gives the
kind, and the details are of the kind's shape. -/
theorem Package.eq_of_toWire_equiv {p q : Package} (equiv : p.toWire.Equiv q.toWire) : p = q := by
  obtain ⟨kind, details, fits⟩ := p
  obtain ⟨kind', details', fits'⟩ := q
  have names := equiv.obj_names_perm
  simp only [List.map, List.singleton_perm_singleton] at names
  obtain rfl : kind = kind' := PackageKind.wireName_injective (Text.ofString_injective names)
  have fields := equiv.record_fields rfl
  simp only [List.forall₂_cons, List.Forall₂.nil, and_true] at fields
  obtain rfl := Details.eq_of_toWire_equiv (fits.trans fits'.symm) fields
  rfl

/-- An inventory is determined by its wire form up to equivalence. -/
theorem Inventory.eq_of_toWire_equiv {I J : Inventory} (equiv : I.toWire.Equiv J.toWire) :
    I = J := by
  obtain ⟨os, installed, available⟩ := I
  obtain ⟨os', installed', available'⟩ := J
  have fields := equiv.record_fields rfl
  simp only [List.forall₂_cons, equiv_arr_iff, List.Forall₂.nil, and_true] at fields
  obtain ⟨sameOs, sameInstalled, sameAvailable⟩ := fields
  simp only [OsInfo.eq_of_toWire_equiv sameOs,
    eq_of_itemsEquiv_map Package.eq_of_toWire_equiv sameInstalled,
    eq_of_itemsEquiv_map Package.eq_of_toWire_equiv sameAvailable]

theorem Details.toWire_distinct (d : Details) : d.toWire.Distinct := by
  rcases d with ⟨_, _, _, _ | _⟩ | _ | ⟨_, _, _, _, _, _, _, _, _ | _⟩ | ⟨_, _, _, _ | _⟩ | _ <;>
    simp [Details.toWire, Timestamp.toWire, CalendarDate.toWire]

theorem Inventory.toWire_distinct (I : Inventory) : I.toWire.Distinct := by
  simp [Inventory.toWire, OsInfo.toWire, Package.toWire, Details.toWire_distinct]

end Current

namespace Legacy

open Json

theorem OsInfo.eq_of_toWire_equiv {o o' : OsInfo} (equiv : o.toWire.Equiv o'.toWire) : o = o' := by
  have fields := equiv.record_fields rfl
  simp only [List.forall₂_cons, equiv_str_iff, List.Forall₂.nil, and_true] at fields
  cases o
  cases o'
  simp_all

/-- An item is determined by its wire form up to the order of its metadata members. -/
theorem Item.equiv_of_toWire_equiv {i j : Item} (equiv : i.toWire.Equiv j.toWire) : i.Equiv j := by
  have fields := equiv.record_fields rfl
  simp only [List.forall₂_cons, equiv_str_iff, List.Forall₂.nil, and_true] at fields
  obtain ⟨name, type, version, purl, location, metadata⟩ := fields
  exact ⟨name, type, version, purl, eq_of_texts_equiv location, metadata⟩

/-- Two inventories that differ at most in the order of their items' metadata members. -/
structure Inventory.Equiv (V W : Inventory) : Prop where
  os : V.os = W.os
  installed : List.Forall₂ Item.Equiv V.installed W.installed
  available : List.Forall₂ Item.Equiv V.available W.available

/-- An inventory is determined by its wire form up to the order of metadata members. -/
theorem Inventory.equiv_of_toWire_equiv {V W : Inventory} (equiv : V.toWire.Equiv W.toWire) :
    V.Equiv W := by
  have fields := equiv.record_fields rfl
  simp only [List.forall₂_cons, equiv_arr_iff, List.Forall₂.nil, and_true] at fields
  obtain ⟨sameOs, sameInstalled, sameAvailable⟩ := fields
  exact ⟨OsInfo.eq_of_toWire_equiv sameOs,
    forall₂_of_itemsEquiv_map Item.equiv_of_toWire_equiv sameInstalled,
    forall₂_of_itemsEquiv_map Item.equiv_of_toWire_equiv sameAvailable⟩

theorem Item.toWire_distinct {i : Item} (metadata : (Json.obj i.metadata).Distinct) :
    i.toWire.Distinct := by
  simp [Item.toWire, metadata]

/-- An inventory whose metadata objects name each member once names each member of its wire
form once. -/
theorem Inventory.toWire_distinct {V : Inventory}
    (metadata : ∀ i ∈ V.installed ++ V.available, (Json.obj i.metadata).Distinct) :
    V.toWire.Distinct := by
  simp only [List.mem_append] at metadata
  apply distinct_record (by simp)
  simp only [List.forall_mem_cons, distinct_arr, List.forall_mem_map, List.not_mem_nil,
    IsEmpty.forall_iff, implies_true, and_true]
  exact ⟨by simp [OsInfo.toWire], fun i mem => Item.toWire_distinct (metadata i (.inl mem)),
    fun i mem => Item.toWire_distinct (metadata i (.inr mem))⟩

end Legacy

/-- The raw encodings are injective. A current-schema inventory is determined by its canonical
bytes; a legacy inventory whose metadata objects name each member once is determined up to the
order of metadata members. -/
theorem raw_bytes_injective :
    (∀ {I J : Current.Inventory} {b : List Nat}, I.bytes = .ok b → J.bytes = .ok b → I = J) ∧
    (∀ {V W : Legacy.Inventory} {b : List Nat},
      (∀ i ∈ V.installed ++ V.available, (Json.obj i.metadata).Distinct) →
      V.bytes = .ok b → W.bytes = .ok b → V.Equiv W) := by
  constructor
  · intro I J b encodes encodes'
    exact Current.Inventory.eq_of_toWire_equiv
      (Json.equiv_of_encodedBytes_eq (Current.Inventory.toWire_distinct I) encodes encodes')
  · intro V W b metadata encodes encodes'
    exact Legacy.Inventory.equiv_of_toWire_equiv
      (Json.equiv_of_encodedBytes_eq (Legacy.Inventory.toWire_distinct metadata) encodes encodes')

set_option maxRecDepth 2000 in
/-- Packages listed in another order give other raw bytes, while metadata members listed in
another order give the same bytes and equivalent inventories. -/
theorem raw_bytes_reordered :
    let bash : Current.Package := ⟨.apt, .versioned { packageName := Text.ofString "bash" }, rfl⟩
    let curl : Current.Package := ⟨.apt, .versioned { packageName := Text.ofString "curl" }, rfl⟩
    let I : Current.Inventory := { installed := [bash, curl] }
    let J : Current.Inventory := { installed := [curl, bash] }
    let item (metadata : List (Text × Json)) : Legacy.Item :=
      { name := Text.ofString "bash", type := Text.ofString "deb", metadata }
    let V : Legacy.Inventory :=
      { installed := [item [(Text.ofString "a", .int 1), (Text.ofString "b", .null)]] }
    let W : Legacy.Inventory :=
      { installed := [item [(Text.ofString "b", .null), (Text.ofString "a", .int 1)]] }
    (∃ b, I.bytes = .ok b) ∧ I.bytes ≠ J.bytes ∧ ∃ b, V.bytes = .ok b ∧ W.bytes = .ok b ∧ V.Equiv W := by
  intro bash curl I J item V W
  have encodesI : I.bytes.isOk = true := by cbv
  obtain ⟨b, bytesI⟩ := Except.exists_eq_ok_of_isOk encodesI
  have encodesV : V.bytes.isOk = true := by cbv
  obtain ⟨c, bytesV⟩ := Except.exists_eq_ok_of_isOk encodesV
  have sameBytes : V.bytes = W.bytes := by cbv
  have bytesW : W.bytes = .ok c := sameBytes ▸ bytesV
  have metadata : ∀ i ∈ V.installed ++ V.available, (Json.obj i.metadata).Distinct := by
    simp [V, item, Json.Distinct, Json.MembersDistinct, Text.ofString_injective.eq_iff]
  refine ⟨⟨b, bytesI⟩, ?_, c, bytesV, bytesW, raw_bytes_injective.2 metadata bytesV bytesW⟩
  intro same
  have reordered : I = J := raw_bytes_injective.1 bytesI (same ▸ bytesI)
  have firstDetails := congrArg (fun K : Current.Inventory => K.installed.head?.map (·.details))
    reordered
  simp [I, J, bash, curl, Text.ofString_injective.eq_iff] at firstDetails

end HostInventory
