import HostInventory.Proofs.Fingerprint.Separation
/-!
# UTF-8 orders texts by code point

The stable fingerprint sorts the UTF-8 octets of its entries, and the canonical writer sorts the
members of an object by the code points of their names. The two orders agree. A lead octet grows
with the length of the sequence it starts (below `0x80` for one octet, `0xC2` to `0xDF` for two,
`0xE0` to `0xEF` for three, `0xF0` on for four), and within one length the octets spell the bits
of the code point from the most significant down. So the octets of a smaller code point are
smaller at the first place where the two differ, whatever follows either
(`Text.utf8Point_append_lt`), and comparing two encoded texts decides at their first differing
code point as the code points do (`Text.lexLt_flatMap_utf8Point`).

Sorting encoded entries therefore orders them as sorting the texts by code point would, which is
how the canonical writer orders member names (`utf8_order_eq_code_point_order`).
-/

namespace HostInventory

namespace Text

/-- Lists with one front compare as what follows it. -/
theorem append_lt_append_left_iff (front : List Nat) {a b : List Nat} :
    front ++ a < front ++ b ↔ a < b := by
  induction front with
  | nil => rfl
  | cons c front ih => simpa using ih

/-- The octets of a smaller code point are smaller, whatever follows either. -/
theorem utf8Point_append_lt {x y : Nat} (lt : x < y) (r r' : List Nat) :
    utf8Point x ++ r < utf8Point y ++ r' := by
  unfold utf8Point
  -- one case per pair of sequence lengths; the first differing octet decides
  split_ifs <;> simp only [List.cons_append, List.nil_append, List.cons_lt_cons_iff] <;> omega

/-- Code points compare as their UTF-8 octets do. -/
theorem flatMap_utf8Point_lt_iff : ∀ xs ys : List Nat,
    xs.flatMap utf8Point < ys.flatMap utf8Point ↔ xs < ys
  | [], [] => by simp
  | [], y :: ys => by
    obtain ⟨lead, rest, word⟩ := List.exists_cons_of_ne_nil (utf8Point_ne_nil y)
    simp [word]
  | _ :: _, [] => by simp
  | x :: xs, y :: ys => by
    rw [List.flatMap_cons, List.flatMap_cons, List.cons_lt_cons_iff]
    rcases Nat.lt_trichotomy x y with lt | rfl | gt
    · exact iff_of_true (utf8Point_append_lt lt _ _) (.inl lt)
    · rw [append_lt_append_left_iff, flatMap_utf8Point_lt_iff xs ys]
      simp
    · refine iff_of_false (List.lt_asymm (utf8Point_append_lt gt _ _)) ?_
      omega

/-- The octet order the stable fingerprint sorts by is the code-point order of the texts. -/
theorem lexLt_flatMap_utf8Point (a b : Text) :
    lexLt (a.points.flatMap utf8Point) (b.points.flatMap utf8Point) = a.before b := by
  rw [before, Bool.eq_iff_iff, lexLt_iff_lt, lexLt_iff_lt, flatMap_utf8Point_lt_iff]

end Text

section Sorting

variable {α : Type} {key : α → Text}

/-- Encoding succeeds with each element's UTF-8 octets. -/
theorem mapM_encoded_eq_map {l : List α} {octets : List (List Nat)}
    (encoded : l.mapM (fun a => (key a).encoded) = .ok octets) :
    octets = l.map fun a => (key a).points.flatMap Text.utf8Point := by
  have pairs : List.Forall₂ (fun a o => (key a).points.flatMap Text.utf8Point = o) l octets :=
    (mapM_eq_ok_iff.mp encoded).imp fun _ _ octetsOf => (Text.encoded_eq_ok octetsOf).symm
  rw [← List.forall₂_map_left_iff, List.forall₂_eq_eq_eq] at pairs
  exact pairs.symm

/-- Sorting by the code points of a key and then encoding the keys sorts their octets. -/
theorem map_mergeSort_utf8Point (l : List α) :
    (l.mergeSort fun a b => !(key b).before (key a)).map
        (fun a => (key a).points.flatMap Text.utf8Point) =
      sortOctets (l.map fun a => (key a).points.flatMap Text.utf8Point) :=
  List.map_mergeSort fun a _ b _ => by rw [Text.lexLt_flatMap_utf8Point]

/-- Keys that all encode still encode once sorted by code point, to their octets sorted. -/
theorem mapM_encoded_mergeSort {l : List α} {octets : List (List Nat)}
    (encoded : l.mapM (fun a => (key a).encoded) = .ok octets) :
    (l.mergeSort fun a b => !(key b).before (key a)).mapM (fun a => (key a).encoded) =
      .ok (sortOctets octets) := by
  obtain ⟨sortedOctets, sortedEncoded, -⟩ :=
    mapM_ok_of_perm (List.mergeSort_perm l _).symm encoded
  rw [sortedEncoded, mapM_encoded_eq_map sortedEncoded, mapM_encoded_eq_map encoded,
    map_mergeSort_utf8Point]

end Sorting

/-- For texts of scalar values, the UTF-8 octets compare as the code points do, and equal octets
come from equal texts. So the stable fingerprint's sort of encoded entries puts them in the order
a sort of the texts by code point gives, and sorting the encoded names of object members orders
them as the canonical writer orders the members. -/
theorem utf8_order_eq_code_point_order :
    (∀ {a b : Text} {oa ob : List Nat}, Text.utf8 a = .ok oa → Text.utf8 b = .ok ob →
      Text.lexLt oa ob = a.before b ∧ (oa = ob ↔ a = b)) ∧
    (∀ {entries : List Text} {octets : List (List Nat)},
      entries.mapM Text.encoded = .ok octets →
        (entries.mergeSort fun a b => !b.before a).mapM Text.encoded = .ok (sortOctets octets)) ∧
    (∀ {α : Type} {members : List (Text × α)} {octets : List (List Nat)},
      members.mapM (fun m => m.1.encoded) = .ok octets →
        (Json.sortMembers members).mapM (fun m => m.1.encoded) = .ok (sortOctets octets)) := by
  refine ⟨fun {a b oa ob} encodedA encodedB => ⟨?_, ?_⟩,
    fun encoded => @mapM_encoded_mergeSort _ id _ _ encoded,
    fun encoded => @mapM_encoded_mergeSort _ Prod.fst _ _ encoded⟩
  · rw [Text.utf8_eq_ok encodedA, Text.utf8_eq_ok encodedB, Text.lexLt_flatMap_utf8Point]
  · constructor
    · intro same
      exact Text.utf8_injective encodedA (same ▸ encodedB)
    · rintro rfl
      exact Except.ok.inj (encodedA.symm.trans encodedB)

/-- U+FFFF sorts before U+1F600 by its octets, as by its code point, though a sort by UTF-16
units would put it after. -/
theorem utf8_orders_bmp_before_astral :
    Text.utf8 ⟨[0xFFFF]⟩ = .ok [0xEF, 0xBF, 0xBF] ∧
      Text.utf8 ⟨[0x1F600]⟩ = .ok [0xF0, 0x9F, 0x98, 0x80] ∧
      Text.lexLt [0xEF, 0xBF, 0xBF] [0xF0, 0x9F, 0x98, 0x80] =
        Text.before ⟨[0xFFFF]⟩ ⟨[0x1F600]⟩ :=
  ⟨rfl, rfl, (utf8_order_eq_code_point_order.1 rfl rfl).1⟩

end HostInventory
