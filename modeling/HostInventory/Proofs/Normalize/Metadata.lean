import HostInventory.Proofs.Fingerprint.Encodable
/-!
# Sanitizing metadata

Sanitizing a metadata dictionary is a filter: it keeps, in entry order, exactly the entries whose
key is a text and whose value is JSON-representable, each as the plain JSON copy of its value, and
warns once about every other entry, in entry order (`sanitizeMetadata_keeps_representable`).

The copy is representable again. A plain copy holds only finite doubles, and a JSON value with
finite doubles has no problem when it is read back as a datum (`Json.problem_toDatum`), so a
second sanitizing keeps every member as it is and warns about nothing: sanitizing is idempotent.
-/

namespace HostInventory

namespace Datum

/-- Whether sanitizing keeps a metadata entry: its key is a text and its value is
JSON-representable. -/
def keeps : Datum × Datum → Bool
  | (.str _, v) => v.problem.isNone
  | _ => false

/-- The member a kept entry becomes: the key's text and the value's plain copy. -/
def keptMember (entry : Datum × Datum) : Text × Json := (entry.1.display, entry.2.plain)

/-- The warning about a dropped entry, `field` naming the record the metadata belongs to: a key
that is not a text is named by its written form, a value by its key and its problem. -/
def dropWarning (field : Text) : Datum × Datum → Warning
  | (.str key, v) => ⟨field ++ Text.ofString ".metadata." ++ key, v.problem.getD Text.empty⟩
  | (k, _) => ⟨field ++ Text.ofString ".metadata", Text.ofString "non string key " ++ k.written⟩

end Datum

/-! ### Finite JSON values read back as data are representable -/

mutual

/-- A JSON value whose doubles are finite has no problem as a datum. -/
theorem Json.problem_toDatum : (v : Json) → v.finite = true → v.toDatum.problem = none
  | .null, _ => rfl
  | .bool _, _ => rfl
  | .int _, _ => rfl
  | .float x, finite => by
    have passes : Datum.finiteFloat x = true := by rwa [Datum.finiteFloat_eq_isSome]
    simp [Json.toDatum, Datum.problem, passes]
  | .str _, _ => rfl
  | .arr items, finite => by
    simp only [Json.toDatum, Datum.problem]
    exact Json.itemsProblem_toDatumItems 0 items finite
  | .obj members, finite => by
    simp only [Json.toDatum, Datum.problem]
    exact Json.entriesProblem_toDatumMembers members finite

theorem Json.itemsProblem_toDatumItems : (i : Nat) → (items : List Json) →
    Json.finiteItems items = true → Datum.itemsProblem i (Json.toDatumItems items) = none
  | _, [], _ => rfl
  | i, v :: rest, finite => by
    simp only [Json.finiteItems, Bool.and_eq_true] at finite
    simp only [Json.toDatumItems, Datum.itemsProblem, Json.problem_toDatum v finite.1]
    exact Json.itemsProblem_toDatumItems (i + 1) rest finite.2

theorem Json.entriesProblem_toDatumMembers : (members : List (Text × Json)) →
    Json.finiteMembers members = true → Datum.entriesProblem (Json.toDatumMembers members) = none
  | [], _ => rfl
  | (_, v) :: rest, finite => by
    simp only [Json.finiteMembers, Bool.and_eq_true] at finite
    simp only [Json.toDatumMembers, Datum.entriesProblem, Json.problem_toDatum v finite.1]
    exact Json.entriesProblem_toDatumMembers rest finite.2

end

/-! ### Sanitizing as a filter -/

/-- Sanitizing keeps the entries `keeps` accepts, as their plain members, and warns about the
others, both in entry order. -/
theorem sanitizeMetadata_eq_filter (field : Text) : ∀ metadata : List (Datum × Datum),
    sanitizeMetadata field metadata =
      ((metadata.filter Datum.keeps).map Datum.keptMember,
        (metadata.filter (fun entry => !Datum.keeps entry)).map (Datum.dropWarning field))
  | [] => rfl
  | (k, v) :: rest => by
    have restEq := sanitizeMetadata_eq_filter field rest
    cases k with
    | str key =>
      cases clean : v.problem with
      | none =>
        simp [sanitizeMetadata, restEq, Datum.keeps, Datum.keptMember, Datum.display, clean]
      | some p => simp [sanitizeMetadata, restEq, Datum.keeps, Datum.dropWarning, clean]
    | _ => simp [sanitizeMetadata, restEq, Datum.keeps, Datum.dropWarning]

/-- Metadata whose doubles are all finite comes through sanitizing whole, with no warning. -/
theorem sanitizeMetadata_toDatumMembers (field : Text) : ∀ members : List (Text × Json),
    Json.finiteMembers members = true →
      sanitizeMetadata field (Json.toDatumMembers members) = (members, [])
  | [], _ => rfl
  | (k, v) :: rest, finite => by
    simp only [Json.finiteMembers, Bool.and_eq_true] at finite
    simp [Json.toDatumMembers, sanitizeMetadata, sanitizeMetadata_toDatumMembers field rest finite.2,
      Json.problem_toDatum v finite.1, Json.plain_toDatum]

end HostInventory
