import HostInventory.Datum.Problem
/-!
# Normalization warnings

Normalizing never fails on the quality of what was collected. A field that cannot be carried over
is dropped, and a warning names it by its dotted path into the snapshot (such as
`installed_packages.qfe[0].installed_on`) and says why. Metadata is sanitized the same way: each
entry whose key is not a text, or whose value is not JSON-representable, is dropped with a
warning, and the other entries are kept in order.
-/

namespace HostInventory

/-- One dropped field: its dotted path and the reason. -/
structure Warning where
  field : Text
  message : Text
deriving DecidableEq, Inhabited

/-- A normalized inventory with the warnings about what was dropped. -/
structure Normalized (α : Type) where
  inventory : α
  warnings : List Warning

/-- Whether nothing was dropped. -/
def Normalized.ok {α : Type} (n : Normalized α) : Bool := n.warnings.isEmpty

/-- A normalization is clean exactly when it has no warning. -/
theorem Normalized.ok_iff {α : Type} (n : Normalized α) : n.ok = true ↔ n.warnings = [] := by
  simp [Normalized.ok]

/-- The JSON form of a warning. -/
def Warning.toJson (w : Warning) : Json :=
  Json.record [("field", .str w.field), ("message", .str w.message)]

/-- The path of an element of an indexed collection field: `field[i]`. -/
def indexed (field : String) (i : Nat) : Text :=
  Text.ofString field ++ Text.ofString "[" ++ Text.ofNat i ++ Text.ofString "]"

/-- The entries of a metadata dictionary that are JSON-representable under text keys, as JSON
members, with a warning for each other entry; `field` names the record the metadata belongs
to. -/
def sanitizeMetadata (field : Text) : List (Datum × Datum) → List (Text × Json) × List Warning
  | [] => ([], [])
  | (k, v) :: rest =>
    let (clean, warnings) := sanitizeMetadata field rest
    match k with
    | .str key =>
      match v.problem with
      | some p => (clean, ⟨field ++ Text.ofString ".metadata." ++ key, p⟩ :: warnings)
      | none => ((key, v.plain) :: clean, warnings)
    | _ =>
      (clean, ⟨field ++ Text.ofString ".metadata", Text.ofString "non string key " ++ k.written⟩ ::
        warnings)

end HostInventory
