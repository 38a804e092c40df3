import HostInventory.Stack.Metadata
import HostInventory.Inventory.Snapshot
/-!
# Stack use of the snapshot's metadata

Only the free-form metadata of collected items can nest arbitrarily deep, so only the operations
that walk it can find the stack full: the legacy normalization, which sanitizes every entry, and
writing the snapshot as a plain document. Each takes the stack depth of its own frame, and its
checks follow the traversals of `HostInventory.Stack.Metadata` at fixed distances below it.
-/

namespace HostInventory

/-- The checks of normalizing a snapshot into the legacy schema from a normalizer frame at
`depth`. The metadata of every collected item is sanitized entry by entry five frames below it
(through the installed items, their comprehension, the item and the sanitizer): the value is
searched for a problem and, when it has none, copied. -/
def Snapshot.legacyChecks (depth : Nat) (s : Snapshot) : Except StackCheck Unit :=
  s.items.forM fun item => item.metadata.forM fun (_, v) => do
    if !(← Json.problemSearch (depth + 5) v) then Json.copyChecks (depth + 5) v

/-- The checks of writing a snapshot as a plain document from a frame at `depth`. The snapshot is
first converted into dictionaries, which reaches every metadata entry, key then value, eight frames
below it; the result then has dates and enumerations replaced, which reaches every metadata value
nine frames below it. -/
def Snapshot.documentChecks (depth : Nat) (s : Snapshot) : Except StackCheck Unit := do
  s.items.forM fun item => item.metadata.forM fun (_, v) => do
    Json.recordScalarChecks (depth + 8)
    Json.recordChecks (depth + 8) v
  s.items.forM fun item => item.metadata.forM fun (_, v) => Json.plainChecks (depth + 9) v

end HostInventory
