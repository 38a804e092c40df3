import HostInventory.Text.Basic
/-!
# Attribute stores

An attribute store keeps instance attributes by path: scalar fields as texts stored verbatim,
structured fields as their canonical JSON text (a real store keeps it compressed, which changes
nothing about what is stored). The store in this library is held in memory: it records every path
a write was attempted at, in order, and refuses the writes at the paths it is told to refuse, after
recording the attempt. A write at a path already held replaces the value in place.
-/

namespace HostInventory

/-- A stored attribute value. -/
inductive AttributeValue where
  /-- A scalar field, verbatim. -/
  | text (value : Text)
  /-- A structured field, as its canonical JSON text. -/
  | json (value : Text)
deriving DecidableEq, Inhabited

/-- An attribute store held in memory. -/
structure AttributeStore where
  /-- The paths whose writes are refused. -/
  failing : List Text := []
  /-- The attributes held, by path, in order of first write. -/
  attributes : List (Text × AttributeValue) := []
  /-- Every path a write was attempted at, in order. -/
  attempts : List Text := []
deriving DecidableEq, Inhabited

namespace AttributeStore

/-- Attributes with a value stored at a path: replaced in place, or appended. -/
def storeAt (path : Text) (v : AttributeValue) :
    List (Text × AttributeValue) → List (Text × AttributeValue)
  | [] => [(path, v)]
  | (p, w) :: rest => if p == path then (p, v) :: rest else (p, w) :: storeAt path v rest

/-- The message of a refused write. -/
def refusal (path : Text) : Text := Text.ofString "write rejected for " ++ path

/-- Write a value at a path: the attempt is recorded, then the write is refused with a message
or the value is stored. -/
def write (store : AttributeStore) (path : Text) (v : AttributeValue) :
    AttributeStore × Option Text :=
  if store.failing.contains path then
    ({ store with attempts := store.attempts ++ [path] }, some (refusal path))
  else
    ({ store with attributes := storeAt path v store.attributes,
                  attempts := store.attempts ++ [path] }, none)

/-- A write records its path after the earlier attempts. -/
@[simp]
theorem write_attempts (store : AttributeStore) (path : Text) (v : AttributeValue) :
    (store.write path v).1.attempts = store.attempts ++ [path] := by
  unfold write
  split <;> rfl

/-- A write never changes which paths are refused. -/
@[simp]
theorem write_failing (store : AttributeStore) (path : Text) (v : AttributeValue) :
    (store.write path v).1.failing = store.failing := by
  unfold write
  split <;> rfl

/-- A write is refused exactly at a refused path, and then stores nothing. -/
theorem write_refused (store : AttributeStore) (path : Text) (v : AttributeValue) :
    (store.write path v).2 = (if store.failing.contains path then some (refusal path) else none) ∧
      (store.failing.contains path = true →
        (store.write path v).1.attributes = store.attributes) := by
  unfold write
  split
  · exact ⟨rfl, fun _ => rfl⟩
  · next stored => exact ⟨rfl, fun refused => absurd refused stored⟩

end AttributeStore

end HostInventory
