import HostInventory.Datum.Basic
/-!
# Dictionary keys

A dictionary holds each key once. Keys are compared by value across kinds of number: a truth
value, an integer and a double are the same key when they have the same exact value, so `1`,
`1.0` and `True` are one key, while not-a-number is never the same key as anything. Texts, byte
strings and `None` are the same key as equal ones of their kind, tuples when their items are the
same keys position by position, and date-times when both carry an offset and name the same
instant or both carry none and have the same fields. Two opaque objects are never the same key.

Storing a key that is already held keeps the key where it stands and replaces its value. Lists,
dictionaries and sets cannot be keys, nor can a tuple holding one; the kind that stands in the way
is reported.
-/

namespace HostInventory

/-- A value that cannot be a key, by the kind that stands in the way. -/
structure Unhashable where
  kind : String
deriving DecidableEq

namespace Binary64

/-- Whether two numbers have the same value; not-a-number has no value. -/
def Kind.sameValue : Kind → Kind → Bool
  | .finite a, .finite b =>
    let (n, d) := a.toFraction
    let (m, e) := b.toFraction
    n * e == m * d
  | .infinite a, .infinite b => a == b
  | _, _ => false

end Binary64

namespace Datum

/-- The numeric value of a truth value, an integer or a double. -/
def numeric? : Datum → Option Binary64.Kind
  | .bool b => some (.finite ⟨false, if b then 1 else 0, 0⟩)
  | .int n => some (.finite ⟨decide (n < 0), n.natAbs, 0⟩)
  | .float x => some (Binary64.kind x)
  | _ => Option.none

/-- Whether two date-times are the same key: both with offsets and the same instant, or both
without and the same fields. -/
def sameDateTime (a b : DateTime) : Bool :=
  a.offset.isSome == b.offset.isSome && a.epochMicros == b.epochMicros

mutual

/-- Whether two keys are the same key. -/
def sameKey : Datum → Datum → Bool
  | .str a, .str b => a == b
  | .bytes a, .bytes b => a == b
  | .none, .none => true
  | .tuple a, .tuple b => sameKeys a b
  | .datetime a, .datetime b => sameDateTime a b
  | a, b =>
    match numeric? a, numeric? b with
    | some x, some y => x.sameValue y
    | _, _ => false

/-- Whether two lists of keys are the same keys position by position. -/
def sameKeys : List Datum → List Datum → Bool
  | [], [] => true
  | a :: as, b :: bs => sameKey a b && sameKeys as bs
  | _, _ => false

end

mutual

/-- The kind that keeps a value from being a key, if any. -/
def unhashable? : Datum → Option Unhashable
  | .list _ => some ⟨"list"⟩
  | .dict _ => some ⟨"dict"⟩
  | .set _ => some ⟨"set"⟩
  | .tuple items => unhashableItem? items
  | _ => Option.none

/-- The kind that keeps the first of some items from being a key, if any. -/
def unhashableItem? : List Datum → Option Unhashable
  | [] => Option.none
  | d :: rest =>
    match unhashable? d with
    | some u => some u
    | Option.none => unhashableItem? rest

end

/-- Entries with a key stored: its value replaced where the key is held, else appended. -/
def store (k v : Datum) : List (Datum × Datum) → List (Datum × Datum)
  | [] => [(k, v)]
  | (k', v') :: rest => if sameKey k' k then (k', v) :: rest else (k', v') :: store k v rest

/-- Entries with a key stored, refused when the key cannot be one. -/
def storeChecked (entries : List (Datum × Datum)) (k v : Datum) :
    Except Unhashable (List (Datum × Datum)) :=
  match unhashable? k with
  | some u => .error u
  | Option.none => .ok (store k v entries)

/-- The dictionary of key-value pairs stored in order. -/
def dictOf (pairs : List (Datum × Datum)) : Except Unhashable Datum := do
  let entries ← pairs.foldlM (fun entries (k, v) => storeChecked entries k v) []
  pure (.dict entries)

/-- The set of items: each item stored once, in order of first appearance. -/
def setOf (items : List Datum) : Except Unhashable Datum := do
  let entries ← items.foldlM (fun entries d => storeChecked entries d Datum.none) []
  pure (.set (entries.map Prod.fst))

end Datum

end HostInventory
