import HostInventory.Datum.Basic
/-!
# JSON-representable data

A datum is JSON-representable when it is `None`, a truth value, an integer, a text, a finite
double, a list or tuple of representable data, or a dictionary with text keys and representable
values. `problem` names the first offender in depth-first order, prefixed by one `index i: ` or
`key k: ` per enclosing container; it is `none` exactly for representable data. `plain` turns a
representable datum into the JSON value it stands for, a tuple becoming an array.
-/

namespace HostInventory.Datum

/-- Whether a double is finite. -/
def finiteFloat (x : Float) : Bool :=
  match Binary64.kind x with
  | .finite _ => true
  | _ => false

mutual

/-- Why a datum is not JSON-representable, or `none` when it is. -/
def problem : Datum → Option Text
  | .none | .bool _ | .int _ | .str _ => Option.none
  | .float x =>
    if finiteFloat x then Option.none else some (Text.ofString "non finite number " ++ Json.floatText x)
  | .list items => itemsProblem 0 items
  | .tuple items => itemsProblem 0 items
  | .dict entries => entriesProblem entries
  | d => some (Text.ofString ("unsupported type " ++ d.kindName))

/-- The first problem among items, the first item having index `i`. -/
def itemsProblem (i : Nat) : List Datum → Option Text
  | [] => Option.none
  | d :: rest =>
    match problem d with
    | some p => some (Text.ofString "index " ++ Text.ofNat i ++ Text.ofString ": " ++ p)
    | Option.none => itemsProblem (i + 1) rest

/-- The first problem among dictionary entries: a key that is not a text, or a value's. -/
def entriesProblem : List (Datum × Datum) → Option Text
  | [] => Option.none
  | (k, v) :: rest =>
    match k with
    | .str t =>
      match problem v with
      | some p => some (Text.ofString "key " ++ t ++ Text.ofString ": " ++ p)
      | Option.none => entriesProblem rest
    | _ => some (Text.ofString "non string key " ++ k.written)

end

mutual

/-- The JSON value a representable datum stands for; tuples become arrays. -/
def plain : Datum → Json
  | .none => .null
  | .bool b => .bool b
  | .int n => .int n
  | .float x => .float x
  | .str t => .str t
  | .list items => .arr (plainItems items)
  | .tuple items => .arr (plainItems items)
  | .dict entries => .obj (plainEntries entries)
  | _ => .null

/-- Items as JSON values. -/
def plainItems : List Datum → List Json
  | [] => []
  | d :: rest => plain d :: plainItems rest

/-- Entries as JSON members, keyed by their display texts. -/
def plainEntries : List (Datum × Datum) → List (Text × Json)
  | [] => []
  | (k, v) :: rest => (k.display, plain v) :: plainEntries rest

end

end HostInventory.Datum
