import HostInventory.Text.Basic
/-!
# JSON values

The values that documents are made of. Integers are unbounded and kept apart from doubles,
since `1` and `1.0` are different values and are written differently. A double may be
non-finite, because the documents this library reads may spell `NaN` and `Infinity`. An object
keeps its members in the order they were first given, each name once; the canonical writer sorts
them, and everything else sees them in document order.
-/

namespace HostInventory

/-- A JSON value. -/
inductive Json where
  | null
  | bool (value : Bool)
  | int (value : Int)
  | float (value : Float)
  | str (value : Text)
  | arr (items : List Json)
  | obj (members : List (Text × Json))
deriving Inhabited

namespace Json

/-- An object with members named by strings. -/
def record (members : List (String × Json)) : Json :=
  .obj (members.map fun m => (Text.ofString m.1, m.2))

/-- A list of texts as a JSON array. -/
def texts (ts : List Text) : Json := .arr (ts.map Json.str)

/-- The value of a member name, if the value is an object that has it. -/
def get? (v : Json) (name : String) : Option Json :=
  match v with
  | .obj members => (members.find? (fun m => m.1 == Text.ofString name)).map Prod.snd
  | _ => none

/-- The members of an object with `name` set to `value`: a present member keeps its place and
takes the new value, a new one goes last. -/
def setMember (members : List (Text × Json)) (name : Text) (value : Json) : List (Text × Json) :=
  if members.any (fun m => m.1 == name) then
    members.map (fun m => if m.1 == name then (name, value) else m)
  else members ++ [(name, value)]

/-- An object built from members given in order, a repeated name keeping its first place and
its last value. -/
def objOfMembers (members : List (Text × Json)) : Json :=
  .obj (members.foldl (fun acc m => setMember acc m.1 m.2) [])

/-- Whether a double is zero (of either sign). -/
def floatIsZero (x : Float) : Bool := x.toBits.toNat % Nat.pow 2 63 == 0

/-- Truthiness: `null`, `false`, zero, the empty text, the empty array and the empty object are
false; every other value, a not-a-number included, is true. -/
def truthy : Json → Bool
  | .null => false
  | .bool b => b
  | .int n => n != 0
  | .float x => !floatIsZero x
  | .str t => !t.isEmpty
  | .arr items => !items.isEmpty
  | .obj members => !members.isEmpty

/-- The members of an object, or `none` for another value. -/
def members? : Json → Option (List (Text × Json))
  | .obj members => some members
  | _ => none

/-- The items of an array, or `none` for another value. -/
def items? : Json → Option (List Json)
  | .arr items => some items
  | _ => none

end Json

end HostInventory
