import HostInventory.Json.Canonical
import HostInventory.Text.Quoted
import HostInventory.Time.Instant
/-!
# Data of any shape

Collectors attach free-form metadata to what they report, and a field of a snapshot document may
hold any value where a text was meant. A datum is such a value: besides what JSON has, it may be a
tuple, a set, a byte string, an opaque object or a date-time, and a dictionary's keys may be data
of any hashable kind.

Every datum has a written form (`written`), the constructor-like text that diagnostics quote: a
text between quotes, `None`, `True`, lists in brackets, tuples in parentheses, dictionaries as
`key: value` pairs in braces. The display text (`display`) of a text is the text itself and of
anything else its written form; that is the text a field takes when a non-text value is coerced.
-/

namespace HostInventory

/-- A value of free-form data. -/
inductive Datum where
  | none
  | bool (value : Bool)
  | int (value : Int)
  | float (value : Float)
  | str (value : Text)
  | bytes (octets : List Nat)
  | list (items : List Datum)
  | tuple (items : List Datum)
  | set (items : List Datum)
  /-- An opaque object with no content of its own. -/
  | object
  | datetime (value : DateTime)
  | dict (entries : List (Datum × Datum))
deriving Inhabited

namespace Datum

/-- The short name of a datum's kind, as diagnostics about unsupported values give it. -/
def kindName : Datum → String
  | .none => "NoneType"
  | .bool _ => "bool"
  | .int _ => "int"
  | .float _ => "float"
  | .str _ => "str"
  | .bytes _ => "bytes"
  | .list _ => "list"
  | .tuple _ => "tuple"
  | .set _ => "set"
  | .object => "object"
  | .datetime _ => "datetime"
  | .dict _ => "dict"

/-- The qualified name of a datum's kind, as diagnostics about missing attributes give it. -/
def qualifiedKindName (d : Datum) : String :=
  match d with
  | .datetime _ => "datetime.datetime"
  | _ => d.kindName

/-- The written form of a byte string: `b` and the octets between quotes, printable ASCII as
itself and other octets as `\xhh`. -/
def bytesWritten (octets : List Nat) : Text :=
  let mark := Text.quoteMark octets
  let point (c : Nat) : List Nat :=
    if c == mark || c == 0x5C then [0x5C, c]
    else if c == 0x09 then [0x5C, 0x74]
    else if c == 0x0A then [0x5C, 0x6E]
    else if c == 0x0D then [0x5C, 0x72]
    else if c < 0x20 || 0x7F ≤ c then Text.hexEscape 0x78 2 c
    else [c]
  ⟨0x62 :: mark :: octets.flatMap point ++ [mark]⟩

/-- Parts joined by a comma and a space. -/
def commaJoin (parts : List Text) : Text := Text.intercalate (Text.ofString ", ") parts

mutual

/-- The written form of a datum. -/
def written : Datum → Text
  | .none => Text.ofString "None"
  | .bool b => Text.ofString (if b then "True" else "False")
  | .int n => Text.ofInt n
  | .float x => Json.floatText x
  | .str t => Text.quoted t
  | .bytes bs => bytesWritten bs
  | .list items => Text.ofString "[" ++ commaJoin (writtenItems items) ++ Text.ofString "]"
  | .tuple items =>
    match writtenItems items with
    | [single] => Text.ofString "(" ++ single ++ Text.ofString ",)"
    | parts => Text.ofString "(" ++ commaJoin parts ++ Text.ofString ")"
  | .set items =>
    if items.isEmpty then Text.ofString "set()"
    else Text.ofString "\x7b" ++ commaJoin (writtenItems items) ++ Text.ofString "\x7d"
  | .object => Text.ofString "<object object>"
  | .datetime d => d.describe
  | .dict entries => Text.ofString "\x7b" ++ commaJoin (writtenEntries entries) ++ Text.ofString "\x7d"

/-- The written forms of items. -/
def writtenItems : List Datum → List Text
  | [] => []
  | d :: rest => written d :: writtenItems rest

/-- The written forms of dictionary entries, `key: value`. -/
def writtenEntries : List (Datum × Datum) → List Text
  | [] => []
  | (k, v) :: rest => (written k ++ Text.ofString ": " ++ written v) :: writtenEntries rest

end

/-- The display text: a text is itself, any other datum its written form. -/
def display : Datum → Text
  | .str t => t
  | d => d.written

end Datum

namespace Json

mutual

/-- A JSON value as a datum. -/
def toDatum : Json → Datum
  | .null => .none
  | .bool b => .bool b
  | .int n => .int n
  | .float x => .float x
  | .str t => .str t
  | .arr items => .list (toDatumItems items)
  | .obj members => .dict (toDatumMembers members)

/-- JSON items as data. -/
def toDatumItems : List Json → List Datum
  | [] => []
  | v :: rest => toDatum v :: toDatumItems rest

/-- JSON members as dictionary entries with text keys. -/
def toDatumMembers : List (Text × Json) → List (Datum × Datum)
  | [] => []
  | (k, v) :: rest => (.str k, toDatum v) :: toDatumMembers rest

end

/-- The display text of a JSON value: a string is itself, any other value its written form. -/
def display (v : Json) : Text := v.toDatum.display

end Json

example : (Json.arr [.int 1, .str (Text.ofString "a")]).display = Text.ofString "[1, 'a']" := by
  decide +kernel

end HostInventory
