import HostInventory.Json.Basic
import HostInventory.Number.Shortest
import HostInventory.Text.Utf8
/-!
# Canonical JSON

The canonical text of a value is the one spelling that fingerprints and stored blobs use: members
sorted by name (code-point order), no blank anywhere, and each string written with only the quote,
the backslash and the control characters below U+0020 escaped (`\n`, `\r`, `\t`, `\b`, `\f`
by letter, the others as `\u00hh`); every other code point stands as itself. A double is written
in its shortest decimal form (`numberLayout`), and the non-finite doubles have no canonical text.

Canonical bytes are the UTF-8 form of the canonical text, which exists unless the text holds a
surrogate.
-/

namespace HostInventory

namespace Json

/-- Numbers are written positionally from `1e-4` up to below `1e16`, an integral value keeping
`.0`; outside that range with an exponent of at least two digits that always has a sign. -/
def numberLayout : Binary64.Layout := ⟨-4, 16, 2, true, true⟩

/-- The shortest text of a finite double, or `none` for a non-finite one. -/
def floatText? (x : Float) : Option Text :=
  match Binary64.kind x with
  | .nan => none
  | .infinite _ => none
  | .finite v =>
    if v.significand == 0 then
      some (Text.ofString (if v.negative then "-0.0" else "0.0"))
    else
      some (numberLayout.render v.negative (Binary64.shortest v.significand v.exponent))

/-- The text of any double: the shortest text of a finite one, and `nan`, `inf` or `-inf`. -/
def floatText (x : Float) : Text :=
  match floatText? x with
  | some t => t
  | none =>
    match Binary64.kind x with
    | .infinite true => Text.ofString "-inf"
    | .infinite false => Text.ofString "inf"
    | _ => Text.ofString "nan"

/-- How a code point is written inside a canonical string. -/
def canonicalPoint (c : Nat) : List Nat :=
  if c == 0x22 then [0x5C, 0x22]
  else if c == 0x5C then [0x5C, 0x5C]
  else if c == 0x0A then [0x5C, 0x6E]
  else if c == 0x0D then [0x5C, 0x72]
  else if c == 0x09 then [0x5C, 0x74]
  else if c == 0x08 then [0x5C, 0x62]
  else if c == 0x0C then [0x5C, 0x66]
  else if c < 0x20 then [0x5C, 0x75, 0x30, 0x30] ++ Text.hexDigits 2 c
  else [c]

/-- A string in canonical form, between double quotes. -/
def canonicalString (t : Text) : Text := ⟨0x22 :: t.points.flatMap canonicalPoint ++ [0x22]⟩

/-- Members in canonical order: by name, in code-point order. -/
def sortMembers {α : Type} (members : List (Text × α)) : List (Text × α) :=
  members.mergeSort (fun a b => !Text.before b.1 a.1)

/-- Why a value has no canonical text: it holds a non-finite double. -/
structure NonFinite where
  value : Float

mutual

/-- The canonical text of a value. -/
def canonical : Json → Except NonFinite Text
  | .null => pure (Text.ofString "null")
  | .bool b => pure (Text.ofString (if b then "true" else "false"))
  | .int n => pure (Text.ofInt n)
  | .float x =>
    match floatText? x with
    | some t => pure t
    | none => throw ⟨x⟩
  | .str t => pure (canonicalString t)
  | .arr items => do
    let parts ← canonicalItems items
    pure (Text.ofString "[" ++ Text.intercalate (Text.ofString ",") parts ++ Text.ofString "]")
  | .obj members => do
    -- Members are written, and a failure is met, in sorted order.
    let written ← (sortMembers (canonicalMembers members)).mapM
      (fun m => do
        let t ← m.2
        pure (canonicalString m.1 ++ Text.ofString ":" ++ t))
    pure (Text.ofString "\x7b" ++ Text.intercalate (Text.ofString ",") written ++ Text.ofString "\x7d")

/-- The canonical texts of array items, in order. -/
def canonicalItems : List Json → Except NonFinite (List Text)
  | [] => pure []
  | v :: rest => do
    let t ← canonical v
    let ts ← canonicalItems rest
    pure (t :: ts)

/-- The canonical texts of member values, or why each has none, with their names. -/
def canonicalMembers : List (Text × Json) → List (Text × Except NonFinite Text)
  | [] => []
  | (name, v) :: rest => (name, canonical v) :: canonicalMembers rest

end

end Json

/-- Why a value has no canonical bytes. -/
inductive CanonicalError where
  /-- A non-finite double has no JSON spelling. -/
  | nonFinite (value : Float)
  /-- The canonical text holds surrogates, which UTF-8 cannot encode. -/
  | surrogates (run : Text.SurrogateRun)

/-- The canonical text of a value, with the reason when it has none. -/
def Json.canonicalText (v : Json) : Except CanonicalError Text :=
  match v.canonical with
  | .ok t => .ok t
  | .error e => .error (.nonFinite e.value)

/-- The canonical bytes of a value: the UTF-8 form of its canonical text. -/
def Json.canonicalBytes (v : Json) : Except CanonicalError (List Nat) := do
  let t ← v.canonicalText
  match Text.utf8 t with
  | .ok bytes => pure bytes
  | .error run => throw (.surrogates run)

end HostInventory
