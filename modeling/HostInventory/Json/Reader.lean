import HostInventory.Json.Basic
import HostInventory.Number.Binary64
/-!
# Reading JSON documents

A document is read as one value surrounded by blanks (space, tab, line feed, carriage return).
Beyond strict JSON the reader takes the names `NaN`, `Infinity` and `-Infinity` for the
non-finite doubles, and a name given twice in one object keeps its first place and its last
value. A number with a fraction or an exponent is the nearest double; one without is an exact
integer, refused above 4300 digits.

Text positions count code points from zero. A failure names the first place where the document
stops fitting the grammar, in the order the reader meets them:

* a string reports a control character, a bad escape or a missing closing quote;
* a value that cannot start at a position reports `Expecting value` there;
* inside objects and arrays the reader expects a member name, a colon or a comma, in turn;
* after the value only blanks may follow.

A reading may be given room for nesting (`readWithin`): the first object or array that would
open deeper than the room makes the reading fail where it opens, whatever follows it.

A number stops at the longest prefix that fits its grammar; a fraction needs a digit after the
point and an exponent a digit after its sign, otherwise the number ends before them and what
follows is read as the next token.
-/

namespace HostInventory.Json

/-- Why a document could not be read. Positions count code points. -/
inductive ReadError where
  | byteOrderMark
  | expectingValue (pos : Nat)
  | expectingName (pos : Nat)
  | expectingColon (pos : Nat)
  | expectingComma (pos : Nat)
  | unterminatedString (start : Nat)
  | controlCharacter (pos : Nat)
  | badEscape (pos : Nat)
  | badUnicodeEscape (pos : Nat)
  | extraData (pos : Nat)
  /-- An integer with more decimal digits than the reader converts. -/
  | integerTooLong (digits : Nat)
  /-- A container opens deeper than the room for nesting: an array when `array`, else an
  object. -/
  | tooDeep (array : Bool)
deriving DecidableEq

/-- The most decimal digits an integer may have. -/
def maxIntegerDigits : Nat := 4300

/-- The reader's state: the document as an array of code points. -/
structure Source where
  chars : Array Nat

namespace Source

/-- The code point at a position, or none past the end. -/
def at? (s : Source) (i : Nat) : Option Nat := s.chars[i]?

/-- Whether the code point at `i` is `c`. -/
def is (s : Source) (i c : Nat) : Bool := s.at? i == some c

/-- The number of code points. -/
def size (s : Source) : Nat := s.chars.size

/-- Whether the code point at `i` is an ASCII digit. -/
def digitAt (s : Source) (i : Nat) : Bool :=
  match s.at? i with
  | some c => 0x30 ≤ c && c ≤ 0x39
  | none => false

/-- Whether the code points from `i` spell `word`. -/
def spells (s : Source) (i : Nat) (word : String) : Bool :=
  (word.toList.zipIdx.all fun (c, k) => s.is (i + k) c.toNat)

/-- The first position from `i` that is not a blank. -/
def skipBlanks (s : Source) (i : Nat) : Nat :=
  let rec go (fuel i : Nat) : Nat :=
    match fuel with
    | 0 => i
    | fuel + 1 =>
      match s.at? i with
      | some c => if c == 0x20 || c == 0x09 || c == 0x0A || c == 0x0D then go fuel (i + 1) else i
      | none => i
  go (s.size + 1) i

/-- The first position from `i` that is not an ASCII digit. -/
def skipDigits (s : Source) (i : Nat) : Nat :=
  let rec go (fuel i : Nat) : Nat :=
    match fuel with
    | 0 => i
    | fuel + 1 => if s.digitAt i then go fuel (i + 1) else i
  go (s.size + 1) i

/-- The code points from `i` up to `j`. -/
def slice (s : Source) (i j : Nat) : List Nat := (s.chars.extract i j).toList

/-- The value of a hexadecimal digit. -/
def hexValue (c : Nat) : Option Nat :=
  if 0x30 ≤ c && c ≤ 0x39 then some (c - 0x30)
  else if 0x61 ≤ c && c ≤ 0x66 then some (c - 0x57)
  else if 0x41 ≤ c && c ≤ 0x46 then some (c - 0x37)
  else none

/-- The number written by the four hexadecimal digits from `i`. -/
def hex4 (s : Source) (i : Nat) : Option Nat :=
  [0, 1, 2, 3].foldl (fun acc k => do
    let v ← acc
    let c ← s.at? (i + k)
    let d ← hexValue c
    pure (16 * v + d)) (some 0)

/-- The code point an escape letter stands for. -/
def escapeValue (c : Nat) : Option Nat :=
  if c == 0x22 || c == 0x5C || c == 0x2F then some c
  else if c == 0x62 then some 0x08
  else if c == 0x66 then some 0x0C
  else if c == 0x6E then some 0x0A
  else if c == 0x72 then some 0x0D
  else if c == 0x74 then some 0x09
  else none

/-- The first position from `i` holding a quote, a backslash or a control character. -/
def stringStop (s : Source) (i : Nat) : Nat :=
  let rec go (fuel i : Nat) : Nat :=
    match fuel with
    | 0 => i
    | fuel + 1 =>
      match s.at? i with
      | some c => if c == 0x22 || c == 0x5C || c < 0x20 then i else go fuel (i + 1)
      | none => i
  go (s.size + 1) i

/-- An escape `\u` at `i`, the backslash at `i` and the letter `u` at `i + 1`: the code point and
the position after it. A high surrogate followed by an escaped low surrogate joins it. -/
def unicodeEscape (s : Source) (i : Nat) : Except ReadError (Nat × Nat) := do
  let stop := i + 6
  if s.size ≤ stop then throw (.badUnicodeEscape (i + 1))
  let some c := s.hex4 (i + 2) | throw (.badUnicodeEscape (i + 1))
  if 0xD800 ≤ c && c ≤ 0xDBFF && stop + 6 < s.size && s.is stop 0x5C && s.is (stop + 1) 0x75 then
    let some low := s.hex4 (stop + 2) | throw (.badUnicodeEscape (stop + 1))
    if 0xDC00 ≤ low && low ≤ 0xDFFF then
      pure (0x10000 + (c - 0xD800) * 0x400 + (low - 0xDC00), stop + 6)
    else pure (c, stop)
  else pure (c, stop)

/-- The rest of a string whose opening quote is at `start`, from `i` on, after the code points
`acc` (reversed): the text and the position after the closing quote. -/
def stringFrom (s : Source) (start : Nat) : (fuel i : Nat) → (acc : List Nat) →
    Except ReadError (Text × Nat)
  | 0, _, _ => throw (.unterminatedString start)
  | fuel + 1, i, acc =>
    let j := s.stringStop i
    let acc := (s.slice i j).reverse ++ acc
    match s.at? j with
    | none => throw (.unterminatedString start)
    | some c =>
      if c == 0x22 then pure (⟨acc.reverse⟩, j + 1)
      else if c != 0x5C then throw (.controlCharacter j)
      else
        match s.at? (j + 1) with
        | none => throw (.unterminatedString start)
        | some e =>
          if e == 0x75 then do
            let (point, next) ← s.unicodeEscape j
            stringFrom s start fuel next (point :: acc)
          else
            match escapeValue e with
            | some point => stringFrom s start fuel (j + 2) (point :: acc)
            | none => throw (.badEscape j)

/-- A string whose opening quote is at `start`. -/
def string (s : Source) (start : Nat) : Except ReadError (Text × Nat) :=
  s.stringFrom start (s.size + 1) (start + 1) []

/-- The natural number written by ASCII digits. -/
def digitsValue (ds : List Nat) : Nat := ds.foldl (fun acc c => 10 * acc + (c - 0x30)) 0

/-- A number starting at `start`: the longest prefix that fits the number grammar, as an exact
integer or the nearest double. -/
def number (s : Source) (start : Nat) : Except ReadError (Json × Nat) := do
  let negative := s.is start 0x2D
  let i := if negative then start + 1 else start
  if s.size ≤ i then throw (.expectingValue start)
  let afterInt ←
    if s.is i 0x30 then pure (i + 1)
    else if s.digitAt i then pure (s.skipDigits (i + 1))
    else throw (.expectingValue start)
  let last := s.size - 1
  let (afterFrac, hasFrac) :=
    if afterInt < last && s.is afterInt 0x2E && s.digitAt (afterInt + 1) then
      (s.skipDigits (afterInt + 2), true)
    else (afterInt, false)
  let (stop, hasExp) :=
    if afterFrac < last && (s.is afterFrac 0x65 || s.is afterFrac 0x45) then
      let j := afterFrac + 1
      let j := if j < last && (s.is j 0x2D || s.is j 0x2B) then j + 1 else j
      let k := s.skipDigits j
      if s.digitAt (k - 1) then (k, true) else (afterFrac, false)
    else (afterFrac, false)
  let intDigits := s.slice i afterInt
  if !hasFrac && !hasExp then
    if maxIntegerDigits < intDigits.length then throw (.integerTooLong intDigits.length)
    let n : Int := digitsValue intDigits
    pure (.int (if negative then -n else n), stop)
  else
    let fracDigits := if hasFrac then s.slice (afterInt + 1) afterFrac else []
    let exponent : Int :=
      if hasExp then
        let e0 := afterFrac + 1
        let expNegative := s.is e0 0x2D
        let digitsStart := if s.is e0 0x2D || s.is e0 0x2B then e0 + 1 else e0
        let e : Int := digitsValue (s.slice digitsStart stop)
        if expNegative then -e else e
      else 0
    let mantissa := digitsValue (intDigits ++ fracDigits)
    pure (.float (Binary64.ofDecimal negative mantissa (exponent - fracDigits.length)), stop)

mutual

/-- The value starting at `i`, and the position after it; `room` containers may still open
inside one another from here. -/
def value (s : Source) : (fuel room i : Nat) → Except ReadError (Json × Nat)
  | 0, _, i => throw (.expectingValue i)
  | fuel + 1, room, i =>
    match s.at? i with
    | none => throw (.expectingValue i)
    | some c =>
      if c == 0x22 then do
        let (t, next) ← s.string i
        pure (.str t, next)
      else if c == 0x7B then
        if room == 0 then throw (.tooDeep false)
        else s.members fuel (room - 1) (s.skipBlanks (i + 1)) [] true
      else if c == 0x5B then
        if room == 0 then throw (.tooDeep true)
        else s.elements fuel (room - 1) (s.skipBlanks (i + 1)) [] true
      else if c == 0x6E && s.spells i "null" then pure (.null, i + 4)
      else if c == 0x74 && s.spells i "true" then pure (.bool true, i + 4)
      else if c == 0x66 && s.spells i "false" then pure (.bool false, i + 5)
      else if c == 0x4E && s.spells i "NaN" then
        pure (.float (Binary64.ofBits (2047 * Nat.pow 2 52 + Nat.pow 2 51)), i + 3)
      else if c == 0x49 && s.spells i "Infinity" then
        pure (.float (Binary64.ofBits (Binary64.infinityBits false)), i + 8)
      else if c == 0x2D && s.spells i "-Infinity" then
        pure (.float (Binary64.ofBits (Binary64.infinityBits true)), i + 9)
      else s.number i

/-- The members of an object from `i` on (after blanks), after the members `acc`; `first` holds
before the first member, where the object may close at once. -/
def members (s : Source) : (fuel room i : Nat) → (acc : List (Text × Json)) → (first : Bool) →
    Except ReadError (Json × Nat)
  | 0, _, i, _, _ => throw (.expectingName i)
  | fuel + 1, room, i, acc, first =>
    if first && s.is i 0x7D then pure (.obj acc, i + 1)
    else if !s.is i 0x22 then throw (.expectingName i)
    else do
      let (name, afterName) ← s.string i
      let colon := s.skipBlanks afterName
      if !s.is colon 0x3A then throw (.expectingColon colon)
      let (v, afterValue) ← s.value fuel room (s.skipBlanks (colon + 1))
      let acc := setMember acc name v
      let next := s.skipBlanks afterValue
      if s.is next 0x7D then pure (.obj acc, next + 1)
      else if !s.is next 0x2C then throw (.expectingComma next)
      else s.members fuel room (s.skipBlanks (next + 1)) acc false

/-- The elements of an array from `i` on (after blanks), after the elements `acc` (reversed);
`first` holds before the first element, where the array may close at once. -/
def elements (s : Source) : (fuel room i : Nat) → (acc : List Json) → (first : Bool) →
    Except ReadError (Json × Nat)
  | 0, _, i, _, _ => throw (.expectingValue i)
  | fuel + 1, room, i, acc, first =>
    if first && s.is i 0x5D then pure (.arr acc.reverse, i + 1)
    else do
      let (v, afterValue) ← s.value fuel room i
      let next := s.skipBlanks afterValue
      if s.is next 0x5D then pure (.arr (v :: acc).reverse, next + 1)
      else if !s.is next 0x2C then throw (.expectingComma next)
      else s.elements fuel room (s.skipBlanks (next + 1)) (v :: acc) false

end

end Source

/-- Read a whole document, one value with blanks around it, whose containers nest at most
`room` deep. -/
def readWithin (room : Nat) (doc : Text) : Except ReadError Json := do
  let s : Source := ⟨doc.points.toArray⟩
  if s.is 0 0xFEFF then throw .byteOrderMark
  -- Every nested value or member consumes a code point, so twice the size bounds the depth.
  let (v, stop) ← s.value (2 * s.size + 2) room (s.skipBlanks 0)
  let stop := s.skipBlanks stop
  if stop < s.size then throw (.extraData stop)
  pure v

/-- Read a whole document with no bound on its nesting: every container takes a code point, so
its length is room enough. -/
def read (doc : Text) : Except ReadError Json := readWithin doc.length doc

/-- Line and column of a position: lines count line feeds before it, from one; the column counts
code points from the last line feed before it, or from the start, from one. -/
def lineColumn (doc : Text) (pos : Nat) : Nat × Nat :=
  let before := doc.points.take pos
  let line := before.count 0x0A + 1
  match (before.reverse.findIdx? (· == 0x0A)) with
  | some k => (line, k + 1)
  | none => (line, pos + 1)

/-- The text of a reading failure, with its place in the document. -/
def ReadError.describe (doc : Text) (e : ReadError) : Text :=
  let located (what : String) (pos : Nat) : Text :=
    let (line, col) := lineColumn doc pos
    Text.ofString what ++ Text.ofString ": line " ++ Text.ofNat line ++
      Text.ofString " column " ++ Text.ofNat col ++ Text.ofString " (char " ++ Text.ofNat pos ++
      Text.ofString ")"
  match e with
  | .byteOrderMark => located "Unexpected UTF-8 BOM (decode using utf-8-sig)" 0
  | .expectingValue p => located "Expecting value" p
  | .expectingName p => located "Expecting property name enclosed in double quotes" p
  | .expectingColon p => located "Expecting ':' delimiter" p
  | .expectingComma p => located "Expecting ',' delimiter" p
  | .unterminatedString p => located "Unterminated string starting at" p
  | .controlCharacter p => located "Invalid control character at" p
  | .badEscape p => located "Invalid \\escape" p
  | .badUnicodeEscape p => located "Invalid \\uXXXX escape" p
  | .extraData p => located "Extra data" p
  | .integerTooLong n =>
    Text.ofString "Exceeds the limit (4300 digits) for integer string conversion: value has " ++
      Text.ofNat n ++ Text.ofString " digits; use sys.set_int_max_str_digits() to increase the limit"
  | .tooDeep array =>
    Text.ofString "maximum recursion depth exceeded while decoding a JSON " ++
      Text.ofString (if array then "array" else "object") ++ Text.ofString " from a unicode string"

end HostInventory.Json
