import HostInventory.Json.Basic
import HostInventory.Json.Reader
import HostInventory.Text.Blank
import HostInventory.Text.Digit
import HostInventory.Text.Quoted
import HostInventory.Text.Numeral
/-!
# Whole numbers from document values

A field that must be a whole number takes an integer as it is, a truth value as one or zero, and
a double rounded toward zero. A text is read as a decimal numeral:

* blanks of any script stand for spaces, and decimal digits of any script for the ASCII digits;
  any other character outside ASCII ends the numeral where it stands;
* spaces, tab, line feed, vertical tab, form feed and carriage return may surround the numeral;
* a sign may lead, and single underscores may stand between digits;
* at most 4300 digits are converted.

Anything else is refused: `null`, arrays and objects, a non-finite double, a text that is no
numeral.
-/

namespace HostInventory

/-- Why a value is not a whole number. -/
inductive IntegerError where
  /-- The text is not a decimal numeral. -/
  | notNumeral (input : Text)
  /-- The numeral has more digits than are converted. -/
  | tooManyDigits (digits : Nat)
  | infinite
  | notANumber
  /-- A value of a kind that has no whole-number reading. -/
  | wrongKind (kind : String)
deriving DecidableEq

namespace IntegerError

/-- The text of the error. -/
def message : IntegerError → Text
  | .notNumeral t =>
    Text.ofString "invalid literal for int() with base 10: " ++ ⟨(Text.quoted t).points.take 200⟩
  | .tooManyDigits n =>
    Text.ofString "Exceeds the limit (4300 digits) for integer string conversion: value has " ++
      Text.ofNat n ++ Text.ofString " digits; use sys.set_int_max_str_digits() to increase the limit"
  | .infinite => Text.ofString "cannot convert float infinity to integer"
  | .notANumber => Text.ofString "cannot convert float NaN to integer"
  | .wrongKind k =>
    Text.ofString "int() argument must be a string, a bytes-like object or a real number, not '" ++
      Text.ofString k ++ Text.ofString "'"

/-- The kind of failure, as the error class names it. -/
def className : IntegerError → String
  | .infinite => "OverflowError"
  | .wrongKind _ => "TypeError"
  | _ => "ValueError"

end IntegerError

namespace Numeral

/-- The digits and underscores at the start, the rest, and whether an underscore was doubled or
came last. -/
def digitRun (cs : List Nat) : List Nat × List Nat × Bool :=
  let run := cs.takeWhile (fun c => Text.isAsciiDigit c || c == 0x5F)
  let rest := cs.drop run.length
  let pairs := run.zip run.tail
  let doubled := pairs.any (fun p => p.1 == 0x5F && p.2 == 0x5F)
  let trailing := run.getLast? == some 0x5F
  (run.filter Text.isAsciiDigit, rest, doubled || trailing)

end Numeral

/-- Read a decimal numeral. -/
def Text.toInteger (t : Text) : Except IntegerError Int := do
  let invalid : IntegerError := .notNumeral t
  let cs := Numeral.asciiForm t.points
  let cs := cs.dropWhile Text.isAsciiBlank
  let (negative, cs) :=
    match cs with
    | 0x2B :: rest => (false, rest)
    | 0x2D :: rest => (true, rest)
    | _ => (false, cs)
  if cs.head? == some 0x5F then throw invalid
  let (ds, rest, badUnderscore) := Numeral.digitRun cs
  if badUnderscore then throw invalid
  if 4300 < ds.length then throw (.tooManyDigits ds.length)
  if ds.isEmpty then throw invalid
  if !(rest.dropWhile Text.isAsciiBlank).isEmpty then throw invalid
  let n : Int := Numeral.value ds
  pure (if negative then -n else n)

/-- A document value as a whole number. -/
def Json.toInteger : Json → Except IntegerError Int
  | .int n => pure n
  | .bool b => pure (if b then 1 else 0)
  | .float x =>
    match Binary64.kind x with
    | .nan => throw .notANumber
    | .infinite _ => throw .infinite
    | .finite v => pure v.truncate
  | .str t => t.toInteger
  | .null => throw (.wrongKind "NoneType")
  | .arr _ => throw (.wrongKind "list")
  | .obj _ => throw (.wrongKind "dict")

example : (Text.ofString " -1_000\n").toInteger = .ok (-1000) := rfl
example : (Text.ofString "1__0").toInteger = .error (.notNumeral (Text.ofString "1__0")) := rfl

end HostInventory
