import HostInventory.Number.Binary64
import HostInventory.Text.Numeral
/-!
# Doubles from decimal texts

A text reads as a double when, after mapping it to ASCII (`Numeral.asciiForm`), removing single
underscores that stand between digits and trimming the six ASCII blanks, what is left is one of

* a sign, then digits with an optional point among them (at least one digit), then optionally an
  exponent: `e` or `E`, a sign, and at least one digit;
* a sign, then `inf`, `infinity` or `nan` in any case.

A decimal reads as the double nearest to its value, ties to even; an exponent without digits is
not part of the number, so it is left over and the reading fails. An underscore that does not
stand between two digits, or a zero code point, makes the reading fail.
-/

namespace HostInventory.Numeral

/-- The six ASCII blanks. -/
def isSpace (c : Nat) : Bool := c == 0x20 || (0x09 ≤ c && c ≤ 0x0D)

/-- An optional sign at the start: whether it is a minus, and the rest. -/
def sign : List Nat → Bool × List Nat
  | 0x2D :: rest => (true, rest)
  | 0x2B :: rest => (false, rest)
  | cs => (false, cs)

/-- The ASCII digits at the start and the rest. -/
def digitSpan (cs : List Nat) : List Nat × List Nat :=
  (cs.takeWhile Text.isAsciiDigit, cs.dropWhile Text.isAsciiDigit)

/-- An optional exponent at the start: its value and the rest. Without digits it is no exponent
and nothing is taken. -/
def exponent (cs : List Nat) : Int × List Nat :=
  match cs with
  | c :: rest =>
    if c == 0x65 || c == 0x45 then
      let (negative, rest) := sign rest
      let (ds, rest) := digitSpan rest
      if ds.isEmpty then (0, cs)
      else ((if negative then -(value ds : Int) else (value ds : Int)), rest)
    else (0, cs)
  | [] => (0, [])

/-- The double a whole decimal text stands for. -/
def decimal (cs : List Nat) : Option Float :=
  let (negative, cs) := sign cs
  let (whole, cs) := digitSpan cs
  let (fraction, cs) :=
    match cs with
    | 0x2E :: rest => digitSpan rest
    | _ => ([], cs)
  let (e, cs) := exponent cs
  if whole.isEmpty && fraction.isEmpty then none
  else if !cs.isEmpty then none
  else some (Binary64.ofDecimal negative (value (whole ++ fraction)) (e - fraction.length))

/-- Code points in ASCII lower case. -/
def lower (cs : List Nat) : List Nat :=
  cs.map fun c => if 0x41 ≤ c && c ≤ 0x5A then c + 0x20 else c

/-- The double a whole text spelling infinity or not-a-number stands for. -/
def special (cs : List Nat) : Option Float :=
  let (negative, cs) := sign cs
  let word := lower cs
  if word == (Text.ofString "inf").points || word == (Text.ofString "infinity").points then
    some (Binary64.ofBits (Binary64.infinityBits negative))
  else if word == (Text.ofString "nan").points then
    some (Binary64.ofBits ((if negative then Nat.pow 2 63 else 0) + 0x7FF8000000000000))
  else none

/-- The text with single underscores between digits removed, or `none` when an underscore stands
elsewhere or a zero code point follows one. -/
def dropUnderscores (cs : List Nat) : Option (List Nat) :=
  let upToZero := cs.takeWhile (· != 0)
  if !upToZero.contains 0x5F then some cs
  else
    let pairs := (0 :: upToZero).zip (upToZero ++ [0])
    let fits := pairs.all fun (before, after) =>
      (after != 0x5F || Text.isAsciiDigit before) && (before != 0x5F || Text.isAsciiDigit after)
    if fits && upToZero.length == cs.length then some (upToZero.filter (· != 0x5F)) else none

end HostInventory.Numeral

namespace HostInventory

/-- The double a text stands for, or `none` when it is no number. -/
def Text.toFloat? (t : Text) : Option Float := do
  let cs ← Numeral.dropUnderscores (Numeral.asciiForm t.points)
  let cs := ((cs.dropWhile Numeral.isSpace).reverse.dropWhile Numeral.isSpace).reverse
  match Numeral.decimal cs with
  | some x => some x
  | none => Numeral.special cs

end HostInventory
