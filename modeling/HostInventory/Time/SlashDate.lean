import HostInventory.Time.Iso
import HostInventory.Text.Blank
import HostInventory.Text.Digit
/-!
# Slash dates

Hotfix records give their install date as month, day and year between slashes, `1/2/2006`. After
trimming blanks, the text must start with

* a month: `10`, `11`, `12`, `01` to `09`, or `1` to `9`;
* a slash, then a day: `30`, `31`, `1` or `2` followed by a decimal digit of any script, `01` to
  `09`, `1` to `9`, or a space and `1` to `9`;
* a slash, then a year of exactly four decimal digits of any script.

Each field takes the first alternative that fits, and they never compete: a longer alternative
ends in a digit where a shorter one would need the slash. Text after the year is refused with the
rest named; then the year must be at least one and the day must exist in that month. The date is
midnight UTC.
-/

namespace HostInventory.SlashDate

/-- Whether a code point is the ASCII digit `lo` to `hi` (as digit values). -/
def asciiIn (lo hi c : Nat) : Bool := 0x30 + lo ≤ c && c ≤ 0x30 + hi

/-- The month at the start: its value and the rest. -/
def month : List Nat → Option (Nat × List Nat)
  | a :: b :: rest =>
    if a == 0x31 && asciiIn 0 2 b then some (10 + (b - 0x30), rest)
    else if a == 0x30 && asciiIn 1 9 b then some (b - 0x30, rest)
    else if asciiIn 1 9 a then some (a - 0x30, b :: rest)
    else none
  | [a] => if asciiIn 1 9 a then some (a - 0x30, []) else none
  | [] => none

/-- The day at the start: its value and the rest. -/
def day : List Nat → Option (Nat × List Nat)
  | a :: b :: rest =>
    if a == 0x33 && asciiIn 0 1 b then some (30 + (b - 0x30), rest)
    else if asciiIn 1 2 a && (Text.digitValue? b).isSome then
      some (10 * (a - 0x30) + (Text.digitValue? b).getD 0, rest)
    else if a == 0x30 && asciiIn 1 9 b then some (b - 0x30, rest)
    else if asciiIn 1 9 a then some (a - 0x30, b :: rest)
    else if a == 0x20 && asciiIn 1 9 b then some (b - 0x30, rest)
    else none
  | [a] => if asciiIn 1 9 a then some (a - 0x30, []) else none
  | [] => none

/-- Four decimal digits of any script at the start: the year and the rest. -/
def year (cs : List Nat) : Option (Nat × List Nat) :=
  match cs with
  | a :: b :: c :: d :: rest => do
    let va ← Text.digitValue? a
    let vb ← Text.digitValue? b
    let vc ← Text.digitValue? c
    let vd ← Text.digitValue? d
    pure (1000 * va + 100 * vb + 10 * vc + vd, rest)
  | _ => none

/-- Month, day and year at the start of a text, and the rest after the year. -/
def fields (cs : List Nat) : Option ((Nat × Nat × Nat) × List Nat) := do
  let (m, rest) ← month cs
  let rest ← match rest with
    | 0x2F :: rest => some rest
    | _ => none
  let (d, rest) ← day rest
  let rest ← match rest with
    | 0x2F :: rest => some rest
    | _ => none
  let (y, rest) ← year rest
  pure ((m, d, y), rest)

/-- Read a slash date as midnight UTC. -/
def read (input : Text) : Except DateError DateTime := do
  let t := Text.trim input
  let some ((m, d, y), rest) := fields t.points | throw (.notSlashDate t)
  if !rest.isEmpty then throw (.trailing ⟨rest⟩)
  if y == 0 then throw (.yearOutOfRange 0)
  if d == 0 || Calendar.daysInMonth y m < d then throw .dayOutOfRange
  pure ⟨y, m, d, 0, 0, 0, 0, some 0⟩

example : (read (Text.ofString " 1/ 2/2006 ")).toOption.map DateTime.toTimestamp =
    some ⟨1136160000, 0⟩ := by decide +kernel

end HostInventory.SlashDate
