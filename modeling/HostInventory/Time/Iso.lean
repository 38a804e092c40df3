import HostInventory.Time.Instant
import HostInventory.Text.Quoted
import HostInventory.Text.Utf8
/-!
# Reading ISO 8601 date-times

The reader takes the date forms `YYYY-MM-DD`, `YYYYMMDD`, `YYYY-Www`, `YYYYWww`, `YYYY-Www-D` and
`YYYYWwwD`, then optionally any one character as separator and a time `HH[:MM[:SS[.f…]]]` (colons
used throughout or nowhere; `.` or `,` before one to six fraction digits, further digits ignored),
then optionally `Z` or a signed offset written like a time. The text is read as UTF-8 octets: the
separator, whatever character it is, is skipped whole, and a character outside ASCII anywhere else
makes the text fail the grammar. A surrogate has no UTF-8 form, so one in a place where the
separator may stand is read as `T` first (`replaceSeparator`).

Where the separator stands is decided from the shape of the date before anything is read
(`separatorAt`). Reading past the end of the text sees a zero octet, which matches nothing but
ends a field. After a successful read the offset is checked first (strictly inside a day), then
the fields: year 1 to 9999, month, day within the month, hour, minute and second.
-/

namespace HostInventory

/-- Why a date-time text was refused. -/
inductive DateError where
  /-- The text does not have the shape of an ISO 8601 date-time. -/
  | notIso (input : Text)
  /-- The UTC offset, in microseconds, is not strictly inside one day. -/
  | offsetOutOfRange (micros : Int)
  | yearOutOfRange (year : Int)
  | monthOutOfRange
  | dayOutOfRange
  | hourOutOfRange
  | minuteOutOfRange
  | secondOutOfRange
  /-- The text does not start with a month, a day and a year separated by slashes. -/
  | notSlashDate (input : Text)
  /-- A slash date is followed by more text. -/
  | trailing (rest : Text)
deriving DecidableEq

/-- The text of a date error. -/
def DateError.message : DateError → Text
  | .notIso t => Text.ofString "Invalid isoformat string: " ++ Text.quoted t
  | .offsetOutOfRange us =>
    Text.ofString "offset must be a timedelta strictly between -timedelta(hours=24) and " ++
      Text.ofString "timedelta(hours=24), not " ++ DateTime.durationText us ++ Text.ofString "."
  | .yearOutOfRange y => Text.ofString "year " ++ Text.ofInt y ++ Text.ofString " is out of range"
  | .monthOutOfRange => Text.ofString "month must be in 1..12"
  | .dayOutOfRange => Text.ofString "day is out of range for month"
  | .hourOutOfRange => Text.ofString "hour must be in 0..23"
  | .minuteOutOfRange => Text.ofString "minute must be in 0..59"
  | .secondOutOfRange => Text.ofString "second must be in 0..59"
  | .notSlashDate t =>
    Text.ofString "time data " ++ Text.quoted t ++ Text.ofString " does not match format '%m/%d/%Y'"
  | .trailing rest => Text.ofString "unconverted data remains: " ++ rest

/-- Calendar fields after reading, before they are checked. -/
structure DateFields where
  year : Nat
  month : Nat
  day : Nat
  hour : Nat := 0
  minute : Nat := 0
  second : Nat := 0
  micro : Nat := 0

/-- Check the fields of a date-time and build it, in the order year, month, day, hour, minute,
second. -/
def DateFields.check (f : DateFields) (offset : Option Int) : Except DateError DateTime := do
  if f.year < 1 || 9999 < f.year then throw (.yearOutOfRange f.year)
  if f.month < 1 || 12 < f.month then throw .monthOutOfRange
  if f.day < 1 || Calendar.daysInMonth f.year f.month < f.day then throw .dayOutOfRange
  if 23 < f.hour then throw .hourOutOfRange
  if 59 < f.minute then throw .minuteOutOfRange
  if 59 < f.second then throw .secondOutOfRange
  pure ⟨f.year, f.month, f.day, f.hour, f.minute, f.second, f.micro, offset⟩

namespace IsoText

/-- Octets read as a zero-terminated string: past the end there is a zero. -/
structure Octets where
  data : Array Nat

namespace Octets

/-- The octet at a position, zero past the end. -/
def octet (b : Octets) (i : Nat) : Nat := b.data.getD i 0

/-- The number of octets. -/
def size (b : Octets) : Nat := b.data.size

/-- The number of octets of the UTF-8 character whose first octet is `c`. -/
def charWidth (c : Nat) : Nat :=
  if c < 0x80 then 1 else if c / 16 == 0xE then 3 else if c / 16 == 0xF then 4 else 2

/-- Whether the octet at a position is an ASCII digit. -/
def digitAt (b : Octets) (i : Nat) : Bool := 0x30 ≤ b.octet i && b.octet i ≤ 0x39

/-- Exactly `n` digits from `i`: their value and the position after them. -/
def digits (b : Octets) (i n : Nat) : Option (Nat × Nat) :=
  (List.range n).foldl (fun acc k => do
    let (v, _) ← acc
    if b.digitAt (i + k) then some (10 * v + (b.octet (i + k) - 0x30), i + k + 1) else none)
    (some (0, i))

/-- The first position from `i` that is not a digit. -/
def skipDigits (b : Octets) (i : Nat) : Nat :=
  let rec go (fuel i : Nat) : Nat :=
    match fuel with
    | 0 => i
    | fuel + 1 => if b.digitAt i then go fuel (i + 1) else i
  go (b.size + 1) i

/-- The first position in `[i, stop)` holding `Z`, `+` or `-`, or `stop`. -/
def zoneStart (b : Octets) (i stop : Nat) : Nat :=
  let rec go (fuel i : Nat) : Nat :=
    match fuel with
    | 0 => stop
    | fuel + 1 =>
      if stop ≤ i then stop
      else if b.octet i == 0x5A || b.octet i == 0x2B || b.octet i == 0x2D then i
      else go fuel (i + 1)
  go (stop - i + 1) i

/-- Where the separator between date and time stands, judged from the shape of the date;
`none` when the shape is impossible. The text has at least seven octets. -/
def separatorAt (b : Octets) : Option Nat :=
  let len := b.size
  if len == 7 then some 7
  else if b.octet 4 == 0x2D then
    if b.octet 5 == 0x57 then
      if len < 8 then none
      else if 8 < len && b.octet 8 == 0x2D then
        if len == 9 then none
        else if 10 < len && b.digitAt 10 then some 8
        else some 10
      else some 8
    else some 10
  else if b.octet 4 == 0x57 then
    -- YYYYWww or YYYYWwwd: the digits that follow decide.
    let stop := b.skipDigits 7
    if stop < 9 then some stop
    else if stop % 2 == 0 then some 7 else some 8
  else some 8

/-- The date given by an ISO week date; `none` outside the weeks and days of that year. A year
zero lies before the calendar and gives no month. -/
def weekDate (year week day : Nat) : Option (Nat × Nat × Nat) :=
  if year == 0 then
    if 1 ≤ week && week ≤ 52 && 1 ≤ day && day ≤ 7 then some (1, 0, 0) else none
  else if (week == 0 || 53 < week || (week == 53 && !Calendar.hasWeek53 year)) then none
  else if day == 0 || 7 < day then none
  else
    let ord := Calendar.isoWeekOneMonday year + (week - 1) * 7 + (day - 1)
    let (y, m, d) := Calendar.civilFromDays (ord - 719163)
    some (y.toNat, m, d)

/-- The date part, whose separator stands at `sep`: year, month and day. -/
def date (b : Octets) (sep : Nat) : Option (Nat × Nat × Nat) := do
  let (year, p) ← b.digits 0 4
  let dashed := b.octet p == 0x2D
  let p := if dashed then p + 1 else p
  if b.octet p == 0x57 then
    let (week, p) ← b.digits (p + 1) 2
    let day ←
      if p < sep then do
        if dashed && b.octet p != 0x2D then none
        let p := if dashed then p + 1 else p
        let (day, _) ← b.digits p 1
        pure day
      else pure 1
    weekDate year week day
  else
    let (month, p) ← b.digits p 2
    if dashed && b.octet p != 0x2D then none
    let p := if dashed then p + 1 else p
    let (day, _) ← b.digits p 2
    pure (year, month, day)

/-- A clock read from `i` with the field region ending at `stop`: hours, minutes, seconds and
microseconds, and whether anything other than the end of the text follows. -/
structure Clock where
  hour : Nat := 0
  minute : Nat := 0
  second : Nat := 0
  micro : Nat := 0
  trailing : Bool

/-- The fraction digits from `p`: at most six are used, scaled to microseconds, and further
digits are skipped. -/
def fraction (b : Octets) (p stop : Nat) (fields : List Nat) : Option Clock := do
  let count := min (stop - p) 6
  let (f, p) ← b.digits p count
  let micro := f * Nat.pow 10 (6 - count)
  let p := b.skipDigits p
  let get (k : Nat) := fields.getD k 0
  pure ⟨get 0, get 1, get 2, micro, b.octet p != 0⟩

/-- Up to three two-digit fields from `p` (the `k`-th next), with colons throughout when
`colons`, then an optional fraction. -/
def clockFields (b : Octets) (stop : Nat) : (k : Nat) → (p : Nat) → (colons : Bool) →
    (fields : List Nat) → Option Clock
  | 0, p, _, fields => fraction b p stop fields
  | k + 1, p, colons, fields => do
    let (v, p) ← b.digits p 2
    let fields := fields ++ [v]
    let c := b.octet p
    let p := p + 1
    let colons := if fields.length == 1 then c == 0x3A else colons
    let get (j : Nat) := fields.getD j 0
    if stop ≤ p then some ⟨get 0, get 1, get 2, 0, c != 0⟩
    else if colons && c == 0x3A then clockFields b stop k p colons fields
    else if c == 0x2E || c == 0x2C then fraction b p stop fields
    else if !colons then clockFields b stop k (p - 1) colons fields
    else none

/-- A clock from `p`, fields ending at `stop`. -/
def clock (b : Octets) (p stop : Nat) : Option Clock := clockFields b stop 3 p true []

/-- The time part from `p`: the clock and the UTC offset in microseconds, if one is given. -/
def time (b : Octets) (p : Nat) : Option (Clock × Option Int) := do
  let stop := b.size
  let zone := b.zoneStart p stop
  let c ← clock b p zone
  if zone == stop then
    if c.trailing then none else pure (c, none)
  else if b.octet zone == 0x5A then
    if b.octet (zone + 1) != 0 then none else pure (c, some 0)
  else
    let negative := b.octet zone == 0x2D
    let z ← clock b (zone + 1) stop
    if z.trailing then none
    let seconds : Int := z.hour * 3600 + z.minute * 60 + z.second
    -- An offset of whole zero seconds is UTC, whatever its microseconds.
    if seconds == 0 then pure (c, some 0)
    else
      let us : Int := seconds * 1000000 + z.micro
      pure (c, some (if negative then -us else us))

end Octets

/-- The text with a surrogate in the first place where a separator may stand (7, 8 or 10) that
holds one replaced by `T`. The separator may be any one character, so this changes no reading of
a surrogate separator; it lets the rest work on UTF-8 octets. A surrogate anywhere else leaves the
text without a UTF-8 form, and the text is refused. -/
def replaceSeparator (t : Text) : Text :=
  let places := [7, 8, 10].filter (fun i => i ≤ t.length)
  match places.find? (fun i => Text.isSurrogate (t.points.getD i 0)) with
  | some i => ⟨t.points.set i 0x54⟩
  | none => t

end IsoText

/-- Read an ISO 8601 date-time. -/
def DateTime.ofIso (input : Text) : Except DateError DateTime := do
  let invalid : DateError := .notIso input
  if input.length < 7 then throw invalid
  let clean := IsoText.replaceSeparator input
  let bytes ← match Text.utf8 clean with
    | .ok bytes => pure bytes
    | .error _ => throw invalid
  let b : IsoText.Octets := ⟨bytes.toArray⟩
  let some sep := b.separatorAt | throw invalid
  let some (year, month, day) := b.date sep | throw invalid
  let (c, offset) ←
    if sep < b.size then
      match b.time (sep + IsoText.Octets.charWidth (b.octet sep)) with
      | some r => pure r
      | none => throw invalid
    else pure ({ trailing := false }, none)
  match offset with
  | some us => if us ≤ -86400000000 || 86400000000 ≤ us then throw (.offsetOutOfRange us)
  | none => pure ()
  DateFields.check ⟨year, month, day, c.hour, c.minute, c.second, c.micro⟩ offset

end HostInventory
