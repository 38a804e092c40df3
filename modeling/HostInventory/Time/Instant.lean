import HostInventory.Time.Civil
import HostInventory.Text.Basic
/-!
# Date-times and timestamps

A date-time is a calendar date, a time of day to the microsecond, and optionally an offset from
UTC. Without an offset it is naive and is taken as UTC wherever an instant is needed.

A timestamp is an instant as whole seconds since 1970-01-01T00:00:00Z and nanoseconds past that
second. The timestamp of a date-time rounds the seconds down, so its nanoseconds are a whole
number of microseconds in `[0, 10^9)`, also for instants before 1970; a timestamp given directly
holds whatever integers it was given. The zero time is the first instant of 0001-01-01 in
UTC, the collectors' mark for a value that was never set.

Texts: `isoText` is the extended ISO 8601 form (`2024-01-02T03:04:05`, the fraction only when
there are microseconds, the offset as `+HH:MM` with seconds and microseconds when needed), and
`describe` is the constructor-like form that diagnostics show.
-/

namespace HostInventory

/-- A calendar date, a time of day and an optional UTC offset in microseconds. -/
structure DateTime where
  year : Nat
  month : Nat
  day : Nat
  hour : Nat := 0
  minute : Nat := 0
  second : Nat := 0
  micro : Nat := 0
  offset : Option Int := none
deriving DecidableEq, Inhabited

/-- An instant as seconds since the epoch and nanoseconds past that second. -/
structure Timestamp where
  seconds : Int
  nanos : Int
deriving DecidableEq, Inhabited

namespace DateTime

/-- Microseconds since 1970-01-01T00:00:00Z of the instant; a naive value counts as UTC. -/
def epochMicros (d : DateTime) : Int :=
  let days := Calendar.daysFromCivil d.year d.month d.day
  let wall : Int := ((days * 86400 + d.hour * 3600 + d.minute * 60 + d.second) * 1000000 +
    d.micro)
  wall - d.offset.getD 0

/-- The timestamp of the instant. -/
def toTimestamp (d : DateTime) : Timestamp :=
  let us := d.epochMicros
  ⟨us / 1000000, us % 1000000 * 1000⟩

/-- Microseconds since the epoch of the zero time, 0001-01-01T00:00:00Z. -/
def zeroMicros : Int := -62135596800 * 1000000

/-- Whether the instant is the zero time, whatever the offset. -/
def isZero (d : DateTime) : Bool := d.epochMicros == zeroMicros

/-- A signed duration in microseconds as `±HH:MM`, with `:SS` and `.ffffff` when not zero. -/
def offsetText (us : Int) : Text :=
  let sign := if us < 0 then Text.ofString "-" else Text.ofString "+"
  let a := us.natAbs
  let secs := a / 1000000
  let micros := a % 1000000
  let base := sign ++ pad2 (secs / 3600) ++ Text.ofString ":" ++ pad2 (secs / 60 % 60)
  if micros != 0 then
    base ++ Text.ofString ":" ++ pad2 (secs % 60) ++ Text.ofString "." ++ padZeros 6 micros
  else if secs % 60 != 0 then base ++ Text.ofString ":" ++ pad2 (secs % 60)
  else base

/-- The extended ISO 8601 text. -/
def isoText (d : DateTime) : Text :=
  let date := padZeros 4 d.year ++ Text.ofString "-" ++ pad2 d.month ++ Text.ofString "-" ++
    pad2 d.day
  let time := pad2 d.hour ++ Text.ofString ":" ++ pad2 d.minute ++ Text.ofString ":" ++
    pad2 d.second
  let fraction := if d.micro != 0 then Text.ofString "." ++ padZeros 6 d.micro else Text.empty
  let zone := match d.offset with
    | some us => offsetText us
    | none => Text.empty
  date ++ Text.ofString "T" ++ time ++ fraction ++ zone

/-- A duration in microseconds in constructor form: days (rounded down), seconds and
microseconds, each shown when not zero. -/
def durationText (us : Int) : Text :=
  let days := us / 86400000000
  let rest := us - days * 86400000000
  let seconds := rest / 1000000
  let micros := rest % 1000000
  let parts : List Text :=
    (if days != 0 then [Text.ofString "days=" ++ Text.ofInt days] else []) ++
    (if seconds != 0 then [Text.ofString "seconds=" ++ Text.ofInt seconds] else []) ++
    (if micros != 0 then [Text.ofString "microseconds=" ++ Text.ofInt micros] else [])
  let args := if parts.isEmpty then Text.ofString "0" else Text.intercalate (Text.ofString ", ") parts
  Text.ofString "datetime.timedelta(" ++ args ++ Text.ofString ")"

/-- The constructor form of a date-time, as diagnostics show it. -/
def describe (d : DateTime) : Text :=
  let fields : List Nat :=
    [d.year, d.month, d.day, d.hour, d.minute] ++
      (if d.micro != 0 then [d.second, d.micro] else if d.second != 0 then [d.second] else [])
  let zone : Text := match d.offset with
    | none => Text.empty
    | some 0 => Text.ofString ", tzinfo=datetime.timezone.utc"
    | some us =>
      Text.ofString ", tzinfo=datetime.timezone(" ++ durationText us ++ Text.ofString ")"
  Text.ofString "datetime.datetime(" ++
    Text.intercalate (Text.ofString ", ") (fields.map Text.ofNat) ++ zone ++ Text.ofString ")"

end DateTime

example : (DateTime.mk 2000 2 29 0 0 0 0 (some 19815000000)).toTimestamp = ⟨951762585, 0⟩ := by
  decide
example : (DateTime.mk 1 1 1 1 0 0 0 (some 3600000000)).isZero = true := by decide
example : (DateTime.mk 1969 12 31 23 59 59 500000 none).toTimestamp = ⟨-1, 500000000⟩ := by decide

end HostInventory
