import HostInventory.Proofs.Time.Timestamp
import HostInventory.Time.SlashDate
/-!
# The language of slash dates

A slash date is written as a month, a slash, a day, a slash and a year (`Written`), each field in
one of the spellings of `MonthText`, `DayText` and `YearText`. Reading a slash date accepts
exactly the trimmed texts so written whose year is at least one and whose day exists in its
month, and gives midnight UTC of that date, whose timestamp is the plain count of its days from
the epoch (`read_accepts_written`). Otherwise it refuses the text with the first of four reasons
that applies: no start of the text is a slash date, a start is but more text follows, the year is
zero, or the day does not exist in its month.

The fields never compete. The reader takes the first spelling of a field that fits, and a longer
spelling ends in a digit where a shorter one would be followed by the slash. So a text has at
most one start written as a slash date, and the reader finds it (`fields_eq_some_iff`).

Digits of any script count as decimal digits in the year and as the second digit of a day from
10 to 29; months and all other day digits are ASCII.
-/

namespace HostInventory.SlashDate

/-- A month as written, with its value: `10` to `12`, `01` to `09`, or `1` to `9`. -/
inductive MonthText : List Nat → Nat → Prop
  | tens {b : Nat} : 0x30 ≤ b → b ≤ 0x32 → MonthText [0x31, b] (10 + (b - 0x30))
  | padded {b : Nat} : 0x31 ≤ b → b ≤ 0x39 → MonthText [0x30, b] (b - 0x30)
  | single {a : Nat} : 0x31 ≤ a → a ≤ 0x39 → MonthText [a] (a - 0x30)

/-- A day as written, with its value: `30` or `31`; `1` or `2` followed by a decimal digit of any
script; `01` to `09`; `1` to `9`; or a space followed by `1` to `9`. -/
inductive DayText : List Nat → Nat → Prop
  | thirties {b : Nat} : 0x30 ≤ b → b ≤ 0x31 → DayText [0x33, b] (30 + (b - 0x30))
  | teens {a b v : Nat} : 0x31 ≤ a → a ≤ 0x32 → Text.digitValue? b = some v →
      DayText [a, b] (10 * (a - 0x30) + v)
  | padded {b : Nat} : 0x31 ≤ b → b ≤ 0x39 → DayText [0x30, b] (b - 0x30)
  | single {a : Nat} : 0x31 ≤ a → a ≤ 0x39 → DayText [a] (a - 0x30)
  | spaced {b : Nat} : 0x31 ≤ b → b ≤ 0x39 → DayText [0x20, b] (b - 0x30)

/-- A year as written: four decimal digits of any script. -/
inductive YearText : List Nat → Nat → Prop
  | digits {a b c d va vb vc vd : Nat} : Text.digitValue? a = some va →
      Text.digitValue? b = some vb → Text.digitValue? c = some vc → Text.digitValue? d = some vd →
      YearText [a, b, c, d] (1000 * va + 100 * vb + 10 * vc + vd)

/-- A text written as a slash date: a month, a slash, a day, a slash and a year. -/
def Written (cs : List Nat) (month day year : Nat) : Prop :=
  ∃ m d y, cs = m ++ 0x2F :: (d ++ 0x2F :: y) ∧ MonthText m month ∧ DayText d day ∧
    YearText y year

theorem MonthText.range {m : List Nat} {v : Nat} (written : MonthText m v) : 1 ≤ v ∧ v ≤ 12 := by
  cases written <;> omega

theorem DayText.pos {d : List Nat} {v : Nat} (written : DayText d v) : 1 ≤ v := by
  cases written <;> omega

theorem Written.monthRange {cs : List Nat} {month day year : Nat}
    (written : Written cs month day year) : 1 ≤ month ∧ month ≤ 12 := by
  obtain ⟨_, _, _, _, monthText, _, _⟩ := written
  exact monthText.range

theorem Written.dayPos {cs : List Nat} {month day year : Nat}
    (written : Written cs month day year) : 1 ≤ day := by
  obtain ⟨_, _, _, _, _, dayText, _⟩ := written
  exact dayText.pos

/-! ### Each field is read by its spelling -/

theorem slash_not_digit : Text.digitValue? 0x2F = none := by decide

theorem month_written {m rest : List Nat} {v : Nat} (written : MonthText m v) :
    month (m ++ 0x2F :: rest) = some (v, 0x2F :: rest) := by
  cases written with
  | tens lo hi => simp [month, asciiIn, lo, hi]
  | padded lo hi => simp [month, asciiIn, lo, hi]
  | single lo hi =>
    simp [month, asciiIn]
    omega

theorem month_sound {cs rest : List Nat} {v : Nat} (read : month cs = some (v, rest)) :
    ∃ m, cs = m ++ rest ∧ MonthText m v := by
  match cs, read with
  | a :: b :: tail, read =>
    simp only [month, asciiIn, Bool.and_eq_true, beq_iff_eq, decide_eq_true_eq] at read
    split_ifs at read with tens padded single
    · simp only [Option.some.injEq, Prod.mk.injEq] at read
      obtain ⟨rfl, rfl⟩ := read
      obtain ⟨rfl, lo, hi⟩ := tens
      exact ⟨[0x31, b], rfl, .tens (by omega) (by omega)⟩
    · simp only [Option.some.injEq, Prod.mk.injEq] at read
      obtain ⟨rfl, rfl⟩ := read
      obtain ⟨rfl, lo, hi⟩ := padded
      exact ⟨[0x30, b], rfl, .padded (by omega) (by omega)⟩
    · simp only [Option.some.injEq, Prod.mk.injEq] at read
      obtain ⟨rfl, rfl⟩ := read
      exact ⟨[a], rfl, .single (by omega) (by omega)⟩
  | [a], read =>
    simp only [month, asciiIn, Bool.and_eq_true, decide_eq_true_eq] at read
    split_ifs at read with single
    simp only [Option.some.injEq, Prod.mk.injEq] at read
    obtain ⟨rfl, rfl⟩ := read
    exact ⟨[a], rfl, .single (by omega) (by omega)⟩
  | [], read => simp [month] at read

theorem day_written {d rest : List Nat} {v : Nat} (written : DayText d v) :
    day (d ++ 0x2F :: rest) = some (v, 0x2F :: rest) := by
  cases written with
  | thirties lo hi => simp [day, asciiIn, lo, hi]
  | @teens a b v lo hi digit =>
    have notThree : a ≠ 0x33 := by omega
    simp [day, asciiIn, digit, notThree, lo, hi]
  | padded lo hi => simp [day, asciiIn, lo, hi]
  | single lo hi =>
    simp [day, asciiIn, slash_not_digit]
    omega
  | spaced lo hi => simp [day, asciiIn, lo, hi]

theorem day_sound {cs rest : List Nat} {v : Nat} (read : day cs = some (v, rest)) :
    ∃ d, cs = d ++ rest ∧ DayText d v := by
  match cs, read with
  | a :: b :: tail, read =>
    simp only [day, asciiIn, Bool.and_eq_true, beq_iff_eq, decide_eq_true_eq] at read
    split_ifs at read with thirties teens padded single spaced
    · simp only [Option.some.injEq, Prod.mk.injEq] at read
      obtain ⟨rfl, rfl⟩ := read
      obtain ⟨rfl, lo, hi⟩ := thirties
      exact ⟨[0x33, b], rfl, .thirties (by omega) (by omega)⟩
    · simp only [Option.some.injEq, Prod.mk.injEq] at read
      obtain ⟨rfl, rfl⟩ := read
      obtain ⟨⟨lo, hi⟩, digit⟩ := teens
      obtain ⟨value, isValue⟩ := Option.isSome_iff_exists.mp digit
      rw [isValue, Option.getD_some]
      exact ⟨[a, b], rfl, .teens (by omega) (by omega) isValue⟩
    · simp only [Option.some.injEq, Prod.mk.injEq] at read
      obtain ⟨rfl, rfl⟩ := read
      obtain ⟨rfl, lo, hi⟩ := padded
      exact ⟨[0x30, b], rfl, .padded (by omega) (by omega)⟩
    · simp only [Option.some.injEq, Prod.mk.injEq] at read
      obtain ⟨rfl, rfl⟩ := read
      exact ⟨[a], rfl, .single (by omega) (by omega)⟩
    · simp only [Option.some.injEq, Prod.mk.injEq] at read
      obtain ⟨rfl, rfl⟩ := read
      obtain ⟨rfl, lo, hi⟩ := spaced
      exact ⟨[0x20, b], rfl, .spaced (by omega) (by omega)⟩
  | [a], read =>
    simp only [day, asciiIn, Bool.and_eq_true, decide_eq_true_eq] at read
    split_ifs at read with single
    simp only [Option.some.injEq, Prod.mk.injEq] at read
    obtain ⟨rfl, rfl⟩ := read
    exact ⟨[a], rfl, .single (by omega) (by omega)⟩
  | [], read => simp [day] at read

theorem year_written {y rest : List Nat} {v : Nat} (written : YearText y v) :
    year (y ++ rest) = some (v, rest) := by
  cases written with
  | digits ha hb hc hd => simp [year, ha, hb, hc, hd]

theorem year_sound {cs rest : List Nat} {v : Nat} (read : year cs = some (v, rest)) :
    ∃ y, cs = y ++ rest ∧ YearText y v := by
  match cs, read with
  | a :: b :: c :: d :: tail, read =>
    simp only [year, Option.bind_eq_bind, Option.pure_def, Option.bind_eq_some_iff,
      Option.some.injEq, Prod.mk.injEq] at read
    obtain ⟨va, ha, vb, hb, vc, hc, vd, hd, rfl, rfl⟩ := read
    exact ⟨[a, b, c, d], rfl, .digits ha hb hc hd⟩
  | [], read => simp [year] at read
  | [_], read => simp [year] at read
  | [_, _], read => simp [year] at read
  | [_, _, _], read => simp [year] at read

/-! ### The fields of a slash date -/

theorem fields_written {pre : List Nat} {month day year : Nat}
    (written : Written pre month day year) (rest : List Nat) :
    fields (pre ++ rest) = some ((month, day, year), rest) := by
  obtain ⟨m, d, y, rfl, monthText, dayText, yearText⟩ := written
  have regrouped : m ++ 0x2F :: (d ++ 0x2F :: y) ++ rest = m ++ 0x2F :: (d ++ 0x2F :: (y ++ rest)) := by
    simp
  rw [regrouped]
  simp [fields, month_written monthText, day_written dayText, year_written yearText]

theorem fields_sound {cs rest : List Nat} {month day year : Nat}
    (parsed : fields cs = some ((month, day, year), rest)) :
    ∃ pre, cs = pre ++ rest ∧ Written pre month day year := by
  simp only [fields, Option.bind_eq_bind, Option.pure_def, Option.bind_eq_some_iff] at parsed
  obtain ⟨⟨monthValue, afterMonth⟩, readMonth, parsed⟩ := parsed
  split at parsed
  · next afterSlash isSlash =>
    simp only [Option.bind_eq_some_iff, Option.some.injEq, exists_eq_left'] at parsed
    obtain ⟨⟨dayValue, afterDay⟩, readDay, parsed⟩ := parsed
    split at parsed
    · next afterSlash' isSlash' =>
      simp only [Option.bind_eq_some_iff, Option.some.injEq, exists_eq_left', Prod.mk.injEq] at parsed
      obtain ⟨⟨yearValue, afterYear⟩, readYear, ⟨monthEq, dayEq, yearEq⟩, restEq⟩ := parsed
      simp only at isSlash isSlash' yearEq restEq
      subst monthEq dayEq yearEq restEq isSlash isSlash'
      obtain ⟨m, rfl, monthText⟩ := month_sound readMonth
      obtain ⟨d, rfl, dayText⟩ := day_sound readDay
      obtain ⟨y, rfl, yearText⟩ := year_sound readYear
      exact ⟨m ++ 0x2F :: (d ++ 0x2F :: y), by simp, m, d, y, rfl, monthText, dayText, yearText⟩
    · simp at parsed
  · simp at parsed

/-- The fields the reader finds are those of the start of the text written as a slash date. -/
theorem fields_eq_some_iff {cs rest : List Nat} {month day year : Nat} :
    fields cs = some ((month, day, year), rest) ↔ ∃ pre, cs = pre ++ rest ∧ Written pre month day year :=
  ⟨fields_sound, fun ⟨_, split, written⟩ => split ▸ fields_written written rest⟩

/-- A text has at most one start written as a slash date. -/
theorem written_unique {cs pre pre' rest rest' : List Nat} {month day year month' day' year' : Nat}
    (split : cs = pre ++ rest) (written : Written pre month day year)
    (split' : cs = pre' ++ rest') (written' : Written pre' month' day' year') :
    rest' = rest ∧ month' = month ∧ day' = day ∧ year' = year := by
  have first := fields_written written rest
  have second := fields_written written' rest'
  rw [← split] at first
  rw [← split', first] at second
  simp only [Option.some.injEq, Prod.mk.injEq] at second
  exact ⟨second.2.symm, second.1.1.symm, second.1.2.1.symm, second.1.2.2.symm⟩

theorem fields_eq_none_iff {cs : List Nat} :
    fields cs = none ↔ ∀ pre rest month day year, cs = pre ++ rest → ¬Written pre month day year := by
  constructor
  · intro unparsed pre rest month day year split written
    rw [split, fields_written written rest] at unparsed
    cases unparsed
  · intro unwritten
    cases parsed : fields cs with
    | none => rfl
    | some result =>
      obtain ⟨⟨month, day, year⟩, rest⟩ := result
      obtain ⟨pre, split, written⟩ := fields_sound parsed
      exact absurd written (unwritten pre rest month day year split)

/-! ### Reading -/

/-- Reading a slash date, as plain cases on the fields at the start of the trimmed text. -/
theorem read_eq (input : Text) :
    read input =
      match fields (Text.trim input).points with
      | none => .error (.notSlashDate (Text.trim input))
      | some ((month, day, year), rest) =>
        if rest ≠ [] then .error (.trailing ⟨rest⟩)
        else if year = 0 then .error (.yearOutOfRange 0)
        else if day = 0 ∨ Calendar.daysInMonth year month < day then .error .dayOutOfRange
        else .ok ⟨year, month, day, 0, 0, 0, 0, some 0⟩ := by
  cases parsed : fields (Text.trim input).points with
  | none =>
    simp [read, parsed]
    rfl
  | some result =>
    obtain ⟨⟨month, day, year⟩, rest⟩ := result
    simp only [read, parsed]
    split_ifs <;> simp_all <;> rfl

variable {input : Text}

theorem read_eq_ok_iff {date : DateTime} :
    read input = .ok date ↔ ∃ month day year, Written (Text.trim input).points month day year ∧
      1 ≤ year ∧ day ≤ Calendar.daysInMonth year month ∧ date = ⟨year, month, day, 0, 0, 0, 0, some 0⟩ := by
  rw [read_eq]
  cases parsed : fields (Text.trim input).points with
  | none =>
    simp only [reduceCtorEq, false_iff, not_exists, not_and]
    intro month day year written
    exact absurd written (fields_eq_none_iff.mp parsed _ [] month day year (List.append_nil _).symm)
  | some result =>
    obtain ⟨⟨month, day, year⟩, rest⟩ := result
    obtain ⟨pre, split, written⟩ := fields_sound parsed
    dsimp only
    constructor
    · intro accepted
      split_ifs at accepted with trailing yearZero dayOut
      cases accepted
      have whole : rest = [] := by simpa using trailing
      subst whole
      rw [List.append_nil] at split
      exact ⟨month, day, year, split ▸ written, by omega, by omega, rfl⟩
    · rintro ⟨month', day', year', written', yearPos, dayIn, rfl⟩
      obtain ⟨whole, rfl, rfl, rfl⟩ := written_unique split written (List.append_nil _).symm written'
      subst whole
      have dayPos := written'.dayPos
      simp only [ne_eq, not_true_eq_false, if_false]
      rw [if_neg (by omega), if_neg (by omega)]

theorem read_eq_notSlashDate_iff :
    read input = .error (.notSlashDate (Text.trim input)) ↔
      ∀ pre rest month day year, (Text.trim input).points = pre ++ rest → ¬Written pre month day year := by
  rw [read_eq, ← fields_eq_none_iff]
  cases parsed : fields (Text.trim input).points with
  | none => simp
  | some result =>
    obtain ⟨⟨month, day, year⟩, rest⟩ := result
    simp only [reduceCtorEq, iff_false]
    split_ifs <;> simp

theorem read_eq_trailing_iff {rest : List Nat} :
    read input = .error (.trailing ⟨rest⟩) ↔
      rest ≠ [] ∧ ∃ pre month day year, (Text.trim input).points = pre ++ rest ∧
        Written pre month day year := by
  rw [read_eq]
  cases parsed : fields (Text.trim input).points with
  | none =>
    simp only [Except.error.injEq, reduceCtorEq, false_iff, not_and, not_exists]
    intro _ pre month day year split written
    exact fields_eq_none_iff.mp parsed pre rest month day year split written
  | some result =>
    obtain ⟨⟨month, day, year⟩, found⟩ := result
    obtain ⟨pre, split, written⟩ := fields_sound parsed
    dsimp only
    constructor
    · intro refused
      split_ifs at refused with trailing <;> simp at refused
      subst refused
      exact ⟨trailing, pre, month, day, year, split, written⟩
    · rintro ⟨nonEmpty, pre', month', day', year', split', written'⟩
      obtain ⟨rfl, -, -, -⟩ := written_unique split written split' written'
      simp [nonEmpty]

theorem read_eq_yearOutOfRange_iff :
    read input = .error (.yearOutOfRange 0) ↔ ∃ month day, Written (Text.trim input).points month day 0 := by
  rw [read_eq]
  cases parsed : fields (Text.trim input).points with
  | none =>
    simp only [Except.error.injEq, reduceCtorEq, false_iff, not_exists]
    intro month day written
    exact fields_eq_none_iff.mp parsed _ [] month day 0 (List.append_nil _).symm written
  | some result =>
    obtain ⟨⟨month, day, year⟩, rest⟩ := result
    obtain ⟨pre, split, written⟩ := fields_sound parsed
    dsimp only
    constructor
    · intro refused
      split_ifs at refused with trailing yearZero <;> simp at refused
      have whole : rest = [] := by simpa using trailing
      subst whole yearZero
      rw [List.append_nil] at split
      exact ⟨month, day, split ▸ written⟩
    · rintro ⟨month', day', written'⟩
      obtain ⟨whole, -, -, rfl⟩ := written_unique split written (List.append_nil _).symm written'
      simp [← whole]

theorem read_eq_dayOutOfRange_iff :
    read input = .error .dayOutOfRange ↔ ∃ month day year, Written (Text.trim input).points month day year ∧
      1 ≤ year ∧ Calendar.daysInMonth year month < day := by
  rw [read_eq]
  cases parsed : fields (Text.trim input).points with
  | none =>
    simp only [Except.error.injEq, reduceCtorEq, false_iff, not_exists, not_and]
    intro month day year written
    exact absurd written (fields_eq_none_iff.mp parsed _ [] month day year (List.append_nil _).symm)
  | some result =>
    obtain ⟨⟨month, day, year⟩, rest⟩ := result
    obtain ⟨pre, split, written⟩ := fields_sound parsed
    have dayPos := written.dayPos
    dsimp only
    constructor
    · intro refused
      split_ifs at refused with trailing yearZero dayOut <;> simp at refused
      have whole : rest = [] := by simpa using trailing
      subst whole
      rw [List.append_nil] at split
      exact ⟨month, day, year, split ▸ written, by omega, by omega⟩
    · rintro ⟨month', day', year', written', yearPos, dayOut⟩
      obtain ⟨whole, rfl, rfl, rfl⟩ := written_unique split written (List.append_nil _).symm written'
      subst whole
      simp only [ne_eq, not_true_eq_false, if_false]
      rw [if_neg (by omega), if_pos (by omega)]

/-- Midnight UTC of a date has the plain count of days from the epoch as its timestamp. -/
theorem midnight_toTimestamp {year month day : Nat} (yearPos : 1 ≤ year)
    (inMonths : 1 ≤ month ∧ month ≤ 12) :
    (⟨year, month, day, 0, 0, 0, 0, some 0⟩ : DateTime).toTimestamp =
      ⟨((Calendar.dayNumber year month day : Int) - Calendar.dayNumber 1970 1 1) * 86400, 0⟩ := by
  rw [DateTime.toTimestamp_eq, DateTime.epochMicros_eq _ yearPos inMonths, Timestamp.mk.injEq]
  simp only [Option.getD_some, Nat.cast_zero]
  omega

/-- Reading a slash date accepts exactly the trimmed texts written as a slash date whose year is
at least one and whose day exists in its month, and gives midnight UTC of that date, whose
timestamp counts its days from the epoch. It refuses every other text for the first reason that
applies: no start of the text is written as a slash date; a start is, but more text follows, which
the refusal names; the year is zero; the day does not exist in its month. Each refusal says why in
the words given. -/
theorem read_accepts_written (input : Text) :
    let t := Text.trim input
    (∀ date, read input = .ok date ↔ ∃ month day year, Written t.points month day year ∧
        1 ≤ year ∧ day ≤ Calendar.daysInMonth year month ∧
          date = ⟨year, month, day, 0, 0, 0, 0, some 0⟩) ∧
      (∀ date, read input = .ok date → date.toTimestamp =
        ⟨((Calendar.dayNumber date.year date.month date.day : Int) -
          Calendar.dayNumber 1970 1 1) * 86400, 0⟩) ∧
      (read input = .error (.notSlashDate t) ↔
        ∀ pre rest month day year, t.points = pre ++ rest → ¬Written pre month day year) ∧
      (∀ rest, read input = .error (.trailing ⟨rest⟩) ↔
        rest ≠ [] ∧ ∃ pre month day year, t.points = pre ++ rest ∧ Written pre month day year) ∧
      (read input = .error (.yearOutOfRange 0) ↔ ∃ month day, Written t.points month day 0) ∧
      (read input = .error .dayOutOfRange ↔ ∃ month day year, Written t.points month day year ∧
        1 ≤ year ∧ Calendar.daysInMonth year month < day) ∧
      (DateError.notSlashDate t).message = Text.ofString "time data " ++ Text.quoted t ++
        Text.ofString " does not match format '%m/%d/%Y'" ∧
      (∀ rest, (DateError.trailing ⟨rest⟩).message =
        Text.ofString "unconverted data remains: " ++ ⟨rest⟩) ∧
      (DateError.yearOutOfRange 0).message = Text.ofString "year 0 is out of range" ∧
      DateError.dayOutOfRange.message = Text.ofString "day is out of range for month" := by
  intro t
  refine ⟨fun _ => read_eq_ok_iff, fun _ accepted => ?_, read_eq_notSlashDate_iff,
    fun _ => read_eq_trailing_iff, read_eq_yearOutOfRange_iff, read_eq_dayOutOfRange_iff, rfl,
    fun _ => rfl, by decide, rfl⟩
  obtain ⟨month, day, year, written, yearPos, -, rfl⟩ := read_eq_ok_iff.mp accepted
  exact midnight_toTimestamp yearPos written.monthRange

/-- A year written in Arabic-Indic digits is read: `1/2/٢٠٠٦` is the second of January 2006,
though its year is not written in ASCII digits. -/
theorem read_accepts_arabic_indic_year :
    let year := [0x662, 0x660, 0x660, 0x666]
    read ⟨[0x31, 0x2F, 0x32, 0x2F] ++ year⟩ = .ok ⟨2006, 1, 2, 0, 0, 0, 0, some 0⟩ ∧
      year.all Text.isAsciiDigit = false := by
  decide

end HostInventory.SlashDate
