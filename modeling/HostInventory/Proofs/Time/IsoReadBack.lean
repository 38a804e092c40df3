import HostInventory.Time.Iso
import HostInventory.Proofs.Json.NumberTexts
/-!
# Reading an ISO text back

Writing a date-time as ISO text and reading the text back gives the date-time again
(`DateTime.ofIso_isoText`), for every date-time of the kind the reader gives (`DateTime.Valid`): a
date of the calendar from year 1 to 9999, a time of day to the microsecond, and an offset strictly
inside a day that is either zero or at least a second. The reader gives no other kind
(`DateTime.ofIso_valid`): it takes an offset of no whole second as UTC, and that is the one thing
that could not come back. So the date-times the reader gives are exactly those it reads back from
their own text (`DateTime.valid_iff_read`).

The reader works on octets by position. The proofs follow it through the octets from a position on
(`IsoText.Octets.drop`): a field written in a fixed number of digits (`FixedDigits`) reads as its
value, a zone starts after the last octet that cannot start one, and each part of the text, the
date, the clock and the offset, is read back on its own.
-/

namespace HostInventory

open Binary64 Json

/-! ### Numbers written in a fixed number of digits -/

/-- `cs` writes `n` in exactly `width` decimal digits. -/
def FixedDigits (width n : Nat) (cs : List Nat) : Prop :=
  ∃ ds, cs = digitCodes ds ∧ ds.length = width ∧ (∀ d ∈ ds, d < 10) ∧ decimalValue ds = n

namespace FixedDigits

variable {width n : Nat} {cs : List Nat}

theorem length_eq (fixed : FixedDigits width n cs) : cs.length = width := by
  obtain ⟨ds, rfl, length, -, -⟩ := fixed
  simpa using length

theorem digit (fixed : FixedDigits width n cs) : ∀ c ∈ cs, 0x30 ≤ c ∧ c ≤ 0x39 := by
  obtain ⟨ds, rfl, -, small, -⟩ := fixed
  intro c mem
  simp only [digitCodes, List.mem_map] at mem
  obtain ⟨k, digit, rfl⟩ := mem
  have := small k digit
  omega

end FixedDigits

theorem padZeros_points (width n : Nat) :
    (padZeros width n).points =
      digitCodes (List.replicate (width - (decimalDigits n).length) 0 ++ decimalDigits n) := by
  simp [padZeros, digitCodes_append, Numeral.digitCodes_replicate_zero, digitCodes_decimalDigits,
    Numeral.length_decimalDigits, Text.length]

/-- A number below `10 ^ width` has at most `width` digits. -/
theorem length_decimalDigits_le {width n : Nat} (pos : 0 < width) (fits : n < 10 ^ width) :
    (decimalDigits n).length ≤ width := by
  rcases Nat.eq_zero_or_pos n with rfl | positive
  · have zero : decimalDigits 0 = [0] := by decide
    simp only [zero, List.length_singleton]
    omega
  · obtain ⟨first, rest, digits, firstPos⟩ := decimalDigits_cons positive
    have atLeast := le_decimalValue firstPos rest
    rw [← digits, decimalValue_decimalDigits] at atLeast
    have shorter : rest.length < width :=
      (Nat.pow_lt_pow_iff_right (by norm_num)).mp (lt_of_le_of_lt atLeast fits)
    simpa [digits] using shorter

/-- A number of at least `10 ^ k` has more than `k` digits. -/
theorem lt_length_decimalDigits {k n : Nat} (large : 10 ^ k ≤ n) :
    k < (decimalDigits n).length := by
  have below := decimalValue_lt (decimalDigits_lt n)
  rw [decimalValue_decimalDigits] at below
  exact (Nat.pow_lt_pow_iff_right (by norm_num)).mp (lt_of_le_of_lt large below)

theorem fixedDigits_padZeros {width n : Nat} (pos : 0 < width) (fits : n < 10 ^ width) :
    FixedDigits width n (padZeros width n).points := by
  have short := length_decimalDigits_le pos fits
  refine ⟨_, padZeros_points width n, by simp; omega, ?_, ?_⟩
  · intro d mem
    rcases List.mem_append.mp mem with zero | digit
    · rw [List.eq_of_mem_replicate zero]
      norm_num
    · exact decimalDigits_lt n d digit
  · rw [Numeral.decimalValue_zeros_append, decimalValue_decimalDigits]

/-- Below a hundred, two places of padding are the same whichever way they are written. -/
theorem pad2_eq_padZeros {n : Nat} (small : n < 100) : pad2 n = padZeros 2 n := by
  have short := length_decimalDigits_le (by norm_num) (show n < 10 ^ 2 by simpa using small)
  have length : (Text.ofNat n).length = (decimalDigits n).length := by
    rw [Numeral.length_decimalDigits, Text.length]
  unfold pad2 padZeros
  by_cases single : n < 10
  · have one : (decimalDigits n).length = 1 := by
      rcases Nat.eq_zero_or_pos n with rfl | positive
      · decide
      · have := lt_length_decimalDigits (k := 0) (n := n) (by simp only [pow_zero]; omega)
        have : (decimalDigits n).length ≤ 1 :=
          length_decimalDigits_le (by norm_num) (by simpa using single)
        omega
    simp only [single, if_true, length, one]
    rfl
  · have two : (decimalDigits n).length = 2 := by
      have := lt_length_decimalDigits (k := 1) (n := n) (by simpa using Nat.le_of_not_lt single)
      omega
    simp only [single, if_false, length, two]
    rfl

theorem fixedDigits_pad2 {n : Nat} (small : n < 100) : FixedDigits 2 n (pad2 n).points := by
  rw [pad2_eq_padZeros small]
  exact fixedDigits_padZeros (by norm_num) (by simpa using small)

/-! ### ASCII texts -/

namespace Text

/-- A text of ASCII characters only. -/
def IsAscii (t : Text) : Prop := ∀ c ∈ t.points, c < 0x80

instance : DecidablePred IsAscii := fun t => inferInstanceAs (Decidable (∀ c ∈ t.points, c < 0x80))

@[simp] theorem isAscii_append (a b : Text) : (a ++ b).IsAscii ↔ a.IsAscii ∧ b.IsAscii := by
  simp [IsAscii, or_imp, forall_and]

@[simp] theorem isAscii_ofNat (n : Nat) : (Text.ofNat n).IsAscii := by
  intro c mem
  have := Json.digit_of_mem_toString (n := n) (by simpa [Text.ofNat, Text.ofString] using mem)
  omega

@[simp] theorem isAscii_padZeros (width n : Nat) : (padZeros width n).IsAscii := by
  intro c mem
  simp only [padZeros, List.mem_append] at mem
  rcases mem with zero | digit
  · rw [List.eq_of_mem_replicate zero]
    decide
  · exact isAscii_ofNat n c digit

@[simp] theorem isAscii_pad2 (n : Nat) : (pad2 n).IsAscii := by
  unfold pad2
  split <;> simp +decide

/-- An ASCII text is its own UTF-8 form. -/
theorem utf8_of_isAscii {t : Text} (ascii : t.IsAscii) : utf8 t = .ok t.points := by
  have noSurrogate : t.points.findIdx? isSurrogate = none := by
    rw [List.findIdx?_eq_none_iff]
    intro c mem
    have := ascii c mem
    simp only [isSurrogate, Bool.and_eq_false_iff, decide_eq_false_iff_not, Nat.not_le]
    omega
  have single : ∀ cs : List Nat, (∀ c ∈ cs, c < 0x80) → cs.flatMap utf8Point = cs := by
    intro cs
    induction cs with
    | nil => intro _; rfl
    | cons c cs ih =>
      intro small
      have first := small c List.mem_cons_self
      simp [utf8Point, first, ih (fun c' mem => small c' (List.mem_cons_of_mem c mem))]
  simp [utf8, noSurrogate, single t.points ascii]

end Text

theorem Calendar.daysInMonth_le (year month : Nat) : Calendar.daysInMonth year month ≤ 31 := by
  unfold Calendar.daysInMonth
  split_ifs <;> omega

theorem IsoText.replaceSeparator_of_isAscii {t : Text} (ascii : t.IsAscii) :
    IsoText.replaceSeparator t = t := by
  have noSurrogate : ∀ i : Nat, Text.isSurrogate (t.points[i]?.getD 0) = false := by
    intro i
    cases found : t.points[i]? with
    | none => rfl
    | some c =>
      have := ascii c (List.mem_of_getElem? found)
      simp only [Option.getD_some, Text.isSurrogate, Bool.and_eq_false_iff, decide_eq_false_iff_not,
        Nat.not_le]
      omega
  simp [IsoText.replaceSeparator, noSurrogate]

end HostInventory

namespace HostInventory.IsoText.Octets

open Binary64 Json

/-! ### Reading octets from a position on -/

/-- The octets from position `i` on. -/
def drop (b : Octets) (i : Nat) : List Nat := b.data.toList.drop i

variable {b : Octets} {i c : Nat} {xs rest : List Nat}

theorem octet_eq_getD (b : Octets) (i k : Nat) : b.octet (i + k) = (b.drop i).getD k 0 := by
  simp [octet, drop, Array.getD_eq_getD_getElem?]

theorem octet_eq_of_drop (h : b.drop i = c :: rest) : b.octet i = c := by
  simpa [h] using octet_eq_getD b i 0

theorem drop_add_of_drop (h : b.drop i = xs ++ rest) : b.drop (i + xs.length) = rest := by
  simp only [drop, ← List.drop_drop] at h ⊢
  rw [h, List.drop_left]

theorem drop_succ_of_drop (h : b.drop i = c :: rest) : b.drop (i + 1) = rest :=
  drop_add_of_drop (show b.drop i = [c] ++ rest from h)

theorem octet_size (b : Octets) : b.octet b.size = 0 := by
  simp [octet, size]

theorem digitAt_size (b : Octets) : b.digitAt b.size = false := by
  simp [digitAt, octet_size]

theorem size_eq_of_drop (h : b.drop i = xs) (nonempty : xs ≠ []) : b.size = i + xs.length := by
  have length := congrArg List.length h
  simp only [drop, List.length_drop, Array.length_toList] at length
  have : xs.length ≠ 0 := by simpa using nonempty
  simp only [size]
  omega

theorem lt_size_of_drop (h : b.drop i = c :: rest) : i < b.size := by
  have := size_eq_of_drop h (List.cons_ne_nil c rest)
  simp at this
  omega

theorem digitAt_of_drop {ds : List Nat} (h : b.drop i = digitCodes ds ++ rest) (nonempty : ds ≠ [])
    (small : ∀ d ∈ ds, d < 10) : b.digitAt i = true := by
  obtain ⟨first, others, rfl⟩ := List.exists_cons_of_ne_nil nonempty
  have digit := small first List.mem_cons_self
  have code : b.octet i = first + 0x30 := octet_eq_of_drop (by simpa using h)
  simp only [digitAt, code, Bool.and_eq_true, decide_eq_true_eq]
  omega

/-- One more digit: the digits so far, then the next octet if it is a digit. -/
theorem digits_succ (b : Octets) (i n : Nat) :
    b.digits i (n + 1) = (b.digits i n).bind fun (v, _) =>
      if b.digitAt (i + n) then some (10 * v + (b.octet (i + n) - 0x30), i + n + 1) else none := by
  simp only [digits, List.range_succ, List.foldl_append, List.foldl_cons, List.foldl_nil,
    Option.bind_eq_bind]

theorem digits_of_drop {ds : List Nat} (h : b.drop i = digitCodes ds ++ rest)
    (small : ∀ d ∈ ds, d < 10) :
    b.digits i ds.length = some (decimalValue ds, i + ds.length) := by
  -- the first `n` digits read as the value of the first `n` of `ds`
  have prefixes : ∀ n ≤ ds.length, b.digits i n = some (decimalValue (ds.take n), i + n) := by
    intro n
    induction n with
    | zero => intro _; rfl
    | succ n ih =>
      intro inside
      have code : b.octet (i + n) = ds[n] + 0x30 := by
        rw [octet_eq_getD, h, List.getD_append _ _ _ _ (by simpa using inside)]
        simp [digitCodes, List.getElem?_eq_getElem inside]
      have digit : ds[n] < 10 := small _ (List.getElem_mem _)
      have value : decimalValue (ds.take (n + 1)) = 10 * decimalValue (ds.take n) + ds[n] := by
        rw [List.take_add_one, List.getElem?_eq_getElem inside, Option.toList_some,
          decimalValue_append]
        simp [decimalValue]
        ring
      rw [digits_succ, ih (by omega)]
      simp [digitAt, code, value]
      omega
  simpa using prefixes ds.length le_rfl

theorem skipDigits_of_not_digit (notDigit : b.digitAt i = false) : b.skipDigits i = i := by
  simp [skipDigits, skipDigits.go, notDigit]

section Clock

variable {stop k p : Nat} {colons : Bool} {fields ds : List Nat}

/-- A two-digit field followed by a colon, inside the region: the reading goes on after the colon,
with colons throughout. -/
theorem clockFields_colon (h : b.drop p = digitCodes ds ++ 0x3A :: rest) (two : ds.length = 2)
    (small : ∀ d ∈ ds, d < 10) (inside : p + 3 < stop) :
    clockFields b stop (k + 1) p true fields =
      clockFields b stop k (p + 3) true (fields ++ [decimalValue ds]) := by
  have read := digits_of_drop h small
  have afterField : b.drop (p + 2) = 0x3A :: rest := by simpa [two] using drop_add_of_drop h
  have colon : b.octet (p + 2) = 0x3A := octet_eq_of_drop afterField
  rw [two] at read
  have notEnd : ¬ stop ≤ p + 2 + 1 := by omega
  simp [clockFields, read, colon, notEnd]

/-- A two-digit field followed by a point, inside the region: the fraction follows. -/
theorem clockFields_point (h : b.drop p = digitCodes ds ++ 0x2E :: rest) (two : ds.length = 2)
    (small : ∀ d ∈ ds, d < 10) (inside : p + 3 < stop) :
    clockFields b stop (k + 1) p colons fields =
      fraction b (p + 3) stop (fields ++ [decimalValue ds]) := by
  have read := digits_of_drop h small
  have afterField : b.drop (p + 2) = 0x2E :: rest := by simpa [two] using drop_add_of_drop h
  have point : b.octet (p + 2) = 0x2E := octet_eq_of_drop afterField
  rw [two] at read
  have notEnd : ¬ stop ≤ p + 2 + 1 := by omega
  simp [clockFields, read, point, notEnd]

/-- A two-digit field that ends the region ends the clock. -/
theorem clockFields_last (h : b.drop p = digitCodes ds ++ rest) (two : ds.length = 2)
    (small : ∀ d ∈ ds, d < 10) (ends : stop ≤ p + 3) :
    let fields' := fields ++ [decimalValue ds]
    clockFields b stop (k + 1) p colons fields =
      some ⟨fields'.getD 0 0, fields'.getD 1 0, fields'.getD 2 0, 0, b.octet (p + 2) != 0⟩ := by
  have read := digits_of_drop h small
  rw [two] at read
  have atEnd : stop ≤ p + 2 + 1 := by omega
  simp [clockFields, read, atEnd]

/-- Six fraction digits that end the region, followed by no digit, are the microseconds. -/
theorem fraction_six (h : b.drop p = digitCodes ds ++ rest) (six : ds.length = 6)
    (small : ∀ d ∈ ds, d < 10) (ends : stop = p + 6) (notDigit : b.digitAt (p + 6) = false) :
    fraction b p stop fields =
      some ⟨fields.getD 0 0, fields.getD 1 0, fields.getD 2 0, decimalValue ds,
        b.octet (p + 6) != 0⟩ := by
  have read := digits_of_drop h small
  rw [six] at read
  have count : min (stop - p) 6 = 6 := by omega
  simp [fraction, count, read, skipDigits_of_not_digit notDigit]

end Clock

section Texts

/-- Past a two-digit field and the separator after it. -/
theorem drop_after_field {ds : List Nat} (h : b.drop i = digitCodes ds ++ c :: rest)
    (two : ds.length = 2) : b.drop (i + 3) = rest := by
  have after := drop_add_of_drop (show b.drop i = (digitCodes ds ++ [c]) ++ rest by simpa using h)
  simpa [two] using after

variable {stop p hour minute second micro : Nat} {H M S F : List Nat}

/-- A clock `HH:MM` that ends the region. -/
theorem clock_minutes (rest : List Nat) (h : b.drop p = H ++ 0x3A :: (M ++ rest))
    (fixedH : FixedDigits 2 hour H) (fixedM : FixedDigits 2 minute M) (ends : stop = p + 5) :
    b.clock p stop = some ⟨hour, minute, 0, 0, b.octet stop != 0⟩ := by
  obtain ⟨hs, rfl, twoH, smallH, rfl⟩ := fixedH
  obtain ⟨ms, rfl, twoM, smallM, rfl⟩ := fixedM
  have afterH : b.drop (p + 3) = digitCodes ms ++ rest :=
    drop_after_field h twoH
  rw [clock, clockFields_colon h twoH smallH (by omega),
    clockFields_last afterH twoM smallM (by omega)]
  simp [ends]

/-- A clock `HH:MM:SS` that ends the region. -/
theorem clock_seconds (rest : List Nat) (h : b.drop p = H ++ 0x3A :: (M ++ 0x3A :: (S ++ rest)))
    (fixedH : FixedDigits 2 hour H) (fixedM : FixedDigits 2 minute M)
    (fixedS : FixedDigits 2 second S) (ends : stop = p + 8) :
    b.clock p stop = some ⟨hour, minute, second, 0, b.octet stop != 0⟩ := by
  obtain ⟨hs, rfl, twoH, smallH, rfl⟩ := fixedH
  obtain ⟨ms, rfl, twoM, smallM, rfl⟩ := fixedM
  obtain ⟨ss, rfl, twoS, smallS, rfl⟩ := fixedS
  have afterH : b.drop (p + 3) = digitCodes ms ++ 0x3A :: (digitCodes ss ++ rest) :=
    drop_after_field h twoH
  have afterM : b.drop (p + 6) = digitCodes ss ++ rest :=
    drop_after_field afterH twoM
  rw [clock, clockFields_colon h twoH smallH (by omega),
    clockFields_colon afterH twoM smallM (by omega),
    clockFields_last afterM twoS smallS (by omega)]
  simp [ends]

/-- A clock `HH:MM:SS.ffffff` that ends the region, with no digit after it. -/
theorem clock_fraction (rest : List Nat)
    (h : b.drop p = H ++ 0x3A :: (M ++ 0x3A :: (S ++ 0x2E :: (F ++ rest))))
    (fixedH : FixedDigits 2 hour H) (fixedM : FixedDigits 2 minute M)
    (fixedS : FixedDigits 2 second S) (fixedF : FixedDigits 6 micro F) (ends : stop = p + 15)
    (notDigit : b.digitAt stop = false) :
    b.clock p stop = some ⟨hour, minute, second, micro, b.octet stop != 0⟩ := by
  obtain ⟨hs, rfl, twoH, smallH, rfl⟩ := fixedH
  obtain ⟨ms, rfl, twoM, smallM, rfl⟩ := fixedM
  obtain ⟨ss, rfl, twoS, smallS, rfl⟩ := fixedS
  obtain ⟨fs, rfl, sixF, smallF, rfl⟩ := fixedF
  have afterH : b.drop (p + 3) =
      digitCodes ms ++ 0x3A :: (digitCodes ss ++ 0x2E :: (digitCodes fs ++ rest)) :=
    drop_after_field h twoH
  have afterM : b.drop (p + 6) = digitCodes ss ++ 0x2E :: (digitCodes fs ++ rest) :=
    drop_after_field afterH twoM
  have afterS : b.drop (p + 9) = digitCodes fs ++ rest :=
    drop_after_field afterM twoS
  rw [clock, clockFields_colon h twoH smallH (by omega),
    clockFields_colon afterH twoM smallM (by omega),
    clockFields_point afterM twoS smallS (by omega),
    fraction_six afterS sixF smallF (by omega) (by rw [← notDigit, ends])]
  simp [ends]

end Texts


/-! ### Where the zone starts -/

/-- Whether an octet marks the start of a zone. -/
def zoneMark (c : Nat) : Bool := c == 0x5A || c == 0x2B || c == 0x2D

theorem zoneMark_of_fixedDigits {width n : Nat} {cs : List Nat} (fixed : FixedDigits width n cs) :
    ∀ c ∈ cs, zoneMark c = false := by
  intro c mem
  have := fixed.digit c mem
  simp only [zoneMark, Bool.or_eq_false_iff, beq_eq_false_iff_ne]
  omega

/-- Scanning octets that mark no zone, the scan stops after them: at `stop`, or at a sign. -/
theorem zoneStart_go_of_drop {stop : Nat} (noMark : ∀ c ∈ xs, zoneMark c = false) :
    ∀ {i fuel : Nat}, b.drop i = xs ++ rest → i + xs.length ≤ stop →
      (i + xs.length < stop → zoneMark (b.octet (i + xs.length)) = true) → stop - i < fuel →
      zoneStart.go b stop fuel i = i + xs.length := by
  induction xs with
  | nil =>
    intro i fuel _ within marked enough
    obtain ⟨fuel, rfl⟩ : ∃ f, fuel = f + 1 := ⟨fuel - 1, by omega⟩
    by_cases atStop : stop ≤ i
    · simp only [zoneStart.go, atStop, if_true, List.length_nil]
      omega
    · have mark := marked (by simp; omega)
      simp only [zoneMark, List.length_nil, Nat.add_zero] at mark
      simp [zoneStart.go, atStop, mark]
  | cons c xs ih =>
    intro i fuel h within marked enough
    obtain ⟨fuel, rfl⟩ : ∃ f, fuel = f + 1 := ⟨fuel - 1, by omega⟩
    have first : b.octet i = c := octet_eq_of_drop h
    have next : b.drop (i + 1) = xs ++ rest := drop_succ_of_drop h
    have notStop : ¬ stop ≤ i := by simp at within; omega
    have unmarked := noMark c List.mem_cons_self
    simp only [zoneMark, Bool.or_eq_false_iff] at unmarked
    simp only [zoneStart.go, notStop, if_false, first, unmarked, Bool.or_false]
    rw [ih (fun c' mem => noMark c' (List.mem_cons_of_mem c mem)) next (by simp at within; omega)
      (by simpa [Nat.add_assoc, Nat.add_comm 1] using marked) (by omega)]
    simp
    omega

theorem zoneStart_of_drop {stop : Nat} (h : b.drop i = xs ++ rest)
    (noMark : ∀ c ∈ xs, zoneMark c = false) (within : i + xs.length ≤ stop)
    (marked : i + xs.length < stop → zoneMark (b.octet (i + xs.length)) = true) :
    b.zoneStart i stop = i + xs.length :=
  zoneStart_go_of_drop noMark h within marked (by omega)


/-! ### Times -/

/-- A time with no zone, its clock running to the end of the text. -/
theorem time_of_naive {c : Clock} (zone : b.zoneStart p b.size = b.size)
    (read : b.clock p b.size = some c) (ended : c.trailing = false) :
    b.time p = some (c, none) := by
  simp [time, zone, read, ended]

/-- A time with a signed offset of no seconds or of at least a second: the offset is read back
with its sign. -/
theorem time_of_offset {p z : Nat} {c o : Clock} {us : Int} (zone : b.zoneStart p b.size = z)
    (inside : z < b.size) (sign : b.octet z = if us < 0 then 0x2D else 0x2B)
    (read : b.clock p z = some c) (readOffset : b.clock (z + 1) b.size = some o)
    (ended : o.trailing = false) (subSecond : o.micro < 1000000)
    (magnitude : ((o.hour * 3600 + o.minute * 60 + o.second) * 1000000 + o.micro : Int) =
      us.natAbs)
    (wholeSeconds : us = 0 ∨ 1000000 ≤ us.natAbs) :
    b.time p = some (c, some us) := by
  have notStop : z ≠ b.size := by omega
  have notZ : b.octet z ≠ 0x5A := by split at sign <;> omega
  simp only [time, zone, read, readOffset, ended, notStop, notZ, Option.bind_eq_bind,
    Option.bind_some, beq_iff_eq, if_false, Bool.false_eq_true, Option.pure_def]
  split_ifs with noSeconds negative
  · -- no whole second: the microseconds are all there is, and there are none
    have zero : us = 0 := by omega
    rw [zero]
  · have below : us < 0 := by split at sign <;> omega
    simp only [Option.some.injEq, Prod.mk.injEq, true_and]
    omega
  · have above : ¬ us < 0 := by split at sign <;> omega
    simp only [Option.some.injEq, Prod.mk.injEq, true_and]
    omega

/-! ### What the reader can give -/

/-- `n` digits read as a number below `10 ^ n`. -/
theorem digits_lt {i n v p : Nat} (read : b.digits i n = some (v, p)) : v < 10 ^ n := by
  induction n generalizing v p with
  | zero =>
    simp [digits] at read
    omega
  | succ n ih =>
    rw [digits_succ, Option.bind_eq_some_iff] at read
    obtain ⟨⟨v', p'⟩, before, read⟩ := read
    have small := ih before
    dsimp only at read
    -- one more digit, below ten, is added to a number below `10 ^ n`
    split at read
    · next digit =>
      simp only [digitAt, Bool.and_eq_true, decide_eq_true_eq] at digit
      simp only [Option.some.injEq, Prod.mk.injEq] at read
      rw [pow_succ]
      omega
    · cases read

/-- A fraction has fewer microseconds than a second holds: its digits, at most six, are scaled up
to six. -/
theorem fraction_micro {p stop : Nat} {fields : List Nat} {c : Clock}
    (read : fraction b p stop fields = some c) : c.micro < 1000000 := by
  simp only [fraction, Option.bind_eq_bind, Option.bind_eq_some_iff, Option.pure_def,
    Option.some.injEq] at read
  obtain ⟨⟨f, p'⟩, digitsRead, rfl⟩ := read
  have below := digits_lt digitsRead
  have count : min (stop - p) 6 ≤ 6 := Nat.min_le_right _ _
  have scaled : 10 ^ min (stop - p) 6 * 10 ^ (6 - min (stop - p) 6) = 1000000 := by
    rw [← pow_add, Nat.add_sub_cancel' count]
    rfl
  simp only [Nat.pow_eq]
  calc f * 10 ^ (6 - min (stop - p) 6)
      < 10 ^ min (stop - p) 6 * 10 ^ (6 - min (stop - p) 6) :=
        Nat.mul_lt_mul_of_pos_right below (by positivity)
    _ = 1000000 := scaled

theorem clockFields_micro {stop : Nat} :
    ∀ {k p : Nat} {colons : Bool} {fields : List Nat} {c : Clock},
      clockFields b stop k p colons fields = some c → c.micro < 1000000
  | 0, _, _, _, _, reading => fraction_micro reading
  | k + 1, p, colons, fields, c, reading => by
    simp only [clockFields, Option.bind_eq_bind, Option.bind_eq_some_iff] at reading
    obtain ⟨⟨v, p'⟩, -, reading⟩ := reading
    -- whether colons are used is decided at the first field; it does not matter here
    generalize (if ((fields ++ [v]).length == 1) = true then b.octet p' == 0x3A else colons) =
      colons' at reading
    split_ifs at reading
    · simp only [Option.some.injEq] at reading
      rw [← reading]
      norm_num
    · exact clockFields_micro reading
    · exact fraction_micro reading
    · exact clockFields_micro reading

/-- The time part gives less than a second of microseconds, and an offset of no seconds or of at
least one second. -/
theorem time_spec {p : Nat} {c : Clock} {offset : Option Int} (read : b.time p = some (c, offset)) :
    c.micro < 1000000 ∧ ∀ us, offset = some us → us = 0 ∨ 1000000 ≤ us.natAbs := by
  simp only [time, Option.bind_eq_bind, Option.bind_eq_some_iff] at read
  obtain ⟨c', clockRead, read⟩ := read
  have micro := clockFields_micro clockRead
  by_cases atEnd : b.zoneStart p b.size = b.size
  · -- no zone
    simp only [atEnd, beq_self_eq_true, if_true, Option.pure_def] at read
    split at read
    · cases read
    · cases read
      exact ⟨micro, by simp⟩
  by_cases zulu : b.octet (b.zoneStart p b.size) = 0x5A
  · -- `Z` is UTC
    simp only [atEnd, zulu, beq_iff_eq, if_false, if_true, Option.pure_def] at read
    split at read
    · cases read
    · cases read
      exact ⟨micro, by simp⟩
  -- a signed offset: UTC when it has no whole second, and otherwise at least a second either way
  simp [atEnd, zulu, Option.bind_eq_some_iff] at read
  obtain ⟨z, -, -, read⟩ := read
  split_ifs at read with noSeconds negative
  · cases read
    exact ⟨micro, by simp⟩
  · cases read
    exact ⟨micro, fun us known => by cases known; omega⟩
  · cases read
    exact ⟨micro, fun us known => by cases known; omega⟩

end HostInventory.IsoText.Octets

namespace HostInventory.DateTime

open IsoText IsoText.Octets Json Binary64

/-! ### The parts of an ISO text -/

@[simp] theorem points_dash : (Text.ofString "-").points = [0x2D] := rfl
@[simp] theorem points_colon : (Text.ofString ":").points = [0x3A] := rfl
@[simp] theorem points_plus : (Text.ofString "+").points = [0x2B] := rfl
@[simp] theorem points_point : (Text.ofString ".").points = [0x2E] := rfl
@[simp] theorem points_letterT : (Text.ofString "T").points = [0x54] := rfl

/-- The date of an ISO text: `YYYY-MM-DD`. -/
def dateText (d : DateTime) : Text :=
  padZeros 4 d.year ++ Text.ofString "-" ++ pad2 d.month ++ Text.ofString "-" ++ pad2 d.day

/-- The time of day of an ISO text: `HH:MM:SS`, then a point and six digits of microseconds when
there are any. -/
def clockText (d : DateTime) : Text :=
  pad2 d.hour ++ Text.ofString ":" ++ pad2 d.minute ++ Text.ofString ":" ++ pad2 d.second ++
    (if d.micro != 0 then Text.ofString "." ++ padZeros 6 d.micro else Text.empty)

/-- The zone of an ISO text: the offset, or nothing for a naive date-time. -/
def zoneText (d : DateTime) : Text :=
  match d.offset with
  | some us => offsetText us
  | none => Text.empty

theorem isoText_points (d : DateTime) :
    d.isoText.points =
      (dateText d).points ++ 0x54 :: ((clockText d).points ++ (zoneText d).points) := by
  unfold isoText zoneText
  cases d.offset <;> simp [dateText, clockText]

theorem isAscii_offsetText (us : Int) : (offsetText us).IsAscii := by
  unfold offsetText
  dsimp only
  split_ifs <;> simp +decide

theorem isAscii_isoText (d : DateTime) : d.isoText.IsAscii := by
  unfold isoText
  split_ifs <;> split <;> simp +decide [isAscii_offsetText]

/-! ### Date-times the reader gives -/

/-- A date-time as the ISO reader gives one: a date of the calendar from year 1 to 9999, a time of
day to the microsecond, and an offset strictly inside a day that is either zero or at least a
second. -/
structure Valid (d : DateTime) : Prop where
  year : 1 ≤ d.year ∧ d.year ≤ 9999
  month : 1 ≤ d.month ∧ d.month ≤ 12
  day : 1 ≤ d.day ∧ d.day ≤ Calendar.daysInMonth d.year d.month
  hour : d.hour ≤ 23
  minute : d.minute ≤ 59
  second : d.second ≤ 59
  micro : d.micro < 1000000
  offset : ∀ us, d.offset = some us → us.natAbs < 86400000000 ∧ (us = 0 ∨ 1000000 ≤ us.natAbs)

theorem valid_iff (d : DateTime) : d.Valid ↔
    (1 ≤ d.year ∧ d.year ≤ 9999) ∧ (1 ≤ d.month ∧ d.month ≤ 12) ∧
      (1 ≤ d.day ∧ d.day ≤ Calendar.daysInMonth d.year d.month) ∧ d.hour ≤ 23 ∧ d.minute ≤ 59 ∧
      d.second ≤ 59 ∧ d.micro < 1000000 ∧
      d.offset.all (fun us => us.natAbs < 86400000000 && (us == 0 || 1000000 ≤ us.natAbs)) := by
  constructor
  · rintro ⟨year, month, day, hour, minute, second, micro, offset⟩
    refine ⟨year, month, day, hour, minute, second, micro, ?_⟩
    cases known : d.offset with
    | none => rfl
    | some us => simpa using offset us known
  · rintro ⟨year, month, day, hour, minute, second, micro, offset⟩
    refine ⟨year, month, day, hour, minute, second, micro, ?_⟩
    intro us known
    simpa [known] using offset

instance (d : DateTime) : Decidable d.Valid := decidable_of_iff _ (valid_iff d).symm

/-! ### Reading the parts back -/

/-- The clock fields of a date-time the reader gives fit the digits its ISO text writes them in. -/
theorem Valid.clockDigits {d : DateTime} (valid : d.Valid) :
    FixedDigits 2 d.hour (pad2 d.hour).points ∧ FixedDigits 2 d.minute (pad2 d.minute).points ∧
      FixedDigits 2 d.second (pad2 d.second).points ∧
      FixedDigits 6 d.micro (padZeros 6 d.micro).points :=
  ⟨fixedDigits_pad2 (by have := valid.hour; omega), fixedDigits_pad2 (by have := valid.minute; omega),
    fixedDigits_pad2 (by have := valid.second; omega),
    fixedDigits_padZeros (by norm_num) (by have := valid.micro; norm_num; omega)⟩

section Reading

variable {b : Octets} {p : Nat} {rest : List Nat}

/-- An offset read back: its sign, then a clock that ends the text and gives back its magnitude in
microseconds, with less than a second of microseconds. -/
theorem read_offsetText {us : Int} (inDay : us.natAbs < 86400000000)
    (h : b.drop p = (offsetText us).points) :
    b.octet p = (if us < 0 then 0x2D else 0x2B) ∧
      ∃ o : Clock, b.clock (p + 1) b.size = some o ∧ o.trailing = false ∧ o.micro < 1000000 ∧
        ((o.hour * 3600 + o.minute * 60 + o.second) * 1000000 + o.micro : Int) = us.natAbs := by
  have signPoints : (if us < 0 then Text.ofString "-" else Text.ofString "+").points =
      [if us < 0 then 0x2D else 0x2B] := by
    split <;> rfl
  have fixedH := fixedDigits_pad2 (n := us.natAbs / 1000000 / 3600) (by omega)
  have fixedM := fixedDigits_pad2 (n := us.natAbs / 1000000 / 60 % 60) (by omega)
  have fixedS := fixedDigits_pad2 (n := us.natAbs / 1000000 % 60) (by omega)
  have fixedF : FixedDigits 6 (us.natAbs % 1000000) (padZeros 6 (us.natAbs % 1000000)).points :=
    fixedDigits_padZeros (by norm_num) (by norm_num; omega)
  -- the offset is written to the minute, to the second, or to the microsecond
  by_cases hasMicros : us.natAbs % 1000000 = 0
  · by_cases hasSeconds : us.natAbs / 1000000 % 60 = 0
    · simp [offsetText, hasMicros, hasSeconds, signPoints] at h
      have afterSign := drop_succ_of_drop h
      have sized : b.size = p + 1 + 5 := by
        have := size_eq_of_drop afterSign (by simp)
        simp only [List.length_append, List.length_cons, fixedH.length_eq, fixedM.length_eq] at this
        omega
      have read := clock_minutes [] (by simpa using afterSign) fixedH fixedM sized
      refine ⟨octet_eq_of_drop h, _, read, by simp [octet_size], by simp, ?_⟩
      simp only [Nat.cast_zero, add_zero]
      omega
    · simp [offsetText, hasMicros, hasSeconds, signPoints] at h
      have afterSign := drop_succ_of_drop h
      have sized : b.size = p + 1 + 8 := by
        have := size_eq_of_drop afterSign (by simp)
        simp only [List.length_append, List.length_cons, fixedH.length_eq, fixedM.length_eq,
          fixedS.length_eq] at this
        omega
      have read := clock_seconds [] (by simpa using afterSign) fixedH fixedM fixedS sized
      refine ⟨octet_eq_of_drop h, _, read, by simp [octet_size], by simp, ?_⟩
      simp only [Nat.cast_zero, add_zero]
      omega
  · simp [offsetText, hasMicros, signPoints] at h
    have afterSign := drop_succ_of_drop h
    have sized : b.size = p + 1 + 15 := by
      have := size_eq_of_drop afterSign (by simp)
      simp only [List.length_append, List.length_cons, fixedH.length_eq, fixedM.length_eq,
        fixedS.length_eq, fixedF.length_eq] at this
      omega
    have read := clock_fraction [] (by simpa using afterSign) fixedH fixedM fixedS fixedF
      sized (digitAt_size b)
    refine ⟨octet_eq_of_drop h, _, read, by simp [octet_size], by simp; omega, ?_⟩
    simp only
    omega

/-- The date of an ISO text read back: the shape of `YYYY-MM-DD` puts the separator at position
ten, and the three fields give the date. -/
theorem read_dateText {d : DateTime} (valid : d.Valid)
    (h : b.drop 0 = (dateText d).points ++ 0x54 :: rest) :
    b.separatorAt = some 10 ∧ b.date 10 = some (d.year, d.month, d.day) ∧
      b.drop 10 = 0x54 :: rest := by
  obtain ⟨ys, yearPoints, fourY, smallY, yearValue⟩ :
      FixedDigits 4 d.year (padZeros 4 d.year).points :=
    fixedDigits_padZeros (by norm_num) (by have := valid.year; norm_num; omega)
  obtain ⟨ms, monthPoints, twoM, smallM, monthValue⟩ :=
    fixedDigits_pad2 (n := d.month) (by have := valid.month; omega)
  obtain ⟨ds, dayPoints, twoD, smallD, dayValue⟩ :=
    fixedDigits_pad2 (n := d.day)
      (by have := valid.day; have := Calendar.daysInMonth_le d.year d.month; omega)
  simp only [dateText, Text.points_append, yearPoints, monthPoints, dayPoints, points_dash,
    List.append_assoc, List.cons_append] at h
  have readYear := digits_of_drop h smallY
  have afterYear :
      b.drop 4 = 0x2D :: (digitCodes ms ++ 0x2D :: (digitCodes ds ++ 0x54 :: rest)) := by
    simpa [fourY] using drop_add_of_drop h
  have afterDash : b.drop 5 = digitCodes ms ++ 0x2D :: (digitCodes ds ++ 0x54 :: rest) :=
    drop_succ_of_drop afterYear
  have readMonth := digits_of_drop afterDash smallM
  have monthDigit := digitAt_of_drop afterDash (by simp [← List.length_pos_iff, twoM]) smallM
  have afterMonth : b.drop 7 = 0x2D :: (digitCodes ds ++ 0x54 :: rest) := by
    simpa [twoM] using drop_add_of_drop afterDash
  have afterSecondDash := drop_after_field afterDash twoM
  have readDay := digits_of_drop afterSecondDash smallD
  have afterDay : b.drop 10 = 0x54 :: rest := by
    simpa [twoD] using drop_add_of_drop afterSecondDash
  have long : b.size ≠ 7 := by
    have := lt_size_of_drop afterDay
    omega
  have notWeek : b.octet 5 ≠ 0x57 := by
    simp only [digitAt, Bool.and_eq_true, decide_eq_true_eq] at monthDigit
    omega
  rw [fourY] at readYear
  rw [twoM] at readMonth
  rw [twoD] at readDay
  refine ⟨?_, ?_, afterDay⟩
  · simp [separatorAt, long, octet_eq_of_drop afterYear, notWeek]
  · simp [date, readYear, octet_eq_of_drop afterYear, notWeek, readMonth,
      octet_eq_of_drop afterMonth, readDay, yearValue, monthValue, dayValue]

theorem clockText_ne_nil {d : DateTime} (valid : d.Valid) : (clockText d).points ≠ [] := by
  have fixedH := valid.clockDigits.1
  have hourFirst : (pad2 d.hour).points ≠ [] :=
    List.ne_nil_of_length_pos (by simp [fixedH.length_eq])
  simp [clockText, hourFirst]

/-- No octet of the clock of an ISO text marks a zone. -/
theorem zoneMark_clockText {d : DateTime} (valid : d.Valid) :
    ∀ c ∈ (clockText d).points, zoneMark c = false := by
  obtain ⟨fixedH, fixedM, fixedS, fixedF⟩ := valid.clockDigits
  intro c mem
  simp only [clockText, Text.points_append, points_colon, List.mem_append,
    List.mem_singleton, or_assoc] at mem
  rcases mem with inH | rfl | inM | rfl | inS | inFraction
  · exact zoneMark_of_fixedDigits fixedH c inH
  · rfl
  · exact zoneMark_of_fixedDigits fixedM c inM
  · rfl
  · exact zoneMark_of_fixedDigits fixedS c inS
  · split at inFraction
    · simp only [Text.points_append, points_point, List.mem_append,
        List.mem_singleton] at inFraction
      rcases inFraction with rfl | inF
      · rfl
      · exact zoneMark_of_fixedDigits fixedF c inF
    · simp [Text.empty] at inFraction

/-- What follows the clock of an ISO text: the end of the text, or the sign of an offset. -/
def ZoneFollows (rest : List Nat) : Prop := rest = [] ∨ ∃ c r, rest = c :: r ∧ (c = 0x2B ∨ c = 0x2D)

/-- The clock of an ISO text read back: the zone starts right after it, and the clock gives the
time of day, trailing exactly when an offset follows. -/
theorem read_clockText {d : DateTime} (valid : d.Valid)
    (h : b.drop p = (clockText d).points ++ rest) (follows : ZoneFollows rest) :
    let stop := p + (clockText d).points.length
    b.zoneStart p b.size = stop ∧
      b.clock p stop = some ⟨d.hour, d.minute, d.second, d.micro, rest != []⟩ := by
  intro stop
  obtain ⟨fixedH, fixedM, fixedS, fixedF⟩ := valid.clockDigits
  have atStop : b.drop stop = rest := drop_add_of_drop h
  have sized : b.size = stop + rest.length := by
    have := size_eq_of_drop h (by simp [clockText_ne_nil valid])
    simp only [List.length_append] at this
    omega
  -- past the clock there is no digit, and the zone starts there
  have ending : b.digitAt stop = false ∧ (stop < b.size → zoneMark (b.octet stop) = true) ∧
      (b.octet stop != 0) = (rest != []) := by
    rcases follows with rfl | ⟨c, r, rfl, sign⟩
    · simp only [List.length_nil, Nat.add_zero] at sized
      rw [← sized]
      exact ⟨digitAt_size b, by omega, by simp [octet_size]⟩
    · have first := octet_eq_of_drop atStop
      rcases sign with rfl | rfl <;> simp [digitAt, zoneMark, first]
  have zone := zoneStart_of_drop h (zoneMark_clockText valid) (by omega) ending.2.1
  refine ⟨zone, ?_⟩
  -- the clock is written to the second, or to the microsecond when there are any
  by_cases noMicros : d.micro = 0
  · have layout : (clockText d).points = (pad2 d.hour).points ++ 0x3A :: ((pad2 d.minute).points ++
        0x3A :: (pad2 d.second).points) := by
      simp [clockText, noMicros, Text.empty]
    have length : (clockText d).points.length = 8 := by
      simp [layout, fixedH.length_eq, fixedM.length_eq, fixedS.length_eq]
    rw [layout] at h
    rw [clock_seconds _ (by simpa using h) fixedH fixedM fixedS (by omega), ending.2.2, noMicros]
  · have layout : (clockText d).points = (pad2 d.hour).points ++ 0x3A :: ((pad2 d.minute).points ++
        0x3A :: ((pad2 d.second).points ++ 0x2E :: (padZeros 6 d.micro).points)) := by
      simp [clockText, noMicros]
    have length : (clockText d).points.length = 15 := by
      simp [layout, fixedH.length_eq, fixedM.length_eq, fixedS.length_eq, fixedF.length_eq]
    rw [layout] at h
    rw [clock_fraction _ (by simpa using h) fixedH fixedM fixedS fixedF (by omega) ending.1,
      ending.2.2]

theorem offsetText_sign (us : Int) :
    ∃ tail, (offsetText us).points = (if us < 0 then 0x2D else 0x2B) :: tail := by
  unfold offsetText
  dsimp only
  split_ifs <;> simp

/-- The time of an ISO text read back: the time of day, and the offset if there is one. -/
theorem read_timeText {d : DateTime} (valid : d.Valid)
    (h : b.drop p = (clockText d).points ++ (zoneText d).points) :
    ∃ trailing, b.time p = some (⟨d.hour, d.minute, d.second, d.micro, trailing⟩, d.offset) := by
  unfold zoneText at h
  cases offset : d.offset with
  | none =>
    simp only [offset] at h
    obtain ⟨zone, read⟩ := read_clockText valid
      (show b.drop p = (clockText d).points ++ [] by simpa [Text.empty] using h) (Or.inl rfl)
    have sized : b.size = p + (clockText d).points.length := by
      have nonempty := clockText_ne_nil valid
      simpa [Text.empty] using size_eq_of_drop h (by simpa [Text.empty] using nonempty)
    rw [← sized] at zone read
    exact ⟨false, time_of_naive zone read rfl⟩
  | some us =>
    obtain ⟨inDay, wholeSeconds⟩ := valid.offset us offset
    simp only [offset] at h
    obtain ⟨tail, signed⟩ := offsetText_sign us
    have follows : ZoneFollows (offsetText us).points := by
      refine Or.inr ⟨_, tail, signed, ?_⟩
      split <;> simp
    obtain ⟨zone, read⟩ := read_clockText valid h follows
    have atZone := drop_add_of_drop h
    obtain ⟨sign, o, readOffset, ended, subSecond, magnitude⟩ := read_offsetText inDay atZone
    have inside := lt_size_of_drop (signed ▸ atZone)
    exact ⟨_, time_of_offset zone inside sign read readOffset ended subSecond magnitude
      wholeSeconds⟩

end Reading

/-! ### The round trip -/

theorem check_valid {d : DateTime} (valid : d.Valid) :
    DateFields.check ⟨d.year, d.month, d.day, d.hour, d.minute, d.second, d.micro⟩ d.offset =
      .ok d := by
  obtain ⟨year, month, day, hour, minute, second, -, -⟩ := valid
  have yearIn : ¬(d.year = 0 ∨ 9999 < d.year) := by omega
  have monthIn : ¬(d.month = 0 ∨ 12 < d.month) := by omega
  have dayIn : ¬(d.day = 0 ∨ Calendar.daysInMonth d.year d.month < d.day) := by omega
  simp [DateFields.check, yearIn, monthIn, dayIn, Nat.not_lt.mpr hour, Nat.not_lt.mpr minute,
    Nat.not_lt.mpr second]
  rfl


/-- A date-time the reader can give, written as ISO text and read back, is itself. -/
theorem ofIso_isoText {d : DateTime} (valid : d.Valid) : ofIso d.isoText = .ok d := by
  have ascii := isAscii_isoText d
  have whole : (⟨d.isoText.points.toArray⟩ : Octets).drop 0 =
      (dateText d).points ++ 0x54 :: ((clockText d).points ++ (zoneText d).points) := by
    simp [drop, isoText_points]
  obtain ⟨sep, date, atT⟩ := read_dateText valid whole
  obtain ⟨trailing, time⟩ := read_timeText valid (drop_succ_of_drop atT)
  have long : 10 < (⟨d.isoText.points.toArray⟩ : Octets).size := lt_size_of_drop atT
  have notShort : ¬ d.isoText.length < 7 := by
    simp only [size, List.size_toArray] at long
    simp only [Text.length]
    omega
  simp [ofIso, notShort, replaceSeparator_of_isAscii ascii, Text.utf8_of_isAscii ascii, sep, date,
    long, octet_eq_of_drop atT, charWidth, time]
  -- the offset lies inside a day, and the fields pass their checks
  have checked := check_valid valid
  cases offset : d.offset with
  | none =>
    rw [offset] at checked
    exact checked
  | some us =>
    obtain ⟨inDay, -⟩ := valid.offset us offset
    have inRange : ¬(us ≤ -86400000000 ∨ 86400000000 ≤ us) := by omega
    rw [offset] at checked
    simp [inRange, checked]

/-! ### The date-times the reader gives -/

/-- A field check that passes builds the date-time of the fields, which lie in their ranges. -/
theorem check_eq_ok {f : DateFields} {o : Option Int} {d : DateTime}
    (checked : DateFields.check f o = .ok d) :
    d = ⟨f.year, f.month, f.day, f.hour, f.minute, f.second, f.micro, o⟩ ∧
      (1 ≤ f.year ∧ f.year ≤ 9999) ∧ (1 ≤ f.month ∧ f.month ≤ 12) ∧
      (1 ≤ f.day ∧ f.day ≤ Calendar.daysInMonth f.year f.month) ∧ f.hour ≤ 23 ∧ f.minute ≤ 59 ∧
      f.second ≤ 59 := by
  unfold DateFields.check at checked
  -- each check in turn passes, or the check throws
  have year : ¬(f.year < 1 ∨ 9999 < f.year) := fun out => by
    simp only [out, decide_eq_true_eq, Bool.or_eq_true, if_true] at checked
    cases checked
  have month : ¬(f.month < 1 ∨ 12 < f.month) := fun out => by
    simp only [year, out, decide_eq_true_eq, Bool.or_eq_true, if_true, if_false] at checked
    cases checked
  have day : ¬(f.day < 1 ∨ Calendar.daysInMonth f.year f.month < f.day) := fun out => by
    simp only [year, month, out, decide_eq_true_eq, Bool.or_eq_true, if_true, if_false] at checked
    cases checked
  have hour : ¬23 < f.hour := fun out => by
    simp only [year, month, day, out, decide_eq_true_eq, Bool.or_eq_true, if_true,
      if_false] at checked
    cases checked
  have minute : ¬59 < f.minute := fun out => by
    simp only [year, month, day, hour, out, decide_eq_true_eq, Bool.or_eq_true, if_true,
      if_false] at checked
    cases checked
  have second : ¬59 < f.second := fun out => by
    simp only [year, month, day, hour, minute, out, decide_eq_true_eq, Bool.or_eq_true, if_true,
      if_false] at checked
    cases checked
  simp only [year, month, day, hour, minute, second, decide_eq_true_eq, Bool.or_eq_true,
    if_false] at checked
  cases checked
  exact ⟨rfl, by omega⟩

theorem valid_of_check {f : DateFields} {o : Option Int} {d : DateTime}
    (checked : DateFields.check f o = .ok d) (micro : f.micro < 1000000)
    (offset : ∀ us, o = some us → us.natAbs < 86400000000 ∧ (us = 0 ∨ 1000000 ≤ us.natAbs)) :
    d.Valid := by
  obtain ⟨rfl, year, month, day, hour, minute, second⟩ := check_eq_ok checked
  exact ⟨year, month, day, hour, minute, second, micro, offset⟩

theorem ofIso_valid {t : Text} {d : DateTime} (read : ofIso t = .ok d) : d.Valid := by
  unfold ofIso at read
  split at read
  · cases read
  cases encoded : (replaceSeparator t).utf8 with
  | error => simp only [encoded] at read; cases read
  | ok bytes =>
    simp only [encoded, pure_bind] at read
    cases separated : (⟨bytes.toArray⟩ : Octets).separatorAt with
    | none => simp only [separated] at read; cases read
    | some sep =>
    cases dated : (⟨bytes.toArray⟩ : Octets).date sep with
    | none => simp only [separated, dated] at read; cases read
    | some fields =>
    obtain ⟨year, month, day⟩ := fields
    simp only [separated, dated] at read
    split at read
    · cases timed : (⟨bytes.toArray⟩ : Octets).time
          (sep + charWidth ((⟨bytes.toArray⟩ : Octets).octet sep)) with
      | none => simp only [timed] at read; cases read
      | some r =>
      obtain ⟨c, offset⟩ := r
      obtain ⟨micro, whole⟩ := time_spec timed
      simp only [timed] at read
      cases offset with
      | none => exact valid_of_check read micro (by simp)
      | some us =>
        simp only at read
        split at read
        · cases read
        · next inDay =>
          refine valid_of_check read micro ?_
          intro us' known
          cases known
          exact ⟨by simp at inDay; omega, whole us rfl⟩
    · exact valid_of_check read (by simp) (by simp)

/-- The date-times the ISO reader gives are exactly those of `Valid`: every one it gives is, and
every one is given back by reading its own ISO text. -/
theorem valid_iff_read (d : DateTime) : d.Valid ↔ ∃ t, ofIso t = .ok d :=
  ⟨fun valid => ⟨d.isoText, ofIso_isoText valid⟩, fun ⟨_, reading⟩ => ofIso_valid reading⟩

end HostInventory.DateTime
