import HostInventory.Proofs.Number.ShortestForm
import HostInventory.Json.Reader
/-!
# Reading numbers

The reader takes a number apart into a sign, an integer part, a fraction and an exponent, each
found where the last ends (`Source.number_eq`). A numeral is such a number taken apart
(`Numeral`): on the text of a well-formed numeral that nothing continues, each part ends where the
numeral's does, so the reader gives the value the number grammar assigns and stops right after
the numeral (`Numeral.number_eq_value`).

Positions are read through what the source holds from them on (`Source.rest`).
-/

namespace HostInventory.Json

/-- Whether a code point is an ASCII digit, as the reader tests it. -/
abbrev isDigitCode (c : Nat) : Bool := 0x30 ≤ c && c ≤ 0x39

namespace Source

/-- What a source holds from a position on. -/
def rest (s : Source) (i : Nat) : List Nat := s.chars.toList.drop i

theorem at?_eq_head? (s : Source) (i : Nat) : s.at? i = (s.rest i).head? := by
  simp [at?, rest]

theorem rest_append {s : Source} {i : Nat} {l r : List Nat} (split : s.rest i = l ++ r) :
    s.rest (i + l.length) = r := by
  simp only [rest] at split ⊢
  rw [← List.drop_drop, split, List.drop_left]

theorem rest_cons {s : Source} {i c : Nat} {r : List Nat} (split : s.rest i = c :: r) :
    s.rest (i + 1) = r :=
  rest_append (l := [c]) split

theorem at?_of_rest {s : Source} {i c : Nat} {r : List Nat} (split : s.rest i = c :: r) :
    s.at? i = some c := by
  rw [at?_eq_head?, split, List.head?_cons]

theorem is_of_rest {s : Source} {i c : Nat} {r : List Nat} (split : s.rest i = c :: r) (c' : Nat) :
    s.is i c' = (c == c') := by
  simp [is, at?_of_rest split]

theorem is_of_rest_nil {s : Source} {i : Nat} (split : s.rest i = []) (c : Nat) : s.is i c = false := by
  simp [is, at?_eq_head?, split]

theorem digitAt_of_rest {s : Source} {i c : Nat} {r : List Nat} (split : s.rest i = c :: r) :
    s.digitAt i = isDigitCode c := by
  simp [digitAt, at?_of_rest split]

theorem size_eq {s : Source} {i : Nat} {l : List Nat} (split : s.rest i = l) (within : i ≤ s.size) :
    s.size = i + l.length := by
  simp only [rest] at split
  simp only [size] at within ⊢
  rw [← split, List.length_drop, Array.length_toList]
  omega

/-- A position with something after it lies before the end. -/
theorem lt_size_of_rest {s : Source} {i c : Nat} {r : List Nat} (split : s.rest i = c :: r) :
    i < s.size := by
  have : s.at? i = some c := at?_of_rest split
  simp only [at?, Array.getElem?_eq_some_iff] at this
  obtain ⟨within, -⟩ := this
  exact within

theorem slice_eq {s : Source} {i : Nat} {l r : List Nat} (split : s.rest i = l ++ r) :
    s.slice i (i + l.length) = l := by
  simp only [slice, rest] at split ⊢
  rw [Array.toList_extract, List.extract_eq_take_drop, Nat.add_sub_cancel_left, split,
    List.take_left]

/-- A run of ASCII digits ends where the next code point is not one. -/
theorem skipDigits_go {s : Source} {r : List Nat}
    (stop : ∀ c ∈ r.head?, isDigitCode c = false) :
    ∀ (ds : List Nat) (i fuel : Nat), s.rest i = ds ++ r →
      (∀ c ∈ ds, isDigitCode c = true) → ds.length < fuel →
        skipDigits.go s fuel i = i + ds.length
  | [], i, fuel + 1, split, _, _ => by
    rw [skipDigits.go, digitAt, at?_eq_head?, split, List.nil_append]
    cases head : r.head? with
    | none => simp
    | some c => simp [stop c head]
  | c :: ds, i, fuel + 1, split, digits, room => by
    have digit := digits c List.mem_cons_self
    rw [skipDigits.go, digitAt, at?_of_rest split, if_pos digit,
      skipDigits_go stop ds (i + 1) fuel (rest_cons split)
        (fun d mem => digits d (List.mem_cons_of_mem c mem)) (by simp at room; omega)]
    simp
    omega

theorem skipDigits_eq {s : Source} {i : Nat} {ds r : List Nat} (split : s.rest i = ds ++ r)
    (digits : ∀ c ∈ ds, isDigitCode c = true)
    (stop : ∀ c ∈ r.head?, isDigitCode c = false) (within : i ≤ s.size) :
    s.skipDigits i = i + ds.length := by
  have sized := size_eq split within
  simp only [List.length_append] at sized
  exact skipDigits_go stop ds i _ split digits (by omega)

/-! ### The number reader in parts -/

/-- Where a number's fraction ends, and whether it has one, its integer part ending at
`afterInt`: a point counts only with a digit after it. -/
def fractionEnd (s : Source) (afterInt : Nat) : Nat × Bool :=
  if afterInt < s.size - 1 && s.is afterInt 0x2E && s.digitAt (afterInt + 1) then
    (s.skipDigits (afterInt + 2), true)
  else (afterInt, false)

/-- Where a number's exponent ends, and whether it has one: a mark, an optional sign and at
least one digit. -/
def exponentEnd (s : Source) (afterFrac : Nat) : Nat × Bool :=
  if afterFrac < s.size - 1 && (s.is afterFrac 0x65 || s.is afterFrac 0x45) then
    let j := afterFrac + 1
    let j := if j < s.size - 1 && (s.is j 0x2D || s.is j 0x2B) then j + 1 else j
    let k := s.skipDigits j
    if s.digitAt (k - 1) then (k, true) else (afterFrac, false)
  else (afterFrac, false)

/-- Where the digits of a number's exponent start, its mark being at `mark`. -/
def exponentDigits (s : Source) (mark : Nat) : Nat :=
  if s.is (mark + 1) 0x2D || s.is (mark + 1) 0x2B then mark + 2 else mark + 1

/-- The value of a number whose parts end where the reader found them. -/
def numberValue (s : Source) (negative : Bool) (i afterInt afterFrac : Nat) (hasFrac : Bool)
    (stop : Nat) (hasExp : Bool) : Except ReadError (Json × Nat) :=
  let intDigits := s.slice i afterInt
  if !hasFrac && !hasExp then
    if maxIntegerDigits < intDigits.length then throw (.integerTooLong intDigits.length)
    else
      let n : Int := digitsValue intDigits
      pure (.int (if negative then -n else n), stop)
  else
    let fracDigits := if hasFrac then s.slice (afterInt + 1) afterFrac else []
    let exponent : Int :=
      if hasExp then
        let e : Int := digitsValue (s.slice (s.exponentDigits afterFrac) stop)
        if s.is (afterFrac + 1) 0x2D then -e else e
      else 0
    pure (.float (Binary64.ofDecimal negative (digitsValue (intDigits ++ fracDigits))
      (exponent - fracDigits.length)), stop)

/-- The number reader is its sign and integer part followed by the fraction, the exponent and
the value, each found where the last ends. -/
theorem number_eq (s : Source) (start : Nat) : s.number start =
    (let negative := s.is start 0x2D
     let i := if negative then start + 1 else start
     if s.size ≤ i then throw (.expectingValue start) else do
     let afterInt ←
       if s.is i 0x30 then pure (i + 1)
       else if s.digitAt i then pure (s.skipDigits (i + 1))
       else throw (.expectingValue start)
     s.numberValue negative i afterInt (s.fractionEnd afterInt).1 (s.fractionEnd afterInt).2
       (s.exponentEnd (s.fractionEnd afterInt).1).1
       (s.exponentEnd (s.fractionEnd afterInt).1).2) :=
  rfl

end Source

/-! ### Numerals -/

/-- The code points of decimal digits. -/
def digitCodes (ds : List Nat) : List Nat := ds.map (· + 0x30)

@[simp] theorem digitCodes_nil : digitCodes [] = [] := rfl

@[simp] theorem digitCodes_cons (d : Nat) (ds : List Nat) :
    digitCodes (d :: ds) = (d + 0x30) :: digitCodes ds := rfl

theorem digitCodes_append (ds es : List Nat) :
    digitCodes (ds ++ es) = digitCodes ds ++ digitCodes es := List.map_append

@[simp] theorem length_digitCodes (ds : List Nat) : (digitCodes ds).length = ds.length :=
  List.length_map _

theorem isDigitCode_digit {d : Nat} (small : d < 10) : isDigitCode (d + 0x30) = true := by
  simp only [isDigitCode, Bool.and_eq_true, decide_eq_true_eq]
  omega

theorem digitCodes_digits {ds : List Nat} (small : ∀ d ∈ ds, d < 10) :
    ∀ c ∈ digitCodes ds, isDigitCode c = true := by
  intro c mem
  obtain ⟨d, dMem, rfl⟩ := List.mem_map.mp mem
  exact isDigitCode_digit (small d dMem)

/-- The reader's value of digit codes is the value of the digits. -/
theorem digitsValue_digitCodes (ds : List Nat) :
    Source.digitsValue (digitCodes ds) = Binary64.decimalValue ds := by
  simp only [Source.digitsValue, digitCodes, Binary64.decimalValue, List.foldl_map,
    Nat.add_sub_cancel]

/-- A number as the reader's grammar takes it apart: an optional minus sign, the digits of the
integer part, the digits after a point (none without a point), and an exponent with the sign it
is written with and its digits. Digits are values below ten. -/
structure Numeral where
  negative : Bool
  whole : List Nat
  fraction : List Nat := []
  exponent : Option (Bool × List Nat) := none

namespace Numeral

/-- The minus sign, if any. -/
def signText (n : Numeral) : List Nat := if n.negative then [0x2D] else []

/-- The text after the integer part: the point and the fraction's digits, if any. -/
def fractionText (n : Numeral) : List Nat :=
  if n.fraction = [] then [] else 0x2E :: digitCodes n.fraction

/-- The text of the exponent, if any: `e`, its sign, its digits. -/
def exponentText (n : Numeral) : List Nat :=
  match n.exponent with
  | none => []
  | some (negative, ds) => 0x65 :: (if negative then 0x2D else 0x2B) :: digitCodes ds

/-- How a numeral is written. -/
def text (n : Numeral) : List Nat :=
  n.signText ++ (digitCodes n.whole ++ (n.fractionText ++ n.exponentText))

/-- A numeral the reader reads as written: an integer part of one zero or of digits with no
leading zero, and an exponent with at least one digit. -/
structure WellFormed (n : Numeral) : Prop where
  whole_ne : n.whole ≠ []
  leading : n.whole = [0] ∨ 0 < n.whole.headD 0
  digits : ∀ d ∈ n.whole ++ n.fraction, d < 10
  exponent : ∀ e ds, n.exponent = some (e, ds) → ds ≠ [] ∧ ∀ d ∈ ds, d < 10

/-- The power of ten the exponent writes, zero without one. -/
def exponentValue (n : Numeral) : Int :=
  match n.exponent with
  | none => 0
  | some (negative, ds) =>
    if negative then -(Binary64.decimalValue ds : Int) else Binary64.decimalValue ds

/-- What the number grammar makes of a numeral: an exact integer when it has neither a fraction
nor an exponent, refused beyond the digit limit, and otherwise the double nearest to its decimal
value. -/
def value (n : Numeral) : Except ReadError Json :=
  if n.fraction = [] ∧ n.exponent = none then
    if maxIntegerDigits < n.whole.length then .error (.integerTooLong n.whole.length)
    else
      let whole : Int := Binary64.decimalValue n.whole
      .ok (.int (if n.negative then -whole else whole))
  else
    .ok (.float (Binary64.ofDecimal n.negative (Binary64.decimalValue (n.whole ++ n.fraction))
      (n.exponentValue - n.fraction.length)))

end Numeral

/-- What may follow a number: not a digit, a point or an exponent mark. -/
def NumberEnds (post : List Nat) : Prop :=
  ∀ c ∈ post.head?, isDigitCode c = false ∧ c ≠ 0x2E ∧ c ≠ 0x65 ∧ c ≠ 0x45
namespace Numeral

variable {n : Numeral} {s : Source} {post : List Nat}

theorem WellFormed.whole_lt (wf : n.WellFormed) : ∀ d ∈ n.whole, d < 10 :=
  fun d mem => wf.digits d (List.mem_append_left _ mem)

theorem WellFormed.fraction_lt (wf : n.WellFormed) : ∀ d ∈ n.fraction, d < 10 :=
  fun d mem => wf.digits d (List.mem_append_right _ mem)

/-- After the fraction comes no digit and no point. -/
theorem exponentText_head (ends : NumberEnds post) :
    ∀ c ∈ (n.exponentText ++ post).head?, isDigitCode c = false ∧ c ≠ 0x2E := by
  intro c mem
  cases exponent : n.exponent with
  | none =>
    simp only [exponentText, exponent, List.nil_append] at mem
    exact ⟨(ends c mem).1, (ends c mem).2.1⟩
  | some e =>
    simp only [exponentText, exponent, List.cons_append, List.head?_cons,
      Option.mem_def, Option.some.injEq] at mem
    subst mem
    decide

/-- After the integer part comes no digit. -/
theorem fractionText_head (ends : NumberEnds post) :
    ∀ c ∈ (n.fractionText ++ (n.exponentText ++ post)).head?, isDigitCode c = false := by
  intro c mem
  by_cases empty : n.fraction = []
  · simp only [fractionText, empty, if_true, List.nil_append] at mem
    exact (exponentText_head ends c mem).1
  · simp only [fractionText, empty, if_false, List.cons_append, List.head?_cons,
      Option.mem_def, Option.some.injEq] at mem
    subst mem
    decide

/-- The reader's integer part of a well-formed numeral ends after its digits. -/
theorem integerPart_eq (wf : n.WellFormed) {j : Nat}
    (split : s.rest j = digitCodes n.whole ++ (n.fractionText ++ (n.exponentText ++ post)))
    (ends : NumberEnds post) (start : Nat) {β : Type} (k : Nat → Except ReadError β) :
    (if s.is j 0x30 then pure (j + 1) >>= k
      else if s.digitAt j then pure (s.skipDigits (j + 1)) >>= k
      else throw (.expectingValue start) >>= k) = k (j + n.whole.length) := by
  cases whole : n.whole with
  | nil => exact absurd whole wf.whole_ne
  | cons d ds =>
    rw [whole, digitCodes_cons, List.cons_append] at split
    have small : d < 10 := wf.whole_lt d (by simp [whole])
    rcases wf.leading with single | leading
    · -- a lone zero
      obtain ⟨rfl, rfl⟩ : d = 0 ∧ ds = [] := by simpa [whole] using single
      rw [Source.is_of_rest split]
      rfl
    · have positive : 0 < d := by simpa [whole] using leading
      have notZero : (d + 0x30 == 0x30) = false := by
        simp only [beq_eq_false_iff_ne, ne_eq]
        omega
      have rest := Source.rest_cons split
      have within := Source.lt_size_of_rest split
      rw [Source.is_of_rest split, notZero, if_neg Bool.false_ne_true,
        Source.digitAt_of_rest split, isDigitCode_digit small, if_pos rfl,
        Source.skipDigits_eq rest (digitCodes_digits fun d' mem => wf.whole_lt d' (by simp [whole, mem]))
          (fractionText_head ends) (by omega)]
      simp only [length_digitCodes, List.length_cons, pure_bind]
      congr 1
      omega

/-- The reader's fraction of a well-formed numeral is its fraction text. -/
theorem fractionEnd_eq (wf : n.WellFormed) {a : Nat}
    (split : s.rest a = n.fractionText ++ (n.exponentText ++ post)) (ends : NumberEnds post) :
    s.fractionEnd a = (a + n.fractionText.length, !n.fraction.isEmpty) := by
  unfold Source.fractionEnd
  by_cases empty : n.fraction = []
  · -- no point: what comes next is an exponent mark or ends the number
    rw [fractionText, if_pos empty, List.nil_append] at split
    have noPoint : s.is a 0x2E = false := by
      cases following : n.exponentText ++ post with
      | nil => exact Source.is_of_rest_nil (split.trans following) _
      | cons c r =>
        have notPoint := (exponentText_head (n := n) ends c (by rw [following]; rfl)).2
        rw [Source.is_of_rest (split.trans following)]
        simpa using notPoint
    simp [noPoint, fractionText, empty]
  · obtain ⟨d, ds, fraction⟩ := List.exists_cons_of_ne_nil empty
    have small : ∀ d' ∈ d :: ds, d' < 10 := fraction ▸ wf.fraction_lt
    rw [fractionText, if_neg empty, fraction, digitCodes_cons, List.cons_append,
      List.cons_append] at split
    have afterPoint := Source.rest_cons split
    have afterFirst := Source.rest_cons afterPoint
    have sized := Source.size_eq split (Source.lt_size_of_rest split).le
    simp only [List.length_cons, List.length_append, length_digitCodes] at sized
    have room : a < s.size - 1 := by omega
    rw [Source.is_of_rest split, Source.digitAt_of_rest afterPoint,
      isDigitCode_digit (small d List.mem_cons_self),
      Source.skipDigits_eq afterFirst (digitCodes_digits fun d' mem => small d' (by simp [mem]))
        (fun c mem => (exponentText_head ends c mem).1) (by omega)]
    simp [room, fractionText, fraction]
    omega

/-- The reader's exponent of a well-formed numeral is its exponent text. -/
theorem exponentEnd_eq (wf : n.WellFormed) {b : Nat} (split : s.rest b = n.exponentText ++ post)
    (ends : NumberEnds post) :
    s.exponentEnd b = (b + n.exponentText.length, n.exponent.isSome) := by
  unfold Source.exponentEnd
  cases exponent : n.exponent with
  | none =>
    simp only [exponentText, exponent, List.nil_append] at split
    have noMark : (s.is b 0x65 || s.is b 0x45) = false := by
      cases post with
      | nil => simp [Source.is_of_rest_nil split]
      | cons c r =>
        have notMark := ends c (by simp)
        rw [Source.is_of_rest split, Source.is_of_rest split]
        simpa using ⟨notMark.2.2.1, notMark.2.2.2⟩
    simp [noMark, exponentText, exponent]
  | some e =>
    obtain ⟨negative, ds⟩ := e
    obtain ⟨nonempty, small⟩ := wf.exponent negative ds exponent
    simp only [exponentText, exponent, List.cons_append] at split
    have afterMark := Source.rest_cons split
    have afterSign := Source.rest_cons afterMark
    have sized := Source.size_eq split (Source.lt_size_of_rest split).le
    simp only [List.length_cons, List.length_append, length_digitCodes] at sized
    have signed : (s.is (b + 1) 0x2D || s.is (b + 1) 0x2B) = true := by
      rw [Source.is_of_rest afterMark, Source.is_of_rest afterMark]
      cases negative <;> simp
    have digitsEnd := Source.skipDigits_eq afterSign (digitCodes_digits small)
      (fun c mem => (ends c mem).1) (by omega)
    -- the last digit of the exponent
    obtain ⟨init, last, rfl⟩ := List.eq_nil_or_concat ds |>.resolve_left nonempty
    rw [List.concat_eq_append] at afterSign digitsEnd small ⊢
    rw [digitCodes_append, List.append_assoc] at afterSign
    have lastDigit := Source.rest_append afterSign
    simp only [digitCodes_cons, digitCodes_nil, List.cons_append, List.nil_append,
      length_digitCodes] at lastDigit
    have lastSmall : last < 10 := small last (by simp)
    have room : b < s.size - 1 := by simp at sized; omega
    have signRoom : b + 1 < s.size - 1 := by simp at sized; omega
    simp [Source.is_of_rest split, signed, room, signRoom, digitsEnd,
      Source.digitAt_of_rest lastDigit, isDigitCode_digit lastSmall, exponentText, exponent]
    omega

/-- The fraction's digits as the reader slices them out. -/
theorem fraction_slice (nonempty : n.fraction ≠ []) {a : Nat}
    (split : s.rest a = n.fractionText ++ (n.exponentText ++ post)) :
    s.slice (a + 1) (a + n.fractionText.length) = digitCodes n.fraction := by
  rw [fractionText, if_neg nonempty, List.cons_append] at split
  have digits := Source.slice_eq (Source.rest_cons split)
  rw [fractionText, if_neg nonempty, List.length_cons, length_digitCodes,
    show a + (n.fraction.length + 1) = a + 1 + n.fraction.length by omega]
  simpa using digits

/-- The exponent's sign and digits as the reader finds them. -/
theorem exponent_parts {negative : Bool} {ds : List Nat} (exponent : n.exponent = some (negative, ds))
    {b : Nat} (split : s.rest b = n.exponentText ++ post) :
    s.exponentDigits b = b + 2 ∧ s.is (b + 1) 0x2D = negative ∧
      s.slice (b + 2) (b + n.exponentText.length) = digitCodes ds := by
  simp only [exponentText, exponent, List.cons_append] at split ⊢
  have afterMark := Source.rest_cons split
  have digits := Source.slice_eq (Source.rest_cons afterMark)
  refine ⟨?_, ?_, ?_⟩
  · rw [Source.exponentDigits, Source.is_of_rest afterMark, Source.is_of_rest afterMark]
    cases negative <;> simp
  · rw [Source.is_of_rest afterMark]
    cases negative <;> simp
  · rw [List.length_cons, List.length_cons, length_digitCodes,
      show b + (ds.length + 1 + 1) = b + 2 + ds.length by omega]
    simpa using digits

/-- The value the reader gives a well-formed numeral once its parts are found. -/
theorem numberValue_eq {j : Nat}
    (split : s.rest j = digitCodes n.whole ++ (n.fractionText ++ (n.exponentText ++ post))) :
    s.numberValue n.negative j (j + n.whole.length) (j + n.whole.length + n.fractionText.length)
      (!n.fraction.isEmpty) (j + n.whole.length + n.fractionText.length + n.exponentText.length)
      n.exponent.isSome =
    n.value.map fun v => (v, j + n.whole.length + n.fractionText.length + n.exponentText.length) := by
  have whole := Source.slice_eq split
  have afterWhole := Source.rest_append split
  have afterFraction := Source.rest_append afterWhole
  rw [length_digitCodes] at whole afterWhole afterFraction
  by_cases empty : n.fraction = []
  · cases exponent : n.exponent with
    | none =>
      simp [Source.numberValue, value, empty, exponent, whole, digitsValue_digitCodes]
      split_ifs <;> rfl
    | some e =>
      obtain ⟨negative, ds⟩ := e
      obtain ⟨digitsAt, sign, digits⟩ := exponent_parts exponent afterFraction
      simp [Source.numberValue, value, empty, exponent, whole, digitsValue_digitCodes, digitsAt,
        sign, digits, exponentValue]
      rfl
  · have fraction := fraction_slice empty afterWhole
    cases exponent : n.exponent with
    | none =>
      simp [Source.numberValue, value, empty, exponent, whole, fraction, ← digitCodes_append,
        digitsValue_digitCodes, exponentValue]
      rfl
    | some e =>
      obtain ⟨negative, ds⟩ := e
      obtain ⟨digitsAt, sign, digits⟩ := exponent_parts exponent afterFraction
      simp [Source.numberValue, value, empty, exponent, whole, fraction, ← digitCodes_append,
        digitsValue_digitCodes, digitsAt, sign, digits, exponentValue]
      rfl

/-- Past the sign: the sign is read as written, and the digits start where it ends. -/
theorem sign_eq (wf : n.WellFormed) {i : Nat} (split : s.rest i = n.text ++ post) :
    s.is i 0x2D = n.negative ∧
      s.rest (if n.negative then i + 1 else i) =
        digitCodes n.whole ++ (n.fractionText ++ (n.exponentText ++ post)) := by
  obtain ⟨d, ds, whole⟩ := List.exists_cons_of_ne_nil wf.whole_ne
  have small : d < 10 := wf.whole_lt d (by simp [whole])
  cases negative : n.negative with
  | true =>
    simp only [text, signText, negative, if_true, List.cons_append, List.append_assoc] at split
    exact ⟨by rw [Source.is_of_rest split]; rfl, by simpa using Source.rest_cons split⟩
  | false =>
    simp only [text, signText, negative, List.append_assoc] at split
    refine ⟨?_, by simpa using split⟩
    rw [whole, digitCodes_cons, List.cons_append] at split
    rw [Source.is_of_rest split]
    simp only [beq_eq_false_iff_ne, ne_eq]
    omega

/-- The reader reads a well-formed numeral that nothing continues as the number grammar says,
and stops right after it. -/
theorem number_eq_value (wf : n.WellFormed) {i : Nat} (split : s.rest i = n.text ++ post)
    (ends : NumberEnds post) : s.number i = n.value.map fun v => (v, i + n.text.length) := by
  obtain ⟨signed, atWhole⟩ := sign_eq wf split
  have afterWhole := Source.rest_append atWhole
  have afterFraction := Source.rest_append afterWhole
  rw [length_digitCodes] at afterWhole afterFraction
  have started : ¬ s.size ≤ (if n.negative then i + 1 else i) := by
    obtain ⟨d, ds, whole⟩ := List.exists_cons_of_ne_nil wf.whole_ne
    rw [whole, digitCodes_cons, List.cons_append] at atWhole
    exact Nat.not_le.mpr (Source.lt_size_of_rest atWhole)
  have stop : i + n.text.length = (if n.negative then i + 1 else i) + n.whole.length +
      n.fractionText.length + n.exponentText.length := by
    by_cases negative : n.negative <;> simp [text, signText, negative] <;> omega
  rw [Source.number_eq]
  simp only [signed, if_neg started]
  rw [integerPart_eq wf atWhole ends i]
  simp only [fractionEnd_eq wf afterWhole ends, exponentEnd_eq wf afterFraction ends, stop]
  exact numberValue_eq atWhole

end Numeral

end HostInventory.Json
