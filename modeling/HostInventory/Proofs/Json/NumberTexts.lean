import HostInventory.Proofs.Json.Numerals
import HostInventory.Proofs.Json.Delimiting
/-!
# Reading canonical numbers back

The canonical writer spells an integer by its decimal digits and a finite double by its shortest
digits, laid out positionally or with an exponent. Both texts are well-formed numerals
(`Numeral.ofInt`, `Numeral.ofDigits`), so the reader reads them as the number grammar says. An
integer comes back as itself unless it has more digits than the reader converts (`number_ofInt`).
A double comes back as itself (`number_floatText`): its shortest digits lie in its rounding
interval, and a decimal in that interval lies inside the range where the reader rounds exactly
(`Binary64.ofDecimal_of_rounds`). So the shortest text tells finite doubles apart
(`floatText_injective`).
-/

namespace HostInventory.Binary64

/-! ### How many digits a number has -/

theorem decimalValue_lt : ∀ {ds : List Nat}, (∀ d ∈ ds, d < 10) → decimalValue ds < 10 ^ ds.length
  | [], _ => by simp
  | d :: ds, small => by
    have head := small d List.mem_cons_self
    have tail := decimalValue_lt fun d' mem => small d' (List.mem_cons_of_mem d mem)
    rw [decimalValue_cons, List.length_cons, pow_succ]
    nlinarith

theorem le_decimalValue {first : Nat} (pos : 0 < first) (rest : List Nat) :
    10 ^ rest.length ≤ decimalValue (first :: rest) := by
  rw [decimalValue_cons]
  calc 10 ^ rest.length ≤ first * 10 ^ rest.length := Nat.le_mul_of_pos_left _ pos
    _ ≤ first * 10 ^ rest.length + decimalValue rest := Nat.le_add_right _ _

/-- A positive number has as many decimal digits as the power of ten above it says. -/
theorem length_toString {N : Nat} (pos : 0 < N) :
    ∃ k, (toString N).length = k + 1 ∧ 10 ^ k ≤ N ∧ N < 10 ^ (k + 1) := by
  obtain ⟨first, rest, digits, firstPos⟩ := decimalDigits_cons pos
  have length : (toString N).length = (decimalDigits N).length := by
    simp [decimalDigits, Nat.repr]
  have value := decimalValue_decimalDigits N
  rw [digits] at value length
  refine ⟨rest.length, by simpa using length, value ▸ le_decimalValue firstPos rest, ?_⟩
  have below := decimalValue_lt (Json.decimalDigits_lt N)
  rw [digits, value] at below
  simpa using below

end HostInventory.Binary64

namespace HostInventory.Binary64

/-! ### Reading a decimal inside a rounding interval -/

/-- The doubles lie below `2^1024`, which is below `10^310`. -/
theorem two_pow_1024_le : (2 : ℚ) ^ (1024 : ℤ) ≤ 10 ^ (310 : ℤ) := by
  have small := (Nat.cast_le (α := ℚ)).mpr (by decide +kernel : (2 : ℕ) ^ 1024 ≤ 10 ^ 310)
  rw [Nat.cast_pow, Nat.cast_pow, Nat.cast_ofNat, Nat.cast_ofNat] at small
  exact_mod_cast small

/-- Half the least positive double, `2^-1075`, lies above `10^-325`. -/
theorem ten_pow_lt_two_pow : (10 : ℚ) ^ (-325 : ℤ) < 2 ^ (-1075 : ℤ) := by
  have large := (Nat.cast_lt (α := ℚ)).mpr (by decide +kernel : (2 : ℕ) ^ 1075 < 10 ^ 325)
  rw [Nat.cast_pow, Nat.cast_pow, Nat.cast_ofNat, Nat.cast_ofNat] at large
  rw [zpow_neg, zpow_neg, inv_lt_inv₀ (by positivity) (by positivity)]
  exact_mod_cast large

/-- A positive decimal `N · 10^E` in the rounding interval of a finite double is read as that
double: the interval lies inside the range the reader computes exactly. -/
theorem ofDecimal_of_rounds {x : Float} {negative : Bool} {m : Nat} {q : Int}
    (finite : kind x = .finite ⟨negative, m, q⟩) (pos : 0 < m) {N : Nat} {E : Int} (nPos : 0 < N)
    (rounds : Rounds m q (N * 10 ^ E)) : ofDecimal negative N E = x := by
  have stored := (ofBits_finite (UInt64.toNat_lt x.toBits) finite).2 pos
  obtain ⟨lower, upper⟩ := rounds.bounds
  obtain ⟨k, length, atLeast, below⟩ := length_toString nPos
  have tenPos : (0 : ℚ) < 10 ^ E := zpow_pos (by norm_num) E
  have atLeastQ : (10 : ℚ) ^ (k + E) ≤ N * 10 ^ E := by
    rw [zpow_add₀ (by norm_num), zpow_natCast]
    exact mul_le_mul_of_nonneg_right (by exact_mod_cast atLeast) tenPos.le
  have belowQ : (N : ℚ) * 10 ^ E < 10 ^ ((k + 1 : ℕ) + E) := by
    rw [zpow_add₀ (by norm_num), zpow_natCast]
    exact mul_lt_mul_of_pos_right (by exact_mod_cast below) tenPos
  -- below the largest double, so not taken for infinity
  have notHuge : ¬ (309 < ((toString N).length : Int) - 1 + E) := by
    intro huge
    have exponent : (310 : ℤ) ≤ k + E := by rw [length] at huge; push_cast at huge; omega
    have beyond : (10 : ℚ) ^ (310 : ℤ) < 10 ^ (310 : ℤ) :=
      calc (10 : ℚ) ^ (310 : ℤ) ≤ 10 ^ ((k : ℤ) + E) := zpow_le_zpow_right₀ (by norm_num) exponent
        _ ≤ N * 10 ^ E := atLeastQ
        _ ≤ (m + 1 / 2) * 2 ^ q := upper
        _ < 2 ^ (1024 : ℤ) := stored.upper_lt
        _ ≤ 10 ^ (310 : ℤ) := two_pow_1024_le
    exact lt_irrefl _ beyond
  -- above half the least double, so not taken for zero
  have notTiny : ¬ (((toString N).length : Int) + E < -324) := by
    intro tiny
    have exponent : ((k + 1 : ℕ) : ℤ) + E ≤ -325 := by rw [length] at tiny; push_cast at tiny ⊢; omega
    have beneath : (2 : ℚ) ^ (-1075 : ℤ) < 2 ^ (-1075 : ℤ) :=
      calc (2 : ℚ) ^ (-1075 : ℤ) ≤ (lowerEnd m q : ℚ) / 4 * 2 ^ q := stored.lower_ge
        _ ≤ N * 10 ^ E := lower
        _ < 10 ^ (((k + 1 : ℕ) : ℤ) + E) := belowQ
        _ ≤ 10 ^ (-325 : ℤ) := zpow_le_zpow_right₀ (by norm_num) exponent
        _ < 2 ^ (-1075 : ℤ) := ten_pow_lt_two_pow
    exact lt_irrefl _ beneath
  have nonzero : (N == 0) = false := by simpa using nPos.ne'
  unfold ofDecimal
  simp only [nonzero, Bool.false_eq_true, if_false, if_neg notHuge, if_neg notTiny]
  split_ifs with nonneg
  · -- a whole number: `N · 10^E` over one
    have value : ((N * Nat.pow 10 E.toNat : ℕ) : ℚ) / ((1 : ℕ) : ℚ) = N * 10 ^ E := by
      rw [Nat.pow_eq, Nat.cast_one, div_one, Nat.cast_mul, Nat.cast_pow, ← zpow_natCast,
        Int.toNat_of_nonneg nonneg, Nat.cast_ofNat]
    refine round_of_rounds finite pos (Nat.mul_pos nPos (by rw [Nat.pow_eq]; positivity)) one_pos ?_
    rw [value]
    exact rounds
  · -- a fraction: `N` over `10^-E`
    have value : ((N : ℕ) : ℚ) / ((Nat.pow 10 (-E).toNat : ℕ) : ℚ) = N * 10 ^ E := by
      rw [Nat.pow_eq, Nat.cast_pow, ← zpow_natCast, Int.toNat_of_nonneg (by omega), Nat.cast_ofNat,
        div_eq_mul_inv, ← zpow_neg, neg_neg]
    refine round_of_rounds finite pos nPos (by rw [Nat.pow_eq]; positivity) ?_
    rw [value]
    exact rounds

end HostInventory.Binary64

namespace HostInventory.Json

open Binary64 in
theorem digitCodes_decimalDigits (k : Nat) : digitCodes (decimalDigits k) = (Text.ofNat k).points := by
  simp only [digitCodes, decimalDigits, Text.ofNat, Text.ofString, List.map_map]
  apply List.map_congr_left
  intro c mem
  have digit := digit_of_mem_toString (List.mem_map_of_mem (f := Char.toNat) mem)
  simp only [Function.comp_apply]
  omega

namespace Numeral

/-! ### Integers -/

/-- The numeral of an integer: its sign and its decimal digits. -/
def ofInt (n : Int) : Numeral := ⟨decide (n < 0), Binary64.decimalDigits n.natAbs, [], none⟩

theorem text_ofInt (n : Int) : (ofInt n).text = (Text.ofInt n).points := by
  cases n with
  | ofNat k =>
    simp [ofInt, text, signText, fractionText, exponentText, digitCodes_decimalDigits, Text.ofInt,
      Text.ofNat]
    rfl
  | negSucc k =>
    simp [ofInt, text, signText, fractionText, exponentText, digitCodes_decimalDigits, Text.ofInt,
      Text.ofNat, Text.ofString, Int.repr, Nat.repr]

/-- The decimal digits of a number are the integer part of a numeral: one zero, or digits with
no leading zero. -/
theorem decimalDigits_leading (k : Nat) :
    Binary64.decimalDigits k ≠ [] ∧
      (Binary64.decimalDigits k = [0] ∨ 0 < (Binary64.decimalDigits k).headD 0) := by
  rcases Nat.eq_zero_or_pos k with rfl | pos
  · exact ⟨by decide, Or.inl (by decide)⟩
  · obtain ⟨first, rest, digits, firstPos⟩ := Binary64.decimalDigits_cons pos
    rw [digits]
    exact ⟨List.cons_ne_nil _ _, Or.inr firstPos⟩

theorem wellFormed_ofInt (n : Int) : (ofInt n).WellFormed where
  whole_ne := (decimalDigits_leading _).1
  leading := (decimalDigits_leading _).2
  digits := by simpa [ofInt] using decimalDigits_lt n.natAbs
  exponent := by simp [ofInt]

theorem length_decimalDigits (k : Nat) :
    (Binary64.decimalDigits k).length = (Text.ofNat k).points.length := by
  rw [← digitCodes_decimalDigits, length_digitCodes]

/-- An integer's numeral stands for the integer, unless it has too many digits. -/
theorem value_ofInt (n : Int) : (ofInt n).value =
    if maxIntegerDigits < (Text.ofNat n.natAbs).points.length then
      .error (.integerTooLong (Text.ofNat n.natAbs).points.length)
    else .ok (.int n) := by
  simp only [value, ofInt, true_and, if_true, length_decimalDigits,
    Binary64.decimalValue_decimalDigits]
  by_cases tooLong : maxIntegerDigits < (Text.ofNat n.natAbs).points.length
  · simp only [if_pos tooLong]
  · simp only [if_neg tooLong]
    congr 2
    by_cases negative : n < 0
    · simp only [negative, decide_true, if_true]
      omega
    · simp only [negative, decide_false, Bool.false_eq_true, if_false]
      omega

/-! ### Doubles -/

/-- The digits of an exponent, at least two of them. -/
def paddedDigits (k : Nat) : List Nat :=
  List.replicate (2 - (Binary64.decimalDigits k).length) 0 ++ Binary64.decimalDigits k

/-- The numeral the canonical layout writes a decimal form with: positional notation, with a
point in every case, when the point lies after the fourth zero past the decimal point and at most
sixteen digits in; otherwise one digit before the point and an exponent with its sign and at least
two digits. -/
def ofDigits (negative : Bool) (d : Binary64.Digits) : Numeral :=
  if -4 < d.point && d.point ≤ 16 then
    if d.point ≤ 0 then
      ⟨negative, [0], List.replicate (-d.point).toNat 0 ++ d.digits, none⟩
    else if d.point < d.digits.length then
      ⟨negative, d.digits.take d.point.toNat, d.digits.drop d.point.toNat, none⟩
    else ⟨negative, d.digits ++ List.replicate (d.point - d.digits.length).toNat 0, [0], none⟩
  else
    ⟨negative, d.digits.take 1, d.digits.drop 1,
      some (decide (d.point - 1 < 0), paddedDigits (d.point - 1).natAbs)⟩

theorem digitCodes_replicate_zero (k : Nat) : digitCodes (List.replicate k 0) = List.replicate k 0x30 := by
  simp [digitCodes, List.map_replicate]

theorem digitCodes_paddedDigits (k : Nat) :
    digitCodes (paddedDigits k) = (padZeros 2 k).points := by
  simp [paddedDigits, padZeros, digitCodes_append, digitCodes_replicate_zero,
    digitCodes_decimalDigits, length_decimalDigits, Text.length]

/-- The canonical layout of a decimal form is the text of its numeral. -/
theorem text_ofDigits (negative : Bool) {d : Binary64.Digits} (nonempty : d.digits ≠ []) :
    (numberLayout.render negative d).points = (ofDigits negative d).text := by
  rcases d with ⟨digits, point⟩
  obtain ⟨first, rest, rfl⟩ := List.exists_cons_of_ne_nil nonempty
  unfold Binary64.Layout.render ofDigits
  by_cases positional : -4 < point ∧ point ≤ 16
  · obtain ⟨above, upTo⟩ := positional
    by_cases nonpositive : point ≤ 0
    · -- after at most four zeros past the point
      cases negative <;>
        simp [numberLayout, above, upTo, nonpositive, text, signText, fractionText, exponentText,
          Binary64.digitText, digitCodes, Text.ofString, Text.empty]
    by_cases inside : point ≤ (rest.length : Int)
    · -- a point inside the digits
      have kept : List.drop point.toNat (first :: rest) ≠ [] := by
        simp only [ne_eq, List.drop_eq_nil_iff, List.length_cons]
        omega
      cases negative <;>
        simp [numberLayout, above, upTo, nonpositive, inside, text, signText, fractionText,
          exponentText, kept, Binary64.digitText, digitCodes, Text.ofString, Text.empty]
    · -- zeros up to the point, then a fractional zero
      cases negative <;>
        simp [numberLayout, above, upTo, nonpositive, inside, text, signText, fractionText,
          exponentText, Binary64.digitText, digitCodes, Text.ofString, Text.empty]
  · -- one digit, the others after a point, and the exponent
    have outside : ¬ (decide (numberLayout.positionalAbove < point) &&
        decide (point ≤ numberLayout.positionalUpTo)) = true := by
      rw [Bool.and_eq_true, decide_eq_true_iff, decide_eq_true_iff]
      exact positional
    simp only [if_neg outside]
    -- the digit text has its own case for a single digit
    cases rest <;> cases negative <;>
      simp [numberLayout, positional, text, signText, fractionText, exponentText,
        Binary64.digitText, digitCodes, Text.ofString, Text.empty]
    -- the layout pads the exponent's digits where the numeral lists them
    all_goals
      rw [← digitCodes_paddedDigits]
      split_ifs <;> simp only [digitCodes, List.cons_append, List.nil_append]

theorem paddedDigits_lt (k : Nat) : ∀ d ∈ paddedDigits k, d < 10 := by
  intro d mem
  rcases List.mem_append.mp mem with zero | digit
  · rw [List.eq_of_mem_replicate zero]
    norm_num
  · exact decimalDigits_lt k d digit

theorem paddedDigits_ne_nil (k : Nat) : paddedDigits k ≠ [] := by
  simp [paddedDigits, (decimalDigits_leading k).1]

theorem decimalValue_zeros_append (k : Nat) (ds : List Nat) :
    Binary64.decimalValue (List.replicate k 0 ++ ds) = Binary64.decimalValue ds := by
  rw [Binary64.decimalValue_append, Binary64.decimalValue_replicate_zero, zero_mul, zero_add]

theorem decimalValue_paddedDigits (k : Nat) : Binary64.decimalValue (paddedDigits k) = k := by
  rw [paddedDigits, decimalValue_zeros_append, Binary64.decimalValue_decimalDigits]

/-- The canonical layout of digits with a nonzero first digit is a well-formed numeral. -/
theorem wellFormed_ofDigits (negative : Bool) {d : Binary64.Digits} {first : Nat}
    {rest : List Nat} (digits : d.digits = first :: rest) (firstPos : 0 < first)
    (small : ∀ k ∈ d.digits, k < 10) : (ofDigits negative d).WellFormed := by
  rcases d with ⟨ds, point⟩
  dsimp only at digits small
  subst digits
  have zeros : ∀ k, ∀ d ∈ List.replicate k 0, d < 10 := by
    intro k d mem
    rw [List.eq_of_mem_replicate mem]
    norm_num
  unfold ofDigits
  dsimp only
  split_ifs with positional nonpositive inside
  · -- one zero before the point
    exact ⟨by simp, Or.inl rfl,
      List.forall_mem_append.mpr ⟨by simp, List.forall_mem_append.mpr ⟨zeros _, small⟩⟩, by simp⟩
  · -- the digits before the point, which start with the first
    obtain ⟨k, taken⟩ : ∃ k, point.toNat = k + 1 := ⟨point.toNat - 1, by omega⟩
    refine ⟨by simp [taken], Or.inr (by simp [taken, firstPos]), fun d mem => ?_, by simp⟩
    rw [List.take_append_drop] at mem
    exact small d mem
  · -- all digits and zeros before the point
    exact ⟨by simp, Or.inr (by simpa using firstPos),
      List.forall_mem_append.mpr ⟨List.forall_mem_append.mpr ⟨small, zeros _⟩, by simp⟩, by simp⟩
  · -- the first digit before the point
    refine ⟨by simp, Or.inr (by simpa using firstPos), fun d mem => ?_, ?_⟩
    · rw [List.take_append_drop] at mem
      exact small d mem
    · intro sign ds' exponent
      simp only [Option.some.injEq, Prod.mk.injEq] at exponent
      rw [← exponent.2]
      exact ⟨paddedDigits_ne_nil _, paddedDigits_lt _⟩

/-- A numeral with a point or an exponent stands for the double nearest to its decimal value. -/
theorem value_decimal {n : Numeral} (decimal : n.fraction ≠ [] ∨ n.exponent.isSome) :
    n.value = .ok (.float (Binary64.ofDecimal n.negative
      (Binary64.decimalValue (n.whole ++ n.fraction)) (n.exponentValue - n.fraction.length))) := by
  have notInteger : ¬ (n.fraction = [] ∧ n.exponent = none) := by
    rintro ⟨noFraction, noExponent⟩
    rcases decimal with fraction | exponent
    · exact fraction noFraction
    · simp [noExponent] at exponent
  rw [value, if_neg notInteger]

/-- The canonical layout of digits with a nonzero first digit stands for the double nearest to
their value. -/
theorem value_ofDigits (negative : Bool) {d : Binary64.Digits} {first : Nat} {rest : List Nat}
    (digits : d.digits = first :: rest) (firstPos : 0 < first) :
    ∃ (N : Nat) (E : Int), 0 < N ∧ (N : ℚ) * 10 ^ E = d.value ∧
      (ofDigits negative d).value = .ok (.float (Binary64.ofDecimal negative N E)) := by
  rcases d with ⟨ds, point⟩
  dsimp only at digits
  subst digits
  have valuePos : 0 < Binary64.decimalValue (first :: rest) :=
    lt_of_lt_of_le (by positivity) (Binary64.le_decimalValue firstPos rest)
  unfold ofDigits Binary64.Digits.value
  dsimp only
  split_ifs with positional nonpositive inside
  · -- `0.`, zeros, then the digits
    have leadingZeros : [0] ++ (List.replicate (-point).toNat 0 ++ first :: rest) =
        List.replicate ((-point).toNat + 1) 0 ++ first :: rest := by
      simp [List.replicate_succ]
    refine ⟨_, _, ?_, ?_, value_decimal (Or.inl (by simp))⟩
    · rw [leadingZeros, decimalValue_zeros_append]
      exact valuePos
    · rw [leadingZeros, decimalValue_zeros_append]
      congr 2
      simp only [exponentValue, List.length_append, List.length_replicate, List.length_cons]
      omega
  · -- the digits with a point among them
    have kept : List.drop point.toNat (first :: rest) ≠ [] := by
      simp only [ne_eq, List.drop_eq_nil_iff, List.length_cons]
      simp only [List.length_cons, Nat.cast_add, Nat.cast_one] at inside
      omega
    refine ⟨_, _, ?_, ?_, value_decimal (Or.inl kept)⟩
    · rw [List.take_append_drop]
      exact valuePos
    · rw [List.take_append_drop]
      congr 2
      simp only [exponentValue, List.length_drop, List.length_cons]
      simp only [List.length_cons, Nat.cast_add, Nat.cast_one] at inside
      omega
  · -- the digits, zeros, then `.0`
    have scaled : Binary64.decimalValue (first :: rest ++
        List.replicate (point - ((first :: rest).length : Int)).toNat 0 ++ [0]) =
        Binary64.decimalValue (first :: rest) *
          10 ^ ((point - ((first :: rest).length : Int)).toNat + 1) := by
      rw [Binary64.decimalValue_append, Binary64.decimalValue_append,
        Binary64.decimalValue_replicate_zero]
      simp [pow_succ, mul_assoc]
    refine ⟨_, _, ?_, ?_, value_decimal (Or.inl (by simp))⟩
    · rw [scaled]
      positivity
    · rw [scaled, Nat.cast_mul, Nat.cast_pow, mul_assoc]
      congr 1
      simp only [exponentValue, List.length_singleton, Nat.cast_one, zero_sub]
      rw [Nat.cast_ofNat, ← zpow_natCast, ← zpow_add₀ (by norm_num)]
      congr 1
      simp only [List.length_cons, Nat.cast_add, Nat.cast_one] at inside ⊢
      omega
  · -- one digit, a point, the others, and the exponent
    refine ⟨_, _, ?_, ?_, value_decimal (Or.inr rfl)⟩
    · rw [List.take_append_drop]
      exact valuePos
    · rw [List.take_append_drop]
      congr 2
      simp only [exponentValue, decimalValue_paddedDigits, List.length_drop, List.length_cons]
      by_cases below : point - 1 < 0
      · simp only [below, decide_true, if_true]
        omega
      · simp only [below, decide_false, Bool.false_eq_true, if_false]
        omega

end Numeral

/-- The reader reads the text of an integer back as that integer, unless it has more digits than
it converts. -/
theorem number_ofInt (n : Int) {s : Source} {i : Nat} {post : List Nat}
    (split : s.rest i = (Text.ofInt n).points ++ post) (ends : NumberEnds post) :
    s.number i =
      if maxIntegerDigits < (Text.ofNat n.natAbs).points.length then
        .error (.integerTooLong (Text.ofNat n.natAbs).points.length)
      else .ok (.int n, i + (Text.ofInt n).points.length) := by
  rw [← Numeral.text_ofInt] at split ⊢
  rw [Numeral.number_eq_value (Numeral.wellFormed_ofInt n) split ends, Numeral.value_ofInt]
  split_ifs <;> rfl

/-- The shortest text of a finite double is a well-formed numeral that stands for the double. -/
theorem floatText_numeral {x : Float} {t : Text} (written : floatText? x = some t) :
    ∃ n : Numeral, n.WellFormed ∧ n.text = t.points ∧ n.value = .ok (.float x) := by
  unfold floatText? at written
  split at written
  · cases written
  · cases written
  next v finite =>
    rcases v with ⟨negative, m, q⟩
    dsimp only at written
    by_cases zero : m = 0
    · -- a zero: `0.0` with its sign
      subst zero
      rw [if_pos (beq_self_eq_true 0)] at written
      cases written
      have text : (Numeral.mk negative [0] [0] none).text =
          (Text.ofString (if negative then "-0.0" else "0.0")).points := by
        cases negative <;> rfl
      refine ⟨⟨negative, [0], [0], none⟩, ⟨by simp, Or.inl rfl, by simp, by simp⟩, text, ?_⟩
      rw [Numeral.value_decimal (Or.inl (by simp))]
      have read : Binary64.ofDecimal negative (Binary64.decimalValue ([0] ++ [0]))
          ((Numeral.mk negative [0] [0] none).exponentValue - ([0] : List Nat).length) =
          Binary64.round negative 0 1 := rfl
      rw [read, Binary64.round_zero finite]
    · -- any other double: its shortest digits, laid out
      rw [if_neg (by simpa using zero)] at written
      cases written
      have stored := (Binary64.ofBits_finite (UInt64.toNat_lt x.toBits) finite).2
        (Nat.pos_of_ne_zero zero)
      dsimp only at stored
      obtain ⟨rounds, first, rest, digits, firstPos⟩ := Binary64.shortest_rounds stored
      obtain ⟨N, E, nPos, value, read⟩ := Numeral.value_ofDigits negative digits firstPos
      refine ⟨_, Numeral.wellFormed_ofDigits negative digits firstPos (shortest_digits_lt m q),
        (Numeral.text_ofDigits negative (by simp [digits])).symm, ?_⟩
      rw [← value] at rounds
      rw [read, Binary64.ofDecimal_of_rounds finite (Nat.pos_of_ne_zero zero) nPos rounds]

/-- The reader reads the shortest text of a finite double back as that double. -/
theorem number_floatText {x : Float} {t : Text} (written : floatText? x = some t) {s : Source}
    {i : Nat} {post : List Nat} (split : s.rest i = t.points ++ post) (ends : NumberEnds post) :
    s.number i = .ok (.float x, i + t.points.length) := by
  obtain ⟨n, wf, text, value⟩ := floatText_numeral written
  rw [← text] at split ⊢
  rw [Numeral.number_eq_value wf split ends, value]
  rfl

/-- Finite doubles with the same shortest text are the same double. -/
theorem floatText_injective {x y : Float} {t : Text} (written : floatText? x = some t)
    (written' : floatText? y = some t) : x = y := by
  have split : (Source.mk t.points.toArray).rest 0 = t.points ++ [] := by
    simp [Source.rest]
  have ends : NumberEnds [] := by simp [NumberEnds]
  have read := number_floatText written split ends
  rw [number_floatText written' split ends] at read
  simpa using read.symm

end HostInventory.Json
