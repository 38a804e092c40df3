import Mathlib
import HostInventory.Number.Shortest
/-!
# Rounding to the nearest double

`Binary64.roundBits` rounds a positive fraction `num / den` to the nearest double, a tie going to
the even significand. Seen from a finite positive double `m · 2^q`, this says that every rational
of its rounding interval rounds back to it (`roundBits_of_rounds`): between the two midpoints to
its neighbours, the midpoints included exactly when `m` is even. Below a power of two the lower
neighbour is only a quarter step away, and the interval is narrower there.

The arithmetic is exact: fractions are scaled by powers of two (`scaleByPow2_div`), bracketed by
consecutive powers of two (`binaryExponent_spec`) and rounded half to even
(`roundHalfEven_eq`). A finite double's bits are fixed by its sign, significand and exponent
(`ofBits_finite`), so `round` gives back the very double whose interval holds the fraction
(`round_of_rounds`).
-/

namespace HostInventory.Binary64

/-! ### Exact arithmetic -/

theorem scaleByPow2_div (num den : Nat) (k : Int) :
    ((scaleByPow2 num den k).1 : ℚ) / (scaleByPow2 num den k).2 = (num / den : ℚ) * 2 ^ k := by
  unfold scaleByPow2
  split_ifs with nonneg
  · obtain ⟨n, rfl⟩ := Int.eq_ofNat_of_zero_le nonneg
    simp [Nat.pow_eq]
    ring
  · obtain ⟨n, rfl⟩ := Int.exists_eq_neg_ofNat (Int.le_of_lt (Int.lt_of_not_ge nonneg))
    simp [Nat.pow_eq]
    field_simp

theorem scaleByPow2_den_pos {num den : Nat} (pos : 0 < den) (k : Int) :
    0 < (scaleByPow2 num den k).2 := by
  unfold scaleByPow2
  split_ifs
  · exact pos
  · exact Nat.mul_pos pos (Nat.pow_pos (by norm_num))

/-- A positive natural number lies between the power of two of its logarithm and the next. -/
theorem log2_bounds {n : Nat} (pos : 0 < n) :
    (2 : ℚ) ^ (n.log2 : ℤ) ≤ n ∧ (n : ℚ) < 2 ^ ((n.log2 : ℤ) + 1) := by
  have low := Nat.log2_self_le (Nat.pos_iff_ne_zero.mp pos)
  have high := @Nat.lt_log2_self n
  constructor
  · rw [zpow_natCast]
    exact_mod_cast low
  · rw [show (n.log2 : ℤ) + 1 = ((n.log2 + 1 : ℕ) : ℤ) by push_cast; rfl, zpow_natCast]
    exact_mod_cast high

/-- The binary exponent brackets a positive fraction between consecutive powers of two. -/
theorem binaryExponent_spec {num den : Nat} (numPos : 0 < num) (denPos : 0 < den) :
    (2 : ℚ) ^ binaryExponent num den ≤ num / den ∧
      (num / den : ℚ) < 2 ^ (binaryExponent num den + 1) := by
  obtain ⟨numLow, numHigh⟩ := log2_bounds numPos
  obtain ⟨denLow, denHigh⟩ := log2_bounds denPos
  have denQ : (0 : ℚ) < den := by exact_mod_cast denPos
  have two : (2 : ℚ) ≠ 0 := two_ne_zero
  set guess : ℤ := (num.log2 : ℤ) - (den.log2 : ℤ) with guessEq
  -- the logarithms put `num / den` strictly within a factor two of `2^guess`
  have above : (2 : ℚ) ^ (guess - 1) < num / den := by
    have split : guess - 1 = (num.log2 : ℤ) - ((den.log2 : ℤ) + 1) := by omega
    rw [split, zpow_sub₀ two, div_lt_div_iff₀ (zpow_pos two_pos _) denQ]
    exact mul_lt_mul' numLow denHigh denQ.le (by exact_mod_cast numPos)
  have below : (num / den : ℚ) < 2 ^ (guess + 1) := by
    have split : guess + 1 = ((num.log2 : ℤ) + 1) - (den.log2 : ℤ) := by omega
    rw [split, zpow_sub₀ two, div_lt_div_iff₀ denQ (zpow_pos two_pos _)]
    exact mul_lt_mul numHigh denLow (by positivity) (by positivity)
  -- the test on `den · 2^guess ≤ num` compares `2^guess` with `num / den`
  have test : (scaleByPow2 den 1 guess).1 ≤ num * (scaleByPow2 den 1 guess).2 ↔
      (2 : ℚ) ^ guess ≤ num / den := by
    have scaled := scaleByPow2_div den 1 guess
    have dPos : (0 : ℚ) < (scaleByPow2 den 1 guess).2 := by
      exact_mod_cast scaleByPow2_den_pos Nat.one_pos guess
    rw [Nat.cast_one, div_one] at scaled
    rw [le_div_iff₀ denQ, show (2 : ℚ) ^ guess * den = den * 2 ^ guess from mul_comm _ _, ← scaled,
      div_le_iff₀ dPos]
    norm_cast
  have unfolded : binaryExponent num den =
      if (scaleByPow2 den 1 guess).1 ≤ num * (scaleByPow2 den 1 guess).2 then guess else guess - 1 :=
    rfl
  rw [unfolded]
  split_ifs with fits
  · exact ⟨test.mp fits, below⟩
  · refine ⟨above.le, ?_⟩
    rw [sub_add_cancel]
    exact lt_of_not_ge (fun h => fits (test.mpr h))

theorem roundHalfEven_eq_of_bounds {n d m : Nat} (pos : 0 < d)
    (above : 2 * m * d ≤ 2 * n + d) (below : 2 * n ≤ 2 * m * d + d)
    (tieBelow : 2 * m * d = 2 * n + d → m % 2 = 0)
    (tieAbove : 2 * n = 2 * m * d + d → m % 2 = 0) :
    roundHalfEven n d = m := by
  have split := Nat.div_add_mod n d
  have remLt := Nat.mod_lt n pos
  unfold roundHalfEven
  dsimp only
  generalize n / d = q at split ⊢
  generalize n % d = r at split remLt ⊢
  subst split
  -- the quotient is `m` or `m - 1`
  have qLt : q < m + 1 := by
    have : d * (2 * q) < d * (2 * m + 2) := by nlinarith
    have := Nat.lt_of_mul_lt_mul_left this
    omega
  have mLe : m ≤ q + 1 := by
    have : d * (2 * m) < d * (2 * q + 3) := by nlinarith
    have := Nat.lt_of_mul_lt_mul_left this
    omega
  rcases (show q = m ∨ q + 1 = m by omega) with rfl | rfl
  · -- at most half a step above the quotient, a tie only for an even quotient
    have near : 2 * r ≤ d := by nlinarith
    have even : 2 * r = d → q % 2 = 0 := fun tie => tieAbove (by rw [← tie]; ring)
    split_ifs <;> simp_all <;> omega
  · -- at least half a step above the quotient, a tie only for an even successor
    have near : d ≤ 2 * r := by nlinarith
    have even : 2 * r = d → (q + 1) % 2 = 0 := fun tie => tieBelow (by rw [← tie]; ring)
    split_ifs <;> simp_all <;> omega

/-- A rational rounds to the natural number `m`, a tie going to the even one: it lies within half
a unit of `m`, and exactly half a unit away only when `m` is even. -/
def NearestEven (m : Nat) (r : ℚ) : Prop :=
  if m % 2 = 0 then (m : ℚ) - 1 / 2 ≤ r ∧ r ≤ m + 1 / 2 else (m : ℚ) - 1 / 2 < r ∧ r < m + 1 / 2

/-- Rounding half to even finds the natural number a fraction rounds to. -/
theorem roundHalfEven_eq {n d m : Nat} (pos : 0 < d) (near : NearestEven m (n / d)) :
    roundHalfEven n d = m := by
  have dPos : (0 : ℚ) < d := by exact_mod_cast pos
  -- closed or open, the window bounds the fraction on both sides
  have closed : (m : ℚ) - 1 / 2 ≤ n / d ∧ (n / d : ℚ) ≤ m + 1 / 2 := by
    unfold NearestEven at near
    split_ifs at near
    · exact near
    · exact ⟨near.1.le, near.2.le⟩
  obtain ⟨low, high⟩ := closed
  rw [le_div_iff₀ dPos] at low
  rw [div_le_iff₀ dPos] at high
  -- a fraction exactly half a unit away is in the window only for an even `m`
  have odd : m % 2 ≠ 0 → (m : ℚ) - 1 / 2 < n / d ∧ (n / d : ℚ) < m + 1 / 2 := by
    intro oddM
    unfold NearestEven at near
    rwa [if_neg oddM] at near
  apply roundHalfEven_eq_of_bounds pos
  · have : ((2 * m * d : ℕ) : ℚ) ≤ ((2 * n + d : ℕ) : ℚ) := by push_cast; linarith
    exact_mod_cast this
  · have : ((2 * n : ℕ) : ℚ) ≤ ((2 * m * d + d : ℕ) : ℚ) := by push_cast; linarith
    exact_mod_cast this
  · intro tie
    by_contra oddM
    have strict := (lt_div_iff₀ dPos).mp (odd oddM).1
    have tieQ : ((2 * m * d : ℕ) : ℚ) = ((2 * n + d : ℕ) : ℚ) := by exact_mod_cast tie
    push_cast at tieQ
    linarith
  · intro tie
    by_contra oddM
    have strict := (div_lt_iff₀ dPos).mp (odd oddM).2
    have tieQ : ((2 * n : ℕ) : ℚ) = ((2 * m * d + d : ℕ) : ℚ) := by exact_mod_cast tie
    push_cast at tieQ
    linarith

/-! ### Finite doubles -/

/-- The significand and exponent `m · 2^q` of a finite positive double: `0 < m < 2^53`, the
exponent within the format's range, and `m` at least `2^52` unless the exponent is the least. -/
structure Stored (m : Nat) (q : Int) : Prop where
  pos : 0 < m
  lt_two_pow : m < 2 ^ 53
  least_le : -1074 ≤ q
  le_greatest : q ≤ 971
  normal : 2 ^ 52 ≤ m ∨ q = -1074

/-- The bit pattern of a finite double from its sign, significand and exponent; the biased
exponent is zero below `2^52`. -/
def Exact.bits (v : Exact) : Nat :=
  (if v.negative then 2 ^ 63 else 0) +
    if v.significand < 2 ^ 52 then v.significand
    else (v.exponent + 1075).toNat * 2 ^ 52 + (v.significand - 2 ^ 52)

/-- A bit pattern of a finite double is the one its sign, significand and exponent give, and a
nonzero one holds a significand and exponent of the format. -/
theorem ofBits_finite {bits : Nat} (small : bits < 2 ^ 64) {v : Exact}
    (finite : Kind.ofBits bits = .finite v) :
    bits = v.bits ∧ (0 < v.significand → Stored v.significand v.exponent) := by
  unfold Kind.ofBits at finite
  dsimp only at finite
  simp only [Nat.pow_eq] at finite
  split_ifs at finite with largest noFraction zeroExponent
  · -- a subnormal double or a zero: the biased exponent is zero
    cases finite
    dsimp only
    simp only [beq_iff_eq] at zeroExponent
    have below : bits % 2 ^ 52 < 2 ^ 52 := Nat.mod_lt _ (by norm_num)
    refine ⟨?_, fun pos => ⟨pos, by omega, by norm_num, by norm_num, Or.inr rfl⟩⟩
    simp only [Exact.bits, if_pos below]
    split_ifs with sign <;> simp only [beq_iff_eq] at sign <;> omega
  · -- a normal double: the biased exponent is between 1 and 2046
    cases finite
    dsimp only
    simp only [beq_iff_eq] at largest zeroExponent
    have notBelow : ¬ bits % 2 ^ 52 + 2 ^ 52 < 2 ^ 52 := by omega
    refine ⟨?_, fun pos => ⟨pos, by omega, by omega, by omega, Or.inl (by omega)⟩⟩
    simp only [Exact.bits, if_neg notBelow]
    split_ifs with sign <;> simp only [beq_iff_eq] at sign <;> omega

/-! ### Rounding intervals -/

/-- The lower end of the rounding interval of `m · 2^q`, in units of `2^(q-2)`: half a step below
`m`, or a quarter step at the least normal significand above the least exponent, where the
double below is half a step away. -/
def lowerEnd (m : Nat) (q : Int) : Nat :=
  if m == Nat.pow 2 52 && -1074 < q then 4 * m - 1 else 4 * m - 2

/-- The upper end of the rounding interval, half a step above `m`, in units of `2^(q-2)`. -/
def upperEnd (m : Nat) : Nat := 4 * m + 2

/-- The rationals that round to the double `m · 2^q`: those between the two ends, the ends
included exactly when `m` is even. -/
def Rounds (m : Nat) (q : Int) (x : ℚ) : Prop :=
  if m % 2 = 0 then (lowerEnd m q : ℚ) * 2 ^ (q - 2) ≤ x ∧ x ≤ upperEnd m * 2 ^ (q - 2)
  else (lowerEnd m q : ℚ) * 2 ^ (q - 2) < x ∧ x < upperEnd m * 2 ^ (q - 2)

theorem two_zpow_sub_two (q : Int) : (2 : ℚ) ^ (q - 2) = 2 ^ q / 4 := by
  rw [zpow_sub₀ two_ne_zero]
  norm_num

/-- The upper end lies half a step above `m`. -/
theorem upperEnd_mul (m : Nat) (q : Int) :
    (upperEnd m : ℚ) * 2 ^ (q - 2) = (m + 1 / 2) * 2 ^ q := by
  rw [two_zpow_sub_two, upperEnd]
  push_cast
  ring

theorem two_le_lowerEnd {m : Nat} (pos : 0 < m) (q : Int) : 2 ≤ lowerEnd m q := by
  unfold lowerEnd
  split_ifs <;> omega

/-- The lower end lies at most half a step below `m`. -/
theorem sub_half_le_lowerEnd {m : Nat} (pos : 0 < m) (q : Int) :
    (m : ℚ) - 1 / 2 ≤ (lowerEnd m q : ℚ) / 4 := by
  unfold lowerEnd
  split_ifs <;> rw [Nat.cast_sub (by omega)] <;> push_cast <;> linarith

/-- The ends of the interval of `m · 2^q`, as multiples of `2^q`. -/
theorem Rounds.bounds {m : Nat} {q : Int} {x : ℚ} (rounds : Rounds m q x) :
    (lowerEnd m q : ℚ) / 4 * 2 ^ q ≤ x ∧ x ≤ (m + 1 / 2) * 2 ^ q := by
  have upper := upperEnd_mul m q
  have lower : (lowerEnd m q : ℚ) * 2 ^ (q - 2) = (lowerEnd m q : ℚ) / 4 * 2 ^ q := by
    rw [two_zpow_sub_two]
    ring
  unfold Rounds at rounds
  rw [upper, lower] at rounds
  split_ifs at rounds
  · exact rounds
  · exact ⟨rounds.1.le, rounds.2.le⟩

theorem Stored.add_half_lt {m : Nat} {q : Int} (stored : Stored m q) : (m : ℚ) + 1 / 2 < 2 ^ 53 := by
  have : (m : ℚ) + 1 ≤ 2 ^ 53 := by exact_mod_cast stored.lt_two_pow
  linarith

/-- The interval of a finite double ends below `2^1024`, past the greatest double. -/
theorem Stored.upper_lt {m : Nat} {q : Int} (stored : Stored m q) :
    (m + 1 / 2 : ℚ) * 2 ^ q < 2 ^ (1024 : ℤ) := by
  have mBound : (m + 1 / 2 : ℚ) < 2 ^ (53 : ℤ) := by
    rw [zpow_ofNat]
    exact stored.add_half_lt
  have qBound : (2 : ℚ) ^ q ≤ 2 ^ (971 : ℤ) := zpow_le_zpow_right₀ (by norm_num) stored.le_greatest
  calc (m + 1 / 2 : ℚ) * 2 ^ q < 2 ^ (53 : ℤ) * 2 ^ (971 : ℤ) :=
        mul_lt_mul mBound qBound (zpow_pos two_pos q) (by positivity)
    _ = 2 ^ (1024 : ℤ) := by rw [← zpow_add₀ two_ne_zero]; norm_num

/-- The interval of a finite double starts at or above `2^-1075`, half the least positive
double. -/
theorem Stored.lower_ge {m : Nat} {q : Int} (stored : Stored m q) :
    (2 : ℚ) ^ (-1075 : ℤ) ≤ (lowerEnd m q : ℚ) / 4 * 2 ^ q := by
  have lowerBound : (2 : ℚ) ≤ lowerEnd m q := by exact_mod_cast two_le_lowerEnd stored.pos q
  have qBound : (2 : ℚ) ^ (-1074 : ℤ) ≤ 2 ^ q := zpow_le_zpow_right₀ (by norm_num) stored.least_le
  calc (2 : ℚ) ^ (-1075 : ℤ) = 1 / 2 * 2 ^ (-1074 : ℤ) := by
        rw [show (-1075 : ℤ) = -1 + -1074 by norm_num, zpow_add₀ two_ne_zero]
        norm_num
    _ ≤ (lowerEnd m q : ℚ) / 4 * 2 ^ q :=
        mul_le_mul (by linarith) qBound (by positivity) (by positivity)

/-- A rational of the interval of `m · 2^q`, measured in units of `2^q`, rounds to `m`. -/
theorem Rounds.nearestEven {m : Nat} {q : Int} {x : ℚ} (pos : 0 < m) (rounds : Rounds m q x) :
    NearestEven m (x * 2 ^ (-q)) := by
  have unit : (0 : ℚ) < 2 ^ q := zpow_pos two_pos q
  have scaled : ∀ c : ℚ, (c ≤ x * 2 ^ (-q) ↔ c * 2 ^ q ≤ x) ∧ (x * 2 ^ (-q) ≤ c ↔ x ≤ c * 2 ^ q) ∧
      (c < x * 2 ^ (-q) ↔ c * 2 ^ q < x) ∧ (x * 2 ^ (-q) < c ↔ x < c * 2 ^ q) := by
    intro c
    rw [zpow_neg, ← div_eq_mul_inv]
    exact ⟨le_div_iff₀ unit, div_le_iff₀ unit, lt_div_iff₀ unit, div_lt_iff₀ unit⟩
  -- the lower end is at most half a unit below `m`, and exactly half a unit when `m` is odd
  have lowerGe := sub_half_le_lowerEnd pos q
  have upperEq := upperEnd_mul m q
  unfold NearestEven
  unfold Rounds at rounds
  split_ifs at rounds ⊢ with even
  · obtain ⟨lo, hi⟩ := rounds
    rw [upperEq] at hi
    refine ⟨(scaled _).1.mpr ?_, (scaled _).2.1.mpr hi⟩
    rw [two_zpow_sub_two] at lo
    nlinarith
  · obtain ⟨lo, hi⟩ := rounds
    rw [upperEq] at hi
    have oddEnd : (lowerEnd m q : ℚ) / 4 = m - 1 / 2 := by
      have notPow : m ≠ Nat.pow 2 52 := by
        intro same
        simp [same] at even
      simp [lowerEnd, notPow]
      rw [Nat.cast_sub (by omega)]
      push_cast
      ring
    refine ⟨(scaled _).2.2.1.mpr ?_, (scaled _).2.2.2.mpr hi⟩
    rw [two_zpow_sub_two] at lo
    rw [← oddEnd]
    linarith

theorem two_zpow_add (q : Int) (k : Nat) : (2 : ℚ) ^ (q + k) = 2 ^ k * 2 ^ q := by
  rw [zpow_add₀ two_ne_zero, zpow_natCast, mul_comm]

theorem two_zpow_add_ofNat (q : Int) (k : Nat) [k.AtLeastTwo] :
    (2 : ℚ) ^ (q + OfNat.ofNat k) = 2 ^ (OfNat.ofNat k : ℕ) * 2 ^ q := by
  have := two_zpow_add q (OfNat.ofNat k)
  rwa [Nat.cast_ofNat] at this

/-- Where a rational of the interval of `m · 2^q` is rounded: the binade exponent the rounding
uses is `q` and the fraction scaled to it rounds to `m`; or, just below the power of two
`2^52 · 2^q`, it is one binade lower, where the scaled fraction rounds up to `2^53`. -/
theorem rounding_place {m : Nat} {q : Int} {x : ℚ} (stored : Stored m q) (rounds : Rounds m q x)
    {b : Int} (atLeast : (2 : ℚ) ^ b ≤ x) (below : x < 2 ^ (b + 1)) :
    (max (b - 52) (-1074) = q ∧ NearestEven m (x * 2 ^ (-q))) ∨
      (m = 2 ^ 52 ∧ max (b - 52) (-1074) = q - 1 ∧ NearestEven (2 ^ 53) (x * 2 ^ (-(q - 1)))) := by
  have unit : (0 : ℚ) < 2 ^ q := zpow_pos two_pos q
  have near := rounds.nearestEven stored.pos
  obtain ⟨low, high⟩ := rounds.bounds
  have mBelow := stored.add_half_lt
  -- the binade exponent is at most `q + 52`, since the interval lies below `2^53 · 2^q`
  have top : b ≤ q + 52 := by
    have : (2 : ℚ) ^ b < 2 ^ (q + 53) := by
      rw [two_zpow_add_ofNat q 53]
      calc (2 : ℚ) ^ b ≤ x := atLeast
        _ ≤ (m + 1 / 2) * 2 ^ q := high
        _ < 2 ^ 53 * 2 ^ q := by gcongr
    have := (zpow_lt_zpow_iff_right₀ one_lt_two).mp this
    omega
  by_cases least : q = -1074
  · exact Or.inl ⟨by omega, near⟩
  have normal : 2 ^ 52 ≤ m := stored.normal.resolve_right least
  by_cases upper : (2 : ℚ) ^ (q + 52) ≤ x
  · -- in the binade of `m · 2^q`
    have : q + 52 < b + 1 := (zpow_lt_zpow_iff_right₀ one_lt_two).mp (lt_of_le_of_lt upper below)
    exact Or.inl ⟨by have := stored.least_le; omega, near⟩
  · -- below the binade: `m` is the least normal significand and the lower end a quarter step away
    rw [not_le] at upper
    have least : m = 2 ^ 52 := by
      by_contra other
      have : (2 : ℚ) ^ 52 + 1 ≤ m := by exact_mod_cast (show 2 ^ 52 + 1 ≤ m by omega)
      have quarter := sub_half_le_lowerEnd stored.pos q
      rw [two_zpow_add_ofNat q 52] at upper
      nlinarith
    subst least
    have endEq : (lowerEnd (2 ^ 52) q : ℚ) / 4 = 2 ^ 52 - 1 / 4 := by
      have : -1074 < q := by have := stored.least_le; omega
      simp [lowerEnd, this]
      norm_num
    rw [endEq] at low
    have bEq : b = q + 51 := by
      have lowBinade : (2 : ℚ) ^ (q + 51) < 2 ^ (b + 1) := by
        rw [two_zpow_add_ofNat q 51]
        calc (2 : ℚ) ^ 51 * 2 ^ q < (2 ^ 52 - 1 / 4) * 2 ^ q := by gcongr; norm_num
          _ ≤ x := low
          _ < 2 ^ (b + 1) := below
      have highBinade : (2 : ℚ) ^ b < 2 ^ (q + 52) := lt_of_le_of_lt atLeast upper
      have := (zpow_lt_zpow_iff_right₀ one_lt_two).mp lowBinade
      have := (zpow_lt_zpow_iff_right₀ one_lt_two).mp highBinade
      omega
    refine Or.inr ⟨rfl, by have := stored.least_le; omega, ?_⟩
    -- scaled one binade lower, the fraction lies in `[2^53 - 1/2, 2^53)`
    have shift : x * 2 ^ (-(q - 1)) = 2 * (x * 2 ^ (-q)) := by
      rw [show -(q - 1) = -q + 1 by ring, zpow_add_one₀ two_ne_zero]
      ring
    have scaledLow : (2 : ℚ) ^ 52 - 1 / 4 ≤ x * 2 ^ (-q) := by
      rw [zpow_neg, ← div_eq_mul_inv, le_div_iff₀ unit]
      exact low
    have scaledHigh : x * 2 ^ (-q) < 2 ^ 52 := by
      rw [zpow_neg, ← div_eq_mul_inv, div_lt_iff₀ unit, ← two_zpow_add_ofNat q 52]
      exact upper
    unfold NearestEven
    rw [if_pos (by norm_num), shift]
    push_cast
    constructor <;> linarith

/-! ### Rounding back -/

/-- Every rational of the rounding interval of a finite positive double rounds to its bits. -/
theorem roundBits_of_rounds {negative : Bool} {num den m : Nat} {q : Int} (stored : Stored m q)
    (numPos : 0 < num) (denPos : 0 < den) (rounds : Rounds m q (num / den)) :
    roundBits negative num den = Exact.bits ⟨negative, m, q⟩ := by
  obtain ⟨atLeast, below⟩ := binaryExponent_spec numPos denPos
  have scaled := scaleByPow2_div num den (-max (binaryExponent num den - 52) (-1074))
  have dPos : 0 < (scaleByPow2 num den (-max (binaryExponent num den - 52) (-1074))).2 :=
    scaleByPow2_den_pos denPos _
  unfold roundBits
  dsimp only
  rcases split : scaleByPow2 num den (-max (binaryExponent num den - 52) (-1074)) with ⟨n, d⟩
  rw [split] at scaled dPos
  dsimp only at scaled dPos ⊢
  have inRange : ¬ 971 < q := by have := stored.le_greatest; omega
  rcases rounding_place stored rounds atLeast below with ⟨place, near⟩ | ⟨rfl, place, near⟩
  · -- rounded in the binade of `m`, with no carry
    rw [place] at scaled
    rw [← scaled] at near
    rw [place, roundHalfEven_eq dPos near]
    have noCarry : (m == Nat.pow 2 53) = false := by
      have := stored.lt_two_pow
      simp only [Nat.pow_eq, beq_eq_false_iff_ne]
      omega
    simp only [noCarry, Bool.false_eq_true, if_false, if_neg inRange, Exact.bits, Nat.pow_eq]
    split_ifs <;> omega
  · -- rounded one binade lower, where the significand carries into the next binade
    rw [place] at scaled
    rw [← scaled] at near
    rw [place, roundHalfEven_eq dPos near]
    simp only [Nat.pow_eq, beq_self_eq_true, if_true, sub_add_cancel, if_neg inRange, Exact.bits]
    split_ifs <;> omega

/-- A positive fraction in the rounding interval of a finite double rounds to that double. -/
theorem round_of_rounds {x : Float} {negative : Bool} {m : Nat} {q : Int}
    (finite : kind x = .finite ⟨negative, m, q⟩) (pos : 0 < m) {num den : Nat} (numPos : 0 < num)
    (denPos : 0 < den) (rounds : Rounds m q (num / den)) : round negative num den = x := by
  obtain ⟨bitsEq, stored⟩ := ofBits_finite (UInt64.toNat_lt x.toBits) finite
  have nonzero : (num == 0 || den == 0) = false := by
    simp only [Bool.or_eq_false_iff, beq_eq_false_iff_ne]
    omega
  rw [round, nonzero, if_neg Bool.false_ne_true, roundBits_of_rounds (stored pos) numPos denPos rounds,
    ← bitsEq, ofBits, UInt64.ofNat_toNat, Float.ofBits_toBits]

/-- A zero of either sign is what a zero numerator rounds to. -/
theorem round_zero {x : Float} {negative : Bool} {q : Int}
    (zero : kind x = .finite ⟨negative, 0, q⟩) : round negative 0 1 = x := by
  obtain ⟨bitsEq, -⟩ := ofBits_finite (UInt64.toNat_lt x.toBits) zero
  have signBits : x.toBits.toNat = if negative then Nat.pow 2 63 else 0 := by
    rw [bitsEq, Exact.bits]
    simp
  have zeroNum : (0 == 0 || 1 == 0) = true := rfl
  rw [round, if_pos zeroNum, ← signBits, ofBits, UInt64.ofNat_toNat, Float.ofBits_toBits]

end HostInventory.Binary64
