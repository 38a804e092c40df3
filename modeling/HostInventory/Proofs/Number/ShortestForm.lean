import HostInventory.Proofs.Number.Rounding
/-!
# The shortest decimal form lies in the rounding interval

`Binary64.shortest` searches the decimal grids `10^k` from an estimate of the decimal exponent
downwards, twenty-two of them, for the first one with a point in the rounding interval of the
double. A grid finer than the interval's width has such a point (`gridPoints_nonempty`), and the
last grid searched is finer than three quarters of the unit `2^q` (`lastGrid_fine`), which the
interval's width never falls below. So the search never runs dry, and what it finds is a point of
the interval (`gridPoints_mem`): the shortest form of every finite positive double rounds back to
it (`shortest_rounds`).

The estimate `⌊(log₂ m + q) · 0.30103⌋` rests on two comparisons of powers: `10^3 ≤ 2^10` bounds
the grids above one unit, and `2^100000 ≤ 10^30103` those below.
-/

namespace HostInventory.Binary64

/-! ### Decimal digits -/

/-- The number a list of decimal digits writes, most significant first. -/
def decimalValue (ds : List Nat) : Nat := ds.foldl (fun acc d => 10 * acc + d) 0

theorem decimalValue_foldl (ds : List Nat) (start : Nat) :
    ds.foldl (fun acc d => 10 * acc + d) start = start * 10 ^ ds.length + decimalValue ds := by
  induction ds generalizing start with
  | nil => simp [decimalValue]
  | cons d rest ih =>
    have head : decimalValue (d :: rest) = d * 10 ^ rest.length + decimalValue rest := by
      rw [decimalValue, List.foldl_cons, ih]
      ring
    rw [List.foldl_cons, ih, head, List.length_cons]
    ring

@[simp] theorem decimalValue_nil : decimalValue [] = 0 := rfl

theorem decimalValue_append (a b : List Nat) :
    decimalValue (a ++ b) = decimalValue a * 10 ^ b.length + decimalValue b := by
  rw [decimalValue, List.foldl_append, decimalValue_foldl]
  rfl

@[simp] theorem decimalValue_cons (d : Nat) (rest : List Nat) :
    decimalValue (d :: rest) = d * 10 ^ rest.length + decimalValue rest := by
  rw [← List.singleton_append, decimalValue_append]
  simp [decimalValue]

theorem decimalValue_replicate_zero (n : Nat) : decimalValue (List.replicate n 0) = 0 := by
  induction n with
  | zero => rfl
  | succ n ih => simp [List.replicate_succ, ih]

/-- The decimal digits of a number write it. -/
theorem decimalValue_decimalDigits (n : Nat) : decimalValue (decimalDigits n) = n := by
  induction n using Nat.strong_induction_on with
  | _ n ih =>
    have digits : ∀ k, decimalDigits k = (Nat.toDigits 10 k).map (fun c => c.toNat - 0x30) := by
      simp [decimalDigits, Nat.toString_eq_repr, Nat.toList_repr]
    by_cases small : n < 10
    · rw [digits, Nat.toDigits_of_lt_base small]
      interval_cases n <;> rfl
    · have split := Nat.toDigits_append_toDigits (b := 10) (n := n / 10) (d := n % 10) (by norm_num)
        (by omega) (Nat.mod_lt _ (by norm_num))
      rw [Nat.div_add_mod] at split
      have lastDigit : (Nat.toDigits 10 (n % 10)).map (fun c => c.toNat - 0x30) = [n % 10] := by
        rw [Nat.toDigits_of_lt_base (Nat.mod_lt _ (by norm_num))]
        have : n % 10 < 10 := Nat.mod_lt _ (by norm_num)
        interval_cases (n % 10) <;> rfl
      have front := ih (n / 10) (by omega)
      rw [digits] at front
      rw [digits, ← split, List.map_append, decimalValue_append, front, lastDigit]
      simp
      omega

/-- The decimal digits of a positive number start with a nonzero digit. -/
theorem decimalDigits_cons {n : Nat} (pos : 0 < n) :
    ∃ first rest, decimalDigits n = first :: rest ∧ 0 < first := by
  have digits : ∀ k, decimalDigits k = (Nat.toDigits 10 k).map (fun c => c.toNat - 0x30) := by
    simp [decimalDigits, Nat.toString_eq_repr, Nat.toList_repr]
  induction n using Nat.strong_induction_on with
  | _ n ih =>
    by_cases small : n < 10
    · refine ⟨n, [], ?_, pos⟩
      rw [digits, Nat.toDigits_of_lt_base small]
      interval_cases n <;> rfl
    · have split := Nat.toDigits_append_toDigits (b := 10) (n := n / 10) (d := n % 10) (by norm_num)
        (by omega) (Nat.mod_lt _ (by norm_num))
      rw [Nat.div_add_mod] at split
      obtain ⟨first, rest, front, firstPos⟩ := ih (n / 10) (by omega) (by omega)
      rw [digits] at front
      refine ⟨first, rest ++ (Nat.toDigits 10 (n % 10)).map (fun c => c.toNat - 0x30), ?_, firstPos⟩
      rw [digits, ← split, List.map_append, front, List.cons_append]

/-- Dropping trailing zeros splits the digits into the kept ones and zeros. -/
theorem dropTrailingZeros_append (ds : List Nat) :
    ∃ z, ds = dropTrailingZeros ds ++ List.replicate z 0 := by
  have split := List.takeWhile_append_dropWhile (p := (· == 0)) (l := ds.reverse)
  have zeros : ∀ d ∈ ds.reverse.takeWhile (· == 0), d = 0 := fun d mem => by
    simpa using List.mem_takeWhile_imp mem
  refine ⟨(ds.reverse.takeWhile (· == 0)).length, ?_⟩
  rw [List.eq_replicate_iff.mpr ⟨rfl, zeros⟩] at split
  have := congrArg List.reverse split
  rw [List.reverse_append, List.reverse_reverse, List.reverse_replicate] at this
  rw [dropTrailingZeros]
  exact this.symm

/-- Trailing zeros scale the value by powers of ten. -/
theorem decimalValue_dropTrailingZeros (ds : List Nat) :
    decimalValue ds = decimalValue (dropTrailingZeros ds) *
      10 ^ (ds.length - (dropTrailingZeros ds).length) := by
  obtain ⟨z, split⟩ := dropTrailingZeros_append ds
  have lenEq : ds.length = (dropTrailingZeros ds).length + z := by
    conv_lhs => rw [split]
    rw [List.length_append, List.length_replicate]
  conv_lhs => rw [split]
  rw [decimalValue_append, decimalValue_replicate_zero, List.length_replicate, lenEq,
    Nat.add_sub_cancel_left, Nat.add_zero]

/-- Dropping trailing zeros keeps a nonzero first digit. -/
theorem dropTrailingZeros_cons {first : Nat} (nonzero : 0 < first) (rest : List Nat) :
    ∃ rest', dropTrailingZeros (first :: rest) = first :: rest' := by
  rw [dropTrailingZeros, List.reverse_cons, List.dropWhile_append]
  split
  · have kept : (first == 0) = false := by simpa using Nat.pos_iff_ne_zero.mp nonzero
    exact ⟨[], by simp [List.dropWhile, kept]⟩
  · exact ⟨(rest.reverse.dropWhile (· == 0)).reverse, by simp⟩

/-- The rational a decimal form stands for: `0.d₁…dₙ · 10^point`. -/
def Digits.value (d : Digits) : ℚ := decimalValue d.digits * 10 ^ (d.point - d.digits.length)

/-! ### Grids -/

/-- The factors relating the grid `10^k` to the unit `2^(q-2)`: `2^(q-2) / 10^k = a / b`. -/
def gridScale (q k : Int) : Nat × Nat :=
  ((if 2 ≤ q then Nat.pow 2 (q - 2).toNat else 1) * (if k < 0 then Nat.pow 10 (-k).toNat else 1),
    (if q < 2 then Nat.pow 2 (2 - q).toNat else 1) * (if 0 < k then Nat.pow 10 k.toNat else 1))

theorem gridPoints_eq (m : Nat) (q : Int) (lower upper : Nat) (closed : Bool) (k : Int) :
    gridPoints m q lower upper closed k =
      ((if closed then (lower * (gridScale q k).1 + (gridScale q k).2 - 1) / (gridScale q k).2
        else lower * (gridScale q k).1 / (gridScale q k).2 + 1),
       (if closed then upper * (gridScale q k).1 / (gridScale q k).2
        else (upper * (gridScale q k).1 - 1) / (gridScale q k).2),
       roundHalfEven (4 * m * (gridScale q k).1) (gridScale q k).2) := rfl

theorem gridScale_pos (q k : Int) : 0 < (gridScale q k).1 ∧ 0 < (gridScale q k).2 := by
  simp only [gridScale, Nat.pow_eq]
  constructor <;> apply Nat.mul_pos <;> split_ifs <;> positivity

/-- A power whose exponent is clipped at zero is one below the threshold. -/
theorem pow_toNat_of_not_le {b : Nat} {e : Int} {p : Prop} [Decidable p] (clip : ¬p → e ≤ 0) :
    (if p then Nat.pow b e.toNat else 1) = b ^ e.toNat := by
  split_ifs with holds
  · rw [Nat.pow_eq]
  · rw [Int.toNat_of_nonpos (clip holds), pow_zero]

/-- A power with an integer exponent, as a quotient of powers with natural exponents. -/
theorem zpow_eq_div_toNat (b : ℚ) (nonzero : b ≠ 0) (e : Int) :
    b ^ e = b ^ e.toNat / b ^ (-e).toNat := by
  conv_lhs => rw [show e = (e.toNat : ℤ) - ((-e).toNat : ℤ) by omega]
  rw [zpow_sub₀ nonzero, zpow_natCast, zpow_natCast]

/-- The grid factors compare `10^k` with `2^(q-2)`. -/
theorem gridScale_ratio (q k : Int) :
    ((gridScale q k).1 : ℚ) * 10 ^ k = (gridScale q k).2 * 2 ^ (q - 2) := by
  simp only [gridScale]
  rw [pow_toNat_of_not_le (e := q - 2) (by omega), pow_toNat_of_not_le (e := -k) (by omega),
    pow_toNat_of_not_le (e := 2 - q) (by omega), pow_toNat_of_not_le (e := k) (by omega),
    zpow_eq_div_toNat 10 (by norm_num) k, zpow_eq_div_toNat 2 (by norm_num) (q - 2),
    show -(q - 2) = 2 - q by ring]
  push_cast
  field_simp

/-- An index between the least and the greatest point of a grid stands for a point of the
interval: inside it, on its ends only when it is closed. -/
theorem gridPoints_mem {m : Nat} {q : Int} {lower upper : Nat} {closed : Bool} {k : Int} {j : Nat}
    (atLeast : (gridPoints m q lower upper closed k).1 ≤ j)
    (atMost : j ≤ (gridPoints m q lower upper closed k).2.1) :
    if closed = true then (lower : ℚ) * 2 ^ (q - 2) ≤ j * 10 ^ k ∧ (j : ℚ) * 10 ^ k ≤ upper * 2 ^ (q - 2)
    else (lower : ℚ) * 2 ^ (q - 2) < j * 10 ^ k ∧ (j : ℚ) * 10 ^ k < upper * 2 ^ (q - 2) := by
  rw [gridPoints_eq] at atLeast atMost
  obtain ⟨aPos, bPos⟩ := gridScale_pos q k
  have ratio := gridScale_ratio q k
  generalize (gridScale q k).1 = a at aPos ratio atLeast atMost
  generalize (gridScale q k).2 = b at bPos ratio atLeast atMost
  dsimp only at atLeast atMost
  have bQ : (0 : ℚ) < b := by exact_mod_cast bPos
  -- compare in the naturals, then scale by `2^(q-2) / b`
  have scale : ∀ c : Nat, (c : ℚ) * 2 ^ (q - 2) * b = (c * a : ℕ) * 10 ^ k := by
    intro c
    push_cast
    rw [mul_assoc, mul_comm (2 ^ (q - 2) : ℚ), ← ratio]
    ring
  have point : (j : ℚ) * 10 ^ k * b = (j * b : ℕ) * 10 ^ k := by push_cast; ring
  have tenPos : (0 : ℚ) < 10 ^ k := zpow_pos (by norm_num) k
  split_ifs at atLeast atMost ⊢ with isClosed
  · have low : lower * a ≤ j * b := by
      have := (Nat.div_lt_iff_lt_mul bPos).mp (Nat.lt_succ_of_le atLeast)
      rw [Nat.succ_mul] at this
      omega
    have high : j * b ≤ upper * a := (Nat.le_div_iff_mul_le bPos).mp atMost
    constructor
    · rw [← mul_le_mul_iff_of_pos_right bQ, scale, point]
      gcongr
    · rw [← mul_le_mul_iff_of_pos_right bQ, scale, point]
      gcongr
  · have low : lower * a < j * b := (Nat.div_lt_iff_lt_mul bPos).mp atLeast
    have high : j * b < upper * a := by
      have := (Nat.le_div_iff_mul_le bPos).mp atMost
      have : 0 < j := lt_of_lt_of_le (Nat.succ_pos _) atLeast
      have : 0 < j * b := Nat.mul_pos this bPos
      omega
    constructor
    · rw [← mul_lt_mul_iff_of_pos_right bQ, scale, point]
      gcongr
    · rw [← mul_lt_mul_iff_of_pos_right bQ, scale, point]
      gcongr

/-- A grid finer than the width of the interval has a point in it. -/
theorem gridPoints_nonempty (m : Nat) (q : Int) {lower upper : Nat} (closed : Bool) {k : Int}
    (wide : (10 : ℚ) ^ k < (upper - lower : ℕ) * 2 ^ (q - 2)) :
    (gridPoints m q lower upper closed k).1 ≤ (gridPoints m q lower upper closed k).2.1 := by
  rw [gridPoints_eq]
  obtain ⟨aPos, bPos⟩ := gridScale_pos q k
  have ratio := gridScale_ratio q k
  generalize (gridScale q k).1 = a at aPos ratio
  generalize (gridScale q k).2 = b at bPos ratio
  -- the spacing `b` is less than the width `(upper - lower) · a`
  have spacing : b < (upper - lower) * a := by
    have twoPos : (0 : ℚ) < 2 ^ (q - 2) := zpow_pos two_pos _
    have : (b : ℚ) * 2 ^ (q - 2) < ((upper - lower) * a : ℕ) * 2 ^ (q - 2) := by
      rw [← ratio]
      push_cast
      have aQ : (0 : ℚ) < a := by exact_mod_cast aPos
      nlinarith
    exact_mod_cast lt_of_mul_lt_mul_right this twoPos.le
  have width : lower * a + b < upper * a := by
    have : (upper - lower) * a = upper * a - lower * a := Nat.sub_mul _ _ _
    omega
  split_ifs
  · apply Nat.div_le_div_right
    omega
  · apply Nat.le_div_iff_mul_le bPos |>.mpr
    have := Nat.div_mul_le_self (lower * a) b
    rw [Nat.succ_mul]
    omega

/-- The index the search picks on a grid with points is one of them. -/
theorem searchGrids_found {m : Nat} {q : Int} {lower upper : Nat} {closed : Bool} :
    ∀ {fuel : Nat} {k : Int} {d : Nat} {k' : Int},
      searchGrids m q lower upper closed fuel k = some (d, k') →
        (gridPoints m q lower upper closed k').1 ≤ d ∧ d ≤ (gridPoints m q lower upper closed k').2.1
  | 0, _, _, _, found => by simp [searchGrids] at found
  | fuel + 1, k, d, k', found => by
    rw [searchGrids] at found
    rcases points : gridPoints m q lower upper closed k with ⟨least, greatest, nearest⟩
    rw [points] at found
    dsimp only at found
    split_ifs at found with some
    · cases found
      rw [points]
      dsimp only
      omega
    · exact searchGrids_found found

/-- The search finds a grid with points when one of the grids it tries has some. -/
theorem searchGrids_isSome {m : Nat} {q : Int} {lower upper : Nat} {closed : Bool} :
    ∀ {fuel : Nat} {k : Int} {j : Nat}, j < fuel →
      (gridPoints m q lower upper closed (k - j)).1 ≤ (gridPoints m q lower upper closed (k - j)).2.1 →
        (searchGrids m q lower upper closed fuel k).isSome
  | 0, _, _, within, _ => absurd within (Nat.not_lt_zero _)
  | fuel + 1, k, j, within, nonempty => by
    rw [searchGrids]
    rcases points : gridPoints m q lower upper closed k with ⟨least, greatest, nearest⟩
    dsimp only
    split_ifs with here
    · rfl
    · cases j with
      | zero =>
        rw [Nat.cast_zero, sub_zero, points] at nonempty
        exact absurd nonempty here
      | succ j =>
        apply searchGrids_isSome (j := j) (by omega)
        rwa [show k - 1 - (j : ℤ) = k - ((j + 1 : ℕ) : ℤ) by push_cast; ring]

/-! ### The estimate -/

/-- Ten to the power `30103` is above two to the power `100000`: `0.30103` bounds `log₁₀ 2` from
above. -/
theorem two_pow_le_ten_pow : (2 : ℕ) ^ 100000 ≤ 10 ^ 30103 := by decide +kernel

/-- A thousand is below two to the tenth. -/
theorem thousand_le : (1000 : ℕ) ≤ 2 ^ 10 := by norm_num

/-- The last grid of the search is finer than three quarters of the unit `2^q`: from the
estimate of the decimal exponent, twenty-one grids down, `10^k < 3 · 2^(q-2)`. -/
theorem lastGrid_fine {m : Nat} {q : Int} (stored : Stored m q) :
    (10 : ℚ) ^ (((Nat.log2 m : Int) + q) * 30103 / 100000 + 2 - 21) < 3 * 2 ^ (q - 2) := by
  have logLe : Nat.log2 m < 53 := (Nat.log2_lt (Nat.pos_iff_ne_zero.mp stored.pos)).mpr stored.lt_two_pow
  have floorLe := Int.ediv_mul_le (((Nat.log2 m : Int) + q) * 30103) (b := 100000) (by norm_num)
  have qLow := stored.least_le
  have qHigh := stored.le_greatest
  generalize estimate : ((Nat.log2 m : Int) + q) * 30103 / 100000 = e at floorLe
  -- in multiples of `10^-5`, the last grid's exponent is below `0.30103 · q - 3.3`
  have bound : 100000 * (e + 2 - 21) ≤ 30103 * q - 334644 := by omega
  generalize last : e + 2 - 21 = K at bound
  have twoPos : (0 : ℚ) < 2 ^ (q - 2) := zpow_pos two_pos _
  rcases le_or_gt 0 K with nonneg | neg
  · -- a grid of at least one unit: `q ≥ 12`, and `10^K ≤ 2^(q-1)` by cubes
    obtain ⟨k, rfl⟩ := Int.eq_ofNat_of_zero_le nonneg
    obtain ⟨p, rfl⟩ : ∃ p : ℕ, q = p + 1 := ⟨(q - 1).toNat, by omega⟩
    have cubes : (10 ^ k) ^ 3 ≤ (2 ^ p) ^ 3 := by
      calc (10 ^ k) ^ 3 = 1000 ^ k := by rw [← pow_mul, mul_comm, pow_mul]; norm_num
        _ ≤ (2 ^ 10) ^ k := Nat.pow_le_pow_left thousand_le k
        _ = 2 ^ (10 * k) := by rw [← pow_mul]
        _ ≤ 2 ^ (3 * p) := Nat.pow_le_pow_right (by norm_num) (by omega)
        _ = (2 ^ p) ^ 3 := by rw [← pow_mul, mul_comm]
    have tenLe : (10 : ℚ) ^ k ≤ 2 ^ p := by
      exact_mod_cast (Nat.pow_le_pow_iff_left (by norm_num)).mp cubes
    have unit : (2 : ℚ) ^ ((p : ℤ) + 1 - 2) * 2 = 2 ^ p := by
      rw [show (p : ℤ) + 1 - 2 = (p : ℤ) - 1 by ring, zpow_sub_one₀ two_ne_zero, zpow_natCast]
      field_simp
    rw [zpow_natCast]
    linarith
  · obtain ⟨a, rfl⟩ : ∃ a : ℕ, K = -(a + 1 : ℕ) := ⟨(-K - 1).toNat, by omega⟩
    rcases le_or_gt 0 q with qNonneg | qNeg
    · -- a grid below one unit, and a unit of at least one
      have small : (10 : ℚ) ^ (-((a + 1 : ℕ) : ℤ)) ≤ 1 / 10 := by
        rw [zpow_neg, zpow_natCast, one_div]
        apply inv_anti₀ (by norm_num)
        calc (10 : ℚ) = 10 ^ 1 := by norm_num
          _ ≤ 10 ^ (a + 1) := pow_le_pow_right₀ (by norm_num) (by omega)
      have large : (1 : ℚ) / 4 ≤ 2 ^ (q - 2) := by
        rw [zpow_sub₀ two_ne_zero]
        have : (1 : ℚ) ≤ 2 ^ q := one_le_zpow₀ (by norm_num) qNonneg
        norm_num
        linarith
      linarith
    · -- both below one: `2^(b + 2) < 3 · 10^(a + 1)` for `q = -b`, by the powers `30103` and `100000`
      obtain ⟨b, rfl⟩ : ∃ b : ℕ, q = -(b : ℤ) := ⟨(-q).toNat, by omega⟩
      have exponents : 30103 * (b + 1) ≤ 100000 * (a + 1) := by push_cast at bound; omega
      have powers : (2 ^ (b + 1)) ^ 100000 ≤ (10 ^ (a + 1)) ^ 100000 := by
        calc (2 ^ (b + 1)) ^ 100000 = (2 ^ 100000) ^ (b + 1) := by rw [← pow_mul, ← pow_mul, mul_comm]
          _ ≤ (10 ^ 30103) ^ (b + 1) := Nat.pow_le_pow_left two_pow_le_ten_pow _
          _ = 10 ^ (30103 * (b + 1)) := by rw [← pow_mul]
          _ ≤ 10 ^ (100000 * (a + 1)) := Nat.pow_le_pow_right (by norm_num) exponents
          _ = (10 ^ (a + 1)) ^ 100000 := by rw [← pow_mul, mul_comm]
      have twoLeNat : 2 ^ (b + 1) ≤ 10 ^ (a + 1) :=
        (pow_le_pow_iff_left₀ (Nat.zero_le _) (Nat.zero_le _) (by norm_num)).mp powers
      have twoLe : (2 : ℚ) ^ (b + 1) ≤ 10 ^ (a + 1) := by exact_mod_cast twoLeNat
      rw [zpow_neg, zpow_natCast, show -(b : ℤ) - 2 = -((b + 2 : ℕ) : ℤ) by push_cast; ring,
        zpow_neg, zpow_natCast, ← div_eq_mul_inv, ← one_div,
        div_lt_div_iff₀ (by positivity) (by positivity), pow_succ 2 (b + 1)]
      have tenPos : (0 : ℚ) < 10 ^ (a + 1) := by positivity
      linarith

/-! ### The shortest form -/

/-- The value of digits with a point after them: the number they write, scaled by the grid. -/
theorem value_decimalDigits (d : Nat) (k : Int) :
    (⟨dropTrailingZeros (decimalDigits d), ((decimalDigits d).length : Int) + k⟩ : Digits).value =
      d * 10 ^ k := by
  obtain ⟨z, split⟩ := dropTrailingZeros_append (decimalDigits d)
  have lenEq : (decimalDigits d).length = (dropTrailingZeros (decimalDigits d)).length + z := by
    conv_lhs => rw [split]
    rw [List.length_append, List.length_replicate]
  have scaled := decimalValue_dropTrailingZeros (decimalDigits d)
  rw [decimalValue_decimalDigits, lenEq, Nat.add_sub_cancel_left] at scaled
  rw [Digits.value, lenEq]
  dsimp only
  rw [show (((dropTrailingZeros (decimalDigits d)).length + z : ℕ) : ℤ) + k -
      (dropTrailingZeros (decimalDigits d)).length = (z : ℤ) + k by push_cast; ring,
    zpow_add₀ (by norm_num), zpow_natCast]
  conv_rhs => rw [scaled]
  push_cast
  ring

/-- The shortest form of a finite positive double lies in its rounding interval, and its first
digit is not zero. -/
theorem shortest_rounds {m : Nat} {q : Int} (stored : Stored m q) :
    Rounds m q (shortest m q).value ∧
      ∃ first rest, (shortest m q).digits = first :: rest ∧ 0 < first := by
  -- the last grid the search may try is finer than the interval is wide
  have wide : (10 : ℚ) ^ (((Nat.log2 m : Int) + q) * 30103 / 100000 + 2 - ((21 : ℕ) : ℤ)) <
      ((upperEnd m - lowerEnd m q : ℕ) : ℚ) * 2 ^ (q - 2) := by
    have width : 3 ≤ upperEnd m - lowerEnd m q := by
      have := stored.pos
      unfold upperEnd lowerEnd
      split_ifs <;> omega
    have widthQ : (3 : ℚ) ≤ ((upperEnd m - lowerEnd m q : ℕ) : ℚ) := by exact_mod_cast width
    have twoPos : (0 : ℚ) < 2 ^ (q - 2) := zpow_pos two_pos _
    calc (10 : ℚ) ^ (((Nat.log2 m : Int) + q) * 30103 / 100000 + 2 - ((21 : ℕ) : ℤ))
        < 3 * 2 ^ (q - 2) := by exact_mod_cast lastGrid_fine stored
      _ ≤ ((upperEnd m - lowerEnd m q : ℕ) : ℚ) * 2 ^ (q - 2) := by gcongr
  have found := searchGrids_isSome (by norm_num : 21 < 22)
    (gridPoints_nonempty m q (m % 2 == 0) wide)
  obtain ⟨⟨d, k⟩, search⟩ := Option.isSome_iff_exists.mp found
  have between := searchGrids_found search
  have inside := gridPoints_mem between.1 between.2
  simp only [beq_iff_eq] at inside
  have run : searchGrids m q (if m == Nat.pow 2 52 && -1074 < q then 4 * m - 1 else 4 * m - 2)
      (4 * m + 2) (m % 2 == 0) 22 (((Nat.log2 m : Int) + q) * 30103 / 100000 + 2) = some (d, k) :=
    search
  unfold shortest
  dsimp only
  rw [run]
  dsimp only
  rw [value_decimalDigits]
  -- the lower end is positive, so the point found is
  have dPos : 0 < d := by
    have lowPos : (0 : ℚ) < (lowerEnd m q : ℚ) * 2 ^ (q - 2) := by
      have := two_le_lowerEnd stored.pos q
      positivity
    have : (0 : ℚ) < d * 10 ^ k := by
      split_ifs at inside
      · exact lt_of_lt_of_le lowPos inside.1
      · exact lt_trans lowPos inside.1
    have tenPos : (0 : ℚ) < 10 ^ k := zpow_pos (by norm_num) k
    exact_mod_cast (pos_of_mul_pos_left this tenPos.le)
  obtain ⟨first, rest, digits, firstPos⟩ := decimalDigits_cons dPos
  obtain ⟨rest', kept⟩ := dropTrailingZeros_cons firstPos rest
  refine ⟨inside, first, rest', ?_, firstPos⟩
  rw [digits, kept]

end HostInventory.Binary64
