import HostInventory.Number.Binary64
import HostInventory.Text.Basic
/-!
# Shortest decimal form of a double

A finite nonzero double stands for every real in its rounding interval: the reals that round to
it, half-way to each neighbour, the ends included exactly when its significand is even (a tie
goes to the even significand). The shortest decimal form is a decimal `d · 10^k` in that interval
with the fewest significant digits, and of those the nearest to the double.

The search walks the decimal grids `10^k` from coarse to fine. The first grid with a point in the
interval gives the fewest digits: a point of a grid whose last digit is zero is a point of the
next coarser grid, so the first point found has no trailing zero. Of that grid's points in the
interval the one nearest to the double is taken; when the double lies halfway between two of
them, the one with the even last digit.

`Layout` says how such digits are written: where positional notation gives way to an exponent,
how the exponent is written, and whether an integral value keeps a `.0`.
-/

namespace HostInventory.Binary64

/-- Decimal digits `d₁ … dₙ` (no trailing zero) and the position of the decimal point:
the value is `0.d₁…dₙ · 10^point`. -/
structure Digits where
  digits : List Nat
  point : Int
deriving DecidableEq

/-- The decimal digits of a natural number, most significant first. -/
def decimalDigits (n : Nat) : List Nat := (toString n).toList.map (fun c => c.toNat - 0x30)

/-- The digits without trailing zeros. -/
def dropTrailingZeros (ds : List Nat) : List Nat := (ds.reverse.dropWhile (· == 0)).reverse

/-- Points of the grid `10^k` inside the rounding interval of `m · 2^q`, where the interval is
`[lower · 2^(q-2), upper · 2^(q-2)]`, closed when `closed` holds: the least and the greatest
grid index inside, and the grid index nearest to the double, a tie going to the even index. -/
def gridPoints (m : Nat) (q : Int) (lower upper : Nat) (closed : Bool) (k : Int) :
    Nat × Nat × Nat :=
  -- With `u = 2^(q-2)`, the ratio `u / 10^k` is `a / b`.
  let a := (if 2 ≤ q then Nat.pow 2 (q - 2).toNat else 1) * (if k < 0 then Nat.pow 10 (-k).toNat else 1)
  let b := (if q < 2 then Nat.pow 2 (2 - q).toNat else 1) * (if 0 < k then Nat.pow 10 k.toNat else 1)
  let lo := lower * a
  let hi := upper * a
  let least := if closed then (lo + b - 1) / b else lo / b + 1
  let greatest := if closed then hi / b else (hi - 1) / b
  let nearest := roundHalfEven (4 * m * a) b
  (least, greatest, nearest)

/-- The first grid from `k` downwards with a point in the interval, and its point nearest to the
double; `fuel` bounds the number of grids tried. -/
def searchGrids (m : Nat) (q : Int) (lower upper : Nat) (closed : Bool) :
    (fuel : Nat) → (k : Int) → Option (Nat × Int)
  | 0, _ => none
  | fuel + 1, k =>
    let (least, greatest, nearest) := gridPoints m q lower upper closed k
    if least ≤ greatest then some (min (max nearest least) greatest, k)
    else searchGrids m q lower upper closed fuel (k - 1)

/-- The shortest decimal form of the positive double `m · 2^q`. -/
def shortest (m : Nat) (q : Int) : Digits :=
  -- Interval ends in units of `2^(q-2)`; below a power of two the lower gap is half as wide.
  let lower := if m == Nat.pow 2 52 && -1074 < q then 4 * m - 1 else 4 * m - 2
  let upper := 4 * m + 2
  let closed := m % 2 == 0
  -- `2^bits ≤ m · 2^q`, and `bits · 0.30103` estimates the decimal exponent from below by at
  -- most one; seventeen digits always suffice, so twenty-two grids cover every case.
  let bits : Int := (Nat.log2 m : Int) + q
  let estimate : Int := bits * 30103 / 100000
  match searchGrids m q lower upper closed 22 (estimate + 2) with
  | some (d, k) =>
    let ds := decimalDigits d
    ⟨dropTrailingZeros ds, (ds.length : Int) + k⟩
  | none =>
    let ds := decimalDigits m
    ⟨dropTrailingZeros ds, (ds.length : Int)⟩

/-- How decimal digits are written. -/
structure Layout where
  /-- Positional notation is used when `positionalAbove < point ≤ positionalUpTo`. -/
  positionalAbove : Int
  positionalUpTo : Int
  /-- The exponent has at least this many digits. -/
  exponentWidth : Nat
  /-- A positive exponent carries a plus sign. -/
  exponentPlus : Bool
  /-- An integral value in positional notation keeps a fractional zero. -/
  keepPointZero : Bool

/-- Digit characters of a list of digits. -/
def digitText (ds : List Nat) : Text := ⟨ds.map (· + 0x30)⟩

/-- The text of digits under a layout, with a minus sign when `negative`. -/
def Layout.render (layout : Layout) (negative : Bool) (d : Digits) : Text :=
  let sign : Text := if negative then Text.ofString "-" else Text.empty
  let n : Int := d.digits.length
  if layout.positionalAbove < d.point && d.point ≤ layout.positionalUpTo then
    let body : Text :=
      if d.point ≤ 0 then
        Text.ofString "0." ++ ⟨List.replicate (-d.point).toNat 0x30⟩ ++ digitText d.digits
      else if d.point < n then
        digitText (d.digits.take d.point.toNat) ++ Text.ofString "." ++
          digitText (d.digits.drop d.point.toNat)
      else
        digitText d.digits ++ ⟨List.replicate (d.point - n).toNat 0x30⟩ ++
          (if layout.keepPointZero then Text.ofString ".0" else Text.empty)
    sign ++ body
  else
    let e := d.point - 1
    let mantissa : Text :=
      match d.digits with
      | [] => Text.ofString "0"
      | [first] => digitText [first]
      | first :: rest => digitText [first] ++ Text.ofString "." ++ digitText rest
    let expSign : Text :=
      if e < 0 then Text.ofString "-" else if layout.exponentPlus then Text.ofString "+"
      else Text.empty
    sign ++ mantissa ++ Text.ofString "e" ++ expSign ++ padZeros layout.exponentWidth e.natAbs

example : shortest 1 (-1074) = ⟨[5], -323⟩ := by decide +kernel
example : shortest (Nat.pow 2 52) (-52) = ⟨[1], 1⟩ := by decide +kernel
example : shortest 0x1999999999999A (-56) = ⟨[1], 0⟩ := by decide +kernel
example : shortest 0x1FFFFFFFFFFFFF 971 = ⟨[1, 7, 9, 7, 6, 9, 3, 1, 3, 4, 8, 6, 2, 3, 1, 5, 7], 309⟩ := by
  decide +kernel

end HostInventory.Binary64
