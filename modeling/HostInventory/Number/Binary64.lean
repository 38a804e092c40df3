/-!
# Binary64 numbers as exact values

A double is read through its bit pattern: a sign, an 11-bit biased exponent and a 52-bit
fraction. A finite double is then exactly `± m · 2^q` with a natural significand `m` below
`2^53`, which is what every exact computation in this library starts from (printing, reading,
comparing with integers, truncating). Rounding an exact value back to a double is the inverse,
`Binary64.round`: the nearest double, a tie going to the even significand.
-/

namespace HostInventory.Binary64

/-- The exact value of a finite double: `(-1)^negative · significand · 2^exponent`. -/
structure Exact where
  negative : Bool
  significand : Nat
  exponent : Int
deriving DecidableEq

/-- What a double is: not a number, an infinity of a sign, or a finite value. -/
inductive Kind where
  | nan
  | infinite (negative : Bool)
  | finite (value : Exact)
deriving DecidableEq

/-- The kind of a bit pattern. -/
def Kind.ofBits (bits : Nat) : Kind :=
  let negative := bits / Nat.pow 2 63 % 2 == 1
  let biased : Nat := bits / Nat.pow 2 52 % Nat.pow 2 11
  let fraction : Nat := bits % Nat.pow 2 52
  if biased == 2047 then
    if fraction == 0 then .infinite negative else .nan
  else if biased == 0 then .finite ⟨negative, fraction, -1074⟩
  else .finite ⟨negative, fraction + Nat.pow 2 52, (biased : Int) - 1075⟩

/-- The kind of a double. -/
def kind (x : Float) : Kind := Kind.ofBits x.toBits.toNat

/-- The double of a bit pattern. -/
def ofBits (bits : Nat) : Float := Float.ofBits (UInt64.ofNat bits)

/-- The bit pattern of the infinity of a sign. -/
def infinityBits (negative : Bool) : Nat := (if negative then Nat.pow 2 63 else 0) + 2047 * Nat.pow 2 52

/-- A positive exact rational `num / den` as numerator and denominator scaled by `2^k`. -/
def scaleByPow2 (num den : Nat) (k : Int) : Nat × Nat :=
  if 0 ≤ k then (num * Nat.pow 2 k.toNat, den) else (num, den * Nat.pow 2 (-k).toNat)

/-- `num / den` rounded to the nearest natural number, a tie going to the even one. -/
def roundHalfEven (num den : Nat) : Nat :=
  let q := num / den
  let r := num % den
  if 2 * r < den then q
  else if den < 2 * r then q + 1
  else if q % 2 == 0 then q else q + 1

/-- The binary exponent `b` with `2^b ≤ num / den < 2^(b+1)`, for positive `num` and `den`. -/
def binaryExponent (num den : Nat) : Int :=
  let guess : Int := (Nat.log2 num : Int) - (Nat.log2 den : Int)
  let (n, d) := scaleByPow2 den 1 guess
  -- `den · 2^guess ≤ num` decides between `guess` and `guess - 1`.
  if n ≤ num * d then guess else guess - 1

/-- The bit pattern of the double nearest to `num / den` (a tie to even), with the given sign;
`num` and `den` are positive. Values beyond the largest finite double round to infinity. -/
def roundBits (negative : Bool) (num den : Nat) : Nat :=
  let signBit := if negative then Nat.pow 2 63 else 0
  let b := binaryExponent num den
  let q₀ : Int := max (b - 52) (-1074)
  let (n, d) := scaleByPow2 num den (-q₀)
  let m₀ := roundHalfEven n d
  let (m, q) := if m₀ == Nat.pow 2 53 then (Nat.pow 2 52, q₀ + 1) else (m₀, q₀)
  if 971 < q then infinityBits negative
  else if m < Nat.pow 2 52 then signBit + m
  else signBit + (q + 1075).toNat * Nat.pow 2 52 + (m - Nat.pow 2 52)

/-- The double nearest to `± num / den`; zero when `num` is zero. -/
def round (negative : Bool) (num den : Nat) : Float :=
  if num == 0 || den == 0 then ofBits (if negative then Nat.pow 2 63 else 0)
  else ofBits (roundBits negative num den)

/-- The exact value as a fraction `numerator / denominator` of integers, denominator positive. -/
def Exact.toFraction (x : Exact) : Int × Nat :=
  let (n, d) := scaleByPow2 x.significand 1 x.exponent
  (if x.negative then -(n : Int) else n, d)

/-- The integer part of an exact value, rounding toward zero. -/
def Exact.truncate (x : Exact) : Int :=
  let (n, d) := scaleByPow2 x.significand 1 x.exponent
  if x.negative then -((n / d : Nat) : Int) else ((n / d : Nat) : Int)

/-- The double nearest to `± n · 10^e`. Far outside the range of doubles the answer is fixed
without exact arithmetic: from `10^310` up it is infinite, below `10^-324` it is zero (the least
positive double is about `4.9 · 10^-324`, so the halfway point lies above `2.4 · 10^-324`). -/
def ofDecimal (negative : Bool) (n : Nat) (e : Int) : Float :=
  let len : Int := (toString n).length
  if n == 0 then round negative 0 1
  else if 309 < len - 1 + e then ofBits (infinityBits negative)
  else if len + e < -324 then round negative 0 1
  else if 0 ≤ e then round negative (n * Nat.pow 10 e.toNat) 1
  else round negative n (Nat.pow 10 (-e).toNat)

example : Kind.ofBits 0x3FF8000000000000 = .finite ⟨false, 3 * Nat.pow 2 51, -52⟩ := by decide +kernel
example : roundBits false 1 10 = 0x3FB999999999999A := by decide +kernel
example : roundBits false 5 (Nat.pow 10 324) = 1 := by decide +kernel

end HostInventory.Binary64
