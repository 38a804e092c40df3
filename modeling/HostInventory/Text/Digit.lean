import HostInventory.Text.Basic
/-!
# Decimal digits

The code points of Unicode general category Nd (decimal digit), Unicode 14.0. Each script
encodes its digits zero to nine as ten consecutive code points, so the category is the list of
the code points of the zeros.
-/

namespace HostInventory.Text

/-- The code points of the digit zero of every script, in increasing order. -/
def digitZeros : List Nat :=
  [0x30, 0x660, 0x6F0, 0x7C0, 0x966, 0x9E6, 0xA66, 0xAE6, 0xB66, 0xBE6,
   0xC66, 0xCE6, 0xD66, 0xDE6, 0xE50, 0xED0, 0xF20, 0x1040, 0x1090, 0x17E0,
   0x1810, 0x1946, 0x19D0, 0x1A80, 0x1A90, 0x1B50, 0x1BB0, 0x1C40, 0x1C50, 0xA620,
   0xA8D0, 0xA900, 0xA9D0, 0xA9F0, 0xAA50, 0xABF0, 0xFF10, 0x104A0, 0x10D30, 0x11066,
   0x110F0, 0x11136, 0x111D0, 0x112F0, 0x11450, 0x114D0, 0x11650, 0x116C0, 0x11730, 0x118E0,
   0x11950, 0x11C50, 0x11D50, 0x11DA0, 0x16A60, 0x16AC0, 0x16B50, 0x1D7CE, 0x1D7D8, 0x1D7E2,
   0x1D7EC, 0x1D7F6, 0x1E140, 0x1E2F0, 0x1E950, 0x1FBF0]

/-- The value of a decimal digit of any script, or `none` for another code point. -/
def digitValue? (c : Nat) : Option Nat :=
  match digitZeros.find? (fun z => z ≤ c && c < z + 10) with
  | some z => some (c - z)
  | none => none

/-- Whether a code point is a decimal digit of some script. -/
def isDigit (c : Nat) : Bool := (digitValue? c).isSome

/-- Whether a code point is one of the ASCII digits 0 to 9. -/
def isAsciiDigit (c : Nat) : Bool := 0x30 ≤ c && c ≤ 0x39

/-- An ASCII digit has its usual value. -/
theorem digitValue?_ascii {c : Nat} (h : isAsciiDigit c = true) : digitValue? c = some (c - 0x30) := by
  simp only [isAsciiDigit, Bool.and_eq_true, decide_eq_true_eq] at h
  simp [digitValue?, digitZeros, h.1, show c < 0x30 + 10 by omega]

example : digitValue? 0x0663 = some 3 ∧ digitValue? 0x41 = none := by decide

end HostInventory.Text
