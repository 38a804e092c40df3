import HostInventory.Text.Basic
/-!
# Blank code points

The blanks that trimming removes: the code points of the Unicode property White_Space
(Unicode 14.0) together with the four information separators U+001C to U+001F, which
line-oriented tools treat as breaks.
-/

namespace HostInventory.Text

/-- The blank code points, in increasing order. -/
def blanks : List Nat :=
  [0x09, 0x0A, 0x0B, 0x0C, 0x0D, 0x1C, 0x1D, 0x1E, 0x1F, 0x20, 0x85, 0xA0, 0x1680,
   0x2000, 0x2001, 0x2002, 0x2003, 0x2004, 0x2005, 0x2006, 0x2007, 0x2008, 0x2009, 0x200A,
   0x2028, 0x2029, 0x202F, 0x205F, 0x3000]

/-- Whether a code point is blank. -/
def isBlank (c : Nat) : Bool := blanks.contains c

/-- The C-locale blanks: space, tab, line feed, vertical tab, form feed, carriage return. -/
def isAsciiBlank (c : Nat) : Bool :=
  c == 0x20 || (0x09 ≤ c && c ≤ 0x0D)

/-- The text without its leading and trailing blanks. -/
def trim (t : Text) : Text :=
  ⟨((t.points.dropWhile isBlank).reverse.dropWhile isBlank).reverse⟩

/-- Every ASCII blank is a blank. -/
theorem isBlank_of_isAsciiBlank {c : Nat} (h : isAsciiBlank c = true) : isBlank c = true := by
  simp only [isAsciiBlank, Bool.or_eq_true, beq_iff_eq, Bool.and_eq_true,
    decide_eq_true_eq] at h
  rcases h with h | ⟨lo, hi⟩
  · subst h; decide
  · have : c = 9 ∨ c = 10 ∨ c = 11 ∨ c = 12 ∨ c = 13 := by omega
    rcases this with h | h | h | h | h <;> subst h <;> decide

example : trim (Text.ofString "　 a b\t") = Text.ofString "a b" := by decide

end HostInventory.Text
