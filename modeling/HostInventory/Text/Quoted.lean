import HostInventory.Text.Printable
/-!
# Quoted texts

The quoted form of a text, as diagnostics show a value: the text between quote marks, with the
quote mark and the backslash escaped, tab, line feed and carriage return written `\t`, `\n`,
`\r`, and every other unprintable code point written by its number in lowercase hexadecimal
(`\xhh` up to U+00FF, `\uhhhh` up to U+FFFF, `\Uhhhhhhhh` above). The mark is the apostrophe,
unless the text holds an apostrophe and no double quote; then it is the double quote.
-/

namespace HostInventory.Text

/-- The escape `\` followed by a letter and the number of `c` in `width` hexadecimal digits. -/
def hexEscape (letter width c : Nat) : List Nat := 0x5C :: letter :: hexDigits width c

/-- How one code point is written inside quotes delimited by `mark`. -/
def quotedPoint (mark c : Nat) : List Nat :=
  if c == mark || c == 0x5C then [0x5C, c]
  else if c == 0x09 then [0x5C, 0x74]
  else if c == 0x0A then [0x5C, 0x6E]
  else if c == 0x0D then [0x5C, 0x72]
  else if c < 0x20 || c == 0x7F then hexEscape 0x78 2 c
  else if c < 0x7F then [c]
  else if isPrintable c then [c]
  else if c ≤ 0xFF then hexEscape 0x78 2 c
  else if c ≤ 0xFFFF then hexEscape 0x75 4 c
  else hexEscape 0x55 8 c

/-- The quote mark for a body: the double quote when the body has an apostrophe and no double
quote, the apostrophe otherwise. -/
def quoteMark (body : List Nat) : Nat :=
  if body.contains 0x27 && !body.contains 0x22 then 0x22 else 0x27

/-- The quoted form of a text. -/
def quoted (t : Text) : Text :=
  let mark := quoteMark t.points
  ⟨mark :: t.points.flatMap (quotedPoint mark) ++ [mark]⟩

example : quoted (Text.ofString "it's") = Text.ofString "\"it's\"" := by decide
example : quoted ⟨[0x61, 0xD800, 0x0A, 0x27, 0x22]⟩ =
    Text.ofString "'a\\ud800\\n\\'\"'" := by decide +kernel

end HostInventory.Text
