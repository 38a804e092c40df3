import HostInventory.Text.Blank
import HostInventory.Text.Digit
/-!
# Numerals of any script

Numbers are read from texts after mapping them to ASCII: blanks of any script become spaces and
decimal digits of any script become ASCII digits. The first other character outside ASCII cannot
belong to a numeral, so it becomes `?` and ends the text, which makes the reading fail there.
-/

namespace HostInventory.Numeral

/-- The ASCII form of a numeral text: blanks become spaces, digits of any script ASCII digits,
and the first other character outside ASCII becomes `?` and ends the text. -/
def asciiForm : List Nat → List Nat
  | [] => []
  | c :: rest =>
    if c < 0x7F then c :: asciiForm rest
    else if Text.isBlank c then 0x20 :: asciiForm rest
    else match Text.digitValue? c with
      | some d => (0x30 + d) :: asciiForm rest
      | none => [0x3F]

/-- The value of ASCII digits. -/
def value (ds : List Nat) : Nat := ds.foldl (fun acc c => 10 * acc + (c - 0x30)) 0

end HostInventory.Numeral
