import HostInventory.Text.Basic
/-!
# Octets from hexadecimal texts

A hexadecimal text spells octets as pairs of hexadecimal digits, either case; ASCII blanks may
stand before a pair but not inside one. A text holding a code point outside ASCII is refused at
the first such code point; otherwise the first character that is neither a blank before a pair
nor a digit of a pair is where it is refused, the end of the text counting as such a character
when a pair is left unfinished.
-/

namespace HostInventory.Text

/-- The value of a hexadecimal digit, either case. -/
def hexValue? (c : Nat) : Option Nat :=
  if 0x30 ≤ c && c ≤ 0x39 then some (c - 0x30)
  else if 0x41 ≤ c && c ≤ 0x46 then some (c - 0x37)
  else if 0x61 ≤ c && c ≤ 0x66 then some (c - 0x57)
  else none

/-- Whether a code point is one of the six ASCII blanks. -/
def isHexBlank (c : Nat) : Bool := c == 0x20 || (0x09 ≤ c && c ≤ 0x0D)

/-- The octets of pairs starting at position `i`, or the position where reading stops. -/
def hexPairs (i : Nat) : List Nat → Except Nat (List Nat)
  | [] => .ok []
  | c :: rest =>
    if isHexBlank c then hexPairs (i + 1) rest
    else
      match hexValue? c, rest with
      | some high, d :: more =>
        match hexValue? d with
        | some low => do
          let octets ← hexPairs (i + 2) more
          pure ((16 * high + low) :: octets)
        | none => .error (i + 1)
      | some _, [] => .error (i + 1)
      | none, _ => .error i

/-- The octets a hexadecimal text spells, or the position of the first character that is
refused. -/
def fromHex (t : Text) : Except Nat (List Nat) :=
  match t.points.findIdx? (fun c => 0x80 ≤ c) with
  | some i => .error i
  | none => hexPairs 0 t.points

end HostInventory.Text
