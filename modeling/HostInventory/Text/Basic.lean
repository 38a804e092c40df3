/-!
# Texts

A text is a sequence of Unicode code points. Documents read by the inventory agent may spell a
lone surrogate (U+D800 to U+DFFF) through an escape such as `\ud800`, and such a code point must
travel unchanged through loading, normalizing and quoting until an encoder refuses it. `String`
cannot hold one, so texts are lists of code points, and `String` only supplies literals.

Texts are ordered lexicographically by code point; this is the order of sorted object keys.
-/

namespace HostInventory

/-- A sequence of code points, surrogates allowed. -/
structure Text where
  points : List Nat
deriving DecidableEq, Inhabited

namespace Text

/-- The text with the code points of a string. -/
def ofString (s : String) : Text := ⟨s.toList.map Char.toNat⟩

instance : Coe String Text := ⟨ofString⟩

instance : Append Text := ⟨fun a b => ⟨a.points ++ b.points⟩⟩

/-- The empty text. -/
def empty : Text := ⟨[]⟩

/-- The text of one code point. -/
def single (c : Nat) : Text := ⟨[c]⟩

/-- The number of code points. -/
def length (t : Text) : Nat := t.points.length

/-- Whether the text has no code point. -/
def isEmpty (t : Text) : Bool := t.points.isEmpty

/-- A surrogate is a code point reserved for UTF-16 pairs; no encoding form may carry it alone. -/
def isSurrogate (c : Nat) : Bool := 0xD800 ≤ c && c ≤ 0xDFFF

/-- Concatenation of a list of texts. -/
def join (parts : List Text) : Text := ⟨(parts.map Text.points).flatten⟩

/-- The parts joined with a separator between neighbours. -/
def intercalate (sep : Text) : List Text → Text
  | [] => empty
  | [t] => t
  | t :: rest => t ++ sep ++ intercalate sep rest

/-- The decimal numeral of a natural number. -/
def ofNat (n : Nat) : Text := ofString (toString n)

/-- The decimal numeral of an integer, with a minus sign when negative. -/
def ofInt (n : Int) : Text := ofString (toString n)

/-- Code-point lexicographic order, as a test. -/
def lexLt : List Nat → List Nat → Bool
  | [], [] => false
  | [], _ :: _ => true
  | _ :: _, [] => false
  | a :: as, b :: bs => a < b || (a == b && lexLt as bs)

/-- `a` sorts before `b` by code point. -/
def before (a b : Text) : Bool := lexLt a.points b.points

/-- The string of a text whose code points are all scalar values (an invalid one becomes NUL).
Used only for texts known to be ASCII. -/
def toString (t : Text) : String := String.ofList (t.points.map Char.ofNat)

/-- Lowercase hexadecimal digits of `n`, the last `width` of them, padded with zeros. -/
def hexDigits (width n : Nat) : List Nat :=
  let digit (d : Nat) : Nat := if d < 10 then 0x30 + d else 0x57 + d
  (List.range width).reverse.map (fun i => digit (n / Nat.pow 16 i % 16))

@[simp] theorem points_append (a b : Text) : (a ++ b).points = a.points ++ b.points := rfl

@[simp] theorem length_append (a b : Text) : (a ++ b).length = a.length + b.length := by
  simp [length]

end Text

/-- Two-digit zero-padded decimal, used by clock and date layouts. -/
def pad2 (n : Nat) : Text :=
  if n < 10 then Text.ofString "0" ++ Text.ofNat n else Text.ofNat n

/-- Decimal padded with zeros on the left to at least `width` digits. -/
def padZeros (width n : Nat) : Text :=
  let digits := Text.ofNat n
  ⟨List.replicate (width - digits.length) 0x30 ++ digits.points⟩

end HostInventory
