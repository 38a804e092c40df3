import HostInventory.Text.Basic
/-!
# UTF-8

Every scalar value has a UTF-8 form of one to four octets; a surrogate has none. Encoding a
text therefore either gives its octets or names the first run of surrogates in it: the position
of the first surrogate and the end of the longest stretch of surrogates that starts there.
Octets are kept as natural numbers below 256.
-/

namespace HostInventory.Text

/-- The UTF-8 octets of one scalar value. -/
def utf8Point (c : Nat) : List Nat :=
  if c < 0x80 then [c]
  else if c < 0x800 then [0xC0 + c / 64, 0x80 + c % 64]
  else if c < 0x10000 then [0xE0 + c / 4096, 0x80 + c / 64 % 64, 0x80 + c % 64]
  else [0xF0 + c / 262144, 0x80 + c / 4096 % 64, 0x80 + c / 64 % 64, 0x80 + c % 64]

/-- Where a text stops having a UTF-8 form: the surrogates at positions `start` to `stop - 1`,
the first of which is `first`. -/
structure SurrogateRun where
  start : Nat
  stop : Nat
  first : Nat
deriving DecidableEq

/-- The UTF-8 octets of a text, or its first run of surrogates. -/
def utf8 (t : Text) : Except SurrogateRun (List Nat) :=
  match t.points.findIdx? isSurrogate with
  | none => .ok (t.points.flatMap utf8Point)
  | some i =>
    let run := (t.points.drop i).takeWhile isSurrogate
    .error ⟨i, i + run.length, t.points.getD i 0⟩

example : utf8 (Text.ofString "aé€😀") =
    .ok [0x61, 0xC3, 0xA9, 0xE2, 0x82, 0xAC, 0xF0, 0x9F, 0x98, 0x80] := rfl

example : utf8 ⟨[0x61, 0xD800, 0xDC00, 0x62, 0xD801]⟩ = .error ⟨1, 3, 0xD800⟩ := rfl

end HostInventory.Text
