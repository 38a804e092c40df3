import HostInventory.Json.Canonical
/-!
# JSON on a seven-bit channel

Answers travel as ASCII: every code point outside the printable ASCII range is written as a
`\uhhhh` escape, a code point above U+FFFF as its two UTF-16 surrogate escapes, and a lone
surrogate as its own escape, so that reading the text back gives the same code points. Members
keep their order, and a non-finite double is written `NaN`, `Infinity` or `-Infinity`, the
names the reader accepts.
-/

namespace HostInventory.Json

/-- Four lowercase hexadecimal digits of a number below `2^16`. -/
def hex4Text (n : Nat) : String := String.ofList ((Text.hexDigits 4 n).map Char.ofNat)

/-- How one code point is written inside an ASCII string. -/
def asciiPoint (c : Nat) : String :=
  if c == 0x22 then "\\\""
  else if c == 0x5C then "\\\\"
  else if c == 0x0A then "\\n"
  else if c == 0x0D then "\\r"
  else if c == 0x09 then "\\t"
  else if 0x20 ≤ c && c < 0x7F then String.singleton (Char.ofNat c)
  else if c < 0x10000 then "\\u" ++ hex4Text c
  else
    let v := c - 0x10000
    "\\u" ++ hex4Text (0xD800 + v / 0x400) ++ "\\u" ++ hex4Text (0xDC00 + v % 0x400)

/-- A text as an ASCII JSON string. -/
def asciiString (t : Text) : String :=
  "\"" ++ String.join (t.points.map asciiPoint) ++ "\""

/-- The ASCII text of a double: its shortest form, or the name of a non-finite one. -/
def asciiFloat (x : Float) : String :=
  match floatText? x with
  | some t => t.toString
  | none =>
    match Binary64.kind x with
    | .infinite true => "-Infinity"
    | .infinite false => "Infinity"
    | _ => "NaN"

mutual

/-- A value as one line of ASCII JSON. -/
def renderAscii : Json → String
  | .null => "null"
  | .bool b => if b then "true" else "false"
  | .int n => toString n
  | .float x => asciiFloat x
  | .str t => asciiString t
  | .arr items => "[" ++ ", ".intercalate (renderAsciiItems items) ++ "]"
  | .obj members => "\x7b" ++ ", ".intercalate (renderAsciiMembers members) ++ "\x7d"

/-- Array items as ASCII JSON. -/
def renderAsciiItems : List Json → List String
  | [] => []
  | v :: rest => renderAscii v :: renderAsciiItems rest

/-- Object members as ASCII JSON. -/
def renderAsciiMembers : List (Text × Json) → List String
  | [] => []
  | (name, v) :: rest => (asciiString name ++ ": " ++ renderAscii v) :: renderAsciiMembers rest

end

end HostInventory.Json
