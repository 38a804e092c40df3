import HostInventory.Datum.Basic
import HostInventory.Datum.Integer
import HostInventory.Json.Reader
import HostInventory.Time.Iso
import HostInventory.Stack.Check
/-!
# Failures

Every way an operation of this library can fail, by cause. `className` names the class of the
failure as callers match on it (a bad value, a wrong type, a missing attribute, an undecodable
document, an unencodable text, a schema violation, a cancelled cycle) and `message` is its text.
-/

namespace HostInventory

/-- Why an operation failed. -/
inductive InventoryError where
  /-- A document is not JSON. -/
  | unreadable (doc : Text) (cause : Json.ReadError)
  /-- A value of the named kind was used where an object was needed. -/
  | noAttribute (kind : String) (member : String)
  /-- A value is not a whole number. -/
  | integer (cause : IntegerError)
  /-- A date or date-time text was refused. -/
  | date (cause : DateError)
  /-- A value names no RPM flavor. -/
  | unknownFlavor (value : Datum)
  /-- A canonical text holds surrogates, which UTF-8 cannot encode. -/
  | unencodable (run : Text.SurrogateRun)
  /-- A value holds a non-finite double, which JSON cannot spell. -/
  | nonFinite (value : Float)
  /-- A package kind that the current schema does not have. -/
  | unknownKind (kind : Datum)
  /-- A package's details do not fit its kind. -/
  | detailsMismatch (kind : String) (expected : String) (actual : String)
  /-- A reporting cycle was cancelled before it reported. -/
  | cancelled (cycleId : Text)
  /-- A value of the named kind was used as a dictionary key. -/
  | unhashable (kind : String)
  /-- A text is not a decimal number. -/
  | notFloat (input : Text)
  /-- A text is not hexadecimal octets; the position of the first offending character. -/
  | notHex (position : Nat)
  /-- The call stack was full at a check of the named kind. -/
  | stackFull (check : StackCheck)

namespace InventoryError

/-- The class of a failure. -/
def className : InventoryError → String
  | .unreadable _ (.integerTooLong _) => "ValueError"
  | .unreadable _ (.tooDeep _) => "RecursionError"
  | .unreadable _ _ => "JSONDecodeError"
  | .noAttribute _ _ => "AttributeError"
  | .integer e => e.className
  | .date _ => "ValueError"
  | .unknownFlavor _ => "ValueError"
  | .unencodable _ => "UnicodeEncodeError"
  | .nonFinite _ => "ValueError"
  | .unknownKind _ => "NormalizationError"
  | .detailsMismatch _ _ _ => "NormalizationError"
  | .cancelled _ => "CycleCancelled"
  | .unhashable _ => "TypeError"
  | .notFloat _ => "ValueError"
  | .notHex _ => "ValueError"
  | .stackFull _ => "RecursionError"

/-- The text of an encoding failure: the first surrogate, or the span of the run. -/
def unencodableMessage (run : Text.SurrogateRun) : Text :=
  if run.stop == run.start + 1 then
    Text.ofString "'utf-8' codec can't encode character '" ++
      ⟨Text.hexEscape 0x75 4 run.first⟩ ++ Text.ofString "' in position " ++
      Text.ofNat run.start ++ Text.ofString ": surrogates not allowed"
  else
    Text.ofString "'utf-8' codec can't encode characters in position " ++ Text.ofNat run.start ++
      Text.ofString "-" ++ Text.ofNat (run.stop - 1) ++ Text.ofString ": surrogates not allowed"

/-- The text of a failure. -/
def message : InventoryError → Text
  | .unreadable doc e => e.describe doc
  | .noAttribute kind attr =>
    Text.ofString ("'" ++ kind ++ "' object has no attribute '" ++ attr ++ "'")
  | .integer e => e.message
  | .date e => e.message
  | .unknownFlavor v => v.written ++ Text.ofString " is not a valid RpmFlavor"
  | .unencodable run => unencodableMessage run
  | .nonFinite x =>
    Text.ofString "Out of range float values are not JSON compliant: " ++ Json.floatText x
  | .unknownKind k => Text.ofString "unknown package kind " ++ k.written
  | .detailsMismatch kind expected actual =>
    Text.ofString (kind ++ " package needs " ++ expected ++ " details, got " ++ actual)
  | .cancelled id => Text.ofString "reporting cycle " ++ id ++ Text.ofString " cancelled"
  | .unhashable kind => Text.ofString ("unhashable type: '" ++ kind ++ "'")
  | .notFloat t => Text.ofString "could not convert string to float: " ++ Text.quoted t
  | .notHex p =>
    Text.ofString "non-hexadecimal number found in fromhex() arg at position " ++ Text.ofNat p
  | .stackFull check => Text.ofString ("maximum recursion depth exceeded" ++ check.suffix)

end InventoryError

/-- A canonical-bytes failure as a failure of the operation. -/
def CanonicalError.toInventoryError : CanonicalError → InventoryError
  | .nonFinite x => .nonFinite x
  | .surrogates run => .unencodable run

end HostInventory
