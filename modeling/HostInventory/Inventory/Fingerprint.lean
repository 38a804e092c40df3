import HostInventory.Inventory.Current
import HostInventory.Inventory.Legacy
import HostInventory.Digest.Sha256
/-!
# Inventory fingerprints

Fingerprints let the collector tell whether it needs the full inventory. Both are SHA-256 digests
in lowercase hexadecimal.

* The raw fingerprint digests the canonical bytes of the whole inventory, so any change, the
  order of packages included, changes it.
* The stable fingerprint digests the canonical bytes of the operating system followed by one
  entry per package, the entries sorted by their UTF-8 octets. Moving packages within or between
  the installed and available lists does not change it. An entry is the canonical text of the
  package, except that a Windows update is identified by its title, update id and revision number
  alone, since its category order is not stable between collections.

A fingerprint fails when a text it digests holds a surrogate. The stable fingerprint meets its
failures in this order: the canonical entries (installed, then available), the operating system,
then the update entries.
-/

namespace HostInventory

/-- The canonical text of a value, refused when it has no UTF-8 form. -/
def Json.encodableText (v : Json) : Except InventoryError Text := do
  let t ← v.canonicalText.mapError CanonicalError.toInventoryError
  match Text.utf8 t with
  | .ok _ => pure t
  | .error run => throw (.unencodable run)

/-- The canonical bytes of a value as a failure of the operation. -/
def Json.encodedBytes (v : Json) : Except InventoryError (List Nat) :=
  v.canonicalBytes.mapError CanonicalError.toInventoryError

/-- The UTF-8 octets of a text as a failure of the operation. -/
def Text.encoded (t : Text) : Except InventoryError (List Nat) :=
  (Text.utf8 t).mapError InventoryError.unencodable

/-- Octet strings sorted in lexicographic order. -/
def sortOctets (entries : List (List Nat)) : List (List Nat) :=
  entries.mergeSort (fun a b => !Text.lexLt b a)

/-- The octets a stable fingerprint digests: operating-system bytes followed by the entries'
UTF-8 octets, sorted, with nothing between them. -/
def stableStream (osBytes : List Nat) (entries : List Text) : Except InventoryError (List Nat) := do
  let octets ← entries.mapM Text.encoded
  pure (osBytes ++ (sortOctets octets).flatten)

namespace Current

/-- The stable-fingerprint entry of a package. -/
def Package.entry (p : Package) : Except InventoryError Text :=
  match p.details with
  | .update d =>
    pure (d.title ++ Text.ofString "-" ++ d.updateId ++ Text.ofString "-" ++
      Text.ofInt d.revisionNumber)
  | _ => p.toWire.encodableText

/-- The canonical bytes of an inventory. -/
def Inventory.bytes (inv : Inventory) : Except InventoryError (List Nat) :=
  inv.toWire.encodedBytes

/-- The raw fingerprint. -/
def Inventory.rawFingerprint (inv : Inventory) : Except InventoryError String :=
  inv.bytes.map Sha256.hexDigest

/-- The octets the stable fingerprint digests. -/
def Inventory.stableStream (inv : Inventory) : Except InventoryError (List Nat) := do
  let entries ← (inv.installed ++ inv.available).mapM Package.entry
  let osBytes ← inv.os.toWire.encodedBytes
  HostInventory.stableStream osBytes entries

/-- The stable fingerprint. -/
def Inventory.stableFingerprint (inv : Inventory) : Except InventoryError String :=
  inv.stableStream.map Sha256.hexDigest

end Current

namespace Legacy

/-- The stable-fingerprint entry of an item: its canonical text. -/
def Item.entry (i : Item) : Except InventoryError Text := i.toWire.encodableText

/-- The canonical bytes of an inventory. -/
def Inventory.bytes (inv : Inventory) : Except InventoryError (List Nat) :=
  inv.toWire.encodedBytes

/-- The raw fingerprint. -/
def Inventory.rawFingerprint (inv : Inventory) : Except InventoryError String :=
  inv.bytes.map Sha256.hexDigest

/-- The octets the stable fingerprint digests. -/
def Inventory.stableStream (inv : Inventory) : Except InventoryError (List Nat) := do
  let entries ← (inv.installed ++ inv.available).mapM Item.entry
  let osBytes ← inv.os.toWire.encodedBytes
  HostInventory.stableStream osBytes entries

/-- The stable fingerprint. -/
def Inventory.stableFingerprint (inv : Inventory) : Except InventoryError String :=
  inv.stableStream.map Sha256.hexDigest

end Legacy

end HostInventory
