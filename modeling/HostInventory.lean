import HostInventory.Attribute.Publish
import HostInventory.Attribute.Store
import HostInventory.Datum.Basic
import HostInventory.Datum.Integer
import HostInventory.Datum.Key
import HostInventory.Datum.Problem
import HostInventory.Digest.Sha256
import HostInventory.Error
import HostInventory.Inventory.Current
import HostInventory.Inventory.Fingerprint
import HostInventory.Inventory.Legacy
import HostInventory.Inventory.Load
import HostInventory.Inventory.NormalizeCurrent
import HostInventory.Inventory.NormalizeLegacy
import HostInventory.Inventory.Policy
import HostInventory.Inventory.Snapshot
import HostInventory.Inventory.Warning
import HostInventory.Json.Ascii
import HostInventory.Json.Basic
import HostInventory.Json.Canonical
import HostInventory.Json.Reader
import HostInventory.Number.Binary64
import HostInventory.Number.Decimal
import HostInventory.Number.Shortest
import HostInventory.Proofs.Fingerprint.Reordering
import HostInventory.Proofs.Fingerprint.Separation
import HostInventory.Proofs.Json.Canonical
import HostInventory.Proofs.Json.Delimiting
import HostInventory.Proofs.Order
import HostInventory.Proofs.Report.Protocol
import HostInventory.Proofs.Text.Decoding
import HostInventory.Report.Collector
import HostInventory.Report.Coordinator
import HostInventory.Report.Reporter
import HostInventory.Stack.Check
import HostInventory.Stack.Metadata
import HostInventory.Stack.Snapshot
import HostInventory.Text.Basic
import HostInventory.Text.Blank
import HostInventory.Text.Digit
import HostInventory.Text.Hex
import HostInventory.Text.Numeral
import HostInventory.Text.Printable
import HostInventory.Text.Quoted
import HostInventory.Text.Utf8
import HostInventory.Time.Civil
import HostInventory.Time.Instant
import HostInventory.Time.Iso
import HostInventory.Time.SlashDate
import HostInventory.Proofs.Report.Scripted
import HostInventory.Proofs.Fingerprint.Encodable
import HostInventory.Proofs.Number.Rounding
import HostInventory.Proofs.Number.ShortestForm
import HostInventory.Proofs.Json.Numerals
import HostInventory.Proofs.Json.NumberTexts
import HostInventory.Proofs.Json.Unambiguous
import HostInventory.Proofs.Fingerprint.Raw
import HostInventory.Proofs.Json.ReadBack
import HostInventory.Proofs.Normalize.Current
import HostInventory.Proofs.Normalize.Legacy
import HostInventory.Proofs.Normalize.Metadata
import HostInventory.Proofs.Time.Timestamp
import HostInventory.Proofs.Time.SlashDate
import HostInventory.Proofs.Time.IsoReadBack
import HostInventory.Proofs.Normalize.Agreement
import HostInventory.Proofs.Json.Encoding
import HostInventory.Proofs.Json.Nesting
import HostInventory.Proofs.Load.Document
import HostInventory.Proofs.Load.Refusals
import HostInventory.Proofs.Attribute.Isolation
import HostInventory.Proofs.Text.Utf8Order
import HostInventory.Proofs.Datum.Representable
import HostInventory.Proofs.Report.Composition
