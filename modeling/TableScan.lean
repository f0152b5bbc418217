import TableScan.Sample
import TableScan.Paging
import TableScan.Connection
import TableScan.Proofs.Drafting
import TableScan.Proofs.Composition
import TableScan.Proofs.Escape
import TableScan.Proofs.Paging
import TableScan.Proofs.RowRoundTrip
import TableScan.Proofs.Sending
import TableScan.Proofs.Refusal
import TableScan.Proofs.Requests
import TableScan.Proofs.WellFormed
import TableScan.Proofs.Moves
import TableScan.Proofs.Entering
import TableScan.Proofs.Retiring
import TableScan.Proofs.Sharing
import TableScan.Proofs.Encoding
import TableScan.Proofs.Reporting
import TableScan.Proofs.Stopping
import TableScan.AttributeValue.Delivery
import TableScan.Proofs.Unwrapping
import TableScan.Proofs.Canonical
import TableScan.Proofs.KeyText
import TableScan.Proofs.MappingKeys
import TableScan.Proofs.NumeralGrammar
import TableScan.Proofs.DecimalValue
import TableScan.Proofs.ExactNumbers
import TableScan.Proofs.BinaryText
import TableScan.Proofs.NonFinite
import TableScan.Proofs.Counting
import TableScan.Proofs.Elements
import TableScan.Proofs.Compiling
import TableScan.Proofs.Components
import TableScan.Proofs.Undivided
import TableScan.Proofs.SetOrder
import TableScan.Proofs.NativeForm
import TableScan.Proofs.Filling
import TableScan.Proofs.Joining
