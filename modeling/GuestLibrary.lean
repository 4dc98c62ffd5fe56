import GuestLibrary.Algorithm.Random
import GuestLibrary.Algorithm.Sorting
import GuestLibrary.Algorithm.Sorting.Machine
import GuestLibrary.Bytes.Block
import GuestLibrary.Bytes.CString
import GuestLibrary.Bytes.CString.Machine
import GuestLibrary.Bytes.Token
import GuestLibrary.Calendar.Basic
import GuestLibrary.Calendar.Format
import GuestLibrary.Calendar.Machine
import GuestLibrary.CommandLine.Command
import GuestLibrary.CommandLine.Plan
import GuestLibrary.CommandLine.Usage
import GuestLibrary.Conformance.Arguments
import GuestLibrary.Conformance.Difference
import GuestLibrary.Conformance.Execution
import GuestLibrary.Conformance.Fixture
import GuestLibrary.Conformance.Report
import GuestLibrary.Conformance.Verdict
import GuestLibrary.Diagnostic.Basic
import GuestLibrary.Digest.Sha256
import GuestLibrary.ErrorNumber
import GuestLibrary.Guest.Exit
import GuestLibrary.Guest.Machine
import GuestLibrary.Guest.Memory
import GuestLibrary.Guest.Program
import GuestLibrary.Guest.State
import GuestLibrary.Guest.Stream
import GuestLibrary.Heap.Basic
import GuestLibrary.Heap.Log
import GuestLibrary.Heap.Machine
import GuestLibrary.Heap.Table
import GuestLibrary.Heap.Table.Machine
import GuestLibrary.Host.Basic
import GuestLibrary.Host.Memory
import GuestLibrary.Host.Path
import GuestLibrary.Json.Basic
import GuestLibrary.Json.Document
import GuestLibrary.Json.Number
import GuestLibrary.Json.Writer
import GuestLibrary.Log.AllocationTrace
import GuestLibrary.Log.Emitter
import GuestLibrary.Log.Entry
import GuestLibrary.Log.Timestamp
import GuestLibrary.Log.Validation
import GuestLibrary.Main
import GuestLibrary.Numeral.Binary
import GuestLibrary.Numeral.Checked
import GuestLibrary.Numeral.Decimal
import GuestLibrary.Numeral.Integer
import GuestLibrary.Numeral.Literal
import GuestLibrary.Numeral.Real
import GuestLibrary.Numeral.Stop
import GuestLibrary.Numeral.Word
import GuestLibrary.Proofs.Algorithm.InPlace
import GuestLibrary.Proofs.Algorithm.Merging
import GuestLibrary.Proofs.Algorithm.Searching
import GuestLibrary.Proofs.Algorithm.Sorting
import GuestLibrary.Proofs.Bytes.Building
import GuestLibrary.Proofs.Bytes.Comparing
import GuestLibrary.Proofs.Bytes.Copies
import GuestLibrary.Proofs.Bytes.Tokens
import GuestLibrary.Proofs.Calendar.Expansion
import GuestLibrary.Proofs.Calendar.Gregorian
import GuestLibrary.Proofs.Calendar.Machine
import GuestLibrary.Proofs.Calendar.Normalizing
import GuestLibrary.Proofs.Calendar.Order
import GuestLibrary.Proofs.Calendar.Proleptic
import GuestLibrary.Proofs.Calendar.RoundTrip
import GuestLibrary.Proofs.Calendar.Text
import GuestLibrary.Proofs.Calendar.Traps
import GuestLibrary.Proofs.Calendar.Weeks
import GuestLibrary.Proofs.Conformance.Allocations
import GuestLibrary.Proofs.Conformance.Differences
import GuestLibrary.Proofs.Conformance.Verdicts
import GuestLibrary.Proofs.Guest.Calls
import GuestLibrary.Proofs.Guest.Granting
import GuestLibrary.Proofs.Guest.Reporting
import GuestLibrary.Proofs.Guest.Silence
import GuestLibrary.Proofs.Guest.Twins
import GuestLibrary.Proofs.Heap.Absorption
import GuestLibrary.Proofs.Heap.Accounting
import GuestLibrary.Proofs.Heap.Acquiring
import GuestLibrary.Proofs.Heap.Arithmetic
import GuestLibrary.Proofs.Heap.Atomicity
import GuestLibrary.Proofs.Heap.Blindness
import GuestLibrary.Proofs.Heap.Bounded
import GuestLibrary.Proofs.Heap.Cutting
import GuestLibrary.Proofs.Heap.Enclosure
import GuestLibrary.Proofs.Heap.Exhaustion
import GuestLibrary.Proofs.Heap.FirstFit
import GuestLibrary.Proofs.Heap.FreeRun
import GuestLibrary.Proofs.Heap.Growth
import GuestLibrary.Proofs.Heap.Handles
import GuestLibrary.Proofs.Heap.InPlace
import GuestLibrary.Proofs.Heap.Invariant
import GuestLibrary.Proofs.Heap.Isolation
import GuestLibrary.Proofs.Heap.LeftmostFit
import GuestLibrary.Proofs.Heap.LiveGrants
import GuestLibrary.Proofs.Heap.Moving
import GuestLibrary.Proofs.Heap.Offers
import GuestLibrary.Proofs.Heap.Operations
import GuestLibrary.Proofs.Heap.PageCounts
import GuestLibrary.Proofs.Heap.Reachable
import GuestLibrary.Proofs.Heap.Records
import GuestLibrary.Proofs.Heap.Recycling
import GuestLibrary.Proofs.Heap.Search
import GuestLibrary.Proofs.Heap.Snapshots
import GuestLibrary.Proofs.Heap.Tiling
import GuestLibrary.Proofs.Heap.Words
import GuestLibrary.Proofs.Host.Confinement
import GuestLibrary.Proofs.Json.OneLine
import GuestLibrary.Proofs.Json.Reading
import GuestLibrary.Proofs.Json.RoundTrip
import GuestLibrary.Proofs.Log.AllocationTraces
import GuestLibrary.Proofs.Log.Emitting
import GuestLibrary.Proofs.Log.RoundTrip
import GuestLibrary.Proofs.Log.Timestamps
import GuestLibrary.Proofs.Memory
import GuestLibrary.Proofs.Numeral.Integers
import GuestLibrary.Proofs.Numeral.Prefixes
import GuestLibrary.Proofs.Numeral.Reals
import GuestLibrary.Proofs.Numeral.Runs
import GuestLibrary.Proofs.Session.Reentry
import GuestLibrary.Proofs.Stream.Books
import GuestLibrary.Proofs.Stream.Bounds
import GuestLibrary.Proofs.Stream.Buffer
import GuestLibrary.Proofs.Stream.Chunking
import GuestLibrary.Proofs.Stream.Client
import GuestLibrary.Proofs.Stream.Console
import GuestLibrary.Proofs.Stream.Cursor
import GuestLibrary.Proofs.Stream.Delivery
import GuestLibrary.Proofs.Stream.Effects
import GuestLibrary.Proofs.Stream.Emission
import GuestLibrary.Proofs.Stream.Extents
import GuestLibrary.Proofs.Stream.Fetching
import GuestLibrary.Proofs.Stream.Ledger
import GuestLibrary.Proofs.Stream.Moves
import GuestLibrary.Proofs.Stream.Operations
import GuestLibrary.Proofs.Stream.Output
import GuestLibrary.Proofs.Stream.Ownership
import GuestLibrary.Proofs.Stream.Polling
import GuestLibrary.Proofs.Stream.Reading
import GuestLibrary.Proofs.Stream.Seclusion
import GuestLibrary.Proofs.Stream.Tickets
import GuestLibrary.Proofs.Text.Escaping
import GuestLibrary.Proofs.Text.Splitting
import GuestLibrary.Session.Basic
import GuestLibrary.Session.Calls
import GuestLibrary.Session.Machine
import GuestLibrary.Stream.Basic
import GuestLibrary.Stream.Machine
import GuestLibrary.Stream.Table
import GuestLibrary.Text.Blank
import GuestLibrary.Text.Escape
import GuestLibrary.Text.Hexadecimal
import GuestLibrary.Text.Printable
import GuestLibrary.Text.Split
import GuestLibrary.Text.Utf8
