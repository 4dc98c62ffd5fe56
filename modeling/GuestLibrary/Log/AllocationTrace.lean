import GuestLibrary.Guest.Machine
import GuestLibrary.Log.Entry

/-!
The lifecycle of a heap as log entries: what it does when some sizes are allocated in order and
the grants are freed in reverse.
-/
namespace GuestLibrary.Log

/-- What an outcome of the heap means to an entry, with its error number. -/
def verdictOf (outcome : String) : Option Outcome × Option Int :=
  match outcome with
  | "success" | "noop" => (some .pass, none)
  | "oom" | "denied" => (some .fail, some ErrorNumber.noMemory)
  | "ignored" => (some .error, some ErrorNumber.invalid)
  | _ => (none, none)

/-- The details of a record, by their keys. -/
def detailsOf (r : HeapRecord) : Json :=
  let natural := fun (n : Nat) => Json.integer n
  let known := fun (n : Option Nat) => n.elim Json.null natural
  .ofMembers [("decision_id", natural r.id), ("addr", known r.event.address?),
    ("size", known r.event.size?), ("block", known r.event.block?),
    ("outcome", .text r.event.outcome), ("details", .text r.event.details),
    ("active_blocks", natural r.stats.active), ("used_bytes", natural r.stats.usedBytes),
    ("pages", natural r.stats.pages), ("descriptors", natural r.stats.descriptors)]

/-- A record of the heap as a log entry. -/
def Entry.ofRecord (timestamp : String) (mode : DiagnosticMode) (r : HeapRecord) : Entry :=
  { timestamp
    traceId := r.traceId
    severity := r.event.severity
    event := r.event.name
    family := some "malloc"
    symbol := some r.call.name
    mode := some mode.name
    outcome := (verdictOf r.event.outcome).1
    errorNumber := (verdictOf r.event.outcome).2
    details := some (detailsOf r) }

/-- Allocates one more size. The grants are kept newest first; a size that cannot be allocated
is passed over. -/
def allocateNext (state : List Allocation × Guest) (size : Nat) : List Allocation × Guest :=
  let (grant, g) := state.2.malloc size
  (grant.toList ++ state.1, g)

/-- A host of its own. -/
def quietHost : Host :=
  { arena := .ofBase Arena.defaultHeapBase Arena.defaultMaxPages, source := .table [] false }

/-- A program that reports nothing. -/
def quietGuest (limits : HeapLimits) : Guest :=
  .start quietHost { diagnostics := .silent, limits }

/-- The records of a heap that allocates sizes in order and then frees the grants, the newest one
first. -/
def allocationRecords (sizes : List Nat) (limits : HeapLimits) : List HeapRecord :=
  let (grants, g) := sizes.foldl allocateNext ([], quietGuest limits)
  (grants.foldl Guest.free g).heap.records

/-- The log of allocating sizes in order and freeing the grants in reverse. -/
def allocationTrace (timestamp : String) (sizes : List Nat) (limits : HeapLimits) : List Entry :=
  (allocationRecords sizes limits).map (Entry.ofRecord timestamp .silent)

namespace Machine

/-- Allocates one more size, on words. -/
def allocateNext (state : List Allocation × Guest) (size : Nat) :
    Except Stop (List Allocation × Guest) := do
  let (grant, g) ← Guest.Machine.malloc state.2 size
  return (grant.toList ++ state.1, g)

/-- The log of allocating sizes and freeing the grants, on words. -/
def allocationTrace (timestamp : String) (sizes : List Nat) (limits : HeapLimits) :
    Except Stop (List Entry) := do
  let g ← Guest.Machine.start quietHost { diagnostics := .silent, limits }
  let (grants, g) ← sizes.foldlM allocateNext ([], g)
  let g ← grants.foldlM Guest.Machine.free g
  return g.heap.records.map (Entry.ofRecord timestamp .silent)

end Machine
end GuestLibrary.Log
