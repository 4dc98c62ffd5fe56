import GuestLibrary.Diagnostic.Basic
import GuestLibrary.Heap.Table
import GuestLibrary.Text.Hexadecimal

/-!
The lifecycle log of a heap: what the heap decided, for which call, and how full it was then.
-/
namespace GuestLibrary

/-- How grave a log line is. -/
inductive Severity
  | trace
  | debug
  | info
  | warn
  | error
  deriving DecidableEq, Repr

namespace Severity

def all : List Severity := [trace, debug, info, warn, error]

def name : Severity → String
  | trace => "trace"
  | debug => "debug"
  | info => "info"
  | warn => "warn"
  | error => "error"

end Severity

/-- The call that a heap works for. -/
inductive HeapCall
  | malloc
  | calloc
  | realloc
  | free
  deriving DecidableEq, Repr

def HeapCall.name : HeapCall → String
  | malloc => "malloc"
  | calloc => "calloc"
  | realloc => "realloc"
  | free => "free"

/-- Occupancy of a heap. -/
structure HeapStats where
  /-- Pages acquired. -/
  pages : Nat := 0
  /-- Blocks in the table, holes included. -/
  descriptors : Nat := 0
  holes : Nat := 0
  /-- Used blocks. -/
  active : Nat := 0
  /-- Bytes of used blocks, headers included. -/
  usedBytes : Nat := 0
  freeBytes : Nat := 0
  deriving DecidableEq, Repr

/-- Where the block that replaces a resized one was found. -/
inductive SearchWindow
  | forward
  | fullScan
  | grown
  deriving DecidableEq, Repr

def SearchWindow.name : SearchWindow → String
  | forward => "forward"
  | fullScan => "full_scan"
  | grown => "grown"

inductive HeapEvent
  /-- A region would exceed the ceiling on pages. -/
  | pageLimit (need pages requested maxPages : Nat)
  /-- The blocks of a region would not fit the table. -/
  | blockLimit (need blocks requested capacity : Nat)
  /-- The memory did not grow. -/
  | growthRefused (need grow : Nat)
  /-- The memory grew and the blocks did not fit. -/
  | cutRejected (start len : Nat)
  | pagesAdded (start len grow pages first last : Nat)
  /-- Size and header exceed a word. -/
  | sizeOverflow (size : Nat)
  /-- Count times size exceeds a word. -/
  | productOverflow (count size : Nat)
  | exhausted (size need : Nat)
  | allocated (address size block : Nat) (split : SplitKind) (merged : Nat)
  /-- A call on a pointer that is not live. -/
  | rejected (d : Diagnostic) (address : Nat) (size block : Option Nat)
  | released (address len block : Nat)
  | releasedNull
  /-- A block is already large enough for its new size. -/
  | fits (address size block blockSize : Nat)
  /-- A block was not resized and stays. -/
  | resizeExhausted (address size block need : Nat)
  | moved (address size block oldAddress oldBlock : Nat) (window : SearchWindow) (copied : Nat)
      (split : SplitKind)
  deriving DecidableEq, Repr

namespace HeapEvent

def severity : HeapEvent → Severity
  | pageLimit .. | blockLimit .. | growthRefused .. | sizeOverflow .. | productOverflow ..
  | exhausted .. | rejected .. | resizeExhausted .. => .warn
  | cutRejected .. => .error
  | pagesAdded .. => .info
  | allocated .. | released .. | releasedNull | fits .. | moved .. => .trace

/-- The kind of event. -/
def name : HeapEvent → String
  | pageLimit .. | blockLimit .. | growthRefused .. | cutRejected .. | pagesAdded .. =>
    "add_pages"
  | sizeOverflow .. => "size_overflow"
  | productOverflow .. => "calloc_overflow"
  | exhausted .. | allocated .. => "alloc"
  | rejected d .. => d.label
  | released .. => "free"
  | releasedNull => "free_null"
  | fits .. => "realloc_fits"
  | resizeExhausted .. => "realloc"
  | moved .. => "realloc_move"

/-- The address that the event is about. -/
def address? : HeapEvent → Option Nat
  | cutRejected start _ | pagesAdded start .. => some start
  | allocated address .. | rejected _ address .. | released address .. | fits address ..
  | resizeExhausted address .. | moved address .. => some address
  | releasedNull => some 0
  | _ => none

/-- The size that the event is about. -/
def size? : HeapEvent → Option Nat
  | pageLimit need .. | blockLimit need .. | growthRefused need _ => some need
  | cutRejected _ len | pagesAdded _ len .. => some len
  | sizeOverflow size | exhausted size _ | allocated _ size .. => some size
  | rejected _ _ size _ => size
  | released _ len _ => some len
  | fits _ size .. | resizeExhausted _ size .. | moved _ size .. => some size
  | productOverflow .. | releasedNull => none

/-- The block that the event is about. -/
def block? : HeapEvent → Option Nat
  | allocated _ _ block .. | released _ _ block | fits _ _ block _
  | resizeExhausted _ _ block _ | moved _ _ block .. => some block
  | rejected _ _ _ block => block
  | _ => none

def outcome : HeapEvent → String
  | pageLimit .. => "page_limit"
  | blockLimit .. | cutRejected .. => "descriptor_limit"
  | growthRefused .. => "host_refused"
  | sizeOverflow .. | productOverflow .. => "denied"
  | exhausted .. | resizeExhausted .. => "oom"
  | rejected .. => "ignored"
  | releasedNull => "noop"
  | pagesAdded .. | allocated .. | released .. | fits .. | moved .. => "success"

/-- Whether a block moved to lower or higher addresses. -/
def direction (old new : Nat) : String :=
  if new < old then "down" else if new = old then "in_place" else "up"

def details : HeapEvent → String
  | pageLimit _ pages requested maxPages =>
    "pages=" ++ toString pages ++ " requested=" ++ toString requested ++ " max_pages="
      ++ toString maxPages
  | blockLimit _ blocks requested capacity =>
    "descriptors=" ++ toString blocks ++ " requested=" ++ toString requested ++ " capacity="
      ++ toString capacity
  | growthRefused _ grow => "grow_pages=" ++ toString grow
  | cutRejected .. => "region_cut_rejected"
  | pagesAdded _ _ grow pages first last =>
    "grow_pages=" ++ toString grow ++ " region_pages=" ++ toString pages ++ " blocks="
      ++ toString first ++ ".." ++ toString last
  | sizeOverflow _ => "size_plus_header_overflows"
  | productOverflow count size => "count=" ++ toString count ++ " size=" ++ toString size
  | exhausted _ need | resizeExhausted _ _ _ need => "need=" ++ toString need
  | allocated _ _ _ split merged => "split=" ++ split.name ++ " merged=" ++ toString merged
  | rejected d .. => d.message
  | released .. => ""
  | releasedNull => "null_pointer"
  | fits _ _ _ blockSize => "block_size=" ++ toString blockSize
  | moved address _ _ oldAddress oldBlock window copied split =>
    "old_addr=" ++ toString oldAddress ++ " old_block=#" ++ toString oldBlock ++ " window="
      ++ window.name ++ " direction=" ++ direction oldAddress address ++ " copied="
      ++ toString copied ++ " split=" ++ split.name

end HeapEvent

/-- A line of the lifecycle log. -/
structure HeapRecord where
  /-- Running number of the decision. -/
  id : Nat
  call : HeapCall
  event : HeapEvent
  /-- Occupancy when the decision was made. -/
  stats : HeapStats
  deriving DecidableEq, Repr

/-- Identifies a record across logs. -/
def HeapRecord.traceId (r : HeapRecord) : String :=
  "core::malloc::" ++ r.call.name ++ "::" ++ Text.hexPadded 16 r.id

end GuestLibrary
