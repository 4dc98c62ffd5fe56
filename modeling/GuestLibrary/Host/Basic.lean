import GuestLibrary.Host.Memory
import GuestLibrary.Host.Path
import GuestLibrary.Numeral.Word
import GuestLibrary.Text.Utf8

/-!
The environment of a guest program: linear memory, a console, resources that are fetched by
name, and clocks. Whatever the library does to the world it does here.
-/
namespace GuestLibrary

/-- Console output, one chunk for each write. -/
structure Console where
  chunks : Array Bytes := #[]

namespace Console

def push (c : Console) (chunk : Bytes) : Console := ⟨c.chunks.push chunk⟩

/-- All chunks joined. -/
def bytes (c : Console) : Bytes := c.chunks.toList.flatten

/-- The output as text, malformed parts replaced. -/
def text (c : Console) : String := Utf8.decodeLossy c.bytes

end Console

/-- Linear memory with the place where a heap may start. -/
structure Arena where
  memory : LinearMemory
  /-- First address available to a heap. -/
  heapBase : Nat
  /-- How often the memory grew. -/
  growths : Nat := 0

namespace Arena

/-- The heap base of hosts that choose none: behind a page of data and 1 KiB of stack. -/
def defaultHeapBase : Nat := pageSize + 1024

/-- The ceiling of hosts that choose none. -/
def defaultMaxPages : Nat := 64

/-- A memory that reaches past its heap base. -/
def ofBase (heapBase maxPages : Nat) : Arena :=
  { memory := .ofPages (heapBase / pageSize + 1) maxPages, heapBase }

/-- Grows the memory: the address of the first new page. -/
def grow? (a : Arena) (pages : Nat) : Option (Nat × Arena) :=
  (a.memory.grow? pages).map fun (address, memory) =>
    (address, { a with memory, growths := a.growths + 1 })

def write (a : Arena) (address : Nat) (block : Bytes) : Arena :=
  let ⟨memory, heapBase, growths⟩ := a
  ⟨memory.write address block, heapBase, growths⟩

def copyWithin (a : Arena) (src n dest : Nat) : Arena :=
  let ⟨memory, heapBase, growths⟩ := a
  ⟨memory.copyWithin src n dest, heapBase, growths⟩

end Arena

/-- What a fetch waits for. -/
inductive Delivery
  /-- The host has not let it complete yet. -/
  | held
  | released
  /-- Its outcome is known since it was started. -/
  | loaded (content : Option Bytes)
  deriving DecidableEq, Repr

/-- A fetch that was started and whose outcome was not collected. -/
structure Fetch where
  ticket : Nat
  name : String
  delivery : Delivery
  deriving DecidableEq, Repr

/-- Where resources come from. -/
inductive Source
  /-- A table that is looked up when a fetch completes, either at once or once released. -/
  | table (entries : List (String × Bytes)) (immediate : Bool)
  /-- Files below a folder, read when a fetch starts. -/
  | folder (root : String) (tree : Folder)

/-- Progress of a fetch. -/
inductive FetchStatus
  | pending
  | ready (content : Bytes)
  | failed
  deriving DecidableEq, Repr

structure Host where
  arena : Arena
  console : Console := {}
  source : Source := .table [] false
  fetches : List Fetch := []
  nextTicket : Nat := 1
  /-- Zone offset in minutes west of UTC, for every instant. -/
  minutesWest : Int := 0
  /-- Seconds since the epoch. -/
  now : Int := 0
  /-- Milliseconds of processor time. -/
  clock : Int := 0

namespace Host

/-- The path of a resource below a root; none for a name that could lead out of it. -/
def resolve? (root name : String) : Option String :=
  if Path.isConfined name then some (Path.join root name) else none

def emit (h : Host) (chunk : Bytes) : Host := { h with console := h.console.push chunk }

/-- Starts a fetch. -/
def fetch (h : Host) (name : String) : Nat × Host :=
  let delivery := match h.source with
    | .table _ immediate => if immediate then .released else .held
    | .folder root tree => .loaded ((resolve? root name).bind tree.read?)
  let ticket := h.nextTicket
  let others := h.fetches.filter (·.ticket ≠ ticket)
  (ticket, { h with
    fetches := others ++ [⟨ticket, name, delivery⟩]
    nextTicket := (ticket + 1) % halfLimit })

/-- The content registered under a name. -/
def resource? (h : Host) (name : String) : Option Bytes :=
  match h.source with
  | .table entries _ => entries.lookup name
  | .folder .. => none

/-- Forgets a fetch. -/
def forget (h : Host) (ticket : Nat) : Host :=
  { h with fetches := h.fetches.filter (·.ticket ≠ ticket) }

/-- The outcome of a fetch, once it has one; the fetch is forgotten with it. -/
def poll (h : Host) (ticket : Nat) : FetchStatus × Host :=
  let settle := fun (content : Option Bytes) => match content with
    | some content => FetchStatus.ready content
    | none => .failed
  match h.fetches.find? (·.ticket = ticket) with
  | none => (.failed, h)
  | some f =>
    match f.delivery with
    | .held => (.pending, h)
    | .released => (settle (h.resource? f.name), h.forget ticket)
    | .loaded content => (settle content, h.forget ticket)

/-- Lets every fetch complete. -/
def release (h : Host) : Host :=
  { h with fetches := h.fetches.map fun f =>
      if f.delivery = .held then { f with delivery := .released } else f }

/-- Registers a resource in place of an earlier one of its name. -/
def addResource (h : Host) (name : String) (content : Bytes) : Host :=
  match h.source with
  | .table entries immediate =>
    { h with source := .table ((name, content) :: entries.filter (·.1 ≠ name)) immediate }
  | .folder .. => h

/-- The names of the fetches that were started and not collected, oldest first. -/
def pendingNames (h : Host) : List String := h.fetches.map (·.name)

end Host
end GuestLibrary
