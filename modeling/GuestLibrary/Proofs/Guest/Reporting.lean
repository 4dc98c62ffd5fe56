import GuestLibrary.Proofs.Guest.Calls

/-! How failures reach a guest program. Whatever a call does in its course, it fails at most once,
and it books the diagnostic and the error number of that failure and of nothing else. -/
namespace GuestLibrary

/-- The error number that a diagnostic leaves. -/
def Diagnostic.errorNumber (d : Diagnostic) : Int :=
  match d.classOf with
  | .misuse => ErrorNumber.invalid
  | .unsupported => ErrorNumber.notSupported

/-- Why a call failed. -/
inductive Failure
  | alloc (e : AllocError)
  | stream (e : StreamError)
  /-- The call itself objects to its arguments, or is not supported. -/
  | misuse (d : Diagnostic)
  /-- A poll found resources missing. -/
  | missing
  | invalidArgument
  | outOfRange
  /-- There is no calendar date for an instant. -/
  | noDate
  | handlersFull
  deriving DecidableEq, Repr

namespace Failure

def diagnostic? : Failure → Option Diagnostic
  | .stream e => e.diagnostic?
  | .alloc (.misuse d) | .misuse d => some d
  | _ => none

/-- The error number that a failure leaves, if it leaves one. -/
def errorNumber? : Failure → Option Int
  | .alloc (.misuse d) | .stream (.alloc (.misuse d)) | .stream (.misuse d) | .misuse d =>
    some d.errorNumber
  | .alloc _ | .stream (.alloc _) | .handlersFull => some ErrorNumber.noMemory
  | .stream .tableFull => some ErrorNumber.tooManyOpen
  | .stream .notReady | .stream .endOfData => none
  | .stream (.outOfRange ..) | .invalidArgument => some ErrorNumber.invalid
  | .stream .noBufferSpace => some ErrorNumber.noBufferSpace
  | .missing => some ErrorNumber.noEntry
  | .outOfRange => some ErrorNumber.range
  | .noDate => some ErrorNumber.overflow

theorem errorNumber?_of_diagnostic? {f : Failure} {d : Diagnostic} (h : f.diagnostic? = some d) :
    f.errorNumber? = some d.errorNumber := by
  cases f with
  | alloc e => cases e <;> simp_all [diagnostic?, errorNumber?]
  | stream e =>
    cases e with
    | alloc e => cases e <;> simp_all [diagnostic?, errorNumber?, StreamError.diagnostic?]
    | _ => simp_all [diagnostic?, errorNumber?, StreamError.diagnostic?]
  | _ => simp_all [diagnostic?, errorNumber?]

end Failure

namespace Guest

variable {α : Type} (g : Guest)

/-! What makes a part of a call fail. -/

def heapFailure? (f : Heap → Arena → Except AllocError α × Heap × Arena) : Option Failure :=
  match (f g.heap g.host.arena).1 with
  | .ok _ => none
  | .error e => some (.alloc e)

def streamFailure? (f : StreamSystem → StreamSystem.Outcome α) : Option Failure :=
  match (f g.system).1 with
  | .ok _ => none
  | .error e => some (.stream e)

def readFailure? (f : StreamSystem → Except StreamError Nat × Bytes × StreamSystem) :
    Option Failure :=
  match (f g.system).1 with
  | .ok _ => none
  | .error e => some (.stream e)

def lookupFailure? (call : HeapCall) (address : Nat) : Option Failure :=
  match g.heap.lookup call address with
  | .ok _ => none
  | .error d => some (.misuse d)

def rangeFailure? (call : String) (address n : Nat) : Option Failure :=
  if g.memory.covers address n then none else some (.misuse (.pointerOutOfBounds call address))

def arrayFailure? (call : String) (base count width : Nat) : Option Failure :=
  if wordLimit ≤ count * width then some (.misuse (.pointerOutOfBounds call base))
  else g.rangeFailure? call base (count * width)

/-- The first of the two ranges that does not lie in memory. -/
def moveFailure? (dest src n : Nat) : Option Failure :=
  match g.rangeFailure? "memmove" dest n with
  | some failure => some failure
  | none => g.rangeFailure? "memmove" src n

/-- The grant is looked up before it is resized. -/
def resizeFailure? (address size : Nat) : Option Failure :=
  if address = 0 then g.heapFailure? fun h a => h.reallocate a none size
  else
    match g.heap.lookup .realloc address with
    | .ok grant => g.heapFailure? fun h a => h.reallocate a (some grant) size
    | .error d => some (.misuse d)

/-- The newline is written only behind a line that was. -/
def lineFailure? (s : Bytes) : Option Failure :=
  match g.streamFailure? (·.write .stdout (CString.content s)) with
  | some failure => some failure
  | none => (g.fputs s .stdout).2.streamFailure? (·.writeByte .stdout 10)

def errorTextFailure? (message : String) : Option Failure :=
  let text := ErrorNumber.text g.errorNumber
  let pieces := if message = "" then [text, "\n"] else [message, ": ", text, "\n"]
  g.streamFailure? (StreamSystem.writePieces .stderr (pieces.map Bytes.ofText))

def positionFailure? (id : StreamId) (offset whence : Int) : Option Failure :=
  match Whence.ofCode? whence with
  | none => some .invalidArgument
  | some whence => g.streamFailure? (·.seek id offset whence)

def bufferFailure? (id : StreamId) (mode : Int) (size : Nat) : Option Failure :=
  match BufferMode.ofCode? mode with
  | none => some (.misuse (.unknownBufferMode mode))
  | some mode => g.streamFailure? (·.setBufferMode id mode size)

def pollFailure? : Option Failure :=
  if g.system.poll.1.failed.isEmpty then none else some .missing

def dateFailure? (c : Option Calendar) : Option Failure := if c.isSome then none else some .noDate

def readingFailure? (r : Numeral.Reading α) : Option Failure :=
  match r.status with
  | .success => none
  | .outOfRange => some .outOfRange
  | .invalidBase => some .invalidArgument

def registerFailure? (handlers : ExitHandlers ExitHandler) (handler : ExitHandler) :
    Option Failure :=
  if (handlers.register? handler).isSome then none else some .handlersFull

end Guest

/-- Why a call of the library fails, if it does: for want of what it asked of the heap or of the
streams, or by its own checks. A call in parts fails with the first part that does. -/
def LibraryCall.failure? (g : Guest) : {α : Type} → LibraryCall α → Option Failure
  | _, .malloc size => g.heapFailure? fun h a => h.allocate a size
  | _, .calloc count size => g.heapFailure? fun h a => h.allocateZeroed a count size
  | _, .realloc grant size => g.heapFailure? fun h a => h.reallocate a grant size
  | _, .free grant => g.heapFailure? fun h a => ((h.release grant).1, (h.release grant).2, a)
  | _, .lookup call address => g.lookupFailure? call address
  | _, .freeAddress address =>
    g.heapFailure? fun h a => ((h.releaseAddress address).1, (h.releaseAddress address).2, a)
  | _, .reallocAddress address size => g.resizeFailure? address size
  | _, .memmove dest src n => g.moveFailure? dest src n
  | _, .strcoll => some (.misuse (.unsupported "strcoll"))
  | _, .qsort base count width _ _ => g.arrayFailure? "qsort" base count width
  | _, .bsearch _ base count width _ _ => g.arrayFailure? "bsearch" base count width
  | _, .fopen name mode => g.streamFailure? (·.openStream name mode)
  | _, .freopen name mode id => g.streamFailure? (·.reopen id name mode)
  | _, .fclose id => g.streamFailure? (·.close id)
  | _, .poll => g.pollFailure?
  | _, .fgetc id => g.streamFailure? (·.readByte id)
  | _, .getchar => g.streamFailure? (·.readByte .stdin)
  | _, .fgets buf id => g.readFailure? (·.readLine id buf)
  | _, .fread buf id => g.readFailure? (·.read id buf)
  | _, .ungetc b id => g.streamFailure? (·.pushBack id b)
  | _, .fputc b id => g.streamFailure? (·.writeByte id b)
  | _, .putchar b => g.streamFailure? (·.writeByte .stdout b)
  | _, .fputs s id => g.streamFailure? (·.write id (CString.content s))
  | _, .puts s => g.lineFailure? s
  | _, .fwrite block id => g.streamFailure? (·.write id block)
  | _, .fprint id pieces => g.streamFailure? (StreamSystem.writePieces id pieces)
  | _, .print pieces => g.streamFailure? (StreamSystem.writePieces .stdout pieces)
  | _, .printError pieces => g.streamFailure? (StreamSystem.writePieces .stderr pieces)
  | _, .fflush (some id) => g.streamFailure? (·.flush id)
  | _, .fseek id offset whence => g.positionFailure? id offset whence
  | _, .ftell id | _, .fgetpos id => g.streamFailure? (·.tell id)
  | _, .rewind id => g.streamFailure? (·.rewind id)
  | _, .fsetpos id position =>
    g.streamFailure? (·.seek id (min (position : Int) SignedRange.long.greatest) .start)
  | _, .clearerr id => g.streamFailure? (·.clearError id)
  | _, .perror message => g.errorTextFailure? message
  | _, .setvbuf id mode size => g.bufferFailure? id mode size
  | _, .setvbufUser id grant mode => g.streamFailure? (·.setUserBuffer id grant mode)
  | _, .remove => some (.misuse (.unsupported "remove"))
  | _, .rename => some (.misuse (.unsupported "rename"))
  | _, .tmpnam => some (.misuse (.unsupported "tmpnam"))
  | _, .tmpfile => some (.misuse (.unsupported "tmpfile"))
  | _, .gmtime t => Guest.dateFailure? (Calendar.ofInstant? t 0)
  | _, .localtime t | _, .ctime t =>
    Guest.dateFailure? (Calendar.ofInstant? t g.host.minutesWest)
  | _, .strtol s base => Guest.readingFailure? (Numeral.readSigned s (Guest.baseOf base))
  | _, .strtoul s base => Guest.readingFailure? (Numeral.readUnsigned s (Guest.baseOf base))
  | _, .strtod s => Guest.readingFailure? (Numeral.readDouble s)
  | _, .strtof s => Guest.readingFailure? (Numeral.readSingle s)
  | _, .atexit handler => Guest.registerFailure? g.exitHandlers handler
  | _, .atQuickExit handler => Guest.registerFailure? g.quickExitHandlers handler
  | _, .assertFail message file line =>
    let pieces := ["Assertion failed at ", file, " : ", line, "\n\t", message, "\n"]
    g.streamFailure? (StreamSystem.writePieces .stderr (pieces.map Bytes.ofText))
  | _, .memset .. | _, .fflush none | _, .rand | _, .srand _ | _, .exit _ | _, .quickExit _
  | _, .abort => none

namespace Guest

@[simp] theorem counts_report (g : Guest) (d : Diagnostic) :
    (g.report d).counts = g.counts.record d := by
  unfold report
  dsimp only
  split <;> rfl

@[simp] theorem errorNumber_report (g : Guest) (d : Diagnostic) :
    (g.report d).errorNumber = g.errorNumber := by
  unfold report
  dsimp only
  split <;> rfl

/-- A program books a failure: its diagnostic is counted and its error number is left. Without a
failure nothing is booked. -/
structure Booked (g g' : Guest) (failure : Option Failure) : Prop where
  counts_eq : g'.counts = (failure.bind Failure.diagnostic?).elim g.counts g.counts.record
  errorNumber_eq : g'.errorNumber = (failure.bind Failure.errorNumber?).getD g.errorNumber

namespace Booked

variable {g g' g'' : Guest} {failure : Option Failure} {α : Type}

theorem refl (g : Guest) : Booked g g none := ⟨rfl, rfl⟩

theorem after (h : Booked g g' none) (h' : Booked g' g'' failure) : Booked g g'' failure where
  counts_eq := by
    rw [h'.counts_eq, h.counts_eq]
    rfl
  errorNumber_eq := by
    rw [h'.errorNumber_eq, h.errorNumber_eq]
    rfl

theorem before (h : Booked g g' failure) (h' : Booked g' g'' none) : Booked g g'' failure :=
  ⟨h'.counts_eq.trans h.counts_eq, h'.errorNumber_eq.trans h.errorNumber_eq⟩

theorem of_diagnostic {f : Failure} {d : Diagnostic} (hd : f.diagnostic? = some d) :
    Booked g (g.misuse d) (some f) where
  counts_eq := by
    unfold misuse
    rw [counts_report, Option.bind_some, hd]
    rfl
  errorNumber_eq := by
    unfold misuse
    rw [errorNumber_report, Option.bind_some, Failure.errorNumber?_of_diagnostic? hd]
    rfl

theorem misuse (g : Guest) (d : Diagnostic) : Booked g (g.misuse d) (some (.misuse d)) :=
  of_diagnostic rfl

theorem allocFailed (g : Guest) (e : AllocError) :
    Booked g (g.allocFailed e) (some (.alloc e)) := by
  cases e with
  | exhausted _ | overflow => exact ⟨rfl, rfl⟩
  | misuse d => exact of_diagnostic rfl

theorem streamFailed (g : Guest) (e : StreamError) :
    Booked g (g.streamFailed e) (some (.stream e)) := by
  cases e with
  | tableFull | notReady | endOfData | outOfRange _ _ | noBufferSpace => exact ⟨rfl, rfl⟩
  | alloc e =>
    cases e with
    | exhausted _ | overflow => exact ⟨rfl, rfl⟩
    | misuse d => exact of_diagnostic rfl
  | misuse d => exact of_diagnostic rfl

theorem system (g : Guest) (system : StreamSystem) : Booked g { g with system } none := ⟨rfl, rfl⟩

theorem onHost (g : Guest) (f : Host → Host) : Booked g (g.onHost f) none := ⟨rfl, rfl⟩

theorem onHeap (g : Guest) (f : Heap → Arena → Except AllocError α × Heap × Arena) :
    Booked g (g.onHeap f).2 (g.heapFailure? f) := by
  unfold Guest.onHeap heapFailure? onSystem Guest.heap Guest.host
  dsimp only
  cases (f g.system.heap g.system.host.arena).1 with
  | ok _ => exact ⟨rfl, rfl⟩
  | error e => exact (system g _).after (allocFailed { g with system := _ } e)

theorem onStreams (g : Guest) (f : StreamSystem → StreamSystem.Outcome α) :
    Booked g (g.onStreams f).2 (g.streamFailure? f) := by
  unfold Guest.onStreams streamFailure? onSystem
  dsimp only
  cases (f g.system).1 with
  | ok _ => exact system g _
  | error e => exact (system g _).after (streamFailed { g with system := _ } e)

theorem onStreams_eq_none_iff (g : Guest) (f : StreamSystem → StreamSystem.Outcome α) :
    (g.onStreams f).1 = none ↔ g.streamFailure? f ≠ none := by
  unfold Guest.onStreams streamFailure? onSystem
  dsimp only
  cases (f g.system).1 <;> simp

/-- The sentinel of a count is no count. -/
theorem tally_eq_eof (r : Option Nat × Guest) : (tally r).1 = eof ↔ r.1 = none := by
  unfold tally eof
  cases r.1 with
  | none => simp
  | some n =>
    have hpos : (0 : Int) ≤ min (n : Int) SignedRange.int.greatest := le_min (by omega) (by decide)
    simp only [Option.elim_some, reduceCtorEq, iff_false]
    omega

theorem readInto (g : Guest)
    (f : StreamSystem → Except StreamError Nat × Bytes × StreamSystem) :
    Booked g (g.readInto f).2.2 (g.readFailure? f) := by
  unfold Guest.readInto readFailure? onSystem
  dsimp only
  cases (f g.system).1 with
  | ok _ => exact system g _
  | error e => exact (system g _).after (streamFailed { g with system := _ } e)

theorem lookup (g : Guest) (call : HeapCall) (address : Nat) :
    Booked g (g.lookup call address).2 (g.lookupFailure? call address) := by
  unfold Guest.lookup lookupFailure?
  cases g.heap.lookup call address with
  | ok _ => exact refl g
  | error d => exact misuse g d

/-- A look-up that fails ends the call, and one that succeeds changes nothing. -/
theorem reallocAddress (g : Guest) (address size : Nat) :
    Booked g (g.reallocAddress address size).2 (g.resizeFailure? address size) := by
  unfold Guest.reallocAddress resizeFailure? Guest.lookup
  dsimp only
  split
  · exact onHeap g _
  · cases g.heap.lookup .realloc address with
    | ok grant => exact onHeap g _
    | error d => exact misuse g d

theorem inMemory (g : Guest) (call : String) (address n : Nat) :
    Booked g (g.inMemory call address n).2 (g.rangeFailure? call address n) := by
  unfold Guest.inMemory rangeFailure?
  split
  · exact refl g
  · exact misuse g _

theorem memmove (g : Guest) (dest src n : Nat) :
    Booked g (g.memmove dest src n).2 (g.moveFailure? dest src n) := by
  unfold Guest.memmove Guest.inMemory moveFailure? rangeFailure?
  cases hdest : g.memory.covers dest n with
  | false => exact misuse g _
  | true =>
    cases hsrc : g.memory.covers src n with
    | false =>
      simp only [if_true, hsrc]
      exact misuse g _
    | true =>
      simp only [if_true, hsrc]
      split <;> exact ⟨rfl, rfl⟩

theorem array? (g : Guest) (call : String) (base count width : Nat) :
    Booked g (g.array? call base count width).2 (g.arrayFailure? call base count width) := by
  unfold Guest.array? arrayFailure?
  dsimp only
  split
  · exact misuse g _
  · have hrange := inMemory g call base (count * width)
    split <;> rename_i he <;> rw [he] at hrange <;> exact hrange

theorem convert (g : Guest) (c : Option Calendar) : Booked g (g.convert c).2 (dateFailure? c) := by
  cases c <;> exact ⟨rfl, rfl⟩

theorem localtime (g : Guest) (t : Int) :
    Booked g (g.localtime t).2 (dateFailure? (Calendar.ofInstant? t g.host.minutesWest)) := by
  have hdate := convert g
    ((Calendar.ofInstant? t g.host.minutesWest).map ({ · with daylight := -1 }))
  unfold dateFailure? at hdate ⊢
  rwa [Option.isSome_map] at hdate

theorem converted (g : Guest) (r : Numeral.Reading α) :
    Booked g (g.converted r).2 (readingFailure? r) := by
  unfold Guest.converted readingFailure?
  cases r.status <;> exact ⟨rfl, rfl⟩

theorem puts (g : Guest) (s : Bytes) : Booked g (g.puts s).2 (g.lineFailure? s) := by
  have hline : Booked g (g.fputs s .stdout).2 _ :=
    onStreams g (·.write .stdout (CString.content s))
  have heof : (g.fputs s .stdout).1 = eof ↔ _ :=
    (tally_eq_eof _).trans (onStreams_eq_none_iff g (·.write .stdout (CString.content s)))
  unfold Guest.puts lineFailure?
  generalize g.streamFailure? (·.write .stdout (CString.content s)) = failure at hline heof ⊢
  generalize g.fputs s .stdout = written at hline heof ⊢
  cases failure with
  | some f =>
    dsimp only
    rw [if_pos (heof.mpr (by simp))]
    exact hline
  | none =>
    dsimp only
    rw [if_neg fun he => heof.mp he rfl]
    exact hline.after (onStreams written.2 (·.writeByte .stdout 10))

theorem poll (g : Guest) : Booked g g.poll.2 g.pollFailure? := by
  unfold Guest.poll pollFailure? onSystem
  dsimp only
  cases g.system.poll.1.failed.isEmpty with
  | true => exact system g _
  | false =>
    rw [if_neg (by simp), if_neg (by simp)]
    exact (system g g.system.poll.2).after ⟨rfl, rfl⟩

theorem atexit (g : Guest) (handler : ExitHandler) :
    Booked g (g.atexit handler).2 (registerFailure? g.exitHandlers handler) := by
  unfold Guest.atexit registerFailure?
  cases g.exitHandlers.register? handler <;> exact ⟨rfl, rfl⟩

theorem atQuickExit (g : Guest) (handler : ExitHandler) :
    Booked g (g.atQuickExit handler).2 (registerFailure? g.quickExitHandlers handler) := by
  unfold Guest.atQuickExit registerFailure?
  cases g.quickExitHandlers.register? handler <;> exact ⟨rfl, rfl⟩

theorem fseek (g : Guest) (id : StreamId) (offset whence : Int) :
    Booked g (g.fseek id offset whence).2 (g.positionFailure? id offset whence) := by
  unfold Guest.fseek positionFailure?
  cases Whence.ofCode? whence with
  | none => exact ⟨rfl, rfl⟩
  | some whence => exact onStreams g _

theorem setvbuf (g : Guest) (id : StreamId) (mode : Int) (size : Nat) :
    Booked g (g.setvbuf id mode size).2 (g.bufferFailure? id mode size) := by
  unfold Guest.setvbuf bufferFailure?
  cases BufferMode.ofCode? mode with
  | none => exact misuse g _
  | some mode => exact onStreams g _

theorem qsort {σ : Type} (g : Guest) (base count width : Nat) (compare : Comparator σ Bytes)
    (s : σ) : Booked g (g.qsort base count width compare s).2
      (g.arrayFailure? "qsort" base count width) := by
  have harray := array? g "qsort" base count width
  unfold Guest.qsort
  split <;> rename_i he <;> rw [he] at harray
  · exact harray
  · exact harray.before ⟨rfl, rfl⟩

theorem bsearch {σ : Type} (g : Guest) (key : Bytes) (base count width : Nat)
    (compare : Comparator σ Bytes) (s : σ) :
    Booked g (g.bsearch key base count width compare s).2.2
      (g.arrayFailure? "bsearch" base count width) := by
  have harray := array? g "bsearch" base count width
  unfold Guest.bsearch
  split <;> rename_i he <;> rw [he] at harray <;> exact harray

theorem rand (g : Guest) : Booked g g.rand.2 none := by
  unfold Guest.rand
  exact ⟨rfl, rfl⟩

/-- The end of a program books nothing. -/
theorem exit (g : Guest) (status : Int) : Booked g (g.exit status).2 none := by
  unfold Guest.exit fflush onSystem
  exact ⟨rfl, rfl⟩

end Booked

end Guest

open Guest in
/-- Every call books the failure that it ends with. -/
theorem LibraryCall.booked {α : Type} (g : Guest) (c : LibraryCall α) :
    Booked g (c.perform g).2 (c.failure? g) := by
  cases c with
  | malloc | calloc | realloc | free | freeAddress => exact Booked.onHeap g _
  | lookup call address => exact Booked.lookup g call address
  | reallocAddress address size => exact Booked.reallocAddress g address size
  | memmove dest src n => exact Booked.memmove g dest src n
  | qsort base count width compare s => exact Booked.qsort g base count width compare s
  | bsearch key base count width compare s =>
    exact Booked.bsearch g key base count width compare s
  | fopen | freopen | fclose | fgetc | getchar | ungetc | fputc | putchar | fputs | fwrite | fprint
  | print | printError | ftell | rewind | fgetpos | fsetpos | clearerr | perror | setvbufUser =>
    exact Booked.onStreams g _
  | fgets buf id => exact Booked.readInto g (·.readLine id buf)
  | fread buf id => exact Booked.readInto g (·.read id buf)
  | poll => exact Booked.poll g
  | puts s => exact Booked.puts g s
  | fflush id =>
    cases id with
    | none => exact .system g _
    | some id => exact Booked.onStreams g _
  | fseek id offset whence => exact Booked.fseek g id offset whence
  | setvbuf id mode size => exact Booked.setvbuf g id mode size
  | strcoll | remove | rename | tmpnam | tmpfile => exact Booked.misuse g _
  | gmtime t => exact Booked.convert g _
  | localtime t | ctime t => exact Booked.localtime g t
  | strtol | strtoul | strtod | strtof => exact Booked.converted g _
  | atexit handler => exact Booked.atexit g handler
  | atQuickExit handler => exact Booked.atQuickExit g handler
  | assertFail message file line => exact (Booked.onStreams g _).before (Booked.exit _ 1)
  | exit status => exact Booked.exit g status
  | abort => exact Booked.onHost g (·.emit _)
  | rand => exact Booked.rand g
  | memset | quickExit | srand => exact ⟨rfl, rfl⟩

/-- Every diagnostic is of one of the two classes. -/
def DiagnosticCounts.Balanced (counts : DiagnosticCounts) : Prop :=
  counts.total = counts.misuse + counts.unsupported

namespace DiagnosticCounts

variable {counts : DiagnosticCounts}

theorem total_record (counts : DiagnosticCounts) (d : Diagnostic) :
    (counts.record d).total = counts.total + 1 := by
  unfold record
  cases d.classOf <;> rfl

theorem Balanced.record (h : counts.Balanced) (d : Diagnostic) : (counts.record d).Balanced := by
  unfold Balanced at h ⊢
  unfold DiagnosticCounts.record
  cases d.classOf <;> dsimp only <;> omega

end DiagnosticCounts

namespace Guest

variable {host : Host} {config : GuestConfig} {g g' : Guest} {failure : Option Failure}

theorem Booked.balanced (hb : Booked g g' failure) (h : g.counts.Balanced) :
    g'.counts.Balanced := by
  rw [hb.counts_eq]
  cases failure.bind Failure.diagnostic? with
  | none => exact h
  | some d => exact h.record d

theorem Reachable.balanced (hr : Reachable host config g) : g.counts.Balanced := by
  induction hr with
  | start => rfl
  | step s _ ih =>
    cases s with
    | call c => exact (c.booked _).balanced ih
    | report d =>
      unfold Guest.step
      rw [counts_report]
      exact ih.record d
    | setErrorNumber | heap | drainLog | host => exact ih

/-- Whatever led to a state, a call of the library there raises at most one diagnostic, which is
that of its failure, and then leaves the error number of the class of the diagnostic. A call without
a failure leaves the error number and all counts as they are. -/
theorem failures_told_once (hr : Reachable host config g) {α : Type} (c : LibraryCall α) :
    let g' := (c.perform g).2
    g'.counts.total ≤ g.counts.total + 1 ∧
    g'.counts.total = g'.counts.misuse + g'.counts.unsupported ∧
    (g.counts.total < g'.counts.total →
      ∃ d, (c.failure? g).bind Failure.diagnostic? = some d ∧ g'.counts = g.counts.record d ∧
        g'.errorNumber = match d.classOf with
          | .misuse => ErrorNumber.invalid
          | .unsupported => ErrorNumber.notSupported) ∧
    (c.failure? g = none → g'.errorNumber = g.errorNumber ∧ g'.counts = g.counts) := by
  have hb := c.booked g
  have hcounts := hb.counts_eq
  refine ⟨?_, hb.balanced hr.balanced, fun hgrows => ?_, fun hnone => ?_⟩
  · rw [hcounts]
    cases (c.failure? g).bind Failure.diagnostic? with
    | none => exact Nat.le_succ _
    | some d => exact (g.counts.total_record d).le
  · cases hd : (c.failure? g).bind Failure.diagnostic? with
    | none =>
      rw [hcounts, hd] at hgrows
      exact absurd hgrows (Nat.lt_irrefl _)
    | some d =>
      obtain ⟨f, hf, hfd⟩ := Option.bind_eq_some_iff.mp hd
      rw [hd] at hcounts
      refine ⟨d, rfl, hcounts, ?_⟩
      rw [hb.errorNumber_eq, hf, Option.bind_some, Failure.errorNumber?_of_diagnostic? hfd]
      rfl
  · rw [hb.errorNumber_eq, hcounts, hnone]
    exact ⟨rfl, rfl⟩

theorem failures_told_once_remove :
    let g := Guest.start { arena := .ofBase 0 1 } {}
    (LibraryCall.remove.perform g).2.errorNumber = ErrorNumber.notSupported ∧
      ((LibraryCall.putchar 65).perform g).2.errorNumber = 0 := by
  intro g
  have hr : Reachable { arena := .ofBase 0 1 } {} g := .start
  obtain ⟨-, -, hremove, -⟩ := failures_told_once hr .remove
  obtain ⟨-, -, -, hputchar⟩ := failures_told_once hr (.putchar 65)
  have hgrows : g.counts.total < (LibraryCall.remove.perform g).2.counts.total := by decide +kernel
  have hnone : (LibraryCall.putchar 65).failure? g = none := by decide +kernel
  obtain ⟨d, hd, -, hnumber⟩ := hremove hgrows
  obtain rfl : Diagnostic.unsupported "remove" = d := Option.some.inj hd
  exact ⟨hnumber, (hputchar hnone).1⟩

end Guest
end GuestLibrary
