import GuestLibrary.Proofs.Guest.Twins

/-! Whatever a program does, reporting its diagnostics or only counting them makes no difference but
for the lines of the reports on the console: every call keeps the programs twins. -/
namespace GuestLibrary

open StreamSystem

theorem HostEvent.apply_after (e : HostEvent) (h : Host) (front : Console) :
    e.apply (h.after front) = (e.apply h).after front := by
  cases e with
  | addResource name content => exact h.addResource_after front name content
  | poke _ _ | completeFetches | setNow _ | setZone _ | advanceClock _ => rfl

theorem ExitHandlers.handlers_of_register {α : Type} {h h' : ExitHandlers α} {handler : α}
    (hr : h.register? handler = some h') : h'.handlers = handler :: h.handlers := by
  unfold register? at hr
  split at hr
  · cases hr
    rfl
  · cases hr

namespace Guest

/-- Makes steps one after the other: their answers, and the program after them. -/
def run (g : Guest) : List Step → List Answer × Guest
  | [] => ([], g)
  | s :: rest =>
    let (answer, g) := g.step s
    let (answers, g) := g.run rest
    (answer :: answers, g)

/-- The calls that only read, by the type of what they answer. -/
inductive Query : Type → Type
  | bytes (grant : Allocation) : Query Bytes
  | isReady (id : StreamId) : Query Bool
  | feof (id : StreamId) : Query Bool
  | ferror (id : StreamId) : Query Bool
  | buffered (id : StreamId) : Query Bytes
  | time : Query Int
  | clock : Query Int
  | strftime (out format : Bytes) (c : Calendar) : Query (Nat × Bytes)
  | errorNumber : Query Int
  | counts : Query DiagnosticCounts

def Query.answer (g : Guest) : {α : Type} → Query α → α
  | _, bytes grant => g.bytes grant
  | _, isReady id => g.streams.isReady id
  | _, feof id => g.streams.eof id
  | _, ferror id => g.streams.error id
  | _, buffered id => g.buffered id
  | _, time => g.time
  | _, clock => g.clock
  | _, strftime out format c => g.strftime out format c
  | _, errorNumber => g.errorNumber
  | _, counts => g.counts

variable {clearing : Prop} {before : Console} {loud quiet : Guest} {α : Type}

theorem Query.answer_muted (g : Guest) (query : Query α) :
    query.answer g.muted = query.answer g := by
  cases query <;> rfl

namespace Twins

theorem lookup (ht : Twins clearing before loud quiet) (call : HeapCall) (address : Nat) :
    Agree clearing before (loud.lookup call address) (quiet.lookup call address) := by
  unfold Guest.lookup
  rw [ht.heap_eq]
  cases quiet.heap.lookup call address with
  | ok _ => exact ⟨rfl, ht⟩
  | error d => exact ⟨rfl, ht.misuse d⟩

theorem reallocAddress (ht : Twins clearing before loud quiet) (address size : Nat) :
    Agree clearing before (loud.reallocAddress address size)
      (quiet.reallocAddress address size) := by
  have hresize : ∀ (grant : Option Allocation) (g₁ g₂ : Guest), Twins clearing before g₁ g₂ →
      Agree clearing before
        ((g₁.realloc grant size).1.elim 0 (·.address), (g₁.realloc grant size).2)
        ((g₂.realloc grant size).1.elim 0 (·.address), (g₂.realloc grant size).2) := by
    intro grant g₁ g₂ ht
    have ha := ht.onHeap fun h a => h.reallocate a grant size
    exact ⟨congrArg (·.elim 0 (·.address)) ha.answer_eq, ha.twins⟩
  obtain ⟨r, g₁, g₂, hx, hy, ht'⟩ := (ht.lookup .realloc address).eq
  unfold Guest.reallocAddress
  dsimp only
  split
  · exact hresize none _ _ ht
  · rw [hx, hy]
    cases r with
    | none => exact ⟨rfl, ht'⟩
    | some grant => exact hresize (some grant) _ _ ht'

theorem inMemory (ht : Twins clearing before loud quiet) (call : String) (address n : Nat) :
    Agree clearing before (loud.inMemory call address n) (quiet.inMemory call address n) := by
  unfold Guest.inMemory Guest.memory
  have harena : loud.system.host.arena = quiet.system.host.arena := ht.arena_eq
  rw [harena]
  split
  · exact ⟨rfl, ht⟩
  · exact ⟨rfl, ht.misuse _⟩

theorem memmove (ht : Twins clearing before loud quiet) (dest src n : Nat) :
    Agree clearing before (loud.memmove dest src n) (quiet.memmove dest src n) := by
  obtain ⟨inside, g₁, g₂, hx, hy, ht₁⟩ := (ht.inMemory "memmove" dest n).eq
  obtain ⟨inside', g₁', g₂', hx', hy', ht₂⟩ := (ht₁.inMemory "memmove" src n).eq
  unfold Guest.memmove
  rw [hx, hy]
  cases inside with
  | false => exact ⟨rfl, ht₁⟩
  | true =>
    dsimp only
    rw [hx', hy']
    cases inside' with
    | false => exact ⟨rfl, ht₂⟩
    | true =>
      dsimp only
      split
      · exact ⟨rfl, ht₂.onArena (·.copyWithin src n dest)⟩
      · exact ⟨rfl, ht₂⟩

theorem memset (ht : Twins clearing before loud quiet) (address : Nat) (value : UInt8) (n : Nat) :
    Agree clearing before (loud.memset address value n) (quiet.memset address value n) := by
  unfold Guest.memset Guest.memory
  have harena : loud.system.host.arena = quiet.system.host.arena := ht.arena_eq
  rw [harena]
  exact ⟨rfl, ht.write address _⟩

theorem array? (ht : Twins clearing before loud quiet) (call : String) (base count width : Nat) :
    Agree clearing before (loud.array? call base count width)
      (quiet.array? call base count width) := by
  obtain ⟨inside, g₁, g₂, hx, hy, ht'⟩ := (ht.inMemory call base (count * width)).eq
  unfold Guest.array?
  dsimp only
  split
  · exact ⟨rfl, ht.misuse _⟩
  · rw [hx, hy]
    cases inside with
    | false => exact ⟨rfl, ht'⟩
    | true =>
      unfold Guest.memory
      have harena : g₁.system.host.arena = g₂.system.host.arena := ht'.arena_eq
      dsimp only
      rw [harena]
      exact ⟨rfl, ht'⟩

theorem qsort {σ : Type} (ht : Twins clearing before loud quiet) (base count width : Nat)
    (compare : Comparator σ Bytes) (s : σ) :
    Agree clearing before (loud.qsort base count width compare s)
      (quiet.qsort base count width compare s) := by
  obtain ⟨block, g₁, g₂, hx, hy, ht'⟩ := (ht.array? "qsort" base count width).eq
  unfold Guest.qsort
  rw [hx, hy]
  cases block with
  | none => exact ⟨rfl, ht'⟩
  | some block => exact ⟨rfl, ht'.write base _⟩

theorem bsearch {σ : Type} (ht : Twins clearing before loud quiet) (key : Bytes)
    (base count width : Nat) (compare : Comparator σ Bytes) (s : σ) :
    Agree clearing before ((LibraryCall.bsearch key base count width compare s).perform loud)
      ((LibraryCall.bsearch key base count width compare s).perform quiet) := by
  obtain ⟨block, g₁, g₂, hx, hy, ht'⟩ := (ht.array? "bsearch" base count width).eq
  dsimp only [LibraryCall.perform]
  unfold Guest.bsearch
  rw [hx, hy]
  cases block with
  | none => exact ⟨rfl, ht'⟩
  | some block => exact ⟨rfl, ht'⟩

theorem fgetc (ht : Twins clearing before loud quiet) (id : StreamId) :
    Agree clearing before (loud.fgetc id) (quiet.fgetc id) :=
  (ht.onStreams (oblivious_readByte id)).byte

theorem fputc (ht : Twins clearing before loud quiet) (b : UInt8) (id : StreamId) :
    Agree clearing before (loud.fputc b id) (quiet.fputc b id) :=
  (ht.onStreams (oblivious_writeByte id b)).byte

theorem fputs (ht : Twins clearing before loud quiet) (s : Bytes) (id : StreamId) :
    Agree clearing before (loud.fputs s id) (quiet.fputs s id) :=
  (ht.onStreams (oblivious_write id _)).tally

theorem puts (ht : Twins clearing before loud quiet) (s : Bytes) :
    Agree clearing before (loud.puts s) (quiet.puts s) := by
  obtain ⟨written, g₁, g₂, hx, hy, ht'⟩ := (ht.fputs s .stdout).eq
  unfold Guest.puts
  rw [hx, hy]
  dsimp only
  split
  · exact ⟨rfl, ht'⟩
  · exact (ht'.fputc 10 .stdout).map fun r =>
      if r = eof then eof else min (written + 1) SignedRange.int.greatest

theorem fprint (ht : Twins clearing before loud quiet) (id : StreamId) (pieces : List Bytes) :
    Agree clearing before (loud.fprint id pieces) (quiet.fprint id pieces) :=
  (ht.onStreams (oblivious_writePieces id pieces)).tally

theorem fflush (ht : Twins clearing before loud quiet) (id : Option StreamId) :
    Agree clearing before (loud.fflush id) (quiet.fflush id) := by
  cases id with
  | some id => exact (ht.onStreams (oblivious_flush id)).status
  | none =>
    have hflush : Oblivious fun sys => ((0 : Int), sys.flushAll) := by
      intro sys front
      dsimp only
      rw [flushAll_after]
    exact ht.onSystem hflush

theorem poll (ht : Twins clearing before loud quiet) :
    Agree clearing before loud.poll quiet.poll := by
  obtain ⟨report, g₁, g₂, hx, hy, ht'⟩ := (ht.onSystem oblivious_poll).eq
  unfold Guest.poll
  rw [hx, hy]
  dsimp only
  split
  · exact ⟨rfl, ht'⟩
  · exact ⟨rfl, ht'.setErrorNumber _⟩

theorem fseek (ht : Twins clearing before loud quiet) (id : StreamId) (offset whence : Int) :
    Agree clearing before (loud.fseek id offset whence) (quiet.fseek id offset whence) := by
  unfold Guest.fseek
  cases Whence.ofCode? whence with
  | none => exact ⟨rfl, ht.setErrorNumber _⟩
  | some whence => exact (ht.onStreams (oblivious_seek id offset whence)).status

theorem setvbuf (ht : Twins clearing before loud quiet) (id : StreamId) (mode : Int) (size : Nat) :
    Agree clearing before (loud.setvbuf id mode size) (quiet.setvbuf id mode size) := by
  unfold Guest.setvbuf
  cases BufferMode.ofCode? mode with
  | none => exact ⟨rfl, ht.misuse _⟩
  | some mode => exact (ht.onStreams (oblivious_setBufferMode id mode size)).status

theorem perror (ht : Twins clearing before loud quiet) (message : String) :
    Twins clearing before (loud.perror message) (quiet.perror message) := by
  unfold Guest.perror
  rw [ht.errorNumber_eq]
  exact (ht.fprint .stderr _).twins

theorem convert (ht : Twins clearing before loud quiet) (c : Option Calendar) :
    Agree clearing before (loud.convert c) (quiet.convert c) := by
  cases c with
  | none => exact ⟨rfl, ht.setErrorNumber _⟩
  | some c =>
    cases ht with
    | mk g p q h => exact ⟨rfl, mk { g with calendar := c } p q ⟨h.output, h.blind⟩⟩

theorem localtime (ht : Twins clearing before loud quiet) (t : Int) :
    Agree clearing before (loud.localtime t) (quiet.localtime t) := by
  unfold Guest.localtime
  rw [ht.minutesWest_eq]
  exact ht.convert _

theorem converted (ht : Twins clearing before loud quiet) (r : Numeral.Reading α) :
    Agree clearing before (loud.converted r) (quiet.converted r) := by
  unfold Guest.converted
  cases r.status with
  | success => exact ⟨rfl, ht⟩
  | outOfRange | invalidBase => exact ⟨rfl, ht.setErrorNumber _⟩

theorem rand (ht : Twins clearing before loud quiet) :
    Agree clearing before loud.rand quiet.rand := by
  cases ht with
  | mk g p q h => exact ⟨rfl, mk { g with random := g.random.next.2 } p q ⟨h.output, h.blind⟩⟩

theorem srand (ht : Twins clearing before loud quiet) (seed : UInt32) :
    Twins clearing before (loud.srand seed) (quiet.srand seed) := by
  cases ht with
  | mk g p q h => exact mk (g.srand seed) p q ⟨h.output, h.blind⟩

theorem atexit (ht : Twins clearing before loud quiet) {handler : ExitHandler}
    (hh : handler.Blind clearing) :
    Agree clearing before (loud.atexit handler) (quiet.atexit handler) := by
  cases ht with
  | mk g p q h =>
    have hsame : ∀ mode front, (g.heard mode front).exitHandlers = g.exitHandlers := fun _ _ => rfl
    unfold Guest.atexit
    rw [hsame, hsame]
    cases hr : g.exitHandlers.register? handler with
    | none => exact ⟨rfl, (mk g p q h).setErrorNumber _⟩
    | some exitHandlers =>
      have hnew := ExitHandlers.handlers_of_register hr
      refine ⟨rfl, mk { g with exitHandlers } p q ⟨h.output, ?_⟩⟩
      rw [hnew]
      exact List.forall_mem_cons.2 ⟨hh, h.blind⟩

theorem atQuickExit (ht : Twins clearing before loud quiet) {handler : ExitHandler}
    (hh : handler.Blind clearing) :
    Agree clearing before (loud.atQuickExit handler) (quiet.atQuickExit handler) := by
  cases ht with
  | mk g p q h =>
    have hsame : ∀ mode front,
        (g.heard mode front).quickExitHandlers = g.quickExitHandlers := fun _ _ => rfl
    unfold Guest.atQuickExit
    rw [hsame, hsame]
    cases hr : g.quickExitHandlers.register? handler with
    | none => exact ⟨rfl, (mk g p q h).setErrorNumber _⟩
    | some quickExitHandlers =>
      have hnew := ExitHandlers.handlers_of_register hr
      obtain ⟨hexit, hquick⟩ := List.forall_mem_append.1 h.blind
      refine ⟨rfl, mk { g with quickExitHandlers } p q ⟨h.output, ?_⟩⟩
      rw [hnew]
      exact List.forall_mem_append.2 ⟨hexit, List.forall_mem_cons.2 ⟨hh, hquick⟩⟩

theorem exit (ht : Twins clearing before loud quiet) (status : Int) :
    Agree clearing before (loud.exit status) (quiet.exit status) := by
  have htaken : Twins clearing before { loud with exitHandlers := {} }
        { quiet with exitHandlers := {} } ∧
      loud.exitHandlers = quiet.exitHandlers ∧
      ∀ f ∈ quiet.exitHandlers.handlers, ExitHandler.Blind clearing f := by
    cases ht with
    | mk g p q h =>
      obtain ⟨hexit, hquick⟩ := List.forall_mem_append.1 h.blind
      exact ⟨mk { g with exitHandlers := {} } p q ⟨h.output, hquick⟩, rfl, hexit⟩
  obtain ⟨ht', heq, hblind⟩ := htaken
  unfold Guest.exit ExitHandlers.take
  rw [heq]
  exact ⟨rfl, ((ht'.runHandlers hblind).fflush none).twins⟩

theorem quickExit (ht : Twins clearing before loud quiet) (status : Int) :
    Agree clearing before (loud.quickExit status) (quiet.quickExit status) := by
  have htaken : Twins clearing before { loud with quickExitHandlers := {} }
        { quiet with quickExitHandlers := {} } ∧
      loud.quickExitHandlers = quiet.quickExitHandlers ∧
      ∀ f ∈ quiet.quickExitHandlers.handlers, ExitHandler.Blind clearing f := by
    cases ht with
    | mk g p q h =>
      obtain ⟨hexit, hquick⟩ := List.forall_mem_append.1 h.blind
      refine ⟨mk { g with quickExitHandlers := {} } p q ⟨h.output, ?_⟩, rfl, hquick⟩
      exact List.forall_mem_append.2 ⟨hexit, by simp⟩
  obtain ⟨ht', heq, hblind⟩ := htaken
  unfold Guest.quickExit ExitHandlers.take
  rw [heq]
  exact ⟨rfl, ht'.runHandlers hblind⟩

theorem abort (ht : Twins clearing before loud quiet) :
    Agree clearing before loud.abort quiet.abort :=
  ⟨rfl, onHost (f := (·.emit (Bytes.ofText "Program aborted\n"))) ht fun h front =>
    Host.emit_after h front _⟩

theorem assertFail (ht : Twins clearing before loud quiet) (message file line : String) :
    Agree clearing before (loud.assertFail message file line)
      (quiet.assertFail message file line) :=
  (ht.fprint .stderr _).twins.exit 1

/-- A call answers both alike, and does the same to both. -/
theorem perform (ht : Twins clearing before loud quiet) (c : LibraryCall α)
    (hc : c.Discreet clearing) : Agree clearing before (c.perform loud) (c.perform quiet) := by
  cases c with
  | malloc size => exact ht.onHeap fun h a => h.allocate a size
  | calloc count size => exact ht.onHeap fun h a => h.allocateZeroed a count size
  | realloc grant size => exact ht.onHeap fun h a => h.reallocate a grant size
  | free _ => exact ⟨rfl, (ht.onHeap _).twins⟩
  | lookup call address => exact ht.lookup call address
  | freeAddress _ => exact ⟨rfl, (ht.onHeap _).twins⟩
  | reallocAddress address size => exact ht.reallocAddress address size
  | memmove dest src n => exact ht.memmove dest src n
  | memset address value n => exact ht.memset address value n
  | strcoll | remove | rename | tmpnam | tmpfile => exact ⟨rfl, ht.misuse _⟩
  | qsort base count width compare s => exact ht.qsort base count width compare s
  | bsearch key base count width compare s => exact ht.bsearch key base count width compare s
  | fopen name mode => exact ht.onStreams (oblivious_openStream name mode)
  | freopen name mode id => exact ht.onStreams (oblivious_reopen id name mode)
  | fclose id => exact (ht.onStreams (oblivious_close id)).status
  | poll => exact ht.poll
  | fgetc id => exact ht.fgetc id
  | getchar => exact ht.fgetc .stdin
  | fgets buf id =>
    obtain ⟨_, _, _, _, hx, hy, ht'⟩ := ht.readInto (obliviousRead_readLine id buf)
    dsimp only [LibraryCall.perform, Guest.fgets]
    rw [hx, hy]
    exact ⟨rfl, ht'⟩
  | fread buf id =>
    obtain ⟨_, _, _, _, hx, hy, ht'⟩ := ht.readInto (obliviousRead_read id buf)
    dsimp only [LibraryCall.perform, Guest.fread]
    rw [hx, hy]
    exact ⟨rfl, ht'⟩
  | ungetc b id => exact (ht.onStreams (oblivious_pushBack id b)).byte
  | fputc b id => exact ht.fputc b id
  | putchar b => exact ht.fputc b .stdout
  | fputs s id => exact ht.fputs s id
  | puts s => exact ht.puts s
  | fwrite block id => exact (ht.onStreams (oblivious_write id block)).map (·.getD 0)
  | fprint id pieces => exact ht.fprint id pieces
  | print pieces => exact ht.fprint .stdout pieces
  | printError pieces => exact ht.fprint .stderr pieces
  | fflush id => exact ht.fflush id
  | fseek id offset whence => exact ht.fseek id offset whence
  | ftell id => exact (ht.onStreams (oblivious_tell id)).map fun r => r.elim (-1) fun n => (n : Int)
  | rewind id => exact ⟨rfl, (ht.onStreams (oblivious_rewind id)).twins⟩
  | fgetpos id => exact ht.onStreams (oblivious_tell id)
  | fsetpos id _ => exact (ht.onStreams (oblivious_seek id _ .start)).status
  | clearerr id => exact ⟨rfl, (ht.onStreams (oblivious_clearError id)).twins⟩
  | perror message => exact ⟨rfl, ht.perror message⟩
  | setvbuf id mode size => exact ht.setvbuf id mode size
  | setvbufUser id grant mode =>
    exact (ht.onStreams (oblivious_setUserBuffer id grant mode)).status
  | gmtime _ => exact ht.convert _
  | localtime t => exact ht.localtime t
  | ctime t => exact (ht.localtime t).map _
  | strtol _ _ | strtoul _ _ | strtod _ | strtof _ => exact ht.converted _
  | rand => exact ht.rand
  | srand seed => exact ⟨rfl, ht.srand seed⟩
  | atexit _ => exact ht.atexit hc
  | atQuickExit _ => exact ht.atQuickExit hc
  | exit status => exact ht.exit status
  | quickExit status => exact ht.quickExit status
  | abort => exact ht.abort
  | assertFail message file line => exact ht.assertFail message file line

theorem step (ht : Twins clearing before loud quiet) (s : Step) (hs : s.Discreet clearing) :
    Agree clearing before (loud.step s) (quiet.step s) := by
  cases s with
  | call c => exact (ht.perform c hs).map fun r => (⟨_, r⟩ : Answer)
  | setErrorNumber number => exact ⟨rfl, ht.setErrorNumber number⟩
  | report d => exact ⟨rfl, ht.report d⟩
  | heap r =>
    have hheap : Oblivious (·.request r) := fun _ _ => rfl
    exact (ht.onSystem hheap).map fun r => (⟨_, r⟩ : Answer)
  | drainLog =>
    have hlog : Oblivious fun sys =>
        (sys.heap.drainLog.1, ⟨sys.streams, sys.heap.drainLog.2, sys.host⟩) := fun _ _ => rfl
    exact (ht.onSystem hlog).map fun records => (⟨_, records⟩ : Answer)
  | host e => exact ⟨rfl, onHost (f := e.apply) ht fun h front => e.apply_after h front⟩

/-- Both make the same steps with the same answers. -/
theorem run (ht : Twins clearing before loud quiet) (steps : List Step)
    (hs : ∀ s ∈ steps, s.Discreet clearing) :
    Agree clearing before (loud.run steps) (quiet.run steps) := by
  induction steps generalizing loud quiet with
  | nil => exact ⟨rfl, ht⟩
  | cons s rest ih =>
    obtain ⟨hs, hrest⟩ := List.forall_mem_cons.1 hs
    obtain ⟨answer, g₁, g₂, hx, hy, ht'⟩ := (ht.step s hs).eq
    dsimp only [Guest.run]
    rw [hx, hy]
    exact (ih ht' hrest).map (answer :: ·)

theorem start (host : Host) (limits : HeapLimits) : Twins clearing host.console
    (Guest.start host ⟨.report, limits⟩) (Guest.start host ⟨.silent, limits⟩) := by
  have hstart : ∀ mode, Guest.start host ⟨mode, limits⟩ =
      (Guest.start { host with console := {} } ⟨mode, limits⟩).heard mode host.console := by
    intro mode
    unfold Guest.start heard StreamSystem.after Host.after
    dsimp only
    rw [Console.empty_after]
  rw [hstart, hstart]
  exact mk (Guest.start { host with console := {} } ⟨.silent, limits⟩) _ _
    ⟨⟨[], rfl, rfl, rfl, by simp⟩, by simp [Guest.start]⟩

end Twins

/-- Of two programs that start on the same host and make the same steps, one that reports its
diagnostics and one that only counts them, with handlers that do not read the console: they answer
alike, end alike but for their consoles, and read alike. The consoles went through the same outputs,
only without the reports on the silent one, and there was one report for every diagnostic counted;
no console was emptied if no handler does that. The steps are any, so this is so after each. -/
theorem silence_changes_console_only (host : Host) (limits : HeapLimits) (steps : List Step)
    (clearing : Prop) (hs : ∀ s ∈ steps, s.Discreet clearing) :
    let loud := (Guest.start host ⟨.report, limits⟩).run steps
    let quiet := (Guest.start host ⟨.silent, limits⟩).run steps
    loud.1 = quiet.1 ∧ loud.2.muted = quiet.2.muted ∧
    (∀ {α : Type} (query : Query α), query.answer loud.2 = query.answer quiet.2) ∧
    ∃ out : List Output,
      loud.2.host.console = host.console.replay out ∧
      quiet.2.host.console = host.console.replay (unreported out) ∧
      loud.2.counts = (out.filterMap Output.diagnostic?).foldl DiagnosticCounts.record {} ∧
      (.cleared ∈ out → clearing) := by
  have hrun := (Twins.start host limits).run steps hs
  refine ⟨hrun.answer_eq, hrun.twins.muted_eq, fun query => ?_, hrun.twins.outputs⟩
  rw [← query.answer_muted, hrun.twins.muted_eq, query.answer_muted]

/-- A report while output waits in a stream stands in front of that output, and is all that the
silent console lacks. -/
theorem silence_changes_console_only_exit :
    let steps : List Step := [.call (.atexit (·.push [66])), .call (.fputs [72, 105] .stdout),
      .call .remove, .call (.exit 0)]
    let loud := ((Guest.start { arena := .ofBase 0 1 } ⟨.report, {}⟩).run steps).2
    let quiet := ((Guest.start { arena := .ofBase 0 1 } ⟨.silent, {}⟩).run steps).2
    (∀ s ∈ steps, s.Discreet False) ∧
      loud.muted = quiet.muted ∧ quiet.errorNumber = ErrorNumber.notSupported ∧
      loud.host.console.chunks = #[reportLine (.unsupported "remove"), [66], [72, 105]] ∧
      quiet.host.console.chunks = #[[66], [72, 105]] := by
  intro steps loud quiet
  have hblind : ExitHandler.Blind False (·.push [66]) :=
    ⟨[.printed [66]], by simp [Output.diagnostic?], by simp, fun _ => rfl⟩
  have hs : ∀ s ∈ steps, s.Discreet False := by
    simp [steps, Step.Discreet, LibraryCall.Discreet, hblind]
  obtain ⟨-, hmuted, hquery, -⟩ :=
    silence_changes_console_only { arena := .ofBase 0 1 } {} steps False hs
  have hnumber : loud.errorNumber = ErrorNumber.notSupported := by decide +kernel
  exact ⟨hs, hmuted, (hquery .errorNumber).symm.trans hnumber, by decide +kernel, by decide +kernel⟩

end Guest
end GuestLibrary
