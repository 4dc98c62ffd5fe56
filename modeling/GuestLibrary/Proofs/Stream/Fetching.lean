import GuestLibrary.Proofs.Stream.Polling

/-! Fetched data reach the slot that asked for them and no other, along every run in which the
tickets do not wrap around: also when slots are opened anew while their old fetch is in flight, when
several wait for one name, and when resources or buffers change in the meantime. -/
namespace GuestLibrary

namespace Call

/-- The call gives up the fetch that a slot waits for. -/
def Abandons (id : StreamId) : Call → Prop
  | .close i => i = id
  | .reopen i _ mode => i = id ∧ mode = "rb"
  | _ => False

end Call

namespace StreamSystem

variable {sys : StreamSystem} {held : List Allocation} {n : Nat} {id : StreamId}

/-- The slot has these data of the resource of its name, with a NUL behind them, and none of them
was read. -/
structure Received (sys : StreamSystem) (id : StreamId) (name : String) (content : Bytes) :
    Prop where
  name_eq : (sys.streams.get id).name = some name
  ready : (sys.streams.get id).isReady = true
  extent_eq : (sys.streams.get id).extent = content.length
  cursor_eq : (sys.streams.get id).cursor = 0
  eof_eq : (sys.streams.get id).eof = false
  bytes_eq : (sys.streams.get id).bufferFront sys.host.arena.memory (content.length + 1) =
    content ++ [0]

/-- A poll passes a slot by, brings it its data, or tells that they will not come. -/
theorem Polled.cases (hp : sys.Polled id) (ht : Ticketed sys n) :
    (id ∉ sys.poll.1.ready ∧ id ∉ sys.poll.1.failed) ∨
    (id ∉ sys.poll.1.failed ∧ ∃ name content, sys.host.resource? name = some content ∧
      sys.poll.2.Received id name content) ∨
    (id ∉ sys.poll.1.ready ∧ sys.poll.1.failed.count id = 1 ∧
      sys.poll.2.streams.get id = (sys.streams.get id).failed) := by
  by_cases hidle : ∀ t, (sys.streams.get id).state = .opening t → sys.host.Holds t
  · obtain ⟨hready, hfailed, -⟩ := hp.idle hidle
    exact Or.inl ⟨hready, hfailed⟩
  · push Not at hidle
    obtain ⟨ticket, hstate, hreleased⟩ := hidle
    obtain ⟨name, -, hname, -⟩ := ht.waits id ticket hstate
    cases hcontent : sys.host.resource? name with
    | none => exact Or.inr (Or.inr (hp.failed ticket name hstate hname hreleased (Or.inl hcontent)))
    | some content =>
      cases hg : ((sys.turn id).heap.allocate (sys.turn id).host.arena (content.length + 1)).1 with
      | error e =>
        exact Or.inr (Or.inr (hp.failed ticket name hstate hname hreleased
          (Or.inr ⟨content, e, hcontent, hg⟩)))
      | ok g =>
        obtain ⟨-, hfailed, hstream, hbytes⟩ :=
          hp.arrived ticket name content g hstate hname hreleased hcontent hg
        refine Or.inr (Or.inl ⟨hfailed, name, content, hcontent, ?_, ?_, ?_, ?_, ?_, hbytes⟩)
        all_goals rw [hstream]
        · exact hname
        all_goals rfl

end StreamSystem

namespace Ticketed

open StreamSystem

variable {sys : StreamSystem} {held : List Allocation} {n ticket : Nat} {id : StreamId}
  {name : String}

/-- Nobody waits for the fetch of a slot that was closed. -/
theorem close_abandons (ht : Ticketed sys n) (hl : Ledger sys held)
    (hstate : (sys.streams.get id).state = .opening ticket)
    (hname : (sys.streams.get id).name = some name) :
    Abandoned (sys.close id).2 ticket name := by
  have hopen : (sys.streams.get id).isOpen = true := by simp [Stream.isOpen, hstate]
  obtain ⟨heap, he, -⟩ := hl.close hopen
  have hfetches := ((sys.streams.get id).drain_serves sys.host).fetching.fetches_eq
  obtain ⟨name', delivery, hname', hmem⟩ := ht.waits id ticket hstate
  obtain rfl := Option.some.inj (hname.symm.trans hname')
  rw [he]
  refine ⟨fun i hi => ?_, delivery, ?_⟩
  · dsimp only at hi
    rw [StreamTable.get_set] at hi
    split at hi
    · cases hi
    · rename_i hne
      exact hne (ht.apart i id ticket hi hstate)
  · dsimp only
    rw [hfetches]
    exact hmem

/-- Opening a slot anew closes it first. -/
theorem reopen_abandons (ht : Ticketed sys n) (hl : Ledger sys held)
    (hstate : (sys.streams.get id).state = .opening ticket)
    (hname : (sys.streams.get id).name = some name) (other : String)
    (hn : n + (sys.reopen id other "rb").1.toOption.toList.length < halfLimit) :
    Abandoned (sys.reopen id other "rb").2 ticket name := by
  have hopen : (sys.streams.get id).isOpen = true := by simp [Stream.isOpen, hstate]
  have habandoned := ht.close_abandons hl hstate hname
  obtain ⟨hclose, hclosed⟩ := sys.close_moves id
  have ht' : Ticketed (sys.close id).2 n := hclose.ticketed ht (by simp at hn ⊢; omega)
  obtain ⟨heap, he, -⟩ := hl.close hopen
  have hopened := openInto_moves (hclosed () (by rw [he])) other
  unfold reopen at hn ⊢
  rw [show modeError? "rb" = none from rfl, if_pos hopen] at hn ⊢
  rw [he] at hn habandoned ht' hopened ⊢
  dsimp only at hn habandoned ht' hopened ⊢
  split at hn <;> rename_i hr <;> rw [hr] at hopened <;>
    exact hopened.abandoned ht' hn habandoned

end Ticketed

namespace Client

open StreamSystem

variable {limits : HeapLimits} {host : Host} {c : Client} {ids : List StreamId}

/-- No slot waits at the start. -/
theorem idle_initial (i : StreamId) (ticket : Nat) :
    (StreamTable.initial.get i).state ≠ .opening ticket := by
  have hstates : ∀ i, (StreamTable.initial.get i).state = .closed ∨
      (StreamTable.initial.get i).state = .ready ∨
      (StreamTable.initial.get i).state = .unavailable := by decide
  intro hi
  rcases hstates i with h | h | h <;> rw [h] at hi <;> cases hi

/-- The system after a poll, once it is known in another form. -/
theorem system_poll {sys : StreamSystem} (h : c.system.poll.2 = sys) :
    (c.perform .poll).system = sys := by
  simp only [perform, serve, h]

theorem ticketed_start (hhost : host.Fresh) : Ticketed (start limits host).system 0 where
  next_eq := hhost.nextTicket_eq
  ticket_le f hf := by simp [start, hhost.fetches_eq] at hf
  nodup := by simp [start, hhost.fetches_eq]
  tabled := hhost.source_eq
  unloaded f hf := by simp [start, hhost.fetches_eq] at hf
  waits i t hi := absurd hi (idle_initial i t)
  apart i _ t hi _ := absurd hi (idle_initial i t)

/-- After a call that abandons a fetch, nobody waits for it. -/
theorem abandoned_perform {n ticket : Nat} {id : StreamId} {name : String} {call : Call}
    (ht : Ticketed c.system n) (hl : Ledger c.system c.held)
    (hstate : (c.system.streams.get id).state = .opening ticket)
    (hname : (c.system.streams.get id).name = some name) (hcall : call.Abandons id)
    (hn : n + (c.opens call).length < halfLimit) :
    Abandoned (c.perform call).system ticket name := by
  cases call with
  | close i =>
    obtain rfl : i = id := hcall
    exact ht.close_abandons hl hstate hname
  | reopen i other mode =>
    obtain ⟨rfl, rfl⟩ : i = id ∧ mode = "rb" := hcall
    exact ht.reopen_abandons hl hstate hname other hn
  | _ => exact hcall.elim

/-- A slot whose fetch failed is not reported again before it is opened. -/
theorem unreported_of_failed {c' : Client} {ids' : List StreamId} {n : Nat} {id : StreamId}
    (ht : Ticketed c.system n) (hl : Ledger c.system c.held)
    (hfailed : c.system.poll.2.streams.get id = (c.system.streams.get id).failed)
    (hr : Runs Entitled (c.perform .poll) ids' c') (hid : id ∉ ids')
    (hn : n + ids'.length < halfLimit) :
    id ∉ c'.system.poll.1.ready ∧ id ∉ c'.system.poll.1.failed := by
  have hl₁ : Ledger (c.perform .poll).system (c.perform .poll).held := hl.perform trivial
  have ht₁ : Ticketed (c.perform .poll).system n :=
    (perform_moves hl .poll).ticketed ht (by simp only [opens, List.length_nil]; omega)
  obtain ⟨hl', hm⟩ := hr.moves (fun _ _ he => he) hl₁
  have ht' := hm.ticketed ht₁ hn
  have hidle : ∀ t, ((c.perform .poll).system.streams.get id).state ≠ .opening t := by
    intro t
    rw [system_poll rfl, hfailed]
    simp [Stream.failed]
  obtain ⟨hready, hfailed, -⟩ := (ht'.polled hn hl' id).idle fun t hi =>
    absurd hi (hm.idle hid hidle t)
  exact ⟨hready, hfailed⟩

/-- A fetch that was abandoned stays with the host, and no slot ever waits for it again. -/
theorem outstanding_of_abandons {c' : Client} {ids' : List StreamId} {n ticket : Nat}
    {id : StreamId} {name : String} {call : Call} (ht : Ticketed c.system n)
    (hl : Ledger c.system c.held) (hstate : (c.system.streams.get id).state = .opening ticket)
    (hname : (c.system.streams.get id).name = some name) (hcall : call.Abandons id)
    (hr : Runs Entitled (c.perform call) ids' c')
    (hn : n + (c.opens call).length + ids'.length < halfLimit) :
    c'.system.host.Outstanding ticket name ∧
      ∀ j, (c'.system.streams.get j).state ≠ .opening ticket := by
  have hentitled : c.Entitled call := by
    cases call with
    | heap r => exact hcall.elim
    | _ => trivial
  have hn₁ : n + (c.opens call).length < halfLimit := by omega
  have hl₁ : Ledger (c.perform call).system (c.perform call).held := hl.perform hentitled
  have ht₁ := (perform_moves hl call).ticketed ht hn₁
  obtain ⟨-, hm⟩ := hr.moves (fun _ _ he => he) hl₁
  have ht' := hm.ticketed ht₁ hn
  obtain ⟨hunclaimed, delivery, hkept⟩ :=
    hm.abandoned ht₁ hn (abandoned_perform ht hl hstate hname hcall hn₁)
  exact ⟨⟨delivery, Host.filter_of_mem ht'.nodup hkept⟩, hunclaimed⟩

theorem Runs.ticketed (hhost : host.Fresh) (ha : host.arena.Simulated)
    (hr : Runs Entitled (start limits host) ids c) (hn : ids.length < halfLimit) :
    Ledger c.system c.held ∧ Ticketed c.system ids.length := by
  obtain ⟨hl, hm⟩ := hr.moves (fun _ _ he => he) (ledger_start ha)
  have ht := hm.ticketed (ticketed_start hhost) (by omega)
  rw [Nat.zero_add] at ht
  exact ⟨hl, ht⟩

/-- As long as there are fewer fetches than tickets, each slot that waits does so for an outstanding
fetch of its own name, which no other slot waits for. A poll brings it exactly the resource that is
registered under that name by then, or fails it when there is none or the heap has no room; a slot
that failed is not reported again before it is opened. A fetch that was abandoned stays with the
host, and no slot ever waits for it again. -/
theorem fetches_reach_their_slots (hhost : host.Fresh) (ha : host.arena.Simulated)
    (hr : Runs Entitled (start limits host) ids c) (hn : ids.length < halfLimit) :
    (∀ i ticket, (c.system.streams.get i).state = .opening ticket →
      (∃ name, (c.system.streams.get i).name = some name ∧
        c.system.host.Outstanding ticket name) ∧
      ∀ j, (c.system.streams.get j).state = .opening ticket → j = i) ∧
    (∀ i, c.system.Polled i) ∧
    (∀ i ∈ c.system.poll.1.ready, ∃ name content, c.system.host.resource? name = some content ∧
      c.system.poll.2.Received i name content) ∧
    (∀ i ∈ c.system.poll.1.failed, i ∉ c.system.poll.1.ready ∧
      c.system.poll.1.failed.count i = 1 ∧
      c.system.poll.2.streams.get i = (c.system.streams.get i).failed ∧
      ∀ ids' c', Runs Entitled (c.perform .poll) ids' c' → i ∉ ids' →
        ids.length + ids'.length < halfLimit →
          i ∉ c'.system.poll.1.ready ∧ i ∉ c'.system.poll.1.failed) ∧
    ∀ i ticket name call, (c.system.streams.get i).state = .opening ticket →
      (c.system.streams.get i).name = some name → call.Abandons i →
      ∀ ids' c', Runs Entitled (c.perform call) ids' c' →
        ids.length + (c.opens call).length + ids'.length < halfLimit →
          c'.system.host.Outstanding ticket name ∧
            ∀ j, (c'.system.streams.get j).state ≠ .opening ticket := by
  obtain ⟨hl, ht⟩ := hr.ticketed hhost ha hn
  have hp := fun i => ht.polled hn hl i
  refine ⟨fun i ticket hi => ?_, hp, fun i hi => ?_, fun i hi => ?_, ?_⟩
  · exact ⟨ht.outstanding hi, fun j hj => ht.apart j i ticket hj hi⟩
  · rcases (hp i).cases ht with ⟨hready, -⟩ | ⟨-, hreceived⟩ | ⟨hready, -, -⟩
    · exact absurd hi hready
    · exact hreceived
    · exact absurd hi hready
  · rcases (hp i).cases ht with ⟨-, hfailed⟩ | ⟨hfailed, -⟩ | ⟨hready, honce, hstream⟩
    · exact absurd hi hfailed
    · exact absurd hi hfailed
    · exact ⟨hready, honce, hstream, fun ids' c' hr' hid hn' =>
        unreported_of_failed ht hl hstream hr' hid hn'⟩
  · intro i ticket name call hi hname hcall ids' c' hr' hn'
    exact outstanding_of_abandons ht hl hi hname hcall hr' hn'

/-- A poll passes the standard streams by. -/
theorem turn_first (s : Stream) (heap : Heap) (host : Host) :
    StreamSystem.turn ⟨StreamTable.initial.set .first s, heap, host⟩ .first =
      ⟨StreamTable.initial.set .first s, heap, host⟩ := by
  have hids : (List.finRange streamSlots).take StreamId.first =
      [StreamId.stdin, StreamId.stdout, StreamId.stderr] := by decide
  have hstate : ∀ i ∈ [StreamId.stdin, .stdout, .stderr], i ≠ .first ∧
      ((StreamTable.initial.get i).state = .ready ∨
        (StreamTable.initial.get i).state = .unavailable) := by decide
  have hskip : ∀ i ∈ [StreamId.stdin, .stdout, .stderr], ∀ report,
      pollSlot (report, ⟨StreamTable.initial.set .first s, heap, host⟩) i =
        (report, ⟨StreamTable.initial.set .first s, heap, host⟩) := by
    intro i hi report
    obtain ⟨hne, hstate⟩ := hstate i hi
    unfold pollSlot
    dsimp only
    rw [StreamTable.get_set_of_ne hne]
    rcases hstate with h | h <;> rw [h]
  simp [StreamSystem.turn, pollEach, hids, hskip]

/-- The first slot is opened, and the heap has room left for its data. -/
theorem open_first (hbase : host.arena.heapBase = 0) (hsize : host.arena.memory.size = 65536) :
    ∃ heap arena,
      Runs Entitled (start ⟨1, 2⟩ host) [.first]
        ((start ⟨1, 2⟩ host).perform (.openStream "a" "rb")) ∧
      ((start ⟨1, 2⟩ host).perform (.openStream "a" "rb")).system =
        ⟨StreamTable.initial.set .first (.opening host.nextTicket ⟨0, 4, 32764⟩ "a"), heap,
          ({ host with arena }.fetch "a").2⟩ ∧
      ∀ arena, (heap.allocate arena 3).1 = .ok ⟨1, 32772, 32764⟩ := by
  obtain ⟨heap, arena, hopened, hroom⟩ := openStream_first hbase hsize
  refine ⟨heap, arena, ?_, system_openStream (congrArg (·.2) hopened), hroom⟩
  have hids : (start ⟨1, 2⟩ host).opens (.openStream "a" "rb") = [.first] := by
    simp only [opens, hopened]
    rfl
  have hr := (@Runs.refl Entitled (start ⟨1, 2⟩ host)).call (.openStream "a" "rb") trivial
  rwa [hids] at hr

/-- A host that delivers a resource of two bytes at once. -/
def deliveringHost : Host :=
  { arena := .ofBase 0 1, source := .table [("a", [104, 105])] true }

/-- A poll brings the first slot the two bytes. -/
theorem arrived_first {sys : StreamSystem} {heap : Heap} {arena : Arena}
    (hsys : sys = ⟨StreamTable.initial.set .first (.opening 1 ⟨0, 4, 32764⟩ "a"), heap,
      ({ deliveringHost with arena }.fetch "a").2⟩)
    (hroom : ∀ arena, (heap.allocate arena 3).1 = .ok ⟨1, 32772, 32764⟩)
    (hp : sys.Polled .first) :
    sys.poll.1.ready.count .first = 1 ∧
      sys.poll.2.streams.get .first =
        (Stream.opening 1 ⟨0, 4, 32764⟩ "a").delivered ⟨1, 32772, 32764⟩ [104, 105] ∧
      (sys.poll.2.streams.get .first).bufferFront sys.poll.2.host.arena.memory 3 =
        [104, 105, 0] := by
  subst hsys
  obtain ⟨hcount, -, hstream, hbytes⟩ := hp.arrived 1 "a" [104, 105] ⟨1, 32772, 32764⟩
    (by simp [Stream.opening]) (by simp [Stream.opening])
    (by simp [Host.Holds, Host.fetch, deliveringHost]) rfl (by rw [turn_first]; exact hroom _)
  rw [StreamTable.get_set_self] at hstream
  exact ⟨hcount, hstream, hbytes⟩

theorem fetches_reach_their_slots_first : ∃ c,
    Runs Entitled (start ⟨1, 2⟩ deliveringHost) [.first] c ∧
    c.system.poll.1.ready.count .first = 1 ∧
    (c.system.poll.2.streams.get .first).bufferFront c.system.poll.2.host.arena.memory 3 =
      [104, 105, 0] := by
  obtain ⟨heap, arena, hr, hsys, hroom⟩ := @open_first deliveringHost rfl Heap.size_onePage
  obtain ⟨-, hpolled, -⟩ :=
    fetches_reach_their_slots ⟨rfl, rfl, _, _, rfl⟩ (.ofBase 0 1) hr (by decide)
  obtain ⟨hcount, -, hbytes⟩ := arrived_first hsys hroom (hpolled .first)
  exact ⟨_, hr, hcount, hbytes⟩

end Client
end GuestLibrary
