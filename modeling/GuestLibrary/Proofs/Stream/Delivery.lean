import GuestLibrary.Proofs.Stream.Operations

/-! How a fetch ends. What a slot gets from a poll depends on the outcome of the fetch it waits for
and on whether the heap has room for the data; the data that a slot receives are in a grant that no
other call knows of yet, with a NUL behind them. -/
namespace GuestLibrary

/-- A fetch that is not complete stays as it is. -/
theorem Host.poll_of_pending {h : Host} {ticket : Nat} (hp : (h.poll ticket).1 = .pending) :
    (h.poll ticket).2 = h := by
  unfold poll at hp ⊢
  dsimp only at hp ⊢
  split at hp
  · cases hp
  · split at hp
    · rfl
    all_goals
      dsimp only at hp
      split at hp <;> cases hp

namespace StreamSystem

variable {sys : StreamSystem} {id : StreamId}

/-- Allocating a buffer is an allocation on the heap, of which the fetches know nothing. -/
theorem allocateBuffer_eq {size : Nat} {r : Except StreamError Allocation} {heap : Heap}
    {host : Host} (he : sys.allocateBuffer size = (r, ⟨sys.streams, heap, host⟩)) :
    (∀ g, r = .ok g → (sys.heap.allocate sys.host.arena size).1 = .ok g) ∧
      (∀ e, r = .error (.alloc e) → (sys.heap.allocate sys.host.arena size).1 = .error e) ∧
      sys.host.SameFetches host := by
  have heq : sys.allocateBuffer size =
    ((sys.heap.allocate sys.host.arena size).1.mapError .alloc,
      ⟨sys.streams, (sys.heap.allocate sys.host.arena size).2.1,
        { sys.host with arena := (sys.heap.allocate sys.host.arena size).2.2 }⟩) := rfl
  rw [he] at heq
  obtain ⟨hr, hsys⟩ := Prod.mk.inj heq
  have hhost := congrArg StreamSystem.host hsys
  refine ⟨?_, ?_, by rw [show host = _ from hhost]; exact ⟨rfl, rfl, rfl⟩⟩ <;> rw [hr] <;>
    cases (sys.heap.allocate sys.host.arena size).1 <;> simp [Except.mapError]

/-- What became of the slot `id` when a poll came to it. -/
inductive Arrival (sys : StreamSystem) (id : StreamId) (report : PollReport) :
    PollReport × StreamSystem → Prop
  | idle : (∀ ticket, (sys.streams.get id).state = .opening ticket →
      (sys.host.poll ticket).1 = .pending) → Arrival sys id report (report, sys)
  | failed {ticket : Nat} {heap : Heap} {host : Host} :
      (sys.streams.get id).state = .opening ticket →
      ((sys.host.poll ticket).1 = .failed ∨ ∃ content e,
        (sys.host.poll ticket).1 = .ready content ∧
        (sys.heap.allocate sys.host.arena (content.length + 1)).1 = .error e) →
      (sys.host.poll ticket).2.SameFetches host →
      Arrival sys id report ({ report with failed := report.failed ++ [id] },
        ⟨sys.streams.set id (sys.streams.get id).failed, heap, host⟩)
  | arrived {ticket : Nat} {content : Bytes} {g : Allocation} {heap : Heap} {host : Host} :
      (sys.streams.get id).state = .opening ticket →
      (sys.host.poll ticket).1 = .ready content →
      (sys.heap.allocate sys.host.arena (content.length + 1)).1 = .ok g →
      (sys.host.poll ticket).2.SameFetches host → content.length < g.length →
      host.arena.memory.read g.address (content.length + 1) = content ++ [0] →
      Arrival sys id report ({ report with ready := report.ready ++ [id] },
        ⟨sys.streams.set id ((sys.streams.get id).delivered g content), heap, host⟩)

namespace Arrival

variable {report : PollReport} {result : PollReport × StreamSystem} {ticket : Nat}
  {content : Bytes} {g : Allocation}

theorem of_pending (ha : sys.Arrival id report result)
    (hp : ∀ ticket, (sys.streams.get id).state = .opening ticket →
      (sys.host.poll ticket).1 = .pending) : result = (report, sys) := by
  cases ha with
  | idle _ => rfl
  | failed hstate hwhy _ =>
    rw [hp _ hstate] at hwhy
    rcases hwhy with hwhy | ⟨_, _, hwhy, _⟩ <;> cases hwhy
  | arrived hstate hready _ _ _ _ =>
    rw [hp _ hstate] at hready
    cases hready

theorem of_granted (ha : sys.Arrival id report result)
    (hstate : (sys.streams.get id).state = .opening ticket)
    (hp : (sys.host.poll ticket).1 = .ready content)
    (hg : (sys.heap.allocate sys.host.arena (content.length + 1)).1 = .ok g) : ∃ heap host,
      result = ({ report with ready := report.ready ++ [id] },
        ⟨sys.streams.set id ((sys.streams.get id).delivered g content), heap, host⟩) ∧
      content.length < g.length ∧
      host.arena.memory.read g.address (content.length + 1) = content ++ [0] := by
  cases ha with
  | idle hidle =>
    rw [hidle _ hstate] at hp
    cases hp
  | failed hstate' hwhy _ =>
    obtain rfl := StreamState.opening.inj (hstate.symm.trans hstate')
    rw [hp] at hwhy
    rcases hwhy with hwhy | ⟨_, _, hwhy, hrefused⟩
    · cases hwhy
    · obtain rfl := FetchStatus.ready.inj hwhy
      rw [hg] at hrefused
      cases hrefused
  | arrived hstate' hready hgranted _ hlen hread =>
    obtain rfl := StreamState.opening.inj (hstate.symm.trans hstate')
    obtain rfl := FetchStatus.ready.inj (hp.symm.trans hready)
    obtain rfl := Except.ok.inj (hg.symm.trans hgranted)
    exact ⟨_, _, rfl, hlen, hread⟩

theorem of_refused (ha : sys.Arrival id report result)
    (hstate : (sys.streams.get id).state = .opening ticket)
    (hwhy : (sys.host.poll ticket).1 = .failed ∨ ∃ content e,
      (sys.host.poll ticket).1 = .ready content ∧
      (sys.heap.allocate sys.host.arena (content.length + 1)).1 = .error e) : ∃ heap host,
      result = ({ report with failed := report.failed ++ [id] },
        ⟨sys.streams.set id (sys.streams.get id).failed, heap, host⟩) := by
  cases ha with
  | idle hidle =>
    rw [hidle _ hstate] at hwhy
    rcases hwhy with hwhy | ⟨_, _, hwhy, _⟩ <;> cases hwhy
  | failed _ _ _ => exact ⟨_, _, rfl⟩
  | arrived hstate' hready hgranted _ _ _ =>
    obtain rfl := StreamState.opening.inj (hstate.symm.trans hstate')
    rw [hready] at hwhy
    rcases hwhy with hwhy | ⟨_, _, hwhy, hrefused⟩
    · cases hwhy
    · obtain rfl := FetchStatus.ready.inj hwhy
      rw [hgranted] at hrefused
      cases hrefused

end Arrival
end StreamSystem

namespace Ledger

open StreamSystem

variable {sys : StreamSystem} {held : List Allocation} {id : StreamId}

/-- Storing bytes in a grant that is held. -/
theorem store (hl : Ledger sys held) {g : Allocation} (hg : g ∈ held) {block : Bytes}
    (hlen : block.length ≤ g.length) :
    (sys.host.arena.write g.address block).memory.read g.address block.length = block ∧
      ∀ g' ∈ sys.heap.liveAllocations, g' ≠ g → ∀ k, g'.address ≤ k → k < g'.address + g'.length →
        (sys.host.arena.write g.address block).memory.get? k = sys.host.arena.memory.get? k := by
  have hlive := hl.mem_live_of_held hg
  refine ⟨?_, fun g' hg' hne k hlo hhi => ?_⟩
  · have hbound := Heap.bounds_of_live hl.sound hlive
    have hroom : g.address + block.length ≤ sys.host.arena.memory.size := by omega
    exact LinearMemory.read_write_self hroom
  · have hapart := Heap.apart_of_live hl.sound hg' hlive hne
    exact LinearMemory.get?_write_of_outside (by omega)

/-- A delivery ends in a ready stream with the data, or in a failed one for want of memory. -/
theorem deliver_exact (hl : Ledger sys held) (id : StreamId) (content : Bytes) :
    (∃ g heap host, (sys.heap.allocate sys.host.arena (content.length + 1)).1 = .ok g ∧
      sys.deliver id content =
        (.ok (), ⟨sys.streams.set id ((sys.streams.get id).delivered g content), heap, host⟩) ∧
      content.length < g.length ∧
      host.arena.memory.read g.address (content.length + 1) = content ++ [0] ∧
      sys.host.SameFetches host ∧
      Ledger ⟨sys.streams.set id ((sys.streams.get id).delivered g content), heap, host⟩ held ∧
      sys.host.Quiet sys.heap.liveAllocations host) ∨
    ∃ e heap host, (sys.heap.allocate sys.host.arena (content.length + 1)).1 = .error e ∧
      sys.deliver id content =
        (.error (.alloc e), ⟨sys.streams.set id (sys.streams.get id).failed, heap, host⟩) ∧
      e.IsShortage ∧ sys.host.SameFetches host ∧
      Ledger ⟨sys.streams.set id (sys.streams.get id).failed, heap, host⟩ held ∧
      sys.host.Quiet sys.heap.liveAllocations host := by
  unfold StreamSystem.deliver
  rcases hl.allocateBuffer (content.length + 1) with
    ⟨g, heap, host, he, hlen, hl', hq⟩ | ⟨e, heap, host, he, hshort, hl', hq⟩
  · obtain ⟨hgranted, -, hfetch⟩ := allocateBuffer_eq he
    rw [he]
    dsimp only
    have hlength : (content ++ [0]).length = content.length + 1 := by simp
    obtain ⟨hread, hothers⟩ := hl'.store (List.mem_cons_self ..) (hlength ▸ hlen)
    rw [hlength] at hread
    -- the grant is new, so it is none of those that were live before
    have hquiet : sys.host.Quiet sys.heap.liveAllocations
        { host with arena := host.arena.write g.address (content ++ [0]) } := by
      refine ⟨hq.console_eq, fun g' hg' k hlo hhi => ?_⟩
      have hmem := hl.perm.mem_iff.mp hg'
      have hne : g' ≠ g := fun hsame => (List.nodup_cons.mp hl'.nodup).1 (hsame ▸ hmem)
      have hlive := hl'.perm.mem_iff.mpr (List.mem_cons_of_mem _ hmem)
      exact (hothers g' hlive hne k hlo hhi).trans (hq.get?_eq g' hg' k hlo hhi)
    have hstored : Ledger ⟨sys.streams, heap,
        { host with arena := host.arena.write g.address (content ++ [0]) }⟩ (g :: held) :=
      hl'.of_host rfl (by simp)
    have hplaced := Ledger.place (s := (sys.streams.get id).delivered g content) hstored id
      fun ho => absurd ho (by simp [Stream.delivered, Stream.isOpen])
    obtain ⟨heap', hr, hl''⟩ := hplaced.releaseGrant
    exact Or.inl ⟨g, heap', _, hgranted g rfl, hr, hlen, hread,
      ⟨hfetch.fetches_eq, hfetch.nextTicket_eq, hfetch.source_eq⟩, hl'', hquiet⟩
  · obtain ⟨-, hrefused, hfetch⟩ := allocateBuffer_eq he
    rw [he]
    refine Or.inr ⟨e, heap, host, hrefused e rfl, rfl, hshort, hfetch, hl'.keep rfl fun ho => ?_,
      hq⟩
    simp [Stream.failed, Stream.isOpen] at ho

theorem deliver (hl : Ledger sys held) (id : StreamId) (content : Bytes) :
    (∃ g heap host, sys.deliver id content =
      (.ok (), ⟨sys.streams.set id ((sys.streams.get id).delivered g content), heap, host⟩) ∧
      Ledger ⟨sys.streams.set id ((sys.streams.get id).delivered g content), heap, host⟩ held ∧
      sys.host.Quiet sys.heap.liveAllocations host) ∨
    ∃ e heap host, sys.deliver id content =
      (.error (.alloc e), ⟨sys.streams.set id (sys.streams.get id).failed, heap, host⟩) ∧
      e.IsShortage ∧
      Ledger ⟨sys.streams.set id (sys.streams.get id).failed, heap, host⟩ held ∧
      sys.host.Quiet sys.heap.liveAllocations host := by
  rcases hl.deliver_exact id content with
    ⟨g, heap, host, -, he, -, -, -, hl', hq⟩ | ⟨e, heap, host, -, he, hshort, -, hl', hq⟩
  · exact Or.inl ⟨g, heap, host, he, hl', hq⟩
  · exact Or.inr ⟨e, heap, host, he, hshort, hl', hq⟩

/-- One slot's part of a poll. -/
theorem arrival (hl : Ledger sys held) (report : PollReport) (id : StreamId) :
    sys.Arrival id report (StreamSystem.pollSlot (report, sys) id) ∧
      Ledger (StreamSystem.pollSlot (report, sys) id).2 held ∧
      sys.host.Quiet sys.heap.liveAllocations (StreamSystem.pollSlot (report, sys) id).2.host := by
  unfold StreamSystem.pollSlot
  dsimp only
  split
  · rename_i ticket hstate
    have harena := sys.host.arena_poll ticket
    have hconsole := sys.host.console_poll ticket
    have hpolled : Ledger ⟨sys.streams, sys.heap, (sys.host.poll ticket).2⟩ held :=
      hl.of_host (by rw [harena]) (by rw [harena])
    have hquiet : sys.host.Quiet sys.heap.liveAllocations (sys.host.poll ticket).2 :=
      ⟨hconsole, fun g _ i _ _ => by rw [harena]⟩
    split
    · rename_i host hp
      have hpending : (sys.host.poll ticket).1 = .pending := by rw [hp]
      have hsame := Host.poll_of_pending hpending
      rw [hp] at hsame
      dsimp only at hsame
      rw [hsame]
      refine ⟨.idle fun other ho => ?_, hl, .refl _ _⟩
      rw [hstate] at ho
      obtain rfl := StreamState.opening.inj ho
      exact hpending
    · rename_i host hp
      rw [hp] at hpolled hquiet
      refine ⟨.failed hstate (Or.inl (by rw [hp])) (by rw [hp]; exact .refl host),
        hpolled.keep rfl fun ho => ?_, hquiet⟩
      simp [Stream.failed, Stream.isOpen] at ho
    · rename_i content host hp
      have hready : (sys.host.poll ticket).1 = .ready content := by rw [hp]
      rw [hp] at harena hpolled hquiet
      dsimp only at harena
      rcases hpolled.deliver_exact id content with
        ⟨g, heap, host', hg, he, hlen, hread, hf, hl', hq⟩ |
        ⟨e, heap, host', hr, he, -, hf, hl', hq⟩
      · rw [harena] at hg
        rw [he]
        exact ⟨.arrived hstate hready hg (by rw [hp]; exact hf) hlen hread, hl', hquiet.trans hq⟩
      · rw [harena] at hr
        rw [he]
        exact ⟨.failed hstate (Or.inr ⟨content, e, hready, hr⟩) (by rw [hp]; exact hf), hl',
          hquiet.trans hq⟩
  · rename_i hstate
    exact ⟨.idle fun ticket ht => absurd ht (hstate ticket), hl, .refl _ _⟩

/-- One slot's part of a poll settles a stream that waits, and leaves any other alone. -/
theorem pollSlot (hl : Ledger sys held) (report : PollReport) (id : StreamId) :
    ∃ report' s heap host, StreamSystem.pollSlot (report, sys) id =
      (report', ⟨sys.streams.set id s, heap, host⟩) ∧
      (s = sys.streams.get id ∨ ∃ ticket, (sys.streams.get id).state = .opening ticket ∧
        (s = (sys.streams.get id).failed ∨
          ∃ g content, s = (sys.streams.get id).delivered g content)) ∧
      Ledger ⟨sys.streams.set id s, heap, host⟩ held ∧
      sys.host.Quiet sys.heap.liveAllocations host := by
  obtain ⟨harrival, hl', hq⟩ := hl.arrival report id
  generalize StreamSystem.pollSlot (report, sys) id = result at harrival hl' hq ⊢
  cases harrival with
  | idle _ =>
    have hsame := sys.streams.set_get id
    refine ⟨report, sys.streams.get id, sys.heap, sys.host, by rw [hsame], Or.inl rfl, ?_, hq⟩
    rw [hsame]
    exact hl
  | failed hstate _ _ =>
    exact ⟨_, _, _, _, rfl, Or.inr ⟨_, hstate, Or.inl rfl⟩, hl', hq⟩
  | arrived hstate _ _ _ _ _ =>
    exact ⟨_, _, _, _, rfl, Or.inr ⟨_, hstate, Or.inr ⟨_, _, rfl⟩⟩, hl', hq⟩

end Ledger
end GuestLibrary
