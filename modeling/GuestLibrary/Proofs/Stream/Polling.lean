import GuestLibrary.Proofs.Stream.Tickets

/-! What a poll brings to each slot. The slots have their turns one after the other; the turns of
other slots change neither the stream of a slot nor its fetch nor the bytes of its buffer, so what a
slot gets depends on its own turn alone. -/
namespace GuestLibrary

namespace Host

variable {h : Host} {ticket : Nat} {name : String}

theorem poll_of_held (hn : (h.fetches.map (·.ticket)).Nodup)
    (hf : ⟨ticket, name, .held⟩ ∈ h.fetches) : (h.poll ticket).1 = .pending := by
  have hfind := find?_of_mem hn hf
  dsimp only at hfind
  unfold poll
  rw [hfind]

theorem poll_of_released (hn : (h.fetches.map (·.ticket)).Nodup)
    (hf : ⟨ticket, name, .released⟩ ∈ h.fetches) : (h.poll ticket).1 =
      match h.resource? name with
      | some content => .ready content
      | none => .failed := by
  have hfind := find?_of_mem hn hf
  dsimp only at hfind
  unfold poll
  cases hr : h.resource? name <;> simp only [hfind, hr]

end Host

namespace StreamSystem

/-- The system when a poll comes to a slot, after the turns of the slots before it. -/
def turn (sys : StreamSystem) (id : StreamId) : StreamSystem :=
  sys.pollEach ((List.finRange streamSlots).take id)

/-- What a poll brings to a slot. A slot that waits for a fetch that may complete gets the resource
that is registered under its name, if there is one and the heap has room for it; the slot is
reported once. -/
structure Polled (sys : StreamSystem) (id : StreamId) : Prop where
  idle : (∀ ticket, (sys.streams.get id).state = .opening ticket → sys.host.Holds ticket) →
    id ∉ sys.poll.1.ready ∧ id ∉ sys.poll.1.failed ∧
      sys.poll.2.streams.get id = sys.streams.get id
  arrived : ∀ ticket name content g, (sys.streams.get id).state = .opening ticket →
    (sys.streams.get id).name = some name → ¬ sys.host.Holds ticket →
    sys.host.resource? name = some content →
    ((sys.turn id).heap.allocate (sys.turn id).host.arena (content.length + 1)).1 = .ok g →
    sys.poll.1.ready.count id = 1 ∧ id ∉ sys.poll.1.failed ∧
      sys.poll.2.streams.get id = (sys.streams.get id).delivered g content ∧
      (sys.poll.2.streams.get id).bufferFront sys.poll.2.host.arena.memory (content.length + 1) =
        content ++ [0]
  failed : ∀ ticket name, (sys.streams.get id).state = .opening ticket →
    (sys.streams.get id).name = some name → ¬ sys.host.Holds ticket →
    (sys.host.resource? name = none ∨ ∃ content e, sys.host.resource? name = some content ∧
      ((sys.turn id).heap.allocate (sys.turn id).host.arena (content.length + 1)).1 =
        .error e) →
    id ∉ sys.poll.1.ready ∧ sys.poll.1.failed.count id = 1 ∧
      sys.poll.2.streams.get id = (sys.streams.get id).failed

/-- What the turns of other slots leave to the slot `id`. -/
structure Passes (id : StreamId) (before after : PollReport × StreamSystem) : Prop where
  stream_eq : after.2.streams.get id = before.2.streams.get id
  ready_eq : after.1.ready.count id = before.1.ready.count id
  failed_eq : after.1.failed.count id = before.1.failed.count id
  source_eq : after.2.host.source = before.2.host.source
  fetch_mem : ∀ ticket, (before.2.streams.get id).state = .opening ticket →
    ∀ f ∈ before.2.host.fetches, f.ticket = ticket → f ∈ after.2.host.fetches
  bytes_eq : ∀ g, (before.2.streams.get id).storage = .owned g → ∀ k, g.address ≤ k →
    k < g.address + g.length → after.2.host.arena.memory.get? k = before.2.host.arena.memory.get? k

theorem Passes.refl (id : StreamId) (state : PollReport × StreamSystem) : Passes id state state :=
  ⟨rfl, rfl, rfl, rfl, fun _ _ _ hf _ => hf, fun _ _ _ _ _ => rfl⟩

theorem Passes.trans {id : StreamId} {state state' state'' : PollReport × StreamSystem}
    (hp : Passes id state state') (hp' : Passes id state' state'') : Passes id state state'' where
  stream_eq := hp'.stream_eq.trans hp.stream_eq
  ready_eq := hp'.ready_eq.trans hp.ready_eq
  failed_eq := hp'.failed_eq.trans hp.failed_eq
  source_eq := hp'.source_eq.trans hp.source_eq
  fetch_mem t hstate f hf he := by
    refine hp'.fetch_mem t ?_ f (hp.fetch_mem t hstate f hf he) he
    rwa [hp.stream_eq]
  bytes_eq g hg k hlo hhi := by
    refine (hp'.bytes_eq g ?_ k hlo hhi).trans (hp.bytes_eq g hg k hlo hhi)
    rwa [hp.stream_eq]

end StreamSystem

/-- The slots in the order of their turns, around one of them. -/
theorem StreamId.split_slots (id : StreamId) : ∃ later,
    List.finRange streamSlots = (List.finRange streamSlots).take id ++ id :: later ∧
      id ∉ (List.finRange streamSlots).take id ∧ id ∉ later := by
  have hlt : (id : Nat) < (List.finRange streamSlots).length := by simp
  have hsplit : (List.finRange streamSlots).take id ++ id :: (List.finRange streamSlots).drop
      (id + 1) = List.finRange streamSlots := by
    have hdrop := List.drop_eq_getElem_cons hlt
    rw [show (List.finRange streamSlots)[(id : Nat)] = id by simp] at hdrop
    rw [← hdrop, List.take_append_drop]
  have hnodup := List.nodup_finRange streamSlots
  rw [← hsplit] at hnodup
  obtain ⟨-, hbehind, hdisjoint⟩ := List.nodup_append.mp hnodup
  exact ⟨_, hsplit.symm, fun hmem => hdisjoint id hmem id List.mem_cons_self rfl,
    (List.nodup_cons.mp hbehind).1⟩

namespace Ticketed

open StreamSystem

variable {sys : StreamSystem} {held : List Allocation} {n : Nat} {id : StreamId}

theorem holds_iff (ht : Ticketed sys n) {ticket : Nat} {name : String} {delivery : Delivery}
    (hf : ⟨ticket, name, delivery⟩ ∈ sys.host.fetches) :
    sys.host.Holds ticket ↔ delivery = .held := by
  constructor
  · rintro ⟨f, hmem, hft, hheld⟩
    have hone := Host.filter_of_mem ht.nodup hf
    have hf' : f ∈ sys.host.fetches.filter (·.ticket = ticket) :=
      List.mem_filter.mpr ⟨hmem, by simpa using hft⟩
    rw [hone, List.mem_singleton] at hf'
    rw [hf'] at hheld
    exact hheld
  · exact fun hheld => ⟨_, hf, rfl, hheld⟩

/-- The turn of another slot. -/
theorem pollSlot_passes (ht : Ticketed sys n) (hl : Ledger sys held) (report : PollReport)
    {j : StreamId} (hj : id ≠ j) :
    Passes id (report, sys) (StreamSystem.pollSlot (report, sys) j) := by
  obtain ⟨harrival, -, hq⟩ := hl.arrival report j
  generalize StreamSystem.pollSlot (report, sys) j = result at harrival hq ⊢
  have hbytes : ∀ g, (sys.streams.get id).storage = .owned g → ∀ k, g.address ≤ k →
      k < g.address + g.length →
      result.2.host.arena.memory.get? k = sys.host.arena.memory.get? k := fun g hg =>
    hq.get?_eq g (hl.mem_live_of_owned (StreamTable.mem_owned.mpr ⟨id, hg⟩))
  -- the fetch of the slot `id` is not the one that is collected
  have hcollected : ∀ {t : Nat} {host : Host}, (sys.streams.get j).state = .opening t →
      (sys.host.poll t).2.SameFetches host → host.source = sys.host.source ∧
        ∀ ticket, (sys.streams.get id).state = .opening ticket →
          ∀ f ∈ sys.host.fetches, f.ticket = ticket → f ∈ host.fetches := by
    intro t host hstate hf
    obtain ⟨-, hsource, -, hkept⟩ := sys.host.poll_keeps t
    refine ⟨hf.source_eq.trans hsource, fun ticket hid f hmem hft => ?_⟩
    rw [hf.fetches_eq]
    refine hkept f hmem fun he => hj ?_
    rw [← he, hft] at hstate
    exact ht.apart id j ticket hid hstate
  cases harrival with
  | idle _ => exact .refl id _
  | failed hstate _ hf =>
    obtain ⟨hsource, hmem⟩ := hcollected hstate hf
    exact ⟨StreamTable.get_set_of_ne hj, rfl, by simp [Ne.symm hj], hsource, hmem, hbytes⟩
  | arrived hstate _ _ hf _ _ =>
    obtain ⟨hsource, hmem⟩ := hcollected hstate hf
    exact ⟨StreamTable.get_set_of_ne hj, by simp [Ne.symm hj], rfl, hsource, hmem, hbytes⟩

/-- The turns of other slots. -/
theorem foldl_passes (ht : Ticketed sys n) (hn : n < halfLimit) (hl : Ledger sys held)
    (report : PollReport) {ids : List StreamId} (hid : id ∉ ids) :
    Passes id (report, sys) (ids.foldl StreamSystem.pollSlot (report, sys)) ∧
      Ticketed (ids.foldl StreamSystem.pollSlot (report, sys)).2 n ∧
      Ledger (ids.foldl StreamSystem.pollSlot (report, sys)).2 held := by
  induction ids generalizing sys report with
  | nil => exact ⟨.refl id _, ht, hl⟩
  | cons j rest ih =>
    rw [List.mem_cons, not_or] at hid
    have hfirst := ht.pollSlot_passes hl report hid.1
    have ht' : Ticketed (StreamSystem.pollSlot (report, sys) j).2 n :=
      (hl.pollSlot_moves report j).ticketed ht hn
    have hl' := (hl.arrival report j).2.1
    obtain ⟨hrest, ht'', hl''⟩ := ih ht' hl' (StreamSystem.pollSlot (report, sys) j).1 hid.2
    exact ⟨hfirst.trans hrest, ht'', hl''⟩

/-- What a slot that waits learns when a poll comes to it. -/
theorem poll_eq (ht : Ticketed sys n) {sys' : StreamSystem} {report report' : PollReport}
    (ht' : Ticketed sys' n) (hp : Passes id (report, sys) (report', sys')) {ticket : Nat}
    {name : String} (hid : (sys.streams.get id).state = .opening ticket)
    (hname : (sys.streams.get id).name = some name) :
    (sys.host.Holds ticket → (sys'.host.poll ticket).1 = .pending) ∧
    (¬ sys.host.Holds ticket → (sys'.host.poll ticket).1 =
      match sys.host.resource? name with
      | some content => .ready content
      | none => .failed) := by
  obtain ⟨name', delivery, hname', hmem⟩ := ht.waits id ticket hid
  obtain rfl := Option.some.inj (hname.symm.trans hname')
  have hmem' := hp.fetch_mem ticket hid _ hmem rfl
  have hresource : sys'.host.resource? name = sys.host.resource? name := by
    have hsource : sys'.host.source = sys.host.source := hp.source_eq
    unfold Host.resource?
    rw [hsource]
  rw [ht.holds_iff hmem, ← hresource]
  cases delivery with
  | held => exact ⟨fun _ => Host.poll_of_held ht'.nodup hmem', fun hne => absurd rfl hne⟩
  | released =>
    exact ⟨fun he => absurd he (by simp), fun _ => Host.poll_of_released ht'.nodup hmem'⟩
  | loaded content => exact absurd rfl (ht.unloaded _ hmem content)

/-- A poll comes to a slot after the turns of some other slots and before the turns of the rest. -/
theorem turns (ht : Ticketed sys n) (hn : n < halfLimit) (hl : Ledger sys held) (id : StreamId) :
    ∃ report result, Passes id ({}, sys) (report, sys.turn id) ∧
      (sys.turn id).Arrival id report result ∧ Passes id result sys.poll ∧
      Ticketed (sys.turn id) n ∧ Ledger sys.poll.2 held := by
  obtain ⟨later, hsplit, hbefore, hbehind⟩ := StreamId.split_slots id
  let first := ((List.finRange streamSlots).take id).foldl StreamSystem.pollSlot ({}, sys)
  have hpoll : later.foldl StreamSystem.pollSlot (StreamSystem.pollSlot first id) = sys.poll := by
    unfold StreamSystem.poll
    rw [hsplit, List.foldl_append, List.foldl_cons]
  obtain ⟨hfirst, ht₁, hl₁⟩ := ht.foldl_passes hn hl {} hbefore
  obtain ⟨harrival, hl₂, -⟩ := hl₁.arrival first.1 id
  have ht₂ := (hl₁.pollSlot_moves first.1 id).ticketed ht₁ hn
  obtain ⟨hrest, -, hl₃⟩ := ht₂.foldl_passes hn hl₂ (StreamSystem.pollSlot first id).1 hbehind
  refine ⟨first.1, StreamSystem.pollSlot first id, hfirst, harrival, ?_, ht₁, ?_⟩ <;> rw [← hpoll]
  · exact hrest
  · exact hl₃

/-- What a poll brings to a slot depends on its own turn. -/
theorem polled (ht : Ticketed sys n) (hn : n < halfLimit) (hl : Ledger sys held)
    (id : StreamId) : sys.Polled id := by
  obtain ⟨report, result, hbefore, harrival, hafter, ht', hl'⟩ := ht.turns hn hl id
  have hstream : (sys.turn id).streams.get id = sys.streams.get id := hbefore.stream_eq
  have hready : report.ready.count id = 0 := hbefore.ready_eq
  have hfailed : report.failed.count id = 0 := hbefore.failed_eq
  have hready' := hafter.ready_eq
  have hfailed' := hafter.failed_eq
  refine ⟨fun hidle => ?idle, fun ticket name content g hstate hname hnot hcontent hg => ?arrived,
    fun ticket name hstate hname hnot hwhy => ?failed⟩
  case idle =>
    have hpending : ∀ t, ((sys.turn id).streams.get id).state = .opening t →
        ((sys.turn id).host.poll t).1 = .pending := by
      intro t hstate
      rw [hstream] at hstate
      obtain ⟨name, -, hname, -⟩ := ht.waits id t hstate
      exact (ht.poll_eq ht' hbefore hstate hname).1 (hidle t hstate)
    obtain rfl := harrival.of_pending hpending
    exact ⟨List.count_eq_zero.mp (hready'.trans hready),
      List.count_eq_zero.mp (hfailed'.trans hfailed), hafter.stream_eq.trans hstream⟩
  case arrived =>
    have hpoll := (ht.poll_eq ht' hbefore hstate hname).2 hnot
    rw [hcontent] at hpoll
    obtain ⟨heap, host, rfl, hlen, hread⟩ := harrival.of_granted (by rw [hstream, hstate]) hpoll hg
    have hdelivered := hafter.stream_eq
    dsimp only at hdelivered hready'
    rw [StreamTable.get_set_self, hstream] at hdelivered
    have howned : (sys.poll.2.streams.get id).storage = .owned g := by
      rw [hdelivered]
      rfl
    refine ⟨?_, List.count_eq_zero.mp (hfailed'.trans hfailed), hdelivered, ?_⟩
    · rw [hready', List.count_append, hready]
      simp
    · rw [hl'.front_of_owned howned hlen, ← hread]
      refine LinearMemory.read_congr fun k hlo hhi => hafter.bytes_eq g ?_ k hlo (by omega)
      dsimp only
      rw [StreamTable.get_set_self]
      rfl
  case failed =>
    have hpoll := (ht.poll_eq ht' hbefore hstate hname).2 hnot
    obtain ⟨heap, host, rfl⟩ := harrival.of_refused (by rw [hstream, hstate]) (by
      rcases hwhy with hmissing | ⟨content, e, hcontent, hg⟩
      · rw [hmissing] at hpoll
        exact Or.inl hpoll
      · rw [hcontent] at hpoll
        exact Or.inr ⟨content, e, hpoll, hg⟩)
    have hmarked := hafter.stream_eq
    dsimp only at hmarked hfailed'
    rw [StreamTable.get_set_self, hstream] at hmarked
    refine ⟨List.count_eq_zero.mp (hready'.trans hready), ?_, hmarked⟩
    rw [hfailed', List.count_append, hfailed]
    simp

end Ticketed
end GuestLibrary
