import GuestLibrary.Proofs.Stream.Moves

/-! Which slot waits for which fetch. Tickets are numbered in the order of the fetches, so as long
as the numbers do not wrap around no two fetches share one, and a slot that is opened anew never
waits for a fetch that its last occupant started. -/
namespace GuestLibrary

namespace Host

/-- A host that started no fetch yet and looks resources up in a table. -/
structure Fresh (h : Host) : Prop where
  fetches_eq : h.fetches = []
  nextTicket_eq : h.nextTicket = 1
  source_eq : ∃ entries immediate, h.source = .table entries immediate

/-- Exactly one fetch has the ticket, and it is for this name. -/
def Outstanding (h : Host) (ticket : Nat) (name : String) : Prop :=
  ∃ delivery, h.fetches.filter (·.ticket = ticket) = [⟨ticket, name, delivery⟩]

/-- The host has not let the fetch of a ticket complete. -/
def Holds (h : Host) (ticket : Nat) : Prop :=
  ∃ f ∈ h.fetches, f.ticket = ticket ∧ f.delivery = .held

theorem fetches_addResource (h : Host) (name : String) (content : Bytes) :
    (h.addResource name content).fetches = h.fetches := by
  unfold addResource
  split <;> rfl

/-- Collecting a fetch leaves all others in place. -/
theorem poll_keeps (h : Host) (ticket : Nat) :
    (h.poll ticket).2.nextTicket = h.nextTicket ∧ (h.poll ticket).2.source = h.source ∧
      (h.poll ticket).2.fetches.Sublist h.fetches ∧
      ∀ f ∈ h.fetches, f.ticket ≠ ticket → f ∈ (h.poll ticket).2.fetches := by
  have hsame : h.nextTicket = h.nextTicket ∧ h.source = h.source ∧ h.fetches.Sublist h.fetches ∧
      ∀ f ∈ h.fetches, f.ticket ≠ ticket → f ∈ h.fetches :=
    ⟨rfl, rfl, List.Sublist.refl _, fun _ hf _ => hf⟩
  have hforgets : (h.forget ticket).nextTicket = h.nextTicket ∧
      (h.forget ticket).source = h.source ∧ (h.forget ticket).fetches.Sublist h.fetches ∧
      ∀ f ∈ h.fetches, f.ticket ≠ ticket → f ∈ (h.forget ticket).fetches :=
    ⟨rfl, rfl, List.filter_sublist, fun f hf hne => List.mem_filter.mpr ⟨hf, by simpa using hne⟩⟩
  unfold poll
  dsimp only
  split
  · exact hsame
  · split
    · exact hsame
    · exact hforgets
    · exact hforgets

/-- Among fetches with different tickets, a ticket has one fetch. -/
theorem filter_of_mem {fetches : List Fetch} (hn : (fetches.map (·.ticket)).Nodup) {f : Fetch}
    (hf : f ∈ fetches) : fetches.filter (·.ticket = f.ticket) = [f] := by
  induction fetches with
  | nil => cases hf
  | cons g rest ih =>
    obtain ⟨hg, hrest⟩ := List.nodup_cons.mp hn
    rcases List.mem_cons.mp hf with rfl | hf
    · rw [List.filter_cons_of_pos (by simp), List.filter_eq_nil_iff.mpr]
      intro e he
      have hne : e.ticket ≠ f.ticket := fun heq => hg (List.mem_map.mpr ⟨e, he, heq⟩)
      simpa using hne
    · have hne : g.ticket ≠ f.ticket := fun he => hg (List.mem_map.mpr ⟨f, hf, he.symm⟩)
      rw [List.filter_cons_of_neg (by simpa using hne)]
      exact ih hrest hf

/-- A fetch under a ticket that no other has. -/
theorem fetch_fresh {h : Host} (hs : ∃ entries immediate, h.source = .table entries immediate)
    (hn : ∀ f ∈ h.fetches, f.ticket ≠ h.nextTicket) (name : String) : ∃ delivery : Delivery,
      (∀ content, delivery ≠ .loaded content) ∧
      (h.fetch name).2.fetches = h.fetches ++ [⟨h.nextTicket, name, delivery⟩] := by
  obtain ⟨entries, immediate, hs⟩ := hs
  have hothers : h.fetches.filter (·.ticket ≠ h.nextTicket) = h.fetches :=
    List.filter_eq_self.mpr fun f hf => by simpa using hn f hf
  refine ⟨if immediate then .released else .held, fun content => ?_, ?_⟩
  · split <;> simp
  · simp only [fetch, hothers, hs]

/-- A fetch that may complete is still there. -/
theorem mem_release {h : Host} {ticket : Nat} {name : String}
    (hf : ∃ delivery, (⟨ticket, name, delivery⟩ : Fetch) ∈ h.fetches) :
    ∃ delivery, (⟨ticket, name, delivery⟩ : Fetch) ∈ h.release.fetches := by
  obtain ⟨delivery, hf⟩ := hf
  refine ⟨if delivery = .held then .released else delivery, List.mem_map.mpr ⟨_, hf, ?_⟩⟩
  split <;> rfl

theorem find?_of_mem {fetches : List Fetch} (hn : (fetches.map (·.ticket)).Nodup) {f : Fetch}
    (hf : f ∈ fetches) : fetches.find? (·.ticket = f.ticket) = some f := by
  rw [← List.head?_filter, filter_of_mem hn hf]
  rfl

end Host

/-- After `n` fetches all that are not collected have different tickets up to `n`, and each slot
that waits does so for one of its own name that no other slot waits for. -/
structure Ticketed (sys : StreamSystem) (n : Nat) : Prop where
  next_eq : sys.host.nextTicket = (n + 1) % halfLimit
  ticket_le : ∀ f ∈ sys.host.fetches, f.ticket ≤ n
  nodup : (sys.host.fetches.map (·.ticket)).Nodup
  tabled : ∃ entries immediate, sys.host.source = .table entries immediate
  unloaded : ∀ f ∈ sys.host.fetches, ∀ content, f.delivery ≠ .loaded content
  waits : ∀ i ticket, (sys.streams.get i).state = .opening ticket → ∃ name delivery,
    (sys.streams.get i).name = some name ∧ ⟨ticket, name, delivery⟩ ∈ sys.host.fetches
  apart : ∀ i j ticket, (sys.streams.get i).state = .opening ticket →
    (sys.streams.get j).state = .opening ticket → i = j

/-- A fetch that no slot waits for any more. -/
structure Abandoned (sys : StreamSystem) (ticket : Nat) (name : String) : Prop where
  unclaimed : ∀ i, (sys.streams.get i).state ≠ .opening ticket
  kept : ∃ delivery, ⟨ticket, name, delivery⟩ ∈ sys.host.fetches

namespace Ticketed

variable {sys sys' : StreamSystem} {n ticket : Nat} {name : String} {id : StreamId} {heap : Heap}
  {host : Host} {s : Stream}

/-- A ticket that was not given out yet. -/
theorem nextTicket_eq (ht : Ticketed sys n) (hn : n + 1 < halfLimit) :
    sys.host.nextTicket = n + 1 := by
  rw [ht.next_eq]
  exact Nat.mod_eq_of_lt hn

/-- Slots may stop waiting, and fetches that none waits for may be collected. -/
theorem of_fewer (ht : Ticketed sys n) {streams : StreamTable}
    (hnext : host.nextTicket = sys.host.nextTicket) (hsource : host.source = sys.host.source)
    (hsub : host.fetches.Sublist sys.host.fetches)
    (hslots : ∀ i t, (streams.get i).state = .opening t → (sys.streams.get i).state = .opening t ∧
      (streams.get i).name = (sys.streams.get i).name ∧
      ∀ f ∈ sys.host.fetches, f.ticket = t → f ∈ host.fetches) :
    Ticketed ⟨streams, heap, host⟩ n where
  next_eq := hnext.trans ht.next_eq
  ticket_le f hf := ht.ticket_le f (hsub.subset hf)
  nodup := (hsub.map _).nodup ht.nodup
  tabled := by
    dsimp only
    rw [hsource]
    exact ht.tabled
  unloaded f hf := ht.unloaded f (hsub.subset hf)
  waits i t hi := by
    obtain ⟨hstate, hname, hkept⟩ := hslots i t hi
    obtain ⟨name, delivery, hn, hf⟩ := ht.waits i t hstate
    exact ⟨name, delivery, hname.trans hn, hkept _ hf rfl⟩
  apart i j t hi hj := ht.apart i j t (hslots i t hi).1 (hslots j t hj).1

/-- One slot changes and does not wait afterwards unless it did so before. -/
theorem change (ht : Ticketed sys n) (hf : sys.host.SameFetches host)
    (hs : ∀ t, s.state = .opening t →
      (sys.streams.get id).state = .opening t ∧ s.name = (sys.streams.get id).name) :
    Ticketed ⟨sys.streams.set id s, heap, host⟩ n := by
  refine ht.of_fewer hf.nextTicket_eq hf.source_eq (by rw [hf.fetches_eq]) fun i t hi => ?_
  have hkept : ∀ f ∈ sys.host.fetches, f.ticket = t → f ∈ host.fetches := by
    rw [hf.fetches_eq]
    exact fun f hmem _ => hmem
  rw [StreamTable.get_set] at hi ⊢
  split at hi
  · rename_i hid
    rw [if_pos hid, hid]
    exact ⟨(hs t hi).1, (hs t hi).2, hkept⟩
  · rename_i hid
    rw [if_neg hid]
    exact ⟨hi, rfl, hkept⟩

/-- A slot collects the fetch that it waited for. -/
theorem settle (ht : Ticketed sys n) (hstate : (sys.streams.get id).state = .opening ticket)
    (hf : (sys.host.poll ticket).2.SameFetches host) (hs : ∀ t, s.state ≠ .opening t) :
    Ticketed ⟨sys.streams.set id s, heap, host⟩ n := by
  obtain ⟨hnext, hsource, hsub, hkept⟩ := sys.host.poll_keeps ticket
  rw [← hf.fetches_eq] at hsub hkept
  refine ht.of_fewer (hf.nextTicket_eq.trans hnext) (hf.source_eq.trans hsource) hsub
    fun i t hi => ?_
  rw [StreamTable.get_set] at hi ⊢
  split at hi
  · exact absurd hi (hs t)
  · rename_i hid
    rw [if_neg hid]
    refine ⟨hi, rfl, fun f hmem hft => hkept f hmem fun he => hid ?_⟩
    rw [← he, hft] at hstate
    exact ht.apart i id t hi hstate

/-- Nobody waits for a ticket that was not given out yet. -/
theorem ne_of_waits (ht : Ticketed sys n) (hi : (sys.streams.get id).state = .opening ticket) :
    ticket ≠ n + 1 := by
  obtain ⟨name, delivery, -, hmem⟩ := ht.waits id ticket hi
  exact Nat.ne_of_lt (Nat.lt_succ_of_le (ht.ticket_le _ hmem))

/-- A slot starts the next fetch. -/
theorem fetch (ht : Ticketed sys n) (hn : n + 1 < halfLimit) (hf : sys.host.SameFetches host)
    (g : Allocation) (name : String) :
    Ticketed ⟨sys.streams.set id (.opening (host.fetch name).1 g name), heap,
      (host.fetch name).2⟩ (n + 1) := by
  have hticket : host.nextTicket = n + 1 := hf.nextTicket_eq.trans (ht.nextTicket_eq hn)
  have hold : ∀ f ∈ sys.host.fetches, f.ticket ≠ n + 1 := fun f hmem =>
    Nat.ne_of_lt (Nat.lt_succ_of_le (ht.ticket_le f hmem))
  have htabled : ∃ entries immediate, host.source = .table entries immediate := by
    rw [hf.source_eq]
    exact ht.tabled
  obtain ⟨delivery, hunloaded, hfetches⟩ :=
    Host.fetch_fresh htabled (by rwa [hf.fetches_eq, hticket]) name
  rw [hf.fetches_eq, hticket] at hfetches
  have hmem_iff : ∀ f, f ∈ (host.fetch name).2.fetches ↔
      f ∈ sys.host.fetches ∨ f = ⟨n + 1, name, delivery⟩ := by simp [hfetches]
  have hstate : ∀ i t, ((sys.streams.set id (.opening (host.fetch name).1 g name)).get i).state =
      .opening t → i = id ∧ t = n + 1 ∨ i ≠ id ∧ (sys.streams.get i).state = .opening t := by
    intro i t hi
    rw [StreamTable.get_set] at hi
    split at hi
    · exact Or.inl ⟨by assumption, (StreamState.opening.inj hi).symm.trans hticket⟩
    · exact Or.inr ⟨by assumption, hi⟩
  exact {
    next_eq := by simp only [Host.fetch, hticket]
    ticket_le := by
      intro f hmem
      rcases (hmem_iff f).mp hmem with hmem | rfl
      · exact Nat.le_succ_of_le (ht.ticket_le f hmem)
      · exact Nat.le_refl _
    nodup := by
      dsimp only
      rw [hfetches, List.map_append, List.nodup_append]
      refine ⟨ht.nodup, by simp, fun t hmem t' hmem' => ?_⟩
      obtain ⟨f, hf, rfl⟩ := List.mem_map.mp hmem
      obtain rfl : t' = n + 1 := by simpa using hmem'
      exact hold f hf
    tabled := htabled
    unloaded := by
      intro f hmem
      rcases (hmem_iff f).mp hmem with hmem | rfl
      · exact ht.unloaded f hmem
      · exact hunloaded
    waits := by
      intro i t hi
      rcases hstate i t hi with ⟨rfl, rfl⟩ | ⟨hne, hi⟩
      · refine ⟨name, delivery, ?_, (hmem_iff _).mpr (Or.inr rfl)⟩
        rw [StreamTable.get_set_self]
        rfl
      · obtain ⟨name', delivery', hname, hmem⟩ := ht.waits i t hi
        refine ⟨name', delivery', ?_, (hmem_iff _).mpr (Or.inl hmem)⟩
        rwa [StreamTable.get_set_of_ne hne]
    apart := by
      intro i j t hi hj
      rcases hstate i t hi with ⟨hid, htn⟩ | ⟨-, hi⟩ <;>
        rcases hstate j t hj with ⟨hjd, htn'⟩ | ⟨-, hj⟩
      · exact hid.trans hjd.symm
      · exact absurd htn (ht.ne_of_waits hj)
      · exact absurd htn' (ht.ne_of_waits hi)
      · exact ht.apart i j t hi hj }

/-- The host lets every fetch complete. -/
theorem release (ht : Ticketed sys n) : Ticketed (sys.onHost (·.release)) n := by
  have hticket : ∀ f : Fetch, (if f.delivery = .held then { f with delivery := .released }
      else f).ticket = f.ticket := by
    intro f
    split <;> rfl
  refine ⟨ht.next_eq, ?_, ?_, ht.tabled, ?_, ?_, ht.apart⟩
  · intro f hmem
    obtain ⟨f', hf', rfl⟩ := List.mem_map.mp hmem
    rw [hticket]
    exact ht.ticket_le f' hf'
  · have hmap : (sys.onHost (·.release)).host.fetches.map (·.ticket) =
        sys.host.fetches.map (·.ticket) := by
      simp only [StreamSystem.onHost, Host.release, List.map_map]
      exact List.map_congr_left fun f _ => hticket f
    rw [hmap]
    exact ht.nodup
  · intro f hmem content
    obtain ⟨f', hf', rfl⟩ := List.mem_map.mp hmem
    split
    · simp
    · exact ht.unloaded f' hf' content
  · intro i t hi
    obtain ⟨name, delivery, hname, hmem⟩ := ht.waits i t hi
    obtain ⟨delivery', hmem'⟩ := Host.mem_release ⟨delivery, hmem⟩
    exact ⟨name, delivery', hname, hmem'⟩

theorem addResource (ht : Ticketed sys n) (name : String) (content : Bytes) :
    Ticketed (sys.onHost (·.addResource name content)) n := by
  obtain ⟨entries, immediate, hsource⟩ := ht.tabled
  have hhost : sys.host.addResource name content = { sys.host with
      source := .table ((name, content) :: entries.filter (·.1 ≠ name)) immediate } := by
    unfold Host.addResource
    rw [hsource]
  unfold StreamSystem.onHost
  dsimp only
  rw [hhost]
  exact ⟨ht.next_eq, ht.ticket_le, ht.nodup, ⟨_, _, rfl⟩, ht.unloaded, ht.waits, ht.apart⟩

/-- The fetch of a slot that waits is not collected, and no other has its ticket. -/
theorem outstanding (ht : Ticketed sys n) (hid : (sys.streams.get id).state = .opening ticket) :
    ∃ name, (sys.streams.get id).name = some name ∧ sys.host.Outstanding ticket name := by
  obtain ⟨name, delivery, hname, hmem⟩ := ht.waits id ticket hid
  exact ⟨name, hname, delivery, Host.filter_of_mem ht.nodup hmem⟩

end Ticketed

namespace Abandoned

variable {sys : StreamSystem} {ticket : Nat} {name : String} {id : StreamId} {heap : Heap}
  {host : Host} {s : Stream}

theorem kept_of_same (ha : Abandoned sys ticket name) (hf : sys.host.SameFetches host) :
    ∃ delivery, ⟨ticket, name, delivery⟩ ∈ host.fetches := by
  rw [hf.fetches_eq]
  exact ha.kept

/-- One slot changes and does not wait for the fetch afterwards. -/
theorem change (ha : Abandoned sys ticket name) (hs : s.state ≠ .opening ticket)
    (hkept : ∃ delivery, ⟨ticket, name, delivery⟩ ∈ host.fetches) :
    Abandoned ⟨sys.streams.set id s, heap, host⟩ ticket name := by
  refine ⟨fun i => ?_, hkept⟩
  dsimp only
  rw [StreamTable.get_set]
  split
  · exact hs
  · exact ha.unclaimed i

/-- What a slot collects is another fetch. -/
theorem settle (ha : Abandoned sys ticket name) {other : Nat}
    (hstate : (sys.streams.get id).state = .opening other)
    (hf : (sys.host.poll other).2.SameFetches host) (hs : s.state ≠ .opening ticket) :
    Abandoned ⟨sys.streams.set id s, heap, host⟩ ticket name := by
  obtain ⟨-, -, -, hkept⟩ := sys.host.poll_keeps other
  obtain ⟨delivery, hmem⟩ := ha.kept
  have hne : ticket ≠ other := by
    rintro rfl
    exact ha.unclaimed id hstate
  refine ha.change hs ⟨delivery, ?_⟩
  rw [hf.fetches_eq]
  exact hkept _ hmem hne

end Abandoned

namespace StreamSystem

variable {sys sys' : StreamSystem} {n ticket : Nat} {name : String} {id : StreamId}
  {ids : List StreamId}

/-- A slot that was not opened does not come to wait. -/
theorem Moves.idle (hm : Moves sys ids sys') (hid : id ∉ ids)
    (hi : ∀ t, (sys.streams.get id).state ≠ .opening t) :
    ∀ t, (sys'.streams.get id).state ≠ .opening t := by
  have hset : ∀ {streams : StreamTable} {j : StreamId} {s : Stream},
      (∀ t, (streams.get id).state ≠ .opening t) → (id = j → ∀ t, s.state ≠ .opening t) →
      ∀ t, ((streams.set j s).get id).state ≠ .opening t := by
    intro streams j s hi hs t
    rw [StreamTable.get_set]
    split
    · rename_i hj
      exact hs hj t
    · exact hi t
  induction hm with
  | refl | host | addResource | completeFetches => exact hi
  | trans _ _ ih ih' =>
    rw [List.mem_append, not_or] at hid
    exact ih' hid.2 (ih hid.1 hi)
  | stays hs _ =>
    refine hset hi fun hj t => ?_
    rw [hs.state_eq, ← hj]
    exact hi t
  | closes _ => exact hset hi fun _ t => by simp
  | opens _ _ => exact hset hi fun hj => absurd (List.mem_singleton.mpr hj) hid
  | fails _ _ => exact hset hi fun _ t => by simp [Stream.failed]
  | arrives _ _ _ => exact hset hi fun _ t => by simp [Stream.delivered]

/-- Slots wait for fetches of their own as long as the tickets do not wrap around. -/
theorem Moves.ticketed (hm : Moves sys ids sys') (ht : Ticketed sys n)
    (hn : n + ids.length < halfLimit) : Ticketed sys' (n + ids.length) := by
  induction hm generalizing n with
  | refl => exact ht
  | trans _ _ ih ih' =>
    rw [List.length_append, ← Nat.add_assoc] at hn ⊢
    exact ih' (ih ht (by omega)) hn
  | host hf =>
    refine ht.of_fewer hf.nextTicket_eq hf.source_eq (by rw [hf.fetches_eq]) fun i t hi => ?_
    rw [hf.fetches_eq]
    exact ⟨hi, rfl, fun f hmem _ => hmem⟩
  | addResource _ name content => exact ht.addResource name content
  | completeFetches => exact ht.release
  | stays hs hf =>
    refine ht.change hf fun t hi => ⟨?_, hs.name_eq⟩
    rwa [hs.state_eq] at hi
  | closes hf => exact ht.change hf fun t hi => by simp at hi
  | opens _ hf => exact ht.fetch hn hf _ _
  | fails hstate hf => exact ht.settle hstate hf fun t => by simp [Stream.failed]
  | arrives hstate hf _ => exact ht.settle hstate hf fun t => by simp [Stream.delivered]

/-- Nobody takes up a fetch that was abandoned, and it is never collected. -/
theorem Moves.abandoned (hm : Moves sys ids sys') (ht : Ticketed sys n)
    (hn : n + ids.length < halfLimit) (ha : Abandoned sys ticket name) :
    Abandoned sys' ticket name := by
  induction hm generalizing n with
  | refl => exact ha
  | @trans _ _ _ ids _ hm _ ih ih' =>
    rw [List.length_append, ← Nat.add_assoc] at hn
    have hmid : n + ids.length < halfLimit := by omega
    exact ih' (hm.ticketed ht hmid) hn (ih ht hmid ha)
  | host hf => exact ⟨ha.unclaimed, ha.kept_of_same hf⟩
  | addResource sys name' content =>
    refine ⟨ha.unclaimed, ?_⟩
    simp only [onHost, sys.host.fetches_addResource]
    exact ha.kept
  | completeFetches => exact ⟨ha.unclaimed, Host.mem_release ha.kept⟩
  | stays hs hf =>
    refine ha.change ?_ (ha.kept_of_same hf)
    rw [hs.state_eq]
    exact ha.unclaimed _
  | closes hf => exact ha.change (by simp) (ha.kept_of_same hf)
  | @opens sys _ _ _ _ host _ hf =>
    obtain ⟨delivery, hmem⟩ := ha.kept
    have hle := ht.ticket_le _ hmem
    have hnext : host.nextTicket = n + 1 := hf.nextTicket_eq.trans (ht.nextTicket_eq hn)
    have hne : ticket ≠ host.nextTicket := by
      dsimp only at hle
      omega
    refine ha.change ?_ ⟨delivery, List.mem_append_left _ (List.mem_filter.mpr ⟨?_, ?_⟩)⟩
    · exact fun he => hne (StreamState.opening.inj he).symm
    · rw [hf.fetches_eq]
      exact hmem
    · simpa using hne
  | fails hstate hf => exact ha.settle hstate hf (by simp [Stream.failed])
  | arrives hstate hf _ => exact ha.settle hstate hf (by simp [Stream.delivered])

end StreamSystem
end GuestLibrary
