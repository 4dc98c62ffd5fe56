import GuestLibrary.Host.Basic
import GuestLibrary.Proofs.Text.Splitting

/-! Names of resources stay below the root of their host. A name is looked up exactly where it is
relative and never steps upwards, and what is read then lies below the root. A fetch of any other
name reads nothing and has failed, whatever happens until it is polled and after that. -/
namespace GuestLibrary

namespace Path

variable {path name : String}

theorem written_append (folder path : String) :
    written (folder ++ "/" ++ path) = written folder ++ written path :=
  Text.split_append '/' folder path

theorem written_slash (folder : String) : written (folder ++ "/") = written folder ++ [""] := by
  rw [← String.append_empty (s := folder ++ "/"), written_append]
  rfl

/-- A component that was written stays inside unless it is a step upwards. -/
theorem staysInside_ofWritten? (c : String) :
    (Component.ofWritten? c).all Component.staysInside = decide (c ≠ "..") := by
  unfold Component.ofWritten?
  split_ifs with hempty hup
  · have hne : c ≠ ".." := by rintro rfl; revert hempty; decide
    simp [hne]
  · simp [hup, Component.staysInside]
  · simp [hup, Component.staysInside]

theorem isConfined_iff :
    isConfined path ↔ path.toList.head? ≠ some '/' ∧ ".." ∉ written path := by
  have hwritten : ((written path).filterMap Component.ofWritten?).all Component.staysInside ↔
      ".." ∉ written path := by
    have hall : ((written path).filterMap Component.ofWritten?).all Component.staysInside =
        (written path).all fun c => (Component.ofWritten? c).all Component.staysInside := by
      induction written path with
      | nil => rfl
      | cons c cs ih => cases hc : Component.ofWritten? c <;> simp [hc, ih]
    simp only [hall, staysInside_ofWritten?, List.all_eq_true, decide_eq_true_eq]
    exact ⟨fun h hmem => h _ hmem rfl, fun h c hc hup => h (hup ▸ hc)⟩
  unfold isConfined parts
  by_cases hroot : path.toList.head? = some '/'
  · simp [hroot, Component.staysInside]
  · rw [List.all_append, Bool.and_eq_true, hwritten]
    by_cases hdot : (written path).head? = some "." <;> simp [hroot, hdot, Component.staysInside]

/-- Components without a step upwards lead down from a place. -/
theorem foldl_follow (place : List String) {cs : List String} (h : ".." ∉ cs) :
    cs.foldl follow place = cs.reverse ++ place := by
  induction cs generalizing place with
  | nil => rfl
  | cons c cs ih =>
    obtain ⟨hc, hcs⟩ := not_or.mp (mt List.mem_cons.mpr h)
    simp [follow, Ne.symm hc, ih (c :: place) hcs]

theorem components_append (folder path : String) :
    components (folder ++ "/" ++ path) =
      components (folder ++ "/") ++ (written path).filter fun c => c ≠ "" ∧ c ≠ "." := by
  have hhead : (folder ++ "/" ++ path).toList.head? = (folder ++ "/").toList.head? := by
    rw [String.toList_append, List.head?_append_of_ne_nil _ (by simp)]
  rw [components, components, hhead, written_append, written_slash]
  simp

/-- The components of a relative path come behind those of the folder. -/
theorem components_join (folder : String) (h : path.toList.head? ≠ some '/') :
    components (join folder path) = components folder ++ components path := by
  have hpath : components path = (written path).filter fun c => c ≠ "" ∧ c ≠ "." := by
    simp [components, h]
  unfold join
  split_ifs with hfolder
  · obtain rfl | hslash := hfolder
    · rfl
    · obtain ⟨front, hfront⟩ := List.getLast?_eq_some_iff.mp hslash
      have hends : folder = String.ofList front ++ "/" :=
        String.toList_injective (by simp [hfront])
      rw [hends, components_append, hpath]
  · have hne : folder.toList ≠ [] := fun hnil =>
      hfolder (Or.inl (String.toList_injective hnil))
    have hclosed : components (folder ++ "/") = components folder := by
      have hhead : (folder ++ "/").toList.head? = folder.toList.head? := by
        rw [String.toList_append, List.head?_append_of_ne_nil _ hne]
      rw [components, components, hhead, written_slash]
      simp
    rw [components_append, hclosed, hpath]

theorem normalized_join (folder : String) (h : isConfined path) :
    normalized (join folder path) = normalized folder ++ components path := by
  obtain ⟨hroot, hup⟩ := isConfined_iff.mp h
  have hcomponents : ".." ∉ components path := by
    simp [components, hroot, hup]
  rw [normalized, components_join folder hroot, List.foldl_append, foldl_follow _ hcomponents,
    List.reverse_append, List.reverse_reverse, normalized]

end Path

namespace Host

variable {h : Host} {ticket : Nat} {root name path : String} {tree : Folder}

theorem resolve?_eq_some : resolve? root name = some path ↔
    Path.isConfined name ∧ path = Path.join root name := by
  unfold resolve?
  split_ifs with hconfined <;> simp [hconfined, eq_comm]

/-- Something that happens to a host and its fetches. -/
inductive Event
  | fetch (name : String)
  | poll (ticket : Nat)
  | release
  /-- Files, memory, console and clocks become those of another host. -/
  | become (other : Host)

namespace Event

def apply (h : Host) : Event → Host
  | fetch name => (h.fetch name).2
  | poll ticket => (h.poll ticket).2
  | release => h.release
  | become other => { other with fetches := h.fetches, nextTicket := h.nextTicket }

def isFetch : Event → Bool
  | fetch _ => true
  | _ => false

end Event

/-- A host after events one after the other. -/
def run (h : Host) (events : List Event) : Host := events.foldl Event.apply h

/-- The tickets that events give out. -/
def issued (h : Host) : List Event → List Nat
  | [] => []
  | e :: rest => (if e.isFetch then [h.nextTicket] else []) ++ (e.apply h).issued rest

/-- No fetch with the ticket will bring anything. -/
def Denies (h : Host) (ticket : Nat) : Prop :=
  ∀ f ∈ h.fetches, f.ticket = ticket → f.delivery = .loaded none

theorem Denies.poll (hd : h.Denies ticket) : (h.poll ticket).1 = .failed := by
  unfold Host.poll
  cases hf : h.fetches.find? (·.ticket = ticket) with
  | none => rfl
  | some f =>
    have hdelivery := hd f (List.mem_of_find?_eq_some hf) (by simpa using List.find?_some hf)
    simp [hdelivery]

theorem Denies.apply (hd : h.Denies ticket) (e : Event)
    (hissued : e.isFetch → h.nextTicket ≠ ticket) : (e.apply h).Denies ticket := by
  intro f hf hticket
  cases e with
  | fetch name =>
    rcases List.mem_append.mp hf with hf | hf
    · exact hd f (List.mem_of_mem_filter hf) hticket
    · obtain rfl := List.mem_singleton.mp hf
      exact absurd hticket (hissued rfl)
  | poll other =>
    refine hd f ?_ hticket
    revert hf
    simp only [Event.apply, Host.poll]
    split
    · exact id
    · split <;> simp [forget] <;> tauto
  | release =>
    obtain ⟨f', hf', rfl⟩ := List.mem_map.mp hf
    have hloaded := hd f' hf' (by split at hticket <;> exact hticket)
    simp [hloaded]
  | become other => exact hd f hf hticket

theorem Denies.run (hd : h.Denies ticket) (events : List Event)
    (hissued : ticket ∉ h.issued events) : (h.run events).Denies ticket := by
  induction events generalizing h with
  | nil => exact hd
  | cons e rest ih =>
    rw [issued, List.mem_append, not_or] at hissued
    refine ih (hd.apply e fun hfetch heq => hissued.1 ?_) hissued.2
    rw [if_pos hfetch, heq]
    exact List.mem_singleton.mpr rfl

theorem nextTicket_apply (h : Host) (e : Event) : (e.apply h).nextTicket =
    if e.isFetch then (h.nextTicket + 1) % halfLimit else h.nextTicket := by
  cases e with
  | poll ticket =>
    simp only [Event.apply, Event.isFetch, Host.poll]
    split
    · rfl
    · split <;> rfl
  | _ => rfl

/-- The tickets that are given out follow each other. -/
theorem mem_issued {events : List Event} {n : Nat} (hn : h.nextTicket = n % halfLimit)
    (hmem : ticket ∈ h.issued events) :
    ∃ i < events.countP (·.isFetch), ticket = (n + i) % halfLimit := by
  induction events generalizing h n with
  | nil => cases hmem
  | cons e rest ih =>
    have hnext := h.nextTicket_apply e
    rw [issued] at hmem
    cases he : e.isFetch with
    | false =>
      rw [he] at hmem hnext
      obtain ⟨i, hi, hticket⟩ := ih (hnext.trans hn) hmem
      exact ⟨i, by simpa [he] using hi, hticket⟩
    | true =>
      rw [he] at hmem hnext
      rw [List.countP_cons_of_pos he]
      rcases List.mem_cons.mp hmem with hfirst | hrest
      · exact ⟨0, Nat.succ_pos _, hfirst.trans hn⟩
      · have hsucc : (e.apply h).nextTicket = (n + 1) % halfLimit := by
          rw [hnext, if_pos rfl, hn, Nat.mod_add_mod]
        obtain ⟨i, hi, hticket⟩ := ih hsucc hrest
        exact ⟨i + 1, Nat.succ_lt_succ hi, by rw [hticket, Nat.add_assoc, Nat.add_comm 1]⟩

/-- A ticket is given out again after all others only. -/
theorem halfLimit_le_of_reissued {events : List Event}
    (hmem : (h.fetch name).1 ∈ (h.fetch name).2.issued events) :
    halfLimit ≤ events.countP (·.isFetch) := by
  obtain ⟨i, hi, hticket⟩ := mem_issued rfl hmem
  have hlimit : halfLimit = 4294967296 := rfl
  have hfirst : (h.fetch name).1 = h.nextTicket := rfl
  rw [hfirst, hlimit] at hticket
  omega

/-- A host that reads files below a root. -/
def rooted (h : Host) (root : String) (tree : Folder) : Host :=
  { h with source := .folder root tree }

theorem fetch_rooted (h : Host) (root name : String) (tree : Folder) :
    (h.rooted root tree).fetch name = (h.nextTicket, { h.rooted root tree with
      fetches := h.fetches.filter (·.ticket ≠ h.nextTicket) ++
        [⟨h.nextTicket, name, .loaded ((resolve? root name).bind tree.read?)⟩]
      nextTicket := (h.nextTicket + 1) % halfLimit }) := rfl

/-- The first poll brings what the file had when the fetch was started. -/
theorem poll_fetch_rooted (h : Host) (root name : String) (tree : Folder) :
    (((h.rooted root tree).fetch name).2.poll ((h.rooted root tree).fetch name).1).1 =
      ((resolve? root name).bind tree.read?).elim .failed .ready := by
  have hothers : (h.fetches.filter (·.ticket ≠ h.nextTicket)).find? (·.ticket = h.nextTicket) =
      none := by simp [List.find?_eq_none]
  rw [fetch_rooted, Host.poll]
  dsimp only
  rw [List.find?_append, hothers, Option.none_or, List.find?_singleton]
  cases (resolve? root name).bind tree.read? <;> simp

theorem denies_fetch (h : Host) (tree : Folder) (hname : resolve? root name = none) :
    ((h.rooted root tree).fetch name).2.Denies ((h.rooted root tree).fetch name).1 := by
  rw [fetch_rooted, hname]
  intro f hf hticket
  rcases List.mem_append.mp hf with hf | hf
  · exact absurd hticket (by simpa using List.of_mem_filter hf)
  · rw [List.mem_singleton.mp hf]
    rfl

/-- A name is looked up exactly where it is relative and none of its components is a step upwards.
The path that is read then lies below the root; nothing but the file at this path decides what the
first poll brings. A name that is not looked up reads no file: its fetch is the same whatever the
files are, and polls of its ticket fail then and at any later time, until the ticket is given to
another fetch, for which all other tickets have to be given out first. -/
theorem names_stay_below_root (root name : String) :
    ((∃ path, resolve? root name = some path) ↔
      name.toList.head? ≠ some '/' ∧ ".." ∉ Text.split '/' name) ∧
    (∀ path, resolve? root name = some path →
      Path.normalized root <+: Path.normalized path) ∧
    (∀ (h : Host) (tree tree' : Folder),
      (((h.rooted root tree).fetch name).2.poll ((h.rooted root tree).fetch name).1).1 =
        ((resolve? root name).bind tree.read?).elim .failed .ready ∧
      ((∀ path, resolve? root name = some path → tree'.read? path = tree.read? path) →
        (h.rooted root tree').fetch name = (((h.rooted root tree).fetch name).1,
          ((h.rooted root tree).fetch name).2.rooted root tree'))) ∧
    (resolve? root name = none → ∀ (h : Host) (tree : Folder) (events : List Event),
      ((h.rooted root tree).fetch name).1 ∉ ((h.rooted root tree).fetch name).2.issued events →
      ((((h.rooted root tree).fetch name).2.run events).poll
        ((h.rooted root tree).fetch name).1).1 = .failed) ∧
    (∀ (h : Host) (events : List Event), (h.fetch name).1 ∈ (h.fetch name).2.issued events →
      halfLimit ≤ events.countP (·.isFetch)) := by
  refine ⟨?_, ?_, ?_, ?_, ?_⟩
  · rw [← Path.written, ← Path.isConfined_iff]
    simp [resolve?_eq_some]
  · intro path hpath
    obtain ⟨hconfined, rfl⟩ := resolve?_eq_some.mp hpath
    rw [Path.normalized_join root hconfined]
    exact List.prefix_append _ _
  · intro h tree tree'
    refine ⟨poll_fetch_rooted h root name tree, fun hsame => ?_⟩
    have hread : (resolve? root name).bind tree'.read? = (resolve? root name).bind tree.read? := by
      cases hpath : resolve? root name with
      | none => rfl
      | some path => exact hsame path hpath
    rw [fetch_rooted, fetch_rooted, hread]
    rfl
  · intro hname h tree events hissued
    exact ((denies_fetch h tree hname).run events hissued).poll
  · intro h events hmem
    exact halfLimit_le_of_reissued hmem

/-- A name that leads into a folder and out of the root: polls fail before and after another
fetch. Slashes and dots lead nowhere. -/
theorem names_stay_below_root_upwards :
    resolve? "data" "a/../../secret" = none ∧
    (((({ arena := .ofBase 0 1, source := .folder "data" ⟨[]⟩ } : Host).rooted "data"
      ⟨[("secret", [7])]⟩).fetch "a/../../secret").2.run [.poll 1, .fetch "b"] |>.poll 1).1 =
        .failed ∧
    resolve? "data" "./a//b/" = some "data/./a//b/" ∧
    Path.normalized "data" <+: Path.normalized "data/./a//b/" := by
  have hnone : resolve? "data" "a/../../secret" = none := by decide
  have hsome : resolve? "data" "./a//b/" = some "data/./a//b/" := by decide
  refine ⟨hnone, ?_, hsome, (names_stay_below_root "data" "./a//b/").2.1 _ hsome⟩
  exact (names_stay_below_root "data" "a/../../secret").2.2.2.1 hnone _ _ _ (by decide)

end Host
end GuestLibrary
