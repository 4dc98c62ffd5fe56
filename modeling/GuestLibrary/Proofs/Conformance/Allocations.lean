import GuestLibrary.Conformance.Execution
import GuestLibrary.Proofs.Guest.Granting

/-! Sequences of allocations with tags, whatever they ask for and in whatever order. The heap keeps
its invariant through every operation that is not stopped, so that what it grants lies in memory and
has room for the bytes that were asked for. Main statement: a sequence ends with an answer, or with
what is wrong with an input, unless it fills a grant of no elements as if it had one or a size is
too large for the words or for a buffer. -/
namespace GuestLibrary
namespace Conformance

/-! An operation that is one of several is reached when those before it have gone well. -/

namespace Checked

variable {α β : Type} {x : Checked α} {f : α → Checked β}

theorem bind_ok {a : α} (h : x.run = .ok (.ok a)) : (x >>= f).run = (f a).run := by
  rw [ExceptT.run_bind, h]
  rfl

theorem bind_fault {fault : Fault} (h : x.run = .ok (.error fault)) :
    (x >>= f).run = .ok (.error fault) := by
  rw [ExceptT.run_bind, h]
  rfl

theorem bind_stop {stop : Stop} (h : x.run = .error stop) : (x >>= f).run = .error stop := by
  rw [ExceptT.run_bind, h]
  rfl

/-- A computation that nothing is wrong with may be stopped. -/
theorem run_lift (x : Except Stop α) : (liftM x : Checked α).run = x.map .ok := by
  cases x <;> rfl

theorem run_stopped {x : Except Stop α} {stop : Stop} (h : x = .error stop) :
    (liftM x : Checked α).run = .error stop := by
  rw [h]
  rfl

theorem run_computed {x : Except Stop α} {a : α} (h : x = .ok a) :
    (liftM x : Checked α).run = .ok (.ok a) := by
  rw [h]
  rfl

theorem run_input {x : Except Fault α} {a : α} (h : x = .ok a) :
    (liftM x : Checked α).run = .ok (.ok a) := by
  rw [h]
  rfl

theorem run_bad_input {x : Except Fault α} {fault : Fault} (h : x = .error fault) :
    (liftM x : Checked α).run = .ok (.error fault) := by
  rw [h]
  rfl

theorem run_lift_bind (x : Except Stop α) (f : α → Except Stop β) :
    (do liftM (f (← liftM x)) : Checked β).run = (x >>= f).map .ok := by
  cases x with
  | error stop => rfl
  | ok a => exact run_lift (f a)

theorem run_lift_map (x : Except Stop α) (f : α → β) :
    (do return f (← liftM x) : Checked β).run = x.map fun a => .ok (f a) := by
  cases x <;> rfl

end Checked

/-- An operation that asks for no elements of `size` bytes each, all cleared. -/
structure ClearsNone (operation : Json) (size : Nat) : Prop where
  tagged : ∃ tag, Arguments.text ⟨operation⟩ "tag" = .ok tag
  isCalloc : Arguments.text ⟨operation⟩ "op" = .ok "calloc"
  size_eq : Arguments.natural ⟨operation⟩ "size" 0 = .ok size
  count_eq : Arguments.natural ⟨operation⟩ "count" 1 = .ok 0

namespace HeapRun

variable {run run' : HeapRun} {tag name : String} {size fin length : Nat} {operation : Json}
  {args : Arguments}

/-- What an operation asks of the heap. -/
def request? (run : HeapRun) (args : Arguments) (tag : String) : String → Option Heap.Request
  | "malloc" => do
    let size ← (args.natural "size" 0).toOption
    return .allocate size
  | "calloc" => do
    let size ← (args.natural "size" 0).toOption
    let count ← (args.natural "count" 1).toOption
    return .allocateZeroed count size
  | "realloc" => do
    let size ← (args.natural "size" 0).toOption
    let current ← run.guest.resized? ((run.tags.lookup tag).getD (0, 0)).1
    return .reallocate current size
  | _ => none

/-- An operation asks for what stops the heap. -/
def Halts (run : HeapRun) (operation : Json) : Prop :=
  ∃ tag name r, Arguments.text ⟨operation⟩ "tag" = .ok tag ∧
    Arguments.text ⟨operation⟩ "op" = .ok name ∧ run.request? ⟨operation⟩ tag name = some r ∧
    run.guest.Stops r

/-- A fresh grant is filled, unless it is shorter than what is filled in it. -/
theorem granted_cases {needed : Nat} {r : Option Allocation × Guest} (hb : r.2.Bounded)
    (hr : Guest.Served r.1 r.2 needed) (run : HeapRun) (tag : String) (size : Nat) :
    (∃ run', run.granted tag size r = .ok run' ∧ run'.guest.Bounded) ∨
    ∃ x, r.1 = some x ∧ x.length < size ∧
      run.granted tag size r = .error (.slice size x.length) := by
  obtain ⟨grant, guest⟩ := r
  cases grant with
  | none => exact Or.inl ⟨_, rfl, hb⟩
  | some x =>
    have hroom : guest.room x = x.length := Guest.room_of_inside (hr.inside x rfl)
    unfold granted
    dsimp only
    rw [hroom]
    by_cases hlt : x.length < size
    · rw [Word.cut_stops hlt]
      exact Or.inr ⟨x, rfl, hlt, rfl⟩
    · rw [Word.cut_eq (Nat.le_of_not_lt hlt)]
      exact Or.inl ⟨_, rfl, hb.write _ _⟩

/-- A grant with room for what is filled in it is filled. -/
theorem granted_of_served {r : Option Allocation × Guest} (hb : r.2.Bounded)
    (hr : Guest.Served r.1 r.2 size) (run : HeapRun) (tag : String) :
    ∃ run', run.granted tag size r = .ok run' ∧ run'.guest.Bounded := by
  rcases granted_cases hb hr run tag size with hok | ⟨x, hx, hlt, -⟩
  · exact hok
  · exact absurd (hr.size_le x hx) (Nat.not_le_of_lt hlt)

/-- Whatever a tag stands for, its old bytes are checked and its new ones filled, unless the heap is
stopped. -/
theorem resize_of_computed (hb : run.guest.Bounded) {tag : String} {size : Nat}
    (hrun : Guest.Machine.reallocAddress run.guest ((run.tags.lookup tag).getD (0, 0)).1 size =
      .ok (run.guest.reallocAddress ((run.tags.lookup tag).getD (0, 0)).1 size))
    (hkept : (run.guest.reallocAddress ((run.tags.lookup tag).getD (0, 0)).1 size).2.Bounded) :
    ∃ run', run.resize tag size = .ok run' ∧ run'.guest.Bounded := by
  unfold resize
  generalize (run.tags.lookup tag).getD (0, 0) = place at hrun hkept ⊢
  obtain ⟨address, old⟩ := place
  dsimp only at hrun hkept ⊢
  have hinside := Guest.reallocAddress_inside hb address size
  rw [hrun]
  generalize run.guest.reallocAddress address size = moved at hinside hkept ⊢
  obtain ⟨moved, guest⟩ := moved
  dsimp only at hinside hkept ⊢
  simp only [bind, Except.bind, pure, Except.pure]
  by_cases hne : moved = 0
  · rw [if_pos hne]
    exact ⟨_, rfl, hkept⟩
  · -- what is checked is a part of what is filled, which lies in memory
    have hfill := hinside hne
    have hcheck := Nat.le_trans (Nat.add_le_add_left (Nat.min_le_right old size) _) hfill
    have hword := Heap.lt_wordLimit hkept.bounded.size_lt
    have hmemory : guest.memory.size = guest.host.arena.memory.size := rfl
    rw [if_neg hne, Word.sum_eq (by omega)]
    dsimp only
    rw [Word.cut_eq hcheck, Word.sum_eq (by omega)]
    dsimp only
    rw [Word.cut_eq hfill]
    exact ⟨_, rfl, hkept.write _ _⟩

theorem resize_of_stop {stop : Stop}
    (hrun : Guest.Machine.reallocAddress run.guest ((run.tags.lookup tag).getD (0, 0)).1 size =
      .error stop) : run.resize tag size = .error stop := by
  unfold resize
  generalize (run.tags.lookup tag).getD (0, 0) = place at hrun ⊢
  obtain ⟨address, old⟩ := place
  dsimp only at hrun ⊢
  rw [hrun]
  rfl

theorem perform_malloc (run : HeapRun) (tag : String) (hsize : args.natural "size" 0 = .ok size) :
    (run.perform args tag "malloc").run =
      (Guest.Machine.malloc run.guest size >>= run.granted tag size).map .ok := by
  unfold perform
  rw [hsize]
  exact Checked.run_lift_bind _ _

theorem perform_calloc (run : HeapRun) (tag : String) {count : Nat}
    (hsize : args.natural "size" 0 = .ok size) (hcount : args.natural "count" 1 = .ok count) :
    (run.perform args tag "calloc").run =
      (Guest.Machine.calloc run.guest count size >>= run.granted tag size).map .ok := by
  unfold perform
  rw [hsize, hcount]
  exact Checked.run_lift_bind _ _

theorem perform_realloc (run : HeapRun) (tag : String) (hsize : args.natural "size" 0 = .ok size) :
    (run.perform args tag "realloc").run = (run.resize tag size).map .ok := by
  unfold perform
  rw [hsize]
  exact Checked.run_lift _

theorem perform_free (run : HeapRun) (args : Arguments) (tag : String) :
    (run.perform args tag "free").run =
      (Guest.Machine.freeAddress run.guest ((run.tags.lookup tag).getD (0, 0)).1).map
        fun guest => .ok { run with guest } := by
  unfold perform
  exact Checked.run_lift_map _ _

/-- What is asked of the heap comes with all that the operation has to say. -/
theorem request?_cases {r : Heap.Request} (hr : run.request? args tag name = some r) :
    (∃ size, name = "malloc" ∧ args.natural "size" 0 = .ok size ∧ r = .allocate size) ∨
    (∃ count size, name = "calloc" ∧ args.natural "size" 0 = .ok size ∧
      args.natural "count" 1 = .ok count ∧ r = .allocateZeroed count size) ∨
    ∃ current size, name = "realloc" ∧ args.natural "size" 0 = .ok size ∧
      run.guest.resized? ((run.tags.lookup tag).getD (0, 0)).1 = some current ∧
      r = .reallocate current size := by
  unfold request? at hr
  split at hr
  · cases hsize : args.natural "size" 0 with
    | error fault =>
      rw [hsize] at hr
      cases hr
    | ok size =>
      rw [hsize] at hr
      exact Or.inl ⟨size, rfl, rfl, (Option.some.inj hr).symm⟩
  · cases hsize : args.natural "size" 0 with
    | error fault =>
      rw [hsize] at hr
      cases hr
    | ok size =>
    cases hcount : args.natural "count" 1 with
    | error fault =>
      rw [hsize, hcount] at hr
      cases hr
    | ok count =>
      rw [hsize, hcount] at hr
      exact Or.inr (Or.inl ⟨count, size, rfl, rfl, rfl, (Option.some.inj hr).symm⟩)
  · cases hsize : args.natural "size" 0 with
    | error fault =>
      rw [hsize] at hr
      cases hr
    | ok size =>
    cases hcurrent : run.guest.resized? ((run.tags.lookup tag).getD (0, 0)).1 with
    | none =>
      rw [hsize, hcurrent] at hr
      cases hr
    | some current =>
      rw [hsize, hcurrent] at hr
      exact Or.inr (Or.inr ⟨current, size, rfl, rfl, rfl, (Option.some.inj hr).symm⟩)
  · cases hr

/-- An operation that asks for what stops the heap is stopped. -/
theorem perform_stops (hb : run.guest.Bounded) {r : Heap.Request}
    (hr : run.request? args tag name = some r) (hstops : run.guest.Stops r) :
    ∃ stop, stop.Exceeds ∧ (run.perform args tag name).run = .error stop := by
  rcases request?_cases hr with ⟨size, rfl, hsize, rfl⟩ | ⟨count, size, rfl, hsize, hcount, rfl⟩ |
    ⟨current, size, rfl, hsize, hcurrent, rfl⟩
  · obtain ⟨stop, hstop, he⟩ := (Guest.malloc_computes hb size).stopped hstops
    exact ⟨stop, hstop, by rw [perform_malloc run tag hsize, he]; rfl⟩
  · obtain ⟨stop, hstop, he⟩ := (Guest.calloc_computes hb count size).stopped hstops
    exact ⟨stop, hstop, by rw [perform_calloc run tag hsize hcount, he]; rfl⟩
  · obtain ⟨stop, hstop, he⟩ := (Guest.reallocAddress_computes hb _ size).stopped
      ⟨current, hcurrent, hstops⟩
    refine ⟨stop, hstop, ?_⟩
    rw [perform_realloc run tag hsize, resize_of_stop he]
    rfl

/-- Any other operation goes well, or something is wrong with it, or it clears a grant of no
elements and fills it past its end. -/
theorem perform_cases (hb : run.guest.Bounded) (args : Arguments) (tag name : String)
    (hnot : ∀ r, run.request? args tag name = some r → ¬ run.guest.Stops r) :
    (∃ run', (run.perform args tag name).run = .ok (.ok run') ∧ run'.guest.Bounded) ∨
    (∃ fault, (run.perform args tag name).run = .ok (.error fault)) ∨
    ∃ size x, name = "calloc" ∧ args.natural "size" 0 = .ok size ∧
      args.natural "count" 1 = .ok 0 ∧ (run.guest.calloc 0 size).1 = some x ∧ x.length < size ∧
      (run.perform args tag name).run = .error (.slice size x.length) := by
  by_cases hmalloc : name = "malloc"
  · subst hmalloc
    cases hsize : args.natural "size" 0 with
    | error fault => exact Or.inr (Or.inl ⟨fault, by unfold perform; rw [hsize]; rfl⟩)
    | ok size =>
      have hcomputes := Guest.malloc_computes hb size
      have hstops := hnot (.allocate size) (by unfold request?; rw [hsize]; rfl)
      obtain ⟨run', he, hrun'⟩ := granted_of_served (hcomputes.kept hstops)
        (Guest.served_malloc hb size) run tag
      refine Or.inl ⟨run', ?_, hrun'⟩
      rw [perform_malloc run tag hsize, hcomputes.computed hstops]
      exact congrArg (Except.map Except.ok) he
  by_cases hcalloc : name = "calloc"
  · subst hcalloc
    cases hsize : args.natural "size" 0 with
    | error fault => exact Or.inr (Or.inl ⟨fault, by unfold perform; rw [hsize]; rfl⟩)
    | ok size =>
    cases hcount : args.natural "count" 1 with
    | error fault => exact Or.inr (Or.inl ⟨fault, by unfold perform; rw [hsize, hcount]; rfl⟩)
    | ok count =>
    have hcomputes := Guest.calloc_computes hb count size
    have hstops := hnot (.allocateZeroed count size) (by unfold request?; rw [hsize, hcount]; rfl)
    have hserved := Guest.served_calloc hb count size
    rw [perform_calloc run tag hsize hcount, hcomputes.computed hstops]
    rcases granted_cases (hcomputes.kept hstops) hserved run tag size with
      ⟨run', he, hrun'⟩ | ⟨x, hx, hlt, he⟩
    · exact Or.inl ⟨run', congrArg (Except.map Except.ok) he, hrun'⟩
    · -- one element would fill the grant
      have hnone : count = 0 := by
        by_contra hne
        have hle := Nat.le_mul_of_pos_left size (Nat.pos_of_ne_zero hne)
        exact absurd (Nat.le_trans hle (hserved.size_le x hx)) (Nat.not_le_of_lt hlt)
      subst hnone
      exact Or.inr (Or.inr ⟨size, x, rfl, rfl, rfl, hx, hlt,
        congrArg (Except.map Except.ok) he⟩)
  by_cases hrealloc : name = "realloc"
  · subst hrealloc
    cases hsize : args.natural "size" 0 with
    | error fault => exact Or.inr (Or.inl ⟨fault, by unfold perform; rw [hsize]; rfl⟩)
    | ok size =>
      have hcomputes := Guest.reallocAddress_computes hb ((run.tags.lookup tag).getD (0, 0)).1 size
      have hstops : ¬ ∃ current, run.guest.resized? ((run.tags.lookup tag).getD (0, 0)).1 =
          some current ∧ run.guest.Stops (.reallocate current size) := by
        rintro ⟨current, hcurrent, hstops⟩
        exact hnot (.reallocate current size) (by unfold request?; rw [hsize, hcurrent]; rfl) hstops
      obtain ⟨run', he, hrun'⟩ := resize_of_computed hb (hcomputes.computed hstops)
        (hcomputes.kept hstops)
      refine Or.inl ⟨run', ?_, hrun'⟩
      rw [perform_realloc run tag hsize, he]
      rfl
  by_cases hfree : name = "free"
  · subst hfree
    obtain ⟨he, hfreed⟩ := Guest.freeAddress_eq hb ((run.tags.lookup tag).getD (0, 0)).1
    exact Or.inl ⟨{ run with guest := _ }, by rw [perform_free, he]; rfl, hfreed⟩
  · refine Or.inr (Or.inl ⟨.unknownOperation name, ?_⟩)
    simp only [perform]
    rfl

/-- What one operation can do, unless it asks for what stops the heap. -/
theorem step_cases (hb : run.guest.Bounded) (hnot : ¬ run.Halts operation) :
    (∃ run', (run.step operation).run = .ok (.ok run') ∧ run'.guest.Bounded) ∨
    (∃ fault, (run.step operation).run = .ok (.error fault)) ∨
    ∃ size x, ClearsNone operation size ∧ (run.guest.calloc 0 size).1 = some x ∧
      x.length < size ∧ (run.step operation).run = .error (.slice size x.length) := by
  unfold step
  dsimp only
  cases htag : Arguments.text ⟨operation⟩ "tag" with
  | error fault => exact Or.inr (Or.inl ⟨fault, rfl⟩)
  | ok tag =>
  cases hop : Arguments.text ⟨operation⟩ "op" with
  | error fault => exact Or.inr (Or.inl ⟨fault, rfl⟩)
  | ok name =>
  rcases perform_cases hb ⟨operation⟩ tag name
      (fun r hr hstops => hnot ⟨tag, name, r, htag, hop, hr, hstops⟩) with
    hok | hfault | ⟨size, x, rfl, hsize, hcount, hx, hlt, he⟩
  · exact Or.inl hok
  · exact Or.inr (Or.inl hfault)
  · exact Or.inr (Or.inr ⟨size, x, ⟨⟨tag, htag⟩, hop, hsize, hcount⟩, hx, hlt, he⟩)

theorem step_stops (hb : run.guest.Bounded) (hh : run.Halts operation) :
    ∃ stop, stop.Exceeds ∧ (run.step operation).run = .error stop := by
  obtain ⟨tag, name, r, htag, hop, hr, hstops⟩ := hh
  obtain ⟨stop, hstop, he⟩ := perform_stops hb hr hstops
  refine ⟨stop, hstop, ?_⟩
  unfold step
  dsimp only
  rw [htag, hop]
  exact he

/-- Clearing no elements stops the program where the grant is shorter than one, though it does not
stop the heap. -/
theorem step_of_clearsNone (hb : run.guest.Bounded) {x : Allocation}
    (hclear : ClearsNone operation size) (hx : (run.guest.calloc 0 size).1 = some x)
    (hlt : x.length < size) : (run.step operation).run = .error (.slice size x.length) := by
  obtain ⟨tag, htag⟩ := hclear.tagged
  have hstops : ¬ run.guest.Stops (.allocateZeroed 0 size) := by
    refine hb.not_stops fun _ => ?_
    rw [Heap.Request.total, Nat.zero_mul]
    decide
  have hcomputes := Guest.calloc_computes hb 0 size
  have hinside := (Guest.served_calloc hb 0 size).inside x hx
  have hrun := perform_calloc run tag hclear.size_eq hclear.count_eq
  rw [hcomputes.computed hstops] at hrun
  unfold step
  dsimp only
  rw [htag, hclear.isCalloc]
  refine Eq.trans hrun ?_
  generalize run.guest.calloc 0 size = r at hx hinside ⊢
  obtain ⟨grant, guest⟩ := r
  obtain rfl : grant = some x := hx
  simp only [granted, Guest.room_of_inside hinside, Word.cut_stops hlt, bind, Except.bind,
    Except.map]

/-- A sequence comes to an operation that asks for no elements of `fin` bytes each, and is granted
only `length` bytes. -/
def Overruns (run : HeapRun) (operations : List Json) (fin length : Nat) : Prop :=
  ∃ before operation after reached x, operations = before ++ operation :: after ∧
    (before.foldlM step run).run = .ok (.ok reached) ∧ ClearsNone operation fin ∧
    (reached.guest.calloc 0 fin).1 = some x ∧ x.length = length ∧ length < fin

/-- A sequence comes to an operation that asks for what stops the heap. -/
def Exceeds (run : HeapRun) (operations : List Json) : Prop :=
  ∃ before operation after reached, operations = before ++ operation :: after ∧
    (before.foldlM step run).run = .ok (.ok reached) ∧ reached.Halts operation

/-- What follows an operation that has gone well. -/
theorem foldlM_cons_of_ok {operations : List Json}
    (he : (run.step operation).run = .ok (.ok run')) :
    ((operation :: operations).foldlM step run).run = (operations.foldlM step run').run := by
  rw [List.foldlM_cons]
  exact Checked.bind_ok he

/-- How a sequence can end, by induction on its operations. -/
theorem run_cases (hb : run.guest.Bounded) (operations : List Json) :
    (∃ run', (operations.foldlM step run).run = .ok (.ok run') ∧ run'.guest.Bounded) ∨
    (∃ fault, (operations.foldlM step run).run = .ok (.error fault)) ∨
    (∃ fin length, run.Overruns operations fin length ∧
      (operations.foldlM step run).run = .error (.slice fin length)) ∨
    run.Exceeds operations ∧
      ∃ stop, stop.Exceeds ∧ (operations.foldlM step run).run = .error stop := by
  induction operations generalizing run with
  | nil => exact Or.inl ⟨run, rfl, hb⟩
  | cons operation rest ih =>
    by_cases hh : run.Halts operation
    · obtain ⟨stop, hstop, he⟩ := step_stops hb hh
      refine Or.inr (Or.inr (Or.inr ⟨⟨[], operation, rest, run, rfl, rfl, hh⟩, stop, hstop, ?_⟩))
      rw [List.foldlM_cons]
      exact Checked.bind_stop he
    rcases step_cases hb hh with
      ⟨next, he, hnext⟩ | ⟨fault, he⟩ | ⟨size, x, hclear, hx, hlt, he⟩
    · rw [foldlM_cons_of_ok he]
      rcases ih hnext with hok | hfault | ⟨fin, length, hover, hslice⟩ | ⟨hexceeds, hstop⟩
      · exact Or.inl hok
      · exact Or.inr (Or.inl hfault)
      · obtain ⟨before, later, after, reached, x, rfl, hreached, hrest⟩ := hover
        exact Or.inr (Or.inr (Or.inl ⟨fin, length, ⟨operation :: before, later, after, reached, x,
          rfl, (foldlM_cons_of_ok he).trans hreached, hrest⟩, hslice⟩))
      · obtain ⟨before, later, after, reached, rfl, hreached, hrest⟩ := hexceeds
        exact Or.inr (Or.inr (Or.inr ⟨⟨operation :: before, later, after, reached, rfl,
          (foldlM_cons_of_ok he).trans hreached, hrest⟩, hstop⟩))
    · refine Or.inr (Or.inl ⟨fault, ?_⟩)
      rw [List.foldlM_cons]
      exact Checked.bind_fault he
    · refine Or.inr (Or.inr (Or.inl ⟨size, x.length,
        ⟨[], operation, rest, run, x, rfl, rfl, hclear, hx, rfl, hlt⟩, ?_⟩))
      rw [List.foldlM_cons]
      exact Checked.bind_stop he

/-- What operations that have gone well lead to. -/
theorem bounded_of_run (hb : run.guest.Bounded) {operations : List Json}
    (he : (operations.foldlM step run).run = .ok (.ok run')) : run'.guest.Bounded := by
  rcases run_cases hb operations with
    ⟨reached, hrun, hreached⟩ | ⟨fault, hrun⟩ | ⟨fin, length, -, hrun⟩ | ⟨-, stop, -, hrun⟩
  · obtain rfl := Except.ok.inj (Except.ok.inj (he.symm.trans hrun))
    exact hreached
  all_goals cases he.symm.trans hrun

/-- A sequence that comes to an operation which is stopped ends there. -/
theorem run_of_stopped {before after : List Json} {stop : Stop}
    (hreached : (before.foldlM step run).run = .ok (.ok run'))
    (he : (run'.step operation).run = .error stop) :
    ((before ++ operation :: after).foldlM step run).run = .error stop := by
  rw [List.foldlM_append, Checked.bind_ok hreached, List.foldlM_cons]
  exact Checked.bind_stop he

theorem run_of_overruns (hb : run.guest.Bounded) {operations : List Json}
    (hover : run.Overruns operations fin length) :
    (operations.foldlM step run).run = .error (.slice fin length) := by
  obtain ⟨before, operation, after, reached, x, rfl, hreached, hclear, hx, rfl, hlt⟩ := hover
  exact run_of_stopped hreached
    (step_of_clearsNone (bounded_of_run hb hreached) hclear hx hlt)

theorem run_of_exceeds (hb : run.guest.Bounded) {operations : List Json}
    (hexceeds : run.Exceeds operations) :
    ∃ stop, stop.Exceeds ∧ (operations.foldlM step run).run = .error stop := by
  obtain ⟨before, operation, after, reached, rfl, hreached, hh⟩ := hexceeds
  obtain ⟨stop, hstop, he⟩ := step_stops (bounded_of_run hb hreached) hh
  exact ⟨stop, hstop, run_of_stopped hreached he⟩

end HeapRun

/-- What a program has behind the base of its heap: a page without its first KiB. -/
theorem behind_heapBase :
    (testGuest {}).host.arena.memory.size - (testGuest {}).host.arena.heapBase = 64512 := by
  have hsize : (testGuest {}).host.arena.memory.size = 131072 := Arena.size_ofBase _ _
  rw [hsize]
  rfl

/-- The first region of a program begins with three free blocks. -/
theorem addRegion_testGuest (call : HeapCall) {need : Nat} (hneed : need ≤ 64512) :
    ∃ h rest, (testGuest {}).heap.addRegion (testGuest {}).host.arena call need =
      (.ok (), h, (testGuest {}).host.arena) ∧
    h.table.blocks = .free 66560 2048 :: .free 68608 2048 :: .free 70656 2048 :: rest := by
  obtain ⟨h, hregion, -, -, hblocks⟩ := @Heap.addRegion_behind (testGuest {}).host.arena {}
    call need 64512 behind_heapBase hneed (by decide) (by decide)
  obtain ⟨rest, hcut⟩ : ∃ rest, BlockTable.cut 66560 64512 2048 31 =
      .free 66560 2048 :: .free 68608 2048 :: .free 70656 2048 :: rest := ⟨_, rfl⟩
  exact ⟨h, rest, hregion, hblocks.trans hcut⟩

/-- Of whatever size no elements are asked for, the first grant of a program is a whole block. -/
theorem calloc_none_first (size : Nat) :
    ((testGuest {}).calloc 0 size).1 = some ⟨0, 66564, 2044⟩ := by
  obtain ⟨h, rest, hregion, hblocks⟩ :=
    addRegion_testGuest .calloc (by decide : blockHeader ≤ 64512)
  have hfind : ∃ table, h.table.find? 0 h.table.size (0 + blockHeader) =
      some (⟨0, 0, .unsplit⟩, table) ∧ table.blocks[0]? = some ⟨66560, 2048, 1, true⟩ := by
    simp [BlockTable.find?, BlockTable.size, hblocks, BlockTable.firstFit?, BlockTable.grantFrom?,
      BlockTable.gather?, BlockTable.divide, Block.free, Block.isHole, blockHeader, pageSize]
  obtain ⟨table, hfind, hfirst⟩ := hfind
  obtain ⟨h', a', he, -⟩ := Heap.allocate_of_acquired (by decide) rfl hregion hfind hfirst
  rw [Guest.calloc, Guest.onHeap_fst, Heap.allocateZeroed]
  simp only [Nat.zero_mul]
  rw [he]
  rfl

/-- An operation does not ask for as many bytes as words nearly reach to. -/
def Moderate (operation : Json) : Prop :=
  ∀ size, Arguments.natural ⟨operation⟩ "size" 0 = .ok size → Heap.Fits size ∧
    ∀ count, Arguments.natural ⟨operation⟩ "count" 1 = .ok count → Heap.Fits (count * size)

/-- A moderate operation does not stop the heap. -/
theorem HeapRun.not_halts {run : HeapRun} {operation : Json} (hb : run.guest.Bounded)
    (hm : Moderate operation) : ¬ run.Halts operation := by
  rintro ⟨tag, name, r, -, -, hr, hstops⟩
  refine hb.not_stops ?_ hstops
  rcases HeapRun.request?_cases hr with ⟨size, -, hsize, rfl⟩ |
    ⟨count, size, -, hsize, hcount, rfl⟩ | ⟨current, size, -, hsize, -, rfl⟩
  · exact (hm size hsize).1
  · exact (hm size hsize).2 count hcount
  · exact (hm size hsize).1

/-- The block table of a sequence finds a buffer. -/
def HasTable (maxPages : Nat) : Prop :=
  HeapLimits.maxBlocks { maxPages } * Heap.Machine.blockBytes < Word.bufferLimit

theorem start_computes (maxPages : Nat) :
    Stop.Computes Guest.Bounded (¬ HasTable maxPages)
      (Guest.Machine.start testHost { limits := { maxPages } }) (testGuest { maxPages }) := by
  have hsize : testHost.arena.memory.size = 131072 := Arena.size_ofBase _ _
  refine (Guest.start_computes (Arena.Simulated.ofBase _ _) ?_ ?_ _).congr Nat.not_lt.symm
  · rw [hsize]
    decide
  · decide

variable {args : Arguments} {fin length : Nat}

/-- The inputs of a sequence that comes to a fill past the end of a grant. -/
def Arguments.Overruns (args : Arguments) (fin length : Nat) : Prop :=
  ∃ maxPages operations, args.natural "max_pages" (HeapLimits.maxPages {}) = .ok maxPages ∧
    HasTable maxPages ∧ args.array "ops" = .ok operations ∧
    HeapRun.Overruns { guest := testGuest { maxPages } } operations fin length

/-- The inputs of a sequence that has no table, or comes to an operation that stops the heap. -/
def Arguments.Exceeds (args : Arguments) : Prop :=
  ∃ maxPages, args.natural "max_pages" (HeapLimits.maxPages {}) = .ok maxPages ∧
    (HasTable maxPages → ∃ operations, args.array "ops" = .ok operations ∧
      HeapRun.Exceeds { guest := testGuest { maxPages } } operations)

section Sequences

variable {maxPages : Nat} {operations : List Json}

theorem runMallocSequence_without_table
    (hpages : args.natural "max_pages" (HeapLimits.maxPages {}) = .ok maxPages)
    (htable : ¬ HasTable maxPages) :
    ∃ stop, stop.Exceeds ∧ (runMallocSequence args).run = .error stop := by
  obtain ⟨stop, hstop, he⟩ := (start_computes maxPages).stopped htable
  exact ⟨stop, hstop, (Checked.bind_ok (Checked.run_input hpages)).trans
    (Checked.bind_stop (Checked.run_stopped he))⟩

/-- What follows the inputs of a sequence that has a table. -/
theorem runMallocSequence_of_table
    (hpages : args.natural "max_pages" (HeapLimits.maxPages {}) = .ok maxPages)
    (htable : HasTable maxPages) :
    (runMallocSequence args).run = (do
      let operations ← args.array "ops"
      let run ← operations.foldlM HeapRun.step { guest := testGuest { maxPages } }
      return run.execution : Checked Execution).run :=
  (Checked.bind_ok (Checked.run_input hpages)).trans
    (Checked.bind_ok
      (Checked.run_computed ((start_computes maxPages).computed (not_not.mpr htable))))

/-- A sequence that is begun is the run of its operations. -/
theorem runMallocSequence_eq
    (hpages : args.natural "max_pages" (HeapLimits.maxPages {}) = .ok maxPages)
    (htable : HasTable maxPages) (hops : args.array "ops" = .ok operations) :
    (runMallocSequence args).run = (do
      let run ← operations.foldlM HeapRun.step { guest := testGuest { maxPages } }
      return run.execution : Checked Execution).run :=
  (runMallocSequence_of_table hpages htable).trans (Checked.bind_ok (Checked.run_input hops))

theorem bounded_of_hasTable (htable : HasTable maxPages) :
    (HeapRun.mk (testGuest { maxPages }) [] 0 0).guest.Bounded :=
  (start_computes maxPages).kept (not_not.mpr htable)

/-- How a whole call can end. -/
theorem runMallocSequence_cases (args : Arguments) :
    (∃ r : Except Fault Execution, (runMallocSequence args).run = .ok r) ∨
    (∃ fin length, args.Overruns fin length ∧
      (runMallocSequence args).run = .error (.slice fin length)) ∨
    args.Exceeds ∧ ∃ stop, stop.Exceeds ∧ (runMallocSequence args).run = .error stop := by
  cases hpages : args.natural "max_pages" (HeapLimits.maxPages {}) with
  | error fault => exact Or.inl ⟨.error fault, Checked.bind_fault (Checked.run_bad_input hpages)⟩
  | ok maxPages =>
  by_cases htable : HasTable maxPages
  swap
  · exact Or.inr (Or.inr ⟨⟨maxPages, hpages, fun h => absurd h htable⟩,
      runMallocSequence_without_table hpages htable⟩)
  cases hops : args.array "ops" with
  | error fault =>
    exact Or.inl ⟨.error fault, (runMallocSequence_of_table hpages htable).trans
      (Checked.bind_fault (Checked.run_bad_input hops))⟩
  | ok operations =>
  rw [runMallocSequence_eq hpages htable hops]
  rcases HeapRun.run_cases (bounded_of_hasTable htable) operations with
    ⟨run', he, -⟩ | ⟨fault, he⟩ | ⟨fin, length, hover, he⟩ | ⟨hexceeds, stop, hstop, he⟩
  · exact Or.inl ⟨.ok run'.execution, Checked.bind_ok he⟩
  · exact Or.inl ⟨.error fault, Checked.bind_fault he⟩
  · exact Or.inr (Or.inl ⟨fin, length, ⟨maxPages, operations, hpages, htable, hops, hover⟩,
      Checked.bind_stop he⟩)
  · exact Or.inr (Or.inr ⟨⟨maxPages, hpages, fun _ => ⟨operations, hops, hexceeds⟩⟩, stop, hstop,
      Checked.bind_stop he⟩)

theorem runMallocSequence_of_overruns (hover : args.Overruns fin length) :
    (runMallocSequence args).run = .error (.slice fin length) := by
  obtain ⟨maxPages, operations, hpages, htable, hops, hover⟩ := hover
  rw [runMallocSequence_eq hpages htable hops]
  exact Checked.bind_stop (HeapRun.run_of_overruns (bounded_of_hasTable htable) hover)

theorem runMallocSequence_of_exceeds (hexceeds : args.Exceeds) :
    ∃ stop, stop.Exceeds ∧ (runMallocSequence args).run = .error stop := by
  obtain ⟨maxPages, hpages, hexceeds⟩ := hexceeds
  by_cases htable : HasTable maxPages
  · obtain ⟨operations, hops, hexceeds⟩ := hexceeds htable
    obtain ⟨stop, hstop, he⟩ := HeapRun.run_of_exceeds (bounded_of_hasTable htable) hexceeds
    rw [runMallocSequence_eq hpages htable hops]
    exact ⟨stop, hstop, Checked.bind_stop he⟩
  · exact runMallocSequence_without_table hpages htable

/-- Moderate operations that clear nothing but empty elements come neither to a fill past a grant
nor to what stops the heap. -/
theorem ends_of_moderate
    (htables : ∀ maxPages, args.natural "max_pages" (HeapLimits.maxPages {}) = .ok maxPages →
      HasTable maxPages)
    (hops : ∀ operations, args.array "ops" = .ok operations → ∀ operation ∈ operations,
      Moderate operation ∧ ∀ size, ClearsNone operation size → size = 0) :
    (¬ ∃ fin length, args.Overruns fin length) ∧ ¬ args.Exceeds := by
  constructor
  · rintro ⟨fin, length, maxPages, operations, -, -, hlist, before, operation, after, reached, x,
      rfl, -, hclear, -, -, hlt⟩
    rw [(hops _ hlist operation (by simp)).2 fin hclear] at hlt
    exact absurd hlt (Nat.not_lt_zero _)
  · rintro ⟨maxPages, hpages, hexceeds⟩
    have htable := htables maxPages hpages
    obtain ⟨operations, hlist, before, operation, after, reached, rfl, hreached, hh⟩ :=
      hexceeds htable
    have hb := HeapRun.bounded_of_run (bounded_of_hasTable htable) hreached
    exact HeapRun.not_halts hb (hops _ hlist operation (by simp)).1 hh

end Sequences

/-- A sequence of allocations, with any operations in any order and any ceiling on the pages, stops
with a slice out of range exactly where it comes to an operation that clears no elements and is
granted fewer bytes than one would have; and it stops with an excess exactly where it has no table
or comes to a size that stops the heap. Every other call ends with an answer or with what is wrong
with an input: those in particular that have a table, ask for moderate sizes and never clear no
elements of a size. -/
theorem sequences_stay_in_range (args : Arguments) :
    (∀ fin length, (runMallocSequence args).run = .error (.slice fin length) ↔
      args.Overruns fin length) ∧
    ((∃ stop, stop.Exceeds ∧ (runMallocSequence args).run = .error stop) ↔ args.Exceeds) ∧
    ((¬ ∃ fin length, args.Overruns fin length) → ¬ args.Exceeds →
      ∃ r : Except Fault Execution, (runMallocSequence args).run = .ok r) ∧
    ((∀ maxPages, args.natural "max_pages" (HeapLimits.maxPages {}) = .ok maxPages →
        HasTable maxPages) →
      (∀ operations, args.array "ops" = .ok operations → ∀ operation ∈ operations,
        Moderate operation ∧ ∀ size, ClearsNone operation size → size = 0) →
      ∃ r : Except Fault Execution, (runMallocSequence args).run = .ok r) := by
  have hends : (¬ ∃ fin length, args.Overruns fin length) → ¬ args.Exceeds →
      ∃ r : Except Fault Execution, (runMallocSequence args).run = .ok r := by
    intro hover hexceeds
    rcases runMallocSequence_cases args with hr | ⟨fin, length, h, -⟩ | ⟨h, -⟩
    · exact hr
    · exact absurd ⟨fin, length, h⟩ hover
    · exact absurd h hexceeds
  refine ⟨fun fin length => ⟨fun he => ?_, runMallocSequence_of_overruns⟩,
    ⟨?_, runMallocSequence_of_exceeds⟩, hends, fun htables hops => ?_⟩
  · rcases runMallocSequence_cases args with
      ⟨r, hr⟩ | ⟨fin', length', hover, he'⟩ | ⟨-, stop, hstop, he'⟩
    · cases he.symm.trans hr
    · obtain ⟨rfl, rfl⟩ := Stop.slice.inj (Except.error.inj (he.symm.trans he'))
      exact hover
    · obtain rfl := Except.error.inj (he.symm.trans he')
      exact (Stop.not_exceeds_slice fin length hstop).elim
  · rintro ⟨stop, hstop, he⟩
    rcases runMallocSequence_cases args with ⟨r, hr⟩ | ⟨fin, length, -, he'⟩ | ⟨hexceeds, -⟩
    · cases he.symm.trans hr
    · obtain rfl := Except.error.inj (he.symm.trans he')
      exact (Stop.not_exceeds_slice fin length hstop).elim
    · exact hexceeds
  · obtain ⟨hover, hexceeds⟩ := ends_of_moderate htables hops
    exact hends hover hexceeds

/-- A tag that is granted, released, resized after that and granted again, at last no elements of no
bytes. -/
theorem sequences_stay_in_range_reused : ∃ r : Except Fault Execution,
    (runMallocSequence ⟨.object [("ops", .array [
      .object [("op", .text "calloc"), ("tag", .text "a"), ("count", .integer 2),
        ("size", .integer 10)],
      .object [("op", .text "free"), ("tag", .text "a")],
      .object [("op", .text "realloc"), ("tag", .text "a"), ("size", .integer 4096)],
      .object [("op", .text "calloc"), ("tag", .text "a"), ("count", .integer 0)]])]⟩).run =
        .ok r := by
  refine (sequences_stay_in_range _).2.2.2 (fun maxPages hpages => ?_)
    fun operations hops operation hmem => ?_
  · obtain rfl := Except.ok.inj hpages
    unfold HasTable
    decide
  · obtain rfl := Except.ok.inj hops
    have hsizes : ∃ count size, Arguments.natural ⟨operation⟩ "count" 1 = .ok count ∧
        Arguments.natural ⟨operation⟩ "size" 0 = .ok size ∧
        Heap.Fits size ∧ Heap.Fits (count * size) ∧
        (count = 0 → size = 0) := by
      unfold Heap.Fits
      simp only [List.mem_cons, List.not_mem_nil, or_false] at hmem
      rcases hmem with rfl | rfl | rfl | rfl
      · exact ⟨2, 10, rfl, rfl, by decide⟩
      · exact ⟨1, 0, rfl, rfl, by decide⟩
      · exact ⟨1, 4096, rfl, rfl, by decide⟩
      · exact ⟨0, 0, rfl, rfl, by decide⟩
    obtain ⟨count, size, hcount, hsize, hfits, htotal, hnone⟩ := hsizes
    refine ⟨fun n hn => ?_, fun n hclear => ?_⟩
    · obtain rfl := Except.ok.inj (hsize.symm.trans hn)
      refine ⟨hfits, fun m hm => ?_⟩
      obtain rfl := Except.ok.inj (hcount.symm.trans hm)
      exact htotal
    · obtain rfl := Except.ok.inj (hsize.symm.trans hclear.size_eq)
      exact hnone (Except.ok.inj (hcount.symm.trans hclear.count_eq))

/-- No elements of 4096 bytes each are granted 2044 bytes, which a fill of 4096 runs past. -/
theorem clearing_none_overruns :
    (runMallocSequence ⟨.object [("ops", .array [.object [("op", .text "calloc"),
      ("tag", .text "a"), ("count", .integer 0), ("size", .integer 4096)]])]⟩).run =
        .error (.slice 4096 2044) :=
  runMallocSequence_of_overruns ⟨16, _, rfl, by unfold HasTable; decide, rfl, [], _, [], _,
    ⟨0, 66564, 2044⟩, rfl, rfl, ⟨⟨"a", rfl⟩, rfl, rfl, rfl⟩, calloc_none_first 4096, rfl,
    by decide⟩

end Conformance
end GuestLibrary
