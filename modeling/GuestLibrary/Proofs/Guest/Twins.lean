import GuestLibrary.Proofs.Guest.Calls
import GuestLibrary.Proofs.Stream.Console

/-! A program that reports its diagnostics beside one that only counts them. Both do the same, step
by step; the lines of the reports are all that stands on one console and not on the other. -/
namespace GuestLibrary

open StreamSystem

universe u v

/-- What happens to the console of a program that reports. -/
inductive Output
  | printed (chunk : Bytes)
  /-- A handler empties the console. -/
  | cleared
  | reported (d : Diagnostic)

namespace Output

def diagnostic? : Output → Option Diagnostic
  | reported d => some d
  | _ => none

/-- The chunk that is written. -/
def chunk? : Output → Option Bytes
  | printed chunk => some chunk
  | cleared => none
  | reported d => some (Guest.reportLine d)

def apply (c : Console) : Output → Console
  | printed chunk => c.push chunk
  | cleared => {}
  | reported d => c.push (Guest.reportLine d)

end Output

/-- A console after more outputs. -/
def Console.replay (c : Console) (out : List Output) : Console := out.foldl Output.apply c

/-- Outputs without the reports. -/
def unreported (out : List Output) : List Output := out.filter (·.diagnostic?.isNone)

/-- A handler that does not read the console does the same to each; it empties the console only
where handlers may. -/
def ExitHandler.Blind (clearing : Prop) (f : ExitHandler) : Prop :=
  ∃ out : List Output, (∀ o ∈ out, o.diagnostic? = none) ∧ (.cleared ∈ out → clearing) ∧
    ∀ c, f c = c.replay out

/-- The handlers that a call registers do not read the console. -/
def LibraryCall.Discreet (clearing : Prop) : {α : Type} → LibraryCall α → Prop
  | _, .atexit handler | _, .atQuickExit handler => handler.Blind clearing
  | _, _ => True

def Guest.Step.Discreet (clearing : Prop) : Guest.Step → Prop
  | .call c => c.Discreet clearing
  | _ => True

theorem Console.replay_append (c : Console) (out more : List Output) :
    c.replay (out ++ more) = (c.replay out).replay more :=
  List.foldl_append

/-- Outputs that do not empty a console leave their chunks on it. -/
theorem Console.replay_of_not_cleared (c : Console) {out : List Output} (h : .cleared ∉ out) :
    c.replay out = ⟨c.chunks ++ (out.filterMap Output.chunk?).toArray⟩ := by
  induction out generalizing c with
  | nil => simp [replay]
  | cons o rest ih =>
    obtain ⟨ho, hrest⟩ := not_or.1 (List.mem_cons.not.1 h)
    have hpush : ∃ chunk, o.chunk? = some chunk ∧ o.apply c = c.push chunk := by
      cases o with
      | printed chunk => exact ⟨chunk, rfl, rfl⟩
      | cleared => exact absurd rfl ho
      | reported d => exact ⟨Guest.reportLine d, rfl, rfl⟩
    obtain ⟨chunk, hchunk, happly⟩ := hpush
    calc c.replay (o :: rest) = (c.push chunk).replay rest := congrArg (·.replay rest) happly
      _ = ⟨(c.push chunk).chunks ++ (rest.filterMap Output.chunk?).toArray⟩ := ih _ hrest
      _ = ⟨c.chunks ++ ((o :: rest).filterMap Output.chunk?).toArray⟩ := by
        simp [push, hchunk]

theorem Console.after_eq_replay (c front : Console) :
    c.after front = front.replay (c.chunks.toList.map .printed) := by
  rw [replay_of_not_cleared front (by simp)]
  simp [after, Output.chunk?, Function.comp_def]

theorem unreported_append (out more : List Output) :
    unreported (out ++ more) = unreported out ++ unreported more :=
  List.filter_append ..

theorem unreported_of_none {out : List Output} (h : ∀ o ∈ out, o.diagnostic? = none) :
    unreported out = out :=
  List.filter_eq_self.2 fun o ho => by simp [h o ho]

theorem diagnostics_of_none {out : List Output} (h : ∀ o ∈ out, o.diagnostic? = none) :
    out.filterMap Output.diagnostic? = [] :=
  List.filterMap_eq_nil_iff.2 h

/-- Handlers that do not read the console do together what one of them does. -/
theorem ExitHandler.blind_foldl {clearing : Prop} {handlers : List ExitHandler}
    (h : ∀ f ∈ handlers, Blind clearing f) :
    Blind clearing fun c => handlers.foldl (fun c f => f c) c := by
  induction handlers with
  | nil => exact ⟨[], by simp, by simp, fun _ => rfl⟩
  | cons f rest ih =>
    obtain ⟨first, hfirst, hclear, hf⟩ := h f List.mem_cons_self
    obtain ⟨others, hothers, hclear', hrest⟩ := ih fun f hf => h f (List.mem_cons_of_mem _ hf)
    refine ⟨first ++ others, List.forall_mem_append.2 ⟨hfirst, hothers⟩, ?_, fun c => ?_⟩
    · exact fun hmem => (List.mem_append.1 hmem).elim hclear hclear'
    · rw [Console.replay_append, ← hf]
      exact hrest (f c)

/-- A system with an empty console. -/
def StreamSystem.muted (sys : StreamSystem) : StreamSystem :=
  { sys with host := { sys.host with console := {} } }

namespace Guest

/-- A program without what its console holds and without where its diagnostics go. -/
def muted (g : Guest) : Guest :=
  { g with config := { g.config with diagnostics := .silent }, system := g.system.muted }

/-- A program with a diagnostic mode of its own, and other chunks in front on its console. -/
def heard (g : Guest) (mode : DiagnosticMode) (front : Console) : Guest :=
  { g with config := { g.config with diagnostics := mode }, system := g.system.after front }

variable {clearing : Prop} {before p q : Console} {g loud quiet : Guest} {α : Type}

theorem report_of_report (h : g.config.diagnostics = .report) (d : Diagnostic) :
    g.report d = { g with counts := g.counts.record d }.onHost (·.emit (reportLine d)) :=
  if_pos (congrArg DiagnosticMode.emits h)

theorem report_of_silent (h : g.config.diagnostics = .silent) (d : Diagnostic) :
    g.report d = { g with counts := g.counts.record d } :=
  if_neg (by simp [h, DiagnosticMode.emits])

/-- What the consoles of two programs hold in front of what they print from now on: the same
outputs, with the reports on one and without them on the other. -/
structure Told (clearing : Prop) (before : Console) (g : Guest) (p q : Console) : Prop where
  output : ∃ out : List Output, p = before.replay out ∧ q = before.replay (unreported out) ∧
    g.counts = (out.filterMap Output.diagnostic?).foldl DiagnosticCounts.record {} ∧
    (.cleared ∈ out → clearing)
  blind : ∀ f ∈ g.exitHandlers.handlers ++ g.quickExitHandlers.handlers,
    ExitHandler.Blind clearing f

/-- A program that reports, and the same program that only counts. -/
inductive Twins (clearing : Prop) (before : Console) : Guest → Guest → Prop
  | mk (g : Guest) (p q : Console) : Told clearing before g p q →
      Twins clearing before (g.heard .report p) (g.heard .silent q)

/-- Two answers that are the same, of programs that are twins. -/
structure Agree {β : Type u} (clearing : Prop) (before : Console) (x y : β × Guest) : Prop where
  answer_eq : x.1 = y.1
  twins : Twins clearing before x.2 y.2

theorem Agree.eq {β : Type u} {x y : β × Guest} (ha : Agree clearing before x y) :
    ∃ r g₁ g₂, x = (r, g₁) ∧ y = (r, g₂) ∧ Twins clearing before g₁ g₂ :=
  ⟨x.1, x.2, y.2, rfl, by rw [ha.answer_eq], ha.twins⟩

theorem Agree.map {β : Type u} {γ : Type v} {x y : β × Guest} (f : β → γ)
    (ha : Agree clearing before x y) : Agree clearing before (f x.1, x.2) (f y.1, y.2) :=
  ⟨congrArg f ha.answer_eq, ha.twins⟩

theorem Agree.status {x y : Option Unit × Guest} (ha : Agree clearing before x y) :
    Agree clearing before (Guest.status x) (Guest.status y) :=
  ha.map fun r => r.elim eof fun _ => 0

theorem Agree.tally {x y : Option Nat × Guest} (ha : Agree clearing before x y) :
    Agree clearing before (Guest.tally x) (Guest.tally y) :=
  ha.map fun r => r.elim eof fun n => min (n : Int) SignedRange.int.greatest

theorem Agree.byte {x y : Option UInt8 × Guest} (ha : Agree clearing before x y) :
    Agree clearing before (Guest.byte x) (Guest.byte y) :=
  ha.map fun r => r.elim eof fun b => (b.toNat : Int)

/-- More outputs stand behind everything that was printed before. -/
theorem Told.extend (h : Told clearing before g p q) {more : List Output}
    (hmore : .cleared ∈ more → clearing) :
    Told clearing before { g with
        counts := (more.filterMap Output.diagnostic?).foldl DiagnosticCounts.record g.counts
        system := g.system.muted }
      ((g.host.console.after p).replay more)
      ((g.host.console.after q).replay (unreported more)) where
  output := by
    obtain ⟨out, rfl, rfl, hcounts, hclear⟩ := h.output
    have hnone : ∀ o ∈ g.host.console.chunks.toList.map Output.printed, o.diagnostic? = none := by
      simp [Output.diagnostic?]
    refine ⟨out ++ (g.host.console.chunks.toList.map .printed ++ more), ?_, ?_, ?_, ?_⟩
    · rw [Console.after_eq_replay, Console.replay_append, Console.replay_append]
    · rw [Console.after_eq_replay, unreported_append, unreported_append, unreported_of_none hnone,
        Console.replay_append, Console.replay_append]
    · rw [List.filterMap_append, List.filterMap_append, diagnostics_of_none hnone, List.nil_append,
        List.foldl_append, hcounts]
    · intro hmem
      rcases List.mem_append.1 hmem with hout | hmem
      · exact hclear hout
      · exact hmore ((List.mem_append.1 hmem).resolve_left (by simp))
  blind := h.blind

namespace Twins

theorem muted_eq (ht : Twins clearing before loud quiet) : loud.muted = quiet.muted := by
  cases ht
  rfl

theorem heap_eq (ht : Twins clearing before loud quiet) : loud.heap = quiet.heap := by
  cases ht
  rfl

theorem arena_eq (ht : Twins clearing before loud quiet) : loud.host.arena = quiet.host.arena := by
  cases ht
  rfl

theorem minutesWest_eq (ht : Twins clearing before loud quiet) :
    loud.host.minutesWest = quiet.host.minutesWest := by
  cases ht
  rfl

theorem errorNumber_eq (ht : Twins clearing before loud quiet) :
    loud.errorNumber = quiet.errorNumber := by
  cases ht
  rfl

/-- With what was printed since, the two consoles went through the same outputs. -/
theorem outputs (ht : Twins clearing before loud quiet) : ∃ out : List Output,
    loud.host.console = before.replay out ∧
    quiet.host.console = before.replay (unreported out) ∧
    loud.counts = (out.filterMap Output.diagnostic?).foldl DiagnosticCounts.record {} ∧
    (.cleared ∈ out → clearing) := by
  cases ht with
  | mk g p q h =>
    have hnone : Output.cleared ∈ [] → clearing := by simp
    exact (h.extend hnone).output

theorem report (ht : Twins clearing before loud quiet) (d : Diagnostic) :
    Twins clearing before (loud.report d) (quiet.report d) := by
  cases ht with
  | mk g p q h =>
    have hmore : .cleared ∈ [Output.reported d] → clearing := by simp
    have htwins := mk _ _ _ (h.extend hmore)
    have hloud : (g.heard .report p).report d = { g with
        counts := g.counts.record d, system := g.system.muted }.heard .report
          ((g.host.console.after p).push (reportLine d)) := by
      rw [report_of_report rfl]
      unfold Guest.onHost heard StreamSystem.after StreamSystem.muted Host.after Host.emit
      dsimp only
      rw [Console.empty_after]
      rfl
    have hquiet : (g.heard .silent q).report d = { g with
        counts := g.counts.record d, system := g.system.muted }.heard .silent
          (g.host.console.after q) := by
      rw [report_of_silent rfl]
      unfold heard StreamSystem.after StreamSystem.muted Host.after
      dsimp only
      rw [Console.empty_after]
      rfl
    rw [hloud, hquiet]
    exact htwins

theorem setErrorNumber (ht : Twins clearing before loud quiet) (number : Int) :
    Twins clearing before (loud.setErrorNumber number) (quiet.setErrorNumber number) := by
  cases ht with
  | mk g p q h => exact mk (g.setErrorNumber number) p q ⟨h.output, h.blind⟩

theorem misuse (ht : Twins clearing before loud quiet) (d : Diagnostic) :
    Twins clearing before (loud.misuse d) (quiet.misuse d) :=
  (ht.setErrorNumber _).report d

theorem onArena (ht : Twins clearing before loud quiet) (f : Arena → Arena) :
    Twins clearing before (loud.onArena f) (quiet.onArena f) := by
  cases ht with
  | mk g p q h => exact mk (g.onArena f) p q ⟨h.output, h.blind⟩

theorem write (ht : Twins clearing before loud quiet) (address : Nat) (block : Bytes) :
    Twins clearing before (loud.write address block) (quiet.write address block) :=
  ht.onArena _

theorem allocFailed (ht : Twins clearing before loud quiet) (e : AllocError) :
    Twins clearing before (loud.allocFailed e) (quiet.allocFailed e) := by
  cases e with
  | exhausted _ | overflow => exact ht.setErrorNumber _
  | misuse d => exact ht.misuse d

theorem streamFailed (ht : Twins clearing before loud quiet) (e : StreamError) :
    Twins clearing before (loud.streamFailed e) (quiet.streamFailed e) := by
  cases e with
  | tableFull | outOfRange _ _ | noBufferSpace => exact ht.setErrorNumber _
  | notReady | endOfData => exact ht
  | alloc e => exact ht.allocFailed e
  | misuse d => exact ht.misuse d

/-- What the streams do they do for both. -/
theorem onSystem {f : StreamSystem → α × StreamSystem} (ht : Twins clearing before loud quiet)
    (hf : Oblivious f) : Agree clearing before (loud.onSystem f) (quiet.onSystem f) := by
  cases ht with
  | mk g p q h =>
    have heard_eq : ∀ mode front, (g.heard mode front).onSystem f =
        ((g.onSystem f).1, (g.onSystem f).2.heard mode front) := by
      intro mode front
      unfold Guest.onSystem heard
      dsimp only
      rw [hf]
    rw [heard_eq, heard_eq]
    exact ⟨rfl, mk (g.onSystem f).2 p q ⟨h.output, h.blind⟩⟩

theorem onStreams {f : StreamSystem → Outcome α} (ht : Twins clearing before loud quiet)
    (hf : Oblivious f) : Agree clearing before (loud.onStreams f) (quiet.onStreams f) := by
  obtain ⟨r, g₁, g₂, hx, hy, ht'⟩ := (ht.onSystem hf).eq
  unfold Guest.onStreams
  rw [hx, hy]
  cases r with
  | ok _ => exact ⟨rfl, ht'⟩
  | error e => exact ⟨rfl, ht'.streamFailed e⟩

theorem onHeap (ht : Twins clearing before loud quiet)
    (f : Heap → Arena → Except AllocError α × Heap × Arena) :
    Agree clearing before (loud.onHeap f) (quiet.onHeap f) := by
  let serve : StreamSystem → Except AllocError α × StreamSystem := fun sys =>
    ((f sys.heap sys.host.arena).1, ⟨sys.streams, (f sys.heap sys.host.arena).2.1,
      { sys.host with arena := (f sys.heap sys.host.arena).2.2 }⟩)
  obtain ⟨r, g₁, g₂, hx, hy, ht'⟩ := (onSystem (f := serve) ht fun _ _ => rfl).eq
  have heq : ∀ g : Guest, g.onHeap f = match g.onSystem serve with
    | (.ok x, g) => (some x, g)
    | (.error e, g) => (none, g.allocFailed e) := by
    intro g
    unfold Guest.onHeap Guest.onSystem
    dsimp only [serve]
    cases (f g.system.heap g.system.host.arena).1 <;> rfl
  rw [heq, heq, hx, hy]
  cases r with
  | ok _ => exact ⟨rfl, ht'⟩
  | error e => exact ⟨rfl, ht'.allocFailed e⟩

theorem readInto {f : StreamSystem → Except StreamError Nat × Bytes × StreamSystem}
    (ht : Twins clearing before loud quiet) (hf : ObliviousRead f) :
    ∃ r buf g₁ g₂, loud.readInto f = (r, buf, g₁) ∧ quiet.readInto f = (r, buf, g₂) ∧
      Twins clearing before g₁ g₂ := by
  let serve : StreamSystem → (Except StreamError Nat × Bytes) × StreamSystem := fun sys =>
    (((f sys).1, (f sys).2.1), (f sys).2.2)
  have hserve : Oblivious serve := fun sys front => by
    dsimp only [serve]
    rw [hf]
  obtain ⟨⟨r, buf⟩, g₁, g₂, hx, hy, ht'⟩ := (ht.onSystem hserve).eq
  have heq : ∀ g : Guest, g.readInto f = match g.onSystem serve with
    | ((.ok n, buf), g) => (some n, buf, g)
    | ((.error e, buf), g) => (none, buf, g.streamFailed e) := by
    intro g
    unfold Guest.readInto Guest.onSystem
    dsimp only [serve]
    cases (f g.system).1 <;> rfl
  rw [heq, heq, hx, hy]
  cases r with
  | ok _ => exact ⟨_, _, _, _, rfl, rfl, ht'⟩
  | error e => exact ⟨_, _, _, _, rfl, rfl, ht'.streamFailed e⟩

/-- What the surroundings do they do to both. -/
theorem onHost {f : Host → Host} (ht : Twins clearing before loud quiet)
    (hf : ∀ h front, f (h.after front) = (f h).after front) :
    Twins clearing before (loud.onHost f) (quiet.onHost f) := by
  cases ht with
  | mk g p q h =>
    have heard_eq : ∀ mode front,
        (g.heard mode front).onHost f = (g.onHost f).heard mode front := by
      intro mode front
      unfold Guest.onHost heard StreamSystem.after
      dsimp only
      rw [hf]
    rw [heard_eq, heard_eq]
    exact mk (g.onHost f) p q ⟨h.output, h.blind⟩

/-- The handlers do the same to both consoles. -/
theorem runHandlers (ht : Twins clearing before loud quiet) {handlers : List ExitHandler}
    (hblind : ∀ f ∈ handlers, ExitHandler.Blind clearing f) :
    Twins clearing before (loud.runHandlers handlers) (quiet.runHandlers handlers) := by
  cases ht with
  | mk g p q h =>
    obtain ⟨out, hnone, hclear, hout⟩ := ExitHandler.blind_foldl hblind
    have htwins := mk _ _ _ (h.extend hclear)
    rw [diagnostics_of_none hnone, unreported_of_none hnone] at htwins
    have hrun : ∀ mode front, (g.heard mode front).runHandlers handlers =
        { g with system := g.system.muted }.heard mode
          ((g.host.console.after front).replay out) := by
      intro mode front
      unfold Guest.runHandlers heard Guest.onHost StreamSystem.after StreamSystem.muted Host.after
      dsimp only
      rw [Console.empty_after, ← hout]
      rfl
    rw [hrun, hrun]
    exact htwins

end Twins
end Guest
end GuestLibrary
