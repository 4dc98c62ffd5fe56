import GuestLibrary.Session.Machine
import Mathlib

/-! Calls that a thread makes while it is inside of a call. -/
namespace GuestLibrary.Session

namespace Machine

variable {ρ α : Type}

/-- What a borrower answers, and the program it leaves, where every call it makes is refused. -/
def Borrower.alone : Borrower ρ → Guest → Option ρ × Guest
  | .done answer, g => (some answer, g)
  | .unwind, g => (none, g)
  | .work f next, g => (next g).alone ((f g).onHost ({ · with console := {} }))
  | .call _ next, g => (next (.refused .reentrant)).alone g

/-- The same on the process, with what the program writes. -/
def Borrower.onSession : Borrower ρ → Session → Option ρ × Session
  | .done answer, p => (some answer, p)
  | .unwind, p => (none, p)
  | .work f next, p => (next p.current.2).onSession (p.onProgram fun g => ((), f g)).2
  | .call _ next, p => (next (.refused .reentrant)).onSession p

/-- A call as it comes out for the process: its answer, or none where it unwinds. -/
def settled (answer : α → Reply ρ) :
    Except AccessError (Option α) × Session → Option (Reply ρ) × Session
  | (.ok a, p) => (a.map answer, p)
  | (.error e, p) => (some (.refused e), p)

def Call.onSession (p : Session) : Call ρ → Option (Reply ρ) × Session
  | .lend unwinds body =>
    if unwinds && p.slot.isNone then settled .lent (p.guarded fun p => (none, p))
    else settled .lent (p.withProgram body.onSession)
  | .install settings config unwinds =>
    if unwinds then settled .installed (p.guarded fun p => (none, p))
    else settled .installed ((p.install settings config).map (·.map some) id)
  | .shutdown none => settled (fun _ => .shutDown) (p.shutdown.map (·.map some) id)
  | .shutdown (some f) => settled (fun _ => .shutDown) (p.guarded fun p =>
      if p.slot.isSome then (none, (p.onProgram fun g => ((), f g)).2)
      else (some (), { p with slot := none }))

/-- What a computation comes to that answers or unwinds. -/
def outcome (t : Thread ρ) : Option α → EStateM.Result Stop (Thread ρ) α
  | some a => .ok a t
  | none => .error .unwinding t

/-- A call of `depth` borrowers was refused, and changed nothing. -/
structure Made.Refused (m : Made ρ) (depth : Nat) : Prop where
  depth_eq : m.depth = depth
  reply_eq : m.reply = some (.refused .reentrant)
  entered : m.before.entered = true
  after_eq : m.after = m.before

/-- Inside of the process `run` does what `r` says and leaves the flag and the lock alone, and the
calls that it makes are refused. -/
def Does (run : Run ρ α) (depth : Nat) (r : Session → Option α × Session) : Prop :=
  ∀ p made, p.entered = true → (r p).2.entered = true ∧ ∃ new, (∀ m ∈ new, m.Refused depth) ∧
    run ⟨p, true, made⟩ = outcome ⟨(r p).2, true, new ++ made⟩ (r p).1

theorem bind_eq {β : Type} {run : Run ρ α} {s t : Thread ρ} {a : Option α}
    (hrun : run s = outcome t a) (f : α → Run ρ β) :
    (run >>= f) s = a.elim (.error .unwinding t) (f · t) := by
  show EStateM.bind run f s = _
  rw [EStateM.bind, hrun]
  cases a <;> rfl

section Statements

variable {β : Type} {depth : Nat}

theorem does_pure (a : α) : Does (pure a : Run ρ α) depth fun p => (some a, p) :=
  fun _ _ hp => ⟨hp, [], by simp, rfl⟩

theorem does_unwind : Does (throw .unwinding : Run ρ α) depth fun p => (none, p) :=
  fun _ _ hp => ⟨hp, [], by simp, rfl⟩

theorem does_onProcess (f : Session → Session) (hf : ∀ p, (f p).entered = p.entered) :
    Does (onProcess f : Run ρ Unit) depth fun p => (some (), f p) :=
  fun p _ hp => ⟨(hf p).trans hp, [], by simp, rfl⟩

/-- What is done may depend on the process as it is found. -/
theorem does_get {k : Thread ρ → Run ρ α} {r : Session → Session → Option α × Session}
    (h : ∀ t, Does (k t) depth (r t.process)) : Does (get >>= k) depth fun p => r p p :=
  fun p made hp => h ⟨p, true, made⟩ p made hp

theorem Does.bind {run : Run ρ α} {r : Session → Option α × Session} {f : α → Run ρ β}
    {q : α → Session → Option β × Session} (h : Does run depth r)
    (hf : ∀ a, Does (f a) depth (q a)) :
    Does (run >>= f) depth fun p => (r p).1.elim (none, (r p).2) (q · (r p).2) := by
  intro p made hp
  obtain ⟨hkept, new, hnew, hrun⟩ := h p made hp
  simp only [bind_eq hrun]
  cases (r p).1 with
  | none => exact ⟨hkept, new, hnew, rfl⟩
  | some a =>
    obtain ⟨hkept', new', hnew', hrun'⟩ := hf a (r p).2 (new ++ made) hkept
    refine ⟨hkept', new' ++ new, ?_, by simpa using hrun'⟩
    simpa [or_imp, forall_and] using ⟨hnew', hnew⟩

end Statements

section Guard

variable {p : Session} {made : List (Made ρ)} {locked : Bool}

theorem guarded_inside (hp : p.entered = true) (body : Run ρ α) :
    guarded body ⟨p, locked, made⟩ = .ok (.error .reentrant) ⟨p, locked, made⟩ := by
  have hmarked : { p with entered := true } = p := hp ▸ rfl
  have hmark : mark ⟨p, locked, made⟩ = outcome ⟨p, locked, made⟩ (some true) := by
    show outcome ⟨{ p with entered := true }, locked, made⟩ (some p.entered) = _
    rw [hmarked, hp]
  exact (bind_eq hmark _).trans rfl

theorem bracket_eq {body : Run ρ α} {leave : Thread ρ → Thread ρ} {s t : Thread ρ} {a : Option α}
    (hbody : body s = outcome t a) : bracket body leave s = outcome (leave t) a := by
  rw [bracket, hbody]
  cases a <;> rfl

/-- In whichever way `body` is left, the lock and the flag are given back. -/
theorem guarded_outside (hp : p.entered = false) {body : Run ρ α} {a : Option α} {t : Thread ρ}
    (hbody : body ⟨{ p with entered := true }, true, made⟩ = outcome t a) :
    guarded body ⟨p, false, made⟩ = outcome (unmark (unlock t)) (a.map .ok) := by
  have hmark : mark ⟨p, false, made⟩ =
      outcome ⟨{ p with entered := true }, false, made⟩ (some false) := by
    show outcome ⟨{ p with entered := true }, false, made⟩ (some p.entered) = _
    rw [hp]
  have henter : (do lock; bracket body unlock : Run ρ α)
      ⟨{ p with entered := true }, false, made⟩ = outcome (unlock t) a := bracket_eq hbody
  refine (bind_eq hmark _).trans ((bind_eq (bracket_eq henter) _).trans ?_)
  cases a <;> rfl

end Guard

theorem noted_eq {c : Call ρ} {depth : Nat} {run : Run ρ (Reply ρ)} {p : Session} {locked : Bool}
    {made : List (Made ρ)} {t : Thread ρ} {reply : Option (Reply ρ)}
    (hrun : run ⟨p, locked, made⟩ = outcome t reply) :
    noted c depth run ⟨p, locked, made⟩ =
      outcome { t with made := ⟨c, depth, reply, p, t.process⟩ :: t.made } reply := by
  rw [noted, hrun]
  cases reply <;> rfl

/-- A call that is made inside of another one. -/
theorem Call.does (c : Call ρ) (depth : Nat) :
    Does (c.run depth) depth fun p => (some (.refused .reentrant), p) := by
  intro p made hp
  have hnoted : ∀ {α} (body : Run ρ α) (answer : α → Reply ρ),
      noted c depth (do return Reply.ofAnswer answer (← guarded body)) ⟨p, true, made⟩ =
        outcome ⟨p, true, ⟨c, depth, some (.refused .reentrant), p, p⟩ :: made⟩
          (some (.refused .reentrant)) := fun body answer =>
    noted_eq (t := ⟨p, true, made⟩) <|
      (bind_eq (a := some (.error .reentrant)) (guarded_inside hp body) _).trans rfl
  refine ⟨hp, [⟨c, depth, some (.refused .reentrant), p, p⟩], ?_, ?_⟩
  · simpa using ⟨rfl, rfl, hp, rfl⟩
  · cases c <;> rw [Call.run] <;> exact hnoted _ _

theorem onProgram_entered (p : Session) (f : Guest → α × Guest) :
    (p.onProgram f).2.entered = p.entered := by
  simp only [Session.onProgram, Session.emitAll]
  split <;> rfl

/-- What a program answers does not bear on the process. -/
theorem onProgram_snd (p : Session) (f : Guest → α × Guest) :
    (p.onProgram f).2 = (p.onProgram fun g => ((), (f g).2)).2 := by
  simp only [Session.onProgram]

theorem does_onProgram {depth : Nat} (f : Guest → Guest) :
    Does (onProgram f : Run ρ Unit) depth
      fun p => (some (), (p.onProgram fun g => ((), f g)).2) :=
  does_onProcess _ fun p => onProgram_entered p _

/-- What a borrower comes to, by its statements. -/
theorem Borrower.does (depth : Nat) :
    (body : Borrower ρ) → Does (body.run depth) depth body.onSession
  | .done answer => by
    rw [Borrower.run]
    exact does_pure answer
  | .unwind => by
    rw [Borrower.run]
    exact does_unwind
  | .work f next => by
    rw [Borrower.run]
    exact does_get (r := fun found p =>
        (next found.current.2).onSession (p.onProgram fun g => ((), f g)).2) fun t =>
      (does_onProgram f).bind fun _ => (next t.process.current.2).does depth
  | .call c next => by
    rw [Borrower.run]
    exact (c.does depth).bind fun answer => (next answer).does depth

theorem guarded_of_free {p : Session} (hp : p.entered = false) (r : Session → α × Session) :
    p.guarded r = (.ok (r { p with entered := true }).1,
      { (r { p with entered := true }).2 with entered := false }) := by
  simp [Session.guarded, hp]

theorem guarded_of_entered {p : Session} (hp : p.entered = true) (r : Session → α × Session) :
    p.guarded r = (.error .reentrant, p) := by
  simp [Session.guarded, hp]

/-- It matters only what is done once inside. -/
theorem guarded_congr {p : Session} {r q : Session → α × Session}
    (h : r { p with entered := true } = q { p with entered := true }) :
    p.guarded r = p.guarded q := by
  simp only [Session.guarded, h]

theorem guarded_map {β : Type} (p : Session) (r : Session → α × Session) (f : α → β) :
    (p.guarded r).map (·.map f) id = p.guarded fun p => (r p).map f id := by
  cases hp : p.entered with
  | false => simp [guarded_of_free hp, Except.map]
  | true => simp [guarded_of_entered hp, Except.map]

theorem does_lending {depth : Nat} (unwinds : Bool) (body : Borrower ρ) :
    Does (lending unwinds (body.run depth)) depth fun p =>
      if unwinds && p.slot.isNone then (none, p)
      else body.onSession { p with slot := some p.current } := by
  refine does_get (r := fun found p => if unwinds && found.slot.isNone then (none, p)
      else body.onSession { p with slot := some p.current }) fun t => ?_
  cases hu : unwinds && t.process.slot.isNone with
  | true => exact does_unwind
  | false =>
    exact (does_onProcess (fun p => { p with slot := some p.current }) fun _ => rfl).bind fun _ =>
      body.does depth

theorem does_installing {depth : Nat} (settings : HostSettings) (config : GuestConfig)
    (unwinds : Bool) : Does (installing settings config unwinds : Run ρ Bool) depth fun p =>
      if unwinds then (none, p)
      else (some p.slot.isSome, { p with slot := some (p.build settings config) }) := by
  cases unwinds with
  | true => exact does_unwind
  | false =>
    exact does_get (r := fun found p =>
        (some found.slot.isSome, { p with slot := some (p.build settings config) })) fun t =>
      (does_onProcess (fun p => { p with slot := some (p.build settings config) })
        fun _ => rfl).bind fun _ => does_pure t.process.slot.isSome

theorem does_shuttingDown {depth : Nat} (unwinds : Option (Guest → Guest)) :
    Does (shuttingDown unwinds : Run ρ Unit) depth fun p =>
      if p.slot.isSome then
        match unwinds with
        | some f => (none, (p.onProgram fun g => ((), f g)).2)
        | none => (some (), { (p.onProgram fun g => ((), (g.fflush none).2)).2 with slot := none })
      else (some (), { p with slot := none }) := by
  have hclear : Does (onProcess ({ · with slot := none }) : Run ρ Unit) depth
      fun p => (some (), { p with slot := none }) := does_onProcess _ fun _ => rfl
  refine does_get (r := fun found p => if found.slot.isSome then
      match unwinds with
      | some f => (none, (p.onProgram fun g => ((), f g)).2)
      | none => (some (), { (p.onProgram fun g => ((), (g.fflush none).2)).2 with slot := none })
    else (some (), { p with slot := none })) fun t => ?_
  cases hs : t.process.slot.isSome with
  | false => exact hclear
  | true =>
    cases unwinds with
    | some f => exact (does_onProgram f).bind fun _ => does_unwind
    | none => exact (does_onProgram fun g => (g.fflush none).2).bind fun _ => hclear

/-- There is one form to every call: it enters the process for what it does there. -/
theorem Call.exists_form (c : Call ρ) (depth : Nat) :
    ∃ (α : Type) (answer : α → Reply ρ) (body : Run ρ α) (r : Session → Option α × Session),
      (∀ a, answer a ≠ .refused .reentrant) ∧ Does body (depth + 1) r ∧
      c.run depth = noted c depth (do return .ofAnswer answer (← guarded body)) ∧
      ∀ p, c.onSession p = settled answer (p.guarded r) := by
  cases c with
  | lend unwinds body =>
    refine ⟨ρ, .lent, _, _, by simp, does_lending unwinds body, by rw [Call.run], fun p => ?_⟩
    rw [Call.onSession]
    split
    case isTrue h => exact congrArg (settled .lent) (guarded_congr (if_pos h).symm)
    case isFalse h => exact congrArg (settled .lent) (guarded_congr (if_neg h).symm)
  | install settings config unwinds =>
    refine ⟨Bool, .installed, _, _, by simp, does_installing settings config unwinds,
      by rw [Call.run], fun p => ?_⟩
    cases unwinds with
    | true => rfl
    | false => exact congrArg (settled _) (guarded_map p _ some)
  | shutdown unwinds =>
    refine ⟨Unit, fun _ => .shutDown, _, _, by simp, does_shuttingDown unwinds,
      by rw [Call.run], fun p => ?_⟩
    cases unwinds with
    | some f => rfl
    | none =>
      refine congrArg (settled _) ((guarded_map p _ some).trans (guarded_congr ?_))
      simp only [onProgram_snd _ (Guest.fflush · none), Prod.map, id_eq]
      split <;> rfl

/-- A call of a thread that is not inside of the process. -/
theorem Call.run_outside (c : Call ρ) (depth : Nat) {p : Session} (hp : p.entered = false)
    (made : List (Made ρ)) : ∃ new, (∀ m ∈ new, m.Refused (depth + 1)) ∧
      c.run depth ⟨p, false, made⟩ = outcome
        ⟨(c.onSession p).2, false,
          ⟨c, depth, (c.onSession p).1, p, (c.onSession p).2⟩ :: (new ++ made)⟩
        (c.onSession p).1 := by
  obtain ⟨α, answer, body, r, -, hbody, hrun, hsession⟩ := c.exists_form depth
  obtain ⟨-, new, hnew, hinside⟩ := hbody { p with entered := true } made rfl
  refine ⟨new, hnew, ?_⟩
  have hanswered : (do return Reply.ofAnswer answer (← guarded body)) ⟨p, false, made⟩ =
      outcome ⟨{ (r { p with entered := true }).2 with entered := false }, false, new ++ made⟩
        ((r { p with entered := true }).1.map answer) := by
    rw [bind_eq (guarded_outside hp hinside)]
    cases (r { p with entered := true }).1 <;> rfl
  rw [hrun, hsession, guarded_of_free hp]
  exact noted_eq hanswered

theorem Call.onSession_of_entered (c : Call ρ) {p : Session} (hp : p.entered = true) :
    c.onSession p = (some (.refused .reentrant), p) := by
  obtain ⟨α, answer, body, r, -, -, -, hsession⟩ := c.exists_form 0
  rw [hsession, guarded_of_entered hp]
  rfl

theorem Call.onSession_of_free (c : Call ρ) {p : Session} (hp : p.entered = false) :
    (c.onSession p).1 ≠ some (.refused .reentrant) ∧ (c.onSession p).2.entered = false := by
  obtain ⟨α, answer, body, r, hanswer, -, -, hsession⟩ := c.exists_form 0
  rw [hsession, guarded_of_free hp]
  refine ⟨?_, rfl⟩
  cases (r { p with entered := true }).1 with
  | none => simp [settled]
  | some a => simpa [settled] using hanswer a

theorem onProgram_slot {p : Session} {settings : HostSettings} {g : Guest}
    (hp : p.slot = some (settings, g)) (f : Guest → α × Guest) :
    (p.onProgram f).2.slot = some (settings, (f g).2.onHost ({ · with console := {} })) := by
  simp only [Session.onProgram, Session.current, hp, Option.getD_some, Session.emitAll]
  split <;> rfl

/-- A borrower works on the program that was lent, and on no other. -/
theorem Borrower.onSession_alone : (body : Borrower ρ) → {p : Session} →
    {settings : HostSettings} → {g : Guest} → p.slot = some (settings, g) →
    (body.onSession p).1 = (body.alone g).1 ∧
      (body.onSession p).2.slot = some (settings, (body.alone g).2)
  | .done _, _, _, _, hp => ⟨rfl, hp⟩
  | .unwind, _, _, _, hp => ⟨rfl, hp⟩
  | .work f next, p, settings, g, hp => by
    have hcurrent : p.current.2 = g := by rw [Session.current, hp]; rfl
    rw [Borrower.onSession, Borrower.alone, hcurrent]
    exact (next g).onSession_alone (onProgram_slot hp _)
  | .call _ next, _, _, _, hp => (next (.refused .reentrant)).onSession_alone hp

/-- Lending comes to what the borrower does with the program that was found. -/
theorem Call.onSession_lend {p : Session} (hp : p.entered = false) {unwinds : Bool}
    (hbuilt : unwinds = true → p.slot.isSome) (body : Borrower ρ) :
    ((Call.lend unwinds body).onSession p).1 = (body.alone p.current.2).1.map .lent ∧
      ((Call.lend unwinds body).onSession p).2.slot =
        some (p.current.1, (body.alone p.current.2).2) := by
  have hlent : ¬(unwinds && p.slot.isNone) = true := by
    cases hs : p.slot with
    | none => simpa [hs] using hbuilt
    | some _ => simp
  rw [Call.onSession, if_neg hlent, Session.withProgram, guarded_of_free hp]
  have hfound : { p with entered := true, slot := some p.current }.slot =
    some (p.current.1, p.current.2) := rfl
  obtain ⟨hanswer, hslot⟩ := body.onSession_alone hfound
  exact ⟨congrArg (Option.map Reply.lent) hanswer, hslot⟩

/-- The record of a call tells what it came to, and it was refused where it was made inside of
another one. -/
structure Made.Settled (m : Made ρ) : Prop where
  entered_eq : m.before.entered = decide (0 < m.depth)
  onSession_eq : m.call.onSession m.before = (m.reply, m.after)

theorem Made.Refused.settled {m : Made ρ} {depth : Nat} (h : m.Refused (depth + 1)) :
    m.Settled where
  entered_eq := by simp [h.depth_eq, h.entered]
  onSession_eq := by rw [m.call.onSession_of_entered h.entered, h.reply_eq, h.after_eq]

theorem Made.Settled.inside {m : Made ρ} (h : m.Settled) (hd : 0 < m.depth) :
    m.reply = some (.refused .reentrant) ∧ m.after = m.before := by
  have hentered : m.before.entered = true := by simp [h.entered_eq, hd]
  have hrefused := h.onSession_eq.symm.trans (m.call.onSession_of_entered hentered)
  exact ⟨congrArg Prod.fst hrefused, congrArg Prod.snd hrefused⟩

theorem Made.Settled.outside {m : Made ρ} (h : m.Settled) (hd : m.depth = 0) :
    m.reply ≠ some (.refused .reentrant) ∧ m.before.entered = false ∧ m.after.entered = false := by
  have hentered : m.before.entered = false := by simp [h.entered_eq, hd]
  obtain ⟨haccepted, hleft⟩ := m.call.onSession_of_free hentered
  rw [h.onSession_eq] at haccepted hleft
  exact ⟨haccepted, hentered, hleft⟩

theorem Made.Settled.lend {m : Made ρ} (h : m.Settled) (hd : m.depth = 0) {unwinds : Bool}
    {body : Borrower ρ} (hcall : m.call = .lend unwinds body)
    (hbuilt : unwinds = true → m.before.slot.isSome) :
    m.reply = (body.alone m.before.current.2).1.map .lent ∧
      m.after.slot = some (m.before.current.1, (body.alone m.before.current.2).2) := by
  have hlent := Call.onSession_lend (h.outside hd).2.1 hbuilt body
  rwa [← hcall, h.onSession_eq] at hlent

/-- The thread goes on where a call was left, also where it was left unwinding. -/
theorem Call.attempt_eq {c : Call ρ} {s t : Thread ρ} {reply : Option (Reply ρ)}
    (hrun : c.run 0 s = outcome t reply) : c.attempt s = .ok () t := by
  have hdiscard : (discard (c.run 0) : Run ρ Unit) s = outcome t (reply.map fun _ => ()) := by
    show EStateM.map _ (c.run 0) s = _
    rw [EStateM.map, hrun]
    cases reply <;> rfl
  show EStateM.tryCatch _ _ s = _
  rw [EStateM.tryCatch, hdiscard]
  cases reply <;> rfl

/-- A thread makes calls from the outside; `new` are these and the ones that were made inside of
them. -/
theorem runAll_outside (calls : List (Call ρ)) {p : Session} (hp : p.entered = false)
    (made : List (Made ρ)) : ∃ new,
      runAll calls ⟨p, false, made⟩ =
        .ok () ⟨calls.foldl (fun p c => (c.onSession p).2) p, false, new ++ made⟩ ∧
      (calls.foldl (fun p c => (c.onSession p).2) p).entered = false ∧
      (new.filter (·.depth = 0)).map (·.call) = calls.reverse ∧ ∀ m ∈ new, m.Settled := by
  induction calls generalizing p made with
  | nil => exact ⟨[], rfl, hp, rfl, by simp⟩
  | cons c rest ih =>
    obtain ⟨inner, hinner, hrun⟩ := c.run_outside 0 hp made
    obtain ⟨-, hfree⟩ := c.onSession_of_free hp
    obtain ⟨new, hrest, hlast, hcalls, hnew⟩ := ih hfree
      (⟨c, 0, (c.onSession p).1, p, (c.onSession p).2⟩ :: (inner ++ made))
    refine ⟨new ++ ⟨c, 0, (c.onSession p).1, p, (c.onSession p).2⟩ :: inner, ?_, hlast, ?_, ?_⟩
    · rw [runAll, bind_eq (a := some ()) (Call.attempt_eq hrun)]
      simpa using hrest
    · have hnone : inner.filter (·.depth = 0) = [] := by
        simpa using fun m hm => by simp [(hinner m hm).depth_eq]
      simp [hcalls, hnone]
    · have hcall : Made.Settled ⟨c, 0, (c.onSession p).1, p, (c.onSession p).2⟩ := ⟨hp, rfl⟩
      simp only [List.mem_append, List.mem_cons]
      rintro m (hm | rfl | hm)
      exacts [hnew m hm, hcall, (hinner m hm).settled]

/-- Whatever calls a thread makes, one after the other and inside of each other, and whichever of
them unwind: it comes to an end of them and is outside again. Those are refused that were made
inside of another one, and they leave the process and its flag as they were; one that was made
from the outside is accepted, comes to what it is for, and where it lends the program its borrower
goes on to the end with the program it was lent. -/
theorem reentry_refused_and_left (p : Session) (calls : List (Call ρ)) :
    ∃ t : Thread ρ, runAll calls (.outside p) = .ok () t ∧
      t.process.entered = false ∧ t.locked = false ∧
      (t.made.filter (·.depth = 0)).map (·.call) = calls.reverse ∧
      t.process = calls.foldl (fun p c => (c.onSession p).2) { p with entered := false } ∧
      ∀ m ∈ t.made,
        (m.reply = some (.refused .reentrant) ↔ 0 < m.depth) ∧
        (0 < m.depth → m.after = m.before) ∧
        (m.reply, m.after) = m.call.onSession m.before ∧
        (m.depth = 0 → m.before.entered = false ∧ m.after.entered = false ∧
          ∀ unwinds body, m.call = .lend unwinds body →
            (unwinds = true → m.before.slot.isSome) →
            m.reply = (body.alone m.before.current.2).1.map .lent ∧
            m.after.slot = some (m.before.current.1, (body.alone m.before.current.2).2)) := by
  obtain ⟨new, hrun, hlast, hcalls, hnew⟩ := runAll_outside calls (p := { p with entered := false })
    rfl []
  rw [List.append_nil] at hrun
  refine ⟨_, hrun, hlast, rfl, hcalls, rfl, fun m hm => ?_⟩
  have hm := hnew m hm
  refine ⟨⟨fun hrefused => ?_, fun hd => (hm.inside hd).1⟩, fun hd => (hm.inside hd).2,
    hm.onSession_eq.symm, fun hd => ⟨(hm.outside hd).2.1, (hm.outside hd).2.2,
      fun unwinds body hcall hbuilt => hm.lend hd hcall hbuilt⟩⟩
  by_contra houter
  exact (hm.outside (Nat.eq_zero_of_not_pos houter)).1 hrefused

/-- A borrower that unwinds after it was refused, and the call after it. -/
example : (match runAll [.lend false (.call (.shutdown none) fun _ => .unwind),
      .install {} {} false] (.outside {} : Thread Unit) with
    | .ok _ t => t.made.map fun m => (m.depth, m.reply)
    | .error _ _ => []) =
    [(0, some (.installed true)), (0, none), (1, some (.refused .reentrant))] := by
  rfl

end Machine
end GuestLibrary.Session
