import GuestLibrary.Log.Emitter
import GuestLibrary.Proofs.Json.OneLine

/-! The lines of a log and the trace ids that are made for them. Every call of an emitter writes one
line, but only a line that brings no trace id of its own is numbered. Main statement: the count of
an emitter is that of its numbered lines, so it is the count of all lines exactly where none brought
an id, and no trace id is made twice. -/
namespace GuestLibrary.Log

namespace Emitter

/-- A call that writes a line. -/
inductive Call
  | emit (timestamp : String) (severity : Severity) (event : String)
  | write (e : Entry)

namespace Call

def apply (m : Emitter) : Call → Emitter
  | emit timestamp severity event => (m.emit timestamp severity event).2
  | write e => m.write e

/-- The line gets its trace id from the emitter. -/
def isNumbered : Call → Bool
  | emit .. => true
  | write e => e.traceId == ""

/-- What is written, with the trace id that is next in turn. -/
def entry (next : String) : Call → Entry
  | emit timestamp severity event => { timestamp, traceId := next, severity, event }
  | write e => if e.traceId = "" then { e with traceId := next } else e

end Call

/-- Calls one after the other. -/
def run (m : Emitter) (calls : List Call) : Emitter := calls.foldl Call.apply m

/-- The trace ids that an emitter makes along calls, as they stand in the lines. -/
def madeIds (m : Emitter) : List Call → List String
  | [] => []
  | c :: rest =>
    let ids := (c.apply m).written.head?.toList.map (·.traceId)
    (if c.isNumbered then ids else []) ++ (c.apply m).madeIds rest

section Step

variable (m : Emitter) (c : Call)

@[simp] theorem written_apply :
    (c.apply m).written = c.entry (traceId m.runId (m.sequence + 1)) :: m.written := by
  cases c with
  | emit => rfl
  | write e =>
    by_cases hid : e.traceId = "" <;> simp [Call.apply, Call.entry, write, nextTraceId, push, hid]

@[simp] theorem sequence_apply :
    (c.apply m).sequence = m.sequence + if c.isNumbered then 1 else 0 := by
  cases c with
  | emit => rfl
  | write e =>
    by_cases hid : e.traceId = "" <;>
      simp [Call.apply, Call.isNumbered, write, nextTraceId, push, hid]

@[simp] theorem runId_apply : (c.apply m).runId = m.runId := by
  cases c with
  | emit => rfl
  | write e => by_cases hid : e.traceId = "" <;> simp [Call.apply, write, nextTraceId, push, hid]

theorem traceId_entry (next : String) (h : c.isNumbered) : (c.entry next).traceId = next := by
  cases c with
  | emit => rfl
  | write e => rw [Call.entry, if_pos (by simpa [Call.isNumbered] using h)]

end Step

section Run

variable (m : Emitter) (calls : List Call)

theorem length_written_run :
    (m.run calls).written.length = m.written.length + calls.length := by
  induction calls generalizing m with
  | nil => rfl
  | cons c rest ih =>
    rw [run, List.foldl_cons, ← run, ih, written_apply, List.length_cons, List.length_cons]
    omega

theorem sequence_run : (m.run calls).sequence = m.sequence + calls.countP (·.isNumbered) := by
  induction calls generalizing m with
  | nil => rfl
  | cons c rest ih =>
    rw [run, List.foldl_cons, ← run, ih, sequence_apply, List.countP_cons]
    omega

/-- The trace ids are those of the numbers in turn. -/
theorem madeIds_eq : m.madeIds calls =
    (List.range' (m.sequence + 1) (calls.countP (·.isNumbered))).map (traceId m.runId) := by
  induction calls generalizing m with
  | nil => rfl
  | cons c rest ih =>
    rw [madeIds, ih, List.countP_cons, runId_apply, sequence_apply, written_apply]
    cases hc : c.isNumbered with
    | false => simp
    | true => simp [traceId_entry c _ hc, List.range'_succ]

end Run

/-- Different numbers make different trace ids. -/
theorem traceId_inj {runId : String} {m n : Nat} : traceId runId m = traceId runId n ↔ m = n := by
  refine ⟨fun h => ?_, congrArg _⟩
  have hnumber : Calendar.number m 3 '0' = Calendar.number n 3 '0' :=
    (String.append_right_inj _).mp h
  have hread := Calendar.ofDigitChars_number (Int.natCast_nonneg m) 3
  rw [hnumber, Calendar.ofDigitChars_number (Int.natCast_nonneg n) 3] at hread
  simpa using hread.symm

end Emitter

/-- The text of lines has as many newlines as there are lines. -/
theorem count_newline_textOf {lines : List String} (h : ∀ s ∈ lines, '\n' ∉ s.toList) :
    (textOf lines).toList.count '\n' = lines.length := by
  rw [textOf, String.toList_join]
  induction lines with
  | nil => rfl
  | cons s lines ih =>
    obtain ⟨hs, hlines⟩ := List.forall_mem_cons.mp h
    simp [ih hlines, List.count_eq_zero.mpr hs]

/-- Every call writes one line of text. The number that an emitter tells as emitted is the number of
lines it made the trace id of; it is the number of all lines exactly where no line brought an id of
its own. The trace ids it made are as many, and all different. -/
theorem emitted_counts_made_ids (runId : String) (calls : List Emitter.Call) :
    (Emitter.run { runId } calls).lines.length = calls.length ∧
    (textOf (Emitter.run { runId } calls).lines).toList.count '\n' = calls.length ∧
    (Emitter.run { runId } calls).emitted = calls.countP (·.isNumbered) ∧
    ((Emitter.run { runId } calls).emitted = (Emitter.run { runId } calls).lines.length ↔
      ∀ c ∈ calls, c.isNumbered) ∧
    (Emitter.madeIds { runId } calls).length = (Emitter.run { runId } calls).emitted ∧
    (Emitter.madeIds { runId } calls).Nodup := by
  have hlines : (Emitter.run { runId } calls).lines.length = calls.length := by
    rw [Emitter.lines, List.length_map, List.length_reverse, Emitter.length_written_run]
    simp
  have hone : ∀ s ∈ (Emitter.run { runId } calls).lines, '\n' ∉ s.toList := by
    intro s hs
    obtain ⟨e, -, rfl⟩ := List.mem_map.mp hs
    exact Json.newline_not_mem_compact e.toJson
  have hemitted : (Emitter.run { runId } calls).emitted = calls.countP (·.isNumbered) := by
    rw [Emitter.emitted, Emitter.sequence_run, Nat.zero_add]
  refine ⟨hlines, ?_, hemitted, ?_, ?_, ?_⟩
  · rw [count_newline_textOf hone, hlines]
  · rw [hemitted, hlines, List.countP_eq_length]
  · rw [hemitted, Emitter.madeIds_eq, List.length_map, List.length_range']
  · rw [Emitter.madeIds_eq]
    exact List.Nodup.map (fun _ _ h => Emitter.traceId_inj.mp h) List.nodup_range'

/-- A line that brings its trace id. -/
def lineWithId : Emitter.Call :=
  .write {
    timestamp := "2026-02-09T00:00:00.000Z"
    traceId := "kept"
    severity := .info
    event := "start" }

/-- A line that brings its trace id is written, and not counted as emitted. -/
theorem own_id_not_counted :
    (Emitter.run { runId := "run-7" } [lineWithId]).lines.length = 1 ∧
    (Emitter.run { runId := "run-7" } [lineWithId]).emitted = 0 := by
  decide

end GuestLibrary.Log
