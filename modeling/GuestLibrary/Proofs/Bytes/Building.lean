import GuestLibrary.Bytes.CString.Machine
import GuestLibrary.Proofs.Algorithm.InPlace

/-! Strings built in a block. A builder finds out whether the whole string fits with its NUL before
it writes a byte, and writes no further than the NUL. Main statement: a block holds the string that
was to be built in front of what stood behind that place, or what it held before. -/
namespace GuestLibrary

namespace Bytes

theorem take_append_overwrite_drop (dest x : Bytes) (start : Nat) :
    dest.take start ++ overwrite (dest.drop start) 0 x = dest.overwrite start x := by
  simp [overwrite, List.drop_drop]

end Bytes

namespace CString

theorem not_mem_content (s : Bytes) : (0 : UInt8) ∉ content s := fun h => by
  simpa using List.mem_takeWhile_imp h

theorem take_length_content (s : Bytes) : s.take (content s).length = content s :=
  (List.prefix_iff_eq_take.mp (List.takeWhile_prefix _)).symm

namespace Machine

open InPlace
open Sorting.Machine (slice store)

/-- What a computation in place comes to that builds what `result` says, or stops before it has
written. -/
def settled (dest : Bytes) : Except Overflow (Nat × Bytes) → EStateM.Result Stop Bytes Nat
  | .ok (n, after) => .ok n after
  | .error e => .error (.overflow e) dest

section Writing

variable {dest source s : Bytes} {start stop : Nat}

theorem run_put (hstop : stop = start + source.length) (hroom : stop ≤ dest.length) :
    (put start stop source).run dest = .ok () (dest.overwrite start source) := by
  have hstore : store dest start stop source = .ok (dest.overwrite start source) :=
    if_pos (by omega)
  simp [put, hstore, lift]

theorem run_putString (hstop : stop = start + s.length) (hroom : stop < dest.length) :
    (putString start stop s).run dest = .ok () (dest.overwrite start (s ++ [0])) := by
  have hlength : (dest.overwrite start s).length = dest.length :=
    Bytes.length_overwrite (by omega)
  have hnul : (put stop (stop + 1) [0]).run (dest.overwrite start s) =
      .ok () ((dest.overwrite start s).overwrite stop [0]) := run_put rfl (by omega)
  rw [putString, EStateM.run_bind, run_put hstop (Nat.le_of_lt hroom)]
  dsimp only
  rw [hnul, hstop, Bytes.overwrite_overwrite (by omega)]

theorem run_behind {call : InPlace Nat} {result : Except Overflow (Nat × Bytes)}
    (hstart : start ≤ dest.length)
    (hcall : call.run (dest.drop start) = settled (dest.drop start) result) :
    (behind start call).run dest =
      settled dest (result.map fun (n, tail) => (n, dest.take start ++ tail)) := by
  rw [EStateM.run] at hcall ⊢
  rw [behind, if_pos hstart, hcall]
  cases result with
  | ok r => rfl
  | error e => simp [settled, Except.map]

end Writing

theorem run_copy (dest src : Bytes) :
    (Machine.copy src).run dest = settled dest (CString.copy dest src) := by
  by_cases hroom : (content src).length < dest.length
  · have hput : (putString 0 (content src).length (content src)).run dest =
        .ok () (dest.overwrite 0 (content src ++ [0])) := run_putString (by omega) hroom
    simp [Machine.copy, CString.copy, settled, require, hroom, hput]
  · simp [Machine.copy, CString.copy, settled, require, hroom]

theorem run_append (dest src : Bytes) :
    (Machine.append src).run dest = settled dest (CString.append dest src) := by
  have hcopy := run_behind (length_content_le dest) (run_copy (dest.drop (content dest).length) src)
  rw [Machine.append, CString.append, CString.length]
  cases hresult : CString.copy (dest.drop (content dest).length) src with
  | ok r => simp [CString.length, hcopy, hresult, settled, Except.map]
  | error e => simp [CString.length, hcopy, hresult, settled, Except.map]

theorem run_appendWithin (dest src : Bytes) (n : Nat) :
    (Machine.appendWithin src n).run dest = settled dest (CString.appendWithin dest src n) := by
  have hcount : ((content src).take n).length = min (content src).length n := by
    rw [List.length_take, Nat.min_comm]
  have hslice : slice (content src) 0 (min (content src).length n) =
      .ok ((content src).take n) := by
    simp [slice, Nat.min_comm]
  rw [CString.appendWithin, hcount]
  by_cases hroom : CString.length dest + min (content src).length n < dest.length
  · have hput : (putString (CString.length dest)
        (CString.length dest + min (content src).length n) ((content src).take n)).run dest =
        .ok () (dest.overwrite (CString.length dest) ((content src).take n ++ [0])) :=
      run_putString (by rw [hcount]) hroom
    simp [Machine.appendWithin, settled, require, hroom, hput, lift, hslice]
  · simp [Machine.appendWithin, settled, require, hroom]

theorem run_transform (dest src : Bytes) (n : Nat) :
    (Machine.transform src n).run dest =
      .ok (CString.transform dest src n).1 (CString.transform dest src n).2 := by
  by_cases hroom : (content src).length < min n dest.length
  · have hput : (putString 0 (content src).length (content src)).run dest =
        .ok () (dest.overwrite 0 (content src ++ [0])) := run_putString (by omega) (by omega)
    rw [CString.transform, if_pos hroom]
    simp [Machine.transform, Nat.lt_min.mp hroom, hput]
  · rw [CString.transform, if_neg hroom]
    simp [Machine.transform, Nat.lt_min.not.mp hroom]

end Machine

/-- `after` holds the string `s` and its NUL, and behind them what `before` holds there. -/
structure Holds (before s after : Bytes) : Prop where
  content_eq : content after = s
  bytes_eq : after = s ++ 0 :: before.drop (s.length + 1)

/-- The string `s` is built in `dest` as `result` says and as `call` does it. It is built where it
fits with its NUL, which is answered by `answer`; else the block stays as it is. -/
structure Builds (dest : Bytes) (result : Except Overflow (Nat × Bytes))
    (call : Machine.InPlace Nat) (s : Bytes) (answer : Nat) : Prop where
  run_eq : call.run dest = Machine.settled dest result
  succeeds_iff : (∃ n after, result = .ok (n, after)) ↔ s.length + 1 ≤ dest.length
  holds : ∀ n after, result = .ok (n, after) → n = answer ∧ Holds dest s after
  untouched : ∀ stop after, call.run dest = .error stop after →
    (∃ e, stop = .overflow e) ∧ after = dest

variable {dest front s after : Bytes}

theorem holds_overwrite (hfront : dest.take front.length = front)
    (hnul : (0 : UInt8) ∉ front ++ s) :
    Holds dest (front ++ s) (dest.overwrite front.length (s ++ [0])) := by
  have hbytes : dest.overwrite front.length (s ++ [0]) =
      front ++ s ++ 0 :: dest.drop ((front ++ s).length + 1) := by
    simp [Bytes.overwrite, hfront, Nat.add_assoc]
  refine ⟨?_, hbytes⟩
  rw [hbytes, content_append_nul, content_of_not_mem hnul]

theorem holds_copied (dest src : Bytes) :
    Holds dest (content src) (dest.overwrite 0 (content src ++ [0])) :=
  @holds_overwrite dest [] (content src) rfl (not_mem_content src)

/-- A part of a string goes behind the string of a block. -/
theorem holds_joined (dest src : Bytes) (n : Nat) :
    Holds dest (content dest ++ (content src).take n)
      (dest.overwrite (content dest).length ((content src).take n ++ [0])) := by
  refine holds_overwrite (take_length_content dest) fun h => ?_
  rcases List.mem_append.mp h with h | h
  · exact not_mem_content dest h
  · exact not_mem_content src (List.mem_of_mem_take h)

/-- A builder that asks for the room of the whole string first. -/
theorem builds_of_ite {e : Overflow} {call : Machine.InPlace Nat} {answer : Nat}
    {result : Except Overflow (Nat × Bytes)} (hrun : call.run dest = Machine.settled dest result)
    (hresult : result = if s.length < dest.length then .ok (answer, after) else .error e)
    (hholds : Holds dest s after) : Builds dest result call s answer where
  run_eq := hrun
  succeeds_iff := by
    rw [hresult, Nat.succ_le_iff]
    split <;> simp_all
  holds n after h := by
    rw [hresult] at h
    split at h
    · cases h
      exact ⟨rfl, hholds⟩
    · cases h
  untouched stop after h := by
    rw [hrun, hresult] at h
    split at h
    · cases h
    · cases h
      exact ⟨⟨e, rfl⟩, rfl⟩

theorem append_eq_ite (dest src : Bytes) :
    append dest src =
      if (content dest ++ content src).length < dest.length then
        .ok ((content dest ++ content src).length,
          dest.overwrite (content dest).length (content src ++ [0]))
      else .error (.whole (dest.length - (content dest).length) (content src).length) := by
  have hroom : (content src).length < (dest.drop (content dest).length).length ↔
      (content dest ++ content src).length < dest.length := by
    rw [List.length_append, List.length_drop]
    omega
  rw [append, length, copy]
  by_cases h : (content dest ++ content src).length < dest.length
  · have hlength : (content dest).length + ((content src).length + 1) - 1 =
        (content dest ++ content src).length := by
      rw [List.length_append]
      omega
    rw [if_pos h, if_pos (hroom.mpr h)]
    dsimp only
    rw [Bytes.take_append_overwrite_drop, hlength]
  · rw [if_neg h, if_neg (mt hroom.mp h), List.length_drop]

theorem appendWithin_eq_ite (dest src : Bytes) (n : Nat) :
    appendWithin dest src n =
      if (content dest ++ (content src).take n).length < dest.length then
        .ok ((content dest ++ (content src).take n).length,
          dest.overwrite (content dest).length ((content src).take n ++ [0]))
      else .error (.joined dest.length (content dest ++ (content src).take n).length) := by
  rw [List.length_append]
  rfl

/-- Copying, appending and appending a part of a string build the whole string where it fits with
its NUL: the block then holds this string and nothing else has changed. Where it does not fit, the
program is stopped before the first byte is written. A copy answers the bytes written, the others
the length of the joined string. A collation key is stored as a whole or not at all, and its length
is answered in both cases. -/
theorem strings_built_whole (dest src : Bytes) (n : Nat) :
    Builds dest (copy dest src) (Machine.copy src) (content src) ((content src).length + 1) ∧
    Builds dest (append dest src) (Machine.append src) (content dest ++ content src)
      (content dest ++ content src).length ∧
    Builds dest (appendWithin dest src n) (Machine.appendWithin src n)
      (content dest ++ (content src).take n) (content dest ++ (content src).take n).length ∧
    ((Machine.transform src n).run dest =
        .ok (transform dest src n).1 (transform dest src n).2 ∧
      (transform dest src n).1 = (content src).length ∧
      if (content src).length < min n dest.length then
        Holds dest (content src) (transform dest src n).2
      else (transform dest src n).2 = dest) := by
  refine ⟨?_, ?_, ?_, Machine.run_transform dest src n, ?_, ?_⟩
  · exact builds_of_ite (Machine.run_copy dest src) rfl (holds_copied dest src)
  · have hjoined := holds_joined dest src (content src).length
    rw [List.take_length] at hjoined
    exact builds_of_ite (Machine.run_append dest src) (append_eq_ite dest src) hjoined
  · exact builds_of_ite (Machine.run_appendWithin dest src n) (appendWithin_eq_ite dest src n)
      (holds_joined dest src n)
  · rw [transform]
    split <;> rfl
  · rw [transform]
    split
    · exact holds_copied dest src
    · rfl

/-- A string that fills its block to the last byte: one letter goes behind two, and no more. -/
example : append [104, 105, 0, 255] [33, 0, 63] = .ok (3, [104, 105, 33, 0]) ∧
    append [104, 105, 33, 0] [33] = .error (.whole 1 1) := by
  decide

end CString
end GuestLibrary
