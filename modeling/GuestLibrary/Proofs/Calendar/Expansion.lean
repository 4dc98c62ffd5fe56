import GuestLibrary.Calendar.Format
import Mathlib

/-! Formats cut in two. A format is read once from its front, so what a cut leaves to be expanded
depends on the state that reading is in there; between two directives that is the state it begins
in, and the parts can be expanded one by one. A buffer takes an expansion whole or not at all. -/
namespace GuestLibrary
namespace Calendar

/-- The state behind one more byte of a format. -/
def FormatState.next : FormatState → UInt8 → FormatState
  | .plain, b => if b = 37 then .percent else .plain
  | .percent, b => if b = 69 ∨ b = 79 then .modified else .plain
  | .modified, _ => .plain

/-- The state behind a format that is read from its front. -/
def stateAfter (format : Bytes) : FormatState := format.foldl FormatState.next .plain

/-- A format of single bytes and of directives with all that belongs to them: the percent sign, a
modifier where there is one, and the byte that names the directive. -/
inductive Finished : Bytes → Prop
  | nil : Finished []
  | byte {front : Bytes} {b : UInt8} (h : Finished front) (hb : b ≠ 37) : Finished (front ++ [b])
  | directive {front : Bytes} {d : UInt8} (h : Finished front) (hd : d ≠ 69 ∧ d ≠ 79) :
      Finished (front ++ [37, d])
  | modified {front : Bytes} {m d : UInt8} (h : Finished front) (hm : m = 69 ∨ m = 79) :
      Finished (front ++ [37, m, d])

/-- The format breaks off behind a percent sign, or behind a modifier. -/
def EndsInDirective (format : Bytes) : Prop :=
  ∃ front part, Finished front ∧ part ∈ ([[37], [37, 69], [37, 79]] : List Bytes) ∧
    format = front ++ part

section Cuts

variable {a : Bytes}

theorem expandFrom_append (meaning : Char → Bytes) (state : FormatState) (a b : Bytes) :
    expandFrom meaning state (a ++ b) =
      expandFrom meaning state a ++ expandFrom meaning (a.foldl FormatState.next state) b := by
  induction a generalizing state with
  | nil => cases state <;> simp [expandFrom]
  | cons x a ih =>
    cases state with
    | plain => by_cases hx : x = 37 <;> simp [expandFrom, FormatState.next, hx, ih]
    | percent => by_cases hx : x = 69 ∨ x = 79 <;> simp [expandFrom, FormatState.next, hx, ih]
    | modified => simp [expandFrom, FormatState.next, ih]

/-- What has been read of a format in a state: finished directives, and behind them what the state
keeps of the one begun. -/
def FormatState.Seen : FormatState → Bytes → Prop
  | .plain, a => Finished a
  | .percent, a => ∃ front, Finished front ∧ a = front ++ [37]
  | .modified, a => ∃ front m, Finished front ∧ (m = 69 ∨ m = 79) ∧ a = front ++ [37, m]

theorem FormatState.Seen.next {state : FormatState} (h : state.Seen a) (b : UInt8) :
    (state.next b).Seen (a ++ [b]) := by
  cases state with
  | plain =>
    by_cases hb : b = 37
    · simpa [FormatState.next, FormatState.Seen, hb] using h
    · simpa [FormatState.next, FormatState.Seen, hb] using Finished.byte h hb
  | percent =>
    obtain ⟨front, hfront, rfl⟩ := h
    by_cases hb : b = 69 ∨ b = 79
    · rw [FormatState.next, if_pos hb]
      exact ⟨front, b, hfront, hb, by simp⟩
    · rw [FormatState.next, if_neg hb]
      simpa [FormatState.Seen] using Finished.directive hfront (not_or.mp hb)
  | modified =>
    obtain ⟨front, m, hfront, hm, rfl⟩ := h
    simpa [FormatState.next, FormatState.Seen] using Finished.modified hfront hm

theorem seen_stateAfter (a : Bytes) : (stateAfter a).Seen a := by
  induction a using List.reverseRecOn with
  | nil => exact Finished.nil
  | append_singleton a b ih => simpa [stateAfter, List.foldl_append] using ih.next b

theorem Finished.stateAfter_eq (h : Finished a) : stateAfter a = .plain := by
  induction h with
  | nil => rfl
  | byte _ hb ih => simp_all [stateAfter, FormatState.next]
  | directive _ hd ih => simp_all [stateAfter, FormatState.next]
  | modified _ hm ih => simp_all [stateAfter, FormatState.next]

theorem endsInDirective_iff (a : Bytes) : EndsInDirective a ↔ stateAfter a ≠ .plain := by
  constructor
  · rintro ⟨front, part, hfront, hpart, rfl⟩
    have hplain := hfront.stateAfter_eq
    simp only [stateAfter] at hplain
    simp only [List.mem_cons, List.not_mem_nil, or_false] at hpart
    rcases hpart with rfl | rfl | rfl <;> simp [stateAfter, hplain, FormatState.next]
  · intro h
    have hseen := seen_stateAfter a
    cases hstate : stateAfter a with
    | plain => exact absurd hstate h
    | percent =>
      rw [hstate] at hseen
      obtain ⟨front, hfront, rfl⟩ := hseen
      exact ⟨front, [37], hfront, by simp, rfl⟩
    | modified =>
      rw [hstate] at hseen
      obtain ⟨front, m, hfront, hm, rfl⟩ := hseen
      exact ⟨front, [37, m], hfront, by simpa using hm, rfl⟩

instance (a : Bytes) : Decidable (EndsInDirective a) :=
  decidable_of_iff _ (endsInDirective_iff a).symm

end Cuts

section Texts

variable (c : Calendar) (zone : Int)

theorem render_append {a : Bytes} (hnul : (0 : UInt8) ∉ a) (ha : ¬ EndsInDirective a)
    (b : Bytes) : c.render (a ++ b) zone = c.render a zone ++ c.render b zone := by
  have hplain : a.foldl FormatState.next .plain = .plain := by
    by_contra h
    exact ha ((endsInDirective_iff a).mpr h)
  rw [render, render, render, CString.content_append hnul, CString.content_of_not_mem hnul,
    expandFrom_append, hplain]

theorem render_append_nul (a b : Bytes) : c.render (a ++ 0 :: b) zone = c.render a zone := by
  rw [render, render, CString.content_append_nul]

/-- A byte that begins no directive stands for itself. -/
theorem render_singleton {b : UInt8} (h0 : b ≠ 0) (hb : b ≠ 37) : c.render [b] zone = [b] := by
  simp [render, CString.content, expandFrom, h0, hb]

/-- A directive that the format breaks off in stands for nothing. -/
theorem render_unfinished {part : Bytes}
    (hpart : part ∈ ([[37], [37, 69], [37, 79]] : List Bytes)) : c.render part zone = [] := by
  simp only [List.mem_cons, List.not_mem_nil, or_false] at hpart
  rcases hpart with rfl | rfl | rfl <;> simp [render, CString.content, expandFrom]

theorem renderInto_of_length_lt {out format : Bytes}
    (h : out.length < (c.render format zone).length + 1) :
    c.renderInto out format zone = (0, out) := by
  rw [renderInto, if_pos (Nat.le_of_lt_succ h)]

theorem renderInto_of_le_length {out format : Bytes}
    (h : (c.render format zone).length + 1 ≤ out.length) :
    c.renderInto out format zone = ((c.render format zone).length,
      c.render format zone ++ 0 :: out.drop ((c.render format zone).length + 1)) := by
  rw [renderInto, if_neg (Nat.not_le_of_lt h)]
  simp [Bytes.overwrite]

end Texts

/-- Expansion is compositional, and all or nothing. A format that is cut between two directives
expands to the expansions of its parts, of which a byte that begins no directive is itself and a
directive that is broken off is nothing; no byte behind a NUL counts. A buffer with room for the
text and its terminator takes both in front of what it held, and any other buffer takes nothing. -/
theorem expansion_composes (c : Calendar) (zone : Int) :
    (∀ a b : Bytes, (0 : UInt8) ∉ a → ¬ EndsInDirective a →
      c.render (a ++ b) zone = c.render a zone ++ c.render b zone) ∧
    (∀ b : UInt8, b ≠ 0 → b ≠ 37 → c.render [b] zone = [b]) ∧
    (∀ part ∈ ([[37], [37, 69], [37, 79]] : List Bytes), c.render part zone = []) ∧
    (∀ a b : Bytes, c.render (a ++ 0 :: b) zone = c.render a zone) ∧
    (∀ out format : Bytes, out.length < (c.render format zone).length + 1 →
      c.renderInto out format zone = (0, out)) ∧
    ∀ out format : Bytes, (c.render format zone).length + 1 ≤ out.length →
      c.renderInto out format zone = ((c.render format zone).length,
        c.render format zone ++ 0 :: out.drop ((c.render format zone).length + 1)) := by
  refine ⟨?_, ?_, ?_, c.render_append_nul zone, ?_, ?_⟩
  · intro a b hnul ha
    exact c.render_append zone hnul ha b
  · intro b h0 hb
    exact c.render_singleton zone h0 hb
  · intro part hpart
    exact c.render_unfinished zone hpart
  · intro out format h
    exact c.renderInto_of_length_lt zone h
  · intro out format h
    exact c.renderInto_of_le_length zone h

/-- `%Ey%%` and `E%d`: the second percent sign of `%%` is read as the name of a directive, so the
`E` behind the cut is no modifier. Then `%y` in the buffers of two and of four bytes. -/
theorem expansion_composes_percent :
    ¬ EndsInDirective [37, 69, 121, 37, 37] ∧
    ({} : Calendar).render ([37, 69, 121, 37, 37] ++ [69, 37, 100]) 0 = [55, 48, 37, 69, 48, 49] ∧
    ({} : Calendar).render [69] 0 = [69] ∧ ({} : Calendar).render [37, 69] 0 = [] ∧
    ({} : Calendar).renderInto [1, 2] [37, 121] 0 = (0, [1, 2]) ∧
    ({} : Calendar).renderInto [1, 2, 3, 4] [37, 121] 0 = (2, [55, 48, 0, 4]) := by
  obtain ⟨hcut, hbyte, hpart, -, hshort, hroom⟩ := expansion_composes {} 0
  have ha : ¬ EndsInDirective [37, 69, 121, 37, 37] := by decide
  have hfront : ({} : Calendar).render [37, 69, 121, 37, 37] 0 = [55, 48, 37] := by decide +kernel
  have hback : ({} : Calendar).render [69, 37, 100] 0 = [69, 48, 49] := by decide +kernel
  have hyear : ({} : Calendar).render [37, 121] 0 = [55, 48] := by decide +kernel
  refine ⟨ha, ?_, hbyte 69 (by decide) (by decide), hpart [37, 69] (by decide), ?_, ?_⟩
  · rw [hcut _ [69, 37, 100] (by decide) ha, hfront, hback]
    rfl
  · exact hshort [1, 2] [37, 121] (by rw [hyear]; decide)
  · rw [hroom [1, 2, 3, 4] [37, 121] (by rw [hyear]; decide), hyear]
    rfl

end Calendar
end GuestLibrary
