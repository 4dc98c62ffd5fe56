import GuestLibrary.Conformance.Execution
import GuestLibrary.Proofs.Numeral.Runs

/-! The tokens of a string. A call cuts the next run of bytes that are no delimiters off what is
left of the block, and writes behind its own resume point only, so what later calls scan is the
text as it was. Main statement: the calls up to the first one without a token find the longest runs
of the text, each of them once and in order, and all calls after that find none. -/
namespace GuestLibrary
namespace Token

open CString (content)

/-- The byte is one of the string of delimiters. -/
def isDelimiter (delimiters : Bytes) (b : UInt8) : Bool := (content delimiters).contains b

/-- The bytes from `run.1` up to `run.2` are no delimiters, there are some, and the run is no part
of a longer one. -/
structure MaximalRun (text : Bytes) (p : UInt8 → Bool) (run : Nat × Nat) : Prop where
  nonempty : run.1 < run.2
  within : run.2 ≤ text.length
  inside : ∀ i b, run.1 ≤ i → i < run.2 → text[i]? = some b → p b = false
  before : ∀ i b, i + 1 = run.1 → text[i]? = some b → p b = true
  behind : ∀ b, text[run.2]? = some b → p b = true

/-- The text between the bounds of a run. -/
def between (text : Bytes) (run : Nat × Nat) : Bytes := (text.drop run.1).take (run.2 - run.1)

/-- The answers to calls with one string of delimiters after the other, and the cursor and the block
that they leave. -/
def Cursor.calls (c : Cursor) (s : Bytes) :
    List Bytes → List (Option (Nat × Nat)) × Cursor × Bytes
  | [] => ([], c, s)
  | delimiters :: more =>
    let (answer, c', s') := c.advance s delimiters
    let (answers, c'', s'') := c'.calls s' more
    (answer :: answers, c'', s'')

section Text

theorem content_drop {s : Bytes} {pos : Nat} (h : pos ≤ (content s).length) :
    content (s.drop pos) = (content s).drop pos := by
  have hnul : (0 : UInt8) ∉ (content s).drop pos := by
    intro hmem
    simpa using List.mem_takeWhile_imp (List.mem_of_mem_drop hmem)
  have hend : content (s.dropWhile (· != 0)) = [] := by
    have hhead := List.head?_dropWhile_not (· != 0) s
    rw [content]
    cases hrest : s.dropWhile (· != 0) with
    | nil => rfl
    | cons b rest =>
      rw [hrest] at hhead
      exact List.takeWhile_cons_of_neg (by simpa using hhead)
  have hsplit : s.drop pos = (content s).drop pos ++ s.dropWhile (· != 0) := by
    rw [← List.drop_append_of_le_length h, content, List.takeWhile_append_dropWhile]
  rw [hsplit, CString.content_append hnul, hend, List.append_nil]

variable {text skipped token rest : Bytes} {p : UInt8 → Bool} {pos : Nat} {run run' : Nat × Nat}

/-- A run that begins no earlier than another is the same or begins behind it. -/
theorem MaximalRun.eq_or_behind (h : MaximalRun text p run) (h' : MaximalRun text p run')
    (hle : run.1 ≤ run'.1) : run' = run ∨ run.2 < run'.1 := by
  have hlength := h'.within
  have hnonempty := h'.nonempty
  have hbyte : ∀ {i : Nat}, i < run'.2 → ∃ b, text[i]? = some b := fun hi =>
    ⟨_, List.getElem?_eq_getElem (Nat.lt_of_lt_of_le hi hlength)⟩
  rcases Nat.lt_trichotomy run.2 run'.1 with hlt | heq | hgt
  · exact Or.inr hlt
  · -- The byte behind the one would be the first of the other.
    obtain ⟨b, hb⟩ := hbyte hnonempty
    have hin := h'.inside run'.1 b (Nat.le_refl _) hnonempty hb
    rw [h.behind b (heq ▸ hb)] at hin
    cases hin
  · refine Or.inl ?_
    have hstart : run'.1 = run.1 := by
      by_contra hne
      obtain ⟨b, hb⟩ := hbyte (i := run'.1 - 1) (by omega)
      have hin := h.inside (run'.1 - 1) b (by omega) (by omega) hb
      rw [h'.before (run'.1 - 1) b (by omega) hb] at hin
      cases hin
    have hstop : run'.2 = run.2 := by
      rcases Nat.lt_trichotomy run'.2 run.2 with hlt | heq | hlt
      · obtain ⟨b, hb⟩ : ∃ b, text[run'.2]? = some b :=
          ⟨_, List.getElem?_eq_getElem (Nat.lt_of_lt_of_le hlt h.within)⟩
        have hin := h.inside run'.2 b (by omega) hlt hb
        rw [h'.behind b hb] at hin
        cases hin
      · exact heq
      · obtain ⟨b, hb⟩ := hbyte hlt
        have hin := h'.inside run.2 b (by omega) hlt hb
        rw [h.behind b hb] at hin
        cases hin
    exact Prod.ext hstart hstop

/-- Where what is left of a text is cut by its delimiters. -/
structure Cut (text : Bytes) (p : UInt8 → Bool) (pos : Nat) (skipped token rest : Bytes) :
    Prop where
  drop_eq : text.drop pos = skipped ++ (token ++ rest)
  front : Numeral.LongestRun p skipped (token ++ rest)
  token : Numeral.LongestRun (fun b => !p b) token rest

theorem exists_cut (text : Bytes) (p : UInt8 → Bool) (pos : Nat) :
    ∃ skipped token rest, Cut text p pos skipped token rest := by
  obtain ⟨skipped, behind, hfront, hskipped⟩ := Numeral.exists_longestRun p (text.drop pos)
  obtain ⟨token, rest, rfl, htoken⟩ := Numeral.exists_longestRun (fun b => !p b) behind
  exact ⟨skipped, token, rest, hfront.symm, hskipped, htoken⟩

namespace Cut

theorem getElem?_eq (h : Cut text p pos skipped token rest) (i : Nat) :
    text[pos + i]? = (skipped ++ (token ++ rest))[i]? := by
  rw [← h.drop_eq, List.getElem?_drop]

theorem skips (h : Cut text p pos skipped token rest) {i : Nat} {b : UInt8} (hpos : pos ≤ i)
    (hi : i < pos + skipped.length) (hb : text[i]? = some b) : p b = true := by
  obtain ⟨k, rfl⟩ := Nat.exists_eq_add_of_le hpos
  rw [h.getElem?_eq, List.getElem?_append_left (by omega)] at hb
  exact h.front.all b (List.mem_of_getElem? hb)

/-- No run begins among the delimiters in front of the token. -/
theorem start_le (h : Cut text p pos skipped token rest) (hrun : MaximalRun text p run)
    (hpos : pos ≤ run.1) : pos + skipped.length ≤ run.1 := by
  by_contra hlt
  have hin := Nat.lt_of_lt_of_le hrun.nonempty hrun.within
  have hb := List.getElem?_eq_getElem hin
  have hdelimiter := h.skips hpos (Nat.not_le.mp hlt) hb
  rw [hrun.inside run.1 _ (Nat.le_refl _) hrun.nonempty hb] at hdelimiter
  cases hdelimiter

theorem length_eq (h : Cut text p pos skipped token rest) (hpos : pos ≤ text.length) :
    text.length = pos + skipped.length + token.length + rest.length := by
  have hlength := congrArg List.length h.drop_eq
  rw [List.length_drop, List.length_append, List.length_append] at hlength
  omega

/-- The token is a longest run, if there is one and the byte in front of what is left is a
delimiter. -/
theorem maximalRun (h : Cut text p pos skipped token rest) (hpos : pos ≤ text.length)
    (htoken : token ≠ []) (hborder : ∀ i b, i + 1 = pos → text[i]? = some b → p b = true) :
    MaximalRun text p (pos + skipped.length, pos + skipped.length + token.length) where
  nonempty := Nat.lt_add_of_pos_right (List.length_pos_iff.mpr htoken)
  within := by
    have := h.length_eq hpos
    dsimp only
    omega
  inside i b hstart hstop hb := by
    obtain ⟨k, rfl⟩ := Nat.exists_eq_add_of_le hstart
    dsimp only at hstop hb
    rw [Nat.add_assoc, h.getElem?_eq, List.getElem?_append_right (by omega),
      Nat.add_sub_cancel_left, List.getElem?_append_left (by omega)] at hb
    simpa using h.token.all b (List.mem_of_getElem? hb)
  before i b hi hb := by
    by_cases hfront : pos ≤ i
    · exact h.skips hfront (by dsimp only at hi; omega) hb
    · exact hborder i b (by dsimp only at hi; omega) hb
  behind b hb := by
    dsimp only at hb
    rw [Nat.add_assoc, h.getElem?_eq, ← List.append_assoc, ← List.length_append,
      List.getElem?_append_right (Nat.le_refl _), Nat.sub_self, ← List.head?_eq_getElem?] at hb
    simpa using h.token.ends b hb

/-- Without a token there is no run in what is left. -/
theorem not_maximalRun (h : Cut text p pos skipped [] rest) (hpos : pos ≤ text.length)
    (hrun : MaximalRun text p run) : ¬ pos ≤ run.1 := by
  intro hle
  have hrest : rest = [] := by
    cases rest with
    | nil => rfl
    | cons b rest =>
      have hone := h.front.ends b rfl
      have hother := h.token.ends b rfl
      simp [hone] at hother
  have hlength := h.length_eq hpos
  have hstart := h.start_le hrun hle
  have hnonempty := hrun.nonempty
  have hwithin := hrun.within
  rw [hrest] at hlength
  dsimp only [List.length_nil] at hlength
  omega

end Cut
end Text

section Calls

variable {text block delimiters skipped token rest : Bytes} {pos : Nat} {c : Cursor}

/-- What a call finds from `pos` on: the block still holds the text there. -/
structure Ahead (text block : Bytes) (pos : Nat) : Prop where
  le_text : pos ≤ text.length
  le_block : text.length ≤ block.length
  content_eq : content (block.drop pos) = text.drop pos

/-- The byte behind a token that ends at `fin`, if the text has one, becomes a NUL. -/
def terminated (text block : Bytes) (fin : Nat) : Bytes :=
  if fin < text.length then block.set fin 0 else block

theorem Cut.next?_eq (h : Cut text (isDelimiter delimiters) pos skipped token rest)
    (hahead : Ahead text block pos) (htoken : token ≠ []) :
    next? block delimiters pos = some
      (⟨pos + skipped.length, token.length,
        min (pos + skipped.length + token.length + 1) text.length⟩,
        terminated text block (pos + skipped.length + token.length)) := by
  have hlength := h.length_eq hahead.le_text
  have hfront : (skipped ++ (token ++ rest)).takeWhile
      (fun b => (content delimiters).contains b) = skipped := h.front.takeWhile_eq
  have hbehind : (token ++ rest).takeWhile (fun b => !(content delimiters).contains b) = token :=
    h.token.takeWhile_eq
  rw [next?, if_neg (Nat.not_lt.mpr (Nat.le_trans hahead.le_text hahead.le_block))]
  simp only [hahead.content_eq, h.drop_eq, hfront, List.drop_left, hbehind,
    List.isEmpty_iff, htoken, if_false, List.length_append, terminated]
  by_cases hmore : pos + skipped.length + token.length < text.length
  · rw [if_pos (by omega), if_pos hmore, Nat.min_eq_left (by omega)]
  · rw [if_neg (by omega), if_neg hmore, Nat.min_eq_right (by omega)]
    have hfin : pos + skipped.length + token.length = text.length := by omega
    rw [hfin]

theorem Cut.next?_eq_none (h : Cut text (isDelimiter delimiters) pos skipped [] rest)
    (hahead : Ahead text block pos) : next? block delimiters pos = none := by
  have hfront : (skipped ++ ([] ++ rest)).takeWhile
      (fun b => (content delimiters).contains b) = skipped := h.front.takeWhile_eq
  have hbehind : ([] ++ rest).takeWhile (fun b => !(content delimiters).contains b) = [] :=
    h.token.takeWhile_eq
  rw [next?, if_neg (Nat.not_lt.mpr (Nat.le_trans hahead.le_text hahead.le_block))]
  simp only [hahead.content_eq, h.drop_eq, hfront, List.drop_left, hbehind, List.isEmpty_nil,
    if_true]

theorem Cut.advance_eq (h : Cut text (isDelimiter delimiters) pos skipped token rest)
    (hahead : Ahead text block pos) (htoken : token ≠ []) (hc : c.next.getD 0 = pos) :
    c.advance block delimiters =
      (some (pos + skipped.length, pos + skipped.length + token.length),
        ⟨some (min (pos + skipped.length + token.length + 1) text.length)⟩,
        terminated text block (pos + skipped.length + token.length)) := by
  simp only [Cursor.advance, hc, h.next?_eq hahead htoken]

/-- Without a token the cursor goes to the end of the text. -/
theorem Cut.advance_eq_none (h : Cut text (isDelimiter delimiters) pos skipped [] rest)
    (hahead : Ahead text block pos) (hc : c.next.getD 0 = pos) :
    c.advance block delimiters = (none, ⟨some text.length⟩, block) := by
  have hend : pos + CString.length (block.drop pos) = text.length := by
    rw [CString.length, hahead.content_eq, List.length_drop]
    exact Nat.add_sub_cancel' hahead.le_text
  simp only [Cursor.advance, hc, h.next?_eq_none hahead,
    if_pos (Nat.le_trans hahead.le_text hahead.le_block), hend]

/-- At the end of the text a call finds nothing and changes nothing, whatever the delimiters. -/
theorem calls_at_end (hahead : Ahead text block text.length) (more : List Bytes) :
    Cursor.calls ⟨some text.length⟩ block more =
      (List.replicate more.length none, ⟨some text.length⟩, block) := by
  induction more with
  | nil => rfl
  | cons delimiters more ih =>
    obtain ⟨skipped, token, rest, h⟩ := exists_cut text (isDelimiter delimiters) text.length
    have hdrop := h.drop_eq
    rw [List.drop_length] at hdrop
    obtain ⟨rfl, hbehind⟩ := List.append_eq_nil_iff.mp hdrop.symm
    obtain ⟨rfl, rfl⟩ := List.append_eq_nil_iff.mp hbehind
    rw [Cursor.calls, h.advance_eq_none hahead rfl]
    simp only [ih, List.length_cons, List.replicate_succ]

theorem Ahead.later (hahead : Ahead text block pos) {pos' : Nat} (hpos : pos ≤ pos')
    (htext : pos' ≤ text.length) : Ahead text block pos' where
  le_text := htext
  le_block := hahead.le_block
  content_eq := by
    obtain ⟨k, rfl⟩ := Nat.exists_eq_add_of_le hpos
    have hk : k ≤ (content (block.drop pos)).length := by
      rw [hahead.content_eq, List.length_drop]
      omega
    rw [← List.drop_drop, content_drop hk, hahead.content_eq, List.drop_drop]

/-- A NUL written in front of the resume point is not seen from there. -/
theorem Ahead.terminated (hahead : Ahead text block pos) {fin : Nat} (hpos : pos ≤ fin)
    (hfin : fin ≤ text.length) :
    Ahead text (terminated text block fin) (min (fin + 1) text.length) := by
  unfold Token.terminated
  split
  · rename_i hmore
    have hnext := hahead.later (Nat.le_succ_of_le hpos) hmore
    rw [Nat.min_eq_left hmore]
    refine ⟨hmore, by rw [List.length_set]; exact hahead.le_block, ?_⟩
    rw [List.drop_set_of_lt (Nat.lt_succ_self fin), hnext.content_eq]
  · rename_i hend
    exact hahead.later (by omega) (Nat.min_le_right _ _)

/-- The bytes of a token are those of the text, also after the call that found it. -/
theorem Ahead.take_terminated (hahead : Ahead text block pos) {start fin : Nat} (hpos : pos ≤ start)
    (hstart : start ≤ fin) (hfin : fin ≤ text.length) :
    ((Token.terminated text block fin).drop start).take (fin - start) =
      (text.drop start).take (fin - start) := by
  have hkept : ((Token.terminated text block fin).drop start).take (fin - start) =
      (block.drop start).take (fin - start) := by
    unfold Token.terminated
    split
    · rw [List.drop_set, if_neg (Nat.not_lt.mpr hstart), List.take_set_of_le (Nat.le_refl _)]
    · rfl
  have hcontent := (hahead.later hpos (Nat.le_trans hstart hfin)).content_eq
  obtain ⟨tail, htail⟩ := List.takeWhile_prefix (p := (· != 0)) (l := block.drop start)
  replace hcontent : (block.drop start).takeWhile (· != 0) = text.drop start := hcontent
  rw [hkept, ← htail, hcontent, List.take_append_of_le_length]
  rw [List.length_drop]
  omega

/-- The longest runs from `pos` on, in order. -/
structure RunsFrom (text : Bytes) (p : UInt8 → Bool) (pos : Nat) (runs : List (Nat × Nat)) :
    Prop where
  mem_iff : ∀ run, run ∈ runs ↔ MaximalRun text p run ∧ pos ≤ run.1
  ordered : runs.Pairwise fun a b => a.2 < b.1

/-- `final` is `block` with a NUL behind each run that the text goes on after. -/
structure Cleared (text block : Bytes) (runs : List (Nat × Nat)) (final : Bytes) : Prop where
  length_eq : final.length = block.length
  getElem?_eq : ∀ i, final[i]? =
    if ∃ run ∈ runs, run.2 = i ∧ i < text.length then some 0 else block[i]?

theorem Cut.runsFrom_nil (h : Cut text (isDelimiter delimiters) pos skipped [] rest)
    (hpos : pos ≤ text.length) : RunsFrom text (isDelimiter delimiters) pos [] := by
  refine ⟨fun run => ?_, List.Pairwise.nil⟩
  simp only [List.not_mem_nil, false_iff, not_and]
  exact fun hrun => h.not_maximalRun hpos hrun

/-- The run of the token comes before those that begin behind it. -/
theorem Cut.runsFrom_cons {p : UInt8 → Bool} (h : Cut text p pos skipped token rest) {fin : Nat}
    (hrun : MaximalRun text p (pos + skipped.length, fin)) {runs : List (Nat × Nat)}
    (hruns : RunsFrom text p (min (fin + 1) text.length) runs) :
    RunsFrom text p pos ((pos + skipped.length, fin) :: runs) := by
  have hnonempty := hrun.nonempty
  have hwithin := hrun.within
  dsimp only at hnonempty hwithin
  refine ⟨fun run => ?_, List.pairwise_cons.mpr ⟨fun run hmem => ?_, hruns.ordered⟩⟩
  · rw [List.mem_cons, hruns.mem_iff]
    constructor
    · rintro (rfl | ⟨hmax, hle⟩)
      · exact ⟨hrun, by dsimp only; omega⟩
      · exact ⟨hmax, by omega⟩
    · rintro ⟨hmax, hle⟩
      refine (hrun.eq_or_behind hmax (h.start_le hmax hle)).imp_right fun hbehind => ⟨hmax, ?_⟩
      dsimp only at hbehind
      omega
  · obtain ⟨hmax, hle⟩ := (hruns.mem_iff run).mp hmem
    have hlast := hmax.nonempty
    have hend := hmax.within
    dsimp only
    omega

theorem Cleared.cons {fin start : Nat} {runs : List (Nat × Nat)} {final : Bytes}
    (hblock : text.length ≤ block.length)
    (h : Cleared text (terminated text block fin) runs final) :
    Cleared text block ((start, fin) :: runs) final := by
  constructor
  · rw [h.length_eq, terminated]
    split
    · exact List.length_set
    · rfl
  · intro i
    rw [h.getElem?_eq, terminated]
    by_cases hruns : ∃ run ∈ runs, run.2 = i ∧ i < text.length
    · obtain ⟨run, hmem, hrun⟩ := hruns
      rw [if_pos ⟨run, hmem, hrun⟩, if_pos ⟨run, List.mem_cons_of_mem _ hmem, hrun⟩]
    · rw [if_neg hruns]
      by_cases hi : fin = i ∧ i < text.length
      · obtain ⟨rfl, hi⟩ := hi
        rw [if_pos hi, if_pos ⟨_, List.mem_cons_self, rfl, hi⟩,
          List.getElem?_set_self (by omega)]
      · have hnone : ¬ ∃ run ∈ (start, fin) :: runs, run.2 = i ∧ i < text.length := by
          rintro ⟨run, hmem, hrun⟩
          rcases List.mem_cons.mp hmem with rfl | hmem
          · exact hi hrun
          · exact hruns ⟨run, hmem, hrun⟩
        rw [if_neg hnone]
        split
        · rename_i hmore
          exact List.getElem?_set_ne fun heq => hi ⟨heq, heq ▸ hmore⟩
        · rfl

/-- What a scan from `pos` on comes to when it goes on until it finds no token. -/
structure Scanned (text block delimiters : Bytes) (c : Cursor) (pos : Nat)
    (runs : List (Nat × Nat)) (final : Bytes) : Prop where
  runsFrom : RunsFrom text (isDelimiter delimiters) pos runs
  few : pos + runs.length ≤ text.length
  calls_eq : c.calls block (List.replicate (runs.length + 1) delimiters) =
    (runs.map some ++ [none], ⟨some text.length⟩, final)
  cleared : Cleared text block runs final
  ahead : Ahead text final text.length
  allTokens_eq : ∀ steps, runs.length < steps →
    Conformance.allTokens delimiters steps block c = runs.map (between text)

theorem Cut.scanned_nil (h : Cut text (isDelimiter delimiters) pos skipped [] rest)
    (hahead : Ahead text block pos) (hc : c.next.getD 0 = pos) :
    Scanned text block delimiters c pos [] block where
  runsFrom := h.runsFrom_nil hahead.le_text
  few := hahead.le_text
  calls_eq := by
    simp only [List.length_nil, Nat.zero_add, List.replicate_one, Cursor.calls,
      h.advance_eq_none hahead hc, List.map_nil, List.nil_append]
  cleared := ⟨rfl, fun i => by simp⟩
  ahead := hahead.later hahead.le_text (Nat.le_refl _)
  allTokens_eq steps hsteps := by
    obtain ⟨steps, rfl⟩ := Nat.exists_eq_add_of_lt hsteps
    rw [List.length_nil, Nat.zero_add, Conformance.allTokens, h.advance_eq_none hahead hc]
    rfl

/-- The call that cuts the token off goes in front of the calls of the scan behind it. -/
theorem Cut.scanned_cons (h : Cut text (isDelimiter delimiters) pos skipped token rest)
    (hahead : Ahead text block pos) (htoken : token ≠ []) (hc : c.next.getD 0 = pos) {fin : Nat}
    (hfin : fin = pos + skipped.length + token.length)
    (hrun : MaximalRun text (isDelimiter delimiters) (pos + skipped.length, fin))
    {runs : List (Nat × Nat)} {final : Bytes}
    (hscan : Scanned text (Token.terminated text block fin) delimiters
      ⟨some (min (fin + 1) text.length)⟩ (min (fin + 1) text.length) runs final) :
    Scanned text block delimiters c pos ((pos + skipped.length, fin) :: runs) final := by
  have hstep := h.advance_eq hahead htoken hc
  rw [← hfin] at hstep
  have hstart := hrun.nonempty
  have hend := hrun.within
  dsimp only at hstart hend
  refine ⟨h.runsFrom_cons hrun hscan.runsFrom, ?_, ?_, hscan.cleared.cons hahead.le_block,
    hscan.ahead, fun steps hsteps => ?_⟩
  · have hfew := hscan.few
    rw [List.length_cons]
    omega
  · rw [List.length_cons, List.replicate_succ, Cursor.calls, hstep]
    simp only [hscan.calls_eq, List.map_cons, List.cons_append]
  · cases steps with
    | zero => exact absurd hsteps (Nat.not_lt_zero _)
    | succ steps =>
      rw [Conformance.allTokens, hstep]
      simp only [hscan.allTokens_eq steps (Nat.lt_of_succ_lt_succ hsteps), List.map_cons, between,
        hahead.take_terminated (Nat.le_add_right pos skipped.length) (Nat.le_of_lt hstart) hend]

/-- A scan from behind a delimiter, or from the first byte, finds the longest runs from there on. -/
theorem exists_scanned (delimiters : Bytes) (hahead : Ahead text block pos)
    (hc : c.next.getD 0 = pos)
    (hborder : pos < text.length →
      ∀ i b, i + 1 = pos → text[i]? = some b → isDelimiter delimiters b = true) :
    ∃ runs final, Scanned text block delimiters c pos runs final := by
  -- Each token takes a byte, so less is left behind it.
  induction hleft : text.length - pos using Nat.strongRecOn generalizing block pos c with
  | _ left ih =>
    obtain ⟨skipped, token, rest, h⟩ := exists_cut text (isDelimiter delimiters) pos
    by_cases htoken : token = []
    · subst htoken
      exact ⟨[], block, h.scanned_nil hahead hc⟩
    · have hlength := h.length_eq hahead.le_text
      have htaken := List.length_pos_iff.mpr htoken
      have hrun := h.maximalRun hahead.le_text htoken (hborder (by omega))
      obtain ⟨fin, hfin⟩ : ∃ fin, fin = pos + skipped.length + token.length := ⟨_, rfl⟩
      rw [← hfin] at hrun
      have hbehind := hahead.terminated (show pos ≤ fin by omega) (show fin ≤ text.length by omega)
      have hdelimiter : min (fin + 1) text.length < text.length → ∀ i b,
          i + 1 = min (fin + 1) text.length → text[i]? = some b →
          isDelimiter delimiters b = true := by
        intro hmore i b hi hb
        obtain rfl : fin = i := by omega
        exact hrun.behind b hb
      obtain ⟨runs, final, hscan⟩ := ih (text.length - min (fin + 1) text.length) (by omega)
        hbehind (c := ⟨some (min (fin + 1) text.length)⟩) rfl hdelimiter rfl
      exact ⟨_, final, h.scanned_cons hahead htoken hc hfin hrun hscan⟩

end Calls

/-- The calls on a string from its first byte on, up to the first one that finds no token, answer
the longest runs of bytes of the string that are no delimiters, each of them once and in order. The
block they leave has a NUL for the delimiter behind each run, where there is one, and is else the
block there was. From there on no call, with whatever delimiters, finds a token or changes a thing.
The scan of the execution, which gives itself a step for each byte, has all tokens. -/
theorem tokens_are_maximal_runs (s delimiters : Bytes) :
    ∃ (runs : List (Nat × Nat)) (final : Bytes),
      (∀ run, run ∈ runs ↔ MaximalRun (content s) (isDelimiter delimiters) run) ∧
      runs.Pairwise (fun a b => a.2 < b.1) ∧
      Cursor.calls {} s (List.replicate (runs.length + 1) delimiters) =
        (runs.map some ++ [none], ⟨some (CString.length s)⟩, final) ∧
      final.length = s.length ∧
      (∀ i, final[i]? =
        if ∃ run ∈ runs, run.2 = i ∧ i < CString.length s then some 0 else s[i]?) ∧
      (∀ more, Cursor.calls ⟨some (CString.length s)⟩ final more =
        (List.replicate more.length none, ⟨some (CString.length s)⟩, final)) ∧
      Conformance.allTokens delimiters (s.length + 1) s {} = runs.map (between (content s)) := by
  have hahead : Ahead (content s) s 0 :=
    ⟨Nat.zero_le _, CString.length_content_le s, by rw [List.drop_zero, List.drop_zero]⟩
  obtain ⟨runs, final, hscan⟩ := exists_scanned delimiters hahead (c := {}) rfl
    fun _ i _ hi => absurd hi (Nat.succ_ne_zero i)
  have hsteps : runs.length < s.length + 1 := by
    have hfew := hscan.few
    have hle := hahead.le_block
    omega
  refine ⟨runs, final, fun run => ?_, hscan.runsFrom.ordered, hscan.calls_eq,
    hscan.cleared.length_eq, hscan.cleared.getElem?_eq, calls_at_end hscan.ahead,
    hscan.allTokens_eq (s.length + 1) hsteps⟩
  rw [hscan.runsFrom.mem_iff]
  exact and_iff_left (Nat.zero_le _)

/-- Of two commas on end the second stays, and one in front of the first token stays too. -/
example : Cursor.calls {} [44, 97, 98, 44, 44, 99, 0] [[44], [44], [44]] =
    ([some (1, 3), some (5, 6), none], ⟨some 6⟩, [44, 97, 98, 0, 44, 99, 0]) := by
  decide

end Token
end GuestLibrary
