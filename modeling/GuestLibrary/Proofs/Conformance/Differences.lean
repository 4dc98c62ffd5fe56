import GuestLibrary.Conformance.Difference
import GuestLibrary.Proofs.Text.Escaping

/-! Differences of texts, read from what is shown. A hunk stands for a line number at which two
texts differ, the lines that show it tell it, and a newline in no line of it can be mistaken for the
end of one. Main statement: the text of a difference shows one list of hunks only, these are the
line numbers at which the texts differ, and together with one text they give the other. -/
namespace GuestLibrary.Conformance

section Hunks

variable {n : Nat} {expected other actual : List String} {h : Hunk}

theorem mem_hunksFrom : h ∈ hunksFrom n expected actual ↔
    ∃ i, h = ⟨n + i, expected[i]?, actual[i]?⟩ ∧ expected[i]? ≠ actual[i]? := by
  -- The first line is looked at apart, the others are those of the recursive call.
  have hnext : ∀ n i : Nat, n + 1 + i = n + (i + 1) := fun n i => by omega
  fun_induction hunksFrom n expected actual with
  | case1 n => simp
  | case2 n e expected ih =>
    rw [← Nat.or_exists_add_one, List.mem_cons]
    simp [ih, hnext]
  | case3 n a actual ih =>
    rw [← Nat.or_exists_add_one, List.mem_cons]
    simp [ih, hnext]
  | case4 n expected a actual ih =>
    rw [← Nat.or_exists_add_one]
    simp [ih, hnext]
  | case5 n e expected a actual hne ih =>
    rw [← Nat.or_exists_add_one, List.mem_cons]
    simp [ih, hnext, hne]

theorem pairwise_hunksFrom (n : Nat) (expected actual : List String) :
    (hunksFrom n expected actual).Pairwise (·.number < ·.number) := by
  have hbehind : ∀ {n : Nat} {expected actual : List String},
      ∀ h ∈ hunksFrom (n + 1) expected actual, n < h.number := by
    intro n expected actual h hmem
    obtain ⟨i, rfl, -⟩ := mem_hunksFrom.mp hmem
    dsimp only
    omega
  fun_induction hunksFrom n expected actual with
  | case1 n => exact List.Pairwise.nil
  | case2 n e expected ih => exact List.pairwise_cons.mpr ⟨hbehind, ih⟩
  | case3 n a actual ih => exact List.pairwise_cons.mpr ⟨hbehind, ih⟩
  | case4 n expected a actual ih => exact ih
  | case5 n e expected a actual hne ih => exact List.pairwise_cons.mpr ⟨hbehind, ih⟩

/-- Lines with hunks against the same lines are the same where their hunks are. -/
theorem eq_of_hunksFrom_eq (heq : hunksFrom n expected actual = hunksFrom n other actual) :
    expected = other := by
  have hline : ∀ {xs ys : List String}, hunksFrom n xs actual = hunksFrom n ys actual →
      ∀ i : Nat, xs[i]? ≠ actual[i]? → xs[i]? = ys[i]? := by
    intro xs ys hxy i hne
    have hmem : (⟨n + i, xs[i]?, actual[i]?⟩ : Hunk) ∈ hunksFrom n ys actual :=
      hxy ▸ mem_hunksFrom.mpr ⟨i, rfl, hne⟩
    obtain ⟨j, hj, -⟩ := mem_hunksFrom.mp hmem
    obtain ⟨hnumber, hexpected, -⟩ := Hunk.mk.inj hj
    obtain rfl : i = j := Nat.add_left_cancel hnumber
    exact hexpected
  refine List.ext_getElem? fun i => ?_
  by_cases hexpected : expected[i]? = actual[i]?
  · by_cases hother : other[i]? = actual[i]?
    · rw [hexpected, hother]
    · exact (hline heq.symm i hother).symm
  · exact hline heq i hexpected

end Hunks

/-- A line of a text as it is shown. -/
def shownLine (mark : Char) (s : String) : List Char := mark :: (Text.escape s).toList

theorem shownLine_injective (mark : Char) : Function.Injective (shownLine mark) := by
  intro s t h
  exact Text.escape_inj.mp (String.toList_injective (List.cons.inj h).2)

namespace Hunk

/-- The line that a hunk begins with. -/
def heading (h : Hunk) : List Char := ("@@ line " ++ toString h.number ++ " @@").toList

/-- The lines of the texts in a hunk. -/
def body (h : Hunk) : List (List Char) :=
  (h.expected.map (shownLine '-')).toList ++ (h.actual.map (shownLine '+')).toList

/-- The lines that show a hunk. -/
def marked (h : Hunk) : List (List Char) := h.heading :: h.body

theorem toList_text (h : Hunk) : h.text.toList = h.marked.flatMap (· ++ ['\n']) := by
  obtain ⟨n, expected, actual⟩ := h
  cases expected <;> cases actual <;> simp [text, marked, heading, body, shownLine]

theorem newline_not_mem_marked (h : Hunk) : ∀ l ∈ h.marked, '\n' ∉ l := by
  intro l hl
  simp only [marked, body, List.mem_cons, List.mem_append, Option.mem_toList,
    Option.map_eq_some_iff] at hl
  obtain rfl | ⟨s, -, rfl⟩ | ⟨s, -, rfl⟩ := hl
  · simp [heading, Text.newline_not_mem_toDigits]
  · simp [shownLine, Text.newline_not_mem_escape]
  · simp [shownLine, Text.newline_not_mem_escape]

theorem number_eq_of_heading_eq {h h' : Hunk} (heq : h.heading = h'.heading) :
    h.number = h'.number := by
  have hdigits : Nat.toDigits 10 h.number = Nat.toDigits 10 h'.number := by
    simpa [heading] using heq
  rw [← @Nat.ofDigitChars_ten_toDigits h.number, hdigits, Nat.ofDigitChars_ten_toDigits]

/-- The lines of a hunk by their marks. -/
theorem find?_body (h : Hunk) :
    h.body.find? (·.head? == some '-') = h.expected.map (shownLine '-') ∧
    h.body.find? (·.head? == some '+') = h.actual.map (shownLine '+') := by
  obtain ⟨n, expected, actual⟩ := h
  cases expected <;> cases actual <;> simp [body, shownLine]

theorem eq_of_body_eq {h h' : Hunk} (hnumber : h.number = h'.number) (hbody : h.body = h'.body) :
    h = h' := by
  obtain ⟨hexpected, hactual⟩ := h.find?_body
  obtain ⟨hexpected', hactual'⟩ := h'.find?_body
  rw [hbody, hexpected'] at hexpected
  rw [hbody, hactual'] at hactual
  have he := Option.map_injective (shownLine_injective '-') hexpected
  have ha := Option.map_injective (shownLine_injective '+') hactual
  cases h
  cases h'
  simp_all

/-- The body of a hunk goes up to the heading of the next one. -/
theorem takeWhile_body (h : Hunk) (more : List Hunk) :
    (h.body ++ more.flatMap marked).takeWhile (·.head? != some '@') = h.body := by
  have hbody : ∀ l ∈ h.body, (l.head? != some '@') = true := by
    intro l hl
    simp only [body, List.mem_append, Option.mem_toList, Option.map_eq_some_iff] at hl
    obtain ⟨s, -, rfl⟩ | ⟨s, -, rfl⟩ := hl <;> rfl
  have hmore : (more.flatMap marked).takeWhile (·.head? != some '@') = [] := by
    cases more with
    | nil => rfl
    | cons next more => simp [marked, heading]
  rw [List.takeWhile_append_of_pos hbody, hmore, List.append_nil]

theorem flatMap_marked_injective :
    Function.Injective fun shown : List Hunk => shown.flatMap marked := by
  intro shown shown' heq
  induction shown generalizing shown' with
  | nil =>
    cases shown' with
    | nil => rfl
    | cons h' more' => simp [marked] at heq
  | cons h more ih =>
    cases shown' with
    | nil => simp [marked] at heq
    | cons h' more' =>
      obtain ⟨hheading, htail⟩ := List.cons.inj heq
      have hbody : h.body = h'.body := by
        rw [← takeWhile_body h more, ← takeWhile_body h' more']
        exact congrArg _ htail
      rw [eq_of_body_eq (number_eq_of_heading_eq hheading) hbody,
        ih (List.append_cancel_left (hbody ▸ htail))]

end Hunk

/-- The text that shows hunks. -/
def rendered (shown : List Hunk) : String :=
  "--- expected\n+++ actual\n" ++ String.join (shown.map Hunk.text)

/-- No two lists of hunks are shown alike. -/
theorem rendered_injective : Function.Injective rendered := by
  intro shown shown' heq
  have hjoin := congrArg String.toList ((String.append_right_inj _).mp heq)
  have htoList : ∀ shown : List Hunk, (String.join (shown.map Hunk.text)).toList =
      (shown.flatMap Hunk.marked).flatMap (· ++ ['\n']) := by
    intro shown
    simp [String.toList_join, List.flatMap_map, Hunk.toList_text, List.flatMap_assoc]
  have hlines : ∀ shown : List Hunk, ∀ l ∈ shown.flatMap Hunk.marked, '\n' ∉ l := by
    intro shown l hl
    obtain ⟨h, -, hl⟩ := List.mem_flatMap.mp hl
    exact h.newline_not_mem_marked l hl
  rw [htoList, htoList] at hjoin
  have hpieces := congrArg (Text.pieces '\n') hjoin
  rw [Text.pieces_flatMap_terminated (hlines shown),
    Text.pieces_flatMap_terminated (hlines shown')] at hpieces
  exact Hunk.flatMap_marked_injective (List.append_cancel_right hpieces)

theorem difference_of_ne {expected actual : String} (hne : expected ≠ actual) :
    difference expected actual = rendered (hunks expected actual) := if_neg hne

theorem head?_rendered (shown : List Hunk) : (rendered shown).toList.head? = some '-' := by
  have hfirst : "--- expected\n+++ actual\n".toList.head? = some '-' := rfl
  change ("--- expected\n+++ actual\n" ++ String.join (shown.map Hunk.text)).toList.head? = _
  rw [String.toList_append, List.head?_append, hfirst, Option.some_or]

theorem rendered_ne_identical (shown : List Hunk) : rendered shown ≠ "[identical]" := by
  intro h
  have hhead : "[identical]".toList.head? = some '-' := h ▸ head?_rendered shown
  cases hhead

/-- Texts with hunks against the same text are the same where their hunks are. -/
theorem hunks_inj {expected other actual : String} :
    hunks expected actual = hunks other actual ↔ expected = other :=
  ⟨fun heq => Text.split_inj.mp (eq_of_hunksFrom_eq heq), fun heq => heq ▸ rfl⟩

theorem hunks_self (s : String) : hunks s s = [] := by
  refine List.eq_nil_iff_forall_not_mem.mpr fun h hmem => ?_
  obtain ⟨i, -, hne⟩ := mem_hunksFrom.mp hmem
  exact hne rfl

theorem hunks_eq_nil_iff {expected actual : String} :
    hunks expected actual = [] ↔ expected = actual := by
  rw [← hunks_self actual, hunks_inj]

/-- Two texts are told identical exactly where they are. Else the text of their difference shows one
list of hunks and no other, and there is one at least. They come in the order of their line numbers,
which are those at which the texts differ or only one of them has a line; a hunk has the line of
each text that has one there. The one text and the hunks give the other text, and so do the one text
and the text that shows the hunks. -/
theorem differences_show_lines (expected actual : String) :
    (difference expected actual = "[identical]" ↔ expected = actual) ∧
    (∀ shown, difference expected actual = rendered shown ↔
      expected ≠ actual ∧ shown = hunks expected actual) ∧
    (hunks expected actual = [] ↔ expected = actual) ∧
    (hunks expected actual).Pairwise (·.number < ·.number) ∧
    (∀ h, h ∈ hunks expected actual ↔
      ∃ i, h = ⟨i + 1, (lines expected)[i]?, (lines actual)[i]?⟩ ∧
        (lines expected)[i]? ≠ (lines actual)[i]?) ∧
    (∀ other, hunks other actual = hunks expected actual ↔ other = expected) ∧
    (∀ other, difference other actual = difference expected actual ↔ other = expected) := by
  have hidentical : ∀ s, difference s actual = "[identical]" ↔ s = actual := by
    intro s
    by_cases hs : s = actual
    · exact iff_of_true (if_pos hs) hs
    · rw [difference_of_ne hs]
      exact iff_of_false (rendered_ne_identical _) hs
  refine ⟨hidentical expected, ?_, hunks_eq_nil_iff, pairwise_hunksFrom _ _ _, ?_,
    fun _ => hunks_inj, ?_⟩
  · intro shown
    by_cases hne : expected = actual
    · rw [(hidentical expected).mpr hne]
      exact iff_of_false (rendered_ne_identical shown).symm fun h => h.1 hne
    · rw [difference_of_ne hne, rendered_injective.eq_iff, eq_comm, and_iff_right hne]
  · intro h
    simp only [hunks, mem_hunksFrom, Nat.add_comm 1]
  · intro other
    refine ⟨fun heq => ?_, fun heq => heq ▸ rfl⟩
    by_cases hne : expected = actual
    · rw [(hidentical expected).mpr hne, hidentical] at heq
      rw [heq, hne]
    · have hother : other ≠ actual := fun h => by
        rw [(hidentical other).mpr h] at heq
        exact hne ((hidentical expected).mp heq.symm)
      rw [difference_of_ne hne, difference_of_ne hother] at heq
      exact hunks_inj.mp (rendered_injective heq)

/-- A line that only one text has: the newline in front of it is shown by no hunk of its own. -/
example : hunks "a\nb\n" "a\nx" = [⟨2, some "b", some "x"⟩, ⟨3, some "", none⟩] := by
  cbv

end GuestLibrary.Conformance
