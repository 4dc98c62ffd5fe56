import GuestLibrary.Conformance.Verdict
import Mathlib.Data.List.Forall2

/-! Verdicts and their differences. A case that fails carries a difference and a case that passes
carries none, but for a call that has no answer: what is wrong with it counts as a difference even
where the case expects just that text. A call that is stopped has no verdict, and a run over sets
ends with it. -/
namespace GuestLibrary.Conformance

/-- A case that expects what stands for a call without an answer, and no error number. -/
def FixtureCase.ExpectsNoAnswer (c : FixtureCase) : Prop :=
  ∃ e, execute c.function c.inputs = .ok (.error e) ∧
    c.expectedOutput = "unsupported:" ++ e.message ∧ c.expectedErrorNumber = 0

namespace Verdict

variable {family : String} {c : FixtureCase} {v : Verdict}

/-- The verdict on a call with an answer: the difference tells text and error number apart. -/
theorem ofCase_of_ok (family : String) {r : Execution}
    (h : execute c.function c.inputs = .ok (.ok r)) : ∃ v, ofCase family c = .ok v ∧
      (v.passed ↔ r.output = c.expectedOutput ∧ r.errorNumber = c.expectedErrorNumber) ∧
      (v.difference = none ↔
        r.output = c.expectedOutput ∧ r.errorNumber = c.expectedErrorNumber) := by
  simp only [ofCase, textOutcome, h]
  refine ⟨_, rfl, ?_⟩
  by_cases hnumber : r.errorNumber = c.expectedErrorNumber
  · by_cases houtput : r.output = c.expectedOutput <;> simp [hnumber, houtput]
  · simp [hnumber]

/-- The verdict on a call without an answer always carries a difference. -/
theorem ofCase_of_error (family : String) {e : ExecutionError}
    (h : execute c.function c.inputs = .ok (.error e)) : ∃ v, ofCase family c = .ok v ∧
      (v.passed ↔ c.ExpectsNoAnswer) ∧ v.difference ≠ none := by
  have hexpects : c.ExpectsNoAnswer ↔
      "unsupported:" ++ e.message = c.expectedOutput ∧ 0 = c.expectedErrorNumber := by
    constructor
    · rintro ⟨e', he, houtput, hnumber⟩
      obtain rfl := Except.error.inj (Except.ok.inj (h.symm.trans he))
      exact ⟨houtput.symm, hnumber.symm⟩
    · rintro ⟨houtput, hnumber⟩
      exact ⟨e, h, houtput.symm, hnumber.symm⟩
  rw [hexpects]
  simp only [ofCase, textOutcome, h]
  refine ⟨_, rfl, by simp, ?_⟩
  dsimp only
  split <;> simp

/-- There is no verdict on a call that is stopped, and only on such a call there is none. -/
theorem ofCase_eq_error_iff (family : String) (c : FixtureCase) (stop : Stop) :
    ofCase family c = .error stop ↔ execute c.function c.inputs = .error stop := by
  rcases h : execute c.function c.inputs with stop' | e | r
  · have hstop : ofCase family c = .error stop' := by
      simp only [ofCase, textOutcome, h]
      rfl
    rw [hstop]
    exact ⟨fun he => congrArg _ (Except.error.inj he), fun he => congrArg _ (Except.error.inj he)⟩
  · obtain ⟨v, hv, -⟩ := ofCase_of_error family h
    rw [hv]
    constructor <;> exact fun he => by cases he
  · obtain ⟨v, hv, -⟩ := ofCase_of_ok family h
    rw [hv]
    constructor <;> exact fun he => by cases he

/-- A verdict carries a difference exactly where the case fails or expects no answer. -/
theorem difference_isSome_iff (hv : ofCase family c = .ok v) :
    v.difference.isSome ↔ v.passed = false ∨ c.ExpectsNoAnswer := by
  rw [Option.isSome_iff_ne_none]
  rcases h : execute c.function c.inputs with stop | e | r
  · cases hv.symm.trans ((ofCase_eq_error_iff family c stop).mpr h)
  · obtain ⟨v', hv', hpassed, hsome⟩ := ofCase_of_error family h
    obtain rfl := Except.ok.inj (hv.symm.trans hv')
    rw [← hpassed]
    exact iff_of_true hsome (Bool.eq_false_or_eq_true _).symm
  · obtain ⟨v', hv', hpassed, hnone⟩ := ofCase_of_ok family h
    obtain rfl := Except.ok.inj (hv.symm.trans hv')
    have hanswers : ¬ c.ExpectsNoAnswer := by
      rintro ⟨e, he, -⟩
      cases h.symm.trans he
    rw [ne_eq, hnone, ← hpassed, or_iff_left hanswers, Bool.not_eq_true]

/-- Without an answer a case passes exactly where it expects none. -/
theorem passed_iff_of_error (hv : ofCase family c = .ok v) {e : ExecutionError}
    (he : execute c.function c.inputs = .ok (.error e)) : v.passed ↔ c.ExpectsNoAnswer := by
  obtain ⟨v', hv', hpassed, -⟩ := ofCase_of_error family he
  obtain rfl := Except.ok.inj (hv.symm.trans hv')
  exact hpassed

/-- A verdict passes with a difference exactly where the case expects no answer. -/
theorem passed_and_difference_iff (hv : ofCase family c = .ok v) :
    (v.passed ∧ v.difference.isSome) ↔ c.ExpectsNoAnswer := by
  rw [difference_isSome_iff hv]
  constructor
  · rintro ⟨hpassed, hfailed | hc⟩
    · rw [hpassed] at hfailed
      cases hfailed
    · exact hc
  · intro hc
    obtain ⟨e, he, -⟩ := id hc
    exact ⟨(passed_iff_of_error hv he).mpr hc, Or.inr hc⟩

end Verdict

/-! A run of checked steps over a list. -/

section Traversal

variable {α β ε : Type} {f : α → Except ε β} {xs : List α}

theorem mapM_eq_ok_iff {ys : List β} :
    xs.mapM f = .ok ys ↔ List.Forall₂ (fun x y => f x = .ok y) xs ys := by
  induction xs generalizing ys with
  | nil => cases ys <;> simp [pure, Except.pure]
  | cons x xs ih =>
    rw [List.mapM_cons]
    cases hx : f x with
    | error e => cases ys <;> simp [bind, Except.bind, hx]
    | ok y =>
      cases hxs : xs.mapM f with
      | error e => cases ys <;> simp [bind, Except.bind, ← ih, hx, hxs]
      | ok rest => cases ys <;> simp [bind, Except.bind, pure, Except.pure, ← ih, hx, hxs]

/-- The first step that fails ends the run. -/
theorem mapM_eq_error_iff {e : ε} : xs.mapM f = .error e ↔
    ∃ before x after, xs = before ++ x :: after ∧ (∀ y ∈ before, ∃ b, f y = .ok b) ∧
      f x = .error e := by
  induction xs with
  | nil => simp [pure, Except.pure]
  | cons x xs ih =>
    rw [List.mapM_cons]
    cases hx : f x with
    | error e' =>
      constructor
      · rintro he
        obtain rfl := Except.error.inj he
        exact ⟨[], x, xs, rfl, by simp, hx⟩
      · rintro ⟨before, y, after, heq, hbefore, hy⟩
        cases before with
        | nil =>
          obtain ⟨rfl, -⟩ := List.cons.inj heq
          exact congrArg _ (Except.error.inj (hx.symm.trans hy))
        | cons z before =>
          obtain ⟨rfl, -⟩ := List.cons.inj heq
          obtain ⟨b, hb⟩ := hbefore x (List.mem_cons_self ..)
          cases hx.symm.trans hb
    | ok y =>
      have hstep : (do let rest ← xs.mapM f; pure (y :: rest) : Except ε (List β)) = .error e ↔
          xs.mapM f = .error e := by
        cases xs.mapM f <;> simp [bind, Except.bind, pure, Except.pure]
      refine hstep.trans (ih.trans ⟨?_, ?_⟩)
      · rintro ⟨before, z, after, rfl, hbefore, hz⟩
        refine ⟨x :: before, z, after, rfl, fun w hw => ?_, hz⟩
        rcases List.mem_cons.mp hw with rfl | hw
        · exact ⟨y, hx⟩
        · exact hbefore w hw
      · rintro ⟨before, z, after, heq, hbefore, hz⟩
        cases before with
        | nil =>
          obtain ⟨rfl, -⟩ := List.cons.inj heq
          cases hx.symm.trans hz
        | cons w before =>
          obtain ⟨rfl, rfl⟩ := List.cons.inj heq
          exact ⟨before, z, after, rfl, fun u hu => hbefore u (List.mem_cons_of_mem _ hu), hz⟩

end Traversal

namespace Summary

/-- The cases that a run over sets comes to, each with the family of its set. -/
def cases (functions : Option (List String)) (sets : List FixtureSet) :
    List (String × FixtureCase) :=
  sets.flatMap fun set => (Verdict.selected functions set).map (set.family, ·)

variable {functions : Option (List String)} {sets : List FixtureSet}

/-- A run over sets is a run over all their cases. -/
theorem ofSets_eq (functions : Option (List String)) (sets : List FixtureSet) :
    ofSets functions sets =
      ((cases functions sets).mapM fun x => Verdict.ofCase x.1 x.2).map Summary.mk := by
  induction sets with
  | nil => rfl
  | cons set sets ih =>
    have hset : Verdict.ofSet functions set =
        ((Verdict.selected functions set).map (set.family, ·)).mapM
          fun x => Verdict.ofCase x.1 x.2 := by
      rw [List.mapM_map]
      rfl
    have hcases : cases functions (set :: sets) =
        (Verdict.selected functions set).map (set.family, ·) ++ cases functions sets := rfl
    rw [hcases, List.mapM_append, ← hset]
    simp only [ofSets, List.mapM_cons] at ih ⊢
    cases Verdict.ofSet functions set with
    | error stop => rfl
    | ok verdicts =>
      generalize (cases functions sets).mapM (fun x => Verdict.ofCase x.1 x.2) = run at ih ⊢
      cases hrest : sets.mapM (Verdict.ofSet functions) with
      | error stop =>
        rw [hrest] at ih
        cases run with
        | error stop' => exact ih
        | ok rest => cases ih
      | ok rest =>
        rw [hrest] at ih
        cases run with
        | error stop' => cases ih
        | ok rest' =>
          obtain rfl : rest.flatten = rest' := congrArg Summary.verdicts (Except.ok.inj ih)
          rfl

/-- The verdicts of a summary are those on its cases. -/
theorem ofSets_eq_ok_iff {s : Summary} : ofSets functions sets = .ok s ↔
    List.Forall₂ (fun x v => Verdict.ofCase x.1 x.2 = .ok v) (cases functions sets) s.verdicts := by
  rw [ofSets_eq, ← mapM_eq_ok_iff]
  cases (cases functions sets).mapM fun x => Verdict.ofCase x.1 x.2 with
  | error stop => simp [Except.map]
  | ok verdicts =>
    constructor
    · intro he
      exact congrArg _ (congrArg Summary.verdicts (Except.ok.inj he))
    · intro he
      rw [Except.ok.inj he]
      rfl

/-- A run ends with the first case that is stopped. -/
theorem ofSets_eq_error_iff {stop : Stop} : ofSets functions sets = .error stop ↔
    ∃ before x after, cases functions sets = before ++ x :: after ∧
      (∀ y ∈ before, ∃ v, Verdict.ofCase y.1 y.2 = .ok v) ∧
      execute x.2.function x.2.inputs = .error stop := by
  have hrun : ofSets functions sets = .error stop ↔
      ((cases functions sets).mapM fun x => Verdict.ofCase x.1 x.2) = .error stop := by
    rw [ofSets_eq]
    cases (cases functions sets).mapM fun x => Verdict.ofCase x.1 x.2 <;> simp [Except.map]
  rw [hrun, mapM_eq_error_iff]
  exact exists_congr fun before => exists_congr fun x => exists_congr fun after =>
    and_congr Iff.rfl (and_congr Iff.rfl (Verdict.ofCase_eq_error_iff x.1 x.2 stop))

theorem failed_add_passed (s : Summary) : s.failed + s.passed = s.total := by
  have hle : s.passed ≤ s.total := List.length_filter_le _ _
  exact Nat.sub_add_cancel hle

/-- Where no failure lacks its difference, the differences are those of the failures and of the
cases that passed with one. -/
theorem countP_difference (s : Summary)
    (hs : ∀ v ∈ s.verdicts, v.passed = false → v.difference.isSome) :
    s.verdicts.countP (·.difference.isSome) =
      s.failed + s.verdicts.countP fun v => v.passed && v.difference.isSome := by
  obtain ⟨verdicts⟩ := s
  induction verdicts with
  | nil => rfl
  | cons v verdicts ih =>
    have hrest := ih fun v hv => hs v (List.mem_cons_of_mem _ hv)
    have hfirst := hs v List.mem_cons_self
    have htotal := failed_add_passed ⟨v :: verdicts⟩
    have htotal' := failed_add_passed ⟨verdicts⟩
    simp only [total, passed, List.length_cons, List.filter_cons, List.countP_cons] at *
    cases hv : v.passed with
    | true => cases v.difference.isSome <;> simp [hv] at * <;> omega
    | false => simp [hv, hfirst hv] at *; omega

/-- What the verdicts on some cases have in common with the cases, by induction on both. -/
theorem differences_of_cases {xs : List (String × FixtureCase)} {verdicts : List Verdict}
    (h : List.Forall₂ (fun x v => Verdict.ofCase x.1 x.2 = .ok v) xs verdicts) :
    (∀ v ∈ verdicts, v.passed = false → v.difference.isSome) ∧
    ((∀ v ∈ verdicts, ¬ (v.passed && v.difference.isSome) = true) ↔
      ∀ x ∈ xs, ¬ x.2.ExpectsNoAnswer) := by
  induction h with
  | nil => simp
  | cons hv _ ih =>
    simp only [List.forall_mem_cons]
    refine ⟨⟨fun hfailed => (Verdict.difference_isSome_iff hv).mpr (Or.inl hfailed), ih.1⟩,
      and_congr (not_congr ?_) ih.2⟩
    rw [Bool.and_eq_true_iff]
    exact Verdict.passed_and_difference_iff hv

/-- The failures of a run are as many as its differences exactly where no case of it expects no
answer. -/
theorem failed_eq_countP_iff {s : Summary} (hs : ofSets functions sets = .ok s) :
    s.failed = s.verdicts.countP (·.difference.isSome) ↔
      ∀ x ∈ cases functions sets, ¬ x.2.ExpectsNoAnswer := by
  obtain ⟨hfails, hexpects⟩ := differences_of_cases (ofSets_eq_ok_iff.mp hs)
  rw [s.countP_difference hfails, Nat.left_eq_add, List.countP_eq_zero]
  exact hexpects

end Summary

/-- A case fails only with a difference, and it passes with one exactly where its call has no answer
and the case expects what stands for that; no other call without an answer passes, and a call that
is stopped has no verdict. So the failures of a run over sets are as many as its differences exactly
where no case of it is of that kind; and a run has a summary unless one of its cases is stopped,
with which it ends. -/
theorem differences_tell_failures (family : String) (c : FixtureCase)
    (functions : Option (List String)) (sets : List FixtureSet) :
    (∀ v, Verdict.ofCase family c = .ok v →
      (v.passed = false → v.difference.isSome) ∧
      ((v.passed ∧ v.difference.isSome) ↔ c.ExpectsNoAnswer) ∧
      ∀ e, execute c.function c.inputs = .ok (.error e) → (v.passed ↔ c.ExpectsNoAnswer)) ∧
    (∀ stop, Verdict.ofCase family c = .error stop ↔
      execute c.function c.inputs = .error stop) ∧
    (∀ s, Summary.ofSets functions sets = .ok s →
      List.Forall₂ (fun x v => Verdict.ofCase x.1 x.2 = .ok v) (Summary.cases functions sets)
        s.verdicts ∧
      (s.failed = s.verdicts.countP (·.difference.isSome) ↔
        ∀ x ∈ Summary.cases functions sets, ¬ x.2.ExpectsNoAnswer)) ∧
    ∀ stop, Summary.ofSets functions sets = .error stop ↔
      ∃ before x after, Summary.cases functions sets = before ++ x :: after ∧
        (∀ y ∈ before, ∃ v, Verdict.ofCase y.1 y.2 = .ok v) ∧
        execute x.2.function x.2.inputs = .error stop := by
  refine ⟨fun v hv => ⟨fun hfailed => ?_, Verdict.passed_and_difference_iff hv,
      fun e => Verdict.passed_iff_of_error hv⟩, Verdict.ofCase_eq_error_iff family c,
    fun s hs => ⟨Summary.ofSets_eq_ok_iff.mp hs, Summary.failed_eq_countP_iff hs⟩,
    fun stop => Summary.ofSets_eq_error_iff⟩
  exact (Verdict.difference_isSome_iff hv).mpr (Or.inl hfailed)

/-- A case of a call that there is none of. -/
def unknownCall (expected : String) : FixtureCase :=
  ⟨"unknown", "qsort", "C11 7.22.5.2", .object [], expected, 0⟩

/-- A set with one such case. -/
def unknownSet (expected : String) : FixtureSet :=
  ⟨"v1", "mixed", "2026-02-09T00:00:00Z", [unknownCall expected]⟩

/-- Of two sets with such a case, the one that expects an answer counts its failure. The other one
makes for a difference more. -/
theorem differences_tell_failures_unknown : ∃ s s',
    Summary.ofSets none [unknownSet "0"] = .ok s ∧
    s.failed = s.verdicts.countP (·.difference.isSome) ∧
    Summary.ofSets none [unknownSet "0", unknownSet "unsupported:unknown function 'qsort'"] =
      .ok s' ∧
    s'.failed ≠ s'.verdicts.countP (·.difference.isSome) := by
  refine ⟨_, _, rfl, ?_, rfl, fun hfailed => ?_⟩
  · obtain ⟨-, -, hsummary, -⟩ :=
      differences_tell_failures "mixed" (unknownCall "0") none [unknownSet "0"]
    refine (hsummary _ rfl).2.mpr fun x hx => ?_
    obtain rfl := List.mem_singleton.mp hx
    rintro ⟨e, he, houtput, -⟩
    obtain rfl := Except.error.inj (Except.ok.inj he)
    revert houtput
    decide
  · obtain ⟨-, -, hsummary, -⟩ := differences_tell_failures "mixed" (unknownCall "0") none
      [unknownSet "0", unknownSet "unsupported:unknown function 'qsort'"]
    exact (hsummary _ rfl).2.mp hfailed
      ("mixed", unknownCall "unsupported:unknown function 'qsort'")
      (List.mem_cons_of_mem _ (List.mem_cons_self ..)) ⟨_, rfl, rfl, rfl⟩

/-- The case that expects the text for an unknown call passes, with a difference and without a
failure that the summary counts. -/
theorem unknown_call_passes :
    (∃ e, execute "qsort" (.object []) = .ok (.error e)) ∧
    ∃ s, Summary.ofSets none [unknownSet "unsupported:unknown function 'qsort'"] = .ok s ∧
      s.failed = 0 ∧ s.verdicts.map (fun v => (v.passed, v.difference)) =
        [(true, some "[identical]")] := by
  refine ⟨⟨_, rfl⟩, _, rfl, ?_, ?_⟩ <;> decide

end GuestLibrary.Conformance
