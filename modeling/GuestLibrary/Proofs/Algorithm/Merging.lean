import GuestLibrary.Algorithm.Sorting
import Mathlib

/-! Merging runs. Whatever a comparator answers, no element is lost or repeated; where its signs
are those of a total preorder, ordered runs are merged into ordered ones, and elements that tie stay
in their order. Runs that have been cut evenly stay so, with twice the length after each round. -/
namespace GuestLibrary.Sorting

variable {σ α : Type} {compare : Comparator σ α}

theorem merge_perm (compare : Comparator σ α) (left right : List α) (s : σ) :
    (merge compare left right s).1.Perm (left ++ right) := by
  fun_induction merge compare left right s with
  | case1 right s => simp
  | case2 left s => simp
  | case3 x left y right s c s' _ _ rest s'' hrest ih =>
    rw [hrest] at ih
    exact (ih.cons y).trans List.perm_middle.symm
  | case4 x left y right s c s' _ _ rest s'' hrest ih =>
    rw [hrest] at ih
    exact ih.cons x

theorem length_merge (compare : Comparator σ α) (left right : List α) (s : σ) :
    (merge compare left right s).1.length = left.length + right.length := by
  rw [(merge_perm compare left right s).length_eq, List.length_append]

theorem mergePairs_perm (compare : Comparator σ α) (runs : List (List α)) (s : σ) :
    (mergePairs compare runs s).1.flatten.Perm runs.flatten := by
  fun_induction mergePairs compare runs s with
  | case1 a b rest s run s' hrun merged s'' hmerged ih =>
    have hperm := merge_perm compare a b s
    rw [hrun] at hperm
    rw [hmerged] at ih
    simp only [List.flatten_cons, ← List.append_assoc]
    exact hperm.append ih
  | case2 runs s => exact List.Perm.refl _

theorem mergeRounds_perm (compare : Comparator σ α) (runs : List (List α)) (s : σ) :
    (mergeRounds compare runs s).1.Perm runs.flatten := by
  fun_induction mergeRounds compare runs s with
  | case1 runs s _ round ih => exact ih.trans (mergePairs_perm compare runs s)
  | case2 runs s => exact List.Perm.refl _

theorem flatten_singletons (xs : List α) : (xs.map ([·])).flatten = xs := by
  rw [← List.flatMap_def, List.flatMap_singleton']

theorem sort_perm (compare : Comparator σ α) (xs : List α) (s : σ) :
    (sort compare xs s).1.Perm xs := by
  have h := mergeRounds_perm compare (xs.map ([·])) s
  rwa [flatten_singletons] at h

section Order

/-- Two elements tie in the preorder `le`. -/
def Tied (le : α → α → Bool) (a b : α) : Bool := le a b && le b a

/-- The signs that `compare` answers for members of `xs` are those of the total preorder `le`,
whatever state it is in. -/
structure Orders (compare : Comparator σ α) (le : α → α → Bool) (xs : List α) : Prop where
  total : ∀ a ∈ xs, ∀ b ∈ xs, le a b = true ∨ le b a = true
  trans : ∀ a ∈ xs, ∀ b ∈ xs, ∀ c ∈ xs, le a b = true → le b c = true → le a c = true
  neg_iff : ∀ a ∈ xs, ∀ b ∈ xs, ∀ s, (compare a b s).1 < 0 ↔ le b a = false
  pos_iff : ∀ a ∈ xs, ∀ b ∈ xs, ∀ s, 0 < (compare a b s).1 ↔ le a b = false

/-- `ys` has the elements of `xs` in the order `le`, and those that tie as they were in `xs`. -/
structure StableSort (le : α → α → Bool) (xs ys : List α) : Prop where
  perm : ys.Perm xs
  ordered : ys.Pairwise fun a b => le a b = true
  stable : ∀ a ∈ xs, ys.filter (Tied le a) = xs.filter (Tied le a)

variable {le : α → α → Bool} {xs ys zs left right : List α} {runs : List (List α)} {s : σ}

/-- Of two orders of the same elements that keep ties, both begin with the same element: each first
element is below the other, so they tie, and both lists begin their ties alike. -/
theorem eq_of_ordered
    (htrans : ∀ a ∈ ys, ∀ b ∈ ys, ∀ c ∈ ys, le a b = true → le b c = true → le a c = true)
    (hrefl : ∀ a ∈ ys, le a a = true) (hperm : ys.Perm zs)
    (hys : ys.Pairwise fun a b => le a b = true) (hzs : zs.Pairwise fun a b => le a b = true)
    (hties : ∀ a ∈ ys, ys.filter (Tied le a) = zs.filter (Tied le a)) : ys = zs := by
  induction ys generalizing zs with
  | nil => exact hperm.nil_eq
  | cons y ys ih =>
    cases zs with
    | nil => exact absurd hperm.eq_nil (List.cons_ne_nil y ys)
    | cons z zs =>
      obtain ⟨hy, hys⟩ := List.pairwise_cons.mp hys
      obtain ⟨hz, hzs'⟩ := List.pairwise_cons.mp hzs
      have hyy := hrefl y List.mem_cons_self
      have hyz : le y z = true := by
        rcases List.mem_cons.mp (hperm.mem_iff.mpr List.mem_cons_self) with rfl | hmem
        · exact hyy
        · exact hy z hmem
      have hzy : le z y = true := by
        rcases List.mem_cons.mp (hperm.mem_iff.mp List.mem_cons_self) with rfl | hmem
        · exact hyy
        · exact hz y hmem
      have hfirst := hties y List.mem_cons_self
      rw [List.filter_cons_of_pos (by simp [Tied, hyy]),
        List.filter_cons_of_pos (by simp [Tied, hyz, hzy])] at hfirst
      obtain ⟨rfl, -⟩ := List.cons.inj hfirst
      congr 1
      refine ih ?_ ?_ ((List.perm_cons y).mp hperm) hys hzs' ?_
      · intro a ha b hb c hc
        exact htrans a (List.mem_cons_of_mem y ha) b (List.mem_cons_of_mem y hb) c
          (List.mem_cons_of_mem y hc)
      · exact fun a ha => hrefl a (List.mem_cons_of_mem y ha)
      · intro a ha
        have htie := hties a (List.mem_cons_of_mem y ha)
        by_cases h : Tied le a y = true
        · simpa [List.filter_cons_of_pos h] using htie
        · simpa [List.filter_cons_of_neg h] using htie

namespace Orders

theorem subset (h : Orders compare le xs) (hsub : ys ⊆ xs) : Orders compare le ys where
  total a ha b hb := h.total a (hsub ha) b (hsub hb)
  trans a ha b hb c hc := h.trans a (hsub ha) b (hsub hb) c (hsub hc)
  neg_iff a ha b hb := h.neg_iff a (hsub ha) b (hsub hb)
  pos_iff a ha b hb := h.pos_iff a (hsub ha) b (hsub hb)

theorem refl (h : Orders compare le xs) {a : α} (ha : a ∈ xs) : le a a = true := by
  simpa using h.total a ha a ha

theorem le_of_lt (h : Orders compare le xs) {a b : α} (ha : a ∈ xs) (hb : b ∈ xs)
    (hlt : le b a = false) : le a b = true := by
  simpa [hlt] using h.total a ha b hb

theorem lt_of_call (h : Orders compare le xs) {x y : α} (hy : y ∈ xs) (hx : x ∈ xs) {s s' : σ}
    {c : Int} (hcall : compare y x s = (c, s')) (hneg : c < 0) : le x y = false := by
  have hsign := (h.neg_iff y hy x hx s).mp
  rw [hcall] at hsign
  exact hsign hneg

theorem le_of_call (h : Orders compare le xs) {x y : α} (hy : y ∈ xs) (hx : x ∈ xs) {s s' : σ}
    {c : Int} (hcall : compare y x s = (c, s')) (hneg : ¬ c < 0) : le x y = true := by
  have hsign := (h.neg_iff y hy x hx s).mpr
  rw [hcall] at hsign
  by_contra hlt
  exact hneg (hsign (by simpa using hlt))

/-- There is one stable sort only. -/
theorem stableSort_unique (h : Orders compare le xs) (hys : StableSort le xs ys)
    (hzs : StableSort le xs zs) : ys = zs := by
  refine eq_of_ordered ?_ ?_ (hys.perm.trans hzs.perm.symm) hys.ordered hzs.ordered ?_
  · intro a ha b hb c hc
    exact h.trans a (hys.perm.mem_iff.mp ha) b (hys.perm.mem_iff.mp hb) c (hys.perm.mem_iff.mp hc)
  · exact fun a ha => h.refl (hys.perm.mem_iff.mp ha)
  · intro a ha
    have hmem := hys.perm.mem_iff.mp ha
    rw [hys.stable a hmem, hzs.stable a hmem]

theorem merge_ordered (h : Orders compare le zs) (hleft : left ⊆ zs) (hright : right ⊆ zs)
    (hl : left.Pairwise fun a b => le a b = true) (hr : right.Pairwise fun a b => le a b = true) :
    (merge compare left right s).1.Pairwise fun a b => le a b = true := by
  fun_induction merge compare left right s with
  | case1 right s => exact hr
  | case2 left s _ => exact hl
  | case3 x left y right s c s' hcall hneg rest s'' hrest ih =>
    obtain ⟨hx, -⟩ := List.cons_subset.mp hleft
    obtain ⟨hy, hright'⟩ := List.cons_subset.mp hright
    obtain ⟨hyr, hr⟩ := List.pairwise_cons.mp hr
    have hyx : le y x = true := h.le_of_lt hy hx (h.lt_of_call hy hx hcall hneg)
    have hperm := merge_perm compare (x :: left) right s'
    rw [hrest] at hperm ih
    refine List.pairwise_cons.mpr ⟨fun z hz => ?_, ih hleft hright' hl hr⟩
    rcases List.mem_append.mp (hperm.mem_iff.mp hz) with hz | hz
    · rcases List.mem_cons.mp hz with rfl | hz'
      · exact hyx
      · exact h.trans y hy x hx z (hleft hz) hyx ((List.pairwise_cons.mp hl).1 z hz')
    · exact hyr z hz
  | case4 x left y right s c s' hcall hneg rest s'' hrest ih =>
    obtain ⟨hx, hleft'⟩ := List.cons_subset.mp hleft
    obtain ⟨hy, -⟩ := List.cons_subset.mp hright
    obtain ⟨hxl, hl⟩ := List.pairwise_cons.mp hl
    have hxy : le x y = true := h.le_of_call hy hx hcall hneg
    have hperm := merge_perm compare left (y :: right) s'
    rw [hrest] at hperm ih
    refine List.pairwise_cons.mpr ⟨fun z hz => ?_, ih hleft' hright hl hr⟩
    rcases List.mem_append.mp (hperm.mem_iff.mp hz) with hz | hz
    · exact hxl z hz
    · rcases List.mem_cons.mp hz with rfl | hz'
      · exact hxy
      · exact h.trans x hx y hy z (hright hz) hxy ((List.pairwise_cons.mp hr).1 z hz')

/-- An element of the right run goes first only when it is strictly below all that is left of the
left run, so it overtakes none that it ties with. -/
theorem filter_merge (h : Orders compare le zs) (hleft : left ⊆ zs) (hright : right ⊆ zs)
    (hl : left.Pairwise fun a b => le a b = true) {a : α} (ha : a ∈ zs) :
    (merge compare left right s).1.filter (Tied le a) =
      left.filter (Tied le a) ++ right.filter (Tied le a) := by
  fun_induction merge compare left right s with
  | case1 right s => rfl
  | case2 left s _ => simp
  | case3 x left y right s c s' hcall hneg rest s'' hrest ih =>
    obtain ⟨hx, -⟩ := List.cons_subset.mp hleft
    obtain ⟨hy, hright⟩ := List.cons_subset.mp hright
    have hlt : le x y = false := h.lt_of_call hy hx hcall hneg
    rw [hrest] at ih
    by_cases htie : Tied le a y = true
    · have hnone : (x :: left).filter (Tied le a) = [] := by
        refine List.filter_eq_nil_iff.mpr fun z hz hza => ?_
        have hxz : le x z = true := by
          rcases List.mem_cons.mp hz with rfl | hz'
          · exact h.refl hx
          · exact (List.pairwise_cons.mp hl).1 z hz'
        obtain ⟨-, hza⟩ := Bool.and_eq_true_iff.mp hza
        obtain ⟨hay, -⟩ := Bool.and_eq_true_iff.mp htie
        have hzy := h.trans z (hleft hz) a ha y hy hza hay
        simp [h.trans x hx z (hleft hz) y hy hxz hzy] at hlt
      rw [List.filter_cons_of_pos htie, List.filter_cons_of_pos htie, ih hleft hright hl, hnone,
        List.nil_append, List.nil_append]
    · rw [List.filter_cons_of_neg htie, List.filter_cons_of_neg htie, ih hleft hright hl]
  | case4 x left y right s c s' hcall hneg rest s'' hrest ih =>
    obtain ⟨hx, hleft⟩ := List.cons_subset.mp hleft
    obtain ⟨-, hl⟩ := List.pairwise_cons.mp hl
    rw [hrest] at ih
    rw [List.filter_cons, List.filter_cons, ih hleft hright hl]
    split <;> rfl

theorem mergePairs_ordered (h : Orders compare le zs) (hruns : ∀ run ∈ runs, run ⊆ zs)
    (ho : ∀ run ∈ runs, run.Pairwise fun a b => le a b = true) :
    ∀ run ∈ (mergePairs compare runs s).1, run.Pairwise fun a b => le a b = true := by
  fun_induction mergePairs compare runs s with
  | case1 a b rest s run s' hrun merged s'' hmerged ih =>
    simp only [List.forall_mem_cons] at hruns ho
    have hfirst := h.merge_ordered (s := s) hruns.1 hruns.2.1 ho.1 ho.2.1
    rw [hrun] at hfirst
    rw [hmerged] at ih
    exact List.forall_mem_cons.mpr ⟨hfirst, ih hruns.2.2 ho.2.2⟩
  | case2 runs s _ => exact ho

theorem filter_mergePairs (h : Orders compare le zs) (hruns : ∀ run ∈ runs, run ⊆ zs)
    (ho : ∀ run ∈ runs, run.Pairwise fun a b => le a b = true) {a : α} (ha : a ∈ zs) :
    (mergePairs compare runs s).1.flatten.filter (Tied le a) =
      runs.flatten.filter (Tied le a) := by
  fun_induction mergePairs compare runs s with
  | case1 a b rest s run s' hrun merged s'' hmerged ih =>
    simp only [List.forall_mem_cons] at hruns ho
    have hfirst := h.filter_merge (s := s) hruns.1 hruns.2.1 ho.1 ha
    rw [hrun] at hfirst
    rw [hmerged] at ih
    simp only [List.flatten_cons, List.filter_append, hfirst, ih hruns.2.2 ho.2.2,
      List.append_assoc]
  | case2 runs s _ => rfl

/-- Ordered runs whose ties stand in the order of `zs` are merged into the stable sort of `zs`. -/
theorem mergeRounds_stable (h : Orders compare le zs) (hperm : runs.flatten.Perm zs)
    (ho : ∀ run ∈ runs, run.Pairwise fun a b => le a b = true)
    (hties : ∀ a ∈ zs, runs.flatten.filter (Tied le a) = zs.filter (Tied le a)) :
    StableSort le zs (mergeRounds compare runs s).1 := by
  have hruns : ∀ run ∈ runs, run ⊆ zs := fun run hrun a ha =>
    hperm.mem_iff.mp (List.mem_flatten.mpr ⟨run, hrun, ha⟩)
  fun_induction mergeRounds compare runs s with
  | case1 runs s _ round ih =>
    have hround := mergePairs_perm compare runs s
    refine ih (hround.trans hperm) (h.mergePairs_ordered hruns ho) ?_ ?_
    · intro a ha
      rw [← hties a ha]
      exact h.filter_mergePairs hruns ho ha
    · exact fun run hrun a ha =>
        hperm.mem_iff.mp (hround.mem_iff.mp (List.mem_flatten.mpr ⟨run, hrun, ha⟩))
  | case2 runs s hone =>
    refine ⟨hperm, ?_, hties⟩
    rcases runs with _ | ⟨run, _ | ⟨run', rest⟩⟩
    · exact List.Pairwise.nil
    · simpa using ho run List.mem_cons_self
    · simp at hone

theorem sort_stable (h : Orders compare le xs) : StableSort le xs (sort compare xs s).1 := by
  refine h.mergeRounds_stable (by rw [flatten_singletons]) (by simp) ?_
  rw [flatten_singletons]
  exact fun a _ => rfl

end Orders
end Order

section Lengths

/-- All runs but the last have `run` elements, and the last has no more. -/
def Evenly (run : Nat) : List (List α) → Prop
  | [] => True
  | [a] => 0 < a.length ∧ a.length ≤ run
  | a :: b :: rest => a.length = run ∧ Evenly run (b :: rest)

variable {runs rest : List (List α)} {run : Nat} {a b : List α} {s : σ}

theorem evenly_singletons (xs : List α) : Evenly 1 (xs.map ([·])) := by
  induction xs with
  | nil => trivial
  | cons x xs ih =>
    cases xs with
    | nil => simp [Evenly]
    | cons y xs => exact ⟨rfl, ih⟩

theorem Evenly.tail (h : Evenly run (a :: rest)) : Evenly run rest := by
  cases rest with
  | nil => trivial
  | cons b rest => exact h.2

theorem Evenly.length_le (h : Evenly run (a :: rest)) : a.length ≤ run := by
  cases rest with
  | nil => exact h.2
  | cons b rest => exact Nat.le_of_eq h.1

/-- A run that is too short is the last. -/
theorem Evenly.length_eq (h : Evenly run (a :: rest)) (hrest : rest ≠ []) : a.length = run := by
  cases rest with
  | nil => exact absurd rfl hrest
  | cons b rest => exact h.1

theorem Evenly.length_pos (h : Evenly run (a :: rest)) (hrun : 0 < run) : 0 < a.length := by
  cases rest with
  | nil => exact h.1
  | cons b rest => exact h.1 ▸ hrun

theorem Evenly.one_lt_length_iff (h : Evenly run runs) (hrun : 0 < run) :
    1 < runs.length ↔ run < runs.flatten.length := by
  rcases runs with _ | ⟨a, _ | ⟨b, rest⟩⟩
  · simp
  · have := h.2
    simp only [List.length_singleton, List.flatten_singleton]
    omega
  · have ha := h.1
    have hb := h.2.length_pos hrun
    simp only [List.length_cons, List.flatten_cons, List.length_append]
    omega

theorem Evenly.length_le_flatten (h : Evenly run runs) (hrun : 0 < run) :
    runs.length ≤ runs.flatten.length := by
  induction runs with
  | nil => simp
  | cons a rest ih =>
    have ha := h.length_pos hrun
    have hrest := ih h.tail
    rw [List.length_cons, List.flatten_cons, List.length_append]
    omega

theorem Evenly.mergePairs (h : Evenly run runs) (hrun : 0 < run) :
    Evenly (2 * run) (mergePairs compare runs s).1 := by
  fun_induction Sorting.mergePairs compare runs s with
  | case1 a b rest s merged s' hmerged pairs s'' hpairs ih =>
    have hlength := length_merge compare a b s
    have hcount := length_mergePairs compare rest s'
    rw [hmerged] at hlength
    rw [hpairs] at ih hcount
    dsimp only at hlength hcount
    have hb := h.tail.length_le
    have ha := h.length_eq (List.cons_ne_nil b rest)
    cases pairs with
    | nil =>
      have hpos := h.length_pos hrun
      exact ⟨by omega, by omega⟩
    | cons pair pairs =>
      have hrest : rest ≠ [] := by
        rintro rfl
        simp at hcount
      exact ⟨by rw [hlength, ha, h.tail.length_eq hrest]; omega, ih h.tail.tail⟩
  | case2 runs s hshort =>
    rcases runs with _ | ⟨a, _ | ⟨b, rest⟩⟩
    · trivial
    · exact ⟨h.1, by have := h.2; omega⟩
    · exact absurd rfl (hshort a b rest)

end Lengths
end GuestLibrary.Sorting
