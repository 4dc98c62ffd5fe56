import GuestLibrary.Algorithm.Sorting.Machine
import GuestLibrary.Proofs.Algorithm.Merging

/-! Sorting and searching in place. Elements of one width lie side by side in a block, so an element
is the range of bytes between two multiples of the width. Merging into the other block writes each
of its elements once, which makes a round there what it is on lists of runs. Main statements: a
block that an address space can hold twice is sorted and searched without a trap, as lists are. -/
namespace GuestLibrary

namespace Bytes

variable {block x y : Bytes} {i : Nat}

theorem length_overwrite (h : i + x.length ≤ block.length) :
    (block.overwrite i x).length = block.length := by
  simp only [overwrite, List.length_append, List.length_take, List.length_drop]
  omega

theorem overwrite_nil (block : Bytes) (i : Nat) : block.overwrite i [] = block := by
  simp [overwrite]

theorem overwrite_overwrite (h : i ≤ block.length) :
    (block.overwrite i x).overwrite (i + x.length) y = block.overwrite i (x ++ y) := by
  have hfront : (block.take i ++ x).length = i + x.length := by
    rw [List.length_append, List.length_take_of_le h]
  rw [overwrite, overwrite, List.take_left' hfront, ← List.drop_drop, List.drop_left' hfront,
    List.drop_drop, overwrite, List.length_append, Nat.add_assoc, List.append_assoc _ x]

theorem overwrite_all (h : x.length = block.length) : block.overwrite 0 x = x := by
  simp [overwrite, h]

end Bytes

namespace Sorting

variable {σ : Type} {width : Nat} {xs : List Bytes}

section Elements

theorem drop_flatten (h : ∀ x ∈ xs, x.length = width) (i : Nat) :
    xs.flatten.drop (i * width) = (xs.drop i).flatten := by
  induction i generalizing xs with
  | zero => simp
  | succ i ih =>
    cases xs with
    | nil => simp
    | cons x xs =>
      obtain ⟨hx, hxs⟩ := List.forall_mem_cons.mp h
      rw [List.drop_succ_cons, List.flatten_cons, Nat.succ_mul, Nat.add_comm, ← List.drop_drop,
        List.drop_left' hx, ih hxs]

theorem take_flatten (h : ∀ x ∈ xs, x.length = width) (i : Nat) :
    xs.flatten.take (i * width) = (xs.take i).flatten := by
  induction i generalizing xs with
  | zero => simp
  | succ i ih =>
    cases xs with
    | nil => simp
    | cons x xs =>
      obtain ⟨hx, hxs⟩ := List.forall_mem_cons.mp h
      rw [List.take_succ_cons, List.flatten_cons, List.flatten_cons, Nat.succ_mul, Nat.add_comm,
        ← hx, List.take_length_add_append, hx, ih hxs]

theorem length_flatten (h : ∀ x ∈ xs, x.length = width) :
    xs.flatten.length = xs.length * width := by
  rw [List.length_flatten, List.map_congr_left h, List.map_const', List.sum_replicate, smul_eq_mul]

theorem length_elements (width count : Nat) (block : Bytes) :
    (elements width count block).length = count := by
  induction count generalizing block with
  | zero => rfl
  | succ count ih => rw [elements, List.length_cons, ih]

theorem flatten_elements (width count : Nat) (block : Bytes) :
    (elements width count block).flatten = block.take (count * width) := by
  induction count generalizing block with
  | zero => simp [elements]
  | succ count ih =>
    rw [elements, List.flatten_cons, ih, Nat.succ_mul, Nat.add_comm, List.take_add]

theorem length_of_mem_elements {count : Nat} {block : Bytes} (h : count * width ≤ block.length) :
    ∀ x ∈ elements width count block, x.length = width := by
  induction count generalizing block with
  | zero => simp [elements]
  | succ count ih =>
    rw [Nat.succ_mul] at h
    refine List.forall_mem_cons.mpr ⟨List.length_take_of_le (by omega), ih ?_⟩
    rw [List.length_drop]
    omega

/-- The elements of a block that begins with elements are these. -/
theorem elements_flatten_append (h : ∀ x ∈ xs, x.length = width) (rest : Bytes) :
    elements width xs.length (xs.flatten ++ rest) = xs := by
  induction xs with
  | nil => rfl
  | cons x xs ih =>
    obtain ⟨hx, hxs⟩ := List.forall_mem_cons.mp h
    rw [List.length_cons, elements, List.flatten_cons, List.append_assoc, List.take_left' hx,
      List.drop_left' hx, ih hxs]

theorem getElem?_elements (width : Nat) {count i : Nat} (hi : i < count) (block : Bytes) :
    (elements width count block)[i]? = some ((block.drop (i * width)).take width) := by
  induction i generalizing count block with
  | zero =>
    cases count with
    | zero => omega
    | succ count => simp [elements]
  | succ i ih =>
    cases count with
    | zero => omega
    | succ count =>
      rw [elements, List.getElem?_cons_succ, ih (by omega), List.drop_drop, Nat.succ_mul,
        Nat.add_comm]

theorem getElem_elements {count i : Nat} {block : Bytes}
    (hi : i < (elements width count block).length) :
    (elements width count block)[i] = (block.drop (i * width)).take width := by
  have h := getElem?_elements width (length_elements width count block ▸ hi) block
  rwa [List.getElem?_eq_getElem hi, Option.some_inj] at h

end Elements

/-- Elements of `width` bytes each, for which an address space has room twice. -/
structure Aligned (width : Nat) (xs : List Bytes) : Prop where
  width_pos : 0 < width
  length : ∀ x ∈ xs, x.length = width
  addressable : 2 * (xs.length * width) < wordLimit

namespace Aligned

open Machine

variable {ys : List Bytes} {dst : Bytes} {i j : Nat}

theorem perm (h : Aligned width xs) (hperm : ys.Perm xs) : Aligned width ys where
  width_pos := h.width_pos
  length x hx := h.length x (hperm.mem_iff.mp hx)
  addressable := hperm.length_eq ▸ h.addressable

theorem count_lt (h : Aligned width xs) : 2 * xs.length < wordLimit := by
  have hle := Nat.le_mul_of_pos_right xs.length h.width_pos
  have := h.addressable
  omega

theorem offset_le (width : Nat) (hi : i ≤ xs.length) : i * width ≤ xs.length * width :=
  Nat.mul_le_mul_right width hi

theorem size_offset (h : Aligned width xs) (hi : i ≤ xs.length) :
    Trap.size (i * width) = .ok (i * width) := by
  have hle := offset_le width hi
  have := h.addressable
  exact Trap.size_eq (by omega)

/-- Indices are words, and so are sums of two of them. -/
theorem size_index (h : Aligned width xs) (hi : i ≤ 2 * xs.length) : Trap.size i = .ok i := by
  have := h.count_lt
  exact Trap.size_eq (by omega)

theorem slice_eq (h : Aligned width xs) (hij : i ≤ j) (hj : j ≤ xs.length) :
    slice xs.flatten (i * width) (j * width) = .ok (xs.extract i j).flatten := by
  have hbound : j * width ≤ xs.flatten.length := by
    rw [length_flatten h.length]
    exact offset_le width hj
  have hlength : ∀ x ∈ xs.drop i, x.length = width := fun x hx =>
    h.length x (List.mem_of_mem_drop hx)
  rw [slice, if_pos ⟨Nat.mul_le_mul_right width hij, hbound⟩]
  simp only [List.extract_eq_take_drop]
  rw [drop_flatten h.length, ← Nat.sub_mul, take_flatten hlength]

theorem bounds_eq (h : Aligned width xs) (hi : i < xs.length) :
    bounds width i = .ok (i * width, (i + 1) * width) := by
  simp only [bounds, h.size_offset (Nat.le_of_lt hi), h.size_index (i := i + 1) (by omega),
    h.size_offset (i := i + 1) hi, Trap.ok_bind, Trap.pure_eq_ok]

theorem element_eq (h : Aligned width xs) (hi : i < xs.length) :
    element width xs.flatten i = .ok xs[i] := by
  have hone : (xs.extract i (i + 1)).flatten = xs[i] := by
    rw [List.extract_eq_take_drop, Nat.add_sub_cancel_left, List.drop_eq_getElem_cons hi,
      List.take_succ_cons, List.take_zero, List.flatten_singleton]
  rw [element, h.bounds_eq hi, Trap.ok_bind]
  exact (h.slice_eq (Nat.le_succ i) hi).trans (congrArg _ hone)

theorem storeElement_eq (h : Aligned width xs) (hdst : dst.length = xs.flatten.length)
    (hi : i < xs.length) {x : Bytes} (hx : x.length = width) :
    storeElement width dst i x = .ok (dst.overwrite (i * width) x) := by
  have hbound := offset_le width hi
  rw [length_flatten h.length] at hdst
  have hroom : i * width ≤ (i + 1) * width ∧ (i + 1) * width ≤ dst.length ∧
      x.length = (i + 1) * width - i * width := by
    rw [Nat.succ_mul] at hbound ⊢
    omega
  rw [storeElement, h.bounds_eq hi, Trap.ok_bind]
  exact if_pos hroom

theorem copyRest_eq (h : Aligned width xs) (hdst : dst.length = xs.flatten.length) (hij : i ≤ j)
    (hj : j ≤ xs.length) {out : Nat} (hout : out + (j - i) ≤ xs.length) :
    copyRest width xs.flatten i j out dst =
      .ok (dst.overwrite (out * width) (xs.extract i j).flatten) := by
  have hlength : (xs.extract i j).flatten.length = (j - i) * width := by
    rw [length_flatten fun x hx => h.length x
      (List.mem_of_mem_drop (List.mem_of_mem_take (List.extract_eq_take_drop ▸ hx)))]
    rw [List.extract_eq_take_drop, List.length_take, List.length_drop,
      Nat.min_eq_left (by omega)]
  have hstop : out * width + (j - i) * width = (out + (j - i)) * width := by rw [Nat.add_mul]
  have hbound := offset_le width hout
  rw [length_flatten h.length] at hdst
  simp only [copyRest, h.size_offset (i := i) (by omega), h.size_offset hj, Trap.ok_bind,
    h.slice_eq hij hj, h.size_offset (i := out) (by omega), hlength, hstop, h.size_offset hout]
  rw [store, if_pos]
  omega

/-- What is written behind elements that have just been written joins them. -/
theorem overwrite_append (h : Aligned width xs) (hdst : dst.length = xs.flatten.length)
    {front : List Bytes} (hfront : ∀ x ∈ front, x.length = width) {out : Nat}
    (hout : out ≤ xs.length) (rest : List Bytes) :
    (dst.overwrite (out * width) front.flatten).overwrite ((out + front.length) * width)
        rest.flatten = dst.overwrite (out * width) (front ++ rest).flatten := by
  have hbound := offset_le width hout
  rw [length_flatten h.length] at hdst
  rw [Nat.add_mul, ← length_flatten hfront, Bytes.overwrite_overwrite (by omega),
    List.flatten_append]

end Aligned

section Merging

variable {compare : Comparator σ Bytes}

theorem extract_eq_cons {i j : Nat} (hij : i < j) (hj : j ≤ xs.length) :
    xs.extract i j = xs[i] :: xs.extract (i + 1) j := by
  rw [List.extract_eq_take_drop, List.extract_eq_take_drop, List.drop_eq_getElem_cons (by omega),
    show j - i = j - (i + 1) + 1 by omega, List.take_succ_cons]

theorem extract_eq_nil {i j : Nat} (hji : j ≤ i) : xs.extract i j = [] := by
  rw [List.extract_eq_take_drop, Nat.sub_eq_zero_of_le hji, List.take_zero]

theorem merge_nil_right (left : List Bytes) (s : σ) : merge compare left [] s = (left, s) := by
  cases left <;> simp [merge]

/-- What is left of two runs of elements is merged to where the elements before them end. -/
theorem Aligned.merge_eq (h : Aligned width xs) {mid stop : Nat} (hmid : mid ≤ xs.length)
    (hstop : stop ≤ xs.length) (steps left right out : Nat) (dst : Bytes) (s : σ)
    (hleft : left ≤ mid) (hright : right ≤ stop)
    (hout : out + (mid - left) + (stop - right) ≤ xs.length)
    (hdst : dst.length = xs.flatten.length) (hsteps : (mid - left) + (stop - right) < steps) :
    Machine.merge compare width xs.flatten mid stop steps left right out dst s =
      .ok (dst.overwrite (out * width)
          (merge compare (xs.extract left mid) (xs.extract right stop) s).1.flatten,
        (merge compare (xs.extract left mid) (xs.extract right stop) s).2) := by
  induction steps generalizing left right out dst s with
  | zero => omega
  | succ steps ih =>
    rw [Machine.merge]
    by_cases hboth : left < mid ∧ right < stop
    · obtain ⟨hl, hr⟩ := hboth
      have hx := h.length xs[left] (List.getElem_mem (by omega))
      have hy := h.length xs[right] (List.getElem_mem (by omega))
      -- One element is written; the rest of both runs goes behind it.
      have hwritten : ∀ x : Bytes, x.length = width →
          (dst.overwrite (out * width) x).length = xs.flatten.length := by
        intro x hx
        have hbound : (out + 1) * width ≤ xs.length * width := offset_le width (by omega)
        rw [Nat.succ_mul, ← length_flatten h.length] at hbound
        rw [Bytes.length_overwrite (by omega), hdst]
      have hbehind : ∀ (x : Bytes) (rest : List Bytes), x.length = width →
          (dst.overwrite (out * width) x).overwrite ((out + 1) * width) rest.flatten =
            dst.overwrite (out * width) (x :: rest).flatten := by
        intro x rest hx
        have hout' : out ≤ xs.length := by omega
        simpa using h.overwrite_append hdst (List.forall_mem_singleton.mpr hx) hout' rest
      rw [if_pos ⟨hl, hr⟩, h.element_eq (by omega), h.element_eq (by omega),
        extract_eq_cons hl hmid, extract_eq_cons hr hstop, merge]
      simp only [Trap.ok_bind]
      rcases hcall : compare xs[right] xs[left] s with ⟨c, s'⟩
      simp only
      by_cases hneg : c < 0
      · rw [if_pos hneg, if_pos hneg, h.size_index (by omega),
          h.storeElement_eq hdst (by omega) hy, h.size_index (by omega)]
        simp only [Trap.ok_bind]
        rw [ih left (right + 1) (out + 1) _ s' hleft hr (by omega) (hwritten _ hy) (by omega),
          hbehind _ _ hy, extract_eq_cons hl hmid]
      · rw [if_neg hneg, if_neg hneg, h.size_index (by omega),
          h.storeElement_eq hdst (by omega) hx, h.size_index (by omega)]
        simp only [Trap.ok_bind]
        rw [ih (left + 1) right (out + 1) _ s' hl hright (by omega) (hwritten _ hx) (by omega),
          hbehind _ _ hx, extract_eq_cons hr hstop]
    · rw [if_neg hboth]
      by_cases hl : left < mid
      · rw [if_pos hl, h.copyRest_eq hdst hleft hmid (by omega),
          extract_eq_nil (j := stop) (by omega), merge_nil_right]
        rfl
      · rw [if_neg hl, h.copyRest_eq hdst hright hstop (by omega),
          extract_eq_nil (j := mid) (by omega)]
        simp [merge]

theorem extract_append (front a rest : List Bytes) :
    (front ++ (a ++ rest)).extract front.length (front.length + a.length) = a := by
  rw [List.extract_eq_take_drop, Nat.add_sub_cancel_left, List.drop_left, List.take_left]

theorem Aligned.count_eq (h : Aligned width xs) : xs.flatten.length / width = xs.length := by
  rw [length_flatten h.length, Nat.mul_div_cancel _ h.width_pos]

/-- Two neighbouring runs behind `front` are merged to where they are in the other block. -/
theorem Aligned.merge_runs (compare : Comparator σ Bytes) (h : Aligned width xs)
    {front a b rest : List Bytes} (hxs : xs = front ++ (a ++ (b ++ rest))) {dst : Bytes}
    (hdst : dst.length = xs.flatten.length) (s : σ) :
    Machine.merge compare width xs.flatten (front.length + a.length)
        (front.length + a.length + b.length)
        (front.length + a.length + b.length - front.length + 1) front.length
        (front.length + a.length) front.length dst s =
      .ok (dst.overwrite (front.length * width) (merge compare a b s).1.flatten,
        (merge compare a b s).2) := by
  have hlength : xs.length = front.length + (a.length + (b.length + rest.length)) := by
    simp only [hxs, List.length_append]
  have ha : xs.extract front.length (front.length + a.length) = a := by
    rw [hxs, extract_append]
  have hb : xs.extract (front.length + a.length) (front.length + a.length + b.length) = b := by
    rw [hxs, ← List.append_assoc, ← List.length_append, extract_append]
  rw [h.merge_eq (by omega) (by omega) _ _ _ _ _ _ (by omega) (by omega) (by omega) hdst (by omega),
    ha, hb]

/-- A step of a round merges the next two runs, and goes on behind them. -/
theorem Aligned.mergePairs_succ (compare : Comparator σ Bytes) (h : Aligned width xs) {run : Nat}
    {front a b rest : List Bytes} (hxs : xs = front ++ (a ++ (b ++ rest)))
    (hless : front.length < xs.length) (hwords : front.length + 2 * run ≤ 2 * xs.length)
    (hmid : min (front.length + run) xs.length = front.length + a.length)
    (hstop : min (front.length + 2 * run) xs.length = front.length + a.length + b.length)
    (steps : Nat) {dst : Bytes} (hdst : dst.length = xs.flatten.length) (s : σ) :
    Machine.mergePairs compare width xs.flatten run (steps + 1) front.length dst s =
      Machine.mergePairs compare width xs.flatten run steps
        (front.length + a.length + b.length)
        (dst.overwrite (front.length * width) (merge compare a b s).1.flatten)
        (merge compare a b s).2 := by
  rw [Machine.mergePairs]
  simp only [h.count_eq]
  rw [if_pos hless, h.size_index (by omega), h.size_index (by omega)]
  simp only [Trap.ok_bind]
  rw [h.size_index hwords]
  simp only [Trap.ok_bind, hmid, hstop]
  rw [h.merge_runs compare hxs hdst, Trap.ok_bind]

/-- The elements of a round follow each other from its first one on. The lengths of two runs are a
word behind any of them: a pair that is not the first has a whole pair in front of it. -/
theorem Aligned.mergePairs_eq (compare : Comparator σ Bytes) (h : Aligned width xs) {run : Nat}
    (hrun : 0 < run) (hless : run < xs.length) {front : List Bytes} {runs : List (List Bytes)}
    (hxs : xs = front ++ runs.flatten) (heven : Evenly run runs)
    (hfront : runs ≠ [] → front.length = 0 ∨ 2 * run ≤ front.length) (steps : Nat) (dst : Bytes)
    (s : σ) (hsteps : runs.length < steps) (hdst : dst.length = xs.flatten.length) :
    Machine.mergePairs compare width xs.flatten run steps front.length dst s =
      .ok (dst.overwrite (front.length * width) (mergePairs compare runs s).1.flatten.flatten,
        (mergePairs compare runs s).2) := by
  fun_induction mergePairs compare runs s generalizing front steps dst with
  | case1 a b rest s merged s' hmerged pairs s'' hpairs ih =>
    obtain ⟨steps, rfl⟩ := Nat.exists_eq_succ_of_ne_zero (Nat.ne_zero_of_lt hsteps)
    have hpair := hfront (List.cons_ne_nil a (b :: rest))
    have ha := heven.length_eq (List.cons_ne_nil b rest)
    have hb := heven.tail.length_le
    have hpos := heven.length_pos hrun
    rw [List.flatten_cons, List.flatten_cons] at hxs
    have hlength : xs.length =
        front.length + (a.length + (b.length + rest.flatten.length)) := by
      simp only [hxs, List.length_append]
    have hstop : min (front.length + 2 * run) xs.length =
        front.length + a.length + b.length := by
      by_cases hrest : rest = []
      · rw [hrest, List.flatten_nil, List.length_nil] at hlength
        omega
      · have := heven.tail.length_eq hrest
        omega
    have hperm := merge_perm compare a b s
    rw [h.mergePairs_succ compare hxs (by omega) (by omega) (by omega) hstop steps hdst, hmerged]
    rw [hmerged] at hperm
    -- The next pair begins behind this one.
    have hnext : (front ++ (a ++ b)).length = front.length + a.length + b.length := by
      simp only [List.length_append, Nat.add_assoc]
    have hmem : ∀ x ∈ merged, x.length = width := by
      intro x hx
      refine h.length x ?_
      rw [hxs, ← List.append_assoc a b]
      exact List.mem_append_right _ (List.mem_append_left _ (hperm.mem_iff.mp hx))
    have hwritten : (dst.overwrite (front.length * width) merged.flatten).length =
        xs.flatten.length := by
      have hbound : (front.length + merged.length) * width ≤ xs.length * width :=
        offset_le width (by rw [hperm.length_eq, List.length_append]; omega)
      rw [Nat.add_mul, ← length_flatten hmem, ← length_flatten h.length] at hbound
      rw [Bytes.length_overwrite (by omega), hdst]
    have hstart : front.length ≤ xs.length := by omega
    have hbehind := h.overwrite_append hdst hmem hstart pairs.flatten
    rw [hperm.length_eq, List.length_append, ← Nat.add_assoc] at hbehind
    rw [← hnext, ih (by simpa using hxs) heven.tail.tail ?_ steps _ ?_ hwritten, hpairs, hnext,
      hbehind, List.flatten_cons]
    · intro hrest
      have := heven.tail.length_eq hrest
      omega
    · simp only [List.length_cons] at hsteps
      omega
  | case2 runs s hshort =>
    obtain ⟨steps, rfl⟩ := Nat.exists_eq_succ_of_ne_zero (Nat.ne_zero_of_lt hsteps)
    rcases runs with _ | ⟨a, _ | ⟨b, rest⟩⟩
    · have hend : ¬ front.length < xs.length := by simp [hxs]
      rw [Machine.mergePairs]
      simp only [h.count_eq, if_neg hend, Trap.pure_eq_ok]
      rw [List.flatten_nil, List.flatten_nil, Bytes.overwrite_nil]
    · -- A run without a neighbour is merged with none.
      obtain ⟨steps, rfl⟩ := Nat.exists_eq_succ_of_ne_zero (n := steps) (by
        rintro rfl
        simp at hsteps)
      have hpair := hfront (List.cons_ne_nil a [])
      have hpos := heven.length_pos hrun
      have ha := heven.length_le
      have hxs' : xs = front ++ (a ++ ([] ++ [])) := by simpa using hxs
      have hlength : xs.length = front.length + a.length := by simp [hxs]
      have hmid : min (front.length + run) xs.length = front.length + a.length := by omega
      have hstop : min (front.length + 2 * run) xs.length =
          front.length + a.length + ([] : List Bytes).length := by
        rw [List.length_nil]
        omega
      have hstep := h.mergePairs_succ compare hxs' (by omega) (by omega) hmid hstop (steps + 1)
        hdst s
      rw [merge_nil_right, List.length_nil, Nat.add_zero (front.length + a.length)] at hstep
      rw [hstep, Machine.mergePairs]
      simp only [h.count_eq, if_neg (Nat.not_lt.mpr (Nat.le_of_eq hlength)), Trap.pure_eq_ok]
      rw [List.flatten_singleton]
    · exact absurd rfl (hshort a b rest)

/-- A round writes the other block from its first byte to its last. -/
theorem Aligned.round_eq (compare : Comparator σ Bytes) {runs : List (List Bytes)}
    (h : Aligned width runs.flatten) {run : Nat} (hrun : 0 < run) (heven : Evenly run runs)
    (hless : run < runs.flatten.length) {dst : Bytes}
    (hdst : dst.length = runs.flatten.flatten.length) (s : σ) :
    Machine.mergePairs compare width runs.flatten.flatten run (runs.flatten.length + 1) 0 dst s =
      .ok ((mergePairs compare runs s).1.flatten.flatten, (mergePairs compare runs s).2) := by
  have hperm := mergePairs_perm compare runs s
  have hwhole : (mergePairs compare runs s).1.flatten.flatten.length = dst.length := by
    rw [hdst, length_flatten h.length, length_flatten (h.perm hperm).length, hperm.length_eq]
  have hpass := h.mergePairs_eq compare hrun hless (List.nil_append _).symm heven
    (fun _ => Or.inl rfl) (runs.flatten.length + 1) dst s
    (Nat.lt_succ_of_le (heven.length_le_flatten hrun)) hdst
  rwa [List.length_nil, Nat.zero_mul, Bytes.overwrite_all hwhole] at hpass

/-- The first `len` bytes of `base`, or else the scratch copy, as a round finds or leaves them. -/
def held (inBase : Bool) (len : Nat) (base scratch : Bytes) : Bytes :=
  if inBase then base.take len else scratch

theorem slice_front {base : Bytes} {len : Nat} (h : len ≤ base.length) :
    Machine.slice base 0 len = .ok (base.take len) := by
  rw [Machine.slice, if_pos ⟨Nat.zero_le _, h⟩, List.extract_eq_take_drop, List.drop_zero,
    Nat.sub_zero]

theorem store_front {base source : Bytes} {len : Nat} (h : len ≤ base.length)
    (hsource : source.length = len) :
    Machine.store base 0 len source = .ok (source ++ base.drop len) := by
  rw [Machine.store, if_pos ⟨Nat.zero_le _, h, hsource⟩]
  simp [Bytes.overwrite, hsource]

/-- Rounds end where one run is left, wherever the last one has put it. -/
theorem mergeRounds_eq (compare : Comparator σ Bytes) (steps : Nat) {runs : List (List Bytes)}
    (hruns : runs.flatten = xs) {run len : Nat} (h : Aligned width xs) (hrun : 0 < run)
    (heven : Evenly run runs) (hlen : xs.length * width = len) (hsteps : 0 < steps)
    (henough : xs.length < run + steps) (inBase : Bool) {base scratch : Bytes}
    (hbase : len ≤ base.length) (hscratch : scratch.length = len)
    (hheld : held inBase len base scratch = xs.flatten) (s : σ) :
    ∃ inBase' base' scratch', Machine.mergeRounds compare width xs.length len steps run
        inBase base scratch s =
      .ok (inBase', base', scratch', (mergeRounds compare runs s).2) ∧
      base'.length = base.length ∧ base'.drop len = base.drop len ∧ scratch'.length = len ∧
      held inBase' len base' scratch' = (mergeRounds compare runs s).1.flatten := by
  induction steps generalizing xs runs run inBase base scratch s with
  | zero => omega
  | succ steps ih =>
    subst hruns
    rw [Machine.mergeRounds, mergeRounds]
    by_cases hmore : run < runs.flatten.length
    · have hperm := mergePairs_perm compare runs s
      have hlength := hperm.length_eq
      have hflat := (length_flatten h.length).trans hlen
      have hflat' := (length_flatten (h.perm hperm).length).trans (hlength ▸ hlen)
      have hnext := ih rfl (h.perm hperm) (Nat.mul_pos hrun (by decide : 0 < 2))
        (Nat.mul_comm 2 run ▸ heven.mergePairs hrun) (hlength ▸ hlen) (by omega)
        (by rw [hlength]; omega)
      rw [hlength] at hnext
      rw [if_pos hmore, if_pos ((heven.one_lt_length_iff hrun).mpr hmore),
        slice_front hbase]
      simp only [Trap.ok_bind]
      cases inBase with
      | true =>
        replace hheld : base.take len = runs.flatten.flatten := hheld
        rw [if_pos rfl, hheld, h.round_eq compare hrun heven hmore (hscratch.trans hflat.symm)]
        simp only [Trap.ok_bind]
        rw [h.size_index (by omega)]
        exact hnext false hbase hflat' rfl _
      | false =>
        obtain rfl : scratch = runs.flatten.flatten := hheld
        have hdst := (List.length_take_of_le hbase).trans hflat.symm
        rw [if_neg Bool.false_ne_true, h.round_eq compare hrun heven hmore hdst]
        simp only [Trap.ok_bind]
        rw [store_front hbase hflat', Trap.ok_bind, h.size_index (by omega), Trap.ok_bind]
        have hstored : len ≤
            ((mergePairs compare runs s).1.flatten.flatten ++ base.drop len).length := by
          rw [List.length_append, hflat']
          omega
        obtain ⟨inBase', base', scratch', hdone, hsize, hrest, hscratch', hheld'⟩ := hnext true
          hstored hscratch (List.take_left' hflat') (mergePairs compare runs s).2
        refine ⟨inBase', base', scratch', hdone, hsize.trans ?_,
          hrest.trans (List.drop_left' hflat'), hscratch', hheld'⟩
        rw [List.length_append, hflat', List.length_drop]
        omega
    · rw [if_neg hmore, if_neg (mt (heven.one_lt_length_iff hrun).mp hmore)]
      exact ⟨inBase, base, scratch, rfl, rfl, rfl, hscratch, hheld⟩

theorem sort_of_length_lt_two {xs : List Bytes} (h : xs.length < 2) (s : σ) :
    sort compare xs s = (xs, s) := by
  rw [sort, mergeRounds, if_neg (by rw [List.length_map]; omega), flatten_singletons]

theorem aligned_elements {block : Bytes} (hwidth : 0 < width)
    (h : 2 * block.length < wordLimit) :
    Aligned width (elements width (block.length / width) block) where
  width_pos := hwidth
  length := length_of_mem_elements (Nat.div_mul_le_self _ _)
  addressable := by
    have := Nat.div_mul_le_self block.length width
    rw [length_elements]
    omega

/-- In place, a block is sorted without a trap as its elements are. -/
theorem machine_sortBlock_eq (compare : Comparator σ Bytes) {block : Bytes}
    (h : 2 * block.length < wordLimit) (width : Nat) (s : σ) :
    Machine.sortBlock compare block width s = .ok (sortBlock compare block width s) := by
  rw [Machine.sortBlock, sortBlock]
  by_cases hwidth : width = 0
  · rw [if_pos hwidth, if_pos hwidth]
    rfl
  · have hal := aligned_elements (Nat.pos_of_ne_zero hwidth) h
    have hbound := Nat.div_mul_le_self block.length width
    have hcount := length_elements width (block.length / width) block
    have hflat := flatten_elements width (block.length / width) block
    rw [if_neg hwidth, if_neg hwidth]
    simp only
    by_cases hfew : block.length / width < 2
    · rw [if_pos hfew, sort_of_length_lt_two (by omega)]
      simp only [hflat, List.take_append_drop, Trap.pure_eq_ok]
    · have hsize := hal.size_offset (Nat.le_of_eq hcount.symm)
      have hsorted := length_flatten (hal.perm (sort_perm compare _ s)).length
      rw [(sort_perm compare _ s).length_eq, hcount] at hsorted
      obtain ⟨inBase, base, scratch, hdone, hlength, hrest, hscratch, hheld⟩ :=
        mergeRounds_eq compare (block.length / width) (flatten_singletons _) hal Nat.one_pos
          (evenly_singletons _) (congrArg (· * width) hcount) (by omega) (by omega) true hbound
          List.length_replicate hflat.symm s
      rw [hcount] at hdone
      rw [if_neg hfew, hsize, Trap.ok_bind, hdone, Trap.ok_bind]
      cases inBase with
      | true =>
        replace hheld : base.take (block.length / width * width) = _ := hheld
        rw [if_pos rfl, sort, ← hheld, ← hrest, List.take_append_drop]
        rfl
      | false =>
        replace hheld : scratch = _ := hheld
        rw [if_neg Bool.false_ne_true, store_front (hlength ▸ hbound) hscratch, hheld, hrest, sort]
        rfl

end Merging
end Sorting
end GuestLibrary
