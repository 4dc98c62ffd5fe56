import GuestLibrary.Heap.Basic
import Mathlib

/-! The live grants as an ordered list. Its addresses increase strictly, so it is a map: every
address occurs once, and what is listed is all that there is to know about it. -/
namespace GuestLibrary
namespace LiveGrants

/-- The addresses increase from one grant to the next. -/
def Ordered (live : LiveGrants) : Prop := live.Pairwise (·.1 < ·.1)

variable {live : LiveGrants} {address block : Nat}

theorem mem_insert (h : Ordered live) {x : Nat × Nat} :
    x ∈ insert address block live ↔ x = (address, block) ∨ x ∈ live ∧ x.1 ≠ address := by
  induction live with
  | nil => simp [insert]
  | cons y rest ih =>
    obtain ⟨a, b⟩ := y
    obtain ⟨hfirst, hrest⟩ := List.pairwise_cons.mp h
    have hx : x ∈ rest → a < x.1 := hfirst x
    simp only [insert]
    split
    · rename_i hlt
      simp only [List.mem_cons]
      constructor
      · rintro (rfl | rfl | hm)
        · exact Or.inl rfl
        · exact Or.inr ⟨Or.inl rfl, by dsimp only; omega⟩
        · exact Or.inr ⟨Or.inr hm, by have := hx hm; omega⟩
      · rintro (rfl | ⟨hm, -⟩)
        · exact Or.inl rfl
        · exact Or.inr hm
    split
    · rename_i he
      subst he
      simp only [List.mem_cons]
      constructor
      · rintro (rfl | hm)
        · exact Or.inl rfl
        · exact Or.inr ⟨Or.inr hm, by have := hx hm; omega⟩
      · rintro (rfl | ⟨rfl | hm, hne⟩)
        · exact Or.inl rfl
        · exact absurd rfl hne
        · exact Or.inr hm
    · rename_i hne
      rw [List.mem_cons, ih hrest, List.mem_cons]
      constructor
      · rintro (rfl | rfl | ⟨hm, hd⟩)
        · exact Or.inr ⟨Or.inl rfl, Ne.symm hne⟩
        · exact Or.inl rfl
        · exact Or.inr ⟨Or.inr hm, hd⟩
      · rintro (rfl | ⟨rfl | hm, hd⟩)
        · exact Or.inr (Or.inl rfl)
        · exact Or.inl rfl
        · exact Or.inr (Or.inr ⟨hm, hd⟩)

theorem Ordered.insert (h : Ordered live) : Ordered (insert address block live) := by
  induction live with
  | nil => exact List.pairwise_singleton _ _
  | cons y rest ih =>
    obtain ⟨a, b⟩ := y
    obtain ⟨hfirst, hrest⟩ := List.pairwise_cons.mp h
    simp only [LiveGrants.insert]
    split
    · rename_i hlt
      refine List.pairwise_cons.mpr ⟨fun x hx => ?_, h⟩
      rcases List.mem_cons.mp hx with rfl | hx
      · exact hlt
      · exact Nat.lt_trans hlt (hfirst x hx)
    split
    · rename_i he
      subst he
      exact List.pairwise_cons.mpr ⟨hfirst, hrest⟩
    · refine List.pairwise_cons.mpr ⟨fun x hx => ?_, ih hrest⟩
      rcases (mem_insert hrest).mp hx with rfl | ⟨hx, -⟩
      · dsimp only
        omega
      · exact hfirst x hx

theorem mem_erase {x : Nat × Nat} : x ∈ erase live address ↔ x ∈ live ∧ x.1 ≠ address := by
  simp [erase]

theorem Ordered.erase (h : Ordered live) : Ordered (erase live address) :=
  List.Pairwise.filter _ h

/-- Looking an address up finds exactly the grant that is listed. -/
theorem lookup_eq_some_iff (h : Ordered live) :
    List.lookup address live = some block ↔ (address, block) ∈ live := by
  induction live with
  | nil => simp
  | cons y rest ih =>
    obtain ⟨a, b⟩ := y
    obtain ⟨hfirst, hrest⟩ := List.pairwise_cons.mp h
    rw [List.lookup_cons, List.mem_cons]
    by_cases he : address = a
    · subst he
      have hn : (address, block) ∉ rest := fun hm => absurd (hfirst _ hm) (Nat.lt_irrefl _)
      simp [hn, eq_comm]
    · have hb : (address == a) = false := by simpa using he
      simp [hb, he, ih hrest]

end LiveGrants
end GuestLibrary
