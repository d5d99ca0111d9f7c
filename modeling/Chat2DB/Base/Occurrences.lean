import Mathlib

/-! # Numbered occurrences

A list whose elements are numbered apart, each by how many of its kind stand up
to it. The numbered elements are distinct, and they are known from how often each
element occurs.
-/

namespace Occurrences

variable {α : Type*} [DecidableEq α]

/-- Each element with its number, after `counts` of each kind before the list. -/
def numbering (counts : α → Nat) : List α → List (α × Nat)
  | [] => []
  | x :: rest =>
    (x, counts x + 1) :: numbering (Function.update counts x (counts x + 1)) rest

theorem map_fst_numbering (counts : α → Nat) (list : List α) :
    (numbering counts list).map Prod.fst = list := by
  induction list generalizing counts with
  | nil => rfl
  | cons x rest ih => rw [numbering, List.map_cons, ih]

theorem mem_numbering [BEq α] [LawfulBEq α] {counts : α → Nat} {list : List α} {x : α}
    {number : Nat} :
    (x, number) ∈ numbering counts list ↔
      counts x < number ∧ number ≤ counts x + list.count x := by
  induction list generalizing counts with
  | nil =>
    simp only [numbering, List.not_mem_nil, List.count_nil, false_iff]
    omega
  | cons y rest ih =>
    rw [numbering, List.mem_cons, ih, List.count_cons]
    by_cases hxy : x = y
    · rw [hxy, Function.update_self, Prod.mk.injEq, beq_self_eq_true, if_pos rfl]
      constructor
      · rintro (⟨-, hnumber⟩ | hrest) <;> omega
      · intro h
        by_cases hfirst : number = counts y + 1
        · exact Or.inl ⟨rfl, hfirst⟩
        · right
          omega
    · have hne : (y == x) = false := by simpa using Ne.symm hxy
      rw [Function.update_of_ne hxy, Prod.mk.injEq, hne, if_neg Bool.false_ne_true]
      simp [hxy]

theorem nodup_numbering (counts : α → Nat) (list : List α) : (numbering counts list).Nodup := by
  induction list generalizing counts with
  | nil => exact List.nodup_nil
  | cons x rest ih =>
    refine List.nodup_cons.2 ⟨?_, ih _⟩
    rw [mem_numbering, Function.update_self]
    omega

end Occurrences
