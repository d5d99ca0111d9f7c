import Mathlib

/-! # Consecutive numbers

Lists numbered without gaps from a first number on, as logs and journals are.
-/

/-- The numbers are `first`, `first + 1`, and so on, in this order. -/
def Consecutive (first : Nat) (numbers : List Nat) : Prop :=
  numbers = List.range' first numbers.length

namespace Consecutive

variable {first : Nat} {numbers : List Nat}

theorem nil : Consecutive first [] := rfl

theorem append_singleton (hnumbers : Consecutive first numbers) {next : Nat}
    (hnext : next = first + numbers.length) : Consecutive first (numbers ++ [next]) := by
  unfold Consecutive at *
  rw [List.length_append, List.length_singleton, List.range'_concat, ← hnumbers, hnext, Nat.one_mul]

theorem cons_iff {number : Nat} :
    Consecutive first (number :: numbers) ↔ number = first ∧ Consecutive (first + 1) numbers := by
  unfold Consecutive
  rw [List.length_cons, List.range'_succ, List.cons.injEq]

theorem drop (hnumbers : Consecutive first numbers) (count : Nat) :
    Consecutive (first + count) (numbers.drop count) := by
  unfold Consecutive at *
  rw [List.length_drop]
  conv_lhs => rw [hnumbers]
  rw [List.drop_range', Nat.mul_one]

theorem of_prefix {front : List Nat} (hnumbers : Consecutive first numbers)
    (hfront : front <+: numbers) : Consecutive first front := by
  induction front generalizing first numbers with
  | nil => exact nil
  | cons number front ih =>
    obtain ⟨rest, rfl⟩ := hfront
    rw [List.cons_append, cons_iff] at hnumbers
    rw [cons_iff]
    exact ⟨hnumbers.1, ih hnumbers.2 (List.prefix_append front rest)⟩

theorem eq_of_getElem? (hnumbers : Consecutive first numbers) (index number : Nat)
    (hget : numbers[index]? = some number) : number = first + index := by
  have hindex := (List.getElem?_eq_some_iff.mp hget).1
  rw [hnumbers, List.getElem?_range' hindex] at hget
  simpa using hget.symm

/-- In numbered items, those after a number are what dropping leaves. -/
theorem filter_gt {α : Type*} {number : α → Nat} {items : List α}
    (hitems : Consecutive first (items.map number)) (bound : Nat) :
    items.filter (fun item => bound < number item) = items.drop (bound + 1 - first) := by
  induction items generalizing first with
  | nil => simp
  | cons item items ih =>
    rw [List.map_cons, cons_iff] at hitems
    have hrest := ih hitems.2
    by_cases hbound : bound < first
    · have hnone : bound + 1 - first = 0 := by omega
      have hnext : bound + 1 - (first + 1) = 0 := by omega
      rw [hnext, List.drop_zero] at hrest
      rw [hnone, List.drop_zero, List.filter_cons, if_pos (by simpa [hitems.1] using hbound), hrest]
    · have hsucc : bound + 1 - first = bound + 1 - (first + 1) + 1 := by omega
      rw [hsucc, List.drop_succ_cons, List.filter_cons,
        if_neg (by simpa [hitems.1] using hbound), hrest]

/-- The greatest number of a list that starts at zero. -/
theorem max?_eq (hnumbers : Consecutive 0 numbers) :
    numbers.max? = if numbers.length = 0 then none else some (numbers.length - 1) := by
  split
  · rename_i hlength
    rw [List.length_eq_zero_iff.mp hlength]
    rfl
  · rename_i hlength
    rw [List.max?_eq_some_iff]
    constructor
    · rw [hnumbers, List.mem_range'_1, List.length_range']
      omega
    · intro number hmem
      rw [hnumbers, List.mem_range'_1] at hmem
      omega

end Consecutive
