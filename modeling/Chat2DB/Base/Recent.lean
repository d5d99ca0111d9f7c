import Mathlib

/-! # Memories of the last keys

A memory has room for a number of keys. A key gets a number when it enters. When there is
no room left, the keys with the lowest numbers are forgotten; a key that is answered makes
room as well.
-/

universe u

structure Recent (κ : Type u) where
  count : Nat
  remembered : List (Nat × κ)
  forgotten : List Nat

namespace Recent

variable {κ : Type u}

def empty : Recent κ := { count := 0, remembered := [], forgotten := [] }

def keys (memory : Recent κ) : List κ := memory.remembered.map Prod.snd

variable [DecidableEq κ]

def enter (capacity : Nat) (memory : Recent κ) (key : κ) : Recent κ :=
  if key ∈ memory.keys then memory
  else
    let entered := memory.remembered ++ [(memory.count, key)]
    let excess := entered.length - capacity
    { count := memory.count + 1
      remembered := entered.drop excess
      forgotten := memory.forgotten ++ (entered.take excess).map Prod.fst }

def answer (memory : Recent κ) (key : κ) : Recent κ :=
  { memory with remembered := memory.remembered.filter (·.2 ≠ key) }

omit [DecidableEq κ] in
/-- The keys are distinct and fit, and what was forgotten is older than all of them. -/
structure Sound (capacity : Nat) (memory : Recent κ) : Prop where
  nodup : memory.keys.Nodup
  length_le : memory.keys.length ≤ capacity
  remembered_lt : ∀ entry ∈ memory.remembered, entry.1 < memory.count
  forgotten_lt : ∀ number ∈ memory.forgotten, number < memory.count
  ascending : memory.remembered.Pairwise fun first second => first.1 < second.1
  older : ∀ number ∈ memory.forgotten, ∀ entry ∈ memory.remembered, number < entry.1

variable {capacity : Nat} {memory : Recent κ}

omit [DecidableEq κ] in
theorem Sound.empty : Sound capacity (empty : Recent κ) where
  nodup := List.nodup_nil
  length_le := Nat.zero_le _
  remembered_lt := by simp [Recent.empty]
  forgotten_lt := by simp [Recent.empty]
  ascending := .nil
  older := by simp [Recent.empty]

theorem keys_answer (key : κ) : (memory.answer key).keys = memory.keys.filter (· ≠ key) := by
  rw [keys, answer, keys, List.filter_map]
  rfl

theorem Sound.answer (h : Sound capacity memory) (key : κ) : Sound capacity (memory.answer key) where
  nodup := by
    rw [keys_answer]
    exact h.nodup.filter _
  length_le := by
    rw [keys_answer]
    exact (List.length_filter_le _ _).trans h.length_le
  remembered_lt := fun entry hentry => h.remembered_lt entry (List.mem_of_mem_filter hentry)
  forgotten_lt := h.forgotten_lt
  ascending := h.ascending.filter _
  older := fun number hnumber entry hentry =>
    h.older number hnumber entry (List.mem_of_mem_filter hentry)

theorem keys_enter_of_mem {key : κ} (hkey : key ∈ memory.keys) :
    (memory.enter capacity key).keys = memory.keys := by
  rw [enter, if_pos hkey]

theorem keys_enter_of_not_mem {key : κ} (hkey : key ∉ memory.keys) :
    (memory.enter capacity key).keys =
      (memory.keys ++ [key]).drop ((memory.keys ++ [key]).length - capacity) := by
  have hlength : (memory.keys ++ [key]).length = (memory.remembered ++ [(memory.count, key)]).length := by
    simp [keys]
  rw [enter, if_neg hkey, keys, List.map_drop, List.map_append, hlength]
  rfl

theorem Sound.enter (h : Sound capacity memory) (key : κ) :
    Sound capacity (memory.enter capacity key) := by
  by_cases hkey : key ∈ memory.keys
  · rw [Recent.enter, if_pos hkey]
    exact h
  have hnodup : (memory.keys ++ [key]).Nodup := by
    rw [← List.concat_eq_append, List.nodup_concat]
    exact ⟨hkey, h.nodup⟩
  have hlt : ∀ entry ∈ memory.remembered ++ [(memory.count, key)], entry.1 < memory.count + 1 := by
    intro entry hentry
    rcases List.mem_append.1 hentry with hentry | hentry
    · exact Nat.lt_succ_of_lt (h.remembered_lt entry hentry)
    · rw [List.mem_singleton.1 hentry]
      exact Nat.lt_succ_self _
  have hascending : (memory.remembered ++ [(memory.count, key)]).Pairwise
      fun first second => first.1 < second.1 := by
    refine List.pairwise_append.2 ⟨h.ascending, List.pairwise_singleton _ _, ?_⟩
    intro entry hentry last hlast
    rw [List.mem_singleton.1 hlast]
    exact h.remembered_lt entry hentry
  have hkeys := @keys_enter_of_not_mem κ _ capacity memory key hkey
  -- what is dropped is older than what stays
  have hsplit := hascending
  rw [← List.take_append_drop
    ((memory.remembered ++ [(memory.count, key)]).length - capacity)
    (memory.remembered ++ [(memory.count, key)]), List.pairwise_append] at hsplit
  constructor
  · rw [hkeys]
    exact hnodup.sublist (List.drop_sublist _ _)
  · rw [hkeys, List.length_drop]
    omega
  · rw [Recent.enter, if_neg hkey]
    exact fun entry hentry => hlt entry (List.mem_of_mem_drop hentry)
  · rw [Recent.enter, if_neg hkey]
    intro number hnumber
    rcases List.mem_append.1 hnumber with hnumber | hnumber
    · exact Nat.lt_succ_of_lt (h.forgotten_lt number hnumber)
    · obtain ⟨entry, hentry, rfl⟩ := List.mem_map.1 hnumber
      exact hlt entry (List.mem_of_mem_take hentry)
  · rw [Recent.enter, if_neg hkey]
    exact hsplit.2.1
  · rw [Recent.enter, if_neg hkey]
    intro number hnumber entry hentry
    rcases List.mem_append.1 hnumber with hnumber | hnumber
    · rcases List.mem_append.1 (List.mem_of_mem_drop hentry) with hentry | hentry
      · exact h.older number hnumber entry hentry
      · rw [List.mem_singleton.1 hentry]
        exact h.forgotten_lt number hnumber
    · obtain ⟨lost, hlost, rfl⟩ := List.mem_map.1 hnumber
      exact hsplit.2.2 lost hlost entry hentry

end Recent
