import Chat2DB.Base.Consecutive

/-! # Retained windows

The last items of a growing log whose items are numbered from one.
-/

/-- Of the items sent, the last `capacity` are kept. -/
structure Retained {α : Type*} (capacity : Nat) (number : α → Nat) (sent kept : List α) : Prop where
  numbered : Consecutive 1 (sent.map number)
  kept_eq : kept = sent.drop (sent.length - capacity)

namespace Retained

variable {α : Type*} {capacity : Nat} {number : α → Nat} {sent kept : List α}

theorem nil : Retained capacity number [] [] := ⟨Consecutive.nil, by simp⟩

/-- A full window drops its oldest item. -/
theorem drop_append (hcapacity : 0 < capacity) (items : List α) (item : α) :
    (if (items.drop (items.length - capacity)).length = capacity
        then (items.drop (items.length - capacity)).tail
        else items.drop (items.length - capacity)) ++ [item] =
      (items ++ [item]).drop ((items ++ [item]).length - capacity) := by
  rw [List.length_drop, List.length_append, List.length_singleton]
  by_cases hfull : capacity ≤ items.length
  · have hkeep : items.length + 1 - capacity = items.length - capacity + 1 := by omega
    rw [if_pos (by omega), List.tail_drop, List.drop_append_of_le_length (by omega), hkeep]
  · have hnone : items.length + 1 - capacity = 0 := by omega
    have hnone' : items.length - capacity = 0 := by omega
    rw [if_neg (by omega), hnone, hnone', List.drop_zero, List.drop_zero]

theorem push (hretained : Retained capacity number sent kept) (hcapacity : 0 < capacity) (item : α)
    (hnumber : number item = sent.length + 1) :
    Retained capacity number (sent ++ [item])
      ((if kept.length = capacity then kept.tail else kept) ++ [item]) := by
  refine ⟨?_, ?_⟩
  · rw [List.map_append, List.map_singleton]
    refine hretained.numbered.append_singleton ?_
    rw [List.length_map, hnumber, Nat.add_comm]
  · rw [hretained.kept_eq]
    exact drop_append hcapacity sent item

theorem number_eq (hretained : Retained capacity number sent kept) {index : Nat} {item : α}
    (hget : sent[index]? = some item) : number item = index + 1 := by
  have hnumber := hretained.numbered.eq_of_getElem? index (number item) (by simp [hget])
  rw [hnumber, Nat.add_comm]

/-- What the window holds after a number. -/
theorem filter_gt (hretained : Retained capacity number sent kept) (cursor : Nat) :
    kept.filter (fun item => cursor < number item) =
      sent.drop (max (sent.length - capacity) cursor) := by
  have hnumbered := hretained.numbered.drop (sent.length - capacity)
  rw [← List.map_drop] at hnumbered
  rw [hretained.kept_eq, hnumbered.filter_gt cursor, List.drop_drop]
  congr 1
  omega

theorem oldest (hretained : Retained capacity number sent kept) (hcapacity : 0 < capacity)
    (hsent : 0 < sent.length) : kept.head?.map number = some (sent.length - capacity + 1) := by
  have hindex : sent.length - capacity < sent.length := by omega
  rw [hretained.kept_eq, List.head?_drop, List.getElem?_eq_getElem hindex, Option.map_some,
    hretained.number_eq (List.getElem?_eq_getElem hindex)]

end Retained
