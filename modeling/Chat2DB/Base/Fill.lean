import Mathlib

/-! # Filling a page

Items are taken from the front of a list while a page has room for one more, in
number and in weight. What is taken is the longest part of the front that fits.
-/

namespace Fill

universe u

variable {α : Type u} (weight : α → Nat)

/-- The total weight of a list. -/
def total (items : List α) : Nat := (items.map weight).sum

/-- Take items from the front while there is room. -/
def fill : Nat → Nat → List α → List α
  | 0, _, _ => []
  | _, _, [] => []
  | limit + 1, budget, item :: rest =>
    if weight item ≤ budget then item :: fill limit (budget - weight item) rest else []

/-- The first `count` items are within the limits. -/
structure Fits (limit budget : Nat) (items : List α) (count : Nat) : Prop where
  available : count ≤ items.length
  number : count ≤ limit
  bytes : total weight (items.take count) ≤ budget

variable {weight} {limit budget : Nat} {items : List α}

@[simp] theorem total_nil : total weight ([] : List α) = 0 := rfl

@[simp] theorem total_cons (item : α) (rest : List α) :
    total weight (item :: rest) = weight item + total weight rest := by
  simp [total]

@[simp] theorem fill_zero : fill weight 0 budget items = [] := by
  unfold fill
  rfl

@[simp] theorem fill_nil : fill weight limit budget ([] : List α) = [] := by
  cases limit <;> rfl

theorem fill_cons_of_le {item : α} {rest : List α} (hitem : weight item ≤ budget) :
    fill weight (limit + 1) budget (item :: rest) =
      item :: fill weight limit (budget - weight item) rest := by
  rw [fill, if_pos hitem]

theorem fill_cons_of_lt {item : α} {rest : List α} (hitem : budget < weight item) :
    fill weight (limit + 1) budget (item :: rest) = [] := by
  rw [fill, if_neg (Nat.not_le.mpr hitem)]

/-- What is taken is the front of the list. -/
theorem fill_front (limit budget : Nat) (items : List α) :
    fill weight limit budget items <+: items := by
  induction items generalizing limit budget with
  | nil => simp
  | cons item rest ih =>
    cases limit with
    | zero => simp
    | succ limit =>
      by_cases hitem : weight item ≤ budget
      · rw [fill_cons_of_le hitem]
        exact (List.cons_prefix_cons).mpr ⟨rfl, ih limit (budget - weight item)⟩
      · rw [fill_cons_of_lt (Nat.not_le.mp hitem)]
        exact List.nil_prefix

theorem fill_eq_take : fill weight limit budget items =
    items.take (fill weight limit budget items).length :=
  List.prefix_iff_eq_take.mp (fill_front limit budget items)

theorem fits_zero : Fits weight limit budget items 0 :=
  ⟨Nat.zero_le _, Nat.zero_le _, by simp⟩

theorem fits_cons {item : α} {rest : List α} {count : Nat} :
    Fits weight (limit + 1) budget (item :: rest) (count + 1) ↔
      weight item ≤ budget ∧ Fits weight limit (budget - weight item) rest count := by
  constructor
  · intro hfits
    have hbytes := hfits.bytes
    have havailable := hfits.available
    have hnumber := hfits.number
    rw [List.take_succ_cons, total_cons] at hbytes
    rw [List.length_cons] at havailable
    exact ⟨by omega, by omega, by omega, by omega⟩
  · rintro ⟨hitem, hfits⟩
    have hbytes := hfits.bytes
    have havailable := hfits.available
    have hnumber := hfits.number
    refine ⟨?_, by omega, ?_⟩
    · rw [List.length_cons]
      omega
    · rw [List.take_succ_cons, total_cons]
      omega

theorem fits_length_fill (limit budget : Nat) (items : List α) :
    Fits weight limit budget items (fill weight limit budget items).length := by
  induction items generalizing limit budget with
  | nil => simpa using fits_zero
  | cons item rest ih =>
    cases limit with
    | zero => simpa using fits_zero
    | succ limit =>
      by_cases hitem : weight item ≤ budget
      · rw [fill_cons_of_le hitem, List.length_cons]
        exact fits_cons.mpr ⟨hitem, ih limit (budget - weight item)⟩
      · rw [fill_cons_of_lt (Nat.not_le.mp hitem)]
        exact fits_zero

/-- No longer part of the front fits. -/
theorem Fits.le_length_fill {count : Nat} (hfits : Fits weight limit budget items count) :
    count ≤ (fill weight limit budget items).length := by
  induction items generalizing limit budget count with
  | nil => exact Nat.le_trans hfits.available (Nat.zero_le _)
  | cons item rest ih =>
    cases count with
    | zero => exact Nat.zero_le _
    | succ count =>
      cases limit with
      | zero => exact absurd hfits.number (Nat.not_succ_le_zero count)
      | succ limit =>
        obtain ⟨hitem, hrest⟩ := fits_cons.mp hfits
        rw [fill_cons_of_le hitem, List.length_cons]
        exact Nat.succ_le_succ (ih hrest)

theorem length_fill_le : (fill weight limit budget items).length ≤ limit :=
  (fits_length_fill limit budget items).number

theorem total_fill_le : total weight (fill weight limit budget items) ≤ budget := by
  have hfits : Fits weight limit budget items _ := fits_length_fill limit budget items
  rw [fill_eq_take]
  exact hfits.bytes

/-- A limit above the number of items is none. -/
theorem fill_min_length (limit budget : Nat) (items : List α) :
    fill weight (min limit items.length) budget items = fill weight limit budget items := by
  induction items generalizing limit budget with
  | nil => simp
  | cons item rest ih =>
    cases limit with
    | zero => simp
    | succ limit =>
      rw [List.length_cons, Nat.add_min_add_right]
      by_cases hitem : weight item ≤ budget
      · rw [fill_cons_of_le hitem, fill_cons_of_le hitem, ih]
      · rw [fill_cons_of_lt (Nat.not_le.mp hitem), fill_cons_of_lt (Nat.not_le.mp hitem)]

/-- A page with room for the first item is not empty. -/
theorem fill_ne_nil {item : α} {rest : List α} (hlimit : 0 < limit) (hitem : weight item ≤ budget) :
    fill weight limit budget (item :: rest) ≠ [] := by
  obtain ⟨room, rfl⟩ := Nat.exists_eq_succ_of_ne_zero (Nat.ne_of_gt hlimit)
  rw [fill_cons_of_le hitem]
  exact List.cons_ne_nil _ _

/-- A page that took all of a list goes on with what follows it. -/
theorem fill_append_of_eq {first : List α} (second : List α)
    (hfirst : fill weight limit budget first = first) :
    fill weight limit budget (first ++ second) =
      first ++ fill weight (limit - first.length) (budget - total weight first) second := by
  induction first generalizing limit budget with
  | nil => simp
  | cons item rest ih =>
    cases limit with
    | zero => simp at hfirst
    | succ limit =>
      by_cases hitem : weight item ≤ budget
      · rw [fill_cons_of_le hitem] at hfirst
        rw [List.cons_append, fill_cons_of_le hitem, ih (List.cons.inj hfirst).2, total_cons,
          List.length_cons, Nat.add_sub_add_right, Nat.sub_sub, List.cons_append]
      · rw [fill_cons_of_lt (Nat.not_le.mp hitem)] at hfirst
        cases hfirst

/-- A page that is full before the end of a list takes nothing of what follows it. -/
theorem fill_append_of_ne {first : List α} (second : List α)
    (hfirst : fill weight limit budget first ≠ first) :
    fill weight limit budget (first ++ second) = fill weight limit budget first := by
  induction first generalizing limit budget with
  | nil => simp at hfirst
  | cons item rest ih =>
    cases limit with
    | zero => simp
    | succ limit =>
      by_cases hitem : weight item ≤ budget
      · rw [fill_cons_of_le hitem] at hfirst ⊢
        rw [List.cons_append, fill_cons_of_le hitem,
          ih fun hrest => hfirst (congrArg (List.cons item) hrest)]
      · rw [List.cons_append, fill_cons_of_lt (Nat.not_le.mp hitem),
          fill_cons_of_lt (Nat.not_le.mp hitem)]

/-! ## Taking items off the end -/

section Trim

variable (fits : List α → Prop) [DecidablePred fits]

/-- The first of the fronts with `count` items and fewer that fits, or no items at all. -/
def trimTo (items : List α) : Nat → List α
  | 0 => []
  | count + 1 =>
    if fits (items.take (count + 1)) then items.take (count + 1) else trimTo items count

/-- Take items off the end while the list does not fit and is not empty. -/
def trim (items : List α) : List α :=
  trimTo fits items items.length

variable {fits}

theorem trimTo_eq_take (items : List α) (count : Nat) :
    ∃ kept ≤ count, trimTo fits items count = items.take kept ∧
      (kept ≠ 0 → fits (items.take kept)) := by
  induction count with
  | zero => exact ⟨0, Nat.le_refl 0, List.take_zero.symm, fun hne => absurd rfl hne⟩
  | succ count ih =>
    unfold trimTo
    by_cases hfits : fits (items.take (count + 1))
    · rw [if_pos hfits]
      exact ⟨count + 1, Nat.le_refl _, rfl, fun _ => hfits⟩
    · rw [if_neg hfits]
      obtain ⟨kept, hkept, heq, hthen⟩ := ih
      exact ⟨kept, Nat.le_succ_of_le hkept, heq, hthen⟩

/-- What stays is a front, which fits unless nothing stays. -/
theorem trim_eq_take (items : List α) :
    ∃ kept ≤ items.length, trim fits items = items.take kept ∧
      (kept ≠ 0 → fits (items.take kept)) :=
  trimTo_eq_take items items.length

theorem trim_of_fits {items : List α} (hfits : fits items) : trim fits items = items := by
  unfold trim
  cases hlength : items.length with
  | zero => rw [List.length_eq_zero_iff.mp hlength, trimTo]
  | succ count =>
    rw [← hlength, trimTo.eq_def]
    simp only [hlength]
    rw [← hlength, List.take_length, if_pos hfits]

/-- Something stays of the items as soon as the first of them fits. -/
theorem trimTo_ne_nil {items : List α} (hne : items ≠ []) (hfirst : fits (items.take 1))
    {count : Nat} (hcount : 0 < count) : trimTo fits items count ≠ [] := by
  induction count with
  | zero => exact absurd hcount (Nat.lt_irrefl 0)
  | succ count ih =>
    unfold trimTo
    by_cases hfits : fits (items.take (count + 1))
    · rw [if_pos hfits]
      simp [hne]
    · rw [if_neg hfits]
      cases count with
      | zero => exact absurd hfirst hfits
      | succ count => exact ih (Nat.succ_pos count)

theorem trim_ne_nil {items : List α} (hne : items ≠ []) (hfirst : fits (items.take 1)) :
    trim fits items ≠ [] :=
  trimTo_ne_nil hne hfirst (List.length_pos_iff.mpr hne)

/-- Nothing stays where a list that fits goes on fitting when it is cut and one item is too much. -/
theorem trim_eq_nil {items : List α} (hcut : ∀ longer, fits longer → fits (longer.take 1))
    (hfirst : ¬ fits (items.take 1)) : trim fits items = [] := by
  obtain ⟨kept, -, heq, hfits⟩ := @trim_eq_take α fits _ items
  cases kept with
  | zero => rw [heq, List.take_zero]
  | succ kept =>
    have hcut := hcut _ (hfits (Nat.succ_ne_zero kept))
    rw [List.take_take, Nat.min_eq_left (Nat.succ_le_succ (Nat.zero_le kept))] at hcut
    exact absurd hcut hfirst

end Trim

end Fill
