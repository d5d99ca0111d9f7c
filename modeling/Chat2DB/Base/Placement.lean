import Mathlib

/-! # Placing items in a list

A list of items that are known by a key. An item is placed right behind the item of
another key, and what that does to the items that a predicate selects.
-/

namespace Placement

universe u v

variable {α : Type u} {κ : Type v} [DecidableEq κ]

/-- The item right behind the first one with the key, if there is one. -/
def insertAfter (key : α → κ) (anchor : κ) (item : α) : List α → Option (List α)
  | [] => none
  | head :: tail =>
    if key head = anchor then some (head :: item :: tail)
    else (insertAfter key anchor item tail).map (head :: ·)

/-- The items with other keys. -/
def without (key : α → κ) (name : κ) (items : List α) : List α :=
  items.filter fun item => decide (key item ≠ name)

def withoutAll (key : α → κ) (names : List κ) (items : List α) : List α :=
  items.filter fun item => decide (key item ∉ names)

variable {key : α → κ} {anchor : κ} {item head : α} {items before after : List α}

theorem insertAfter_subset {placed : List α} (hplaced : insertAfter key anchor item items = some placed) :
    placed ⊆ item :: items := by
  induction items generalizing placed with
  | nil => cases hplaced
  | cons head tail ih =>
    unfold insertAfter at hplaced
    split_ifs at hplaced with hhead
    · obtain rfl := Option.some.inj hplaced
      intro other hother
      simp only [List.mem_cons] at hother ⊢
      tauto
    · obtain ⟨rest, hrest, rfl⟩ := Option.map_eq_some_iff.mp hplaced
      intro other hother
      rcases List.mem_cons.mp hother with rfl | hother
      · simp
      · have := ih hrest hother
        simp only [List.mem_cons] at this ⊢
        tauto

theorem insertAfter_append (hhead : key head = anchor) (hbefore : ∀ other ∈ before, key other ≠ anchor) :
    insertAfter key anchor item (before ++ head :: after) =
      some (before ++ head :: item :: after) := by
  induction before with
  | nil => simp [insertAfter, hhead]
  | cons first rest ih =>
    have hfirst : key first ≠ anchor := hbefore first List.mem_cons_self
    simp only [List.cons_append, insertAfter, if_neg hfirst]
    rw [ih fun other hother => hbefore other (List.mem_cons_of_mem _ hother)]
    rfl

/-- Placed behind the last of the selected items that are settled, the item comes before
those that are not; the items that are not selected stay as they are. -/
theorem insertAfter_selected (selected : α → Bool) {settled pending : List α} {last : α}
    (hnodup : (items.map key).Nodup) (hitem : selected item = true)
    (hsettled : items.filter selected = settled ++ last :: pending) :
    ∃ placed, insertAfter key (key last) item items = some placed ∧
      placed.filter selected = settled ++ last :: item :: pending ∧
      placed.filter (fun other => !selected other) = items.filter (fun other => !selected other) ∧
      placed.Perm (item :: items) := by
  obtain ⟨front, back, rfl, hfront, hback⟩ := List.filter_eq_append_iff.mp hsettled
  obtain ⟨skipped, rest, rfl, hskipped, hlast, hrest⟩ := List.filter_eq_cons_iff.mp hback
  have hsplit : front ++ (skipped ++ last :: rest) = (front ++ skipped) ++ last :: rest := by simp
  have hother : ∀ other ∈ front ++ skipped, key other ≠ key last := by
    intro other hmem hkey
    rw [hsplit, List.map_append, List.map_cons, List.nodup_append] at hnodup
    exact hnodup.2.2 _ (List.mem_map_of_mem hmem) _ List.mem_cons_self hkey
  have hnone : skipped.filter selected = [] := List.filter_eq_nil_iff.mpr hskipped
  refine ⟨(front ++ skipped) ++ last :: item :: rest, ?_, ?_, ?_, ?_⟩
  · rw [hsplit]
    exact insertAfter_append rfl hother
  · simp [hfront, hnone, hlast, hitem, hrest]
  · simp [List.filter_cons, hitem]
  · rw [hsplit]
    have hmiddle : (last :: item :: rest).Perm (item :: last :: rest) := List.Perm.swap _ _ _
    exact (hmiddle.append_left (front ++ skipped)).trans List.perm_middle

theorem insertIdx_append_length :
    (before ++ after).insertIdx before.length item = before ++ item :: after := by
  induction before with
  | nil => rfl
  | cons first rest ih =>
    rw [List.cons_append, List.length_cons, List.insertIdx_succ_cons, ih]
    rfl

theorem without_eq_self (habsent : ∀ other ∈ items, key other ≠ anchor) :
    without key anchor items = items :=
  List.filter_eq_self.mpr fun other hother => decide_eq_true (habsent other hother)

theorem without_append_cons (hhead : key head = anchor)
    (hother : ∀ other ∈ before ++ after, key other ≠ anchor) :
    without key anchor (before ++ head :: after) = before ++ after := by
  have hbefore := without_eq_self fun other hmem => hother other (List.mem_append_left after hmem)
  have hafter := without_eq_self fun other hmem => hother other (List.mem_append_right before hmem)
  unfold without at hbefore hafter ⊢
  rw [List.filter_append, List.filter_cons_of_neg (by simp [hhead]), hbefore, hafter]

theorem mem_without {other : α} : other ∈ without key anchor items ↔ other ∈ items ∧ key other ≠ anchor := by
  simp [without]

theorem mem_withoutAll {names : List κ} {other : α} :
    other ∈ withoutAll key names items ↔ other ∈ items ∧ key other ∉ names := by
  simp [withoutAll]

@[simp]
theorem withoutAll_nil : withoutAll key [] items = items := by
  simp [withoutAll]

/-- Items without those of several keys, one key after the other. -/
theorem withoutAll_cons {names : List κ} (name : κ) :
    withoutAll key (name :: names) items = withoutAll key names (without key name items) := by
  rw [withoutAll, withoutAll, without, List.filter_filter]
  congr 1
  funext other
  by_cases hname : key other = name <;> simp [hname]

/-- Without the items of which a predicate holds, one of each key. -/
theorem withoutAll_filter {dropped : α → Bool} (hnodup : (items.map key).Nodup) :
    withoutAll key ((items.filter dropped).map key) items =
      items.filter fun item => !dropped item := by
  apply List.filter_congr
  intro item hitem
  by_cases hdropped : dropped item = true
  · have hmem : key item ∈ (items.filter dropped).map key :=
      List.mem_map_of_mem (List.mem_filter.mpr ⟨hitem, hdropped⟩)
    simp only [hmem, hdropped, not_true, decide_false, Bool.not_true]
  · have habsent : key item ∉ (items.filter dropped).map key := by
      intro hmem
      obtain ⟨other, hother, hkey⟩ := List.mem_map.mp hmem
      rw [List.mem_filter] at hother
      obtain rfl := List.inj_on_of_nodup_map hnodup hother.1 hitem hkey
      exact hdropped hother.2
    simp only [habsent, not_false_eq_true, decide_true, eq_false_of_ne_true hdropped, Bool.not_false]

/-- In a list without repeated keys a key finds its item. -/
theorem find?_key_eq_some (hnodup : (items.map key).Nodup) {name : κ} :
    items.find? (fun item => decide (key item = name)) = some item ↔
      item ∈ items ∧ key item = name := by
  constructor
  · intro hfind
    exact ⟨List.mem_of_find?_eq_some hfind, by simpa using List.find?_some hfind⟩
  · rintro ⟨hmem, rfl⟩
    cases hfind : items.find? fun other => decide (key other = key item) with
    | none => simpa using List.find?_eq_none.mp hfind item hmem
    | some other =>
      have hkey : key other = key item := by simpa using List.find?_some hfind
      rw [List.inj_on_of_nodup_map hnodup (List.mem_of_find?_eq_some hfind) hmem hkey]

theorem find?_key_eq_none {name : κ} :
    items.find? (fun item => decide (key item = name)) = none ↔ name ∉ items.map key := by
  simp [List.find?_eq_none]

theorem without_filter (selected : α → Bool) :
    (without key anchor items).filter selected = without key anchor (items.filter selected) := by
  unfold without
  rw [List.filter_filter, List.filter_filter]
  congr 1
  funext other
  exact Bool.and_comm _ _

/-- What stands in one of two related lists has its like in the other. -/
theorem exists_of_forall₂ {α β : Type*} {related : α → β → Prop} {first : List α}
    {second : List β} (hrelated : List.Forall₂ related first second) :
    (∀ left ∈ first, ∃ right ∈ second, related left right) ∧
      ∀ right ∈ second, ∃ left ∈ first, related left right := by
  induction hrelated with
  | nil => simp
  | cons hhead _ ih =>
    rw [List.forall_mem_cons, List.forall_mem_cons]
    refine ⟨⟨⟨_, List.mem_cons_self, hhead⟩, fun left hleft => ?_⟩,
      ⟨_, List.mem_cons_self, hhead⟩, fun right hright => ?_⟩
    · obtain ⟨right, hright, hboth⟩ := ih.1 left hleft
      exact ⟨right, List.mem_cons_of_mem _ hright, hboth⟩
    · obtain ⟨left, hleft, hboth⟩ := ih.2 right hright
      exact ⟨left, List.mem_cons_of_mem _ hleft, hboth⟩

end Placement
