import Chat2DB.Schema.SchemaDiff

/-! # The order of the views

A view comes after the views that it depends on. The order is accepted when it is as long
as there are views; as no view comes twice, it is then an order of all of them.
-/

namespace Chat2DB.Schema

variable {snapshot : SchemaSnapshot} {order : ViewOrder} {definition : List Char}
  {ordered : List (List Char)}

local instance lawfulView : LawfulBEq (List Char) := inferInstance

/-- The views that a view depends on and that have not come yet. -/
def awaitedViews (snapshot : SchemaSnapshot) (ordered : List (List Char)) (definition : List Char) :
    List (List Char) :=
  (viewDependencies snapshot definition).filter fun view => decide (view ∉ ordered)

/-- A view of the snapshot that waits for none. -/
def Unblocked (snapshot : SchemaSnapshot) (ordered : List (List Char)) (view : List Char) : Prop :=
  ∃ definition, (view, definition) ∈ snapshot.views ∧
    awaitedViews snapshot ordered definition = []

namespace ViewOrder

/-- What the loop keeps. -/
structure Sound (snapshot : SchemaSnapshot) (order : ViewOrder) : Prop where
  counts : order.counts = snapshot.views.map fun entry =>
    (entry.1, (awaitedViews snapshot order.ordered entry.2).length)
  unblocked : ∀ view ∈ order.ordered ++ order.ready, Unblocked snapshot order.ordered view
  nodup : (order.ordered ++ order.ready).Nodup

end ViewOrder

theorem view_unique {view other : List Char} (hmem : (view, definition) ∈ snapshot.views)
    (hother : (view, other) ∈ snapshot.views) : definition = other := by
  have hsame := List.inj_on_of_nodup_map snapshot.viewNames hmem hother rfl
  exact (Prod.mk.inj hsame).2

theorem awaitedViews_append {view : List Char} :
    awaitedViews snapshot (ordered ++ [view]) definition =
      (awaitedViews snapshot ordered definition).erase view := by
  have hnodup : (awaitedViews snapshot ordered definition).Nodup :=
    (List.nodup_dedup _).filter _
  rw [hnodup.erase_eq_filter, awaitedViews, awaitedViews, List.filter_filter]
  apply List.filter_congr
  intro other _
  by_cases hother : other = view
  · simp [hother]
  · simp [hother]

theorem mem_awaitedViews {view : List Char} :
    view ∈ awaitedViews snapshot ordered definition ↔
      view ∈ viewDependencies snapshot definition ∧ view ∉ ordered := by
  simp [awaitedViews]

theorem Unblocked.append {view : List Char}
    (hunblocked : Unblocked snapshot ordered view) (next : List Char) :
    Unblocked snapshot (ordered ++ [next]) view := by
  obtain ⟨definition, hmem, hnone⟩ := hunblocked
  refine ⟨definition, hmem, ?_⟩
  rw [awaitedViews_append, hnone]
  rfl

namespace ViewOrder

variable {view : List Char}

theorem mem_children {name definition : List Char} (hmem : (name, definition) ∈ snapshot.views) :
    name ∈ (snapshot.views.filter fun entry =>
        decide (view ∈ viewDependencies snapshot entry.2)).map Prod.fst ↔
      view ∈ viewDependencies snapshot definition := by
  rw [List.mem_map]
  constructor
  · rintro ⟨⟨found, other⟩, hfound, rfl⟩
    rw [List.mem_filter] at hfound
    rw [view_unique hmem hfound.1]
    exact of_decide_eq_true hfound.2
  · intro hdepends
    exact ⟨(name, definition), List.mem_filter.mpr ⟨hmem, decide_eq_true hdepends⟩, rfl⟩

theorem Sound.not_ordered (hsound : order.Sound snapshot) (hready : view ∈ order.ready) :
    view ∉ order.ordered := by
  intro hmem
  exact (List.nodup_append.mp hsound.nodup).2.2 _ hmem _ hready rfl

theorem Sound.pop_counts (hsound : order.Sound snapshot) (hready : view ∈ order.ready) :
    (order.pop snapshot view).counts = snapshot.views.map fun entry =>
      (entry.1, (awaitedViews snapshot (order.ordered ++ [view]) entry.2).length) := by
  unfold pop
  simp only [hsound.counts, List.map_map]
  apply List.map_congr_left
  intro entry hentry
  have hchild := @mem_children snapshot view entry.1 entry.2 hentry
  have hawaited : view ∈ awaitedViews snapshot order.ordered entry.2 ↔
      view ∈ viewDependencies snapshot entry.2 := by
    rw [mem_awaitedViews, and_iff_left (hsound.not_ordered hready)]
  rw [Function.comp_apply, awaitedViews_append, List.length_erase]
  by_cases hdepends : view ∈ viewDependencies snapshot entry.2
  · rw [if_pos (hchild.mpr hdepends), if_pos (hawaited.mpr hdepends)]
  · rw [if_neg (fun hmem => hdepends (hchild.mp hmem)),
      if_neg (fun hmem => hdepends (hawaited.mp hmem))]

theorem Sound.mem_released (hsound : order.Sound snapshot) (hready : view ∈ order.ready)
    {name : List Char} (hname : name ∈ (((order.pop snapshot view).counts.filter fun entry =>
      decide (entry.1 ∈ (snapshot.views.filter fun entry =>
        decide (view ∈ viewDependencies snapshot entry.2)).map Prod.fst) &&
          decide (entry.2 = 0)).map Prod.fst)) :
    Unblocked snapshot (order.ordered ++ [view]) name ∧ name ∉ order.ordered ++ order.ready := by
  rw [hsound.pop_counts hready, List.mem_map] at hname
  obtain ⟨entry, hentry, rfl⟩ := hname
  obtain ⟨hmem, hreleased⟩ := List.mem_filter.mp hentry
  obtain ⟨⟨name, definition⟩, hview, rfl⟩ := List.mem_map.mp hmem
  simp only [Bool.and_eq_true, decide_eq_true_eq] at hreleased
  obtain ⟨hchild, hzero⟩ := hreleased
  refine ⟨⟨definition, hview, List.eq_nil_of_length_eq_zero hzero⟩, ?_⟩
  intro hbefore
  obtain ⟨other, hother, hnone⟩ := hsound.unblocked name hbefore
  obtain rfl := view_unique hview hother
  have hawaited := mem_awaitedViews.mpr
    ⟨(mem_children hview).mp hchild, hsound.not_ordered hready⟩
  rw [hnone] at hawaited
  cases hawaited

theorem Sound.pop (hsound : order.Sound snapshot) (hready : view ∈ order.ready) :
    (order.pop snapshot view).Sound snapshot := by
  have hcounts := hsound.pop_counts hready
  have hreleased := @Sound.mem_released snapshot order view hsound hready
  have hbefore : ∀ name ∈ order.ordered ++ order.ready,
      Unblocked snapshot (order.ordered ++ [view]) name := by
    intro name hname
    exact (hsound.unblocked name hname).append view
  have hnames : ((order.pop snapshot view).counts.map Prod.fst).Nodup := by
    rw [hcounts, List.map_map]
    exact snapshot.viewNames
  have hmoved : (order.ordered ++ [view] ++ order.ready.erase view).Perm
      (order.ordered ++ order.ready) := by
    rw [List.append_assoc, List.singleton_append]
    exact (List.perm_cons_erase hready).symm.append_left _
  have hready' : (order.pop snapshot view).ready = order.ready.erase view ++ _ := rfl
  refine ⟨hcounts, ?_, ?_⟩
  · intro name hname
    rw [hready', ← List.append_assoc] at hname
    rcases List.mem_append.mp hname with hname | hname
    · exact hbefore name (hmoved.mem_iff.mp hname)
    · exact (hreleased hname).1
  · rw [hready', ← List.append_assoc, List.nodup_append]
    refine ⟨hmoved.nodup_iff.mpr hsound.nodup, hnames.sublist (List.filter_sublist.map _), ?_⟩
    rintro name hname other hother rfl
    exact (hreleased hother).2 (hmoved.mem_iff.mp hname)

theorem Sound.run (hsound : order.Sound snapshot) (fuel : Nat) :
    (ViewOrder.run snapshot fuel order).Sound snapshot := by
  induction fuel generalizing order with
  | zero => exact hsound
  | succ fuel ih =>
    unfold ViewOrder.run
    split
    · exact hsound
    · rename_i view hfind
      have hready := List.find?_some hfind
      exact ih (hsound.pop (of_decide_eq_true hready))

end ViewOrder

theorem sound_start (snapshot : SchemaSnapshot) :
    ViewOrder.Sound snapshot
      { counts := snapshot.views.map fun entry =>
          (entry.1, (viewDependencies snapshot entry.2).length)
        ready := ((snapshot.views.map fun entry =>
          (entry.1, (viewDependencies snapshot entry.2).length)).filter fun entry =>
            decide (entry.2 = 0)).map Prod.fst
        ordered := [] } := by
  have hall : ∀ definition, awaitedViews snapshot [] definition =
      viewDependencies snapshot definition := by
    intro definition
    simp [awaitedViews]
  refine ⟨?_, ?_, ?_⟩
  · simp only [hall]
  · intro view hview
    rw [List.nil_append, List.mem_map] at hview
    obtain ⟨entry, hentry, rfl⟩ := hview
    obtain ⟨hcount, hzero⟩ := List.mem_filter.mp hentry
    obtain ⟨⟨view, definition⟩, hmem, rfl⟩ := List.mem_map.mp hcount
    refine ⟨definition, hmem, ?_⟩
    rw [hall]
    exact List.eq_nil_of_length_eq_zero (of_decide_eq_true hzero)
  · have hnames := snapshot.viewNames
    refine List.Nodup.sublist (List.filter_sublist.map _) ?_
    rw [List.map_map]
    exact hnames

end Chat2DB.Schema
