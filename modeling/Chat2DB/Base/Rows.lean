import Mathlib

/-! # Tables as row lists

A table is the list of its rows in insertion order. `UPDATE … SET … WHERE`
rewrites the matching rows in place and reports how many matched; a row is
looked up by a key that uniqueness constraints keep free of duplicates.
-/

namespace Rows

universe u v

variable {ρ : Type u} {κ : Type v}

/-- Rewrite every row that satisfies the condition. -/
def update (cond : ρ → Bool) (set : ρ → ρ) (rows : List ρ) : List ρ :=
  rows.map fun row => if cond row then set row else row

/-- The number of rows a statement with this condition touches. -/
def changed (cond : ρ → Bool) (rows : List ρ) : Nat :=
  rows.countP cond

/-- The rows carry pairwise different keys. -/
def Keyed (key : ρ → κ) (rows : List ρ) : Prop :=
  (rows.map key).Nodup

theorem Keyed.eq_of_key_eq {key : ρ → κ} {rows : List ρ} (hkeyed : Keyed key rows)
    {left right : ρ} (hleft : left ∈ rows) (hright : right ∈ rows)
    (hkey : key left = key right) : left = right :=
  List.inj_on_of_nodup_map hkeyed hleft hright hkey

section Lookup

variable [DecidableEq κ]

/-- The row stored under a key. -/
def find (key : ρ → κ) (k : κ) (rows : List ρ) : Option ρ :=
  rows.find? fun row => key row = k

theorem find_mem {key : ρ → κ} {k : κ} {rows : List ρ} {row : ρ}
    (hfind : find key k rows = some row) : row ∈ rows ∧ key row = k := by
  refine ⟨List.mem_of_find?_eq_some hfind, ?_⟩
  simpa using List.find?_some hfind

theorem find_eq_none_iff {key : ρ → κ} {k : κ} {rows : List ρ} :
    find key k rows = none ↔ ∀ row ∈ rows, key row ≠ k := by
  simp [find]

/-- In a keyed table a member is what its key finds. -/
theorem Keyed.find_of_mem {key : ρ → κ} {rows : List ρ} (hkeyed : Keyed key rows)
    {row : ρ} (hrow : row ∈ rows) : find key (key row) rows = some row := by
  cases hfind : find key (key row) rows with
  | none => exact absurd rfl (find_eq_none_iff.mp hfind row hrow)
  | some found =>
    obtain ⟨hfound, hkey⟩ := find_mem hfind
    rw [hkeyed.eq_of_key_eq hfound hrow hkey]

/-- An update that keeps keys commutes with the lookup. -/
theorem find_update {key : ρ → κ} {cond : ρ → Bool} {set : ρ → ρ}
    (hset : ∀ row, key (set row) = key row) (k : κ) (rows : List ρ) :
    find key k (update cond set rows) =
      (find key k rows).map fun row => if cond row then set row else row := by
  unfold find update
  rw [List.find?_map]
  congr 2
  funext row
  simp only [Function.comp_apply]
  split <;> simp [hset]

/-- A statement whose condition fixes the key and that touched a row touched
the row the key finds. -/
theorem cond_of_changed {key : ρ → κ} {cond : ρ → Bool} {k : κ} {rows : List ρ} {row : ρ}
    (hkeyed : Keyed key rows) (hfind : find key k rows = some row)
    (hcond : ∀ other, cond other = true → key other = k)
    (hchanged : changed cond rows = 1) : cond row = true := by
  have hpos : 0 < rows.countP cond := by
    unfold changed at hchanged
    omega
  obtain ⟨other, hother, hotherCond⟩ := List.countP_pos_iff.mp hpos
  obtain ⟨hrow, hkey⟩ := find_mem hfind
  rw [hkeyed.eq_of_key_eq hrow hother (hkey.trans (hcond other hotherCond).symm)]
  exact hotherCond

theorem find_append_singleton {key : ρ → κ} (k : κ) (rows : List ρ) (row : ρ) :
    find key k (rows ++ [row]) =
      (find key k rows).or (if key row = k then some row else none) := by
  unfold find
  rw [List.find?_append, List.find?_singleton]
  simp

theorem find_filter_of_keep {key : ρ → κ} {keep : ρ → Bool} {k : κ} {rows : List ρ}
    (hkeep : ∀ row ∈ rows, key row = k → keep row = true) :
    find key k (rows.filter keep) = find key k rows := by
  induction rows with
  | nil => rfl
  | cons row rest ih =>
    have hrest := ih fun other hother => hkeep other (List.mem_cons_of_mem row hother)
    have hhead := hkeep row List.mem_cons_self
    unfold find at hrest ⊢
    by_cases hk : key row = k
    · simp [hhead hk, hk]
    · by_cases hrow : keep row = true <;> simp [hrow, hk, hrest]

/-- A table is the row that a key finds and the rows with other keys. -/
theorem Keyed.perm_cons_filter {key : ρ → κ} {k : κ} {rows : List ρ} {row : ρ}
    (hkeyed : Keyed key rows) (hfind : find key k rows = some row) :
    rows.Perm (row :: rows.filter fun other => key other ≠ k) := by
  induction rows with
  | nil => cases hfind
  | cons head rest ih =>
    obtain ⟨hfresh, hrest⟩ := List.nodup_cons.mp hkeyed
    by_cases hk : key head = k
    · obtain rfl : head = row := by simpa [find, hk] using hfind
      have hothers : rest.filter (fun other => key other ≠ k) = rest := by
        rw [List.filter_eq_self]
        intro other hother
        have hne : key other ≠ k := fun heq =>
          hfresh (List.mem_map.mpr ⟨other, hother, heq.trans hk.symm⟩)
        simpa using hne
      have hfilter : (head :: rest).filter (fun other => key other ≠ k) = rest := by
        rw [List.filter_cons_of_neg (by simp [hk]), hothers]
      rw [hfilter]
    · have hfound : find key k rest = some row := by simpa [find, hk] using hfind
      have hfilter : (head :: rest).filter (fun other => key other ≠ k) =
          head :: rest.filter fun other => key other ≠ k := by
        simp [hk]
      rw [hfilter]
      exact ((ih hrest hfound).cons head).trans (List.Perm.swap row head _)

end Lookup

theorem mem_update {cond : ρ → Bool} {set : ρ → ρ} {rows : List ρ} {row : ρ} :
    row ∈ update cond set rows ↔
      ∃ old ∈ rows, row = if cond old then set old else old := by
  constructor
  · intro hrow
    obtain ⟨old, hold, rfl⟩ := List.mem_map.mp hrow
    exact ⟨old, hold, rfl⟩
  · rintro ⟨old, hold, rfl⟩
    exact List.mem_map.mpr ⟨old, hold, rfl⟩

theorem mem_update_of_not {cond : ρ → Bool} {set : ρ → ρ} {rows : List ρ} {row : ρ}
    (hrow : row ∈ rows) (hcond : cond row = false) : row ∈ update cond set rows :=
  mem_update.mpr ⟨row, hrow, by simp [hcond]⟩

theorem mem_update_of_cond {cond : ρ → Bool} {set : ρ → ρ} {rows : List ρ} {row : ρ}
    (hrow : row ∈ rows) (hcond : cond row = true) : set row ∈ update cond set rows :=
  mem_update.mpr ⟨row, hrow, by simp [hcond]⟩

theorem update_map_key {key : ρ → κ} {cond : ρ → Bool} {set : ρ → ρ}
    (hset : ∀ row, key (set row) = key row) (rows : List ρ) :
    (update cond set rows).map key = rows.map key := by
  unfold update
  rw [List.map_map]
  apply List.map_congr_left
  intro row _
  simp only [Function.comp_apply]
  split <;> simp [hset]

theorem Keyed.update {key : ρ → κ} {cond : ρ → Bool} {set : ρ → ρ} {rows : List ρ}
    (hkeyed : Keyed key rows) (hset : ∀ row, key (set row) = key row) :
    Keyed key (update cond set rows) := by
  unfold Keyed
  rw [update_map_key hset]
  exact hkeyed

/-- An update that keeps the keys of the rows it touches. -/
theorem Keyed.update_at {key : ρ → κ} {cond : ρ → Bool} {set : ρ → ρ} {rows : List ρ}
    (hkeyed : Keyed key rows) (hset : ∀ row, cond row = true → key (set row) = key row) :
    Keyed key (Rows.update cond set rows) := by
  have hkeys : (Rows.update cond set rows).map key = rows.map key := by
    unfold Rows.update
    rw [List.map_map]
    apply List.map_congr_left
    intro row _
    simp only [Function.comp_apply]
    split
    · rename_i hcond
      exact hset row hcond
    · rfl
  unfold Keyed
  rw [hkeys]
  exact hkeyed

theorem Keyed.filter {key : ρ → κ} {rows : List ρ} (hkeyed : Keyed key rows)
    (keep : ρ → Bool) : Keyed key (rows.filter keep) :=
  List.Nodup.sublist (List.filter_sublist.map key) hkeyed

theorem Keyed.append_singleton {key : ρ → κ} {rows : List ρ} (hkeyed : Keyed key rows)
    {row : ρ} (hfresh : ∀ old ∈ rows, key old ≠ key row) : Keyed key (rows ++ [row]) := by
  unfold Keyed
  rw [List.map_append, List.nodup_append]
  refine ⟨hkeyed, by simp, ?_⟩
  intro left hleft right hright
  obtain ⟨old, hold, rfl⟩ := List.mem_map.mp hleft
  simp only [List.map_cons, List.map_nil, List.mem_singleton] at hright
  subst hright
  exact hfresh old hold

/-- Put another row in the place of a given one. -/
def replace [DecidableEq ρ] (target moved : ρ) (rows : List ρ) : List ρ :=
  update (fun row => decide (row = target)) (fun _ => moved) rows

theorem update_congr {cond cond' : ρ → Bool} {set set' : ρ → ρ} {rows : List ρ}
    (hcond : ∀ row ∈ rows, cond row = cond' row)
    (hset : ∀ row ∈ rows, cond' row = true → set row = set' row) :
    update cond set rows = update cond' set' rows := by
  apply List.map_congr_left
  intro row hrow
  rw [hcond row hrow]
  split
  · exact hset row hrow ‹_›
  · rfl

/-- A statement whose condition fixes the key rewrites the one row it found. -/
theorem update_eq_replace [DecidableEq ρ] {key : ρ → κ} {cond : ρ → Bool} {set : ρ → ρ}
    {rows : List ρ} {target : ρ} (hkeyed : Keyed key rows) (htarget : target ∈ rows)
    (hcond : cond target = true) (hkey : ∀ row ∈ rows, cond row = true → key row = key target) :
    update cond set rows = replace target (set target) rows := by
  have honly : ∀ row ∈ rows, cond row = decide (row = target) := by
    intro row hrow
    by_cases heq : row = target
    · simp [heq, hcond]
    · have hnot : cond row ≠ true :=
        fun hrowCond => heq (hkeyed.eq_of_key_eq hrow htarget (hkey row hrow hrowCond))
      simp [heq, hnot]
  refine update_congr honly ?_
  intro row _ hrow
  rw [of_decide_eq_true hrow]

theorem update_eq_self {cond : ρ → Bool} {set : ρ → ρ} {rows : List ρ}
    (hnone : ∀ row ∈ rows, cond row = false) : update cond set rows = rows := by
  unfold update
  rw [List.map_congr_left (g := id)]
  · simp
  · intro row hrow
    simp [hnone row hrow]

/-- Rewriting the row under a key leaves the rows with other keys. -/
theorem Keyed.update_perm [DecidableEq κ] {key : ρ → κ} {k : κ} {set : ρ → ρ} {rows : List ρ}
    {row : ρ} (hkeyed : Keyed key rows) (hfind : find key k rows = some row) :
    (Rows.update (fun other => decide (key other = k)) set rows).Perm
      (set row :: rows.filter fun other => key other ≠ k) := by
  have hothers : Rows.update (fun other => decide (key other = k)) set
      (rows.filter fun other => key other ≠ k) = rows.filter fun other => key other ≠ k := by
    apply update_eq_self
    intro other hother
    simpa using (List.mem_filter.mp hother).2
  refine ((hkeyed.perm_cons_filter hfind).map _).trans ?_
  rw [List.map_cons, if_pos (by simpa using (find_mem hfind).2)]
  exact List.Perm.of_eq (congrArg _ hothers)

/-- Rows outside a selection are not seen by an update of the selection. -/
theorem filter_update_of_disjoint {cond select : ρ → Bool} {set : ρ → ρ} {rows : List ρ}
    (hset : ∀ row, select (set row) = select row)
    (hdisjoint : ∀ row ∈ rows, cond row = true → select row = false) :
    (update cond set rows).filter select = rows.filter select := by
  induction rows with
  | nil => rfl
  | cons row rest ih =>
    have hrest := ih fun other hother => hdisjoint other (List.mem_cons_of_mem row hother)
    have hhead := hdisjoint row List.mem_cons_self
    unfold update at hrest ⊢
    simp only [List.map_cons, List.filter_cons, hrest]
    by_cases hcond : cond row = true
    · simp [hcond, hset, hhead hcond]
    · simp [hcond]

/-- A selection that an update does not disturb commutes with it. -/
theorem filter_update {cond select : ρ → Bool} {set : ρ → ρ}
    (hset : ∀ row, select (set row) = select row) (rows : List ρ) :
    (update cond set rows).filter select = update cond set (rows.filter select) := by
  unfold update
  rw [List.filter_map]
  congr 1
  apply List.filter_congr
  intro row _
  simp only [Function.comp_apply]
  split <;> simp [hset]

/-- An update that changes no row satisfying `sel` in or out keeps its count. -/
theorem countP_update_of_same {cond sel : ρ → Bool} {set : ρ → ρ} {rows : List ρ}
    (hset : ∀ row ∈ rows, cond row = true → sel (set row) = sel row) :
    (update cond set rows).countP sel = rows.countP sel := by
  unfold update
  rw [List.countP_map]
  apply List.countP_congr
  intro row hrow
  simp only [Function.comp_apply]
  split
  · rename_i hcond
    rw [hset row hrow hcond]
  · rfl

/-- If one row satisfies `sel` and an update takes it out, none is left. -/
theorem countP_update_eq_zero {cond sel : ρ → Bool} {set : ρ → ρ} {rows : List ρ} {row : ρ}
    (hone : rows.countP sel = 1) (hrow : row ∈ rows) (hsel : sel row = true)
    (hcond : cond row = true) (hset : ∀ old, sel (set old) = false) :
    (update cond set rows).countP sel = 0 := by
  obtain ⟨before, after, rfl⟩ := List.append_of_mem hrow
  simp only [List.countP_append, List.countP_cons, hsel, if_true] at hone
  rw [List.countP_eq_zero]
  intro new hnew
  obtain ⟨old, hold, rfl⟩ := mem_update.mp hnew
  have hbefore := List.countP_eq_zero.mp (show before.countP sel = 0 by omega)
  have hafter := List.countP_eq_zero.mp (show after.countP sel = 0 by omega)
  split
  · simp [hset]
  · rename_i hnot
    rcases List.mem_append.mp hold with hold | hold
    · exact hbefore old hold
    · rcases List.mem_cons.mp hold with rfl | hold
      · exact absurd hcond hnot
      · exact hafter old hold

/-- An update that takes out whatever it touches and touches all of `sel`. -/
theorem countP_update_all {cond sel : ρ → Bool} {set : ρ → ρ} {rows : List ρ}
    (hall : ∀ row ∈ rows, sel row = true → cond row = true)
    (hset : ∀ old, sel (set old) = false) :
    (update cond set rows).countP sel = 0 := by
  rw [List.countP_eq_zero]
  intro new hnew
  obtain ⟨old, hold, rfl⟩ := mem_update.mp hnew
  split
  · simp [hset]
  · rename_i hnot
    exact fun hsel => hnot (hall old hold hsel)

/-- In a keyed table, rows that a condition does not tell apart are at most one. -/
theorem Keyed.length_filter_le_one {key : ρ → κ} {rows : List ρ} (hkeyed : Keyed key rows)
    {sel : ρ → Bool}
    (honly : ∀ row ∈ rows, ∀ other ∈ rows, sel row = true → sel other = true → row = other) :
    (rows.filter sel).length ≤ 1 := by
  have hnodup : (rows.filter sel).Nodup := (List.Nodup.of_map key hkeyed).filter sel
  cases hfilter : rows.filter sel with
  | nil => simp
  | cons row rest =>
    cases rest with
    | nil => simp
    | cons other rest =>
      have hrow := List.mem_filter.mp (hfilter ▸ List.mem_cons_self : row ∈ rows.filter sel)
      have hother := List.mem_filter.mp
        (hfilter ▸ List.mem_cons_of_mem row List.mem_cons_self : other ∈ rows.filter sel)
      have hequal := honly row hrow.1 other hother.1 hrow.2 hother.2
      rw [hfilter, hequal] at hnodup
      simp at hnodup

/-- In a keyed table a key selects its one row. -/
theorem Keyed.filter_eq_singleton [DecidableEq κ] {key : ρ → κ} {rows : List ρ} {row : ρ}
    (hkeyed : Keyed key rows) (hrow : row ∈ rows) :
    rows.filter (fun other => key other = key row) = [row] := by
  obtain ⟨before, after, rfl⟩ := List.append_of_mem hrow
  have hothers : ∀ other ∈ before ++ after, key other ≠ key row := by
    have hmoved := (List.perm_middle.map key).nodup_iff.mp hkeyed
    intro other hother heq
    exact (List.nodup_cons.mp hmoved).1 (List.mem_map.mpr ⟨other, hother, heq⟩)
  rw [List.forall_mem_append] at hothers
  rw [List.filter_append, List.filter_cons_of_pos (by simp),
    List.filter_eq_nil_iff.mpr (by simpa using hothers.1),
    List.filter_eq_nil_iff.mpr (by simpa using hothers.2), List.nil_append]

/-- A statement whose condition fixes the key touches the one row it describes. -/
theorem changed_eq_one [DecidableEq κ] {key : ρ → κ} {cond : ρ → Bool} {k : κ} {rows : List ρ}
    {row : ρ} (hkeyed : Keyed key rows) (hfind : find key k rows = some row)
    (hcond : ∀ other, cond other = true → key other = k) (hrow : cond row = true) :
    changed cond rows = 1 := by
  have hpos : 0 < rows.countP cond := List.countP_pos_iff.mpr ⟨row, (find_mem hfind).1, hrow⟩
  have hle : (rows.filter cond).length ≤ 1 := by
    refine hkeyed.length_filter_le_one ?_
    intro left hleft right hright hleftCond hrightCond
    exact hkeyed.eq_of_key_eq hleft hright
      ((hcond left hleftCond).trans (hcond right hrightCond).symm)
  rw [← List.countP_eq_length_filter] at hle
  unfold changed
  omega

end Rows
