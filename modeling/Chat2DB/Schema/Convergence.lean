import Chat2DB.Schema.TableDiff

/-! # The difference converges

Executing the changes on the target succeeds and leaves the source. The generated order
of the columns omits those that only the target has, while they are still in the table
until the end; it is the order of the other columns of the table.
-/

namespace Chat2DB.Schema

open Placement

variable {name : String}

/-- The same definition up to the redundant form of a character set. -/
def ColumnDefinition.Same (column other : ColumnDefinition) : Prop :=
  column.key = other.key ∧ column.comparisonSql = other.comparisonSql

def IndexDefinition.Same (index other : IndexDefinition) : Prop :=
  index.key = other.key ∧ index.sql = other.sql

theorem IndexDefinition.primary_of_sql {index other : IndexDefinition} (hsql : index.sql = other.sql) :
    index.primary = other.primary := by
  rw [index.marked, other.marked, hsql]

namespace MysqlTable

variable {table middle next : MysqlTable} {changes rest : List TableChange}

theorem applyAll_append (hfirst : table.applyAll changes = some middle)
    (hrest : middle.applyAll rest = some next) : table.applyAll (changes ++ rest) = some next := by
  unfold applyAll at hfirst hrest ⊢
  rw [Machine.run_append, hfirst]
  exact hrest

theorem applyAll_cons {change : TableChange} (hfirst : table.apply change = some middle)
    (hrest : middle.applyAll rest = some next) : table.applyAll (change :: rest) = some next := by
  unfold applyAll at hrest ⊢
  rw [Machine.run_cons, hfirst]
  exact hrest

theorem applyAll_singleton {change : TableChange} (hchange : table.apply change = some next) :
    table.applyAll [change] = some next :=
  applyAll_cons hchange rfl

/-! ## Indexes -/

theorem applyAll_dropIndexes {drops : List IndexDefinition}
    (hnodup : (drops.map IndexDefinition.key).Nodup) (hmem : ∀ index ∈ drops, index ∈ table.indexes) :
    table.applyAll (drops.map fun index => .dropIndex index.name) =
      some { table with
        indexes := withoutAll IndexDefinition.key (drops.map IndexDefinition.key) table.indexes } := by
  induction drops generalizing table with
  | nil => simp [applyAll, Machine.run]
  | cons index drops ih =>
    rw [List.map_cons, List.nodup_cons] at hnodup
    rw [List.map_cons, List.map_cons, withoutAll_cons]
    have hpresent : table.hasIndex index.name = true :=
      decide_eq_true (List.mem_map_of_mem (hmem index List.mem_cons_self))
    apply applyAll_cons
    · simp only [apply, hpresent, if_true]
      rfl
    · apply ih hnodup.2
      intro other hother
      refine mem_without.mpr ⟨hmem other (List.mem_cons_of_mem _ hother), fun hkey => ?_⟩
      have hrepeated := List.mem_map_of_mem (f := IndexDefinition.key) hother
      rw [hkey] at hrepeated
      exact hnodup.1 hrepeated

theorem applyAll_addIndexes {adds : List IndexDefinition}
    (hnodup : ((table.indexes ++ adds).map IndexDefinition.key).Nodup) :
    table.applyAll (adds.map .addIndex) =
      some { table with indexes := table.indexes ++ adds } := by
  induction adds generalizing table with
  | nil => simp [applyAll, Machine.run]
  | cons index adds ih =>
    have habsent : table.hasIndex index.name = false := by
      apply decide_eq_false
      intro hmem
      rw [List.map_append, List.map_cons, List.nodup_append] at hnodup
      exact hnodup.2.2 _ hmem _ List.mem_cons_self rfl
    rw [List.map_cons]
    apply applyAll_cons
    · simp only [apply, habsent, Bool.false_eq_true, if_false]
      rfl
    · rw [ih]
      · simp
      · simpa using hnodup

theorem applyAll_dropColumns {drops : List ColumnDefinition}
    (hnodup : (drops.map ColumnDefinition.key).Nodup)
    (hmem : ∀ column ∈ drops, column ∈ table.columns) :
    table.applyAll (drops.map fun column => .dropColumn column.name) =
      some { table with
        columns :=
          withoutAll ColumnDefinition.key (drops.map ColumnDefinition.key) table.columns } := by
  induction drops generalizing table with
  | nil => simp [applyAll, Machine.run]
  | cons column drops ih =>
    rw [List.map_cons, List.nodup_cons] at hnodup
    rw [List.map_cons, List.map_cons, withoutAll_cons]
    have hpresent : table.hasColumn column.name = true :=
      decide_eq_true (List.mem_map_of_mem (hmem column List.mem_cons_self))
    apply applyAll_cons
    · simp only [apply, hpresent, if_true]
      rfl
    · apply ih hnodup.2
      intro other hother
      refine mem_without.mpr ⟨hmem other (List.mem_cons_of_mem _ hother), fun hkey => ?_⟩
      have hrepeated := List.mem_map_of_mem (f := ColumnDefinition.key) hother
      rw [hkey] at hrepeated
      exact hnodup.1 hrepeated

end MysqlTable

section Indexes

variable {source target : TableSnapshot} {index : IndexDefinition}

theorem indexChanged_eq_false {others : List IndexDefinition}
    (hnodup : (others.map IndexDefinition.key).Nodup) :
    indexChanged others index = false ↔ ∃ other ∈ others, other.Same index := by
  have hfind : ∀ other, findIndex others index.name = some other ↔
      other ∈ others ∧ other.key = index.key := fun _ => find?_key_eq_some hnodup
  constructor
  · intro hsame
    unfold indexChanged at hsame
    split at hsame
    · cases hsame
    · rename_i other hother
      obtain ⟨hmem, hkey⟩ := (hfind other).mp hother
      exact ⟨other, hmem, hkey, by simpa using hsame⟩
  · rintro ⟨other, hmem, hkey, hsql⟩
    simp [indexChanged, (hfind other).mpr ⟨hmem, hkey⟩, hsql]

/-- The indexes of the target that stay, and those of the source that are added. -/
def keptIndexes (source target : TableSnapshot) : List IndexDefinition :=
  (target.indexes.filter fun index => !index.primary).filter fun index =>
    !indexChanged source.indexes index

def addedIndexes (source target : TableSnapshot) : List IndexDefinition :=
  (source.indexes.filter fun index => !index.primary).filter (indexChanged target.indexes)

theorem mem_keptIndexes : index ∈ keptIndexes source target ↔
    index ∈ target.indexes ∧ index.primary = false ∧ ∃ other ∈ source.indexes, other.Same index := by
  simp only [keptIndexes, List.mem_filter, Bool.not_eq_true', and_assoc,
    indexChanged_eq_false source.indexNames]

theorem mem_addedIndexes : index ∈ addedIndexes source target ↔
    index ∈ source.indexes ∧ index.primary = false ∧
      ¬ ∃ other ∈ target.indexes, other.Same index := by
  simp only [addedIndexes, List.mem_filter, Bool.not_eq_true', and_assoc,
    ← indexChanged_eq_false target.indexNames, Bool.not_eq_false]

theorem keptIndexes_sublist : (keptIndexes source target).Sublist target.indexes :=
  List.filter_sublist.trans List.filter_sublist

theorem applyAll_indexDrops (source target : TableSnapshot) :
    target.table.applyAll (indexDrops source target) =
      some { target.table with indexes := keptIndexes source target } := by
  have hnodup : ((target.indexes.filter fun index => !index.primary).map IndexDefinition.key).Nodup :=
    target.indexNames.sublist (List.filter_sublist.map _)
  have hdrops := @MysqlTable.applyAll_dropIndexes target.table
    (target.table.indexes.filter (indexChanged source.indexes))
    (hnodup.sublist (List.filter_sublist.map _)) fun _ hmem => (List.mem_filter.mp hmem).1
  exact hdrops.trans (congrArg (fun indexes => some { target.table with indexes })
    (withoutAll_filter hnodup))

theorem nodup_kept_added (source target : TableSnapshot) :
    ((keptIndexes source target ++ addedIndexes source target).map IndexDefinition.key).Nodup := by
  rw [List.map_append, List.nodup_append]
  refine ⟨target.indexNames.sublist (keptIndexes_sublist.map _),
    source.indexNames.sublist ((List.filter_sublist.trans List.filter_sublist).map _), ?_⟩
  intro _ hkeptKey _ haddedKey hsame
  obtain ⟨kept, hkept, rfl⟩ := List.mem_map.mp hkeptKey
  obtain ⟨added, hadded, rfl⟩ := List.mem_map.mp haddedKey
  obtain ⟨hmem, _, twin, htwin, hkey, hsql⟩ := mem_keptIndexes.mp hkept
  obtain ⟨hsource, _, hmissing⟩ := mem_addedIndexes.mp hadded
  -- the index that stays has its twin in the source, which is then not added
  obtain rfl := List.inj_on_of_nodup_map source.indexNames htwin hsource (hkey.trans hsame)
  exact hmissing ⟨kept, hmem, hkey.symm, hsql.symm⟩

theorem applyAll_indexAdds (table : MysqlTable) (hkept : table.indexes = keptIndexes source target) :
    table.applyAll (indexAdds source target) =
      some { table with indexes := keptIndexes source target ++ addedIndexes source target } := by
  have hadds := @MysqlTable.applyAll_addIndexes table (addedIndexes source target)
    (by rw [hkept]; exact nodup_kept_added source target)
  rw [hkept] at hadds
  exact hadds

theorem kept_added_same (source target : TableSnapshot) :
    (∀ index ∈ keptIndexes source target ++ addedIndexes source target,
      ∃ other ∈ source.table.indexes, index.Same other) ∧
    ∀ other ∈ source.table.indexes,
      ∃ index ∈ keptIndexes source target ++ addedIndexes source target, index.Same other := by
  constructor
  · intro index hindex
    rcases List.mem_append.mp hindex with hkept | hadded
    · obtain ⟨_, hprimary, other, hother, hkey, hsql⟩ := mem_keptIndexes.mp hkept
      refine ⟨other, List.mem_filter.mpr ⟨hother, ?_⟩, hkey.symm, hsql.symm⟩
      rw [IndexDefinition.primary_of_sql hsql, hprimary, Bool.not_false]
    · exact ⟨index, (List.mem_filter.mp hadded).1, rfl, rfl⟩
  · intro other hother
    obtain ⟨hmem, hprimary⟩ := List.mem_filter.mp hother
    rw [Bool.not_eq_true'] at hprimary
    by_cases htwin : ∃ index ∈ target.indexes, index.Same other
    · obtain ⟨index, hindex, hkey, hsql⟩ := htwin
      refine ⟨index, List.mem_append_left _ (mem_keptIndexes.mpr ⟨hindex, ?_, ?_⟩), hkey, hsql⟩
      · rw [IndexDefinition.primary_of_sql hsql, hprimary]
      · exact ⟨other, hmem, hkey.symm, hsql.symm⟩
    · exact ⟨other, List.mem_append_right _ (mem_addedIndexes.mpr ⟨hmem, hprimary, htwin⟩), rfl, rfl⟩

/-- The primary key becomes that of the source. -/
theorem applyAll_primaryKeyChanges (table : MysqlTable)
    (hprimary : table.primaryKey = target.table.primaryKey) :
    ∃ primaryKey, table.applyAll (primaryKeyChanges source target) = some { table with primaryKey } ∧
      primaryKey.map IndexDefinition.sql = source.table.primaryKey.map IndexDefinition.sql := by
  have hsame : ({ table with primaryKey := table.primaryKey } : MysqlTable) = table := rfl
  simp only [TableSnapshot.table] at hprimary ⊢
  unfold primaryKeyChanges
  split
  · rename_i sourcePrimary targetPrimary hsource htarget
    rw [htarget] at hprimary
    rw [hsource]
    split
    · refine ⟨some sourcePrimary, MysqlTable.applyAll_singleton ?_, rfl⟩
      simp [MysqlTable.apply, hprimary]
    · rename_i hsql
      refine ⟨some targetPrimary, ?_, by simpa using Eq.symm (not_not.mp hsql)⟩
      rw [← hprimary]
      rfl
  · rename_i sourcePrimary hsource htarget
    rw [htarget] at hprimary
    rw [hsource]
    refine ⟨some sourcePrimary, MysqlTable.applyAll_singleton ?_, rfl⟩
    simp [MysqlTable.apply, hprimary]
  · rename_i targetPrimary hsource htarget
    rw [htarget] at hprimary
    rw [hsource]
    refine ⟨none, MysqlTable.applyAll_singleton ?_, rfl⟩
    simp [MysqlTable.apply, hprimary]
  · rename_i hsource htarget
    rw [htarget] at hprimary
    rw [hsource]
    refine ⟨none, ?_, rfl⟩
    rw [← hprimary]
    rfl

end Indexes

/-! ## Columns -/

section Columns

variable {source target : TableSnapshot} {column : ColumnDefinition}

theorem findColumn_eq_some {columns : List ColumnDefinition}
    (hnodup : (columns.map ColumnDefinition.key).Nodup) :
    findColumn columns name = some column ↔ column ∈ columns ∧ column.key = foldName name :=
  find?_key_eq_some hnodup

theorem findColumn_eq_none {columns : List ColumnDefinition} :
    findColumn columns name = none ↔ foldName name ∉ columns.map ColumnDefinition.key :=
  find?_key_eq_none

/-- The column is one of the source. -/
def inSource (source : TableSnapshot) (column : ColumnDefinition) : Bool :=
  (findColumn source.columns column.name).isSome

theorem inSource_iff : inSource source column = true ↔
    column.key ∈ source.columns.map ColumnDefinition.key := by
  rw [inSource, Option.isSome_iff_ne_none, ne_eq, findColumn_eq_none, not_not]
  rfl

local instance lawfulKey : LawfulBEq (List Char) := inferInstance

/-- The columns of the target that the loop has still to reach. -/
def pending (target : TableSnapshot) (remaining : List ColumnDefinition) : List ColumnDefinition :=
  target.columns.filter fun column => decide (column.key ∈ remaining.map ColumnDefinition.key)

theorem pending_cons_of_absent {remaining : List ColumnDefinition}
    (habsent : column.key ∉ target.columns.map ColumnDefinition.key) :
    pending target (column :: remaining) = pending target remaining := by
  apply List.filter_congr
  intro other hother
  have hkey : other.key ≠ column.key := fun hkey => habsent (hkey ▸ List.mem_map_of_mem hother)
  simp [hkey]

/-- Of the pending columns the one that is reached is taken out. -/
theorem pending_cons_of_mem {remaining : List ColumnDefinition} {twin : ColumnDefinition}
    (htwin : twin ∈ target.columns) (hkey : twin.key = column.key)
    (hfresh : column.key ∉ remaining.map ColumnDefinition.key) :
    ∃ front back, pending target (column :: remaining) = front ++ twin :: back ∧
      pending target remaining = front ++ back := by
  obtain ⟨front, back, hsplit⟩ := List.append_of_mem htwin
  have hnames := target.columnNames
  rw [hsplit, List.map_append, List.map_cons, List.nodup_append, List.nodup_cons] at hnames
  have hfront : ∀ other ∈ front, other.key ≠ column.key := by
    intro other hother
    rw [← hkey]
    exact hnames.2.2 _ (List.mem_map_of_mem hother) _ List.mem_cons_self
  have hback : ∀ other ∈ back, other.key ≠ column.key := by
    intro other hother hsame
    have hrepeated := List.mem_map_of_mem (f := ColumnDefinition.key) hother
    rw [hsame, ← hkey] at hrepeated
    exact hnames.2.1.1 hrepeated
  have hsame : ∀ part : List ColumnDefinition, (∀ other ∈ part, other.key ≠ column.key) →
      part.filter (fun other =>
        decide (other.key ∈ (column :: remaining).map ColumnDefinition.key)) =
      part.filter fun other => decide (other.key ∈ remaining.map ColumnDefinition.key) := by
    intro part hpart
    apply List.filter_congr
    intro other hother
    simp [hpart other hother]
  refine ⟨front.filter fun other => decide (other.key ∈ remaining.map ColumnDefinition.key),
    back.filter fun other => decide (other.key ∈ remaining.map ColumnDefinition.key), ?_, ?_⟩
  · rw [pending, hsplit, List.filter_append, List.filter_cons_of_pos, hsame front hfront,
      hsame back hback]
    simp [hkey]
  · rw [pending, hsplit, List.filter_append, List.filter_cons_of_neg]
    simpa [hkey] using hfresh

/-! ## The order that is tracked -/

theorem findIdx?_split {name : String} {front back : List String} {found : String}
    (hfront : ∀ other ∈ front, foldName other ≠ foldName name)
    (hfound : foldName found = foldName name) :
    (front ++ found :: back).findIdx? (fun other => namesEqual other name) = some front.length := by
  rw [List.findIdx?_append, List.findIdx?_eq_none_iff.mpr]
  · simp [List.findIdx?_cons, namesEqual, hfound]
  · intro other hother
    simp [namesEqual, hfront other hother]

theorem findIdx?_absent {order : List String}
    (habsent : ∀ other ∈ order, foldName other ≠ foldName name) :
    order.findIdx? (fun other => namesEqual other name) = none := by
  apply List.findIdx?_eq_none_iff.mpr
  intro other hother
  simp [namesEqual, habsent other hother]

theorem nextOrder_of_absent {settled later : List String}
    (habsent : ∀ other ∈ settled ++ later, foldName other ≠ foldName name) :
    nextOrder (settled ++ later) settled.length name = settled ++ name :: later := by
  simp only [nextOrder, findIdx?_absent habsent, insertIdx_append_length]

theorem nextOrder_of_found {name : String} {settled front back : List String} {found : String}
    (hother : ∀ other ∈ settled ++ front, foldName other ≠ foldName name)
    (hfound : foldName found = foldName name) :
    nextOrder (settled ++ (front ++ found :: back)) settled.length name =
      settled ++ name :: (front ++ back) := by
  have hsplit : settled ++ (front ++ found :: back) = (settled ++ front) ++ found :: back := by simp
  rw [nextOrder, hsplit, findIdx?_split hother hfound]
  simp only
  rw [List.eraseIdx_append_of_length_le (Nat.le_refl _), Nat.sub_self, List.eraseIdx_cons_zero,
    List.append_assoc, insertIdx_append_length]

/-! ## The loop -/

/-- The columns before the position are settled, in the order of the source; behind them
come those that the target has for later ones. The others stand where they stood. -/
structure Placed (source target : TableSnapshot) (before remaining : List ColumnDefinition)
    (order : List String) (columns : List ColumnDefinition) : Prop where
  names : (columns.map ColumnDefinition.key).Nodup
  order : order.map foldName = (columns.filter (inSource source)).map ColumnDefinition.key
  others : columns.filter (fun column => !inSource source column) =
    target.columns.filter fun column => !inSource source column
  settled : ∃ settled, columns.filter (inSource source) = settled ++ pending target remaining ∧
    List.Forall₂ ColumnDefinition.Same settled before

theorem same_keys {settled before : List ColumnDefinition}
    (hsame : List.Forall₂ ColumnDefinition.Same settled before) :
    settled.map ColumnDefinition.key = before.map ColumnDefinition.key := by
  induction hsame with
  | nil => rfl
  | cons hhead _ ih => rw [List.map_cons, List.map_cons, hhead.1, ih]

theorem exists_same {columns others : List ColumnDefinition}
    (hsame : List.Forall₂ ColumnDefinition.Same columns others) :
    (∀ column ∈ columns, ∃ other ∈ others, column.Same other) ∧
      ∀ other ∈ others, ∃ column ∈ columns, other.Same column := by
  obtain ⟨hfirst, hsecond⟩ := exists_of_forall₂ hsame
  refine ⟨hfirst, fun other hother => ?_⟩
  obtain ⟨column, hcolumn, hkey, hsql⟩ := hsecond other hother
  exact ⟨column, hcolumn, hkey.symm, hsql.symm⟩

theorem same_last {settled before : List ColumnDefinition} {last : ColumnDefinition}
    (hsame : List.Forall₂ ColumnDefinition.Same settled (before ++ [last])) :
    ∃ first twin, settled = first ++ [twin] ∧ twin.Same last := by
  have hdrop := List.forall₂_drop_append settled before [last] hsame
  obtain ⟨twin, none, htwin, hnone, hsplit⟩ := List.forall₂_cons_right_iff.mp hdrop
  obtain rfl := List.forall₂_nil_right_iff.mp hnone
  refine ⟨settled.take before.length, twin, ?_, htwin⟩
  rw [← hsplit, List.take_append_drop]

theorem placed_start (source target : TableSnapshot) :
    Placed source target [] source.columns (currentOrder source target) target.columns := by
  have hpending : pending target source.columns = target.columns.filter (inSource source) := by
    apply List.filter_congr
    intro column _
    rw [Bool.eq_iff_iff, decide_eq_true_iff, inSource_iff]
  refine ⟨target.columnNames, ?_, rfl, [], by rw [hpending, List.nil_append], .nil⟩
  rw [currentOrder, List.map_map]
  rfl

variable {before remaining settled later : List ColumnDefinition} {columns : List ColumnDefinition}

/-- A column of the source goes behind the settled ones. -/
theorem place_settled (hsource : source.columns = before ++ column :: remaining)
    (hnames : (columns.map ColumnDefinition.key).Nodup)
    (hfilter : columns.filter (inSource source) = settled ++ later)
    (hsame : List.Forall₂ ColumnDefinition.Same settled before) :
    ∃ placed, (columnPosition source.columns before.length).place column columns = some placed ∧
      placed.filter (inSource source) = settled ++ column :: later ∧
      placed.filter (fun other => !inSource source other) =
        columns.filter (fun other => !inSource source other) ∧
      placed.Perm (column :: columns) := by
  have hcolumn : inSource source column = true := by
    rw [inSource_iff, hsource]
    simp
  rcases List.eq_nil_or_concat before with rfl | ⟨earlier, last, rfl⟩
  · obtain rfl := List.forall₂_nil_right_iff.mp hsame
    refine ⟨column :: columns, rfl, ?_, ?_, .refl _⟩
    · simpa [hcolumn] using hfilter
    · simp [hcolumn]
  · -- the column before it in the source is the last settled one
    rw [List.concat_eq_append] at hsame hsource
    obtain ⟨first, twin, rfl, htwin⟩ := same_last hsame
    rw [List.append_assoc, List.singleton_append] at hfilter
    obtain ⟨placed, hplaced, hselected, hothers, hperm⟩ :=
      insertAfter_selected (inSource source) hnames hcolumn hfilter
    refine ⟨placed, ?_, by simpa using hselected, hothers, hperm⟩
    rw [← hplaced, htwin.1, hsource]
    simp [columnPosition, ColumnPosition.place, ColumnDefinition.key]

theorem without_others (hcolumn : inSource source column = true) :
    without ColumnDefinition.key column.key
        (columns.filter fun other => !inSource source other) =
      columns.filter fun other => !inSource source other := by
  apply without_eq_self
  intro other hother hkey
  have hnot := (List.mem_filter.mp hother).2
  rw [inSource_iff.mpr (hkey ▸ inSource_iff.mp hcolumn)] at hnot
  cases hnot

section Step

variable {order : List String} {table : MysqlTable}

/-- A column that the target does not have is added. -/
theorem Placed.add (hplaced : Placed source target before (column :: remaining) order table.columns)
    (hsource : source.columns = before ++ column :: remaining)
    (habsent : column.key ∉ target.columns.map ColumnDefinition.key) :
    ∃ next, table.applyAll (columnChange source target order before.length column) =
        some { table with columns := next } ∧
      Placed source target (before ++ [column]) remaining
        (nextOrder order before.length column.name) next := by
  obtain ⟨hnames, horder, hothers, settled, hsettled, hsame⟩ := hplaced
  rw [pending_cons_of_absent habsent] at hsettled
  have hcolumn : inSource source column = true := by
    rw [inSource_iff, hsource]
    simp
  -- no settled or pending column has its name
  have hnew : ∀ other ∈ settled ++ pending target remaining, other.key ≠ column.key := by
    intro other hother hkey
    rcases List.mem_append.mp hother with hearlier | hlater
    · have hmem := List.mem_map_of_mem (f := ColumnDefinition.key) hearlier
      have hsourceNames := source.columnNames
      rw [hsource, List.map_append, List.map_cons, List.nodup_append] at hsourceNames
      rw [same_keys hsame] at hmem
      exact hsourceNames.2.2 _ hmem _ List.mem_cons_self hkey
    · exact habsent (hkey ▸ List.mem_map_of_mem (List.mem_filter.mp hlater).1)
  have hmissing : column.key ∉ table.columns.map ColumnDefinition.key := by
    intro hmem
    obtain ⟨other, hother, hkey⟩ := List.mem_map.mp hmem
    refine hnew other ?_ hkey
    rw [← hsettled, List.mem_filter, inSource_iff, hkey]
    exact ⟨hother, inSource_iff.mp hcolumn⟩
  obtain ⟨next, hplace, hselected, hkept, hperm⟩ :=
    place_settled hsource hnames hsettled hsame
  refine ⟨next, ?_, ?_, ?_, hkept.trans hothers, settled ++ [column], ?_, ?_⟩
  · have hfind : findColumn target.columns column.name = none := findColumn_eq_none.mpr habsent
    simp only [columnChange, hfind]
    apply MysqlTable.applyAll_singleton
    have hhas : table.hasColumn column.name = false := decide_eq_false hmissing
    simp [MysqlTable.apply, hhas, hplace]
  · exact (hperm.map _).nodup_iff.mpr (List.nodup_cons.mpr ⟨hmissing, hnames⟩)
  · rw [hsettled, List.map_append] at horder
    obtain ⟨first, rest, rfl, hfirst, hrest⟩ := List.map_eq_append_iff.mp horder
    have hlength : first.length = before.length := by
      rw [← hsame.length_eq, ← @List.length_map _ _ first foldName, hfirst, List.length_map]
    rw [← hlength, nextOrder_of_absent, hselected]
    · simp [hfirst, hrest, ColumnDefinition.key]
    · intro other hother hkey
      have hmem := List.mem_map_of_mem (f := foldName) hother
      rw [List.map_append, hfirst, hrest, ← List.map_append] at hmem
      obtain ⟨twin, htwin, htwinKey⟩ := List.mem_map.mp hmem
      exact hnew twin htwin (htwinKey.trans hkey)
  · rw [hselected]
    simp
  · exact List.rel_append hsame (.cons ⟨rfl, rfl⟩ .nil)

/-- A column that both have is moved and modified unless it stands where it should. -/
theorem Placed.keep (hplaced : Placed source target before (column :: remaining) order table.columns)
    (hsource : source.columns = before ++ column :: remaining) {twin : ColumnDefinition}
    (htwin : twin ∈ target.columns) (hkey : twin.key = column.key) :
    ∃ next, table.applyAll (columnChange source target order before.length column) =
        some { table with columns := next } ∧
      Placed source target (before ++ [column]) remaining
        (nextOrder order before.length column.name) next := by
  obtain ⟨hnames, horder, hothers, settled, hsettled, hsame⟩ := hplaced
  have hsourceNames := source.columnNames
  rw [hsource, List.map_append, List.map_cons, List.nodup_append, List.nodup_cons] at hsourceNames
  obtain ⟨front, back, hsplit, hrest⟩ := pending_cons_of_mem htwin hkey hsourceNames.2.1.1
  rw [hsplit] at hsettled
  have hcolumn : inSource source column = true := by
    rw [inSource_iff, hsource]
    simp
  -- the columns of the source in the table have keys of their own
  have hkeys := hnames.sublist
    ((List.filter_sublist (p := inSource source) (l := table.columns)).map ColumnDefinition.key)
  rw [hsettled, ← List.append_assoc, List.map_append, List.map_cons, List.nodup_append,
    List.nodup_cons] at hkeys
  have hfront : ∀ other ∈ settled ++ front, other.key ≠ column.key := by
    intro other hother
    rw [← hkey]
    exact hkeys.2.2 _ (List.mem_map_of_mem hother) _ List.mem_cons_self
  have hback : ∀ other ∈ back, other.key ≠ column.key := by
    intro other hother hsameKey
    have hmem := List.mem_map_of_mem (f := ColumnDefinition.key) hother
    rw [hsameKey, ← hkey] at hmem
    exact hkeys.2.1.1 hmem
  -- where the order has the column
  rw [hsettled, List.map_append, List.map_append, List.map_cons] at horder
  obtain ⟨first, rest, rfl, hfirst, hrestOrder⟩ := List.map_eq_append_iff.mp horder
  obtain ⟨middle, rest, rfl, hmiddle, hrestOrder⟩ := List.map_eq_append_iff.mp hrestOrder
  obtain ⟨found, last, rfl, hfound, hlast⟩ := List.map_eq_cons_iff.mp hrestOrder
  have hlength : first.length = before.length := by
    rw [← hsame.length_eq, ← @List.length_map _ _ first foldName, hfirst, List.length_map]
  have hfoundKey : foldName found = foldName column.name := hfound.trans hkey
  have hahead : ∀ other ∈ first ++ middle, foldName other ≠ foldName column.name := by
    intro other hother hsameKey
    have hmem := List.mem_map_of_mem (f := foldName) hother
    rw [List.map_append, hfirst, hmiddle, ← List.map_append] at hmem
    obtain ⟨earlier, hearlier, hearlierKey⟩ := List.mem_map.mp hmem
    exact hfront earlier hearlier (hearlierKey.trans hsameKey)
  have hposition : (first ++ (middle ++ found :: last)).findIdx?
      (fun other => namesEqual other column.name) = some (first ++ middle).length := by
    rw [← List.append_assoc]
    exact findIdx?_split hahead hfoundKey
  have hnext : (nextOrder (first ++ (middle ++ found :: last)) before.length column.name).map
      foldName = (settled ++ column :: (front ++ back)).map ColumnDefinition.key := by
    rw [← hlength, nextOrder_of_found hahead hfoundKey]
    simp [hfirst, hmiddle, hlast, ColumnDefinition.key]
  have hfind : findColumn target.columns column.name = some twin :=
    (findColumn_eq_some target.columnNames).mpr ⟨htwin, hkey⟩
  by_cases hstays : twin.comparisonSql = column.comparisonSql ∧ front = []
  · -- nothing is generated, and the column is settled where it stands
    obtain ⟨hcomparison, rfl⟩ := hstays
    have hnil : middle = [] := by simpa using hmiddle
    refine ⟨table.columns, ?_, hnames, ?_, hothers, settled ++ [twin], ?_, ?_⟩
    · have hnone : columnChange source target (first ++ (middle ++ found :: last)) before.length
          column = [] := by
        have hhere : (first ++ middle).length = before.length := by simp [hnil, hlength]
        simp [columnChange, hfind, hposition, hcomparison, hhere]
      rw [hnone]
      rfl
    · rw [hnext, hsettled]
      simp [hkey]
    · rw [hsettled, hrest]
      simp
    · exact List.rel_append hsame (.cons ⟨hkey, hcomparison⟩ .nil)
  · have hmodify : columnChange source target (first ++ (middle ++ found :: last)) before.length
        column = [.modifyColumn column (columnPosition source.columns before.length)] := by
      simp only [columnChange, hfind, hposition]
      rw [if_pos]
      by_contra hneither
      simp only [ne_eq, not_or, not_not, Option.some.injEq,
        List.length_append, hlength] at hneither
      apply hstays
      refine ⟨hneither.1, ?_⟩
      have hnone : middle = [] := List.eq_nil_of_length_eq_zero (by omega)
      rw [hnone] at hmiddle
      simpa using hmiddle.symm
    have hremoved : (without ColumnDefinition.key column.key table.columns).filter
        (inSource source) = settled ++ (front ++ back) := by
      rw [without_filter, hsettled, ← List.append_assoc, without_append_cons hkey,
        List.append_assoc]
      intro other hother
      rcases List.mem_append.mp hother with hother | hother
      · exact hfront other hother
      · exact hback other hother
    have hremovedNames : ((without ColumnDefinition.key column.key table.columns).map
        ColumnDefinition.key).Nodup :=
      hnames.sublist (List.filter_sublist.map _)
    obtain ⟨next, hplace, hselected, hkept, hperm⟩ :=
      place_settled hsource hremovedNames hremoved hsame
    refine ⟨next, ?_, ?_, ?_, ?_, settled ++ [column], ?_, ?_⟩
    · rw [hmodify]
      apply MysqlTable.applyAll_singleton
      have hhas : table.hasColumn column.name = true := by
        apply decide_eq_true
        have hmem : twin ∈ table.columns.filter (inSource source) := by
          rw [hsettled]
          simp
        change column.key ∈ table.columns.map ColumnDefinition.key
        rw [← hkey]
        exact List.mem_map_of_mem (List.mem_filter.mp hmem).1
      simp [MysqlTable.apply, hhas, hplace]
    · refine (hperm.map _).nodup_iff.mpr (List.nodup_cons.mpr ⟨?_, hremovedNames⟩)
      intro hmem
      obtain ⟨other, hother, hotherKey⟩ := List.mem_map.mp hmem
      exact (mem_without.mp hother).2 hotherKey
    · rw [hnext, hselected]
    · rw [hkept, without_filter, without_others hcolumn, hothers]
    · rw [hselected, hrest]
      simp
    · exact List.rel_append hsame (.cons ⟨rfl, rfl⟩ .nil)

theorem Placed.step (hplaced : Placed source target before (column :: remaining) order table.columns)
    (hsource : source.columns = before ++ column :: remaining) :
    ∃ next, table.applyAll (columnChange source target order before.length column) =
        some { table with columns := next } ∧
      Placed source target (before ++ [column]) remaining
        (nextOrder order before.length column.name) next := by
  by_cases hmem : column.key ∈ target.columns.map ColumnDefinition.key
  · obtain ⟨twin, htwin, hkey⟩ := List.mem_map.mp hmem
    exact hplaced.keep hsource htwin hkey
  · exact hplaced.add hsource hmem

end Step

theorem Placed.run {order : List String} (table : MysqlTable)
    (hplaced : Placed source target before remaining order table.columns)
    (hsource : source.columns = before ++ remaining) :
    ∃ last next, table.applyAll (columnChanges source target order before.length remaining) =
        some { table with columns := next } ∧
      Placed source target source.columns [] last next := by
  induction remaining generalizing before order table with
  | nil =>
    rw [List.append_nil] at hsource
    exact ⟨order, table.columns, rfl, hsource ▸ hplaced⟩
  | cons column remaining ih =>
    obtain ⟨middle, hfirst, hnext⟩ := hplaced.step hsource
    obtain ⟨last, next, hrest, hlast⟩ := ih { table with columns := middle } hnext
      (by simp [hsource])
    rw [List.length_append, List.length_singleton] at hrest
    exact ⟨last, next, MysqlTable.applyAll_append hfirst hrest, hlast⟩

theorem Placed.drop {order : List String} (table : MysqlTable)
    (hplaced : Placed source target source.columns [] order table.columns) :
    ∃ next, table.applyAll (columnDrops source target) = some { table with columns := next } ∧
      List.Forall₂ ColumnDefinition.Same next source.columns := by
  obtain ⟨hnames, _, hothers, settled, hsettled, hsame⟩ := hplaced
  have hnone : pending target [] = [] := by simp [pending]
  rw [hnone, List.append_nil] at hsettled
  have hdrops : (target.columns.filter fun column =>
      (findColumn source.columns column.name).isNone) =
      table.columns.filter fun column => !inSource source column := by
    rw [hothers]
    apply List.filter_congr
    intro column _
    rw [inSource, Option.not_isSome]
  have hrun := @MysqlTable.applyAll_dropColumns table
    (table.columns.filter fun column => !inSource source column)
    (hnames.sublist (List.filter_sublist.map _)) fun _ hmem => (List.mem_filter.mp hmem).1
  rw [withoutAll_filter hnames] at hrun
  simp only [Bool.not_not, hsettled] at hrun
  refine ⟨settled, ?_, hsame⟩
  rw [columnDrops, hdrops]
  exact hrun

end Columns

/-! ## The whole difference -/

theorem diffTableOptions_cases (source target : TableOptions) :
    diffTableOptions source target = [] ∨
      ∃ clauses, diffTableOptions source target = [.alterOptions clauses] := by
  unfold diffTableOptions
  extract_lets engine charset comment
  cases engine with
  | none => exact .inl rfl
  | some engine =>
    by_cases hnone : engine ++ charset ++ comment = []
    · exact .inl (if_pos hnone)
    · exact .inr ⟨engine ++ charset ++ comment, if_neg hnone⟩

theorem applyAll_diffTableOptions (table : MysqlTable) (source target : TableOptions) :
    table.applyAll (diffTableOptions source target) = some table := by
  rcases diffTableOptions_cases source target with hnone | ⟨clauses, hsome⟩
  · rw [hnone]
    rfl
  · rw [hsome]
    rfl

/-- The columns of the source in its order, its indexes and its primary key. -/
structure MysqlTable.Agrees (table source : MysqlTable) : Prop where
  columns : List.Forall₂ ColumnDefinition.Same table.columns source.columns
  indexNames : (table.indexes.map IndexDefinition.key).Nodup
  indexes : ∀ index ∈ table.indexes, ∃ other ∈ source.indexes, index.Same other
  allIndexes : ∀ other ∈ source.indexes, ∃ index ∈ table.indexes, index.Same other
  primaryKey : table.primaryKey.map IndexDefinition.sql = source.primaryKey.map IndexDefinition.sql

/-- What the statements of a difference leave of the target. -/
structure Migrated (source target : TableSnapshot) (table : MysqlTable) : Prop where
  columns : List.Forall₂ ColumnDefinition.Same table.columns source.columns
  indexes : table.indexes = keptIndexes source target ++ addedIndexes source target
  primaryKey : table.primaryKey.map IndexDefinition.sql =
    source.table.primaryKey.map IndexDefinition.sql

/-- The groups of statements run one after the other, each on what the groups before it left. -/
theorem applyAll_migrates (source target : TableSnapshot) :
    ∃ table, target.table.applyAll (diffExistingTable source target) = some table ∧
      Migrated source target table := by
  have hindexDrops := applyAll_indexDrops source target
  obtain ⟨order, columns, hcolumns, hplaced⟩ := (placed_start source target).run
    { target.table with indexes := keptIndexes source target } rfl
  have hindexAdds := @applyAll_indexAdds source target
    { target.table with indexes := keptIndexes source target, columns } rfl
  obtain ⟨primaryKey, hprimary, hsql⟩ := @applyAll_primaryKeyChanges source target
    { target.table with
      indexes := keptIndexes source target ++ addedIndexes source target, columns } rfl
  obtain ⟨next, hcolumnDrops, hsame⟩ := hplaced.drop
    { indexes := keptIndexes source target ++ addedIndexes source target, columns, primaryKey }
  have hrun := MysqlTable.applyAll_append hindexDrops (MysqlTable.applyAll_append hcolumns
    (MysqlTable.applyAll_append hindexAdds (MysqlTable.applyAll_append hprimary
      (MysqlTable.applyAll_append hcolumnDrops
        (applyAll_diffTableOptions _ source.options target.options)))))
  exact ⟨_, hrun, hsame, rfl, hsql⟩

/-- The indexes that were kept and those that were added are those of the source. -/
theorem Migrated.agrees {source target : TableSnapshot} {table : MysqlTable}
    (hmigrated : Migrated source target table) : table.Agrees source.table := by
  obtain ⟨hcolumns, hindexes, hprimary⟩ := hmigrated
  obtain ⟨hkept, hall⟩ := kept_added_same source target
  rw [← hindexes] at hkept hall
  exact ⟨hcolumns, hindexes ▸ nodup_kept_added source target, hkept, hall, hprimary⟩

/-- Every change succeeds where it is executed, and the target becomes the source. -/
theorem diffExistingTable_converges (source target : TableSnapshot) :
    ∃ table, target.table.applyAll (diffExistingTable source target) = some table ∧
      table.Agrees source.table := by
  obtain ⟨table, hrun, hmigrated⟩ := applyAll_migrates source target
  exact ⟨table, hrun, hmigrated.agrees⟩

end Chat2DB.Schema
