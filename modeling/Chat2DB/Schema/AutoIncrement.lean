import Chat2DB.Schema.Convergence

/-! # Keys of AUTO_INCREMENT columns

MySQL refuses a table with an AUTO_INCREMENT column that is not the first column of a key.
The statements of a difference are executed one by one, so this counts for each table in
between. The primary key of the target stays until the columns are those of the source, and
so do the indexes that both tables have; the other indexes come too late or go too early.
-/

namespace Chat2DB.Schema

/-- What the server reads in the definitions. A redundant character set says nothing about
AUTO_INCREMENT. -/
structure Reading where
  autoIncrement : ColumnDefinition → Bool
  /-- The key of the first column of an index. -/
  leading : IndexDefinition → List Char
  auto_of_same : ∀ column other, column.Same other → autoIncrement column = autoIncrement other
  leading_of_sql : ∀ index other : IndexDefinition, index.sql = other.sql →
    leading index = leading other

namespace Reading

variable (reading : Reading)

/-- One of the keys begins with the column. -/
def Leads (keys : List IndexDefinition) (column : ColumnDefinition) : Prop :=
  ∃ index ∈ keys, reading.leading index = column.key

/-- Each AUTO_INCREMENT column is the first column of a key. -/
def AllKeyed (keys : List IndexDefinition) (columns : List ColumnDefinition) : Prop :=
  ∀ column ∈ columns, reading.autoIncrement column = true → reading.Leads keys column

instance (keys : List IndexDefinition) (columns : List ColumnDefinition) :
    Decidable (reading.AllKeyed keys columns) :=
  inferInstanceAs (Decidable (∀ column ∈ columns, reading.autoIncrement column = true →
    ∃ index ∈ keys, reading.leading index = column.key))

end Reading

/-- The indexes with the primary key. -/
def MysqlTable.keys (table : MysqlTable) : List IndexDefinition :=
  table.indexes ++ table.primaryKey.toList

/-- The keys that are there while the columns change. -/
def lastingKeys (source target : TableSnapshot) : List IndexDefinition :=
  keptIndexes source target ++ target.table.primaryKey.toList

def Reading.Keyed (reading : Reading) (table : MysqlTable) : Prop :=
  reading.AllKeyed table.keys table.columns

instance (reading : Reading) (table : MysqlTable) : Decidable (reading.Keyed table) :=
  inferInstanceAs (Decidable (reading.AllKeyed table.keys table.columns))

/-- The columns of both tables have a key that lasts, and those that are dropped at the end
have one in the source as well. -/
structure Reading.Covered (reading : Reading) (source target : TableSnapshot) : Prop where
  lasting : reading.AllKeyed (lastingKeys source target) (source.columns ++ target.columns)
  dropped : reading.AllKeyed source.table.keys
    (target.columns.filter fun column => !inSource source column)

namespace Reading

variable {reading : Reading} {keys others : List IndexDefinition}
  {columns : List ColumnDefinition} {source target : TableSnapshot}

theorem AllKeyed.columns_subset {fewer : List ColumnDefinition}
    (hkeyed : reading.AllKeyed keys columns) (hsubset : fewer ⊆ columns) :
    reading.AllKeyed keys fewer :=
  fun column hcolumn => hkeyed column (hsubset hcolumn)

theorem allKeyed_append {more : List ColumnDefinition} :
    reading.AllKeyed keys (columns ++ more) ↔
      reading.AllKeyed keys columns ∧ reading.AllKeyed keys more :=
  List.forall_mem_append

theorem AllKeyed.of_sql (hkeyed : reading.AllKeyed keys columns)
    (hkeys : ∀ index ∈ keys, ∃ other ∈ others, other.sql = index.sql) :
    reading.AllKeyed others columns := by
  intro column hcolumn hauto
  obtain ⟨index, hindex, hleading⟩ := hkeyed column hcolumn hauto
  obtain ⟨other, hother, hsql⟩ := hkeys index hindex
  exact ⟨other, hother, (reading.leading_of_sql other index hsql).trans hleading⟩

theorem AllKeyed.of_same {twins : List ColumnDefinition} (hkeyed : reading.AllKeyed keys columns)
    (htwins : ∀ twin ∈ twins, ∃ column ∈ columns, twin.Same column) :
    reading.AllKeyed keys twins := by
  intro twin htwin hauto
  obtain ⟨column, hcolumn, hsame⟩ := htwins twin htwin
  rw [reading.auto_of_same twin column hsame] at hauto
  obtain ⟨index, hindex, hleading⟩ := hkeyed column hcolumn hauto
  exact ⟨index, hindex, hleading.trans hsame.1.symm⟩

theorem AllKeyed.keys_subset (hkeyed : reading.AllKeyed keys columns) (hsubset : keys ⊆ others) :
    reading.AllKeyed others columns :=
  hkeyed.of_sql fun index hindex => ⟨index, hsubset hindex, rfl⟩

/-! ## The parts of a difference -/

theorem throughout_indexDrops :
    Machine.Throughout reading.Keyed MysqlTable.apply target.table (indexDrops source target) ↔
      reading.AllKeyed (lastingKeys source target) target.columns := by
  have hrun := applyAll_indexDrops source target
  constructor
  · intro hthroughout
    exact hthroughout.last hrun
  · intro hkeyed
    have hlast : reading.Keyed { target.table with indexes := keptIndexes source target } := hkeyed
    refine Machine.throughout_of_last hrun hlast ?_
    intro change hchange before after hafter hlater
    obtain ⟨index, -, rfl⟩ := List.mem_map.mp hchange
    simp only [MysqlTable.apply] at hafter
    split_ifs at hafter
    obtain rfl := Option.some.inj hafter
    apply AllKeyed.keys_subset hlater
    apply List.append_subset.mpr ⟨?_, List.subset_append_right _ _⟩
    intro other hother
    exact List.mem_append_left _ (Placement.mem_without.mp hother).1

theorem columnChange_cases (source target : TableSnapshot) (order : List String) (position : Nat)
    (column : ColumnDefinition) :
    columnChange source target order position column =
        [.addColumn column (columnPosition source.columns position)] ∨
      columnChange source target order position column =
        [.modifyColumn column (columnPosition source.columns position)] ∨
      columnChange source target order position column = [] := by
  unfold columnChange
  extract_lets positionChanged place
  cases findColumn target.columns column.name with
  | none => exact .inl rfl
  | some targetColumn =>
    by_cases hchanged : targetColumn.comparisonSql ≠ column.comparisonSql ∨ positionChanged
    · exact .inr (.inl (if_pos hchanged))
    · exact .inr (.inr (if_neg hchanged))

theorem mem_columnChanges {order : List String} {position : Nat}
    {remaining : List ColumnDefinition} {change : TableChange}
    (hchange : change ∈ columnChanges source target order position remaining) :
    ∃ column ∈ remaining, ∃ place,
      change = .addColumn column place ∨ change = .modifyColumn column place := by
  induction remaining generalizing order position with
  | nil => cases hchange
  | cons column remaining ih =>
    rcases List.mem_append.mp hchange with hhere | hlater
    · refine ⟨column, List.mem_cons_self, columnPosition source.columns position, ?_⟩
      rcases columnChange_cases source target order position column with hadd | hmodify | hnone
      · rw [hadd] at hhere
        exact .inl (List.mem_singleton.mp hhere)
      · rw [hmodify] at hhere
        exact .inr (List.mem_singleton.mp hhere)
      · rw [hnone] at hhere
        cases hhere
    · obtain ⟨other, hother, hcases⟩ := ih hlater
      exact ⟨other, List.mem_cons_of_mem _ hother, hcases⟩

theorem place_subset {place : ColumnPosition} {column : ColumnDefinition}
    {placed : List ColumnDefinition} (hplaced : place.place column columns = some placed) :
    placed ⊆ column :: columns := by
  cases place with
  | first =>
    obtain rfl := Option.some.inj hplaced
    exact List.Subset.refl _
  | after name => exact Placement.insertAfter_subset hplaced

/-- Only the columns change, to columns of the source. -/
theorem throughout_columnChanges {table : MysqlTable} {order : List String}
    (hbefore : reading.AllKeyed table.keys table.columns)
    (hsource : reading.AllKeyed table.keys source.columns) :
    Machine.Throughout reading.Keyed MysqlTable.apply table
      (columnChanges source target order 0 source.columns) := by
  have hkept : Machine.Throughout
      (fun state => state.keys = table.keys ∧ reading.AllKeyed table.keys state.columns)
      MysqlTable.apply table (columnChanges source target order 0 source.columns) := by
    refine Machine.throughout_of_start ⟨rfl, hbefore⟩ ?_
    rintro change hchange before after hafter ⟨hkeys, hcolumns⟩
    obtain ⟨column, hcolumn, place, rfl | rfl⟩ := mem_columnChanges hchange
    · simp only [MysqlTable.apply] at hafter
      split_ifs at hafter
      obtain ⟨placed, hplaced, rfl⟩ := Option.map_eq_some_iff.mp hafter
      refine ⟨hkeys, fun other hother => ?_⟩
      rcases List.mem_cons.mp (place_subset hplaced hother) with rfl | hother
      · exact hsource other hcolumn
      · exact hcolumns other hother
    · simp only [MysqlTable.apply] at hafter
      split_ifs at hafter
      obtain ⟨placed, hplaced, rfl⟩ := Option.map_eq_some_iff.mp hafter
      refine ⟨hkeys, fun other hother => ?_⟩
      rcases List.mem_cons.mp (place_subset hplaced hother) with rfl | hother
      · exact hsource other hcolumn
      · exact hcolumns other (Placement.mem_without.mp hother).1
  refine Machine.Throughout.imp hkept ?_
  rintro state ⟨hkeys, hcolumns⟩
  unfold Keyed
  rw [hkeys]
  exact hcolumns

theorem throughout_indexAdds {table : MysqlTable} (hkeyed : reading.Keyed table) :
    Machine.Throughout reading.Keyed MysqlTable.apply table (indexAdds source target) := by
  apply Machine.throughout_of_start hkeyed
  intro change hchange before after hafter hearlier
  obtain ⟨index, -, rfl⟩ := List.mem_map.mp hchange
  simp only [MysqlTable.apply] at hafter
  split_ifs at hafter
  obtain rfl := Option.some.inj hafter
  apply AllKeyed.keys_subset hearlier
  apply List.append_subset.mpr ⟨?_, List.subset_append_right _ _⟩
  intro other hother
  exact List.mem_append_left _ (List.mem_append_left _ hother)

theorem length_primaryKeyChanges : (primaryKeyChanges source target).length ≤ 1 := by
  unfold primaryKeyChanges
  split
  · split_ifs
    · exact Nat.le_refl _
    · exact Nat.zero_le _
  · exact Nat.le_refl _
  · exact Nat.le_refl _
  · exact Nat.zero_le _

theorem throughout_columnDrops {table : MysqlTable} (hkeyed : reading.Keyed table) :
    Machine.Throughout reading.Keyed MysqlTable.apply table
      (columnDrops source target ++ diffTableOptions source.options target.options) := by
  apply Machine.throughout_of_start hkeyed
  intro change hchange before after hafter hearlier
  rcases List.mem_append.mp hchange with hdrop | hoptions
  · obtain ⟨column, -, rfl⟩ := List.mem_map.mp hdrop
    simp only [MysqlTable.apply] at hafter
    split_ifs at hafter
    obtain rfl := Option.some.inj hafter
    apply AllKeyed.columns_subset hearlier
    intro other hother
    exact (Placement.mem_without.mp hother).1
  · rcases diffTableOptions_cases source.options target.options with hnone | ⟨clauses, hsome⟩
    · rw [hnone] at hoptions
      cases hoptions
    · rw [hsome] at hoptions
      obtain rfl := List.mem_singleton.mp hoptions
      obtain rfl := Option.some.inj hafter
      exact hearlier

end Reading

/-! ## The whole difference -/

section Difference

variable {source target : TableSnapshot} {columns : List ColumnDefinition} {order : List String}

theorem Placed.others_subset (hplaced : Placed source target source.columns [] order columns) :
    (target.columns.filter fun column => !inSource source column) ⊆ columns := by
  rw [← hplaced.others]
  exact fun column hcolumn => (List.mem_filter.mp hcolumn).1

theorem Placed.settled_all (hplaced : Placed source target source.columns [] order columns) :
    List.Forall₂ ColumnDefinition.Same (columns.filter (inSource source)) source.columns := by
  obtain ⟨settled, hsettled, hsame⟩ := hplaced.settled
  have hnone : pending target [] = [] := by simp [pending]
  rw [hsettled, hnone, List.append_nil]
  exact hsame

theorem Placed.twins (hplaced : Placed source target source.columns [] order columns) :
    ∀ column ∈ source.columns, ∃ twin ∈ columns, column.Same twin := by
  intro column hcolumn
  obtain ⟨twin, htwin, hsame⟩ := (exists_same hplaced.settled_all).2 column hcolumn
  exact ⟨twin, (List.mem_filter.mp htwin).1, hsame⟩

/-- At the end the keys are those of the source. -/
theorem source_keys {primaryKey : Option IndexDefinition}
    (hsql : primaryKey.map IndexDefinition.sql = source.table.primaryKey.map IndexDefinition.sql) :
    (∀ index ∈ keptIndexes source target ++ addedIndexes source target ++ primaryKey.toList,
      ∃ other ∈ source.table.keys, other.sql = index.sql) ∧
    ∀ other ∈ source.table.keys,
      ∃ index ∈ keptIndexes source target ++ addedIndexes source target ++ primaryKey.toList,
        index.sql = other.sql := by
  obtain ⟨hindexes, hall⟩ := kept_added_same source target
  constructor
  · intro index hindex
    rcases List.mem_append.mp hindex with hindex | hprimary
    · obtain ⟨other, hother, -, hsame⟩ := hindexes index hindex
      exact ⟨other, List.mem_append_left _ hother, hsame.symm⟩
    · rw [Option.mem_toList] at hprimary
      rw [hprimary, Option.map_some, eq_comm, Option.map_eq_some_iff] at hsql
      obtain ⟨other, hother, hsame⟩ := hsql
      exact ⟨other, List.mem_append_right _ (Option.mem_toList.mpr hother), hsame⟩
  · intro other hother
    rcases List.mem_append.mp hother with hother | hprimary
    · obtain ⟨index, hindex, -, hsame⟩ := hall other hother
      exact ⟨index, List.mem_append_left _ hindex, hsame⟩
    · rw [Option.mem_toList] at hprimary
      rw [hprimary, Option.map_some, Option.map_eq_some_iff] at hsql
      obtain ⟨index, hindex, hsame⟩ := hsql
      exact ⟨index, List.mem_append_right _ (Option.mem_toList.mpr hindex), hsame⟩

end Difference

/-- Each table in between has its AUTO_INCREMENT columns keyed if and only if lasting keys
cover those of both tables, and keys of the source those that are dropped. -/
theorem diffExistingTable_keyed_iff (reading : Reading) (source target : TableSnapshot)
    (hsource : reading.Keyed source.table) :
    Machine.Throughout reading.Keyed MysqlTable.apply target.table
      (diffExistingTable source target) ↔ reading.Covered source target := by
  -- the table after each of the phases, in the order of the statements
  let unindexed : MysqlTable := { target.table with indexes := keptIndexes source target }
  have hindexDrops : target.table.applyAll (indexDrops source target) = some unindexed :=
    applyAll_indexDrops source target
  obtain ⟨order, columns, hcolumns, hplaced⟩ := (placed_start source target).run unindexed rfl
  let placed : MysqlTable := { unindexed with columns }
  have hcolumnChanges : unindexed.applyAll
      (columnChanges source target (currentOrder source target) 0 source.columns) = some placed :=
    hcolumns
  let indexed : MysqlTable :=
    { placed with indexes := keptIndexes source target ++ addedIndexes source target }
  have hindexAdds : placed.applyAll (indexAdds source target) = some indexed :=
    applyAll_indexAdds placed rfl
  obtain ⟨primaryKey, hprimary, hsql⟩ := @applyAll_primaryKeyChanges source target indexed rfl
  let keyed : MysqlTable := { indexed with primaryKey }
  have hprimaryKey : indexed.applyAll (primaryKeyChanges source target) = some keyed := hprimary
  have hkeys := @source_keys source target primaryKey hsql
  rw [diffExistingTable, Machine.throughout_append hindexDrops,
    Machine.throughout_append hcolumnChanges, Machine.throughout_append hindexAdds,
    Machine.throughout_append hprimaryKey, Reading.throughout_indexDrops]
  constructor
  · rintro ⟨hfirst, hsecond, -, hfourth, -⟩
    have hmiddle : reading.AllKeyed (lastingKeys source target) columns :=
      hsecond.last hcolumnChanges
    have hlast : reading.AllKeyed keyed.keys columns := hfourth.last hprimaryKey
    constructor
    · rw [Reading.allKeyed_append]
      exact ⟨hmiddle.of_same hplaced.twins, hfirst⟩
    · exact (hlast.of_sql hkeys.1).columns_subset hplaced.others_subset
  · rintro ⟨hlasting, hdropped⟩
    obtain ⟨hlastingSource, hlastingTarget⟩ := Reading.allKeyed_append.mp hlasting
    have hsecond := @Reading.throughout_columnChanges reading source target unindexed
      (currentOrder source target) hlastingTarget hlastingSource
    have hthird := @Reading.throughout_indexAdds reading source target placed
      (hsecond.last hcolumnChanges)
    have hlast : reading.Keyed keyed := by
      have hown := (hsource.of_sql hkeys.2).of_same (exists_same hplaced.settled_all).1
      have hothers := hdropped.of_sql hkeys.2
      rw [← hplaced.others] at hothers
      intro column hcolumn
      by_cases hinside : inSource source column = true
      · exact hown column (List.mem_filter.mpr ⟨hcolumn, hinside⟩)
      · exact hothers column (List.mem_filter.mpr ⟨hcolumn, by simpa using hinside⟩)
    exact ⟨hlastingTarget, hsecond, hthird,
      Machine.throughout_of_ends Reading.length_primaryKeyChanges hprimaryKey
        (hthird.last hindexAdds) hlast,
      Reading.throughout_columnDrops hlast⟩

/-- A reading of the definitions that SHOW CREATE TABLE gives: the attribute stands at the
end of a column, the first column of an index follows the parenthesis. -/
def shownReading : Reading where
  autoIncrement column := column.comparisonSql.toList.reverse.take 14 = "AUTO_INCREMENT".toList.reverse
  leading index :=
    (((index.sql.toList.dropWhile (· ≠ '(')).drop 2).takeWhile (· ∉ "`".toList)).map Char.toLower
  auto_of_same column other hsame := by rw [hsame.2]
  leading_of_sql index other hsql := by rw [hsql]

def idColumn : ColumnDefinition where
  name := "id"
  sql := "`id` bigint NOT NULL AUTO_INCREMENT"
  comparisonSql := "`id` bigint NOT NULL AUTO_INCREMENT"

def idIndex : IndexDefinition where
  name := "idx_id"
  sql := "KEY `idx_id` (`id`)"
  primary := false
  marked := by decide

def idPrimaryKey : IndexDefinition where
  name := "PRIMARY"
  sql := "PRIMARY KEY (`id`)"
  primary := true
  marked := by decide

def plainOptions : TableOptions :=
  { engine := some "InnoDB", charset := none, collation := none, comment := none }

def indexedItems : TableSnapshot where
  columns := [idColumn]
  indexes := [idIndex]
  options := plainOptions
  columnNames := by decide
  indexNames := by decide

def primaryItems : TableSnapshot where
  columns := [idColumn]
  indexes := [idPrimaryKey]
  options := plainOptions
  columnNames := by decide
  indexNames := by decide

/-- An index becomes the primary key, and is dropped before it does. -/
theorem indexToPrimaryKey_unkeyed :
    shownReading.Keyed primaryItems.table ∧ shownReading.Keyed indexedItems.table ∧
      ¬Machine.Throughout shownReading.Keyed MysqlTable.apply indexedItems.table
        (diffExistingTable primaryItems indexedItems) := by
  refine ⟨by decide, by decide, fun hthroughout => ?_⟩
  have hunkeyed := hthroughout [.dropIndex "idx_id"] ⟨[.addPrimaryKey idPrimaryKey], rfl⟩ _ rfl
  revert hunkeyed
  decide

/-- The primary key lasts while the index is dropped. -/
theorem primaryKeyOnly_keyed :
    Machine.Throughout shownReading.Keyed MysqlTable.apply
      { columns := [idColumn], indexes := [idIndex], primaryKey := some idPrimaryKey }
      [.dropIndex "idx_id"] := by
  have hcovered := (diffExistingTable_keyed_iff shownReading primaryItems
    { primaryItems with indexes := [idIndex, idPrimaryKey], indexNames := by decide }
    (by decide)).mpr ⟨by decide, by decide⟩
  exact hcovered

end Chat2DB.Schema
