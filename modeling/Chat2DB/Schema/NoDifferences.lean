import Chat2DB.Schema.Convergence
import Chat2DB.Schema.ForeignKeys

/-! # No differences

When the statements of a difference were applied to a table, nothing but its options is left to
generate: every other part of the difference is empty, each for its own reason.
-/

namespace Chat2DB.Schema

/-! ## Columns, indexes and the primary key -/

section Tables

variable {source target : TableSnapshot}

theorem columnChange_eq_nil {order : List String} {position : Nat} {column : ColumnDefinition}
    {twin : ColumnDefinition} (htwin : twin ∈ target.columns) (hsame : twin.Same column)
    (hposition : order.findIdx? (fun name => namesEqual name column.name) = some position) :
    columnChange source target order position column = [] := by
  have hfind : findColumn target.columns column.name = some twin :=
    (findColumn_eq_some target.columnNames).mpr ⟨htwin, hsame.1⟩
  simp [columnChange, hfind, hposition, hsame.2]

/-- The order that is tracked is that of the source from the beginning. -/
theorem columnChanges_eq_nil {before remaining : List ColumnDefinition} {order : List String}
    (hsource : source.columns = before ++ remaining)
    (horder : order.map foldName = source.columns.map ColumnDefinition.key)
    (htwins : ∀ column ∈ source.columns, ∃ twin ∈ target.columns, twin.Same column) :
    columnChanges source target order before.length remaining = [] := by
  induction remaining generalizing before order with
  | nil => rfl
  | cons column remaining ih =>
    obtain ⟨twin, htwin, hsame⟩ := htwins column (by simp [hsource])
    have hsplit := horder
    rw [hsource, List.map_append, List.map_cons] at hsplit
    obtain ⟨front, others, rfl, hfront, hothers⟩ := List.map_eq_append_iff.mp hsplit
    obtain ⟨found, back, rfl, hfound, hback⟩ := List.map_eq_cons_iff.mp hothers
    have hlength : front.length = before.length := by
      rw [← List.length_map foldName, hfront, List.length_map]
    have hnames := source.columnNames
    rw [hsource, List.map_append, List.map_cons, List.nodup_append] at hnames
    have hfresh : ∀ other ∈ front, foldName other ≠ foldName column.name := by
      intro other hother
      have hmem := List.mem_map_of_mem (f := foldName) hother
      rw [hfront] at hmem
      exact hnames.2.2 _ hmem _ List.mem_cons_self
    have hposition := @findIdx?_split column.name front back found hfresh hfound
    have hnext : nextOrder (front ++ found :: back) before.length column.name =
        front ++ column.name :: back := by
      have hmoved := @nextOrder_of_found column.name front [] back found (by simpa using hfresh)
        hfound
      simpa [hlength] using hmoved
    rw [hlength] at hposition
    rw [columnChanges, columnChange_eq_nil htwin hsame hposition, hnext, List.nil_append]
    have hrest := @ih (before ++ [column]) (front ++ column.name :: back) (by simp [hsource])
      (by rw [List.map_append, List.map_cons, hfront, hback, hsource]; simp; rfl)
    simpa using hrest

theorem columnDrops_eq_nil
    (htwins : ∀ column ∈ target.columns, ∃ other ∈ source.columns, column.Same other) :
    columnDrops source target = [] := by
  unfold columnDrops
  rw [List.map_eq_nil_iff, List.filter_eq_nil_iff]
  intro column hcolumn hnone
  obtain ⟨other, hother, hsame⟩ := htwins column hcolumn
  rw [Option.isNone_iff_eq_none, findColumn_eq_none] at hnone
  apply hnone
  rw [show foldName column.name = other.key from hsame.1]
  exact List.mem_map_of_mem hother

theorem filter_indexChanged_eq_nil {indexes others : List IndexDefinition}
    (hnodup : (others.map IndexDefinition.key).Nodup)
    (htwins : ∀ index ∈ indexes, ∃ other ∈ others, other.Same index) :
    indexes.filter (indexChanged others) = [] := by
  rw [List.filter_eq_nil_iff]
  intro index hindex
  rw [(indexChanged_eq_false hnodup).mpr (htwins index hindex)]
  exact Bool.false_ne_true

theorem primaryKeyChanges_eq_nil (hsame : target.table.primaryKey.map IndexDefinition.sql =
    source.table.primaryKey.map IndexDefinition.sql) : primaryKeyChanges source target = [] := by
  simp only [TableSnapshot.table] at hsame
  unfold primaryKeyChanges
  cases hsource : source.indexes.find? IndexDefinition.primary with
  | none =>
    rw [hsource, Option.map_none, Option.map_eq_none_iff] at hsame
    simp [hsame]
  | some index =>
    rw [hsource, Option.map_some, Option.map_eq_some_iff] at hsame
    obtain ⟨other, hother, hsql⟩ := hsame
    simp [hother, hsql]

/-- Nothing but the options is generated for tables that agree. -/
theorem diffExistingTable_of_agrees (hagrees : target.table.Agrees source.table) :
    diffExistingTable source target = diffTableOptions source.options target.options := by
  have hcolumns : List.Forall₂ ColumnDefinition.Same target.columns source.columns :=
    hagrees.columns
  have hkeys := same_keys hcolumns
  have hcurrent : (currentOrder source target).map foldName =
      source.columns.map ColumnDefinition.key := by
    have hall : target.columns.filter (inSource source) = target.columns := by
      rw [List.filter_eq_self]
      intro column hcolumn
      rw [inSource_iff, ← hkeys]
      exact List.mem_map_of_mem hcolumn
    rw [currentOrder, List.map_map, ← hkeys]
    exact congrArg (List.map ColumnDefinition.key) hall
  have hdrops : indexDrops source target = [] := by
    rw [indexDrops, filter_indexChanged_eq_nil source.indexNames, List.map_nil]
    intro index hindex
    obtain ⟨other, hother, hsame⟩ := hagrees.indexes index hindex
    exact ⟨other, (List.mem_filter.mp hother).1, hsame.1.symm, hsame.2.symm⟩
  have hadds : indexAdds source target = [] := by
    rw [indexAdds, filter_indexChanged_eq_nil target.indexNames, List.map_nil]
    intro index hindex
    obtain ⟨other, hother, hsame⟩ := hagrees.allIndexes index hindex
    exact ⟨other, (List.mem_filter.mp hother).1, hsame⟩
  have htwins : ∀ column ∈ source.columns, ∃ twin ∈ target.columns, twin.Same column := by
    intro column hcolumn
    obtain ⟨twin, htwin, hsame⟩ := (exists_same hcolumns).2 column hcolumn
    exact ⟨twin, htwin, hsame.1.symm, hsame.2.symm⟩
  have hchanges : columnChanges source target (currentOrder source target) 0 source.columns = [] :=
    @columnChanges_eq_nil source target [] source.columns _ rfl hcurrent htwins
  have hgone : columnDrops source target = [] := columnDrops_eq_nil (exists_same hcolumns).1
  rw [diffExistingTable, hdrops, hchanges, hadds, primaryKeyChanges_eq_nil hagrees.primaryKey, hgone]
  rfl

end Tables

/-! ## The same migration once more -/

theorem optionEqIgnoreAsciiCase_self (value : Option String) :
    optionEqIgnoreAsciiCase value value = true := by
  cases value with
  | none => rfl
  | some value => simp [optionEqIgnoreAsciiCase, namesEqual]

theorem diffTableOptions_self (options : TableOptions) : diffTableOptions options options = [] := by
  simp [diffTableOptions, optionEqIgnoreAsciiCase_self]

/-- A table that the statements of a difference were applied to differs in its options only, and
with the options of the source nothing is left to do. -/
theorem diffExistingTable_settles {source target migrated : TableSnapshot}
    (hmigrated : target.table.applyAll (diffExistingTable source target) = some migrated.table) :
    diffExistingTable source migrated = diffTableOptions source.options migrated.options ∧
      (migrated.options = source.options → diffExistingTable source migrated = []) := by
  obtain ⟨table, htable, hleft⟩ := applyAll_migrates source target
  obtain rfl := Option.some.inj (htable.symm.trans hmigrated)
  have honly := diffExistingTable_of_agrees hleft.agrees
  refine ⟨honly, fun hoptions => ?_⟩
  rw [honly, hoptions, diffTableOptions_self]

def itemsColumn : ColumnDefinition :=
  { name := "id", sql := "`id` bigint", comparisonSql := "`id` bigint" }

theorem itemsColumn_names : ([itemsColumn].map ColumnDefinition.key).Nodup :=
  List.nodup_singleton _

theorem noIndex_names : (([] : List IndexDefinition).map IndexDefinition.key).Nodup :=
  List.nodup_nil

theorem noForeignKey_names :
    (([] : List ForeignKeyDefinition).map ForeignKeyDefinition.key).Nodup :=
  List.nodup_nil

def itemsTable (options : TableOptions) : SnapshotTable where
  columns := [itemsColumn]
  indexes := []
  options := options
  columnNames := itemsColumn_names
  indexNames := noIndex_names
  createSqlWithoutForeignKeys := []
  foreignKeys := []
  foreignKeyNames := noForeignKey_names

def shownOptions : TableOptions :=
  { engine := some "innodb", charset := some "utf8mb4", collation := none, comment := none }

/-- The column has another name, so that one is added and one dropped. -/
def renamedItems : TableSnapshot :=
  ⟨[{ itemsColumn with name := "sku" }], [], shownOptions, List.nodup_singleton _, noIndex_names⟩

theorem renamedItems_settles :
    (∃ added dropped, diffExistingTable (itemsTable shownOptions).toTableSnapshot renamedItems =
      [added, dropped]) ∧
      diffExistingTable (itemsTable shownOptions).toTableSnapshot
        (itemsTable shownOptions).toTableSnapshot = [] :=
  ⟨⟨_, _, rfl⟩, (@diffExistingTable_settles _ renamedItems _ rfl).2 rfl⟩

end Chat2DB.Schema
