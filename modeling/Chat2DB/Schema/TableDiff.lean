import Chat2DB.Base.Machine
import Chat2DB.Base.Placement

/-! # The difference of two tables

The statements that `diff_existing_table` generates for the columns, indexes and options
of a table, and what they mean to a table. The text of a statement is kept apart from
its parts. Foreign keys, whose statements form two lists of their own, are left out.
-/

namespace Chat2DB.Schema

/-! ## Names -/

/-- The name without regard to the case of ASCII letters. -/
def foldName (name : String) : List Char := name.toList.map Char.toLower

def namesEqual (left right : String) : Bool := decide (foldName left = foldName right)

/-- Between backticks, with every backtick of the name doubled. -/
def quoteIdentifier (value : String) : String :=
  "`" ++ value.replace "`" "``" ++ "`"

def optionEqIgnoreAsciiCase (left right : Option String) : Bool :=
  match left, right with
  | some left, some right => namesEqual left right
  | none, none => true
  | _, _ => false

/-- `has_ascii_prefix`, for an ASCII prefix. -/
def hasAsciiPrefix (value start : String) : Bool :=
  decide ((foldName value).take start.toList.length = foldName start)

/-! ## Snapshots -/

/-- `comparisonSql` is `sql` without the redundant form of a character set. -/
structure ColumnDefinition where
  name : String
  sql : String
  comparisonSql : String
deriving DecidableEq

structure IndexDefinition where
  name : String
  sql : String
  primary : Bool
  /-- The definitions that begin so are the primary keys. -/
  marked : primary = hasAsciiPrefix sql "PRIMARY KEY"

structure TableOptions where
  engine : Option String
  charset : Option String
  collation : Option String
  comment : Option String
deriving DecidableEq

def ColumnDefinition.key (column : ColumnDefinition) : List Char := foldName column.name

def IndexDefinition.key (index : IndexDefinition) : List Char := foldName index.name

/-- `parse_table_snapshot` refuses names that are repeated. -/
structure TableSnapshot where
  columns : List ColumnDefinition
  indexes : List IndexDefinition
  options : TableOptions
  columnNames : (columns.map ColumnDefinition.key).Nodup
  indexNames : (indexes.map IndexDefinition.key).Nodup

def findColumn (columns : List ColumnDefinition) (name : String) : Option ColumnDefinition :=
  columns.find? fun column => namesEqual column.name name

def findIndex (indexes : List IndexDefinition) (name : String) : Option IndexDefinition :=
  indexes.find? fun index => namesEqual index.name name

/-! ## Statements -/

inductive ColumnPosition where
  | first
  | after (name : String)
deriving DecidableEq

inductive TableChange where
  | dropIndex (name : String)
  | addColumn (column : ColumnDefinition) (position : ColumnPosition)
  | modifyColumn (column : ColumnDefinition) (position : ColumnPosition)
  | addIndex (index : IndexDefinition)
  | replacePrimaryKey (index : IndexDefinition)
  | addPrimaryKey (index : IndexDefinition)
  | dropPrimaryKey
  | dropColumn (name : String)
  | alterOptions (clauses : List String)

def ColumnPosition.sql : ColumnPosition → String
  | .first => " FIRST"
  | .after name => " AFTER " ++ quoteIdentifier name

def TableChange.clause : TableChange → String
  | .dropIndex name => "DROP INDEX " ++ quoteIdentifier name
  | .addColumn column position => "ADD COLUMN " ++ column.sql ++ position.sql
  | .modifyColumn column position => "MODIFY COLUMN " ++ column.sql ++ position.sql
  | .addIndex index => "ADD " ++ index.sql
  | .replacePrimaryKey index => "DROP PRIMARY KEY, ADD " ++ index.sql
  | .addPrimaryKey index => "ADD " ++ index.sql
  | .dropPrimaryKey => "DROP PRIMARY KEY"
  | .dropColumn name => "DROP COLUMN " ++ quoteIdentifier name
  | .alterOptions clauses => ", ".intercalate clauses

def TableChange.sql (qualifiedTable : String) (change : TableChange) : String :=
  "ALTER TABLE " ++ qualifiedTable ++ " " ++ change.clause

/-! ## The difference -/

/-- `column_position`; the position before it is one of the columns. -/
def columnPosition (columns : List ColumnDefinition) : Nat → ColumnPosition
  | 0 => .first
  | position + 1 => .after ((columns[position]?.map ColumnDefinition.name).getD "")

/-- The index is missing among the others, or different there. -/
def indexChanged (others : List IndexDefinition) (index : IndexDefinition) : Bool :=
  match findIndex others index.name with
  | none => true
  | some other => decide (other.sql ≠ index.sql)

def indexDrops (source target : TableSnapshot) : List TableChange :=
  ((target.indexes.filter fun index => !index.primary).filter
    (indexChanged source.indexes)).map fun index => .dropIndex index.name

/-- The columns that stay, in the order of the target. -/
def currentOrder (source target : TableSnapshot) : List String :=
  (target.columns.filter fun column =>
    (findColumn source.columns column.name).isSome).map ColumnDefinition.name

def columnChange (source target : TableSnapshot) (order : List String) (desiredPosition : Nat)
    (sourceColumn : ColumnDefinition) : List TableChange :=
  let positionChanged :=
    order.findIdx? (fun name => namesEqual name sourceColumn.name) ≠ some desiredPosition
  let position := columnPosition source.columns desiredPosition
  match findColumn target.columns sourceColumn.name with
  | none => [.addColumn sourceColumn position]
  | some targetColumn =>
    if targetColumn.comparisonSql ≠ sourceColumn.comparisonSql ∨ positionChanged then
      [.modifyColumn sourceColumn position]
    else []

/-- `Vec::remove` of the current position, if there is one, then `Vec::insert`. -/
def nextOrder (order : List String) (desiredPosition : Nat) (name : String) : List String :=
  let order :=
    match order.findIdx? fun other => namesEqual other name with
    | some position => order.eraseIdx position
    | none => order
  order.insertIdx desiredPosition name

/-- The loop over the columns of the source. -/
def columnChanges (source target : TableSnapshot) :
    List String → Nat → List ColumnDefinition → List TableChange
  | _, _, [] => []
  | order, desiredPosition, sourceColumn :: rest =>
    columnChange source target order desiredPosition sourceColumn ++
      columnChanges source target (nextOrder order desiredPosition sourceColumn.name)
        (desiredPosition + 1) rest

def indexAdds (source target : TableSnapshot) : List TableChange :=
  ((source.indexes.filter fun index => !index.primary).filter
    (indexChanged target.indexes)).map .addIndex

def primaryKeyChanges (source target : TableSnapshot) : List TableChange :=
  match source.indexes.find? IndexDefinition.primary,
    target.indexes.find? IndexDefinition.primary with
  | some sourcePrimary, some targetPrimary =>
    if sourcePrimary.sql ≠ targetPrimary.sql then [.replacePrimaryKey sourcePrimary] else []
  | some sourcePrimary, none => [.addPrimaryKey sourcePrimary]
  | none, some _ => [.dropPrimaryKey]
  | none, none => []

def columnDrops (source target : TableSnapshot) : List TableChange :=
  (target.columns.filter fun column =>
    (findColumn source.columns column.name).isNone).map fun column => .dropColumn column.name

/-- `diff_table_options`: an engine that the source does not name leaves everything out. -/
def diffTableOptions (source target : TableOptions) : List TableChange :=
  let engine :=
    if !optionEqIgnoreAsciiCase source.engine target.engine then
      source.engine.map fun engine => ["ENGINE=" ++ engine]
    else some []
  match engine with
  | none => []
  | some engine =>
    let charset :=
      if !optionEqIgnoreAsciiCase source.charset target.charset ||
          !optionEqIgnoreAsciiCase source.collation target.collation then
        (source.charset.map fun charset => "DEFAULT CHARACTER SET=" ++ charset).toList ++
          (source.collation.map fun collation => "COLLATE=" ++ collation).toList
      else []
    let comment :=
      if source.comment ≠ target.comment then ["COMMENT=" ++ source.comment.getD "''"] else []
    let clauses := engine ++ charset ++ comment
    if clauses = [] then [] else [.alterOptions clauses]

/-- The table changes of `diff_existing_table`, in their order. -/
def diffExistingTable (source target : TableSnapshot) : List TableChange :=
  indexDrops source target ++
    (columnChanges source target (currentOrder source target) 0 source.columns ++
      (indexAdds source target ++
        (primaryKeyChanges source target ++
          (columnDrops source target ++ diffTableOptions source.options target.options))))

/-! ## What the statements mean -/

structure MysqlTable where
  columns : List ColumnDefinition
  indexes : List IndexDefinition
  primaryKey : Option IndexDefinition

def TableSnapshot.table (snapshot : TableSnapshot) : MysqlTable where
  columns := snapshot.columns
  indexes := snapshot.indexes.filter fun index => !index.primary
  primaryKey := snapshot.indexes.find? IndexDefinition.primary

/-- The column that AFTER names has to be there. -/
def ColumnPosition.place (position : ColumnPosition) (column : ColumnDefinition)
    (columns : List ColumnDefinition) : Option (List ColumnDefinition) :=
  match position with
  | .first => some (column :: columns)
  | .after name => Placement.insertAfter ColumnDefinition.key (foldName name) column columns

namespace MysqlTable

def hasColumn (table : MysqlTable) (name : String) : Bool :=
  decide (foldName name ∈ table.columns.map ColumnDefinition.key)

def hasIndex (table : MysqlTable) (name : String) : Bool :=
  decide (foldName name ∈ table.indexes.map IndexDefinition.key)

/-- Names are compared without regard to case; what is dropped or modified has to be
there, what is added must not be. -/
def apply (table : MysqlTable) : TableChange → Option MysqlTable
  | .dropIndex name =>
    if table.hasIndex name then
      some { table with
        indexes := Placement.without IndexDefinition.key (foldName name) table.indexes }
    else none
  | .addColumn column position =>
    if table.hasColumn column.name then none
    else (position.place column table.columns).map fun columns => { table with columns }
  | .modifyColumn column position =>
    if table.hasColumn column.name then
      (position.place column
        (Placement.without ColumnDefinition.key column.key table.columns)).map
          fun columns => { table with columns }
    else none
  | .addIndex index =>
    if table.hasIndex index.name then none
    else some { table with indexes := table.indexes ++ [index] }
  | .replacePrimaryKey index =>
    if table.primaryKey.isSome then some { table with primaryKey := some index } else none
  | .addPrimaryKey index =>
    if table.primaryKey.isSome then none else some { table with primaryKey := some index }
  | .dropPrimaryKey =>
    if table.primaryKey.isSome then some { table with primaryKey := none } else none
  | .dropColumn name =>
    if table.hasColumn name then
      some { table with
        columns := Placement.without ColumnDefinition.key (foldName name) table.columns }
    else none
  | .alterOptions _ => some table

/-- The table after the changes, if each of them succeeds. -/
def applyAll (table : MysqlTable) (changes : List TableChange) : Option MysqlTable :=
  Machine.run apply table changes

end MysqlTable

end Chat2DB.Schema
