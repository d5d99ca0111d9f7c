import Chat2DB.MySql.Statements

/-! # Statements for a result grid

Rows that were edited in a result grid become INSERT, UPDATE and DELETE statements. The
first column of the grid is the number of the row and takes no part. A row is found by its
primary key, and without one by all of its columns.
-/

namespace Chat2DB.MySql.Ddl

open Sql (AppError)

def resultDefaultPlaceholder : List Char := "CHAT2DB_UPDATE_TABLE_DATA_USER_FILLED_DEFAULT".toList

def resultGeneratedPlaceholder : List Char :=
  "CHAT2DB_UPDATE_TABLE_DATA_USER_FILLED_GENERATED".toList

def partialLargeValuePrefix : List Char := "CHAT2DB_LARGE_VALUE_PREVIEW:".toList

structure MysqlResultGridHeader where
  name : List Char
  columnType : List Char
  dataType : List Char
  primaryKey : Bool
  autoIncrement : Bool
deriving DecidableEq

abbrev GridRow := List (Option (List Char))

inductive MysqlResultGridOperationType where
  | create
  | update
  | delete
deriving DecidableEq

structure MysqlResultGridOperation where
  operationType : MysqlResultGridOperationType
  dataList : GridRow
  oldDataList : GridRow
deriving DecidableEq

/-! ## Checks -/

def missingHeaders : AppError :=
  invalidGrid
    "Result-grid headers must include the row-number column and at least one data column"

def validateColumn (header : MysqlResultGridHeader) : Except AppError Unit :=
  match quoteIdentifier header.name with
  | .error error => .error (invalidGrid ("Invalid result-grid column: " ++ displayed error))
  | .ok _ => .ok ()

def requireRowLength (label : String) (row : GridRow) (expected : Nat) : Except AppError Unit :=
  if row.length ≠ expected then
    .error (invalidGrid (label ++ " contains " ++ toString row.length ++ " values but " ++
      toString expected ++ " headers were supplied"))
  else .ok ()

def isPartialLargeValue (value : Option (List Char)) : Bool :=
  value.any fun text => partialLargeValuePrefix.isPrefixOf (text.map Char.toUpper)

def rejectPartialLargeValues (row : GridRow) : Except AppError Unit :=
  if row.any isPartialLargeValue then
    .error (.invalid "mysql_partial_large_value_rejected"
      "Partial large-value previews cannot be written back")
  else .ok ()

/-- The length of a row that may also be left out. -/
def requireRowLengthUnlessEmpty (label : String) (row : GridRow) (expected : Nat) :
    Except AppError Unit :=
  if row = [] then .ok () else requireRowLength label row expected

def validateResultGrid (table : MysqlQualifiedName) (headers : List MysqlResultGridHeader)
    (operation : MysqlResultGridOperation) : Except AppError Unit := do
  let _ ← quoteQualifiedName table
  if headers.length < 2 then .error missingHeaders
  else
    headers.tail.forM validateColumn
    rejectPartialLargeValues operation.dataList
    rejectPartialLargeValues operation.oldDataList
    match operation.operationType with
    | .create =>
      requireRowLength "dataList" operation.dataList headers.length
      requireRowLengthUnlessEmpty "oldDataList" operation.oldDataList headers.length
    | .update =>
      requireRowLength "dataList" operation.dataList headers.length
      requireRowLength "oldDataList" operation.oldDataList headers.length
    | .delete =>
      requireRowLength "oldDataList" operation.oldDataList headers.length
      requireRowLengthUnlessEmpty "dataList" operation.dataList headers.length

/-! ## Values -/

def isGeneratedPlaceholder (value : Option (List Char)) : Bool :=
  value = some resultGeneratedPlaceholder

def rejectWherePlaceholder (value : Option (List Char)) : Except AppError Unit :=
  if value = some resultDefaultPlaceholder ∨ value = some resultGeneratedPlaceholder then
    .error (invalidGrid "Write placeholders cannot be used to identify an existing row")
  else .ok ()

def resultGridTypeName (header : MysqlResultGridHeader) : List Char :=
  normalizeTypeName
    (if Text.trim header.columnType = [] then header.dataType else header.columnType)

def serializeMysqlValue (header : MysqlResultGridHeader) (value : Option (List Char)) :
    Except AppError (List Char) :=
  match value with
  | none => .ok "NULL".toList
  | some value =>
    if value = resultGeneratedPlaceholder then
      .error (invalidGrid "The generated-value placeholder cannot be serialized as data")
    else
      match serializeTypedLiteral (resultGridTypeName header) value with
      | .ok literal => .ok literal
      | .error error =>
        .error (invalidGrid ("Column " ++ String.ofList header.name ++
          " has an invalid value: " ++ displayed error))

def serializeAssignmentValue (header : MysqlResultGridHeader) (value : Option (List Char)) :
    Except AppError (List Char) :=
  if value = some resultDefaultPlaceholder then .ok "DEFAULT".toList
  else serializeMysqlValue header value

abbrev GridCell := MysqlResultGridHeader × Option (List Char)

/-- The cells of a row but for its number. -/
def gridCells (headers : List MysqlResultGridHeader) (row : GridRow) : List GridCell :=
  headers.tail.zip row.tail

/-- The columns that are written, each with its value. A value that the server generates
is left to it. -/
def assignedCells : List GridCell → Except AppError (List (List Char × List Char))
  | [] => .ok []
  | (header, value) :: rest =>
    if isGeneratedPlaceholder value then
      if header.autoIncrement then assignedCells rest
      else .error (invalidGrid
        "The generated-value placeholder is only valid for auto-increment columns")
    else do
      let column ← quoteIdentifier header.name
      let literal ← serializeAssignmentValue header value
      let later ← assignedCells rest
      .ok ((column, literal) :: later)

def joinComma (parts : List (List Char)) : List Char := ", ".toList.intercalate parts

/-! ## Statements -/

def buildResultGridInsert (table : List Char) (headers : List MysqlResultGridHeader)
    (row : GridRow) : Except AppError (List Char) := do
  let cells ← assignedCells (gridCells headers row)
  if cells = [] then .ok ("INSERT INTO ".toList ++ table ++ " () VALUES ()".toList)
  else
    .ok ("INSERT INTO ".toList ++ table ++ " (".toList ++ joinComma (cells.map Prod.fst) ++
      ") VALUES (".toList ++ joinComma (cells.map Prod.snd) ++ ")".toList)

/-- The cells by which a row is found. -/
def identifyingCells (headers : List MysqlResultGridHeader) (oldRow : GridRow) : List GridCell :=
  if headers.tail.any MysqlResultGridHeader.primaryKey then
    (gridCells headers oldRow).filter fun cell => cell.1.primaryKey
  else gridCells headers oldRow

def wherePredicate (cell : GridCell) : Except AppError (List Char) := do
  rejectWherePlaceholder cell.2
  let column ← quoteIdentifier cell.1.name
  match cell.2 with
  | none => .ok (column ++ " IS NULL".toList)
  | some value =>
    let literal ← serializeMysqlValue cell.1 (some value)
    .ok (column ++ " = ".toList ++ literal)

def buildResultGridWhere (headers : List MysqlResultGridHeader) (oldRow : GridRow) :
    Except AppError (List Char × Bool) := do
  let predicates ← (identifyingCells headers oldRow).mapM wherePredicate
  .ok (" AND ".toList.intercalate predicates,
    headers.tail.any MysqlResultGridHeader.primaryKey)

def limitOne (usesPrimaryKey : Bool) : List Char :=
  if usesPrimaryKey then [] else " LIMIT 1".toList

/-- The cells of a row that are not as they were. -/
def changedCells (headers : List MysqlResultGridHeader) (row oldRow : GridRow) : List GridCell :=
  ((gridCells headers row).zip (gridCells headers oldRow)).filterMap fun pair =>
    if pair.1.2 = pair.2.2 then none else some pair.1

def assignmentText (cell : List Char × List Char) : List Char :=
  cell.1 ++ " = ".toList ++ cell.2

def buildResultGridUpdate (table : List Char) (headers : List MysqlResultGridHeader)
    (row oldRow : GridRow) : Except AppError (List Char) := do
  let assignments ← assignedCells (changedCells headers row oldRow)
  if assignments = [] then .error (invalidGrid "UPDATE does not contain any changed values")
  else do
    let (whereClause, usesPrimaryKey) ← buildResultGridWhere headers oldRow
    .ok ("UPDATE ".toList ++ table ++ " SET ".toList ++ joinComma (assignments.map assignmentText) ++
      " WHERE ".toList ++ whereClause ++ limitOne usesPrimaryKey)

def buildResultGridDelete (table : List Char) (headers : List MysqlResultGridHeader)
    (oldRow : GridRow) : Except AppError (List Char) := do
  let (whereClause, usesPrimaryKey) ← buildResultGridWhere headers oldRow
  .ok ("DELETE FROM ".toList ++ table ++ " WHERE ".toList ++ whereClause ++
    limitOne usesPrimaryKey)

def buildMysqlResultGridSql (table : MysqlQualifiedName) (headers : List MysqlResultGridHeader)
    (operation : MysqlResultGridOperation) : Except AppError (List Char) := do
  validateResultGrid table headers operation
  let table ← quoteQualifiedName table
  match operation.operationType with
  | .create => buildResultGridInsert table headers operation.dataList
  | .update => buildResultGridUpdate table headers operation.dataList operation.oldDataList
  | .delete => buildResultGridDelete table headers operation.oldDataList

def buildMysqlResultGridScript (table : MysqlQualifiedName) (headers : List MysqlResultGridHeader)
    (operations : List MysqlResultGridOperation) : Except AppError (List Char) :=
  if operations = [] then .error (invalidGrid "At least one result-grid operation is required")
  else do
    let statements ← operations.mapM (buildMysqlResultGridSql table headers)
    .ok (";\n".toList.intercalate statements ++ ";".toList)

end Chat2DB.MySql.Ddl
