import Chat2DB.Base.Base64
import Chat2DB.Base.Outcome
import Chat2DB.Base.Text
import Chat2DB.Sql.AppError

/-! # Tabular files

Tables are written to CSV files and spreadsheets and read from them. A cell is text;
values that are no text, and texts that look like one of those, have an envelope. The
libraries are taken to give back the grid of texts that they were given; how many bytes
they write for it is theirs, and the import refuses a file with too many.
-/

namespace Chat2DB.Transfer

open Outcome
open Sql (AppError)

inductive TransferFileFormat where
  | csv
  | xls
  | xlsx
  | sql
deriving DecidableEq

def TransferFileFormat.extension : TransferFileFormat → List Char
  | .csv => "csv".toList
  | .xls => "xls".toList
  | .xlsx => "xlsx".toList
  | .sql => "sql".toList

inductive TabularImportEncoding where
  | plain
  | chat2dbV1
deriving DecidableEq

inductive TabularValue where
  | null
  | text (value : List Char)
  | bytes (value : List UInt8)
deriving DecidableEq

structure ImportedTable where
  columns : Option (List (List Char))
  rows : List (List TabularValue)
deriving DecidableEq

def maxImportFileBytes : Nat := 128 * 1024 * 1024

def maxTabularCells : Nat := 2000000

def maxTabularColumns : Nat := 16384

def maxCellBytes : Nat := 16 * 1024 * 1024

def cellEncodingPrefix : List Char := "__CHAT2DB_TRANSFER_V1__:".toList

def nullEncoding : List Char := "__CHAT2DB_TRANSFER_V1__:NULL".toList

def textEncodingPrefix : List Char := "__CHAT2DB_TRANSFER_V1__:TEXT:".toList

def bytesEncodingPrefix : List Char := "__CHAT2DB_TRANSFER_V1__:BASE64:".toList

/-! ## Cells -/

def invalidCellEncoding : AppError :=
  .invalid "invalid_tabular_cell_encoding"
    "The Chat2DB transfer file contains an invalid encoded cell"

/-- The bytes of a text. -/
def utf8Bytes (text : List Char) : List UInt8 := text.flatMap String.utf8EncodeChar

/-- `String::from_utf8` -/
def fromUtf8 (bytes : List UInt8) : Option (List Char) :=
  bytes.toByteArray.utf8Decode?.map Array.toList

def encodeTabularValue : TabularValue → List Char
  | .null => nullEncoding
  | .bytes value => bytesEncodingPrefix ++ Base64.encodeUrl value
  | .text value =>
    if cellEncodingPrefix.isPrefixOf value then
      textEncodingPrefix ++ Base64.encodeUrl (utf8Bytes value)
    else value

def stripPrefix (before : List Char) (value : List Char) : Option (List Char) :=
  if before.isPrefixOf value then some (value.drop before.length) else none

def decodeTabularValue (value : List Char) (encoding : TabularImportEncoding) :
    Except AppError TabularValue :=
  if encoding = .plain then .ok (.text value)
  else if value = nullEncoding then .ok .null
  else
    match stripPrefix bytesEncodingPrefix value with
    | some encoded =>
      orThrow ((Base64.decodeUrl encoded).map .bytes) invalidCellEncoding
    | none =>
      match stripPrefix textEncodingPrefix value with
      | some encoded => do
        let bytes ← orThrow (Base64.decodeUrl encoded) invalidCellEncoding
        orThrow ((fromUtf8 bytes).map .text) invalidCellEncoding
      | none =>
        if cellEncodingPrefix.isPrefixOf value then .error invalidCellEncoding
        else .ok (.text value)

/-! ## Limits -/

def resourceError (code message : String) : AppError :=
  { kind := .resourceExhausted, code, message }

def formatError (detail : String) : AppError :=
  .invalid "invalid_transfer_file" s!"The transfer file could not be processed: {detail}"

def enforceCellBudget (cells : Nat) : Except AppError Unit :=
  rejectIf (maxTabularCells < cells)
    (resourceError "tabular_file_too_large" s!"Tabular files are limited to {maxTabularCells} cells")

def enforceCellSize (value : List Char) : Except AppError Unit :=
  rejectIf (maxCellBytes < Text.utf8Length value)
    (resourceError "tabular_cell_too_large" s!"One tabular cell exceeds {maxCellBytes} bytes")

def validateExportColumns (columns : List (List Char)) : Except AppError Unit := do
  rejectIf (columns = [] ∨ maxTabularColumns < columns.length)
    (resourceError "tabular_file_too_wide"
      s!"Tabular files require 1 to {maxTabularColumns} columns")
  columns.forM enforceCellSize

def validateColumns : Option (List (List Char)) → Except AppError Unit
  | none => .ok ()
  | some columns => do
    validateExportColumns columns
    rejectIf (columns.any fun column => Text.trim column = [])
      (.invalid "invalid_tabular_header" "Column headers cannot be empty")
    rejectIf (¬ (columns.map (·.map Char.toLower)).Nodup)
      (.invalid "invalid_tabular_header" "Column headers must be unique")

def invalidRow : AppError :=
  .invalid "invalid_tabular_row" "Every tabular row must match the column count"

def validateExportRow (expected : Option Nat) (values : List TabularValue) :
    Except AppError Unit := do
  rejectIf (expected ≠ some values.length) invalidRow
  values.forM fun value => enforceCellSize (encodeTabularValue value)

def validateRowWidths (columns : Option (List (List Char))) (rows : List (List TabularValue)) :
    Except AppError Unit := do
  let expected ← orThrow ((columns.map List.length).or (rows.head?.map List.length))
    (.invalid "empty_tabular_file" "The tabular import file does not contain rows")
  rejectIf (rows.any fun row => row.length ≠ expected) invalidRow

/-! ## Writing -/

/-- A worksheet of texts, with the numbers of its rows and columns. -/
@[ext]
structure Sheet where
  cells : Nat → Nat → Option (List Char)
  rows : Nat
  columns : Nat

def Sheet.empty : Sheet := { cells := fun _ _ => none, rows := 0, columns := 0 }

def Sheet.set (sheet : Sheet) (row column : Nat) (value : List Char) : Sheet where
  cells := Function.update sheet.cells row (Function.update (sheet.cells row) column (some value))
  rows := max sheet.rows (row + 1)
  columns := max sheet.columns (column + 1)

inductive TabularFile where
  | csv (records : List (List (List Char)))
  | spreadsheet (sheet : Sheet)

structure CsvSink where
  records : List (List (List Char))
  containsHeader : Bool
  columns : Option Nat

def CsvSink.writeHeader (sink : CsvSink) (columns : List (List Char)) : Except AppError CsvSink := do
  validateExportColumns columns
  return { sink with
    columns := some columns.length
    records := if sink.containsHeader then sink.records ++ [columns] else sink.records }

def CsvSink.writeRow (sink : CsvSink) (values : List TabularValue) : Except AppError CsvSink := do
  validateExportRow sink.columns values
  return { sink with records := sink.records ++ [values.map encodeTabularValue] }

structure SpreadsheetSink where
  sheet : Sheet
  containsHeader : Bool
  nextRow : Nat
  columns : Nat
  cells : Nat

/-- The cells of a row from a column on. -/
def setRow (row column : Nat) (sheet : Sheet) : List TabularValue → Except AppError Sheet
  | [] => .ok sheet
  | value :: rest => do
    enforceCellSize (encodeTabularValue value)
    setRow row (column + 1) (sheet.set row column (encodeTabularValue value)) rest

/-- The numbers stay below the limit of cells, far from where they would overflow. -/
def SpreadsheetSink.writeValues (sink : SpreadsheetSink) (values : List TabularValue) :
    Except AppError SpreadsheetSink := do
  enforceCellBudget (sink.cells + values.length)
  let sheet ← setRow sink.nextRow 0 sink.sheet values
  return { sink with sheet, nextRow := sink.nextRow + 1, cells := sink.cells + values.length }

def SpreadsheetSink.writeHeader (sink : SpreadsheetSink) (columns : List (List Char)) :
    Except AppError SpreadsheetSink := do
  validateExportColumns columns
  let sink := { sink with columns := columns.length }
  if sink.containsHeader then sink.writeValues (columns.map .text) else return sink

def SpreadsheetSink.writeRow (sink : SpreadsheetSink) (values : List TabularValue) :
    Except AppError SpreadsheetSink := do
  validateExportRow (some sink.columns) values
  sink.writeValues values

/-- A header and rows through the sink of a format. -/
def writeTable (format : TransferFileFormat) (containsHeader : Bool) (columns : List (List Char))
    (rows : List (List TabularValue)) : Except AppError TabularFile :=
  match format with
  | .csv => do
    let sink ← CsvSink.writeHeader { records := [], containsHeader, columns := none } columns
    let sink ← rows.foldlM CsvSink.writeRow sink
    return .csv sink.records
  | .xls | .xlsx => do
    let sink ← SpreadsheetSink.writeHeader
      { sheet := .empty, containsHeader, nextRow := 0, columns := 0, cells := 0 } columns
    let sink ← rows.foldlM SpreadsheetSink.writeRow sink
    return .spreadsheet sink.sheet
  | .sql => .error (.invalid "invalid_transfer_format" "SQL exports use the SQL dump writer")

/-! ## Reading -/

def readValue (encoding : TabularImportEncoding) (value : List Char) :
    Except AppError TabularValue := do
  enforceCellSize value
  decodeTabularValue value encoding

/-- Records of one length, after `cells` cells before them. -/
def readRecords (encoding : TabularImportEncoding) (width cells : Nat) :
    List (List (List Char)) → Except AppError (List (List TabularValue))
  | [] => .ok []
  | record :: rest => do
    rejectIf (record.length ≠ width) (formatError "records of different lengths")
    enforceCellBudget (cells + record.length)
    let row ← record.mapM (readValue encoding)
    let rows ← readRecords encoding width (cells + record.length) rest
    return row :: rows

def readCsv (records : List (List (List Char))) (containsHeader : Bool)
    (encoding : TabularImportEncoding) : Except AppError ImportedTable := do
  let columns := if containsHeader then some (records.headD []) else none
  validateColumns columns
  let rows ← readRecords encoding (records.headD []).length ((columns.map List.length).getD 0)
    (if containsHeader then records.tail else records)
  validateRowWidths columns rows
  return { columns, rows }

def readCell (encoding : TabularImportEncoding) (sheet : Sheet) (row column : Nat) :
    Except AppError TabularValue :=
  match sheet.cells row column with
  | none => .ok .null
  | some value => readValue encoding value

/-- `archive` is what the checks of a compressed file say. -/
def readSpreadsheet (archive : Except AppError Unit) (sheet : Sheet) (format : TransferFileFormat)
    (containsHeader : Bool) (encoding : TabularImportEncoding) : Except AppError ImportedTable := do
  (if format = .xlsx then archive else .ok ())
  rejectIf (sheet.columns = 0 ∨ maxTabularColumns < sheet.columns)
    (resourceError "tabular_file_too_wide"
      s!"Tabular files are limited to {maxTabularColumns} columns")
  enforceCellBudget (sheet.rows * sheet.columns)
  let startRow := if containsHeader then 1 else 0
  let columns := if containsHeader then
      some ((List.range sheet.columns).map fun column => (sheet.cells 0 column).getD [])
    else none
  validateColumns columns
  let rows ← (List.range' startRow (sheet.rows - startRow)).mapM fun row =>
    (List.range sheet.columns).mapM fun column => readCell encoding sheet row column
  validateRowWidths columns rows
  return { columns, rows }

/-- What the file system says of a path, links not followed. -/
structure FileMetadata where
  isSymlink : Bool
  isFile : Bool
  len : Nat
deriving DecidableEq

/-- The length of a file that may be imported; there may be nothing at its path. -/
def validateImportFile (metadata : Option FileMetadata) : Except AppError Nat := do
  let metadata ← orThrow metadata
    { kind := .notFound, code := "import_file_not_found",
      message := "The selected import file does not exist" }
  rejectIf (metadata.isSymlink ∨ ¬ metadata.isFile)
    (.invalid "invalid_import_file" "The selected import path must be a regular file")
  rejectIf (maxImportFileBytes < metadata.len)
    (resourceError "import_file_too_large"
      s!"Import files are limited to {maxImportFileBytes} bytes")
  return metadata.len

/-- What a file holds, which has the format it was written in; `archive` is what the checks of
a compressed file say. -/
def readTable (archive : Sheet → Except AppError Unit) (file : TabularFile)
    (format : TransferFileFormat) (containsHeader : Bool) (encoding : TabularImportEncoding) :
    Except AppError ImportedTable :=
  if format = .sql then
    .error (.invalid "invalid_transfer_format" "SQL input is not a tabular file")
  else
    match file with
    | .csv records => readCsv records containsHeader encoding
    | .spreadsheet sheet => readSpreadsheet (archive sheet) sheet format containsHeader encoding

/-- `metadata` is that of the path that the file is read from. -/
def readTabularFile (archive : Sheet → Except AppError Unit) (metadata : Option FileMetadata)
    (file : TabularFile) (format : TransferFileFormat) (containsHeader : Bool)
    (encoding : TabularImportEncoding) : Except AppError ImportedTable := do
  let _ ← validateImportFile metadata
  readTable archive file format containsHeader encoding

end Chat2DB.Transfer
