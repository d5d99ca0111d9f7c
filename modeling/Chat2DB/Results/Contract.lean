import Chat2DB.Base.Base64
import Chat2DB.Base.Decimal
import Chat2DB.Base.JsonBytes
import Chat2DB.Results.Pages
import Chat2DB.Sql.AppError
import Chat2DB.Supervisor.QueryEvents

/-! # Pages of a result for the outside

The rows and columns of a page as they are shown to a client, with the lengths
of their JSON texts. Numbers that JavaScript would round are decimal strings.
-/

namespace Chat2DB.Contract

open JsonBytes
open Outcome (orThrow)
open Sql (AppError)
open Supervisor (JdbcValueType ColumnNullability)

inductive JdbcValue where
  | null
  | boolean (value : Bool)
  | signedInteger (value : String)
  | unsignedInteger (value : String)
  | float32 (value : String)
  | float64 (value : String)
  | decimal (value : String)
  | text (value : String)
  | binary (value : String)
  | date (value : String)
  | time (value : String)
  | timestamp (value : String)
  | timestampWithTimeZone (value : String)
  | json (value : String)
  | uuid (value : String)
  | opaqueValue (typeName displayValue : String)
deriving DecidableEq

structure ResultRow where
  values : List JdbcValue
deriving DecidableEq

/-- The variants of a column are those of the engine's messages. -/
abbrev ResultColumn := Supervisor.JdbcColumn

structure ResultMetadata where
  id : String
  rowCount : String
  byteCount : String
  truncatedByMaxRows : Bool
  truncatedByMaxResultBytes : Bool
  createdAtMs : String
  expiresAtMs : String
deriving DecidableEq

structure ResultPage where
  metadata : ResultMetadata
  columns : List ResultColumn
  offset : String
  rows : List ResultRow
  hasMore : Bool
deriving DecidableEq

structure ResultPageRequest where
  offset : String
  maxRows : String
  maxBytes : String
deriving DecidableEq

/-! ## Conversion -/

/-- How finite floating-point numbers are printed, by their bits. -/
structure FloatText where
  float32 : UInt32 → String
  float64 : UInt64 → String

variable (floats : FloatText)

def float32String (bits : UInt32) : String :=
  if bits &&& 0x7FFFFFFF > 0x7F800000 then "NaN"
  else if bits = 0x7F800000 then "Infinity"
  else if bits = 0xFF800000 then "-Infinity"
  else floats.float32 bits

def float64String (bits : UInt64) : String :=
  if bits &&& 0x7FFFFFFFFFFFFFFF > 0x7FF0000000000000 then "NaN"
  else if bits = 0x7FF0000000000000 then "Infinity"
  else if bits = 0xFFF0000000000000 then "-Infinity"
  else floats.float64 bits

def resultValue (value : Wire.JdbcValue) : Except AppError JdbcValue := do
  let value ← orThrow value.value AppError.internal
  match value with
  | .null => pure .null
  | .boolean value => pure (.boolean value)
  | .signedInteger value => pure (.signedInteger (toString value.toInt))
  | .unsignedInteger value => pure (.unsignedInteger (toString value.toNat))
  | .float32 bits => pure (.float32 (float32String floats bits))
  | .float64 bits => pure (.float64 (float64String floats bits))
  | .decimal value => pure (.decimal value)
  | .text value => pure (.text value)
  | .binary value => pure (.binary (String.ofList (Base64.encode value)))
  | .date value => pure (.date value)
  | .time value => pure (.time value)
  | .timestamp value => pure (.timestamp value)
  | .timestampWithTimeZone value => pure (.timestampWithTimeZone value)
  | .json value => pure (.json value)
  | .uuid value => pure (.uuid value)
  | .opaqueValue typeName displayValue => pure (.opaqueValue typeName displayValue)

def resultRow (row : Wire.JdbcRow) : Except AppError ResultRow := do
  let values ← row.values.mapM (resultValue floats)
  pure { values }

/-- Unknown types and nullabilities are internal errors. -/
def resultColumn (column : Wire.JdbcColumn) : Except AppError ResultColumn :=
  (Supervisor.JdbcColumn.fromWire column).mapError fun _ => AppError.internal

def hexDigit (nibble : Nat) : Char :=
  if nibble < 10 then Char.ofNat (48 + nibble) else Char.ofNat (87 + nibble)

/-- A UUID in its hyphenated form. -/
def uuidText (id : BitVec 128) : String :=
  String.ofList ((List.range 32).flatMap fun index =>
    let digit := hexDigit (id.toNat / 16 ^ (31 - index) % 16)
    if index = 8 ∨ index = 12 ∨ index = 16 ∨ index = 20 then ['-', digit] else [digit])

def resultMetadata (metadata : Results.ResultMetadata) : ResultMetadata :=
  { id := uuidText metadata.id
    rowCount := toString metadata.rowCount
    byteCount := toString metadata.byteCount
    truncatedByMaxRows := metadata.truncatedByMaxRows
    truncatedByMaxResultBytes := metadata.truncatedByMaxResultBytes
    createdAtMs := toString metadata.createdAtMs
    expiresAtMs := toString metadata.expiresAtMs }

def resultPage (page : Results.ResultPage) : Except AppError ResultPage := do
  let columns ← page.schema.columns.mapM resultColumn
  let rows ← page.rows.mapM (resultRow floats)
  pure
    { metadata := resultMetadata page.metadata
      columns
      offset := toString page.offset
      rows
      hasMore := page.hasMore }

/-! ## Numbers of a request -/

/-- The text behind an optional plus sign. -/
def behindSign : List Char → List Char
  | '+' :: rest => rest
  | text => text

/-- Rust's reader of an unsigned integer: digits behind an optional plus sign, within the type. -/
def parseUnsigned (maximum : Nat) (text : String) : Option Nat :=
  let digits := behindSign text.toList
  if digits ≠ [] ∧ digits.all Char.isDigit = true ∧ Decimal.value digits ≤ maximum then
    some (Decimal.value digits)
  else
    none

def u32Max : Nat := 4294967295

def parseU64 (value field : String) : Except AppError Nat :=
  orThrow (parseUnsigned Storage.u64Max value)
    (AppError.invalid "invalid_numeric_value" s!"{field} must be an unsigned decimal integer")

def parseU32 (value field : String) : Except AppError Nat :=
  orThrow (parseUnsigned u32Max value)
    (AppError.invalid "invalid_numeric_value"
      s!"{field} must be an unsigned 32-bit decimal integer")

theorem behindSign_of_allDigits {text : List Char} (hdigits : Decimal.AllDigits text) :
    behindSign text = text := by
  unfold behindSign
  split
  · next rest => exact absurd (hdigits '+' List.mem_cons_self) (by decide)
  · rfl

theorem parseUnsigned_toString {maximum number : Nat} (hnumber : number ≤ maximum) :
    parseUnsigned maximum (toString number) = some number := by
  have hdigits := Decimal.allDigits_toDigits number
  have hlist : (toString number).toList = Nat.toDigits 10 number := by
    rw [Nat.toString_eq_ofList_toDigits, String.toList_ofList]
  unfold parseUnsigned
  simp only [hlist, behindSign_of_allDigits hdigits, Decimal.value_toDigits]
  rw [if_pos ⟨Nat.toDigits_ne_nil, List.all_eq_true.mpr hdigits, hnumber⟩]

/-! ## Lengths -/

namespace JdbcValue

/-- The tag of a value and its members. -/
def members : JdbcValue → String × List (String × Nat)
  | .null => ("null", [])
  | .boolean value => ("boolean", [("value", boolBytes value)])
  | .signedInteger value => ("signed_integer", [("value", textBytes value)])
  | .unsignedInteger value => ("unsigned_integer", [("value", textBytes value)])
  | .float32 value => ("float32", [("value", textBytes value)])
  | .float64 value => ("float64", [("value", textBytes value)])
  | .decimal value => ("decimal", [("value", textBytes value)])
  | .text value => ("text", [("value", textBytes value)])
  | .binary value => ("binary", [("value", textBytes value)])
  | .date value => ("date", [("value", textBytes value)])
  | .time value => ("time", [("value", textBytes value)])
  | .timestamp value => ("timestamp", [("value", textBytes value)])
  | .timestampWithTimeZone value => ("timestamp_with_time_zone", [("value", textBytes value)])
  | .json value => ("json", [("value", textBytes value)])
  | .uuid value => ("uuid", [("value", textBytes value)])
  | .opaqueValue typeName displayValue =>
    ("opaque", [("typeName", textBytes typeName), ("displayValue", textBytes displayValue)])

def jsonBytes (value : JdbcValue) : Nat :=
  objectBytes (("type", textBytes value.members.1) :: value.members.2)

end JdbcValue

def ResultRow.jsonBytes (row : ResultRow) : Nat :=
  objectBytes [("values", arrayBytes (row.values.map JdbcValue.jsonBytes))]

def valueTypeName : JdbcValueType → String
  | .boolean => "boolean"
  | .signedInteger => "signed_integer"
  | .unsignedInteger => "unsigned_integer"
  | .float32 => "float32"
  | .float64 => "float64"
  | .decimal => "decimal"
  | .text => "text"
  | .binary => "binary"
  | .date => "date"
  | .time => "time"
  | .timestamp => "timestamp"
  | .timestampWithTimeZone => "timestamp_with_time_zone"
  | .json => "json"
  | .uuid => "uuid"
  | .opaqueValue => "opaque"

def nullabilityName : ColumnNullability → String
  | .unknown => "unknown"
  | .noNulls => "no_nulls"
  | .nullable => "nullable"

/-- A member that is left out when it is absent. -/
def optionalMember {α : Type} (name : String) (bytes : α → Nat) (value : Option α) :
    List (String × Nat) :=
  (value.map fun value => (name, bytes value)).toList

def columnBytes (column : ResultColumn) : Nat :=
  objectBytes
    ([("ordinal", numberBytes column.ordinal.toNat),
      ("label", textBytes column.label),
      ("name", textBytes column.name),
      ("jdbcType", numberBytes column.jdbcType.toInt),
      ("jdbcTypeName", textBytes column.jdbcTypeName),
      ("valueType", textBytes (valueTypeName column.valueType)),
      ("nullability", textBytes (nullabilityName column.nullability))] ++
      optionalMember "precision" (fun precision => numberBytes precision.toNat) column.precision ++
      optionalMember "scale" (fun scale => numberBytes scale.toInt) column.scale ++
      optionalMember "displaySize" (fun size => numberBytes size.toNat) column.displaySize ++
      optionalMember "signed" boolBytes column.signed ++
      optionalMember "catalogName" textBytes column.catalogName ++
      optionalMember "schemaName" textBytes column.schemaName ++
      optionalMember "tableName" textBytes column.tableName)

/-! ## The text of a UUID -/

theorem charBytes_hexDigit : ∀ nibble < 16, charBytes (hexDigit nibble) = 1 := by
  decide

theorem textBytes_uuidText (id : BitVec 128) : textBytes (uuidText id) = 38 := by
  unfold uuidText
  rw [textBytes_of_single]
  · have hlength : ∀ index, (if index = 8 ∨ index = 12 ∨ index = 16 ∨ index = 20
        then ['-', hexDigit (id.toNat / 16 ^ (31 - index) % 16)]
        else [hexDigit (id.toNat / 16 ^ (31 - index) % 16)]).length =
        if index = 8 ∨ index = 12 ∨ index = 16 ∨ index = 20 then 2 else 1 := by
      intro index
      split <;> rfl
    rw [List.length_flatMap, List.map_congr_left fun index _ => hlength index]
    decide
  · intro c hc
    obtain ⟨index, -, hc⟩ := List.mem_flatMap.mp hc
    have hdigit := charBytes_hexDigit (id.toNat / 16 ^ (31 - index) % 16)
      (Nat.mod_lt _ (by decide))
    dsimp only at hc
    split at hc
    · rcases List.mem_cons.mp hc with rfl | hc
      · decide
      · rw [List.mem_singleton.mp hc, hdigit]
    · rw [List.mem_singleton.mp hc, hdigit]

end Chat2DB.Contract
