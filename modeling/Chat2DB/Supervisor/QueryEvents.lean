import Chat2DB.Wire.Messages

/-! # Events of a query

What the consumer of a query stream receives, and the conversions from and to
the messages of the protocol. A converted message converts back to itself.
-/

namespace Chat2DB.Supervisor

open Wire (Value)

inductive JdbcValueType where
  | boolean
  | signedInteger
  | unsignedInteger
  | float32
  | float64
  | decimal
  | text
  | binary
  | date
  | time
  | timestamp
  | timestampWithTimeZone
  | json
  | uuid
  | opaqueValue
deriving DecidableEq

namespace JdbcValueType

def fromWire (value : Int32) : Except String JdbcValueType :=
  match value.toInt with
  | 1 => .ok .boolean
  | 2 => .ok .signedInteger
  | 3 => .ok .unsignedInteger
  | 4 => .ok .float32
  | 5 => .ok .float64
  | 6 => .ok .decimal
  | 7 => .ok .text
  | 8 => .ok .binary
  | 9 => .ok .date
  | 10 => .ok .time
  | 11 => .ok .timestamp
  | 12 => .ok .timestampWithTimeZone
  | 13 => .ok .json
  | 14 => .ok .uuid
  | 15 => .ok .opaqueValue
  | other => .error s!"unknown JDBC value type {other}"

def toWire : JdbcValueType → Int32
  | .boolean => 1
  | .signedInteger => 2
  | .unsignedInteger => 3
  | .float32 => 4
  | .float64 => 5
  | .decimal => 6
  | .text => 7
  | .binary => 8
  | .date => 9
  | .time => 10
  | .timestamp => 11
  | .timestampWithTimeZone => 12
  | .json => 13
  | .uuid => 14
  | .opaqueValue => 15

theorem toWire_fromWire {value : Int32} {valueType : JdbcValueType}
    (hvalue : fromWire value = .ok valueType) : valueType.toWire = value := by
  unfold fromWire at hvalue
  apply Int32.toInt_inj.mp
  split at hvalue <;> cases hvalue <;> simp_all [toWire]

end JdbcValueType

inductive ColumnNullability where
  | unknown
  | noNulls
  | nullable
deriving DecidableEq

namespace ColumnNullability

def fromWire (value : Int32) : Except String ColumnNullability :=
  match value.toInt with
  | 0 => .ok .unknown
  | 1 => .ok .noNulls
  | 2 => .ok .nullable
  | other => .error s!"unknown column nullability {other}"

def toWire : ColumnNullability → Int32
  | .unknown => 0
  | .noNulls => 1
  | .nullable => 2

theorem toWire_fromWire {value : Int32} {nullability : ColumnNullability}
    (hvalue : fromWire value = .ok nullability) : nullability.toWire = value := by
  unfold fromWire at hvalue
  apply Int32.toInt_inj.mp
  split at hvalue <;> cases hvalue <;> simp_all [toWire]

end ColumnNullability

structure JdbcColumn where
  ordinal : UInt32
  label : String
  name : String
  jdbcType : Int32
  jdbcTypeName : String
  valueType : JdbcValueType
  nullability : ColumnNullability
  precision : Option UInt32
  scale : Option Int32
  displaySize : Option UInt32
  signed : Option Bool
  catalogName : Option String
  schemaName : Option String
  tableName : Option String
deriving DecidableEq

namespace JdbcColumn

def fromWire (column : Wire.JdbcColumn) : Except String JdbcColumn := do
  let valueType ← JdbcValueType.fromWire column.valueType
  let nullability ← ColumnNullability.fromWire column.nullability
  pure
    { ordinal := column.ordinal
      label := column.label
      name := column.name
      jdbcType := column.jdbcType
      jdbcTypeName := column.jdbcTypeName
      valueType
      nullability
      precision := column.precision
      scale := column.scale
      displaySize := column.displaySize
      signed := column.signed
      catalogName := column.catalogName
      schemaName := column.schemaName
      tableName := column.tableName }

def toWire (column : JdbcColumn) : Wire.JdbcColumn :=
  { ordinal := column.ordinal
    label := column.label
    name := column.name
    jdbcType := column.jdbcType
    jdbcTypeName := column.jdbcTypeName
    valueType := column.valueType.toWire
    nullability := column.nullability.toWire
    precision := column.precision
    scale := column.scale
    displaySize := column.displaySize
    signed := column.signed
    catalogName := column.catalogName
    schemaName := column.schemaName
    tableName := column.tableName }

theorem toWire_fromWire {wireColumn : Wire.JdbcColumn} {column : JdbcColumn}
    (hcolumn : fromWire wireColumn = .ok column) : column.toWire = wireColumn := by
  obtain ⟨valueType, hvalueType, hcolumn⟩ := (Outcome.bind_eq_ok _ _ _).mp hcolumn
  obtain ⟨nullability, hnullability, hcolumn⟩ := (Outcome.bind_eq_ok _ _ _).mp hcolumn
  obtain rfl := (Outcome.pure_eq_ok _ _).mp hcolumn
  simp only [toWire, JdbcValueType.toWire_fromWire hvalueType,
    ColumnNullability.toWire_fromWire hnullability]

end JdbcColumn

/-- The variants are those of the message, without the unset one. -/
def valueFromWire (value : Wire.JdbcValue) : Except String Value :=
  Outcome.orThrow value.value "JDBC value payload is missing"

def valueToWire (value : Value) : Wire.JdbcValue := { value := some value }

theorem valueToWire_valueFromWire {wireValue : Wire.JdbcValue} {value : Value}
    (hvalue : valueFromWire wireValue = .ok value) : valueToWire value = wireValue := by
  have hset := (Outcome.orThrow_eq_ok _ _ _).mp hvalue
  cases wireValue
  simp only at hset
  rw [hset, valueToWire]

structure JdbcRow where
  values : List Value
deriving DecidableEq

theorem map_mapM_ok {ε α β : Type} {convert : α → Except ε β} {back : β → α}
    (hback : ∀ source target, convert source = .ok target → back target = source)
    {sources : List α} {targets : List β} (htargets : sources.mapM convert = .ok targets) :
    targets.map back = sources := by
  induction sources generalizing targets with
  | nil =>
    obtain rfl := (Outcome.pure_eq_ok _ _).mp htargets
    rfl
  | cons source rest ih =>
    rw [List.mapM_cons] at htargets
    obtain ⟨target, htarget, htargets⟩ := (Outcome.bind_eq_ok _ _ _).mp htargets
    obtain ⟨converted, hconverted, htargets⟩ := (Outcome.bind_eq_ok _ _ _).mp htargets
    obtain rfl := (Outcome.pure_eq_ok _ _).mp htargets
    rw [List.map_cons, hback source target htarget, ih hconverted]

namespace JdbcRow

def fromWire (row : Wire.JdbcRow) : Except String JdbcRow := do
  let values ← row.values.mapM valueFromWire
  pure { values }

def toWire (row : JdbcRow) : Wire.JdbcRow := { values := row.values.map valueToWire }

theorem toWire_fromWire {wireRow : Wire.JdbcRow} {row : JdbcRow}
    (hrow : fromWire wireRow = .ok row) : row.toWire = wireRow := by
  obtain ⟨values, hvalues, hrow⟩ := (Outcome.bind_eq_ok _ _ _).mp hrow
  obtain rfl := (Outcome.pure_eq_ok _ _).mp hrow
  simp only [toWire, map_mapM_ok (fun _ _ => valueToWire_valueFromWire) hvalues]

end JdbcRow

structure QueryStarted where
  columns : List JdbcColumn
deriving DecidableEq

def QueryStarted.toWire (started : QueryStarted) : Wire.QueryStarted :=
  { columns := started.columns.map JdbcColumn.toWire }

structure RowBatch where
  startRowOffset : UInt64
  rows : List JdbcRow
deriving DecidableEq

def RowBatch.toWire (batch : RowBatch) : Wire.RowBatch :=
  { startRowOffset := batch.startRowOffset, rows := batch.rows.map JdbcRow.toWire }

structure QueryCompleted where
  rowCount : UInt64
  truncatedByMaxRows : Bool
  truncatedByMaxResultBytes : Bool
deriving DecidableEq

def QueryCompleted.toWire (completed : QueryCompleted) : Wire.QueryCompleted :=
  { rowCount := completed.rowCount
    truncatedByMaxRows := completed.truncatedByMaxRows
    truncatedByMaxResultBytes := completed.truncatedByMaxResultBytes }

inductive QueryEvent where
  | started (started : QueryStarted)
  | batch (batch : RowBatch)
  | completed (completed : QueryCompleted)
deriving DecidableEq

/-- The message that an event came from. -/
def QueryEvent.toWire : QueryEvent → Wire.Payload
  | .started schema => .queryStarted schema.toWire
  | .batch rows => .rowBatch rows.toWire
  | .completed summary => .queryCompleted summary.toWire

def queryEventFromPayload : Wire.Payload → Except String QueryEvent
  | .queryStarted started => do
    let columns ← started.columns.mapM JdbcColumn.fromWire
    pure (.started { columns })
  | .rowBatch batch => do
    let rows ← batch.rows.mapM JdbcRow.fromWire
    pure (.batch { startRowOffset := batch.startRowOffset, rows })
  | .queryCompleted completed =>
    .ok (.completed
      { rowCount := completed.rowCount
        truncatedByMaxRows := completed.truncatedByMaxRows
        truncatedByMaxResultBytes := completed.truncatedByMaxResultBytes })
  | _ => .error "query stream used an unexpected response payload"

theorem toWire_queryEventFromPayload {payload : Wire.Payload} {event : QueryEvent}
    (hevent : queryEventFromPayload payload = .ok event) : event.toWire = payload := by
  cases payload with
  | queryStarted started =>
    obtain ⟨columns, hcolumns, hevent⟩ := (Outcome.bind_eq_ok _ _ _).mp hevent
    obtain rfl := (Outcome.pure_eq_ok _ _).mp hevent
    simp only [QueryEvent.toWire, QueryStarted.toWire,
      map_mapM_ok (fun _ _ => JdbcColumn.toWire_fromWire) hcolumns]
  | rowBatch batch =>
    obtain ⟨rows, hrows, hevent⟩ := (Outcome.bind_eq_ok _ _ _).mp hevent
    obtain rfl := (Outcome.pure_eq_ok _ _).mp hevent
    simp only [QueryEvent.toWire, RowBatch.toWire,
      map_mapM_ok (fun _ _ => JdbcRow.toWire_fromWire) hrows]
  | queryCompleted completed =>
    obtain rfl := Except.ok.inj hevent
    rfl
  | _ => cases hevent

end Chat2DB.Supervisor
