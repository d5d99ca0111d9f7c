import Chat2DB.Base.Channel
import Chat2DB.Supervisor.QueryEvents

/-! # A query stream that waits for the engine

The events of a query go into a bounded channel, and the engine sends a batch
only against a credit, so that the bridge never has to wait for the consumer.
Every response is checked against the protocol before it becomes an event.
-/

namespace Chat2DB.Supervisor

open Outcome (rejectIf)

def u32Max : Nat := 2 ^ 32 - 1

def u64Max : Nat := 2 ^ 64 - 1

def maxRetiredRequests : Nat := 1024

def maxCreditGrant : Nat := 8

def maxOutstandingCredits : Nat := 32

/-! ## Failures -/

inductive DeliveryOutcome where
  | notSent
  | unknown
deriving DecidableEq

inductive PendingFailure where
  | unavailable (message : String) (outcome : DeliveryOutcome)
  | timeout (requestId : String) (outcome : DeliveryOutcome)
  | invalidRequest (message : String)
  | protocol (message : String)
  | remote (error : Wire.EngineError)
deriving DecidableEq

/-- What the channel of a stream carries. -/
abbrev StreamItem := Except PendingFailure QueryEvent

/-- The rules of the protocol that a response to a stream can break. -/
inductive StreamViolation where
  | sequence (expected : Nat) (received : UInt64)
  | sequenceOverflow
  | queryStartedEnvelope
  | columnLimit
  | columnOrdinals
  | rowBatchEnvelope
  | noCredit
  | batchRowLimit
  | targetBatchRows
  | batchByteLimit
  | targetBatchBytes
  | rowOffset
  | rowColumnCount
  | rowCountOverflow
  | maxRows
  | resultBytesOverflow
  | maxResultBytes
  | queryCompletedEnvelope
  | maxRowsTruncation
  | nonTerminalError
  | unexpectedPayload
  | conversion (message : String)
  | channelFull (capacity : Nat)
deriving DecidableEq

/-- Why a response ends the engine. -/
inductive RouteError where
  | invalid (message : String)
  | stream (requestId : String) (violation : StreamViolation)
deriving DecidableEq

/-! ## Payloads -/

inductive SessionState where
  | autoCommit
  | transactionActive
  | rollbackRequired
  | broken
  | closed
deriving DecidableEq

def SessionState.fromWire (value : Int32) : Except String SessionState :=
  match value.toInt with
  | 1 => .ok .autoCommit
  | 2 => .ok .transactionActive
  | 3 => .ok .rollbackRequired
  | 4 => .ok .broken
  | 5 => .ok .closed
  | other => .error s!"unknown JDBC session state {other}"

def validateScalar (value field : String) : Except String Unit :=
  rejectIf (Wire.maxScalarBytes < value.utf8ByteSize)
    s!"{field} exceeded the {Wire.maxScalarBytes}-byte scalar limit"

def validateOptionalScalar (value : Option String) (field : String) : Except String Unit :=
  match value with
  | some value => validateScalar value field
  | none => .ok ()

def validateNonEmptyBytes (value : String) (maximum : Nat) (field : String) :
    Except String Unit := do
  rejectIf (value.utf8ByteSize = 0) s!"{field} cannot be empty"
  rejectIf (maximum < value.utf8ByteSize) s!"{field} exceeded the {maximum}-byte limit"

def validateCause (cause : Wire.DatabaseErrorCause) : Except String Unit := do
  validateScalar cause.className "database error class"
  validateScalar cause.message "database error cause message"
  validateOptionalScalar cause.sqlState "database cause SQL state"

def validateDatabaseError (database : Wire.DatabaseErrorDetail) : Except String Unit := do
  validateOptionalScalar database.sqlState "database SQL state"
  validateOptionalScalar database.constraintName "constraint name"
  rejectIf (Wire.maxErrorCauses < database.causes.length)
    s!"database error exceeded the {Wire.maxErrorCauses}-cause limit"
  database.causes.forM validateCause

def validateEngineError (error : Wire.EngineError) : Except String (Option SessionState) := do
  validateScalar error.code "engine error code"
  validateScalar error.message "engine error message"
  rejectIf (error.category.toInt < 1 ∨ 7 < error.category.toInt)
    s!"engine error used unknown category {error.category}"
  rejectIf (error.outcome.toInt < 1 ∨ 4 < error.outcome.toInt)
    s!"engine error used unknown operation outcome {error.outcome}"
  error.metadata.forM fun entry => do
    validateScalar entry.1 "engine error metadata key"
    validateScalar entry.2 "engine error metadata value"
  match error.databaseError with
  | some database => validateDatabaseError database
  | none => pure ()
  match error.sessionState with
  | some state => do
    let state ← SessionState.fromWire state
    pure (some state)
  | none => pure none

def validateDatabaseProduct (database : Wire.DatabaseProduct) : Except String Unit := do
  validateScalar database.name "database name"
  validateScalar database.version "database version"
  validateScalar database.driverName "database driver name"
  validateScalar database.driverVersion "database driver version"

def validateColumn (column : Wire.JdbcColumn) : Except String Unit :=
  rejectIf (Wire.maxScalarBytes < column.label.utf8ByteSize ∨
      Wire.maxScalarBytes < column.name.utf8ByteSize ∨
      Wire.maxScalarBytes < column.jdbcTypeName.utf8ByteSize)
    "column exceeded the scalar limit"

def validateResponsePayload : Wire.Payload → Except String (Option SessionState)
  | .error error => validateEngineError error
  | .driverLoaded driverId driverClass artifactCount => do
    validateNonEmptyBytes driverId Wire.maxDriverIdBytes "driver id"
    validateNonEmptyBytes driverClass Wire.maxDriverClassBytes "driver class"
    rejectIf (Wire.maxDriverArtifacts < artifactCount.toNat)
      s!"driver response exceeded the {Wire.maxDriverArtifacts}-artifact limit"
    pure none
  | .driverUnloaded driverId => do
    validateNonEmptyBytes driverId Wire.maxDriverIdBytes "driver id"
    pure none
  | .sessionOpened sessionId database state => do
    validateNonEmptyBytes sessionId Wire.maxDriverIdBytes "session id"
    match database with
    | some database => validateDatabaseProduct database
    | none => pure ()
    let state ← SessionState.fromWire state
    pure (some state)
  | .sessionClosed state | .transactionCommitted state | .transactionRolledBack state => do
    let state ← SessionState.fromWire state
    pure (some state)
  | .transactionStarted transactionId state => do
    validateNonEmptyBytes transactionId Wire.maxDriverIdBytes "transaction id"
    let state ← SessionState.fromWire state
    pure (some state)
  | .queryStarted started => do
    started.columns.forM validateColumn
    pure none
  | _ => .ok none

/-! ## Streams -/

structure QueryBudgets where
  maxRows : Nat
  targetBatchRows : Nat
  targetBatchBytes : Nat
  maxResultBytes : Nat
deriving DecidableEq

structure StreamPending where
  /-- The number of the channel that the events go into. -/
  events : Option Nat
  eventCapacity : Nat
  budgets : QueryBudgets
  abandoned : Bool
  started : Bool
  columnCount : Nat
  nextSequence : Nat
  nextRowOffset : Nat
  resultBytes : Nat
  outstandingCredits : Nat
deriving DecidableEq

namespace StreamPending

/-- Slots of the channel that are kept for other events than batches. -/
def reservedNonBatch (stream : StreamPending) : Nat := (if stream.started then 0 else 1) + 1

/-- `free` is the capacity that the channel of the stream has left. -/
def reserveCredits (stream : StreamPending) (free batchCredits : Nat) :
    Except PendingFailure StreamPending := do
  rejectIf (batchCredits = 0) (.invalidRequest "credit grants must be greater than zero")
  rejectIf (maxCreditGrant < batchCredits)
    (.invalidRequest s!"one credit grant cannot exceed {maxCreditGrant}")
  rejectIf (stream.events = none)
    (.invalidRequest "cannot grant credits to an abandoned query stream")
  let available := free - stream.reservedNonBatch - stream.outstandingCredits
  rejectIf (available < batchCredits) (.invalidRequest
    s!"credit grant {batchCredits} exceeds bounded stream capacity {available}")
  rejectIf (u32Max < stream.outstandingCredits + batchCredits)
    (.invalidRequest "query credit count overflowed")
  rejectIf (maxOutstandingCredits < stream.outstandingCredits + batchCredits) (.invalidRequest
    s!"outstanding query credits cannot exceed {maxOutstandingCredits}")
  pure { stream with outstandingCredits := stream.outstandingCredits + batchCredits }

def releaseReservedCredits (stream : StreamPending) (credits : Nat) : StreamPending :=
  { stream with outstandingCredits := stream.outstandingCredits - credits }

/-- The columns are numbered from one on. -/
def ordinalsContiguous (columns : List Wire.JdbcColumn) : Bool :=
  (columns.map (·.ordinal.toNat)) = (List.range columns.length).map (· + 1)

def convert (payload : Wire.Payload) : Except StreamViolation QueryEvent :=
  (queryEventFromPayload payload).mapError .conversion

def acceptStarted (stream : StreamPending) (metadata : Wire.ResponseMeta)
    (started : Wire.QueryStarted) : Except StreamViolation (StreamPending × QueryEvent) := do
  rejectIf (metadata.terminal ∨ stream.started ∨ metadata.sequence ≠ 0) .queryStartedEnvelope
  rejectIf (Wire.maxColumns < started.columns.length) .columnLimit
  rejectIf (¬ ordinalsContiguous started.columns) .columnOrdinals
  let event ← convert (.queryStarted started)
  pure ({ stream with started := true, columnCount := started.columns.length }, event)

def acceptBatch (codec : Wire.Codec) (stream : StreamPending) (metadata : Wire.ResponseMeta)
    (batch : Wire.RowBatch) : Except StreamViolation (StreamPending × QueryEvent) := do
  rejectIf (metadata.terminal ∨ ¬ stream.started) .rowBatchEnvelope
  rejectIf (stream.outstandingCredits = 0) .noCredit
  rejectIf (Wire.maxBatchRows < batch.rows.length) .batchRowLimit
  rejectIf (stream.budgets.targetBatchRows ≠ 0 ∧
    stream.budgets.targetBatchRows < batch.rows.length) .targetBatchRows
  rejectIf (Wire.maxBatchBytes < codec.batchLength batch) .batchByteLimit
  rejectIf (stream.budgets.targetBatchBytes ≠ 0 ∧
    stream.budgets.targetBatchBytes < codec.batchLength batch) .targetBatchBytes
  rejectIf (batch.startRowOffset.toNat ≠ stream.nextRowOffset) .rowOffset
  rejectIf (∃ row ∈ batch.rows, row.values.length ≠ stream.columnCount) .rowColumnCount
  let nextRowOffset := stream.nextRowOffset + batch.rows.length
  rejectIf (u64Max < nextRowOffset) .rowCountOverflow
  rejectIf (stream.budgets.maxRows ≠ 0 ∧ stream.budgets.maxRows < nextRowOffset) .maxRows
  let resultBytes := stream.resultBytes + (batch.rows.map codec.rowLength).sum
  rejectIf (u64Max < resultBytes) .resultBytesOverflow
  rejectIf (stream.budgets.maxResultBytes < resultBytes) .maxResultBytes
  let event ← convert (.rowBatch batch)
  pure ({ stream with
    outstandingCredits := stream.outstandingCredits - 1, nextRowOffset, resultBytes }, event)

def acceptCompleted (stream : StreamPending) (metadata : Wire.ResponseMeta)
    (completed : Wire.QueryCompleted) : Except StreamViolation QueryEvent := do
  rejectIf (¬ metadata.terminal ∨ ¬ stream.started ∨
    completed.rowCount.toNat ≠ stream.nextRowOffset) .queryCompletedEnvelope
  rejectIf (completed.truncatedByMaxRows ∧ (stream.budgets.maxRows = 0 ∨
    completed.rowCount.toNat ≠ stream.budgets.maxRows)) .maxRowsTruncation
  convert (.queryCompleted completed)

/-- What a response is for its stream: the stream after it, what is sent to the
consumer, and whether it is the last. -/
def acceptPayload (codec : Wire.Codec) (stream : StreamPending) (metadata : Wire.ResponseMeta) :
    Wire.Payload → Except StreamViolation (StreamPending × StreamItem × Bool)
  | .queryStarted started => do
    let (stream, event) ← stream.acceptStarted metadata started
    pure (stream, .ok event, false)
  | .rowBatch batch => do
    let (stream, event) ← stream.acceptBatch codec metadata batch
    pure (stream, .ok event, false)
  | .queryCompleted completed => do
    let event ← stream.acceptCompleted metadata completed
    pure (stream, .ok event, true)
  | .error error => do
    rejectIf (¬ metadata.terminal) .nonTerminalError
    pure (stream, .error (.remote error), true)
  | _ => .error .unexpectedPayload

/-- The next response is expected. -/
def advance (stream : StreamPending) : StreamPending :=
  { stream with nextSequence := stream.nextSequence + 1 }

def accept (codec : Wire.Codec) (stream : StreamPending) (metadata : Wire.ResponseMeta)
    (payload : Wire.Payload) : Except StreamViolation (StreamPending × StreamItem × Bool) := do
  rejectIf (metadata.sequence.toNat ≠ stream.nextSequence)
    (.sequence stream.nextSequence metadata.sequence)
  rejectIf (u64Max < stream.nextSequence + 1) .sequenceOverflow
  stream.advance.acceptPayload codec metadata payload

/-- An event that cannot be sent because the consumer is gone abandons the stream. -/
def emit (stream : StreamPending) (channels : List (Channel StreamItem)) (event : QueryEvent) :
    Except StreamViolation (StreamPending × List (Channel StreamItem)) :=
  match stream.events with
  | none => .ok (stream, channels)
  | some number =>
    match channels[number]? with
    | none => .ok (stream, channels)
    | some channel =>
      match channel.trySend (.ok event) with
      | .ok sent => .ok (stream, channels.set number sent)
      | .error .closed => .ok ({ stream with abandoned := true, events := none }, channels)
      | .error .full => .error (.channelFull stream.eventCapacity)

/-- A failure that cannot be sent is dropped. -/
def emitFailure (stream : StreamPending) (channels : List (Channel StreamItem))
    (failure : PendingFailure) : List (Channel StreamItem) :=
  match stream.events with
  | none => channels
  | some number =>
    match channels[number]? with
    | none => channels
    | some channel =>
      match channel.trySend (.error failure) with
      | .ok sent => channels.set number sent
      | .error _ => channels

def route (codec : Wire.Codec) (stream : StreamPending) (channels : List (Channel StreamItem))
    (metadata : Wire.ResponseMeta) (payload : Wire.Payload) :
    Except StreamViolation (StreamPending × List (Channel StreamItem) × Bool) := do
  let (stream, item, terminal) ← stream.accept codec metadata payload
  match item with
  | .ok event => do
    let (stream, channels) ← stream.emit channels event
    pure (stream, channels, terminal)
  | .error failure => pure (stream, stream.emitFailure channels failure, terminal)

end StreamPending

end Chat2DB.Supervisor
