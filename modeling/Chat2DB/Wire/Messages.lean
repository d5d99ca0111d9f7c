import Chat2DB.Base.Outcome

/-! # Messages of the engine protocol

The messages that the engine sends to the bridge, with the limits that both
keep. Enumerations travel as plain integers and may be unknown to the receiver.
-/

namespace Chat2DB.Wire

/-! ## Limits -/

def maxErrorCauses : Nat := 16

def maxDriverArtifacts : Nat := 32

def maxDriverIdBytes : Nat := 255

def maxDriverClassBytes : Nat := 512

def maxColumns : Nat := 2048

def maxBatchRows : Nat := 4096

def maxScalarBytes : Nat := 4194304

def maxBatchBytes : Nat := 8388608

def defaultResultBytes : Nat := 67108864

def maxResultBytes : Nat := 1073741824

def maxFrameBytes : Nat := 16777216

/-! ## Results -/

/-- The variants of the value of a column. Floating-point values are their bits. -/
inductive Value where
  | null
  | boolean (value : Bool)
  | signedInteger (value : Int64)
  | unsignedInteger (value : UInt64)
  | float32 (bits : UInt32)
  | float64 (bits : UInt64)
  | decimal (value : String)
  | text (value : String)
  | binary (value : List UInt8)
  | date (value : String)
  | time (value : String)
  | timestamp (value : String)
  | timestampWithTimeZone (value : String)
  | json (value : String)
  | uuid (value : String)
  | opaqueValue (typeName displayValue : String)
deriving DecidableEq

/-- A message whose `oneof` may be unset. -/
structure JdbcValue where
  value : Option Value
deriving DecidableEq

structure JdbcColumn where
  ordinal : UInt32
  label : String
  name : String
  jdbcType : Int32
  jdbcTypeName : String
  valueType : Int32
  nullability : Int32
  precision : Option UInt32
  scale : Option Int32
  displaySize : Option UInt32
  signed : Option Bool
  catalogName : Option String
  schemaName : Option String
  tableName : Option String
deriving DecidableEq

structure JdbcRow where
  values : List JdbcValue
deriving DecidableEq

structure QueryStarted where
  columns : List JdbcColumn
deriving DecidableEq

structure RowBatch where
  startRowOffset : UInt64
  rows : List JdbcRow
deriving DecidableEq

structure QueryCompleted where
  rowCount : UInt64
  truncatedByMaxRows : Bool
  truncatedByMaxResultBytes : Bool
deriving DecidableEq

/-! ## Errors -/

structure DatabaseErrorCause where
  className : String
  message : String
  sqlState : Option String
  vendorCode : Option Int32
deriving DecidableEq

structure DatabaseErrorDetail where
  sqlState : Option String
  vendorCode : Option Int32
  constraintName : Option String
  statementPosition : Option UInt32
  causes : List DatabaseErrorCause
deriving DecidableEq

structure EngineError where
  code : String
  message : String
  category : Int32
  retryable : Bool
  fatal : Bool
  outcome : Int32
  metadata : List (String × String)
  databaseError : Option DatabaseErrorDetail
  sessionState : Option Int32
deriving DecidableEq

/-! ## Envelopes -/

structure ResponseMeta where
  requestId : String
  traceId : String
  sequence : UInt64
  terminal : Bool
deriving DecidableEq

structure DatabaseProduct where
  name : String
  version : String
  driverName : String
  driverVersion : String
deriving DecidableEq

/-- The payloads of a response. Those that the bridge hands on unread have no content here. -/
inductive Payload where
  | hello
  | pong
  | shutdownAck
  | quiesceAck (generation epoch nonce : UInt64) (hasSnapshot : Bool)
  | resumeAck (generation epoch nonce : UInt64)
  | error (error : EngineError)
  | driverLoaded (driverId driverClass : String) (artifactCount : UInt32)
  | driverUnloaded (driverId : String)
  | sessionOpened (sessionId : String) (database : Option DatabaseProduct) (sessionState : Int32)
  | sessionClosed (sessionState : Int32)
  | transactionStarted (transactionId : String) (sessionState : Int32)
  | transactionCommitted (sessionState : Int32)
  | transactionRolledBack (sessionState : Int32)
  | queryStarted (started : QueryStarted)
  | rowBatch (batch : RowBatch)
  | queryCompleted (completed : QueryCompleted)
  | metadataResult
  | updateCompleted
  | creditsGranted (acceptedBatchCredits : UInt32)
  | operationCancelled
deriving DecidableEq

structure ServerEnvelope where
  responseMeta : Option ResponseMeta
  payload : Option Payload
deriving DecidableEq

/-! ## Encoding -/

/-- The encoding of the messages that are stored or whose size is limited. -/
structure Codec where
  encodeSchema : QueryStarted → List UInt8
  decodeSchema : List UInt8 → Option QueryStarted
  encodeBatch : RowBatch → List UInt8
  decodeBatch : List UInt8 → Option RowBatch
  encodeRow : JdbcRow → List UInt8

namespace Codec

variable (codec : Codec)

def schemaLength (schema : QueryStarted) : Nat := (codec.encodeSchema schema).length

def batchLength (batch : RowBatch) : Nat := (codec.encodeBatch batch).length

def rowLength (row : JdbcRow) : Nat := (codec.encodeRow row).length

end Codec

end Chat2DB.Wire
