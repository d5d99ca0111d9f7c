import Mathlib

/-! # Durable agent records

The rows of the agent tables and the inputs of the agent store, field by field.
Counters the store replaces together (`AgentRunCounters`, `AgentRunProgress`)
are grouped, since every progress-carrying input repeats the same columns.
-/

namespace Chat2DB.Storage

/-- SHA-256 of canonical tool arguments. -/
abbrev Sha256 := BitVec 256

/-- Greatest `INTEGER` that SQLite and `i64` represent. -/
def i64Max : Nat := 9223372036854775807

/-- Greatest `u64`. -/
def u64Max : Nat := 18446744073709551615

def maxAgentMessageBytes : Nat := 256 * 1024
def maxAgentMessagesPerSession : Nat := 4096
def maxAgentMessageBytesPerSession : Nat := 32 * 1024 * 1024
def maxAgentSessionTitleBytes : Nat := 512
def maxToolCallIdBytes : Nat := 512
def maxToolNameBytes : Nat := 512
def maxPermissionSummaryBytes : Nat := 4096
def maxRunErrorCodeBytes : Nat := 128
def maxRunErrorMessageBytes : Nat := 4096

/-- The storage failures the agent store can report. `sqlite` stands for every
statement SQLite refuses, in particular a violated constraint. -/
inductive StorageError where
  | sqlite
  | providerNotFound (id : String)
  | datasourceNotFound (id : String)
  | agentSessionNotFound (id : String)
  | agentSessionRevisionConflict (id : String) (expected : Nat) (actual : Option Nat)
  | agentSessionBusy (id : String)
  | agentRunNotFound (id : String)
  | agentStateConflict (id : String) (expected actual : String)
  | invalidAgent (reason : String)
  | agentQuotaExceeded (resource : String) (limit : Nat)
  | permissionNotFound (id : String)
  | permissionRevisionConflict (id : String) (expected : Nat) (actual : Option Nat)
  | permissionNotExecutable (id : String) (reason : String)
  | resultHandleNotFound (id : String)
  | resultNotFound (id : String)
  | numericRange (label : String)
  | outcomeUnknown (operation id : String)
deriving DecidableEq

/-- Durable agent-session ownership record. -/
structure AgentSessionRecord where
  id : String
  title : String
  providerId : String
  datasourceId : Option String
  revision : Nat
  createdAtMs : Int
  updatedAtMs : Int
deriving DecidableEq

/-- Fields required to create a durable agent session. -/
structure CreateAgentSession where
  title : String
  providerId : String
  datasourceId : Option String
  systemPrompt : Option String
deriving DecidableEq

/-- Revisioned session ownership update. -/
structure UpdateAgentSession where
  title : String
  providerId : String
  datasourceId : Option String
deriving DecidableEq

/-- Roles accepted by the canonical visible-message store. -/
inductive AgentMessageRole where
  | system
  | user
  | assistant
  | tool
  | summary
deriving DecidableEq

/-- One session-owned canonical message append request. -/
structure AppendAgentMessage where
  role : AgentMessageRole
  summaryThroughOrdinal : Option Nat
  contentJson : String
deriving DecidableEq

/-- One ordinal-addressed durable canonical message. -/
structure AgentMessageRecord where
  id : String
  sessionId : String
  runId : Option String
  ordinal : Nat
  role : AgentMessageRole
  summaryThroughOrdinal : Option Nat
  contentJson : String
  contentBytes : Nat
  createdAtMs : Int
deriving DecidableEq

/-- SQL capability granted to one durable agent run. -/
inductive SqlPermissionMode where
  | readOnly
  | askBeforeWrite
deriving DecidableEq

/-- Input atomically persisted when one run starts. -/
structure StartAgentRun where
  userMessage : String
  sqlPermissionMode : SqlPermissionMode
deriving DecidableEq

/-- Durable agent-run lifecycle states. -/
inductive AgentRunStatus where
  | running
  | waitingPermission
  | completed
  | failed
  | cancelled
deriving DecidableEq

namespace AgentRunStatus

def asStr : AgentRunStatus → String
  | running => "running"
  | waitingPermission => "waiting_permission"
  | completed => "completed"
  | failed => "failed"
  | cancelled => "cancelled"

def isTerminal : AgentRunStatus → Bool
  | completed | failed | cancelled => true
  | running | waitingPermission => false

/-- The condition `status IN ('running', 'waiting_permission')`. -/
def isActive : AgentRunStatus → Bool
  | running | waitingPermission => true
  | completed | failed | cancelled => false

def canTransitionTo (current next : AgentRunStatus) : Bool :=
  if current = next then
    !current.isTerminal
  else
    match current, next with
    | waitingPermission, running | waitingPermission, failed | waitingPermission, cancelled => true
    | running, waitingPermission | running, completed | running, failed | running, cancelled => true
    | _, _ => false

theorem isActive_eq_not_isTerminal (status : AgentRunStatus) :
    status.isActive = !status.isTerminal := by
  cases status <;> rfl

end AgentRunStatus

/-- Event sequence, round and tool counters, and token usage of a run. -/
structure AgentRunCounters where
  lastSequence : Nat
  modelRounds : Nat
  toolCalls : Nat
  inputTokens : Nat
  outputTokens : Nat
  totalTokens : Nat
deriving DecidableEq

/-- Counters together with the compaction columns. -/
structure AgentRunProgress extends AgentRunCounters where
  compactionCount : Nat
  compactedThroughOrdinal : Option Nat
deriving DecidableEq

/-- Durable run progress and token-usage replacement. -/
structure AgentRunUpdate extends AgentRunProgress where
  status : AgentRunStatus
deriving DecidableEq

/-- Exact durable effect of one context-compaction event. -/
inductive AgentCompaction where
  | noOp
  | deterministicTrim (compactedThroughOrdinal : Nat)
  | summary (compactedThroughOrdinal : Nat) (contentJson : String)
deriving DecidableEq

/-- One context-compaction event persisted with its exact durable effect. -/
structure CompactAgentRun extends AgentRunCounters where
  compaction : AgentCompaction
deriving DecidableEq

/-- One complete provider-neutral message appended as part of a run transaction. -/
structure AgentRunMessage where
  role : AgentMessageRole
  summaryThroughOrdinal : Option Nat
  contentJson : String
deriving DecidableEq

/-- Successful run progress and the final canonical assistant message. -/
structure CompleteAgentRun extends AgentRunProgress where
  messages : List AgentRunMessage
deriving DecidableEq

/-- Failed run progress, safe error, and any complete messages produced first. -/
structure FailAgentRun extends AgentRunProgress where
  errorCode : String
  errorMessage : Option String
  messages : List AgentRunMessage
deriving DecidableEq

/-- Cancelled run progress and complete messages produced before cancellation. -/
structure CancelAgentRun extends AgentRunProgress where
  messages : List AgentRunMessage
deriving DecidableEq

/-- Progress and complete messages for a database write with an unknown outcome. -/
structure UnknownAgentWrite extends AgentRunProgress where
  messages : List AgentRunMessage
deriving DecidableEq

/-- Durable run state, counters, usage, cancellation, and compaction metadata. -/
structure AgentRunRecord extends AgentRunProgress where
  id : String
  sessionId : String
  status : AgentRunStatus
  sqlPermissionMode : SqlPermissionMode
  messageId : Option String
  errorCode : Option String
  errorMessage : Option String
  cancelRequested : Bool
  writeInFlightToolCallId : Option String
  writeInFlightArgumentsSha256 : Option Sha256
  createdAtMs : Int
  updatedAtMs : Int
  startedAtMs : Option Int
  finishedAtMs : Option Int
deriving DecidableEq

/-- Durable run and its atomically inserted user message. -/
structure StartedAgentRun where
  run : AgentRunRecord
  userMessage : AgentMessageRecord
deriving DecidableEq

/-- Durable compaction progress and its optional atomically inserted summary. -/
structure CompactedAgentRun where
  run : AgentRunRecord
  summaryMessage : Option AgentMessageRecord
deriving DecidableEq

/-- A terminal run with the messages its transaction appended. -/
structure FinishedAgentRun where
  run : AgentRunRecord
  messages : List AgentMessageRecord
deriving DecidableEq

/-- Human decision applied to one pending tool permission. -/
inductive ToolPermissionDecision where
  | approve
  | deny
deriving DecidableEq

/-- Durable one-shot permission states. -/
inductive ToolPermissionStatus where
  | pending
  | approved
  | denied
  | consumed
  | expired
  | revoked
deriving DecidableEq

/-- The condition `status IN ('pending', 'approved')`. -/
def ToolPermissionStatus.isActive : ToolPermissionStatus → Bool
  | pending | approved => true
  | denied | consumed | expired | revoked => false

/-- Exact write operation placed behind a one-shot approval gate. The retention
is a `Duration`, counted in nanoseconds. -/
structure RequestToolPermission extends AgentRunProgress where
  toolCallId : String
  toolName : String
  argumentsSha256 : Sha256
  summary : String
  retentionNanos : Nat
deriving DecidableEq

/-- Durable permission bound to one run, tool call, and argument digest. -/
structure ToolPermissionRecord where
  id : String
  runId : String
  toolCallId : String
  toolName : String
  argumentsSha256 : Sha256
  summary : String
  status : ToolPermissionStatus
  revision : Nat
  expiresAtMs : Int
  createdAtMs : Int
  updatedAtMs : Int
  consumedAtMs : Option Int
deriving DecidableEq

/-- Opaque, ownership-bound mapping to an existing retained result. -/
structure AgentResultHandle where
  id : String
  sessionId : String
  runId : String
  resultId : String
  createdAtMs : Int
  expiresAtMs : Int
deriving DecidableEq

/-- The columns of `retained_results` that the agent store reads. -/
structure RetainedResult where
  id : String
  complete : Bool
  expiresAtMs : Int
deriving DecidableEq

/-- Recovery actions applied to durable agent state before storage is exposed. -/
structure AgentRecoveryReport where
  runsFailed : Nat
  writeOutcomesUnknown : Nat
  permissionsRevoked : Nat
  resultHandlesRemoved : Nat
deriving DecidableEq

/-- The agent tables, each in insertion order. -/
structure AgentDb where
  sessions : List AgentSessionRecord
  runs : List AgentRunRecord
  permissions : List ToolPermissionRecord
  messages : List AgentMessageRecord
  resultHandles : List AgentResultHandle
deriving DecidableEq

/-- The store right after its tables are created. -/
def AgentDb.empty : AgentDb :=
  { sessions := [], runs := [], permissions := [], messages := [], resultHandles := [] }

end Chat2DB.Storage
