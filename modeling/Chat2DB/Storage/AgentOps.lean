import Chat2DB.Base.Trace
import Chat2DB.Storage.AgentPermissions
import Chat2DB.Storage.AgentRuns
import Chat2DB.Storage.AgentSessions

/-! # Operation sequences of the agent store

One constructor for every mutating operation, with the arguments and the
outside readings of one call. Calls are atomic transactions, so any use of the
store by any number of tasks is a sequence of them.
-/

namespace Chat2DB.Storage

open Outcome

inductive AgentOp where
  | createAgentSession (env : CallEnv) (providers datasources : List String)
      (input : CreateAgentSession)
  | updateAgentSession (env : CallEnv) (providers datasources : List String) (id : String)
      (expectedRevision : Nat) (input : UpdateAgentSession)
  | deleteAgentSession (id : String) (expectedRevision : Nat)
  | appendAgentMessage (env : CallEnv) (sessionId : String) (input : AppendAgentMessage)
  | startAgentRunWithIds (env : CallEnv) (runId userMessageId sessionId : String)
      (input : StartAgentRun)
  | updateAgentRun (env : CallEnv) (id : String) (expectedStatus : AgentRunStatus)
      (update : AgentRunUpdate)
  | compactAgentRun (env : CallEnv) (id : String) (expectedStatus : AgentRunStatus)
      (input : CompactAgentRun)
  | completeAgentRun (env : CallEnv) (id : String) (expectedStatus : AgentRunStatus)
      (input : CompleteAgentRun)
  | failAgentRun (env : CallEnv) (id : String) (expectedStatus : AgentRunStatus)
      (input : FailAgentRun)
  | requestAgentRunCancellation (env : CallEnv) (id : String)
  | finishCancelledAgentRun (env : CallEnv) (id : String) (expectedStatus : AgentRunStatus)
      (input : CancelAgentRun)
  | createToolPermission (env : CallEnv) (runId : String) (input : RequestToolPermission)
  | decideToolPermission (env : CallEnv) (id : String) (expectedRevision : Nat)
      (runId toolCallId : String) (argumentsSha256 : Sha256) (lastSequence : Nat)
      (decision : ToolPermissionDecision)
  | expireToolPermission (env : CallEnv) (id : String) (expectedRevision : Nat)
      (runId toolCallId : String) (argumentsSha256 : Sha256) (lastSequence : Nat)
  | revokeToolPermission (env : CallEnv) (id : String) (expectedRevision : Nat)
      (runId toolCallId : String) (argumentsSha256 : Sha256) (lastSequence : Nat)
  | consumeToolPermission (env : CallEnv) (id : String) (expectedRevision : Nat)
      (runId toolCallId : String) (argumentsSha256 : Sha256) (lastSequence : Nat)
  | settleAgentWrite (env : CallEnv) (runId toolCallId : String) (argumentsSha256 : Sha256)
  | failAgentWriteOutcomeUnknown (env : CallEnv) (runId toolCallId : String)
      (argumentsSha256 : Sha256) (input : UnknownAgentWrite)
  | createAgentResultHandle (env : CallEnv) (results : List RetainedResult)
      (sessionId runId resultId : String) (retentionNanos : Nat)
  | resolveAgentResultHandle (env : CallEnv) (results : List RetainedResult)
      (id sessionId runId : String)
  | purgeExpiredAgentResultHandles (env : CallEnv)
  | recoverAgentsAt (results : List RetainedResult) (timestamp : Int)

/-- What a successful call returns. -/
inductive AgentReply where
  | session (record : AgentSessionRecord)
  | message (record : AgentMessageRecord)
  | started (value : StartedAgentRun)
  | run (record : AgentRunRecord)
  | compacted (value : CompactedAgentRun)
  | finished (value : FinishedAgentRun)
  | permission (record : ToolPermissionRecord)
  | handle (record : AgentResultHandle)
  | purged (count : Nat)
  | recovered (report : AgentRecoveryReport)
  | deleted
deriving DecidableEq

/-- Run a transaction and wrap its successful result. -/
def reply {α : Type} (wrap : α → AgentReply) (body : Transaction α) (db : AgentDb) :
    Except StorageError AgentReply × AgentDb :=
  ((transact body db).1.map wrap, (transact body db).2)

/-- The effect of one call on the store, and what it returns. -/
def exec (json : JsonEngine) : AgentOp → AgentDb → Except StorageError AgentReply × AgentDb
  | .createAgentSession env providers datasources input =>
    reply .session (createAgentSession json env providers datasources input)
  | .updateAgentSession env providers datasources id expectedRevision input =>
    reply .session (updateAgentSession env providers datasources id expectedRevision input)
  | .deleteAgentSession id expectedRevision =>
    reply (fun _ => .deleted) (deleteAgentSession id expectedRevision)
  | .appendAgentMessage env sessionId input =>
    reply .message (appendAgentMessage json env sessionId input)
  | .startAgentRunWithIds env runId userMessageId sessionId input =>
    reply .started (startAgentRunWithIds json env runId userMessageId sessionId input)
  | .updateAgentRun env id expectedStatus update =>
    reply .run (updateAgentRun env id expectedStatus update)
  | .compactAgentRun env id expectedStatus input =>
    reply .compacted (compactAgentRun json env id expectedStatus input)
  | .completeAgentRun env id expectedStatus input =>
    reply .finished (completeAgentRun json env id expectedStatus input)
  | .failAgentRun env id expectedStatus input =>
    reply .finished (failAgentRun json env id expectedStatus input)
  | .requestAgentRunCancellation env id =>
    reply .run (requestAgentRunCancellation env id)
  | .finishCancelledAgentRun env id expectedStatus input =>
    reply .finished (finishCancelledAgentRun json env id expectedStatus input)
  | .createToolPermission env runId input =>
    reply .permission (createToolPermission env runId input)
  | .decideToolPermission env id expectedRevision runId toolCallId digest lastSequence decision =>
    reply .permission
      (decideToolPermission env id expectedRevision runId toolCallId digest lastSequence decision)
  | .expireToolPermission env id expectedRevision runId toolCallId digest lastSequence =>
    reply .permission
      (expireToolPermission env id expectedRevision runId toolCallId digest lastSequence)
  | .revokeToolPermission env id expectedRevision runId toolCallId digest lastSequence =>
    reply .permission
      (revokeToolPermission env id expectedRevision runId toolCallId digest lastSequence)
  | .consumeToolPermission env id expectedRevision runId toolCallId digest lastSequence =>
    reply .permission
      (consumeToolPermission env id expectedRevision runId toolCallId digest lastSequence)
  | .settleAgentWrite env runId toolCallId digest =>
    reply .run (settleAgentWrite env runId toolCallId digest)
  | .failAgentWriteOutcomeUnknown env runId toolCallId digest input =>
    reply .finished (failAgentWriteOutcomeUnknown json env runId toolCallId digest input)
  | .createAgentResultHandle env results sessionId runId resultId retentionNanos =>
    reply .handle (createAgentResultHandle env results sessionId runId resultId retentionNanos)
  | .resolveAgentResultHandle env results id sessionId runId =>
    reply .handle (resolveAgentResultHandle env results id sessionId runId)
  | .purgeExpiredAgentResultHandles env =>
    reply .purged (purgeExpiredAgentResultHandles env)
  | .recoverAgentsAt results timestamp =>
    reply .recovered (recoverAgentsAt results timestamp)

/-- The store after a sequence of calls on the fresh tables. -/
def storeAfter (json : JsonEngine) (ops : List AgentOp) : AgentDb :=
  Trace.run (exec json) AgentDb.empty ops

/-- The store before call number `count` of a sequence. -/
def storeAt (json : JsonEngine) (ops : List AgentOp) (count : Nat) : AgentDb :=
  Trace.stateAt (exec json) AgentDb.empty ops count

/-- Call number `index` of the sequence returned successfully. -/
def Succeeds (json : JsonEngine) (ops : List AgentOp) (index : Nat) (op : AgentOp) : Prop :=
  ops[index]? = some op ∧ ∃ value, (exec json op (storeAt json ops index)).1 = .ok value

end Chat2DB.Storage
