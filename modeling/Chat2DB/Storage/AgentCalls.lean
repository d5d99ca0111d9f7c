import Chat2DB.Storage.AgentOps

/-! # Calls over a connection that fails

`exec` runs a call on a connection that works. Here a statement may fail, the
commit may answer an error whether or not it took place, and the row may not
be readable afterwards. Starting, compacting and cancelling a run read the
tables after such an answer to learn what became of their commit; every other
call hands the error on.
-/

namespace Chat2DB.Storage

/-- What became of a commit. -/
inductive CommitOutcome where
  | applied
  /-- It answers an error, and nothing was written. -/
  | refused
  /-- It answers an error, although everything was written. -/
  | unanswered
deriving DecidableEq

/-- What goes wrong during one call. -/
structure CallFaults where
  /-- A statement ahead of the commit fails. -/
  statement : Option StorageError
  commit : CommitOutcome
  /-- Reading after the commit fails, or another connection has removed the row. -/
  readBack : Option StorageError
deriving DecidableEq

namespace CallFaults

/-- The connection works. -/
def none : CallFaults := { statement := .none, commit := .applied, readBack := .none }

/-- The call reaches its commit, and the commit takes place. -/
def Durable (faults : CallFaults) : Prop :=
  faults.statement = .none ∧ faults.commit ≠ .refused

instance (faults : CallFaults) : Decidable faults.Durable :=
  inferInstanceAs (Decidable (_ ∧ _))

end CallFaults

/-- One call of the agent store, and what goes wrong during it. -/
structure AgentCall where
  op : AgentOp
  faults : CallFaults

/-! ## Reading back after a failed commit -/

def AgentDb.loadMessage (db : AgentDb) (id : String) : Option AgentMessageRecord :=
  Rows.find AgentMessageRecord.id id db.messages

def reconcileAgentRunStartCommit (readBack : Option StorageError) (expected : StartedAgentRun)
    (originalError : StorageError) (db : AgentDb) : Except StorageError StartedAgentRun :=
  let unknown : StorageError := .outcomeUnknown "start agent run" expected.run.id
  match readBack with
  | some _ => .error unknown
  | none =>
    let actualRun := db.loadRun expected.run.id
    let actualMessage := db.loadMessage expected.userMessage.id
    if actualRun = some expected.run ∧ actualMessage = some expected.userMessage then
      .ok expected
    else if actualRun = none ∧ actualMessage = none then
      .error originalError
    else
      .error unknown

def reconcileAgentCompactionCommit (readBack : Option StorageError) (id : String)
    (priorRun : AgentRunRecord) (expected : CompactedAgentRun) (originalError : StorageError)
    (db : AgentDb) : Except StorageError CompactedAgentRun :=
  let unknown : StorageError := .outcomeUnknown "compact agent run" id
  match readBack with
  | some _ => .error unknown
  | none =>
    let actualRun := db.loadRun id
    let actualSummary := expected.summaryMessage.bind fun summary => db.loadMessage summary.id
    let summaryApplied := expected.summaryMessage = none ∨ actualSummary = expected.summaryMessage
    let summaryAbsent := expected.summaryMessage = none ∨ actualSummary = none
    if actualRun = some expected.run ∧ summaryApplied then
      .ok { run := expected.run, summaryMessage := actualSummary }
    else if actualRun = some priorRun ∧ summaryAbsent then
      .error originalError
    else
      .error unknown

def reconcileAgentRunCancellationCommit (readBack : Option StorageError) (id : String)
    (priorRun : AgentRunRecord) (originalError : StorageError) (db : AgentDb) :
    Except StorageError AgentRunRecord :=
  let unknown : StorageError := .outcomeUnknown "request agent run cancellation" id
  match readBack with
  | some _ => .error unknown
  | none =>
    match db.loadRun id with
    | none => .error originalError
    | some actual =>
      if actual.status.isTerminal ∨ actual.cancelRequested then
        .ok actual
      else if actual = priorRun then
        .error originalError
      else
        .error unknown

/-! ## Calls -/

/-- A transaction whose result is wrapped as the reply of its call. -/
def Transaction.replying {α : Type} (wrap : α → AgentReply) (body : Transaction α) :
    Transaction AgentReply := fun db => do
  let committed ← body db
  pure (committed.1.map wrap, committed.2)

namespace AgentOp

/-- The transaction of a call. -/
def transaction (json : JsonEngine) : AgentOp → Transaction AgentReply
  | createAgentSession env providers datasources input =>
    .replying .session (Storage.createAgentSession json env providers datasources input)
  | updateAgentSession env providers datasources id expectedRevision input =>
    .replying .session
      (Storage.updateAgentSession env providers datasources id expectedRevision input)
  | deleteAgentSession id expectedRevision =>
    .replying (fun _ => .deleted) (Storage.deleteAgentSession id expectedRevision)
  | appendAgentMessage env sessionId input =>
    .replying .message (Storage.appendAgentMessage json env sessionId input)
  | startAgentRunWithIds env runId userMessageId sessionId input =>
    .replying .started
      (Storage.startAgentRunWithIds json env runId userMessageId sessionId input)
  | updateAgentRun env id expectedStatus update =>
    .replying .run (Storage.updateAgentRun env id expectedStatus update)
  | compactAgentRun env id expectedStatus input =>
    .replying .compacted (Storage.compactAgentRun json env id expectedStatus input)
  | completeAgentRun env id expectedStatus input =>
    .replying .finished (Storage.completeAgentRun json env id expectedStatus input)
  | failAgentRun env id expectedStatus input =>
    .replying .finished (Storage.failAgentRun json env id expectedStatus input)
  | requestAgentRunCancellation env id =>
    .replying .run (Storage.requestAgentRunCancellation env id)
  | finishCancelledAgentRun env id expectedStatus input =>
    .replying .finished (Storage.finishCancelledAgentRun json env id expectedStatus input)
  | createToolPermission env runId input =>
    .replying .permission (Storage.createToolPermission env runId input)
  | decideToolPermission env id expectedRevision runId toolCallId digest lastSequence decision =>
    .replying .permission (Storage.decideToolPermission env id expectedRevision runId toolCallId
      digest lastSequence decision)
  | expireToolPermission env id expectedRevision runId toolCallId digest lastSequence =>
    .replying .permission
      (Storage.expireToolPermission env id expectedRevision runId toolCallId digest lastSequence)
  | revokeToolPermission env id expectedRevision runId toolCallId digest lastSequence =>
    .replying .permission
      (Storage.revokeToolPermission env id expectedRevision runId toolCallId digest lastSequence)
  | consumeToolPermission env id expectedRevision runId toolCallId digest lastSequence =>
    .replying .permission
      (Storage.consumeToolPermission env id expectedRevision runId toolCallId digest lastSequence)
  | settleAgentWrite env runId toolCallId digest =>
    .replying .run (Storage.settleAgentWrite env runId toolCallId digest)
  | failAgentWriteOutcomeUnknown env runId toolCallId digest input =>
    .replying .finished
      (Storage.failAgentWriteOutcomeUnknown json env runId toolCallId digest input)
  | createAgentResultHandle env results sessionId runId resultId retentionNanos =>
    .replying .handle
      (Storage.createAgentResultHandle env results sessionId runId resultId retentionNanos)
  | resolveAgentResultHandle env results id sessionId runId =>
    .replying .handle (Storage.resolveAgentResultHandle env results id sessionId runId)
  | purgeExpiredAgentResultHandles env =>
    .replying .purged (Storage.purgeExpiredAgentResultHandles env)
  | recoverAgentsAt results timestamp =>
    .replying .recovered (Storage.recoverAgentsAt results timestamp)

/-- A cancellation with nothing to do returns the run without a commit. -/
def returnsEarly (db : AgentDb) : AgentOp → Bool
  | requestAgentRunCancellation _ id =>
    (db.loadRun id).any fun run => run.status.isTerminal || run.cancelRequested
  | _ => false

/-- The call loads the row it returns after its commit. A decision does so only
where it found the permission expired. -/
def readsBack (db : AgentDb) : AgentOp → Bool
  | createAgentSession .. | deleteAgentSession .. | appendAgentMessage ..
  | startAgentRunWithIds .. | compactAgentRun .. | createAgentResultHandle ..
  | resolveAgentResultHandle .. | purgeExpiredAgentResultHandles .. | recoverAgentsAt .. => false
  | decideToolPermission env id _ _ _ _ _ _ =>
    (db.loadPermission id).any fun permission =>
      match env.clock with
      | .ok timestamp => permission.expiresAtMs ≤ timestamp
      | .error _ => false
  | _ => true

/-- The call reads the tables after a commit that answers an error. -/
def reconciles : AgentOp → Bool
  | startAgentRunWithIds .. | compactAgentRun .. | requestAgentRunCancellation .. => true
  | _ => false

/-- What a call returns once its commit went through. -/
def afterCommit (op : AgentOp) (faults : CallFaults) (prior : AgentDb)
    (reply : Except StorageError AgentReply) : Except StorageError AgentReply :=
  match reply, faults.readBack with
  | .ok _, some error => if op.readsBack prior then .error error else reply
  | _, _ => reply

/-- What a call returns whose commit answers an error, over the tables as they
are then. -/
def afterCommitError (op : AgentOp) (faults : CallFaults) (prior : AgentDb)
    (reply : Except StorageError AgentReply) (actual : AgentDb) :
    Except StorageError AgentReply :=
  match op, reply with
  | startAgentRunWithIds .., .ok (.started expected) =>
    (reconcileAgentRunStartCommit faults.readBack expected .sqlite actual).map .started
  | compactAgentRun _ id _ _, .ok (.compacted expected) =>
    match prior.loadRun id with
    | some priorRun =>
      (reconcileAgentCompactionCommit faults.readBack id priorRun expected .sqlite actual).map
        .compacted
    | none => .error .sqlite
  | requestAgentRunCancellation _ id, _ =>
    match prior.loadRun id with
    | some priorRun =>
      (reconcileAgentRunCancellationCommit faults.readBack id priorRun .sqlite actual).map .run
    | none => .error .sqlite
  | _, _ => .error .sqlite

end AgentOp

/-- The effect of one call on the store, and what it returns. -/
def AgentCall.perform (json : JsonEngine) (call : AgentCall) (db : AgentDb) :
    Except StorageError AgentReply × AgentDb :=
  match call.faults.statement with
  | some error => (.error error, db)
  | none =>
    match call.op.transaction json db with
    | .error error => (.error error, db)
    | .ok (reply, committed) =>
      if call.op.returnsEarly db then (reply, db)
      else
        match call.faults.commit with
        | .applied => (call.op.afterCommit call.faults db reply, committed)
        | .refused => (call.op.afterCommitError call.faults db reply db, db)
        | .unanswered => (call.op.afterCommitError call.faults db reply committed, committed)

/-- The store after a sequence of calls on the fresh tables. -/
def callsAfter (json : JsonEngine) (calls : List AgentCall) : AgentDb :=
  Trace.run (AgentCall.perform json) AgentDb.empty calls

/-- The store before call number `count` of a sequence. -/
def callsAt (json : JsonEngine) (calls : List AgentCall) (count : Nat) : AgentDb :=
  Trace.stateAt (AgentCall.perform json) AgentDb.empty calls count

end Chat2DB.Storage
