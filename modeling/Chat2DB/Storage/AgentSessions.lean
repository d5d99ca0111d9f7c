import Chat2DB.Storage.AgentStatements

/-! # Session, message and result-handle transactions, and crash recovery

Provider profiles, datasources and retained results live in other stores; the
operations here take the rows of them that exist when the call runs.
-/

namespace Chat2DB.Storage

open Outcome

def appendSystemPrompt (json : JsonEngine) (env : CallEnv) (sessionId : String) (timestamp : Int)
    (db : AgentDb) : Option (String × Nat) → Except StorageError AgentDb
  | none => .ok db
  | some (canonical, canonicalBytes) => do
    let appended ← appendMessageInTransaction json sessionId none (env.uuid 1) .system none
      canonical canonicalBytes timestamp db
    pure appended.2

def normalizeSystemPrompt (json : JsonEngine) :
    Option String → Except StorageError (Option (String × Nat))
  | none => .ok none
  | some prompt => do
    let canonical ← textMessageJson json prompt
    pure (some canonical)

/-- The provider and the optional datasource of a session exist. -/
def requireSessionBindings (providers datasources : List String) (providerId : String)
    (datasourceId : Option String) : Except StorageError Unit := do
  rejectIf (providerId ∉ providers) (.providerNotFound providerId)
  match datasourceId with
  | none => pure ()
  | some id => rejectIf (id ∉ datasources) (.datasourceNotFound id)

def createAgentSession (json : JsonEngine) (env : CallEnv) (providers datasources : List String)
    (input : CreateAgentSession) : Transaction AgentSessionRecord := fun db => do
  validateSessionTitle input.title
  let timestamp ← env.clock
  let systemPrompt ← normalizeSystemPrompt json input.systemPrompt
  requireSessionBindings providers datasources input.providerId input.datasourceId
  let record : AgentSessionRecord :=
    { id := env.uuid 0, title := input.title, providerId := input.providerId
      datasourceId := input.datasourceId, revision := 1
      createdAtMs := timestamp, updatedAtMs := timestamp }
  rejectIf (db.sessions.any fun session => session.id = record.id) .sqlite
  let inserted := { db with sessions := db.sessions ++ [record] }
  let appended ← appendSystemPrompt json env record.id timestamp inserted systemPrompt
  pure (.ok record, appended)

/-- Load a session for a compare-and-set on its revision. -/
def loadRevisionedSession (id : String) (expectedRevision : Nat) (db : AgentDb) :
    Except StorageError AgentSessionRecord := do
  let current ← orThrow (db.loadSession id) (.agentSessionNotFound id)
  rejectIf (current.revision ≠ expectedRevision)
    (.agentSessionRevisionConflict id expectedRevision (some current.revision))
  pure current

def updateAgentSession (env : CallEnv) (providers datasources : List String) (id : String)
    (expectedRevision : Nat) (input : UpdateAgentSession) :
    Transaction AgentSessionRecord := fun db => do
  validateSessionTitle input.title
  let nextRevision ← orThrow (checkedAdd expectedRevision 1)
    (.numericRange "agent session revision")
  let current ← loadRevisionedSession id expectedRevision db
  rejectIf
    ((current.providerId ≠ input.providerId ∨ current.datasourceId ≠ input.datasourceId) ∧
      db.sessionBusy id)
    (.agentSessionBusy id)
  requireSessionBindings providers datasources input.providerId input.datasourceId
  let timestamp ← env.clock
  toSqlI64 nextRevision "agent session revision"
  toSqlI64 expectedRevision "agent session revision"
  let cond := fun session : AgentSessionRecord =>
    decide (session.id = id) && decide (session.revision = expectedRevision)
  rejectIf (Rows.changed cond db.sessions ≠ 1)
    (.agentSessionRevisionConflict id expectedRevision
      ((db.loadSession id).map AgentSessionRecord.revision))
  let updated : AgentDb :=
    { db with
      sessions := Rows.update cond
        (fun session =>
          { session with
            title := input.title
            providerId := input.providerId
            datasourceId := input.datasourceId
            revision := nextRevision
            updatedAtMs := timestamp })
        db.sessions }
  pure (readBack (updated.loadSession id) "update agent session" id, updated)

/-- `DELETE FROM agent_sessions` with the foreign-key actions it triggers. The
`SET NULL` actions on `agent_messages.run_id` and `agent_runs.message_id` only
reach rows of the deleted session, which are removed with it. -/
def deleteSessionCascade (id : String) (db : AgentDb) : AgentDb :=
  { sessions := db.sessions.filter fun session => session.id ≠ id
    runs := db.runs.filter fun run => run.sessionId ≠ id
    permissions := db.permissions.filter fun permission =>
      !db.runs.any fun run => run.sessionId = id && run.id = permission.runId
    messages := db.messages.filter fun message => message.sessionId ≠ id
    resultHandles := db.resultHandles.filter fun handle => handle.sessionId ≠ id }

def deleteAgentSession (id : String) (expectedRevision : Nat) : Transaction Unit := fun db => do
  toSqlI64 expectedRevision "agent session revision"
  let _ ← loadRevisionedSession id expectedRevision db
  rejectIf (db.sessionBusy id) (.agentSessionBusy id)
  let cond := fun session : AgentSessionRecord =>
    decide (session.id = id) && decide (session.revision = expectedRevision)
  rejectIf (Rows.changed cond db.sessions ≠ 1)
    (.agentSessionRevisionConflict id expectedRevision
      ((db.loadSession id).map AgentSessionRecord.revision))
  pure (.ok (), deleteSessionCascade id db)

def appendAgentMessage (json : JsonEngine) (env : CallEnv) (sessionId : String)
    (input : AppendAgentMessage) : Transaction AgentMessageRecord := fun db => do
  rejectIf (input.role = .summary)
    (.invalidAgent "summary messages require the dedicated atomic compaction API")
  let canonical ← normalizeMessageJson json input.contentJson
  rejectIf (db.sessionBusy sessionId) (.agentSessionBusy sessionId)
  let timestamp ← env.clock
  let appended ← appendMessageInTransaction json sessionId none (env.uuid 0) input.role
    input.summaryThroughOrdinal canonical.1 canonical.2 timestamp db
  pure (.ok appended.1, appended.2)

/-! ## Result handles -/

/-- A complete retained result that is still live at the given time. -/
def liveResult (results : List RetainedResult) (resultId : String) (timestamp : Int) :
    Option RetainedResult :=
  results.find? fun result => result.id = resultId && result.complete && result.expiresAtMs > timestamp

def createAgentResultHandle (env : CallEnv) (results : List RetainedResult)
    (sessionId runId resultId : String) (retentionNanos : Nat) :
    Transaction AgentResultHandle := fun db => do
  rejectIf (retentionNanos = 0)
    (.invalidAgent "result handle retention must be greater than zero")
  let timestamp ← env.clock
  let retentionMs := retentionNanos / 1000000
  rejectIf (retentionMs > i64Max) (.numericRange "result handle retention")
  let requestedExpiry := timestamp + retentionMs
  rejectIf (requestedExpiry > i64Max) (.numericRange "result handle expiry")
  rejectIf (requestedExpiry ≤ timestamp)
    (.invalidAgent "result handle expiry must be after creation")
  let owner ← orThrow (db.loadRun runId) (.agentRunNotFound runId)
  rejectIf (owner.sessionId ≠ sessionId) (.resultHandleNotFound runId)
  let result ← orThrow (liveResult results resultId timestamp) (.resultNotFound resultId)
  let handle : AgentResultHandle :=
    { id := env.uuid 0, sessionId, runId, resultId, createdAtMs := timestamp
      expiresAtMs := min requestedExpiry result.expiresAtMs }
  rejectIf (db.resultHandles.any fun stored => stored.id = handle.id) .sqlite
  pure (.ok handle, { db with resultHandles := db.resultHandles ++ [handle] })

/-- A handle found dead is deleted, and the call still reports it missing. -/
def resolveAgentResultHandle (env : CallEnv) (results : List RetainedResult)
    (id sessionId runId : String) : Transaction AgentResultHandle := fun db => do
  let timestamp ← env.clock
  let handle ← orThrow
    ((Rows.find AgentResultHandle.id id db.resultHandles).filter fun handle =>
      handle.sessionId = sessionId && handle.runId = runId)
    (.resultHandleNotFound id)
  if handle.expiresAtMs ≤ timestamp ∨ (liveResult results handle.resultId timestamp).isNone then
    pure (.error (.resultHandleNotFound id),
      { db with resultHandles := db.resultHandles.filter fun stored => stored.id ≠ id })
  else
    pure (.ok handle, db)

def purgeExpiredAgentResultHandles (env : CallEnv) : Transaction Nat := fun db => do
  let timestamp ← env.clock
  let expired := fun handle : AgentResultHandle => decide (handle.expiresAtMs ≤ timestamp)
  pure (.ok (db.resultHandles.countP expired),
    { db with resultHandles := db.resultHandles.filter fun handle => !expired handle })

/-! ## Crash recovery -/

/-- The sequence of a run that recovery ends, saturating at the column's maximum. -/
def recoveredSequence (lastSequence : Nat) : Nat :=
  if lastSequence < i64Max then lastSequence + 1 else lastSequence

/-- The failure recovery records on a run. -/
def AgentRunRecord.recoverAs (run : AgentRunRecord) (code message : String) (timestamp : Int) :
    AgentRunRecord :=
  { run with
    status := .failed
    errorCode := some code
    errorMessage := some message
    lastSequence := recoveredSequence run.lastSequence
    updatedAtMs := timestamp
    finishedAtMs := some timestamp }

def recoverAgentsAt (results : List RetainedResult) (timestamp : Int) :
    Transaction AgentRecoveryReport := fun db => do
  let fenced := fun run : AgentRunRecord =>
    run.status.isActive && run.writeInFlightToolCallId.isSome
  let interrupted := fun run : AgentRunRecord =>
    run.status.isActive && run.writeInFlightToolCallId.isNone
  let unknownRuns := Rows.update fenced
    (fun run => run.recoverAs "database_outcome_unknown"
      "Database write outcome is unknown after runtime restart" timestamp) db.runs
  let failedRuns := Rows.update interrupted
    (fun run => run.recoverAs "runtime_restarted"
      "Agent run interrupted by runtime restart" timestamp) unknownRuns
  let active := fun permission : ToolPermissionRecord => permission.status.isActive
  let dead := fun handle : AgentResultHandle =>
    decide (handle.expiresAtMs ≤ timestamp) ||
      (liveResult results handle.resultId timestamp).isNone
  let report : AgentRecoveryReport :=
    { runsFailed := Rows.changed fenced db.runs + Rows.changed interrupted unknownRuns
      writeOutcomesUnknown := Rows.changed fenced db.runs
      permissionsRevoked := Rows.changed active db.permissions
      resultHandlesRemoved := db.resultHandles.countP dead }
  pure (.ok report,
    { db with
      runs := failedRuns
      permissions := Rows.update active
        (fun permission => permission.advance .revoked timestamp) db.permissions
      resultHandles := db.resultHandles.filter fun handle => !dead handle })

end Chat2DB.Storage
