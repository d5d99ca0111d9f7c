import Chat2DB.Storage.AgentStatements

/-! # Run transactions

Starting, updating, compacting and finishing a run, and requesting its
cancellation.
-/

namespace Chat2DB.Storage

open Outcome

/-- `INSERT INTO agent_runs`: unique id, one active run for a session. -/
def insertRun (run : AgentRunRecord) (db : AgentDb) : Except StorageError AgentDb := do
  rejectIf (db.runs.any fun stored => stored.id = run.id) .sqlite
  rejectIf (run.status.isActive ∧ db.sessionBusy run.sessionId) .sqlite
  pure { db with runs := db.runs ++ [run] }

/-- The row a start inserts. -/
def AgentRunRecord.start (runId sessionId : String) (mode : SqlPermissionMode) (timestamp : Int) :
    AgentRunRecord :=
  { id := runId, sessionId, status := .running, sqlPermissionMode := mode
    lastSequence := 1, modelRounds := 0, toolCalls := 0
    inputTokens := 0, outputTokens := 0, totalTokens := 0
    messageId := none, errorCode := none, errorMessage := none, cancelRequested := false
    writeInFlightToolCallId := none, writeInFlightArgumentsSha256 := none
    compactionCount := 0, compactedThroughOrdinal := none
    createdAtMs := timestamp, updatedAtMs := timestamp
    startedAtMs := some timestamp, finishedAtMs := none }

def startAgentRunWithIds (json : JsonEngine) (env : CallEnv) (runId userMessageId sessionId : String)
    (input : StartAgentRun) : Transaction StartedAgentRun := fun db => do
  rejectIf (isBlank runId ∨ isBlank userMessageId)
    (.invalidAgent "agent run and message ids must not be empty")
  let timestamp ← env.clock
  let canonical ← textMessageJson json input.userMessage
  rejectIf (db.hasSession sessionId = false) (.agentSessionNotFound sessionId)
  rejectIf (db.sessionBusy sessionId) (.agentSessionBusy sessionId)
  let run := AgentRunRecord.start runId sessionId input.sqlPermissionMode timestamp
  let inserted ← insertRun run db
  let appended ← appendMessageInTransaction json sessionId (some runId) userMessageId .user none
    canonical.1 canonical.2 timestamp inserted
  pure (.ok { run, userMessage := appended.1 }, appended.2)

def validateRunUpdate (update : AgentRunUpdate) : Except StorageError Unit := do
  rejectIf update.status.isTerminal
    (.invalidAgent "terminal agent runs require an atomic terminal-message API")
  validateProgressValues update.toAgentRunProgress

def updateAgentRun (env : CallEnv) (id : String) (expectedStatus : AgentRunStatus)
    (update : AgentRunUpdate) : Transaction AgentRunRecord := fun db => do
  validateRunUpdate update
  let current ← orThrow (db.loadRun id) (.agentRunNotFound id)
  rejectIf (current.status ≠ expectedStatus) (runStateConflict id expectedStatus current.status)
  rejectIf current.writeInFlightToolCallId.isSome
    (.invalidAgent "agent run progress cannot change while a database write is in flight")
  rejectIf (current.status ≠ update.status)
    (.invalidAgent "run status transitions require their dedicated atomic API")
  validateOrdinaryProgress db id current update.toAgentRunProgress
  let timestamp ← env.clock
  progressParams update.toAgentRunProgress
  let updated ← updateOneRun
    (fun run => run.id = id && run.status = expectedStatus && !run.cancelRequested)
    (fun run =>
      { run with
        toAgentRunProgress := update.toAgentRunProgress
        status := update.status
        updatedAtMs := timestamp })
    (runStateConflict id expectedStatus current.status) db
  pure (readBack (updated.loadRun id) "update agent run" id, updated)

namespace AgentCompaction

def requestedCoverage : AgentCompaction → Option Nat
  | noOp => none
  | deterministicTrim coverage => some coverage
  | summary coverage _ => some coverage

def summaryContentJson : AgentCompaction → Option String
  | noOp => none
  | deterministicTrim _ => none
  | summary _ contentJson => some contentJson

end AgentCompaction

def normalizeSummary (json : JsonEngine) : Option String → Except StorageError (Option (String × Nat))
  | none => .ok none
  | some contentJson => do
    let normalized ← normalizeMessageJson json contentJson
    validateMessageRole json .summary normalized.1
    pure (some normalized)

/-- Compaction count and coverage after the event; only a requested coverage
advances them. -/
def compactionProgress (db : AgentDb) (current : AgentRunRecord) :
    Option Nat → Except StorageError (Nat × Option Nat)
  | none => .ok (current.compactionCount, current.compactedThroughOrdinal)
  | some coverage => do
    let recorded ← loadSessionCompactionCoverage db current.sessionId
    rejectIf (∃ currentCoverage ∈ recorded, coverage ≤ currentCoverage)
      (.invalidAgent "agent compaction coverage must advance the session")
    let count ← orThrow (checkedAdd current.compactionCount 1)
      (.numericRange "agent compaction count")
    pure (count, some coverage)

def appendSummary (json : JsonEngine) (env : CallEnv) (sessionId runId : String)
    (coverage : Option Nat) (timestamp : Int) (db : AgentDb) :
    Option (String × Nat) → Except StorageError (Option AgentMessageRecord × AgentDb)
  | none => .ok (none, db)
  | some (contentJson, contentBytes) => do
    let appended ← appendMessageInTransaction json sessionId (some runId) (env.uuid 0) .summary
      coverage contentJson contentBytes timestamp db
    pure (some appended.1, appended.2)

def compactAgentRun (json : JsonEngine) (env : CallEnv) (id : String)
    (expectedStatus : AgentRunStatus) (input : CompactAgentRun) :
    Transaction CompactedAgentRun := fun db => do
  rejectIf (expectedStatus ≠ .running)
    (.invalidAgent "agent context compaction requires a running run")
  let requestedCoverage := input.compaction.requestedCoverage
  let normalizedSummary ← normalizeSummary json input.compaction.summaryContentJson
  let current ← orThrow (db.loadRun id) (.agentRunNotFound id)
  rejectIf (current.status ≠ expectedStatus) (runStateConflict id expectedStatus current.status)
  rejectIf current.cancelRequested
    (.invalidAgent "agent context cannot compact after cancellation is requested")
  rejectIf current.writeInFlightToolCallId.isSome
    (.invalidAgent "agent context cannot compact while a database write is in flight")
  rejectIf (checkedAdd current.lastSequence 1 ≠ some input.lastSequence)
    (.invalidAgent "agent compaction sequence must be the next event")
  let compacted ← compactionProgress db current requestedCoverage
  let progress : AgentRunProgress :=
    { toAgentRunCounters := input.toAgentRunCounters
      compactionCount := compacted.1, compactedThroughOrdinal := compacted.2 }
  validateRunProgress current progress
  validateRunCompactionBoundary db id requestedCoverage
  let timestamp ← env.clock
  let appended ← appendSummary json env current.sessionId id requestedCoverage timestamp db
    normalizedSummary
  progressParams progress
  let set := fun run : AgentRunRecord =>
    { run with toAgentRunProgress := progress, updatedAtMs := timestamp }
  let updated ← updateOneRun
    (fun run => run.id = id && run.status = .running && !run.cancelRequested &&
      run.writeInFlightToolCallId.isNone)
    set (runStateConflict id expectedStatus current.status) appended.2
  pure (.ok { run := set current, summaryMessage := appended.1 }, updated)

def completeAgentRun (json : JsonEngine) (env : CallEnv) (id : String)
    (expectedStatus : AgentRunStatus) (input : CompleteAgentRun) :
    Transaction FinishedAgentRun := fun db => do
  validateProgressValues input.toAgentRunProgress
  let normalized ← normalizeAgentRunMessages json input.messages true
  let current ← orThrow (db.loadRun id) (.agentRunNotFound id)
  rejectIf (current.status ≠ expectedStatus) (runStateConflict id expectedStatus current.status)
  rejectIf
    (current.cancelRequested ∨ current.writeInFlightToolCallId.isSome ∨
      current.status.canTransitionTo .completed = false)
    (.invalidAgent "agent run cannot complete from its current state")
  validateOrdinaryProgress db id current input.toAgentRunProgress
  let timestamp ← env.clock
  let appended ← appendRunMessages json current.sessionId id env.uuid timestamp 0 normalized db
  let final ← orThrow appended.1.getLast?
    (.invalidAgent "completed agent run requires a final assistant message")
  progressParams input.toAgentRunProgress
  let updated ← updateOneRun
    (fun run => run.id = id && run.status = expectedStatus && !run.cancelRequested)
    (fun run =>
      { run with
        toAgentRunProgress := input.toAgentRunProgress
        status := .completed
        messageId := some final.id
        errorCode := none
        errorMessage := none
        updatedAtMs := timestamp
        finishedAtMs := some timestamp })
    (runStateConflict id expectedStatus current.status) appended.2
  let revoked := revokeActivePermissions id timestamp updated
  pure
    (do
      let run ← readBack (revoked.loadRun id) "complete agent run" id
      pure { run, messages := appended.1 },
    revoked)

def failAgentRun (json : JsonEngine) (env : CallEnv) (id : String)
    (expectedStatus : AgentRunStatus) (input : FailAgentRun) :
    Transaction FinishedAgentRun := fun db => do
  validateSafeError input.errorCode input.errorMessage
  validateProgressValues input.toAgentRunProgress
  let normalized ← normalizeAgentRunMessages json input.messages false
  let current ← orThrow (db.loadRun id) (.agentRunNotFound id)
  rejectIf (current.status ≠ expectedStatus) (runStateConflict id expectedStatus current.status)
  rejectIf
    (current.cancelRequested ∨ current.writeInFlightToolCallId.isSome ∨
      current.status.canTransitionTo .failed = false)
    (.invalidAgent "agent run cannot fail from its current state")
  validateOrdinaryProgress db id current input.toAgentRunProgress
  let timestamp ← env.clock
  let appended ← appendRunMessages json current.sessionId id env.uuid timestamp 0 normalized db
  progressParams input.toAgentRunProgress
  let updated ← updateOneRun
    (fun run => run.id = id && run.status = expectedStatus && !run.cancelRequested &&
      run.writeInFlightToolCallId.isNone)
    (fun run =>
      { run with
        toAgentRunProgress := input.toAgentRunProgress
        status := .failed
        messageId := none
        errorCode := some input.errorCode
        errorMessage := input.errorMessage
        updatedAtMs := timestamp
        finishedAtMs := some timestamp })
    (runStateConflict id expectedStatus current.status) appended.2
  let revoked := revokeActivePermissions id timestamp updated
  pure
    (do
      let run ← readBack (revoked.loadRun id) "fail agent run" id
      pure { run, messages := appended.1 },
    revoked)

def requestAgentRunCancellation (env : CallEnv) (id : String) : Transaction AgentRunRecord :=
  fun db => do
    let current ← orThrow (db.loadRun id) (.agentRunNotFound id)
    if current.status.isTerminal ∨ current.cancelRequested then
      pure (.ok current, db)
    else
      let timestamp ← env.clock
      let updated ← updateOneRun
        (fun run => run.id = id && run.status = current.status)
        (fun run =>
          { run with
            status := if run.status = .waitingPermission then .running else run.status
            cancelRequested := true
            updatedAtMs := timestamp })
        (runStateConflict id current.status current.status) db
      let revoked := revokeActivePermissions id timestamp updated
      pure (readBack (revoked.loadRun id) "request agent run cancellation" id, revoked)

def finishCancelledAgentRun (json : JsonEngine) (env : CallEnv) (id : String)
    (expectedStatus : AgentRunStatus) (input : CancelAgentRun) :
    Transaction FinishedAgentRun := fun db => do
  validateProgressValues input.toAgentRunProgress
  let normalized ← normalizeAgentRunMessages json input.messages false
  let current ← orThrow (db.loadRun id) (.agentRunNotFound id)
  rejectIf (current.status ≠ expectedStatus) (runStateConflict id expectedStatus current.status)
  rejectIf
    (current.cancelRequested = false ∨ current.writeInFlightToolCallId.isSome ∨
      current.status.isTerminal)
    (.invalidAgent "agent run cancellation cannot finish from its current state")
  validateOrdinaryProgress db id current input.toAgentRunProgress
  let timestamp ← env.clock
  let appended ← appendRunMessages json current.sessionId id env.uuid timestamp 0 normalized db
  progressParams input.toAgentRunProgress
  let updated ← updateOneRun
    (fun run => run.id = id && run.status = expectedStatus && run.cancelRequested &&
      run.writeInFlightToolCallId.isNone)
    (fun run =>
      { run with
        toAgentRunProgress := input.toAgentRunProgress
        status := .cancelled
        messageId := none
        errorCode := none
        errorMessage := none
        updatedAtMs := timestamp
        finishedAtMs := some timestamp })
    (runStateConflict id expectedStatus current.status) appended.2
  pure
    (do
      let run ← readBack (updated.loadRun id) "finish cancelled agent run" id
      pure { run, messages := appended.1 },
    updated)

/-- Clear one exact write fence after a known outcome. -/
def settleAgentWrite (env : CallEnv) (runId toolCallId : String) (argumentsSha256 : Sha256) :
    Transaction AgentRunRecord := fun db => do
  let current ← orThrow (db.loadRun runId) (.agentRunNotFound runId)
  rejectIf
    (current.status ≠ .running ∨ current.writeInFlightToolCallId ≠ some toolCallId ∨
      current.writeInFlightArgumentsSha256 ≠ some argumentsSha256)
    (.permissionNotExecutable runId "database write dispatch fence does not match")
  let timestamp ← env.clock
  let updated ← updateOneRun
    (fun run => run.id = runId && run.writeInFlightToolCallId = some toolCallId &&
      run.writeInFlightArgumentsSha256 = some argumentsSha256)
    (fun run =>
      { run with
        writeInFlightToolCallId := none
        writeInFlightArgumentsSha256 := none
        updatedAtMs := timestamp })
    (.permissionNotExecutable runId "database write dispatch fence settlement CAS failed") db
  pure (readBack (updated.loadRun runId) "settle agent write" runId, updated)

/-- Record an unknowable write outcome; the fence is kept as evidence. -/
def failAgentWriteOutcomeUnknown (json : JsonEngine) (env : CallEnv) (runId toolCallId : String)
    (argumentsSha256 : Sha256) (input : UnknownAgentWrite) :
    Transaction FinishedAgentRun := fun db => do
  validateProgressValues input.toAgentRunProgress
  let normalized ← normalizeAgentRunMessages json input.messages false
  let current ← orThrow (db.loadRun runId) (.agentRunNotFound runId)
  rejectIf
    (current.status ≠ .running ∨ current.writeInFlightToolCallId ≠ some toolCallId ∨
      current.writeInFlightArgumentsSha256 ≠ some argumentsSha256)
    (.permissionNotExecutable runId "database write dispatch fence does not match")
  validateOrdinaryProgress db runId current input.toAgentRunProgress
  let timestamp ← env.clock
  let appended ← appendRunMessages json current.sessionId runId env.uuid timestamp 0 normalized db
  progressParams input.toAgentRunProgress
  let updated ← updateOneRun
    (fun run => run.id = runId && run.status = .running &&
      run.writeInFlightToolCallId = some toolCallId &&
      run.writeInFlightArgumentsSha256 = some argumentsSha256)
    (fun run =>
      { run with
        toAgentRunProgress := input.toAgentRunProgress
        status := .failed
        messageId := none
        errorCode := some "database_outcome_unknown"
        errorMessage := some "Database write outcome is unknown and must not be retried"
        updatedAtMs := timestamp
        finishedAtMs := some timestamp })
    (.permissionNotExecutable runId "database write outcome transition CAS failed") appended.2
  pure
    (do
      let run ← readBack (updated.loadRun runId) "fail unknown agent write" runId
      pure { run, messages := appended.1 },
    updated)

end Chat2DB.Storage
