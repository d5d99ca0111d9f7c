import Chat2DB.Base.Effect
import Chat2DB.Agent.Hub
import Chat2DB.Storage.OutsideCalls

/-! # The write tool of an agent run

One call of the tool requests a permission, waits for the decision, consumes the
approval, dispatches the update and settles its fence. Each storage call meets
what other tasks committed before it and may fail before or after its own
commit; the hub and the database answer as they like.
-/

namespace Chat2DB.Agent

open Storage

/-! ## Errors -/

def ApiError.new (code message : String) : ApiError :=
  { code, message, retryable := false }

def internalError : ApiError :=
  ApiError.new "internal_error" "The operation could not be completed"

/-- The error a storage failure is reported as. -/
def apiError : StorageError → ApiError
  | .datasourceNotFound id =>
    ApiError.new "datasource_not_found" ("Datasource " ++ id ++ " does not exist")
  | .resultNotFound id =>
    ApiError.new "result_not_found" ("Result " ++ id ++ " does not exist or expired")
  | .providerNotFound id =>
    ApiError.new "provider_not_found" ("Provider profile " ++ id ++ " does not exist")
  | .agentSessionNotFound id =>
    ApiError.new "agent_session_not_found" ("Agent session " ++ id ++ " does not exist")
  | .agentSessionRevisionConflict _ _ _ =>
    ApiError.new "agent_session_revision_conflict"
      "The agent session changed before the update was applied"
  | .agentSessionBusy _ =>
    ApiError.new "agent_session_busy" "The agent session already has an active run"
  | .agentRunNotFound id =>
    ApiError.new "agent_run_not_found" ("Agent run " ++ id ++ " does not exist")
  | .agentStateConflict _ _ _ =>
    ApiError.new "agent_state_conflict" "The agent run changed before the operation was applied"
  | .invalidAgent reason => ApiError.new "invalid_agent_request" reason
  | .agentQuotaExceeded _ _ =>
    ApiError.new "agent_quota_exceeded" "The agent session reached a configured resource limit"
  | .permissionNotFound id =>
    ApiError.new "tool_permission_not_found" ("Tool permission " ++ id ++ " does not exist")
  | .permissionRevisionConflict _ _ _ =>
    ApiError.new "tool_permission_revision_conflict"
      "The tool permission changed before the decision was applied"
  | .permissionNotExecutable _ _ =>
    ApiError.new "tool_permission_not_executable"
      "The tool permission cannot authorize this execution"
  | .resultHandleNotFound id =>
    ApiError.new "agent_result_handle_not_found"
      ("Agent result handle " ++ id ++ " does not exist or expired")
  | .outcomeUnknown _ _ =>
    ApiError.new "storage_outcome_unknown"
      "The durable storage outcome is unknown and was not retried"
  | .sqlite | .numericRange _ => internalError

/-- What is known about the effect of a tool when it fails. -/
inductive ExecutionOutcome where
  | notStarted
  | failed
  | unknown
deriving DecidableEq

structure ToolExecutionError where
  code : String
  message : String
  outcome : ExecutionOutcome
deriving DecidableEq

def toolError (error : ApiError) (outcome : ExecutionOutcome) : ToolExecutionError :=
  { code := error.code, message := error.message, outcome }

def invalidArguments (message : String) : ToolExecutionError :=
  { code := "invalid_tool_arguments", message, outcome := .notStarted }

def internalToolError : ToolExecutionError :=
  { code := "agent_tool_internal_error", message := "The tool could not produce a bounded result"
    outcome := .failed }

def writeSettlementUnknown : ToolExecutionError :=
  { code := "agent_write_settlement_unknown"
    message := "The durable write fence could not be reconciled", outcome := .unknown }

def toolCancelled : ToolExecutionError :=
  { code := "agent_tool_cancelled"
    message := "The database write was cancelled before dispatch", outcome := .notStarted }

def permissionError : AgentPermissionStatus → ToolExecutionError
  | .denied =>
    { code := "database_write_denied", message := "The user denied this database write"
      outcome := .notStarted }
  | .expired =>
    { code := "database_write_permission_expired"
      message := "The database write permission expired", outcome := .notStarted }
  | .revoked =>
    { code := "database_write_permission_revoked"
      message := "The database write permission was revoked", outcome := .notStarted }
  | .pending | .approved | .consumed =>
    { code := "database_write_permission_invalid"
      message := "The database write permission is not executable", outcome := .notStarted }

inductive DatabaseWriteOutcome where
  | notStarted
  | unknown
deriving DecidableEq

structure DatabaseWriteError where
  error : ApiError
  outcome : DatabaseWriteOutcome
deriving DecidableEq

def databaseWriteError (error : DatabaseWriteError) : ToolExecutionError :=
  toolError error.error
    (match error.outcome with
    | .notStarted => .notStarted
    | .unknown => .unknown)

/-! ## Storage calls of the worker -/

structure UnknownWrite where
  toolCallId : String
  argumentsSha256 : Sha256
deriving DecidableEq

/-- What a call of the tool did, in order. -/
inductive WriteEffect where
  /-- A transaction of the tool committed and succeeded. -/
  | committed (op : AgentOp)
  /-- The update was handed to the database. -/
  | dispatched (sql : String)

structure ToolWorld where
  db : AgentDb
  unknownWrite : Option UnknownWrite
  log : List WriteEffect

/-- Where a storage call breaks off. -/
inductive StorageFault where
  | none
  | beforeCommit
  /-- The transaction is durable, its answer is lost. -/
  | afterCommit
deriving DecidableEq

/-- One storage call: what other tasks committed before it, what it reads from
outside, and where it breaks off. -/
structure StorageTurn (runId : String) where
  others : List { op : AgentOp // op.outside runId = true }
  env : CallEnv
  fault : StorageFault

variable {runId : String}

def ToolWorld.interleave (json : JsonEngine) (turn : StorageTurn runId) (world : ToolWorld) :
    ToolWorld :=
  { world with db := Trace.run (exec json) world.db (turn.others.map Subtype.val) }

def ToolWorld.commit (json : JsonEngine) (op : AgentOp) (world : ToolWorld) : ToolWorld :=
  { world with
    db := (exec json op world.db).2
    log :=
      match (exec json op world.db).1 with
      | .ok _ => world.log ++ [.committed op]
      | .error _ => world.log }

def storageCall (json : JsonEngine) (turn : StorageTurn runId) (op : CallEnv → AgentOp) :
    Effect ToolWorld StorageError AgentReply := fun world =>
  let before := world.interleave json turn
  match turn.fault with
  | .beforeCommit => (.error .sqlite, before)
  | .afterCommit => (.error .sqlite, before.commit json (op turn.env))
  | .none => ((exec json (op turn.env) before.db).1, before.commit json (op turn.env))

def storageRead {α : Type} (json : JsonEngine) (turn : StorageTurn runId) (read : AgentDb → α) :
    Effect ToolWorld StorageError α := fun world =>
  let before := world.interleave json turn
  if turn.fault = .none then (.ok (read before.db), before) else (.error .sqlite, before)

/-! ## Snapshots -/

def hexDigit (nibble : Nat) : Char :=
  if nibble < 10 then Char.ofNat (48 + nibble) else Char.ofNat (87 + nibble)

def hexDigest (digest : Sha256) : String :=
  String.ofList ((List.range 64).map fun index =>
    hexDigit (digest.toNat / 16 ^ (63 - index) % 16))

def permissionStatus : ToolPermissionStatus → AgentPermissionStatus
  | .pending => .pending
  | .approved => .approved
  | .denied => .denied
  | .consumed => .consumed
  | .expired => .expired
  | .revoked => .revoked

def permissionRequest (permission : ToolPermissionRecord) :
    Except ApiError AgentPermissionRequest :=
  if permission.status.isActive then
    .ok
      { permissionId := permission.id, runId := permission.runId
        toolCallId := permission.toolCallId, toolName := permission.toolName
        argumentsSha256 := hexDigest permission.argumentsSha256, summary := permission.summary
        requestedAtMs := toString permission.createdAtMs
        expiresAtMs := toString permission.expiresAtMs }
  else .error internalError

def contractStatus : Storage.AgentRunStatus → AgentRunStatus
  | .running => .running
  | .waitingPermission => .waitingForPermission
  | .completed => .completed
  | .failed => .failed
  | .cancelled => .cancelled

/-- The columns of a run fit its status. -/
def validTerminalFields (run : AgentRunRecord) : Bool :=
  match run.status with
  | .running | .waitingPermission =>
    run.messageId.isNone && run.errorCode.isNone && run.errorMessage.isNone &&
      run.finishedAtMs.isNone
  | .completed =>
    run.messageId.isSome && run.errorCode.isNone && run.errorMessage.isNone &&
      run.finishedAtMs.isSome
  | .failed => run.messageId.isNone && run.errorCode.isSome && run.finishedAtMs.isSome
  | .cancelled =>
    run.messageId.isNone && run.errorCode.isNone && run.errorMessage.isNone &&
      run.finishedAtMs.isSome

def snapshotError (run : AgentRunRecord) : Except ApiError (Option ApiError) :=
  match run.status, run.errorCode with
  | .failed, some code =>
    .ok (some (ApiError.new code (run.errorMessage.getD "The agent run failed")))
  | .failed, none => .error internalError
  | _, _ => .ok none

def snapshotFromRun (run : AgentRunRecord) (permission : Option ToolPermissionRecord) :
    Except ApiError AgentRunSnapshot := do
  let pendingPermission ← permission.mapM permissionRequest
  if (run.status = .waitingPermission) ↔ pendingPermission.isSome then
    let error ← snapshotError run
    if validTerminalFields run && run.startedAtMs.isSome then
      pure
        { runId := run.id
          sessionId := run.sessionId
          status := contractStatus run.status
          lastSequence := some run.lastSequence
          updatedAtMs := toString run.updatedAtMs
          usage :=
            { inputTokens := toString run.inputTokens
              outputTokens := toString run.outputTokens
              totalTokens := toString run.totalTokens }
          pendingPermission
          messageId := run.messageId
          error }
    else .error internalError
  else .error internalError

/-! ## Transitions -/

inductive AgentTransitionFailure where
  | definitelyNotCommitted (error : ApiError)
  | indeterminate (error : ApiError)
deriving DecidableEq

def AgentTransitionFailure.error : AgentTransitionFailure → ApiError
  | .definitelyNotCommitted error | .indeterminate error => error

def classifyStorageTransition (error : StorageError) : AgentTransitionFailure :=
  match error with
  | .agentRunNotFound _ | .agentStateConflict _ _ _ | .invalidAgent _ | .agentQuotaExceeded _ _
  | .permissionNotFound _ | .permissionRevisionConflict _ _ _ | .permissionNotExecutable _ _ =>
    .definitelyNotCommitted (apiError error)
  | _ => .indeterminate (apiError error)

/-- One transition of the hub: its refusal, or the number and the cached snapshot
it goes on with; the two storage calls of the persistence; and what the hub says
after it checked the answer. -/
structure TransitionTurn (runId : String) where
  offered : Except ApiError (Nat × AgentRunSnapshot)
  commit : StorageTurn runId
  readBack : StorageTurn runId
  published : Except ApiError Unit

/-- `AgentRunHub::transition`, as its caller sees it. -/
def transition (turn : TransitionTurn runId)
    (persist : Nat → Effect ToolWorld AgentTransitionFailure DurableAgentTransition) :
    Effect ToolWorld ApiError AgentRunSnapshot := do
  let offer ← Effect.ofExcept turn.offered
  let durable ← (persist offer.1).mapError AgentTransitionFailure.error
  if validateDurableTransition runId offer.2 offer.1 durable then
    Effect.ofExcept turn.published
    pure durable.snapshot
  else Effect.fail internalError

/-- A permission as the answer of a storage call. -/
def AgentReply.permission? : AgentReply → Option ToolPermissionRecord
  | .permission record => some record
  | _ => none

/-- The persistence of a permission call: commit it, read its run back, and
build the event. -/
def persistPermission (json : JsonEngine) (turn : TransitionTurn runId) (op : CallEnv → AgentOp)
    (shown : ToolPermissionRecord → Option ToolPermissionRecord)
    (event : ToolPermissionRecord → Except ApiError AgentEvent) :
    Effect ToolWorld AgentTransitionFailure DurableAgentTransition := do
  let reply ← (storageCall json turn.commit op).mapError classifyStorageTransition
  let found ← (storageRead json turn.readBack fun db => db.loadRun runId).mapError
    fun error => .indeterminate (apiError error)
  match AgentReply.permission? reply, found with
  | some permission, some run =>
    let snapshot ← (Effect.ofExcept (snapshotFromRun run (shown permission))).mapError
      AgentTransitionFailure.indeterminate
    let event ← (Effect.ofExcept (event permission)).mapError AgentTransitionFailure.indeterminate
    pure { snapshot, event }
  | _, _ => Effect.fail (.indeterminate (apiError (.agentRunNotFound runId)))

/-! ## The executor -/

structure ToolProgress where
  modelRounds : Nat
  toolCalls : Nat
  inputTokens : Nat
  outputTokens : Nat
  totalTokens : Nat
  compactionCount : Nat
  compactedThroughOrdinal : Option Nat
deriving DecidableEq

/-- One executor serves one run. -/
structure SqlToolExecutor (runId : String) where
  permissionMode : SqlPermissionMode
  progress : ToolProgress

/-- A call of the tool; `sql` is what its arguments parse to. -/
structure ToolInvocation where
  callId : String
  name : String
  sql : Option String
  argumentsSha256 : Sha256
deriving DecidableEq

/-- Five minutes. -/
def toolPermissionTtlNanos : Nat := 5 * 60 * 1000000000

def maxSummaryBytes : Nat := 512

/-- Pop characters until the text fits; the last one comes first here. -/
def popToFit : List Char → List Char
  | [] => []
  | last :: front =>
    if (String.ofList (last :: front)).utf8ByteSize ≤ maxSummaryBytes then last :: front
    else popToFit front

def writeSummary (sql : String) : String :=
  let words := (sql.toList.splitOnP isWhitespace).filter fun word => !word.isEmpty
  let normalized := [' '].intercalate words
  String.ofList (popToFit ("Execute SQL write: ".toList ++ normalized).reverse).reverse

namespace SqlToolExecutor

def loadPermission (json : JsonEngine) (turn : StorageTurn runId) (permissionId : String) :
    Effect ToolWorld ToolExecutionError ToolPermissionRecord := do
  let found ← (storageRead json turn fun db => db.loadPermission permissionId).mapError
    fun error => toolError (apiError error) .notStarted
  match found with
  | some permission => pure permission
  | none =>
    Effect.fail
      { code := "tool_permission_not_found"
        message := "The database write permission no longer exists", outcome := .notStarted }

def requestWritePermission (json : JsonEngine) (executor : SqlToolExecutor runId)
    (turn : TransitionTurn runId) (load : StorageTurn runId) (invocation : ToolInvocation)
    (sql : String) (digest : Sha256) :
    Effect ToolWorld ToolExecutionError ToolPermissionRecord := do
  let progress := executor.progress
  let snapshot ← (transition turn fun sequence =>
      persistPermission json turn
        (fun env => .createToolPermission env runId
          { toolCallId := invocation.callId, toolName := invocation.name
            argumentsSha256 := digest, summary := writeSummary sql, lastSequence := sequence
            modelRounds := progress.modelRounds, toolCalls := progress.toolCalls
            inputTokens := progress.inputTokens, outputTokens := progress.outputTokens
            totalTokens := progress.totalTokens, compactionCount := progress.compactionCount
            compactedThroughOrdinal := progress.compactedThroughOrdinal
            retentionNanos := toolPermissionTtlNanos })
        some (fun permission => (permissionRequest permission).map .permissionRequested)).mapError
    fun error => toolError error .notStarted
  match snapshot.pendingPermission with
  | some pending => loadPermission json load pending.permissionId
  | none => Effect.fail internalToolError

/-- Give a permission up, as expired or as revoked. -/
def abandonPermission (json : JsonEngine) (turn : TransitionTurn runId)
    (permission : ToolPermissionRecord) (status : ToolPermissionStatus) :
    Effect ToolWorld ToolExecutionError Unit := do
  let _ ← (transition turn fun sequence =>
      persistPermission json turn
        (fun env =>
          if status = .expired then
            .expireToolPermission env permission.id permission.revision runId
              permission.toolCallId permission.argumentsSha256 sequence
          else
            .revokeToolPermission env permission.id permission.revision runId
              permission.toolCallId permission.argumentsSha256 sequence)
        (fun _ => none)
        (fun _ => .ok (.permissionResolved permission.id (permissionStatus status)))).mapError
    fun error => toolError error .notStarted

/-- A local cancellation: unless the run is cancelled durably, the permission is
revoked while it is active. -/
def revokeAfterLocalCancellation (json : JsonEngine) (readRun load : StorageTurn runId)
    (revoke : TransitionTurn runId) (permission : ToolPermissionRecord) :
    Effect ToolWorld ToolExecutionError Unit := do
  let run ← (storageRead json readRun fun db => db.loadRun runId).mapError
    fun error => toolError (apiError error) .notStarted
  if run.any fun run => run.cancelRequested then pure ()
  else
    let current ← loadPermission json load permission.id
    if current.status.isActive then abandonPermission json revoke current .revoked else pure ()

/-- Which branch of the wait is taken first. -/
inductive WaitTurn (runId : String) where
  /-- The waiter cannot be installed. -/
  | refused (error : ApiError)
  | cancelled (readRun load : StorageTurn runId) (revoke : TransitionTurn runId)
  | resolved (status : AgentPermissionStatus)
  | waiterCancelled
  | expired (expire : TransitionTurn runId)

def waitForPermission (json : JsonEngine) (permission : ToolPermissionRecord) :
    WaitTurn runId → Effect ToolWorld ToolExecutionError AgentPermissionStatus
  | .refused error => Effect.fail (toolError error .notStarted)
  | .cancelled readRun load revoke => do
    revokeAfterLocalCancellation json readRun load revoke permission
    Effect.fail toolCancelled
  | .resolved status => pure status
  | .waiterCancelled => Effect.fail toolCancelled
  | .expired expire => do
    abandonPermission json expire permission .expired
    pure .expired

def consumePermission (json : JsonEngine) (turn : TransitionTurn runId)
    (permission : ToolPermissionRecord) (digest : Sha256) :
    Effect ToolWorld ToolExecutionError Unit := do
  let _ ← (transition turn fun sequence =>
      persistPermission json turn
        (fun env => .consumeToolPermission env permission.id permission.revision runId
          permission.toolCallId digest sequence)
        (fun _ => none)
        (fun _ => .ok (.toolStarted permission.toolCallId permission.toolName
          (hexDigest digest)))).mapError
    fun error => toolError error .notStarted

/-- The two storage calls of one settlement attempt. -/
structure SettleTurn (runId : String) where
  settle : StorageTurn runId
  readBack : StorageTurn runId

def recordUnknown (write : UnknownWrite) : Effect ToolWorld ToolExecutionError Unit :=
  Effect.update fun world => { world with unknownWrite := some write }

def giveUpSettlement (write : UnknownWrite) (lastError : Option StorageError) :
    Effect ToolWorld ToolExecutionError Unit := do
  recordUnknown write
  match lastError with
  | some error => Effect.fail (toolError (apiError error) .unknown)
  | none => Effect.fail internalToolError

/-- The read-back after a failed settlement; `retry` is what is left to try. -/
def reconcileSettlement (json : JsonEngine) (write : UnknownWrite) (turn : StorageTurn runId)
    (lastError : StorageError) (retry : Effect ToolWorld ToolExecutionError Unit) :
    Effect ToolWorld ToolExecutionError Unit := do
  let found ← (storageRead json turn fun db => db.loadRun runId).attempt
  match found with
  | .error error => do
    recordUnknown write
    Effect.fail (toolError (apiError error) .unknown)
  | .ok none => do
    recordUnknown write
    Effect.fail writeSettlementUnknown
  | .ok (some run) =>
    if run.writeInFlightToolCallId.isNone && run.writeInFlightArgumentsSha256.isNone then pure ()
    else if run.writeInFlightToolCallId ≠ some write.toolCallId ∨
        run.writeInFlightArgumentsSha256 ≠ some write.argumentsSha256 then
      giveUpSettlement write (some lastError)
    else retry

/-- The attempts of a settlement, with the error of the one before. -/
def settleAttempts (json : JsonEngine) (write : UnknownWrite) :
    List (SettleTurn runId) → Option StorageError → Effect ToolWorld ToolExecutionError Unit
  | [], lastError => giveUpSettlement write lastError
  | turn :: rest, _ => do
    let settled ← (storageCall json turn.settle fun env =>
      .settleAgentWrite env runId write.toolCallId write.argumentsSha256).attempt
    match settled with
    | .ok _ => pure ()
    | .error error =>
      reconcileSettlement json write turn.readBack error
        (settleAttempts json write rest (some error))

/-- What meets one call of the write tool. -/
structure WriteScript (runId : String) where
  request : TransitionTurn runId
  requested : StorageTurn runId
  wait : WaitTurn runId
  approved : StorageTurn runId
  consume : TransitionTurn runId
  update : Except DatabaseWriteError Nat
  first : SettleTurn runId
  second : SettleTurn runId

def settleWrite (json : JsonEngine) (script : WriteScript runId) (write : UnknownWrite) :
    Effect ToolWorld ToolExecutionError Unit :=
  settleAttempts json write [script.first, script.second] none

/-- The call up to the dispatch: the statement, once its permission is used. -/
def authorizeWrite (json : JsonEngine) (executor : SqlToolExecutor runId)
    (invocation : ToolInvocation) (script : WriteScript runId) :
    Effect ToolWorld ToolExecutionError String := do
  if executor.permissionMode ≠ .askBeforeWrite then
    Effect.fail
      { code := "database_write_not_allowed"
        message := "This agent run does not allow database writes", outcome := .notStarted }
  else
    match invocation.sql with
    | none =>
      Effect.fail (invalidArguments "The tool arguments do not match the required schema")
    | some sql =>
      if isBlank sql then Effect.fail (invalidArguments "sql cannot be empty")
      else
        let digest := invocation.argumentsSha256
        let permission ← requestWritePermission json executor script.request script.requested
          invocation sql digest
        let status ← waitForPermission json permission script.wait
        if status ≠ .approved then Effect.fail (permissionError status)
        else
          let permission ← loadPermission json script.approved permission.id
          consumePermission json script.consume permission digest
          pure sql

/-- Hand the statement to the database. -/
def executeAgentUpdate (script : WriteScript runId) (sql : String) :
    Effect ToolWorld ToolExecutionError (Except DatabaseWriteError Nat) := do
  Effect.update fun world => { world with log := world.log ++ [.dispatched sql] }
  pure script.update

/-- From the dispatch on: the outcome of the update, and its settlement. -/
def dispatchWrite (json : JsonEngine) (script : WriteScript runId) (write : UnknownWrite)
    (sql : String) : Effect ToolWorld ToolExecutionError String := do
  match ← executeAgentUpdate script sql with
  | .ok affectedRows => do
    settleWrite json script write
    pure ("\x7b\"affectedRows\":\"" ++ toString affectedRows ++ "\"\x7d")
  | .error error =>
    if error.outcome = .unknown then do
      recordUnknown write
      Effect.fail (databaseWriteError error)
    else do
      settleWrite json script write
      Effect.fail (databaseWriteError error)

def executeWrite (json : JsonEngine) (executor : SqlToolExecutor runId)
    (invocation : ToolInvocation) (script : WriteScript runId) :
    Effect ToolWorld ToolExecutionError String := do
  let sql ← authorizeWrite json executor invocation script
  dispatchWrite json script
    { toolCallId := invocation.callId, argumentsSha256 := invocation.argumentsSha256 } sql

end SqlToolExecutor

end Chat2DB.Agent
