import Chat2DB.Storage.AgentStatements

/-! # Permission transactions

The one-shot approval gate: request, decision, abandonment and consumption of
a tool permission, each together with the status of its run.
-/

namespace Chat2DB.Storage

open Outcome

/-- `INSERT INTO tool_permissions`: unique id, one row for a tool call of a run,
one active row for a run. -/
def insertPermission (permission : ToolPermissionRecord) (db : AgentDb) :
    Except StorageError AgentDb := do
  rejectIf (db.permissions.any fun stored => stored.id = permission.id) .sqlite
  rejectIf (db.permissions.any fun stored =>
    stored.runId = permission.runId && stored.toolCallId = permission.toolCallId) .sqlite
  rejectIf (permission.status.isActive ∧ db.permissions.any fun stored =>
    stored.runId = permission.runId && stored.status.isActive) .sqlite
  pure { db with permissions := db.permissions ++ [permission] }

def createToolPermissionAt (env : CallEnv) (runId : String) (input : RequestToolPermission)
    (timestamp expiresAtMs : Int) : Transaction ToolPermissionRecord := fun db => do
  validatePermissionRequest input
  rejectIf (input.lastSequence = 0)
    (.invalidAgent "permission event sequence must be greater than zero")
  validateToolCallId input.toolCallId
  rejectIf (expiresAtMs ≤ timestamp)
    (.invalidAgent "tool permission expiry must be after creation")
  let run ← orThrow (db.loadRun runId) (.agentRunNotFound runId)
  rejectIf
    (run.cancelRequested ∨ run.status ≠ .running ∨ run.sqlPermissionMode ≠ .askBeforeWrite ∨
      run.writeInFlightToolCallId.isSome)
    (.permissionNotExecutable runId "owning run is not executable")
  rejectIf (input.lastSequence ≤ run.lastSequence)
    (.invalidAgent "permission event sequence must advance the run snapshot")
  validateOrdinaryProgress db runId run input.toAgentRunProgress
  let id := env.uuid 0
  let inserted ← insertPermission
    { id, runId, toolCallId := input.toolCallId, toolName := input.toolName
      argumentsSha256 := input.argumentsSha256, summary := input.summary
      status := .pending, revision := 1, expiresAtMs
      createdAtMs := timestamp, updatedAtMs := timestamp, consumedAtMs := none } db
  progressParams input.toAgentRunProgress
  let updated ← updateOneRun
    (fun run => run.id = runId && run.status = .running && !run.cancelRequested &&
      run.writeInFlightToolCallId.isNone)
    (fun run =>
      { run with
        toAgentRunProgress := input.toAgentRunProgress
        status := .waitingPermission
        updatedAtMs := timestamp })
    (runStateConflict runId .running run.status) inserted
  pure (readBack (updated.loadPermission id) "create tool permission" id, updated)

def createToolPermission (env : CallEnv) (runId : String) (input : RequestToolPermission) :
    Transaction ToolPermissionRecord := fun db => do
  rejectIf (input.retentionNanos = 0)
    (.invalidAgent "tool permission retention must be greater than zero")
  let timestamp ← env.clock
  let retentionMs := input.retentionNanos / 1000000
  rejectIf (retentionMs > i64Max) (.numericRange "tool permission retention")
  let expiresAtMs := timestamp + retentionMs
  rejectIf (expiresAtMs > i64Max) (.numericRange "tool permission expiry")
  createToolPermissionAt env runId input timestamp expiresAtMs db

/-- Load a permission for a compare-and-set on its revision and binding. -/
def loadBoundPermission (id : String) (expectedRevision : Nat) (runId toolCallId : String)
    (argumentsSha256 : Sha256) (db : AgentDb) : Except StorageError ToolPermissionRecord := do
  let current ← orThrow (db.loadPermission id) (.permissionNotFound id)
  rejectIf (current.revision ≠ expectedRevision)
    (.permissionRevisionConflict id expectedRevision (some current.revision))
  rejectIf
    (current.runId ≠ runId ∨ current.toolCallId ≠ toolCallId ∨
      current.argumentsSha256 ≠ argumentsSha256)
    (.permissionNotExecutable id "permission binding does not match")
  pure current

def nextRevision (current : ToolPermissionRecord) : Except StorageError Nat :=
  orThrow (checkedAdd current.revision 1) (.numericRange "tool permission revision")

/-- The statement that expires one active permission. -/
def expirePermission (current : ToolPermissionRecord) (timestamp : Int) (db : AgentDb) :
    Except StorageError AgentDb :=
  if current.status.isActive then do
    toSqlI64 current.revision "tool permission revision"
    pure
      { db with
        permissions := Rows.update
          (fun permission => permission.id = current.id && permission.revision = current.revision &&
            permission.status.isActive)
          (fun permission => permission.advance .expired timestamp) db.permissions }
  else
    pure db

/-- Move a waiting run on after its permission was decided or abandoned. -/
def resumeWaitingRun (runId : String) (status : AgentRunStatus) (lastSequence : Nat)
    (timestamp : Int) (error : StorageError) (db : AgentDb) : Except StorageError AgentDb := do
  toSqlI64 lastSequence "agent event sequence"
  updateOneRun
    (fun run => run.id = runId && run.status = .waitingPermission && !run.cancelRequested &&
      run.lastSequence < lastSequence && run.writeInFlightToolCallId.isNone)
    (fun run => { run with status, lastSequence, updatedAtMs := timestamp }) error db

namespace ToolPermissionDecision

def permissionStatus : ToolPermissionDecision → ToolPermissionStatus
  | approve => .approved
  | deny => .denied

def runStatus : ToolPermissionDecision → AgentRunStatus
  | approve => .waitingPermission
  | deny => .running

end ToolPermissionDecision

def decideToolPermission (env : CallEnv) (id : String) (expectedRevision : Nat)
    (runId toolCallId : String) (argumentsSha256 : Sha256) (lastSequence : Nat)
    (decision : ToolPermissionDecision) : Transaction ToolPermissionRecord := fun db => do
  let current ← loadBoundPermission id expectedRevision runId toolCallId argumentsSha256 db
  rejectIf (current.status ≠ .pending)
    (.permissionNotExecutable id "permission is no longer pending")
  let run ← orThrow (db.loadRun runId) (.agentRunNotFound runId)
  rejectIf
    (run.cancelRequested ∨ run.status ≠ .waitingPermission ∨ run.writeInFlightToolCallId.isSome)
    (.permissionNotExecutable id "owning run is not waiting for this permission")
  rejectIf (lastSequence ≤ run.lastSequence)
    (.invalidAgent "permission decision sequence must advance the run snapshot")
  let timestamp ← env.clock
  if current.expiresAtMs ≤ timestamp then
    let expired ← expirePermission current timestamp db
    let resumed ← resumeWaitingRun runId .running lastSequence timestamp
      (.permissionNotExecutable id "owning run changed while permission expired") expired
    pure (readBack (resumed.loadPermission id) "expire tool permission during decision" id, resumed)
  else
    let revision ← nextRevision current
    toSqlI64 revision "tool permission revision"
    toSqlI64 expectedRevision "tool permission revision"
    let decided ← updateOnePermission
      (fun permission => permission.id = id && permission.revision = expectedRevision &&
        permission.status = .pending && permission.runId = runId &&
        permission.toolCallId = toolCallId && permission.argumentsSha256 = argumentsSha256)
      (fun permission =>
        { permission with status := decision.permissionStatus, revision, updatedAtMs := timestamp })
      (.permissionNotExecutable id "permission decision CAS failed") db
    let resumed ← resumeWaitingRun runId decision.runStatus lastSequence timestamp
      (.permissionNotExecutable id "owning run changed during the permission decision") decided
    let permission ← orThrow (resumed.loadPermission id) (.permissionNotFound id)
    pure (.ok permission, resumed)

def abandonToolPermission (env : CallEnv) (id : String) (expectedRevision : Nat)
    (runId toolCallId : String) (argumentsSha256 : Sha256) (lastSequence : Nat)
    (status : ToolPermissionStatus) : Transaction ToolPermissionRecord := fun db => do
  rejectIf (status ≠ .expired ∧ status ≠ .revoked)
    (.invalidAgent "permission abandonment status is invalid")
  let current ← loadBoundPermission id expectedRevision runId toolCallId argumentsSha256 db
  rejectIf (current.status.isActive = false)
    (.permissionNotExecutable id "permission is no longer active")
  let run ← orThrow (db.loadRun runId) (.agentRunNotFound runId)
  rejectIf
    (run.cancelRequested ∨ run.status ≠ .waitingPermission ∨
      run.writeInFlightToolCallId.isSome ∨ lastSequence ≤ run.lastSequence)
    (.permissionNotExecutable id "owning run is not waiting for this permission")
  let timestamp ← env.clock
  rejectIf (status = .expired ∧ current.expiresAtMs > timestamp)
    (.permissionNotExecutable id "permission has not expired")
  let revision ← nextRevision current
  toSqlI64 revision "tool permission revision"
  toSqlI64 expectedRevision "tool permission revision"
  let abandoned ← updateOnePermission
    (fun permission => permission.id = id && permission.revision = expectedRevision &&
      permission.status.isActive && permission.runId = runId &&
      permission.toolCallId = toolCallId && permission.argumentsSha256 = argumentsSha256)
    (fun permission => { permission with status, revision, updatedAtMs := timestamp })
    (.permissionNotExecutable id "permission abandonment CAS failed") db
  let resumed ← resumeWaitingRun runId .running lastSequence timestamp
    (.permissionNotExecutable id "permission abandonment CAS failed") abandoned
  pure (readBack (resumed.loadPermission id) "abandon tool permission" id, resumed)

def expireToolPermission (env : CallEnv) (id : String) (expectedRevision : Nat)
    (runId toolCallId : String) (argumentsSha256 : Sha256) (lastSequence : Nat) :
    Transaction ToolPermissionRecord :=
  abandonToolPermission env id expectedRevision runId toolCallId argumentsSha256 lastSequence
    .expired

def revokeToolPermission (env : CallEnv) (id : String) (expectedRevision : Nat)
    (runId toolCallId : String) (argumentsSha256 : Sha256) (lastSequence : Nat) :
    Transaction ToolPermissionRecord :=
  abandonToolPermission env id expectedRevision runId toolCallId argumentsSha256 lastSequence
    .revoked

/-- Consume one exact approval and install the write fence. An approval found
expired is recorded as such, the run resumes, and the call still fails. -/
def consumeToolPermission (env : CallEnv) (id : String) (expectedRevision : Nat)
    (runId toolCallId : String) (argumentsSha256 : Sha256) (lastSequence : Nat) :
    Transaction ToolPermissionRecord := fun db => do
  let timestamp ← env.clock
  let current ← loadBoundPermission id expectedRevision runId toolCallId argumentsSha256 db
  rejectIf (current.status ≠ .approved)
    (.permissionNotExecutable id "permission is not approved")
  if current.expiresAtMs ≤ timestamp then
    let expired ← expirePermission current timestamp db
    let resumed : AgentDb :=
      { expired with
        runs := Rows.update
          (fun run => run.id = runId && run.status = .waitingPermission)
          (fun run => { run with status := .running, updatedAtMs := timestamp }) expired.runs }
    pure (.error (.permissionNotExecutable id "permission expired"), resumed)
  else
    let run ← orThrow (db.loadRun runId) (.agentRunNotFound runId)
    rejectIf
      (run.cancelRequested ∨ run.status ≠ .waitingPermission ∨
        run.sqlPermissionMode ≠ .askBeforeWrite ∨ run.writeInFlightToolCallId.isSome)
      (.permissionNotExecutable id "owning run is not executable")
    rejectIf (lastSequence ≤ run.lastSequence)
      (.invalidAgent "tool-start sequence must advance the run snapshot")
    let revision ← nextRevision current
    toSqlI64 revision "tool permission revision"
    toSqlI64 expectedRevision "tool permission revision"
    let executable := db.runs.any fun run =>
      run.id = runId && !run.cancelRequested && run.status.isActive
    let consumed ← updateOnePermission
      (fun permission => permission.id = id && permission.revision = expectedRevision &&
        permission.status = .approved && permission.runId = runId &&
        permission.toolCallId = toolCallId && permission.argumentsSha256 = argumentsSha256 &&
        permission.expiresAtMs > timestamp && executable)
      (fun permission =>
        { permission with
          status := .consumed
          revision
          updatedAtMs := timestamp
          consumedAtMs := some timestamp })
      (.permissionNotExecutable id "permission consume CAS failed") db
    toSqlI64 lastSequence "agent event sequence"
    let fenced ← updateOneRun
      (fun run => run.id = runId && run.status = .waitingPermission && !run.cancelRequested &&
        run.lastSequence < lastSequence && run.writeInFlightToolCallId.isNone)
      (fun run =>
        { run with
          status := .running
          lastSequence
          writeInFlightToolCallId := some toolCallId
          writeInFlightArgumentsSha256 := some argumentsSha256
          updatedAtMs := timestamp })
      (.permissionNotExecutable id "database write dispatch fence could not be installed") consumed
    pure (readBack (fenced.loadPermission id) "consume tool permission" id, fenced)

end Chat2DB.Storage
