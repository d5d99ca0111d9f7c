import Chat2DB.Storage.AgentMessages

/-! # Transactions and validation of the agent store

The outer error of a `Transaction` is a return before the commit, which rolls
back; the inner result is what is returned after the commit, so that a
committed change and an error can occur together.
-/

namespace Chat2DB.Storage

open Outcome

variable {db db' : AgentDb} {json : JsonEngine}

/-- What a call reads from outside the store: the wall clock and fresh UUIDs. -/
structure CallEnv where
  clock : Except StorageError Int
  uuid : Nat → String

/-- A transaction body: an early error, or a committed state and its result. -/
abbrev Transaction (α : Type) := AgentDb → Except StorageError (Except StorageError α × AgentDb)

/-- Run a transaction; an early return leaves the tables as they were. -/
def transact {α : Type} (body : Transaction α) (db : AgentDb) : Except StorageError α × AgentDb :=
  match body db with
  | .ok committed => committed
  | .error error => (.error error, db)

/-! ## Statements -/

/-- `UPDATE agent_runs`, failing unless exactly one row changed. -/
def updateOneRun (cond : AgentRunRecord → Bool) (set : AgentRunRecord → AgentRunRecord)
    (error : StorageError) (db : AgentDb) : Except StorageError AgentDb := do
  rejectIf (Rows.changed cond db.runs ≠ 1) error
  pure { db with runs := Rows.update cond set db.runs }

/-- `UPDATE tool_permissions`, failing unless exactly one row changed. -/
def updateOnePermission (cond : ToolPermissionRecord → Bool)
    (set : ToolPermissionRecord → ToolPermissionRecord) (error : StorageError) (db : AgentDb) :
    Except StorageError AgentDb := do
  rejectIf (Rows.changed cond db.permissions ≠ 1) error
  pure { db with permissions := Rows.update cond set db.permissions }

/-- The new state of a permission whose revision advances by one. -/
def ToolPermissionRecord.advance (permission : ToolPermissionRecord)
    (status : ToolPermissionStatus) (timestamp : Int) : ToolPermissionRecord :=
  { permission with status, revision := permission.revision + 1, updatedAtMs := timestamp }

/-- Revoke every pending or approved permission of one run. -/
def revokeActivePermissions (runId : String) (timestamp : Int) (db : AgentDb) : AgentDb :=
  { db with
    permissions := Rows.update
      (fun permission => permission.runId = runId && permission.status.isActive)
      (fun permission => permission.advance .revoked timestamp) db.permissions }

/-- Read a row back after the commit. -/
def readBack {α : Type} (value : Option α) (operation id : String) : Except StorageError α :=
  orThrow value (.outcomeUnknown operation id)

def runStateConflict (id : String) (expected actual : AgentRunStatus) : StorageError :=
  .agentStateConflict id expected.asStr actual.asStr

/-! ## Validation -/

def validateSessionTitle (title : String) : Except StorageError Unit :=
  rejectIf (isBlank title ∨ title.utf8ByteSize > maxAgentSessionTitleBytes)
    (.invalidAgent "session title must be non-empty and at most 512 UTF-8 bytes")

/-- Position of a coverage in Rust's order of `Option`, `None` first. -/
def coverageRank : Option Nat → Nat
  | none => 0
  | some ordinal => ordinal + 1

/-- Bind the progress columns of an `UPDATE agent_runs`. -/
def progressParams (progress : AgentRunProgress) : Except StorageError Unit := do
  toSqlI64 progress.lastSequence "agent event sequence"
  toSqlI64 progress.modelRounds "agent model rounds"
  toSqlI64 progress.toolCalls "agent tool calls"
  toSqlI64 progress.inputTokens "agent input tokens"
  toSqlI64 progress.outputTokens "agent output tokens"
  toSqlI64 progress.totalTokens "agent total tokens"
  toSqlI64 progress.compactionCount "agent compaction count"
  optionToSqlI64 progress.compactedThroughOrdinal "compacted message ordinal"

def validateProgressValues (progress : AgentRunProgress) : Except StorageError Unit := do
  toSqlI64 progress.lastSequence "agent event sequence"
  toSqlI64 progress.modelRounds "agent model rounds"
  toSqlI64 progress.toolCalls "agent tool calls"
  toSqlI64 progress.inputTokens "agent input tokens"
  toSqlI64 progress.outputTokens "agent output tokens"
  toSqlI64 progress.totalTokens "agent total tokens"
  toSqlI64 progress.compactionCount "agent compaction count"
  rejectIf (progress.lastSequence = 0)
    (.invalidAgent "agent event sequence must be greater than zero")
  let minimumTotal ← orThrow (checkedAdd progress.inputTokens progress.outputTokens)
    (.numericRange "agent total tokens")
  rejectIf (progress.totalTokens < minimumTotal)
    (.invalidAgent "agent total tokens cannot be less than input plus output tokens")
  optionToSqlI64 progress.compactedThroughOrdinal "compacted message ordinal"
  rejectIf ((progress.compactionCount == 0) ≠ progress.compactedThroughOrdinal.isNone)
    (.invalidAgent "agent compaction count and coverage ordinal must be present together")

def validateRunProgress (current : AgentRunRecord) (progress : AgentRunProgress) :
    Except StorageError Unit := do
  validateProgressValues progress
  rejectIf
    (progress.lastSequence ≤ current.lastSequence ∨
      progress.modelRounds < current.modelRounds ∨
      progress.toolCalls < current.toolCalls ∨
      progress.inputTokens < current.inputTokens ∨
      progress.outputTokens < current.outputTokens ∨
      progress.totalTokens < current.totalTokens ∨
      progress.compactionCount < current.compactionCount ∨
      (current.compactedThroughOrdinal.isSome ∧
        coverageRank progress.compactedThroughOrdinal <
          coverageRank current.compactedThroughOrdinal))
    (.invalidAgent "agent run sequence, counters, usage, and compaction must be monotonic")

/-- Replacing `current` by `progress` moves the sequence forward and takes
nothing back. -/
structure AgentRunProgress.Advances (current progress : AgentRunProgress) : Prop where
  lastSequence : current.lastSequence < progress.lastSequence
  modelRounds : current.modelRounds ≤ progress.modelRounds
  toolCalls : current.toolCalls ≤ progress.toolCalls
  inputTokens : current.inputTokens ≤ progress.inputTokens
  outputTokens : current.outputTokens ≤ progress.outputTokens
  totalTokens : current.totalTokens ≤ progress.totalTokens
  compactionCount : current.compactionCount ≤ progress.compactionCount
  coverage : coverageRank current.compactedThroughOrdinal ≤
    coverageRank progress.compactedThroughOrdinal

/-- Accepted progress does not fall behind that of the run. -/
theorem validateRunProgress_ok {current : AgentRunRecord} {progress : AgentRunProgress}
    {result : Unit} (hvalid : validateRunProgress current progress = .ok result) :
    current.toAgentRunProgress.Advances progress := by
  unfold validateRunProgress at hvalid
  simp only [bind_eq_ok, rejectIf_eq_ok] at hvalid
  obtain ⟨_, _, hmono⟩ := hvalid
  simp only [not_or, not_and] at hmono
  obtain ⟨hsequence, hrounds, hcalls, hinput, houtput, htotal, hcount, hcoverage⟩ := hmono
  refine ⟨by omega, by omega, by omega, by omega, by omega, by omega, by omega, ?_⟩
  cases hcurrent : current.compactedThroughOrdinal with
  | none => exact Nat.zero_le _
  | some ordinal =>
    have hnot := hcoverage (by simp [hcurrent])
    rw [hcurrent] at hnot
    omega

def validateCompactionUnchanged (current : AgentRunRecord) (progress : AgentRunProgress) :
    Except StorageError Unit :=
  rejectIf
    (progress.compactionCount ≠ current.compactionCount ∨
      progress.compactedThroughOrdinal ≠ current.compactedThroughOrdinal)
    (.invalidAgent "agent compaction state requires the dedicated atomic API")

/-- The greatest ordinal covered by trimming or by summaries in one session. -/
def AgentDb.sessionCoverage (db : AgentDb) (sessionId : String) : Option Nat :=
  ((db.runs.filter fun run => run.sessionId = sessionId).filterMap (·.compactedThroughOrdinal) ++
    (db.sessionMessages sessionId).filterMap (·.summaryThroughOrdinal)).max?

def loadSessionCompactionCoverage (db : AgentDb) (sessionId : String) :
    Except StorageError (Option Nat) := do
  rejectIf (db.hasSession sessionId = false) (.agentSessionNotFound sessionId)
  pure (db.sessionCoverage sessionId)

/-- The user messages owned by a run. -/
def AgentDb.initiatingMessages (db : AgentDb) (runId : String) : List AgentMessageRecord :=
  db.messages.filter fun message => message.runId = some runId && message.role = .user

def validateRunCompactionBoundary (db : AgentDb) (runId : String) :
    Option Nat → Except StorageError Unit
  | none => .ok ()
  | some coverage => do
    let initiating := db.initiatingMessages runId
    rejectIf (initiating.length ≠ 1)
      (.invalidAgent "persisted agent run initiating message is invalid")
    let initiatingOrdinal ← orThrow (initiating.map (·.ordinal)).min?
      (.invalidAgent "persisted agent run initiating message is invalid")
    rejectIf (coverage ≥ initiatingOrdinal)
      (.invalidAgent "agent compaction coverage must precede its initiating user message")

/-- The checks every ordinary progress write makes before its `UPDATE`. -/
def validateOrdinaryProgress (db : AgentDb) (id : String) (current : AgentRunRecord)
    (progress : AgentRunProgress) : Except StorageError Unit := do
  validateCompactionUnchanged current progress
  validateRunProgress current progress
  validateRunCompactionBoundary db id progress.compactedThroughOrdinal

/-- Progress outside a compaction: nothing of the compaction state moves. -/
structure AgentRunProgress.Continues (current progress : AgentRunProgress) : Prop
    extends current.Advances progress where
  compactedThroughOrdinal : progress.compactedThroughOrdinal = current.compactedThroughOrdinal

/-- Ordinary progress advances, and leaves the coverage alone. -/
theorem validateOrdinaryProgress_ok {id : String} {current : AgentRunRecord}
    {progress : AgentRunProgress} {result : Unit}
    (hvalid : validateOrdinaryProgress db id current progress = .ok result) :
    current.toAgentRunProgress.Continues progress := by
  unfold validateOrdinaryProgress validateCompactionUnchanged at hvalid
  simp only [bind_eq_ok, rejectIf_eq_ok, exists_and_left, exists_const, not_or, not_not] at hvalid
  obtain ⟨⟨_, hcoverage⟩, _, hadvances, _⟩ := hvalid
  exact { validateRunProgress_ok hadvances with compactedThroughOrdinal := hcoverage }

def validateSafeError (code : String) (message : Option String) : Except StorageError Unit :=
  rejectIf
    (isBlank code ∨ code.utf8ByteSize > maxRunErrorCodeBytes ∨
      ∃ value ∈ message, value.utf8ByteSize > maxRunErrorMessageBytes)
    (.invalidAgent "agent run error code must be non-empty and error fields must be bounded")

def validateToolCallId (toolCallId : String) : Except StorageError Unit :=
  rejectIf (isBlank toolCallId ∨ toolCallId.utf8ByteSize > maxToolCallIdBytes)
    (.invalidAgent "tool call id must be non-empty and at most 512 UTF-8 bytes")

def validatePermissionRequest (input : RequestToolPermission) : Except StorageError Unit := do
  validateToolCallId input.toolCallId
  rejectIf (isBlank input.toolName ∨ input.toolName.utf8ByteSize > maxToolNameBytes)
    (.invalidAgent "tool name must be non-empty and at most 512 UTF-8 bytes")
  rejectIf (isBlank input.summary ∨ input.summary.utf8ByteSize > maxPermissionSummaryBytes)
    (.invalidAgent "permission summary must be non-empty and at most 4096 UTF-8 bytes")

structure NormalizedAgentRunMessage where
  role : AgentMessageRole
  summaryThroughOrdinal : Option Nat
  contentJson : String
  contentBytes : Nat
deriving DecidableEq

def normalizeAgentRunMessage (json : JsonEngine) (message : AgentRunMessage) :
    Except StorageError NormalizedAgentRunMessage := do
  rejectIf (message.role = .system ∨ message.role = .user ∨ message.role = .summary)
    (.invalidAgent "run message batches may contain only assistant or tool messages")
  let normalized ← normalizeMessageJson json message.contentJson
  pure
    { role := message.role, summaryThroughOrdinal := message.summaryThroughOrdinal
      contentJson := normalized.1, contentBytes := normalized.2 }

def normalizeAgentRunMessages (json : JsonEngine) (messages : List AgentRunMessage)
    (requireFinalAssistant : Bool) : Except StorageError (List NormalizedAgentRunMessage) := do
  rejectIf
    (requireFinalAssistant ∧ messages.getLast?.map (·.role) ≠ some AgentMessageRole.assistant)
    (.invalidAgent "completed agent run requires a final assistant message")
  messages.mapM (normalizeAgentRunMessage json)

/-- Append a batch of run messages; the `n`-th message of the call takes the
`n`-th fresh UUID. -/
def appendRunMessages (json : JsonEngine) (sessionId runId : String) (uuid : Nat → String)
    (timestamp : Int) : Nat → List NormalizedAgentRunMessage → AgentDb →
      Except StorageError (List AgentMessageRecord × AgentDb)
  | _, [], db => .ok ([], db)
  | index, message :: rest, db => do
    let first ← appendMessageInTransaction json sessionId (some runId) (uuid index) message.role
      message.summaryThroughOrdinal message.contentJson message.contentBytes timestamp db
    let tail ← appendRunMessages json sessionId runId uuid timestamp (index + 1) rest first.2
    pure (first.1 :: tail.1, tail.2)

/-! ## What accepted statements do -/

/-- The tables before and after an accepted `UPDATE agent_runs`. -/
structure RunsUpdated (cond : AgentRunRecord → Bool) (set : AgentRunRecord → AgentRunRecord)
    (db db' : AgentDb) : Prop where
  changed : Rows.changed cond db.runs = 1
  runs : db'.runs = Rows.update cond set db.runs
  permissions : db'.permissions = db.permissions
  messages : db'.messages = db.messages
  sessions : db'.sessions = db.sessions

/-- A guarded update that went through met exactly one row. -/
theorem updateOneRun_ok {cond : AgentRunRecord → Bool} {set : AgentRunRecord → AgentRunRecord}
    {error : StorageError} (hupdate : updateOneRun cond set error db = .ok db') :
    RunsUpdated cond set db db' := by
  unfold updateOneRun at hupdate
  simp only [bind_eq_ok, rejectIf_eq_ok, pure_eq_ok, exists_and_left, exists_const,
    not_not] at hupdate
  obtain ⟨hchanged, rfl⟩ := hupdate
  exact ⟨hchanged, rfl, rfl, rfl, rfl⟩

/-- The tables before and after an accepted `UPDATE tool_permissions`. -/
structure PermissionsUpdated (cond : ToolPermissionRecord → Bool)
    (set : ToolPermissionRecord → ToolPermissionRecord) (db db' : AgentDb) : Prop where
  changed : Rows.changed cond db.permissions = 1
  permissions : db'.permissions = Rows.update cond set db.permissions
  runs : db'.runs = db.runs
  messages : db'.messages = db.messages
  sessions : db'.sessions = db.sessions

theorem updateOnePermission_ok {cond : ToolPermissionRecord → Bool}
    {set : ToolPermissionRecord → ToolPermissionRecord} {error : StorageError}
    (hupdate : updateOnePermission cond set error db = .ok db') :
    PermissionsUpdated cond set db db' := by
  unfold updateOnePermission at hupdate
  simp only [bind_eq_ok, rejectIf_eq_ok, pure_eq_ok, exists_and_left, exists_const,
    not_not] at hupdate
  obtain ⟨hchanged, rfl⟩ := hupdate
  exact ⟨hchanged, rfl, rfl, rfl, rfl⟩

/-- Only the assistant and the tools write messages of a run. -/
theorem normalizeAgentRunMessage_role {message : AgentRunMessage}
    {normalized : NormalizedAgentRunMessage}
    (hnormalize : normalizeAgentRunMessage json message = .ok normalized) :
    normalized.role = .assistant ∨ normalized.role = .tool := by
  unfold normalizeAgentRunMessage at hnormalize
  simp only [bind_eq_ok, rejectIf_eq_ok, pure_eq_ok, exists_and_left, exists_const] at hnormalize
  obtain ⟨hrole, _, _, rfl⟩ := hnormalize
  cases hcase : message.role <;> simp_all

theorem normalizeAgentRunMessages_role {messages : List AgentRunMessage}
    {final : Bool} {normalized : List NormalizedAgentRunMessage}
    (hnormalize : normalizeAgentRunMessages json messages final = .ok normalized) :
    ∀ message ∈ normalized, message.role = .assistant ∨ message.role = .tool := by
  unfold normalizeAgentRunMessages at hnormalize
  simp only [bind_eq_ok, rejectIf_eq_ok, exists_and_left, exists_const] at hnormalize
  replace hnormalize := hnormalize.2
  induction messages generalizing normalized with
  | nil =>
    simp only [List.mapM_nil, pure_eq_ok] at hnormalize
    subst hnormalize
    simp
  | cons message rest ih =>
    simp only [List.mapM_cons, bind_eq_ok, pure_eq_ok] at hnormalize
    obtain ⟨first, hfirst, tail, htail, rfl⟩ := hnormalize
    intro stored hstored
    rcases List.mem_cons.mp hstored with rfl | hstored
    · exact normalizeAgentRunMessage_role hfirst
    · exact ih htail stored hstored

/-- What each message of a run keeps is kept by all of them. -/
theorem appendRunMessages_induction {sessionId runId : String}
    {uuid : Nat → String} {timestamp : Int} {motive : AgentDb → Prop}
    {messages : List NormalizedAgentRunMessage}
    (hroles : ∀ message ∈ messages, message.role = .assistant ∨ message.role = .tool)
    (hstep : ∀ (role : AgentMessageRole) coverage db record db',
      role = .assistant ∨ role = .tool →
      MessageAppended sessionId (some runId) role coverage timestamp db record db' →
      motive db → motive db') {index : Nat} {records : List AgentMessageRecord}
    (happend : appendRunMessages json sessionId runId uuid timestamp index messages db =
      .ok (records, db')) (hstart : motive db) : motive db' := by
  induction messages generalizing index db records with
  | nil =>
    simp only [appendRunMessages, Except.ok.injEq, Prod.mk.injEq] at happend
    rw [← happend.2]
    exact hstart
  | cons message rest ih =>
    simp only [appendRunMessages, bind_eq_ok, pure_eq_ok, Prod.mk.injEq, Prod.exists] at happend
    obtain ⟨record, middle, hfirst, tail, last, htail, -, rfl⟩ := happend
    have hrest := fun stored hstored => hroles stored (List.mem_cons_of_mem message hstored)
    refine ih hrest htail ?_
    exact hstep _ _ _ _ _ (hroles message List.mem_cons_self)
      (appendMessageInTransaction_ok hfirst) hstart

end Chat2DB.Storage
