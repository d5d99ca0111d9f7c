import Chat2DB.Base.Outcome
import Chat2DB.Base.Rows
import Chat2DB.Storage.AgentTypes

/-! # Canonical messages

Message validation and the one helper through which every transaction appends
to a session transcript. JSON handling by SQLite and serde is a parameter
(`JsonEngine`); everything the store decides from it is modelled.
-/

namespace Chat2DB.Storage

open Outcome

/-- Provider-neutral tool call of the message contract. -/
structure ContractToolCall where
  id : String
  name : String
  argumentsJson : String
deriving DecidableEq

/-- Provider-neutral message content. The output of a tool result is not
inspected by the store. -/
inductive ContractMessageContent where
  | text (text : String)
  | toolCalls (calls : List ContractToolCall)
  | toolResult (toolCallId name : String)
deriving DecidableEq

/-- What SQLite's JSON functions and serde answer about a text. -/
structure JsonEngine where
  /-- `json_valid(?1)` -/
  jsonValid : String → Bool
  /-- The visibility query: an array of known objects without hidden keys. -/
  visible : String → Bool
  /-- `serde_json::from_str` followed by `from_value` into the contract. -/
  blocks : String → Option (List ContractMessageContent)
  /-- Serialising the parsed blocks gives the parsed value back. -/
  onlyContractFields : String → Bool
  /-- `serde_json::to_string` of the parsed blocks. -/
  canonical : String → String
  /-- `json_array(json_object('type', 'text', 'text', ?1))` -/
  textArray : String → String
  /-- The text parses as a JSON object. -/
  isObject : String → Bool

/-- Unicode `White_Space`, as `char::is_whitespace` decides it. -/
def isWhitespace (c : Char) : Bool :=
  let code := c.toNat
  (0x09 ≤ code && code ≤ 0x0D) || code == 0x20 || code == 0x85 || code == 0xA0 ||
    code == 0x1680 || (0x2000 ≤ code && code ≤ 0x200A) || code == 0x2028 || code == 0x2029 ||
    code == 0x202F || code == 0x205F || code == 0x3000

/-- `text.trim().is_empty()` -/
def isBlank (text : String) : Bool :=
  text.toList.all isWhitespace

/-- Binding a `u64` parameter; the bound value is the number itself. -/
def toSqlI64 (value : Nat) (label : String) : Except StorageError Unit :=
  rejectIf (value > i64Max) (.numericRange label)

/-- `u64::checked_add` -/
def checkedAdd (left right : Nat) : Option Nat :=
  if left + right ≤ u64Max then some (left + right) else none

def validContractToolCall (json : JsonEngine) (call : ContractToolCall) : Bool :=
  !isBlank call.id && !isBlank call.name && json.isObject call.argumentsJson

/-- A text block whose text passes the given test. -/
def isTextBlock (accepts : String → Bool) : ContractMessageContent → Bool
  | .text text => accepts text
  | _ => false

def blocksMatchRole (json : JsonEngine) (role : AgentMessageRole)
    (blocks : List ContractMessageContent) : Bool :=
  !blocks.isEmpty &&
    match role with
    | .system | .user => blocks.all (isTextBlock fun text => !text.isEmpty)
    | .summary => blocks.all (isTextBlock fun text => !isBlank text)
    | .assistant => blocks.all fun block =>
      match block with
      | .text text => !text.isEmpty
      | .toolCalls calls => !calls.isEmpty && calls.all (validContractToolCall json)
      | .toolResult _ _ => false
    | .tool =>
      match blocks with
      | [.toolResult toolCallId name] => !isBlank toolCallId && !isBlank name
      | _ => false

def validateMessageRole (json : JsonEngine) (role : AgentMessageRole) (contentJson : String) :
    Except StorageError Unit := do
  let blocks ← orThrow (json.blocks contentJson)
    (.invalidAgent "message content does not match the canonical contract")
  rejectIf (blocksMatchRole json role blocks = false)
    (.invalidAgent "message content blocks do not match the persisted role")

def normalizeMessageJson (json : JsonEngine) (contentJson : String) :
    Except StorageError (String × Nat) := do
  let rawBytes := contentJson.utf8ByteSize
  rejectIf (rawBytes = 0 ∨ rawBytes > maxAgentMessageBytes)
    (.agentQuotaExceeded "single message bytes" maxAgentMessageBytes)
  rejectIf (json.jsonValid contentJson = false)
    (.invalidAgent
      "message must be a strict visible JSON array without hidden reasoning or raw deltas")
  rejectIf (json.visible contentJson = false)
    (.invalidAgent
      "message must be a strict visible JSON array without hidden reasoning or raw deltas")
  rejectIf (json.blocks contentJson = none)
    (.invalidAgent "message content does not match the canonical contract")
  rejectIf (json.onlyContractFields contentJson = false)
    (.invalidAgent "message contains fields outside the canonical contract")
  let canonical := json.canonical contentJson
  let canonicalBytes := canonical.utf8ByteSize
  rejectIf (canonicalBytes = 0 ∨ canonicalBytes > maxAgentMessageBytes)
    (.agentQuotaExceeded "single message bytes" maxAgentMessageBytes)
  pure (canonical, canonicalBytes)

def textMessageJson (json : JsonEngine) (text : String) : Except StorageError (String × Nat) := do
  rejectIf (isBlank text) (.invalidAgent "agent text message must be non-empty")
  normalizeMessageJson json (json.textArray text)

namespace AgentDb

def loadSession (db : AgentDb) (id : String) : Option AgentSessionRecord :=
  Rows.find AgentSessionRecord.id id db.sessions

def loadRun (db : AgentDb) (id : String) : Option AgentRunRecord :=
  Rows.find (·.id) id db.runs

def loadPermission (db : AgentDb) (id : String) : Option ToolPermissionRecord :=
  Rows.find ToolPermissionRecord.id id db.permissions

/-- The messages of one session, in insertion order. -/
def sessionMessages (db : AgentDb) (sessionId : String) : List AgentMessageRecord :=
  db.messages.filter fun message => message.sessionId = sessionId

def hasSession (db : AgentDb) (id : String) : Bool :=
  db.sessions.any fun session => session.id = id

/-- The session owns a running or permission-waiting run. -/
def sessionBusy (db : AgentDb) (sessionId : String) : Bool :=
  db.runs.any fun run => run.sessionId = sessionId && run.status.isActive

end AgentDb

/-- A message may name a run only of its own session. -/
def requireOwnedRun (db : AgentDb) (sessionId : String) : Option String → Except StorageError Unit
  | none => .ok ()
  | some runId =>
    rejectIf (db.runs.any (fun run => run.id = runId && run.sessionId = sessionId) = false)
      (.agentRunNotFound runId)

/-- Coverage is recorded by summary messages and by no others. -/
def coverageMatchesRole (role : AgentMessageRole) (summaryThroughOrdinal : Option Nat) : Bool :=
  match role, summaryThroughOrdinal with
  | .summary, some _ => true
  | .system, none | .user, none | .assistant, none | .tool, none => true
  | _, _ => false

/-- `INSERT INTO agent_messages` under the constraints of the table. -/
def insertMessage (json : JsonEngine) (record : AgentMessageRecord) (db : AgentDb) :
    Except StorageError AgentDb := do
  rejectIf (db.messages.any fun message => message.id = record.id) .sqlite
  rejectIf (db.messages.any fun message =>
    message.sessionId = record.sessionId && message.ordinal = record.ordinal) .sqlite
  rejectIf (json.jsonValid record.contentJson = false) .sqlite
  rejectIf (record.contentBytes = 0 ∨ record.contentBytes ≠ record.contentJson.utf8ByteSize)
    .sqlite
  pure { db with messages := db.messages ++ [record] }

/-- `UPDATE agent_sessions SET updated_at_ms = ?1 WHERE id = ?2` -/
def touchSession (sessionId : String) (timestamp : Int) (db : AgentDb) : AgentDb :=
  { db with
    sessions := Rows.update (fun session => session.id = sessionId)
      (fun session => { session with updatedAtMs := timestamp }) db.sessions }

/-- The ordinal after the greatest stored one. -/
def nextOrdinal : Option Nat → Except StorageError Nat
  | none => .ok 0
  | some maximum => orThrow (checkedAdd maximum 1) (.numericRange "agent message ordinal")

def optionToSqlI64 (value : Option Nat) (label : String) : Except StorageError Unit :=
  rejectIf (∃ bound ∈ value, bound > i64Max) (.numericRange label)

def appendMessageInTransaction (json : JsonEngine) (sessionId : String) (runId : Option String)
    (messageId : String) (role : AgentMessageRole) (summaryThroughOrdinal : Option Nat)
    (contentJson : String) (contentBytes : Nat) (timestamp : Int) (db : AgentDb) :
    Except StorageError (AgentMessageRecord × AgentDb) := do
  rejectIf (db.hasSession sessionId = false) (.agentSessionNotFound sessionId)
  requireOwnedRun db sessionId runId
  rejectIf (coverageMatchesRole role summaryThroughOrdinal = false)
    (.invalidAgent "summary coverage is required only for summary messages")
  validateMessageRole json role contentJson
  let stored := db.sessionMessages sessionId
  let count := stored.length
  let bytes := (stored.map (·.contentBytes)).sum
  rejectIf (count ≥ maxAgentMessagesPerSession)
    (.agentQuotaExceeded "session message count" maxAgentMessagesPerSession)
  let total ← orThrow (checkedAdd bytes contentBytes) (.numericRange "agent message total bytes")
  rejectIf (total > maxAgentMessageBytesPerSession)
    (.agentQuotaExceeded "session message bytes" maxAgentMessageBytesPerSession)
  let ordinal ← nextOrdinal (stored.map (·.ordinal)).max?
  rejectIf (∃ coverage ∈ summaryThroughOrdinal, coverage ≥ ordinal)
    (.invalidAgent "summary coverage must precede the summary message")
  let record : AgentMessageRecord :=
    { id := messageId, sessionId, runId, ordinal, role, summaryThroughOrdinal, contentJson
      contentBytes, createdAtMs := timestamp }
  toSqlI64 ordinal "agent message ordinal"
  optionToSqlI64 summaryThroughOrdinal "summary coverage ordinal"
  toSqlI64 contentBytes "agent message bytes"
  let inserted ← insertMessage json record db
  pure (record, touchSession sessionId timestamp inserted)

/-! ## What an accepted append does -/

/-- The stored row, the checks it passed, and the tables after it. -/
structure MessageAppended (sessionId : String) (runId : Option String) (role : AgentMessageRole)
    (coverage : Option Nat) (timestamp : Int) (db : AgentDb) (record : AgentMessageRecord)
    (db' : AgentDb) : Prop where
  session : record.sessionId = sessionId
  run : record.runId = runId
  roleEq : record.role = role
  coverageEq : record.summaryThroughOrdinal = coverage
  fresh : ∀ stored ∈ db.messages, stored.id ≠ record.id
  hasSession : db.hasSession sessionId = true
  owned : ∀ owner ∈ runId, ∃ run ∈ db.runs, run.id = owner ∧ run.sessionId = sessionId
  coverageRole : coverageMatchesRole role coverage = true
  count : (db.sessionMessages sessionId).length < maxAgentMessagesPerSession
  bytes : ((db.sessionMessages sessionId).map (·.contentBytes)).sum + record.contentBytes ≤
    maxAgentMessageBytesPerSession
  ordinal : nextOrdinal ((db.sessionMessages sessionId).map (·.ordinal)).max? = .ok record.ordinal
  coverageBefore : ∀ bound ∈ coverage, bound < record.ordinal
  after : db' = touchSession sessionId timestamp { db with messages := db.messages ++ [record] }

/-- The run that a message names is a run of the message's session. -/
theorem requireOwnedRun_eq_ok {db : AgentDb} {sessionId : String} {runId : Option String}
    {result : Unit} (howned : requireOwnedRun db sessionId runId = .ok result) :
    ∀ owner ∈ runId, ∃ run ∈ db.runs, run.id = owner ∧ run.sessionId = sessionId := by
  intro owner howner
  cases runId with
  | none => simp at howner
  | some stored =>
    obtain rfl : stored = owner := by simpa using howner
    simp only [requireOwnedRun, rejectIf_eq_ok] at howned
    simpa using howned

theorem checkedAdd_eq_some {left right total : Nat} (hadd : checkedAdd left right = some total) :
    left + right = total := by
  unfold checkedAdd at hadd
  split at hadd
  · simpa using hadd
  · simp at hadd

/-- What an accepted message adds: one record with the next ordinal, and nothing else. -/
theorem appendMessageInTransaction_ok {json : JsonEngine} {sessionId : String}
    {runId : Option String} {messageId : String} {role : AgentMessageRole} {coverage : Option Nat}
    {contentJson : String} {contentBytes : Nat} {timestamp : Int} {db db' : AgentDb}
    {record : AgentMessageRecord}
    (happend : appendMessageInTransaction json sessionId runId messageId role coverage contentJson
      contentBytes timestamp db = .ok (record, db')) :
    MessageAppended sessionId runId role coverage timestamp db record db' := by
  unfold appendMessageInTransaction insertMessage toSqlI64 optionToSqlI64 at happend
  simp only [bind_eq_ok, rejectIf_eq_ok, orThrow_eq_ok, pure_eq_ok, exists_and_left, exists_const,
    Prod.mk.injEq] at happend
  obtain ⟨hsession, _, howned, hcoverage, _, _, hcount, total, htotal, hbytes, ordinal, hordinal,
    hbefore, _, _, _, inserted, ⟨hfresh, _, _, _, rfl⟩, rfl, rfl⟩ := happend
  have hsum := checkedAdd_eq_some htotal
  exact
    { session := rfl
      run := rfl
      roleEq := rfl
      coverageEq := rfl
      fresh := by simpa using hfresh
      hasSession := by simpa using hsession
      owned := requireOwnedRun_eq_ok howned
      coverageRole := by simpa using hcoverage
      count := by omega
      bytes := by
        simp only
        omega
      ordinal := hordinal
      coverageBefore := by
        intro bound hbound
        by_contra hge
        exact hbefore ⟨bound, hbound, by simpa using hge⟩
      after := rfl }

end Chat2DB.Storage
