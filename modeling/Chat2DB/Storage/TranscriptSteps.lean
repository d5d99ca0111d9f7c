import Chat2DB.Storage.AgentOps

/-! # The transcript under one operation

Messages are only ever appended, one at a time and within the limits of their
session, until the session is deleted.
-/

namespace Chat2DB.Storage

open Outcome

/-- A row that may follow these messages: within the limits of its session and
with the next ordinal. -/
structure AgentMessageRecord.Fits (record : AgentMessageRecord)
    (messages : List AgentMessageRecord) : Prop where
  count : (messages.filter fun message => message.sessionId = record.sessionId).length <
    maxAgentMessagesPerSession
  bytes : ((messages.filter fun message => message.sessionId = record.sessionId).map
    (·.contentBytes)).sum + record.contentBytes ≤ maxAgentMessageBytesPerSession
  ordinal : nextOrdinal ((messages.filter fun message => message.sessionId = record.sessionId).map
    (·.ordinal)).max? = .ok record.ordinal

/-- The run a message names is stored, in the session of the message. -/
def AgentMessageRecord.Owned (record : AgentMessageRecord) (runs : List AgentRunRecord) : Prop :=
  ∀ owner ∈ record.runId, ∃ run ∈ runs, run.id = owner ∧ run.sessionId = record.sessionId

/-- A message that neither initiates a run nor records coverage. -/
structure AgentMessageRecord.Plain (runs : List AgentRunRecord) (record : AgentMessageRecord) :
    Prop where
  owned : record.Owned runs
  initiates : record.runId = none ∨ record.role ≠ .user
  coverage : record.summaryThroughOrdinal = none

/-- Rows appended one after the other. -/
inductive MessagesAppended (accepts : AgentMessageRecord → Prop)
    (messages : List AgentMessageRecord) : List AgentMessageRecord → Prop
  | none : MessagesAppended accepts messages messages
  | more {middle record} (appended : MessagesAppended accepts messages middle)
      (fits : record.Fits middle) (accepted : accepts record) :
      MessagesAppended accepts messages (middle ++ [record])

/-- What an operation can do to the message table. -/
inductive MessagesEffect (op : AgentOp) (db : AgentDb) : List AgentMessageRecord → Prop
  | appended {messages} (rows : MessagesAppended (·.Plain db.runs) db.messages messages) :
      MessagesEffect op db messages
  | started {env runId userMessageId sessionId input} {record : AgentMessageRecord}
      (label : op = .startAgentRunWithIds env runId userMessageId sessionId input)
      (fresh : ∀ run ∈ db.runs, run.id ≠ runId)
      (fits : record.Fits db.messages) (session : record.sessionId = sessionId)
      (run : record.runId = some runId) (role : record.role = .user)
      (coverage : record.summaryThroughOrdinal = none) :
      MessagesEffect op db (db.messages ++ [record])
  | summarized {env id expected input} {record : AgentMessageRecord}
      (label : op = .compactAgentRun env id expected input)
      (fits : record.Fits db.messages) (owned : record.Owned db.runs)
      (run : record.runId = some id) (role : record.role = .summary)
      (coverage : record.summaryThroughOrdinal = input.compaction.requestedCoverage) :
      MessagesEffect op db (db.messages ++ [record])
  | deleted {sessionId revision} (label : op = .deleteAgentSession sessionId revision) :
      MessagesEffect op db (db.messages.filter fun message => message.sessionId ≠ sessionId)

theorem MessagesEffect.unchanged {op : AgentOp} {db : AgentDb} : MessagesEffect op db db.messages :=
  .appended .none

/-! ## Accepted appends -/

namespace MessageAppended

variable {sessionId : String} {runId : Option String} {role : AgentMessageRole}
  {coverage : Option Nat} {timestamp : Int} {db db' : AgentDb} {record : AgentMessageRecord}

/-- A message touches neither runs nor permissions. -/
theorem tables (happended : MessageAppended sessionId runId role coverage timestamp db record db') :
    db'.runs = db.runs ∧ db'.permissions = db.permissions := by
  rw [happended.after]
  exact ⟨rfl, rfl⟩

theorem messages
    (happended : MessageAppended sessionId runId role coverage timestamp db record db') :
    db'.messages = db.messages ++ [record] := by
  rw [happended.after]
  rfl

theorem fits (happended : MessageAppended sessionId runId role coverage timestamp db record db') :
    record.Fits db.messages := by
  obtain rfl := happended.session
  exact ⟨happended.count, happended.bytes, happended.ordinal⟩

theorem record_owned
    (happended : MessageAppended sessionId runId role coverage timestamp db record db') :
    record.Owned db.runs := by
  intro owner howner
  rw [happended.run] at howner
  rw [happended.session]
  exact happended.owned owner howner

/-- Only a summary covers other messages. -/
theorem coverage_none
    (happended : MessageAppended sessionId runId role coverage timestamp db record db')
    (hrole : role ≠ .summary) : coverage = none := by
  have hmatch := happended.coverageRole
  cases role <;> cases coverage <;> simp_all [coverageMatchesRole]

theorem plain (happended : MessageAppended sessionId runId role coverage timestamp db record db')
    (hrole : role ≠ .summary) (hinitiates : runId = none ∨ role ≠ .user) :
    record.Plain db.runs where
  owned := happended.record_owned
  initiates := by
    rw [happended.run, happended.roleEq]
    exact hinitiates
  coverage := by
    rw [happended.coverageEq]
    exact happended.coverage_none hrole

end MessageAppended

section Batches

variable {json : JsonEngine} {db db' : AgentDb}

/-- The messages of a run are appended in their order, and nothing else changes. -/
theorem appendRunMessages_tables {sessionId runId : String} {uuid : Nat → String}
    {timestamp : Int} {index : Nat} {messages : List NormalizedAgentRunMessage}
    {records : List AgentMessageRecord}
    (hroles : ∀ message ∈ messages, message.role = .assistant ∨ message.role = .tool)
    (happend : appendRunMessages json sessionId runId uuid timestamp index messages db =
      .ok (records, db')) :
    db'.runs = db.runs ∧ db'.permissions = db.permissions ∧
      MessagesAppended (·.Plain db.runs) db.messages db'.messages := by
  refine appendRunMessages_induction (motive := fun middle =>
    middle.runs = db.runs ∧ middle.permissions = db.permissions ∧
      MessagesAppended (·.Plain db.runs) db.messages middle.messages) hroles ?_ happend
    ⟨rfl, rfl, .none⟩
  rintro role coverage middle record last hrole happended ⟨hruns, hpermissions, hmessages⟩
  refine ⟨happended.tables.1.trans hruns, happended.tables.2.trans hpermissions, ?_⟩
  rw [happended.messages]
  refine hmessages.more happended.fits ?_
  rw [← hruns]
  rcases hrole with rfl | rfl <;> exact happended.plain (by simp) (by simp)

/-- A summary is one more message, if there is one. -/
theorem appendSummary_tables {env : CallEnv} {expected : AgentRunStatus} {input : CompactAgentRun}
    {sessionId runId : String} {timestamp : Int} {summary : Option (String × Nat)}
    {record : Option AgentMessageRecord}
    (happend : appendSummary json env sessionId runId input.compaction.requestedCoverage timestamp
      db summary = .ok (record, db')) :
    db'.runs = db.runs ∧ db'.permissions = db.permissions ∧
      MessagesEffect (.compactAgentRun env runId expected input) db db'.messages := by
  cases summary with
  | none =>
    simp only [appendSummary, Except.ok.injEq, Prod.mk.injEq] at happend
    rw [← happend.2]
    exact ⟨rfl, rfl, .unchanged⟩
  | some content =>
    simp only [appendSummary, bind_eq_ok, pure_eq_ok, Prod.mk.injEq, Prod.exists] at happend
    obtain ⟨message, _, happended, -, rfl⟩ := happend
    have happended := appendMessageInTransaction_ok happended
    refine ⟨happended.tables.1, happended.tables.2, ?_⟩
    rw [happended.messages]
    exact .summarized rfl happended.fits happended.record_owned happended.run happended.roleEq
      happended.coverageEq

end Batches

end Chat2DB.Storage
