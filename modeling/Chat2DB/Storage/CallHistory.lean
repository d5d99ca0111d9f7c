import Chat2DB.Storage.AgentCalls
import Chat2DB.Storage.AgentTranscript

/-! # Histories over a connection that fails

A call either leaves the store as it was or does to it what it does on a
connection that works, so a history with faults is one without: that of the
calls whose commit took place. What the caller learns can be less than that,
since an error may stand for a commit that went through.
-/

namespace Chat2DB.Storage

open Outcome

variable {json : JsonEngine} {calls : List AgentCall} {error : StorageError} {sessionId : String}

/-! ## One call and its transaction -/

theorem reply_eq_transact {α : Type} (wrap : α → AgentReply) (body : Transaction α) (db : AgentDb) :
    reply wrap body db = transact (body.replying wrap) db := by
  unfold reply transact Transaction.replying
  cases body db with
  | error error => rfl
  | ok committed => rfl

theorem exec_eq_transact (json : JsonEngine) (op : AgentOp) (db : AgentDb) :
    exec json op db = transact (op.transaction json) db := by
  cases op <;> exact reply_eq_transact _ _ db

theorem exec_of_error {op : AgentOp} {db : AgentDb}
    (hbody : op.transaction json db = .error error) : exec json op db = (.error error, db) := by
  rw [exec_eq_transact, transact, hbody]

theorem exec_of_ok {op : AgentOp} {db committed : AgentDb} {reply : Except StorageError AgentReply}
    (hbody : op.transaction json db = .ok (reply, committed)) :
    exec json op db = (reply, committed) := by
  rw [exec_eq_transact, transact, hbody]

theorem replying_eq_ok {α : Type} {wrap : α → AgentReply} {body : Transaction α}
    {db committed : AgentDb} {reply : Except StorageError AgentReply}
    (hbody : body.replying wrap db = .ok (reply, committed)) :
    ∃ result, body db = .ok (result, committed) ∧ reply = result.map wrap := by
  unfold Transaction.replying at hbody
  simp only [bind_eq_ok, pure_eq_ok, Prod.mk.injEq] at hbody
  obtain ⟨⟨result, _⟩, hresult, rfl, rfl⟩ := hbody
  exact ⟨result, hresult, rfl⟩

/-- A call that returns early leaves the tables as they are. -/
theorem returnsEarly_unchanged {op : AgentOp} {db committed : AgentDb}
    {reply : Except StorageError AgentReply} (hearly : op.returnsEarly db = true)
    (hbody : op.transaction json db = .ok (reply, committed)) : committed = db := by
  cases op with
  | requestAgentRunCancellation env id =>
    obtain ⟨result, hresult, -⟩ := replying_eq_ok hbody
    unfold requestAgentRunCancellation at hresult
    simp only [bind_eq_ok, orThrow_eq_ok] at hresult
    obtain ⟨current, hload, hresult⟩ := hresult
    have hdone : current.status.isTerminal ∨ current.cancelRequested := by
      simpa [AgentOp.returnsEarly, hload] using hearly
    rw [if_pos hdone] at hresult
    simp only [pure_eq_ok, Prod.mk.injEq] at hresult
    exact hresult.2.symm
  | _ => cases hearly

/-- The tables after a call are those before it, or those it leaves on a connection that works. -/
theorem perform_store (json : JsonEngine) (call : AgentCall) (db : AgentDb) :
    (call.perform json db).2 = if call.faults.Durable then (exec json call.op db).2 else db := by
  obtain ⟨op, statement, commit, readBack⟩ := call
  unfold AgentCall.perform
  cases statement with
  | some error => simp [CallFaults.Durable]
  | none =>
    cases hbody : op.transaction json db with
    | error error => simp [exec_of_error hbody]
    | ok answered =>
      obtain ⟨reply, committed⟩ := answered
      simp only [exec_of_ok hbody]
      by_cases hearly : op.returnsEarly db = true
      · simp [hearly, returnsEarly_unchanged hearly hbody]
      · cases commit <;> simp [hearly, CallFaults.Durable]

/-- A connection that works runs a call as `exec` does. -/
theorem perform_none (json : JsonEngine) (op : AgentOp) (db : AgentDb) :
    AgentCall.perform json ⟨op, .none⟩ db = exec json op db := by
  unfold AgentCall.perform CallFaults.none
  cases hbody : op.transaction json db with
  | error error => simp [exec_of_error hbody]
  | ok answered =>
    obtain ⟨reply, committed⟩ := answered
    rw [exec_of_ok hbody]
    by_cases hearly : op.returnsEarly db = true
    · simp [hearly, returnsEarly_unchanged hearly hbody]
    · cases reply <;> simp [hearly, AgentOp.afterCommit]

/-- The operation of a call whose commit takes place. -/
def AgentCall.committed (call : AgentCall) : Option AgentOp :=
  if call.faults.Durable then some call.op else none

/-- Every store that calls with faults reach is one that calls without faults reach. -/
theorem callsAfter_eq_storeAfter (json : JsonEngine) (calls : List AgentCall) :
    callsAfter json calls = storeAfter json (calls.filterMap AgentCall.committed) := by
  refine Trace.run_filterMap ?_ calls
  intro call db
  rw [perform_store, AgentCall.committed]
  split <;> rfl

/-- Calls that fail around their commit keep the tables sound as well. -/
theorem callsAt_sound (json : JsonEngine) (calls : List AgentCall) (count : Nat) :
    (callsAt json calls count).Sound := by
  change (callsAfter json (calls.take count)).Sound
  rw [callsAfter_eq_storeAfter]
  exact storeAfter_sound json _

/-! ## Reading back after a commit that answers an error -/

section Written

variable {env : CallEnv} {id : String} {db committed : AgentDb}

/-- The message that was appended can be read back. -/
theorem appendMessageInTransaction_loads {messageId : String} {runId : Option String}
    {role : AgentMessageRole} {coverage : Option Nat} {contentJson : String} {contentBytes : Nat}
    {timestamp : Int} {record : AgentMessageRecord}
    (happend : appendMessageInTransaction json sessionId runId messageId role coverage contentJson
      contentBytes timestamp db = .ok (record, committed)) :
    db.loadMessage record.id = none ∧ committed.loadMessage record.id = some record := by
  have happended := appendMessageInTransaction_ok happend
  have habsent : db.loadMessage record.id = none := Rows.find_eq_none_iff.mpr happended.fresh
  refine ⟨habsent, ?_⟩
  unfold AgentDb.loadMessage at habsent ⊢
  rw [happended.messages, Rows.find_append_singleton, habsent]
  simp

/-- Neither the run nor its message was there, and both are as the start returns them. -/
theorem startAgentRunWithIds_written {runId userMessageId : String}
    {input : StartAgentRun} {result : Except StorageError StartedAgentRun}
    (hop : startAgentRunWithIds json env runId userMessageId sessionId input db =
      .ok (result, committed)) :
    ∃ started, result = .ok started ∧
      (db.loadRun started.run.id = none ∧ db.loadMessage started.userMessage.id = none) ∧
      committed.loadRun started.run.id = some started.run ∧
      committed.loadMessage started.userMessage.id = some started.userMessage := by
  unfold startAgentRunWithIds at hop
  simp only [bind_eq_ok, rejectIf_eq_ok, pure_eq_ok, exists_and_left, exists_const, Prod.mk.injEq,
    Prod.exists] at hop
  obtain ⟨_, timestamp, _, _, _, _, _, _, inserted, hinsert, message, _, happend, rfl, rfl⟩ := hop
  obtain ⟨rfl, hfresh, -⟩ := insertRun_ok hinsert
  have hruns := (appendMessageInTransaction_ok happend).tables.1
  obtain ⟨hnoMessage, hmessage⟩ := appendMessageInTransaction_loads happend
  have hnoRun := Rows.find_eq_none_iff.mpr hfresh
  refine ⟨_, rfl, ⟨hnoRun, hnoMessage⟩, ?_, hmessage⟩
  unfold AgentDb.loadRun
  rw [hruns, Rows.find_append_singleton, hnoRun]
  simp

theorem appendSummary_loads {runId : String} {coverage : Option Nat} {timestamp : Int}
    {summary : Option (String × Nat)} {record : Option AgentMessageRecord}
    (happend : appendSummary json env sessionId runId coverage timestamp db summary =
      .ok (record, committed)) :
    ∀ message ∈ record, committed.loadMessage message.id = some message := by
  cases summary with
  | none =>
    simp only [appendSummary, Except.ok.injEq, Prod.mk.injEq] at happend
    simp [← happend.1]
  | some content =>
    simp only [appendSummary, bind_eq_ok, pure_eq_ok, Prod.mk.injEq, Prod.exists] at happend
    obtain ⟨message, _, happended, rfl, rfl⟩ := happend
    simpa using (appendMessageInTransaction_loads happended).2

/-- The row an accepted `UPDATE agent_runs` leaves where its condition names the id. -/
theorem loadRun_of_updated {middle : AgentDb} {current : AgentRunRecord}
    {cond : AgentRunRecord → Bool} {set : AgentRunRecord → AgentRunRecord}
    (hkeyed : db.WellKeyed) (hload : db.loadRun id = some current)
    (hrows : RunsUpdated cond set middle committed) (hruns : middle.runs = db.runs)
    (hset : ∀ run, (set run).id = run.id) (hcond : ∀ run, cond run = true → run.id = id) :
    committed.loadRun id = some (set current) := by
  have hcurrent := Rows.cond_of_changed hkeyed.runs hload hcond (hruns ▸ hrows.changed)
  rw [loadRun_update (hruns ▸ hrows.runs) hset hload, if_pos hcurrent]

/-- The run stands before the compaction as it was, after it as the compaction returns it. -/
theorem compactAgentRun_written {expected : AgentRunStatus} {input : CompactAgentRun}
    {result : Except StorageError CompactedAgentRun} (hkeyed : db.WellKeyed)
    (hop : compactAgentRun json env id expected input db = .ok (result, committed)) :
    ∃ prior compacted, result = .ok compacted ∧ db.loadRun id = some prior ∧
      prior ≠ compacted.run ∧ committed.loadRun id = some compacted.run ∧
      ∀ summary ∈ compacted.summaryMessage, committed.loadMessage summary.id = some summary := by
  unfold compactAgentRun at hop
  simp only [bind_eq_ok, rejectIf_eq_ok, orThrow_eq_ok, pure_eq_ok, exists_and_left, exists_const,
    Prod.mk.injEq, Prod.exists, not_not] at hop
  obtain ⟨_, _, _, current, hload, _, _, _, _, count, coverage, _, _, hprogress, _, _, timestamp, _,
    summary, middle, happend, _, _, updated, hupdate, rfl, rfl⟩ := hop
  have hrows := updateOneRun_ok hupdate
  have htables : middle.runs = db.runs ∧ _ ∧
      MessagesEffect (.compactAgentRun env id expected input) db middle.messages :=
    appendSummary_tables happend
  refine ⟨current, _, rfl, hload, ?_, ?_, ?_⟩
  · -- the event number moves on
    intro hsame
    have hadvances := (validateRunProgress_ok hprogress).lastSequence
    have hequal := congrArg (fun run : AgentRunRecord => run.lastSequence) hsame
    exact absurd hequal hadvances.ne
  · refine loadRun_of_updated hkeyed hload hrows htables.1 (fun _ => rfl) ?_
    intro run hcond
    simp only [Bool.and_eq_true, decide_eq_true_eq] at hcond
    exact hcond.1.1.1
  · intro message hmessage
    have hloads := appendSummary_loads happend message hmessage
    unfold AgentDb.loadMessage at hloads ⊢
    rwa [hrows.messages]

/-- A run that could be cancelled, and the cancelled one that the call returns. -/
theorem requestAgentRunCancellation_written {result : Except StorageError AgentRunRecord}
    (hkeyed : db.WellKeyed)
    (hlate : AgentOp.returnsEarly db (.requestAgentRunCancellation env id) = false)
    (hop : requestAgentRunCancellation env id db = .ok (result, committed)) :
    ∃ prior cancelled, db.loadRun id = some prior ∧
      ¬ (prior.status.isTerminal = true ∨ prior.cancelRequested = true) ∧
      committed.loadRun id = some cancelled ∧ cancelled.cancelRequested = true ∧
      result = .ok cancelled := by
  unfold requestAgentRunCancellation at hop
  simp only [bind_eq_ok, orThrow_eq_ok] at hop
  obtain ⟨current, hload, hop⟩ := hop
  have hlive : ¬ (current.status.isTerminal = true ∨ current.cancelRequested = true) := by
    simpa [AgentOp.returnsEarly, hload] using hlate
  rw [if_neg hlive] at hop
  simp only [bind_eq_ok, pure_eq_ok, Prod.mk.injEq] at hop
  obtain ⟨timestamp, _, updated, hupdate, rfl, rfl⟩ := hop
  have hcancelled : updated.loadRun id = some _ :=
    loadRun_of_updated hkeyed hload (updateOneRun_ok hupdate) rfl (fun _ => rfl)
      (by simp +contextual)
  change (revokeActivePermissions id timestamp updated).loadRun id = some _ at hcancelled
  exact ⟨current, _, hload, hlive, hcancelled, rfl, by rw [hcancelled]; rfl⟩

end Written

section Answers

variable {op : AgentOp} {faults : CallFaults} {db committed : AgentDb}
  {answer : Except StorageError AgentReply}

/-- A call that reconciles nothing hands the error of the database on. -/
theorem afterCommitError_plain (hplain : op.reconciles = false) (actual : AgentDb) :
    op.afterCommitError faults db answer actual = .error .sqlite := by
  cases op with
  | startAgentRunWithIds | compactAgentRun | requestAgentRunCancellation => cases hplain
  | _ => cases answer <;> rfl

/-- A commit that took place is found by the calls that read back, and by these only. -/
theorem afterCommitError_committed (hkeyed : db.WellKeyed)
    (hbody : op.transaction json db = .ok (answer, committed))
    (hlate : op.returnsEarly db = false) :
    (op.reconciles = true → faults.readBack = none →
      op.afterCommitError faults db answer committed = answer) ∧
    (op.reconciles = false ∨ faults.readBack ≠ none →
      ∃ error, op.afterCommitError faults db answer committed = .error error) := by
  cases hreconciles : op.reconciles with
  | false =>
    exact ⟨fun hcontra => absurd hcontra (by simp),
      fun _ => ⟨_, afterCommitError_plain hreconciles committed⟩⟩
  | true =>
    cases op with
    | startAgentRunWithIds env runId userMessageId sessionId input =>
      obtain ⟨result, hresult, rfl⟩ := replying_eq_ok hbody
      obtain ⟨started, rfl, -, hrun, hmessage⟩ := startAgentRunWithIds_written hresult
      cases hread : faults.readBack <;>
        simp [AgentOp.afterCommitError, reconcileAgentRunStartCommit, Except.map, *]
    | compactAgentRun env id expected input =>
      obtain ⟨result, hresult, rfl⟩ := replying_eq_ok hbody
      obtain ⟨prior, ⟨run, summary⟩, rfl, hload, -, hrun, hsummary⟩ :=
        compactAgentRun_written hkeyed hresult
      cases summary <;> cases hread : faults.readBack <;>
        simp_all [AgentOp.afterCommitError, reconcileAgentCompactionCommit, Except.map]
    | requestAgentRunCancellation env id =>
      obtain ⟨result, hresult, rfl⟩ := replying_eq_ok hbody
      obtain ⟨prior, cancelled, hload, -, hcancelled, hflag, rfl⟩ :=
        requestAgentRunCancellation_written hkeyed hlate hresult
      cases hread : faults.readBack <;>
        simp [AgentOp.afterCommitError, reconcileAgentRunCancellationCommit, Except.map, *]
    | _ => cases hreconciles

/-- The run is not the compacted one, whatever became of the summary. -/
theorem reconcileAgentCompactionCommit_moved {readBack : Option StorageError} {id : String}
    {prior actual : AgentRunRecord} {expected : CompactedAgentRun} {originalError : StorageError}
    (hload : db.loadRun id = some actual) (hmoved : actual ≠ expected.run) :
    ∃ error, reconcileAgentCompactionCommit readBack id prior expected originalError db =
      .error error := by
  unfold reconcileAgentCompactionCommit
  cases readBack with
  | some error => exact ⟨_, rfl⟩
  | none =>
    simp only [hload, Option.some.injEq, hmoved, false_and, if_false]
    split <;> exact ⟨_, rfl⟩

/-- A commit that did not take place is never reported as one that did. -/
theorem afterCommitError_refused (hkeyed : db.WellKeyed)
    (hbody : op.transaction json db = .ok (answer, committed))
    (hlate : op.returnsEarly db = false) :
    ∃ error, op.afterCommitError faults db answer db = .error error := by
  cases hreconciles : op.reconciles with
  | false => exact ⟨_, afterCommitError_plain hreconciles db⟩
  | true =>
    cases op with
    | startAgentRunWithIds env runId userMessageId sessionId input =>
      obtain ⟨result, hresult, rfl⟩ := replying_eq_ok hbody
      obtain ⟨started, rfl, ⟨hrun, hmessage⟩, -⟩ := startAgentRunWithIds_written hresult
      cases hread : faults.readBack <;>
        simp [AgentOp.afterCommitError, reconcileAgentRunStartCommit, Except.map, *]
    | compactAgentRun env id expected input =>
      obtain ⟨result, hresult, rfl⟩ := replying_eq_ok hbody
      obtain ⟨prior, compacted, rfl, hload, hmoved, -⟩ := compactAgentRun_written hkeyed hresult
      obtain ⟨error, herror⟩ : ∃ error, reconcileAgentCompactionCommit faults.readBack id prior
          compacted .sqlite db = .error error :=
        reconcileAgentCompactionCommit_moved hload hmoved
      exact ⟨error, by simp [AgentOp.afterCommitError, hload, herror, Except.map]⟩
    | requestAgentRunCancellation env id =>
      obtain ⟨result, hresult, rfl⟩ := replying_eq_ok hbody
      obtain ⟨prior, cancelled, hload, hlive, -⟩ :=
        requestAgentRunCancellation_written hkeyed hlate hresult
      cases hread : faults.readBack with
      | some error =>
        simp [AgentOp.afterCommitError, reconcileAgentRunCancellationCommit, Except.map, *]
      | none =>
        simp only [AgentOp.afterCommitError, reconcileAgentRunCancellationCommit, Except.map, hload,
          hread, if_neg hlive, if_true]
        exact ⟨_, rfl⟩
    | _ => cases hreconciles

end Answers

/-- An error over a commit that took place: the store is the one of a success. The calls that read
back return it only where that reading failed as well. -/
structure AnswerLost (json : JsonEngine) (call : AgentCall) (db : AgentDb) : Prop where
  durable : call.faults.Durable
  success : ∃ value, exec json call.op db = (.ok value, (call.perform json db).2)
  lost : call.faults.commit = .unanswered ∨
    call.op.readsBack db = true ∧ call.faults.readBack ≠ none
  unread : call.op.reconciles = true → call.faults.readBack ≠ none

/-- An error behind the commit is the transaction's own, or that of a failed read-back. -/
theorem afterCommit_error {op : AgentOp} {faults : CallFaults} {db : AgentDb}
    {answer : Except StorageError AgentReply}
    (herror : op.afterCommit faults db answer = .error error) :
    answer = .error error ∨ op.readsBack db = true ∧ faults.readBack ≠ none := by
  unfold AgentOp.afterCommit at herror
  split at herror
  · rename_i value readError hread
    by_cases hreads : op.readsBack db = true
    · exact .inr ⟨hreads, by simp [hread]⟩
    · rw [if_neg hreads] at herror
      exact .inl herror
  · exact .inl herror

/-- An error leaves the store alone, or is the error of a connection that works, or hides a
commit. -/
theorem perform_error {call : AgentCall} {db : AgentDb}
    (hkeyed : db.WellKeyed) (herror : (call.perform json db).1 = .error error) :
    (call.perform json db).2 = db ∨
      ((∃ original, (exec json call.op db).1 = .error original) ∧
        (call.perform json db).2 = (exec json call.op db).2) ∨
      AnswerLost json call db := by
  by_cases hdurable : call.faults.Durable
  · have hstore := perform_store json call db
    rw [if_pos hdurable] at hstore
    cases hexec : (exec json call.op db).1 with
    | error original => exact .inr (.inl ⟨⟨original, rfl⟩, hstore⟩)
    | ok value =>
      cases hbody : call.op.transaction json db with
      | error early => simp [exec_of_error hbody] at hexec
      | ok answered =>
        obtain ⟨answer, committed⟩ := answered
        rw [exec_of_ok hbody] at hexec hstore
        obtain rfl : answer = .ok value := hexec
        have hperform := herror
        unfold AgentCall.perform at hperform
        rw [hdurable.1] at hperform
        simp only [hbody] at hperform
        cases hearly : call.op.returnsEarly db with
        | true => simp [hearly] at hperform
        | false =>
          have hsuccess : ∃ value, exec json call.op db = (.ok value, (call.perform json db).2) :=
            ⟨value, by rw [exec_of_ok hbody, hstore]⟩
          cases hcommit : call.faults.commit with
          | applied =>
            simp only [hearly, hcommit, Bool.false_eq_true, if_false] at hperform
            obtain ⟨hreads, hread⟩ :=
              (afterCommit_error hperform).resolve_left (by simp)
            exact .inr (.inr ⟨hdurable, hsuccess, .inr ⟨hreads, hread⟩, fun _ => hread⟩)
          | refused => exact absurd hcommit hdurable.2
          | unanswered =>
            simp only [hearly, hcommit, Bool.false_eq_true, if_false] at hperform
            refine .inr (.inr ⟨hdurable, hsuccess, .inl hcommit, ?_⟩)
            intro hreconciles hread
            rw [(afterCommitError_committed hkeyed hbody hearly).1 hreconciles hread] at hperform
            cases hperform
  · left
    rw [perform_store, if_neg hdurable]

/-- A success is what the caller takes it for: the call did what it does on a connection that
works. -/
theorem perform_ok {call : AgentCall} {db : AgentDb} {value : AgentReply}
    (hkeyed : db.WellKeyed) (hvalue : (call.perform json db).1 = .ok value) :
    call.perform json db = exec json call.op db := by
  unfold AgentCall.perform at hvalue ⊢
  cases hstatement : call.faults.statement with
  | some error => simp [hstatement] at hvalue
  | none =>
    cases hbody : call.op.transaction json db with
    | error early => simp [hstatement, hbody] at hvalue
    | ok answered =>
      obtain ⟨answer, committed⟩ := answered
      simp only [hstatement, hbody] at hvalue ⊢
      rw [exec_of_ok hbody]
      cases hearly : call.op.returnsEarly db with
      | true => simp [returnsEarly_unchanged hearly hbody]
      | false =>
        simp only [hearly, Bool.false_eq_true, if_false] at hvalue ⊢
        cases hcommit : call.faults.commit with
        | applied =>
          simp only [hcommit] at hvalue ⊢
          unfold AgentOp.afterCommit at hvalue ⊢
          split at hvalue
          · by_cases hreads : call.op.readsBack db = true <;> simp_all
          · rfl
        | refused =>
          simp only [hcommit] at hvalue
          obtain ⟨error, herror⟩ : ∃ error,
              call.op.afterCommitError call.faults db answer db = .error error :=
            afterCommitError_refused hkeyed hbody hearly
          simp [herror] at hvalue
        | unanswered =>
          simp only [hcommit] at hvalue ⊢
          obtain ⟨hfound, hnotFound⟩ :=
            @afterCommitError_committed json call.op call.faults db committed answer hkeyed hbody
              hearly
          by_cases hreads : call.op.reconciles = true ∧ call.faults.readBack = none
          · rw [hfound hreads.1 hreads.2]
          · obtain ⟨error, herror⟩ := hnotFound (by simp_all)
            simp [herror] at hvalue

/-! ## Finality and progress -/

/-- A call numbered from `first` on and before `last` deleted the session, whatever it answered. -/
def SessionRemoved (json : JsonEngine) (calls : List AgentCall) (sessionId : String)
    (first last : Nat) : Prop :=
  ∃ index revision faults, first ≤ index ∧ index < last ∧
    calls[index]? = some ⟨.deleteAgentSession sessionId revision, faults⟩ ∧ faults.Durable ∧
    ∃ value, (exec json (.deleteAgentSession sessionId revision)
      (callsAt json calls index)).1 = .ok value

/-- The call deletes this session from this store. -/
def AgentCall.RemovesSession (json : JsonEngine) (sessionId : String) (call : AgentCall)
    (db : AgentDb) : Prop :=
  call.faults.Durable ∧ call.op.DeletesSession json sessionId db

/-- What single calls keep stays until the session is deleted, also by a call that reports an error.
-/
theorem callsAt_until_removed {motive : AgentDb → Prop}
    (hstep : ∀ op db, db.Sound → motive db → ¬ op.DeletesSession json sessionId db →
      motive (exec json op db).2)
    {first last : Nat} (hle : first ≤ last) (hlast : last ≤ calls.length)
    (hfirst : motive (callsAt json calls first)) :
    motive (callsAt json calls last) ∨ SessionRemoved json calls sessionId first last := by
  by_cases hremoved : SessionRemoved json calls sessionId first last
  · exact .inr hremoved
  · left
    have hcalls : ∀ (call : AgentCall) db, db.Sound → motive db →
        ¬ call.RemovesSession json sessionId db → motive (call.perform json db).2 := by
      intro call db hsound hmotive hkept
      rw [perform_store]
      split
      · next hdurable =>
        exact hstep call.op db hsound hmotive fun hdeletes => hkept ⟨hdurable, hdeletes⟩
      · exact hmotive
    refine Trace.stateAt_until (callsAt_sound json calls) hcalls hfirst last hle hlast ?_
    rintro index ⟨_, faults⟩ hindex hbefore hcall ⟨hdurable, ⟨revision, rfl⟩, hreply⟩
    exact hremoved ⟨index, revision, faults, hindex, hbefore, hcall, hdurable, hreply⟩

/-- A permission found expired, its run back to running, and nothing else. -/
structure ExpiryRecorded (op : AgentOp) (db db' : AgentDb) (run : AgentRunRecord)
    (permission : ToolPermissionRecord) (timestamp : Int) : Prop where
  consumes : ∃ env revision toolCallId digest lastSequence,
    op = .consumeToolPermission env permission.id revision run.id toolCallId digest lastSequence ∧
      env.clock = .ok timestamp
  mem : permission ∈ db.permissions
  owner : permission.runId = run.id
  approved : permission.status = .approved
  dead : permission.expiresAtMs ≤ timestamp
  waiting : run ∈ db.runs ∧ run.status = .waitingPermission
  permissions : db'.permissions =
    Rows.replace permission (permission.advance .expired timestamp) db.permissions
  runs : db'.runs =
    Rows.replace run { run with status := .running, updatedAtMs := timestamp } db.runs
  messages : db'.messages = db.messages
  sessions : db'.sessions = db.sessions

theorem AgentDb.Sound.waiting_of_active {db : AgentDb} (hsound : db.Sound) {run : AgentRunRecord}
    {permission : ToolPermissionRecord} (hrun : run ∈ db.runs) (hmem : permission ∈ db.permissions)
    (howner : permission.runId = run.id) (hactive : permission.status.isActive = true) :
    run.status = .waitingPermission := by
  by_contra hstatus
  have hnone := hsound.activePermissions_of_idle hrun hstatus
  have hsome : permission ∈ db.activePermissions run.id :=
    List.mem_filter.mpr ⟨hmem, by simp [howner, hactive]⟩
  simp [hnone] at hsome

theorem ExpiredOnConsume.recorded {op : AgentOp} {db db' : AgentDb} (hsound : db.Sound)
    (hexpired : ExpiredOnConsume op db db') :
    ∃ run permission timestamp, ExpiryRecorded op db db' run permission timestamp := by
  obtain ⟨env, id, revision, runId, toolCallId, digest, lastSequence, timestamp, permission, hop,
    hclock, rfl, hexpired⟩ := hexpired
  obtain ⟨run, hrun, hid⟩ := hsound.wellKeyed.owned permission hexpired.mem
  have howner := hexpired.owner
  have hwaiting := hsound.waiting_of_active hrun hexpired.mem hid.symm
    (ToolPermissionStatus.isActive_approved hexpired.approved)
  have hrunId : run.id = runId := hid.trans howner
  refine ⟨run, permission, timestamp,
    { consumes := ⟨env, revision, toolCallId, digest, lastSequence, hrunId ▸ hop, hclock⟩
      mem := hexpired.mem, owner := hid.symm, approved := hexpired.approved, dead := hexpired.dead
      waiting := ⟨hrun, hwaiting⟩
      permissions := hexpired.permissions, runs := hexpired.runs.trans ?_
      messages := hexpired.messages, sessions := hexpired.sessions }⟩
  refine Rows.update_eq_replace hsound.wellKeyed.runs hrun (by simp [hrunId, hwaiting]) ?_
  intro row _ hcond
  simp only [Bool.and_eq_true, decide_eq_true_eq] at hcond
  exact hcond.1.trans hrunId.symm

/-- Finality, progress and atomicity along one sequence of calls. -/
structure RunsProgress (json : JsonEngine) (calls : List AgentCall) : Prop where
  frozen : ∀ first last runId run, first ≤ last → last ≤ calls.length →
    (callsAt json calls first).loadRun runId = some run → run.status.isTerminal = true →
    (callsAt json calls last).loadRun runId = some run ∨
      SessionRemoved json calls run.sessionId first last
  grows : ∀ first last runId run, first ≤ last → last ≤ calls.length →
    (callsAt json calls first).loadRun runId = some run →
    (∃ later, (callsAt json calls last).loadRun runId = some later ∧
      run.toAgentRunProgress.Grows later.toAgentRunProgress) ∨
      SessionRemoved json calls run.sessionId first last
  rejected : ∀ index call error, calls[index]? = some call →
    (call.perform json (callsAt json calls index)).1 = .error error →
    (callsAt json calls index).SameRecords (callsAt json calls (index + 1)) ∨
      (∃ run permission timestamp, ExpiryRecorded call.op (callsAt json calls index)
        (callsAt json calls (index + 1)) run permission timestamp) ∨
      AnswerLost json call (callsAt json calls index)

/-- Runs only go forward, whatever the calls answer. -/
theorem reachable_runsProgress (json : JsonEngine) (calls : List AgentCall) :
    RunsProgress json calls := by
  constructor
  · intro first last runId run hle hlast hload hterminal
    refine callsAt_until_removed (motive := fun db => db.loadRun runId = some run) ?_ hle hlast hload
    intro op db hsound hload hkept
    rcases exec_run_cases op hsound hload with ⟨after, hafter, _, _, hfrozen⟩ | hdeletes
    · rw [hafter, hfrozen hterminal]
    · exact absurd hdeletes hkept
  · intro first last runId run hle hlast hload
    have hlives : (∃ later, (callsAt json calls last).loadRun runId = some later ∧
        run.toAgentRunProgress.Grows later.toAgentRunProgress ∧
        later.sessionId = run.sessionId) ∨ SessionRemoved json calls run.sessionId first last := by
      refine callsAt_until_removed (motive := fun db => ∃ later, db.loadRun runId = some later ∧
        run.toAgentRunProgress.Grows later.toAgentRunProgress ∧ later.sessionId = run.sessionId)
        ?_ hle hlast ⟨run, hload, .refl _, rfl⟩
      rintro op db hsound ⟨middle, hmiddle, hgrows, hsession⟩ hkept
      rcases exec_run_cases op hsound hmiddle with ⟨after, hafter, hmore, hsame, _⟩ | hdeletes
      · exact ⟨after, hafter, hgrows.trans hmore, hsame.trans hsession⟩
      · exact absurd (hsession ▸ hdeletes) hkept
    rcases hlives with ⟨later, hlater, hgrows, _⟩ | hremoved
    · exact .inl ⟨later, hlater, hgrows⟩
    · exact .inr hremoved
  · intro index call error hcall herror
    have hsound := callsAt_sound json calls index
    have hnext : callsAt json calls (index + 1) = (call.perform json (callsAt json calls index)).2 :=
      Trace.stateAt_succ hcall
    rcases perform_error hsound.wellKeyed herror with hsame | ⟨⟨original, horiginal⟩, hstore⟩ | hlost
    · left
      rw [hnext, hsame]
      exact .refl _
    · rw [hnext, hstore]
      rcases exec_error call.op hsound.wellKeyed horiginal with hsame | hexpired
      · exact .inl hsame
      · exact .inr (.inl (hexpired.recorded hsound))
    · exact .inr (.inr hlost)

/-- A session, a run in it, and a cancellation that is written while neither its commit nor the
reading after it gets an answer. -/
def unreadCancellation : List AgentCall :=
  let env : CallEnv := { clock := .ok 0, uuid := fun _ => "session" }
  [ ⟨.createAgentSession env ["provider"] []
      { title := "chat", providerId := "provider", datasourceId := none, systemPrompt := none },
      .none⟩,
    ⟨.startAgentRunWithIds env "run" "message" "session"
      { userMessage := "hello", sqlPermissionMode := .askBeforeWrite }, .none⟩,
    ⟨.requestAgentRunCancellation env "run",
      { statement := none, commit := .unanswered, readBack := some .sqlite }⟩ ]

/-- Not every error that a call returns leaves its run as it was. -/
theorem unreadCancellation_applied :
    ¬ ∀ (json : JsonEngine) (calls : List AgentCall) (index : Nat) (call : AgentCall)
      (error : StorageError), calls[index]? = some call →
      (call.perform json (callsAt json calls index)).1 = .error error →
      (callsAt json calls index).SameRecords (callsAt json calls (index + 1)) ∨
        ∃ run permission timestamp, ExpiryRecorded call.op (callsAt json calls index)
          (callsAt json calls (index + 1)) run permission timestamp := by
  intro hrejected
  rcases hrejected JsonEngine.greeting unreadCancellation 2 _
    (.outcomeUnknown "request agent run cancellation" "run") rfl (by decide) with
    hsame | ⟨run, permission, timestamp, hexpired⟩
  · have hruns := hsame.runs
    revert hruns
    decide
  · obtain ⟨_, _, _, _, _, hop, -⟩ := hexpired.consumes
    cases hop

end Chat2DB.Storage
