import Chat2DB.Storage.AgentRunSafety

/-! # Histories of runs and permissions

What two stores along one sequence of calls have to do with each other: a
failed call changed nothing, a run lives on until its session is deleted, and
every write was approved once and dispatched once.
-/

namespace Chat2DB.Storage

open Outcome

variable {json : JsonEngine} {ops : List AgentOp} {db : AgentDb} {error : StorageError}
  {id runId toolCallId : String} {run : AgentRunRecord} {first last : Nat}
  {permission : ToolPermissionRecord}

/-! ## Failed calls -/

/-- Sessions, runs, permissions and messages are the same. -/
structure AgentDb.SameRecords (db db' : AgentDb) : Prop where
  sessions : db'.sessions = db.sessions
  runs : db'.runs = db.runs
  permissions : db'.permissions = db.permissions
  messages : db'.messages = db.messages

theorem AgentDb.SameRecords.refl (db : AgentDb) : db.SameRecords db := ⟨rfl, rfl, rfl, rfl⟩

/-- A consume that failed because its approval had expired. -/
def ExpiredOnConsume (op : AgentOp) (db db' : AgentDb) : Prop :=
  ∃ env id revision runId toolCallId digest lastSequence timestamp permission,
    op = .consumeToolPermission env id revision runId toolCallId digest lastSequence ∧
      env.clock = .ok timestamp ∧ permission.id = id ∧
      ConsumedExpired runId permission timestamp db db'

/-- An error comes from a transaction that was rolled back, or that committed it as its result. -/
theorem reply_error {α : Type} {wrap : α → AgentReply} {body : Transaction α}
    (herror : (reply wrap body db).1 = .error error) :
    (reply wrap body db).2 = db ∨
      ∃ db', body db = .ok (.error error, db') ∧ (reply wrap body db).2 = db' := by
  unfold reply transact at *
  cases hbody : body db with
  | error early => exact .inl rfl
  | ok committed =>
    obtain ⟨result, db'⟩ := committed
    refine .inr ⟨db', ?_, rfl⟩
    cases result with
    | error late =>
      simp only [hbody, Except.map, Except.error.injEq] at herror
      rw [herror]
    | ok value => simp [hbody, Except.map] at herror

/-- A value that is answered was returned by a transaction that is committed. -/
theorem reply_ok {α : Type} {wrap : α → AgentReply} {body : Transaction α}
    {value : AgentReply} (hvalue : (reply wrap body db).1 = .ok value) :
    ∃ result db', body db = .ok (.ok result, db') ∧ (reply wrap body db).2 = db' ∧
      value = wrap result := by
  unfold reply transact at *
  cases hbody : body db with
  | error early => simp [hbody, Except.map] at hvalue
  | ok committed =>
    obtain ⟨result, db'⟩ := committed
    cases result with
    | error late => simp [hbody, Except.map] at hvalue
    | ok result =>
      simp only [hbody, Except.map, Except.ok.injEq] at hvalue
      exact ⟨result, db', rfl, rfl, hvalue.symm⟩

theorem reply_error_rollback {α : Type} {wrap : α → AgentReply} {body : Transaction α}
    (herror : (reply wrap body db).1 = .error error)
    (hbody : ∀ result db', body db = .ok (result, db') → ∃ value, result = .ok value) :
    db.SameRecords (reply wrap body db).2 := by
  rcases reply_error herror with hsame | ⟨db', hok, _⟩
  · rw [hsame]
    exact .refl db
  · obtain ⟨value, hvalue⟩ := hbody _ _ hok
    cases hvalue

theorem updateAgentSession_returns {env : CallEnv} {providers datasources : List String}
    {revision : Nat} {input : UpdateAgentSession} {db' : AgentDb}
    {result : Except StorageError AgentSessionRecord}
    (hop : updateAgentSession env providers datasources id revision input db =
      .ok (result, db')) : ∃ value, result = .ok value := by
  unfold updateAgentSession loadRevisionedSession at hop
  simp only [bind_eq_ok, rejectIf_eq_ok, orThrow_eq_ok, pure_eq_ok, exists_and_left, exists_const,
    Prod.mk.injEq] at hop
  obtain ⟨_, _, next, _, current, ⟨_, hload, _⟩, _, _, _, timestamp, _, _, _, _, _, _, rfl, _⟩ :=
    hop
  refine readBack_of_some ?_
  unfold AgentDb.loadSession at hload ⊢
  rw [Rows.find_update, hload]
  · exact ⟨_, rfl⟩
  · intro session
    rfl

/-- Failed calls change no session, run, permission or message, except for the
consume that finds its approval expired. -/
theorem exec_error (op : AgentOp) (hkeyed : db.WellKeyed)
    (herror : (exec json op db).1 = .error error) :
    db.SameRecords (exec json op db).2 ∨ ExpiredOnConsume op db (exec json op db).2 := by
  cases op with
  | createAgentSession env providers datasources input =>
    refine .inl (reply_error_rollback herror fun _ _ hok => ?_)
    unfold createAgentSession at hok
    simp only [bind_eq_ok, pure_eq_ok, Prod.mk.injEq] at hok
    obtain ⟨_, _, _, _, _, _, _, _, _, _, _, _, rfl, _⟩ := hok
    exact ⟨_, rfl⟩
  | updateAgentSession env providers datasources id revision input =>
    exact .inl (reply_error_rollback herror fun _ _ hok => updateAgentSession_returns hok)
  | deleteAgentSession id revision =>
    refine .inl (reply_error_rollback herror fun _ _ hok => ?_)
    unfold deleteAgentSession at hok
    simp only [bind_eq_ok, pure_eq_ok, Prod.mk.injEq] at hok
    obtain ⟨_, _, _, _, _, _, _, _, rfl, _⟩ := hok
    exact ⟨_, rfl⟩
  | appendAgentMessage env sessionId input =>
    refine .inl (reply_error_rollback herror fun _ _ hok => ?_)
    unfold appendAgentMessage at hok
    simp only [bind_eq_ok, pure_eq_ok, Prod.mk.injEq] at hok
    obtain ⟨_, _, _, _, _, _, _, _, _, _, rfl, _⟩ := hok
    exact ⟨_, rfl⟩
  | startAgentRunWithIds env id userMessageId sessionId input =>
    refine .inl (reply_error_rollback herror fun _ _ hok => ?_)
    unfold startAgentRunWithIds at hok
    simp only [bind_eq_ok, pure_eq_ok, Prod.mk.injEq] at hok
    obtain ⟨_, _, _, _, _, _, _, _, _, _, _, _, _, _, rfl, _⟩ := hok
    exact ⟨_, rfl⟩
  | updateAgentRun env id expected update =>
    exact .inl (reply_error_rollback herror fun _ _ hok => (updateAgentRun_steps hkeyed hok).2)
  | compactAgentRun env id expected input =>
    exact .inl (reply_error_rollback herror fun _ _ hok => (compactAgentRun_steps hkeyed hok).2.1)
  | completeAgentRun env id expected input =>
    exact .inl (reply_error_rollback herror fun _ _ hok => (completeAgentRun_steps hkeyed hok).2)
  | failAgentRun env id expected input =>
    exact .inl (reply_error_rollback herror fun _ _ hok => (failAgentRun_steps hkeyed hok).2)
  | requestAgentRunCancellation env id =>
    exact .inl (reply_error_rollback herror fun _ _ hok =>
      (requestAgentRunCancellation_steps hkeyed hok).2)
  | finishCancelledAgentRun env id expected input =>
    exact .inl (reply_error_rollback herror fun _ _ hok =>
      (finishCancelledAgentRun_steps hkeyed hok).2)
  | createToolPermission env id input =>
    exact .inl (reply_error_rollback herror fun _ _ hok =>
      (createToolPermission_steps hkeyed hok).2)
  | decideToolPermission env id revision owner toolCallId digest lastSequence decision =>
    exact .inl (reply_error_rollback herror fun _ _ hok =>
      (decideToolPermission_steps hkeyed hok).2)
  | expireToolPermission env id revision owner toolCallId digest lastSequence =>
    exact .inl (reply_error_rollback herror fun _ _ hok =>
      (expireToolPermission_steps hkeyed hok).2)
  | revokeToolPermission env id revision owner toolCallId digest lastSequence =>
    exact .inl (reply_error_rollback herror fun _ _ hok =>
      (revokeToolPermission_steps hkeyed hok).2)
  | consumeToolPermission env id revision owner toolCallId digest lastSequence =>
    rcases reply_error herror with hsame | ⟨db', hok, hdb'⟩
    · left
      rw [exec, hsame]
      exact .refl db
    · right
      rw [exec, hdb']
      rcases (consumeToolPermission_steps hkeyed hok).2 with
        ⟨⟨value, hvalue⟩, _⟩ | ⟨_, timestamp, permission, hclock, hid, hexpired⟩
      · cases hvalue
      · exact ⟨env, id, revision, owner, toolCallId, digest, lastSequence, timestamp, permission,
          rfl, hclock, hid, hexpired⟩
  | settleAgentWrite env id toolCallId digest =>
    exact .inl (reply_error_rollback herror fun _ _ hok => (settleAgentWrite_steps hkeyed hok).2)
  | failAgentWriteOutcomeUnknown env id toolCallId digest input =>
    exact .inl (reply_error_rollback herror fun _ _ hok =>
      (failAgentWriteOutcomeUnknown_steps hkeyed hok).2)
  | createAgentResultHandle env results sessionId id resultId retentionNanos =>
    refine .inl (reply_error_rollback herror fun _ _ hok => ?_)
    unfold createAgentResultHandle at hok
    simp only [bind_eq_ok, rejectIf_eq_ok, orThrow_eq_ok, pure_eq_ok, exists_and_left,
      exists_const, Prod.mk.injEq] at hok
    obtain ⟨_, _, _, _, _, _, _, _, _, _, _, _, rfl, _⟩ := hok
    exact ⟨_, rfl⟩
  | resolveAgentResultHandle env results id sessionId owner =>
    -- the dead handle is deleted; no other table is written
    left
    rcases reply_error herror with hsame | ⟨db', hok, hdb'⟩
    · rw [exec, hsame]
      exact .refl db
    · rw [exec, hdb']
      unfold resolveAgentResultHandle at hok
      simp only [bind_eq_ok] at hok
      obtain ⟨_, _, _, _, hok⟩ := hok
      split at hok <;> simp only [pure_eq_ok, Prod.mk.injEq] at hok <;> rw [← hok.2] <;>
        exact ⟨rfl, rfl, rfl, rfl⟩
  | purgeExpiredAgentResultHandles env =>
    refine .inl (reply_error_rollback herror fun _ _ hok => ?_)
    unfold purgeExpiredAgentResultHandles at hok
    simp only [bind_eq_ok, pure_eq_ok, Prod.mk.injEq] at hok
    obtain ⟨_, _, rfl, _⟩ := hok
    exact ⟨_, rfl⟩
  | recoverAgentsAt results timestamp =>
    refine .inl (reply_error_rollback herror fun _ _ hok => ?_)
    unfold recoverAgentsAt at hok
    simp only [pure_eq_ok, Prod.mk.injEq] at hok
    exact ⟨_, hok.1.symm⟩

/-! ## Finality and progress -/

/-- A call numbered from `first` on and before `last` deleted the session. -/
def SessionDeleted (json : JsonEngine) (ops : List AgentOp) (sessionId : String)
    (first last : Nat) : Prop :=
  ∃ index revision, first ≤ index ∧ index < last ∧
    Succeeds json ops index (.deleteAgentSession sessionId revision)

/-- The call deletes this session from this store. -/
def AgentOp.DeletesSession (json : JsonEngine) (sessionId : String) (op : AgentOp)
    (db : AgentDb) : Prop :=
  (∃ revision, op = .deleteAgentSession sessionId revision) ∧
    ∃ value, (exec json op db).1 = .ok value

/-- No step takes a run to another session. -/
theorem RunStep.sessionId {op : AgentOp} {before after : RunView} (hstep : RunStep op before after) :
    after.run.sessionId = before.run.sessionId := by
  cases hstep with
  | consumeExpired mem approved dead becomes => split <;> rfl
  | recoverAgentsAt =>
    simp only [AgentRunRecord.recovered]
    split
    · split <;> rfl
    · rfl
  | _ => rfl

/-- One call: the run lives on, with counters that grew and unchanged if it
was terminal, or it is deleted with its session. -/
theorem exec_run_cases (op : AgentOp) (hsound : db.Sound) (hload : db.loadRun runId = some run) :
    (∃ after, (exec json op db).2.loadRun runId = some after ∧
      run.toAgentRunProgress.Grows after.toAgentRunProgress ∧ after.sessionId = run.sessionId ∧
      (run.status.isTerminal = true → after = run)) ∨
    op.DeletesSession json run.sessionId db := by
  have hview := AgentDb.view_eq_some hload
  cases (exec_effect json op hsound.wellKeyed runId).1 with
  | unchanged same =>
    exact .inl ⟨run, AgentDb.loadRun_of_view (same.trans hview), .refl _, rfl, fun _ => rfl⟩
  | started label idle absent present => simp [absent] at hview
  | deleted label present owner terminal absent =>
    obtain rfl := Option.some.inj (present.symm.trans hview)
    obtain rfl := owner
    refine .inr ⟨⟨_, label⟩, ?_⟩
    cases hreply : (exec json op db).1 with
    | ok value => exact ⟨value, rfl⟩
    | error error =>
      -- a failed call would have left the run in place
      exfalso
      rcases exec_error op hsound.wellKeyed hreply with hsame | ⟨_, _, _, _, _, _, _, _, _, hop, _⟩
      · rw [AgentDb.view_congr hsame.runs hsame.permissions, hview] at absent
        cases absent
      · rw [label] at hop
        cases hop
  | stepped target present present' step =>
    obtain rfl := Option.some.inj (present.symm.trans hview)
    exact .inl ⟨_, AgentDb.loadRun_of_view present', step.grows, step.sessionId, step.frozen⟩

/-- What single calls keep stays until the session is deleted. -/
theorem storeAt_until_deleted {motive : AgentDb → Prop} {sessionId : String}
    (hstep : ∀ op db, db.Sound → motive db → ¬ op.DeletesSession json sessionId db →
      motive (exec json op db).2) (hle : first ≤ last) (hlast : last ≤ ops.length)
    (hfirst : motive (storeAt json ops first)) :
    motive (storeAt json ops last) ∨ SessionDeleted json ops sessionId first last := by
  by_cases hdeleted : SessionDeleted json ops sessionId first last
  · exact .inr hdeleted
  · left
    refine Trace.stateAt_until (storeAt_sound json ops) hstep hfirst last hle hlast ?_
    rintro index op hindex hbefore hop ⟨⟨revision, rfl⟩, hreply⟩
    exact hdeleted ⟨index, revision, hindex, hbefore, hop, hreply⟩

/-! ## One-shot write authorization -/

/-- Call number `index` consumed this permission of this run and tool call. -/
def ConsumedAt (json : JsonEngine) (ops : List AgentOp) (index : Nat)
    (id runId toolCallId : String) : Prop :=
  ∃ env revision digest lastSequence, Succeeds json ops index
    (.consumeToolPermission env id revision runId toolCallId digest lastSequence)

/-- What stood behind a fence that call number `index` installed. -/
structure WriteAuthorized (json : JsonEngine) (ops : List AgentOp) (index : Nat) (op : AgentOp)
    (run : AgentRunRecord) (permission : ToolPermissionRecord) (toolCallId : String)
    (digest : Sha256) : Prop where
  consumes : ∃ env revision lastSequence timestamp,
    op = .consumeToolPermission env permission.id revision run.id toolCallId digest lastSequence ∧
      env.clock = .ok timestamp ∧ timestamp < permission.expiresAtMs
  stored : (storeAt json ops index).loadRun run.id = some run
  cancel : run.cancelRequested = false
  live : run.status.isTerminal = false
  mode : run.sqlPermissionMode = .askBeforeWrite
  mem : permission ∈ (storeAt json ops index).permissions
  owner : permission.runId = run.id
  call : permission.toolCallId = toolCallId
  arguments : permission.argumentsSha256 = digest
  approved : permission.status = .approved
  granted : ∃ earlier decision, earlier < index ∧ Succeeds json ops earlier decision ∧
    decision.Approves permission

/-- Every write of a history was approved, and no approval served twice. -/
structure OneShotWrites (json : JsonEngine) (ops : List AgentOp) : Prop where
  paired : ∀ run ∈ (storeAfter json ops).runs,
    run.writeInFlightToolCallId = none ↔ run.writeInFlightArgumentsSha256 = none
  installed : ∀ index op runId after toolCallId digest, ops[index]? = some op →
    (storeAt json ops (index + 1)).loadRun runId = some after → after.FencedBy toolCallId digest →
    (∀ before, (storeAt json ops index).loadRun runId = some before →
      ¬ before.FencedBy toolCallId digest) →
    ∃ run permission, run.id = runId ∧
      WriteAuthorized json ops index op run permission toolCallId digest
  once : ∀ first last id id' runId runId' toolCallId toolCallId', first < last →
    ConsumedAt json ops first id runId toolCallId →
    ConsumedAt json ops last id' runId' toolCallId' →
    id = id' ∨ (runId = runId' ∧ toolCallId = toolCallId') →
    ∃ run, (storeAt json ops first).loadRun runId = some run ∧
      SessionDeleted json ops run.sessionId first last

theorem AgentDb.mem_view_permissions {view : RunView}
    (hview : db.view permission.runId = some view) :
    permission ∈ view.permissions ↔ permission ∈ db.permissions := by
  unfold AgentDb.view at hview
  obtain ⟨run, _, rfl⟩ := Option.map_eq_some_iff.mp hview
  rw [AgentDb.mem_permissionsOf]
  exact ⟨And.left, fun hmem => ⟨hmem, rfl⟩⟩

/-- Every permission is seen with the run that it belongs to. -/
theorem AgentDb.WellKeyed.view_owner (hkeyed : db.WellKeyed) (hmem : permission ∈ db.permissions) :
    ∃ view, db.view permission.runId = some view ∧ permission ∈ view.permissions := by
  obtain ⟨run, hload⟩ := hkeyed.loadRun_owner hmem
  have hview := AgentDb.view_eq_some hload
  exact ⟨_, hview, (AgentDb.mem_view_permissions hview).mpr hmem⟩

/-- An approval in the tables after a call was there before, or was granted by
this call. -/
theorem exec_approved_origin (op : AgentOp) (hsound : db.Sound)
    (hmem : permission ∈ (exec json op db).2.permissions)
    (happroved : permission.status = .approved) :
    permission ∈ db.permissions ∨
      (op.Approves permission ∧ ∃ value, (exec json op db).1 = .ok value) := by
  have hkeyed := hsound.wellKeyed
  obtain ⟨view, hview, hmemView⟩ := (exec_sound json op hsound).wellKeyed.view_owner hmem
  cases (exec_effect json op hkeyed permission.runId).1 with
  | unchanged same =>
    exact .inl ((AgentDb.mem_view_permissions (same.symm.trans hview)).mp hmemView)
  | started label idle absent present =>
    obtain rfl := Option.some.inj (present.symm.trans hview)
    cases hmemView
  | deleted label present owner terminal absent => simp [absent] at hview
  | stepped target present present' step =>
    obtain rfl := Option.some.inj (present'.symm.trans hview)
    rcases step.approved_origin hmemView happroved with hold | happroves
    · exact .inl ((AgentDb.mem_view_permissions present).mp hold)
    · cases hreply : (exec json op db).1 with
      | ok value => exact .inr ⟨happroves, value, rfl⟩
      | error error =>
        -- a failed decision changed nothing, so the approval is older
        left
        rcases exec_error op hkeyed hreply with hsame | ⟨_, _, _, _, _, _, _, _, _, hop, _⟩
        · rwa [hsame.permissions] at hmem
        · obtain ⟨_, _, _, hdecide⟩ := happroves
          rw [hop] at hdecide
          cases hdecide

/-- An approved permission was approved by an earlier call. -/
theorem approvals_granted (json : JsonEngine) (ops : List AgentOp) (count : Nat)
    (hcount : count ≤ ops.length) :
    ∀ permission ∈ (storeAt json ops count).permissions, permission.status = .approved →
      ∃ earlier decision, earlier < count ∧ Succeeds json ops earlier decision ∧
        decision.Approves permission := by
  refine Trace.stateAt_induction (motive := fun count (db : AgentDb) =>
    ∀ permission ∈ db.permissions, permission.status = .approved →
      ∃ earlier decision, earlier < count ∧ Succeeds json ops earlier decision ∧
        decision.Approves permission) ?_ ?_ count hcount
  · intro permission hmem
    cases hmem
  · intro index op hop ih permission hmem happroved
    rcases exec_approved_origin op (storeAt_sound json ops index) hmem happroved with
      hold | ⟨happroves, hreply⟩
    · obtain ⟨earlier, decision, hearlier, hsucceeds, happroves⟩ := ih permission hold happroved
      exact ⟨earlier, decision, by omega, hsucceeds, happroves⟩
    · exact ⟨index, op, by omega, ⟨hop, hreply⟩, happroves⟩

/-- A permission that is no longer active stays as it is while its session lives. -/
theorem exec_retired_kept (op : AgentOp) (hsound : db.Sound) (hmem : permission ∈ db.permissions)
    (hretired : permission.status.isActive = false) (hload : db.loadRun permission.runId = some run)
    (hkept : ¬ op.DeletesSession json run.sessionId db) :
    permission ∈ (exec json op db).2.permissions := by
  have hview := AgentDb.view_eq_some hload
  obtain ⟨after, hafter, _⟩ := (exec_run_cases op hsound hload).resolve_right hkept
  have hviewAfter := AgentDb.view_eq_some hafter
  rw [← AgentDb.mem_view_permissions hviewAfter]
  cases (exec_effect json op hsound.wellKeyed permission.runId).1 with
  | unchanged same =>
    have hequal := Option.some.inj ((same.trans hview).symm.trans hviewAfter)
    rw [← hequal]
    exact (AgentDb.mem_view_permissions hview).mpr hmem
  | started label idle absent present => simp [absent] at hview
  | deleted label present owner terminal absent => simp [absent] at hviewAfter
  | stepped target present present' step =>
    obtain rfl := Option.some.inj (present'.symm.trans hviewAfter)
    exact step.retired_kept ((AgentDb.mem_view_permissions present).mpr hmem) hretired

/-- A consumption that succeeded was a change of the stored permission. -/
theorem ConsumedAt.permissionConsumed {index : Nat}
    (hconsumed : ConsumedAt json ops index id runId toolCallId) :
    index < ops.length ∧ PermissionConsumed id runId toolCallId (storeAt json ops index)
      (storeAt json ops (index + 1)) := by
  obtain ⟨env, revision, digest, lastSequence, hop, value, hvalue⟩ := hconsumed
  refine ⟨(List.getElem?_eq_some_iff.mp hop).1, ?_⟩
  rw [storeAt_succ hop]
  have hkeyed := (storeAt_sound json ops index).wellKeyed
  obtain ⟨result, db', hok, hdb', _⟩ := reply_ok hvalue
  rw [exec, hdb']
  rcases (consumeToolPermission_steps hkeyed hok).2 with ⟨_, hused⟩ | ⟨hexpired, _⟩
  · exact hused
  · cases hexpired

/-- A consumed permission stays consumed as long as its session lives. -/
theorem consumed_until_deleted (hle : first ≤ last) (hlast : last ≤ ops.length)
    (hmem : permission ∈ (storeAt json ops first).permissions)
    (hload : (storeAt json ops first).loadRun permission.runId = some run)
    (hretired : permission.status.isActive = false) :
    permission ∈ (storeAt json ops last).permissions ∨
      SessionDeleted json ops run.sessionId first last := by
  have hlives : (permission ∈ (storeAt json ops last).permissions ∧
      ∃ later, (storeAt json ops last).loadRun permission.runId = some later ∧
        later.sessionId = run.sessionId) ∨ SessionDeleted json ops run.sessionId first last := by
    refine storeAt_until_deleted (motive := fun db => permission ∈ db.permissions ∧
      ∃ later, db.loadRun permission.runId = some later ∧ later.sessionId = run.sessionId)
      ?_ hle hlast ⟨hmem, run, hload, rfl⟩
    rintro op db hsound ⟨hmiddle, middle, hloadMiddle, hsession⟩ hkept
    rw [← hsession] at hkept
    obtain ⟨after, hafter, _, hsame, _⟩ :=
      (exec_run_cases op hsound hloadMiddle).resolve_right hkept
    exact ⟨exec_retired_kept op hsound hmiddle hretired hloadMiddle hkept, after, hafter,
      hsame.trans hsession⟩
  rcases hlives with ⟨hkept, _⟩ | hdeleted
  · exact .inl hkept
  · exact .inr hdeleted

/-- Neither a permission nor a tool call is consumed twice in the life of a session. -/
theorem consumed_once {id' runId' toolCallId' : String}
    (hlt : first < last) (hfirst : ConsumedAt json ops first id runId toolCallId)
    (hlast : ConsumedAt json ops last id' runId' toolCallId')
    (hsame : id = id' ∨ (runId = runId' ∧ toolCallId = toolCallId')) :
    ∃ run, (storeAt json ops first).loadRun runId = some run ∧
      SessionDeleted json ops run.sessionId first last := by
  obtain ⟨hfirstLength, hconsumed⟩ := hfirst.permissionConsumed
  obtain ⟨hlastLength, hagain⟩ := hlast.permissionConsumed
  obtain ⟨approved, hbefore, _, rfl, _⟩ := hconsumed.before
  obtain ⟨used, hused, husedId, husedRun, husedCall, husedStatus⟩ := hconsumed.after
  obtain ⟨env, revision, digest, lastSequence, hop, hreply⟩ := hfirst
  have hsound := storeAt_sound json ops first
  obtain ⟨run, hload⟩ := hsound.wellKeyed.loadRun_owner hbefore
  refine ⟨run, hload, ?_⟩
  have hkept : ¬ AgentOp.DeletesSession json run.sessionId (.consumeToolPermission env id revision
      approved.runId toolCallId digest lastSequence) (storeAt json ops first) := by
    rintro ⟨⟨_, hdelete⟩, _⟩
    cases hdelete
  obtain ⟨after, hafter, _, hsession, _⟩ := (exec_run_cases _ hsound hload).resolve_right hkept
  rw [← storeAt_succ hop, ← husedRun] at hafter
  have hretired : used.status.isActive = false := by rw [husedStatus]; rfl
  rcases consumed_until_deleted hlt hlastLength.le hused hafter hretired with
    hstored | ⟨index, deleteRevision, hindex, hbound, hdeleted⟩
  · -- still in the tables, so the second call found it consumed, not approved
    obtain ⟨other, hother, hotherId, hotherRun, hotherCall, hotherStatus⟩ := hagain.before
    have hkeyed := (storeAt_sound json ops last).wellKeyed
    have hequal : other = used := by
      rcases hsame with hid | ⟨hrun, hcall⟩
      · exact hkeyed.permissions.eq_of_key_eq hother hstored (by rw [hotherId, husedId, hid])
      · refine hkeyed.calls.eq_of_key_eq hother hstored ?_
        rw [hotherRun, hotherCall, husedRun, husedCall, hrun, hcall]
    rw [hequal, husedStatus] at hotherStatus
    cases hotherStatus
  · exact ⟨index, deleteRevision, by omega, hbound, hsession ▸ hdeleted⟩

/-- A call that installs a fence consumes a granted approval. -/
theorem fence_authorized {index : Nat} {op : AgentOp} {after : AgentRunRecord}
    {digest : Sha256} (hop : ops[index]? = some op)
    (hafter : (storeAt json ops (index + 1)).loadRun runId = some after)
    (hfence : after.FencedBy toolCallId digest)
    (hbefore : ∀ before, (storeAt json ops index).loadRun runId = some before →
      ¬ before.FencedBy toolCallId digest) :
    ∃ run permission, run.id = runId ∧
      WriteAuthorized json ops index op run permission toolCallId digest := by
  have hsound := storeAt_sound json ops index
  have hview := AgentDb.view_eq_some hafter
  rw [storeAt_succ hop] at hview
  cases (exec_effect json op hsound.wellKeyed runId).1 with
  | unchanged same =>
    exact absurd hfence (hbefore after (AgentDb.loadRun_of_view (same.symm.trans hview)))
  | started label idle absent present =>
    obtain rfl := congrArg RunView.run (Option.some.inj (present.symm.trans hview))
    cases hfence.1
  | deleted label present owner terminal absent => simp [absent] at hview
  | stepped target present present' step =>
    rename_i before later
    have hload := AgentDb.loadRun_of_view present
    obtain rfl := Option.some.inj (present'.symm.trans hview)
    obtain ⟨permission, hinstalled⟩ := step.fence_installed hfence (hbefore _ hload)
    obtain ⟨env, revision, lastSequence, timestamp, rfl, hclock, hlive⟩ := hinstalled.consumes
    have howner : permission.runId = runId := target _ rfl
    have hid : before.run.id = runId := (Rows.find_mem hload).2
    subst howner
    have hmem := (AgentDb.mem_view_permissions present).mp hinstalled.mem
    refine ⟨before.run, permission, hid,
      { consumes := ⟨env, revision, lastSequence, timestamp, by rw [hid], hclock, hlive⟩
        stored := hid.symm ▸ hload
        cancel := hinstalled.cancel
        live := by rw [hinstalled.status]; rfl
        mode := hinstalled.mode
        mem := hmem
        owner := hid.symm
        call := hinstalled.toolCallId
        arguments := hinstalled.argumentsSha256
        approved := hinstalled.approved
        granted := approvals_granted json ops index
          (List.getElem?_eq_some_iff.mp hop).1.le permission hmem hinstalled.approved }⟩

/-- Every sequence of calls writes each approved tool call at most once. -/
theorem reachable_oneShotWrites (json : JsonEngine) (ops : List AgentOp) :
    OneShotWrites json ops := by
  constructor
  · intro run hrun
    exact ((storeAfter_sound json ops).view_of_mem hrun).fencePair
  · intro index op runId after toolCallId digest hop hafter hfence hbefore
    exact fence_authorized hop hafter hfence hbefore
  · intro first last id id' runId runId' toolCallId toolCallId' hlt hfirst hlast hsame
    exact consumed_once hlt hfirst hlast hsame

end Chat2DB.Storage
