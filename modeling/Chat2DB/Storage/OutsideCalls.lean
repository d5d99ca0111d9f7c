import Chat2DB.Storage.AgentRunHistory

/-! # A run between the calls of its worker

The worker of a run makes the calls that request, give up or use a permission
and that end the run. What the calls of other tasks leave alone while it is
between two of its own, and what its own calls on a write in flight do.
-/

namespace Chat2DB.Storage

open Outcome

variable {json : JsonEngine} {db : AgentDb} {op : AgentOp} {runId toolCallId : String}
  {digest : Sha256} {env : CallEnv}

/-- Calls that other tasks may commit while the worker of the run is busy with a
tool. The run still belongs to its session, and recovery is over. -/
def AgentOp.outside (runId : String) : AgentOp → Bool
  | .deleteAgentSession _ _ => false
  | .recoverAgentsAt _ _ => false
  | .completeAgentRun _ id _ _ => id ≠ runId
  | .failAgentRun _ id _ _ => id ≠ runId
  | .createToolPermission _ id _ => id ≠ runId
  | .expireToolPermission _ _ _ id _ _ _ => id ≠ runId
  | .revokeToolPermission _ _ _ id _ _ _ => id ≠ runId
  | .consumeToolPermission _ _ _ id _ _ _ => id ≠ runId
  | .settleAgentWrite _ id _ _ => id ≠ runId
  | .failAgentWriteOutcomeUnknown _ id _ _ _ => id ≠ runId
  | _ => true

theorem not_deletesSession_of_outside (houtside : op.outside runId = true) (sessionId : String) :
    ¬ op.DeletesSession json sessionId db := by
  rintro ⟨⟨_, rfl⟩, _⟩
  cases houtside

/-! ## Permissions keep their keys -/

/-- Steps move permissions from state to state; none is lost. -/
theorem RunStep.keys_kept {before after : RunView} (hstep : RunStep op before after)
    {permission : ToolPermissionRecord} (hmem : permission ∈ before.permissions) :
    ∃ moved ∈ after.permissions, permission.SameKeys moved := by
  have hsame : permission.SameKeys permission := ⟨rfl, rfl, rfl⟩
  have hrevoked : ∀ timestamp, ∃ moved ∈ before.revoked timestamp, permission.SameKeys moved := by
    intro timestamp
    cases hactive : permission.status.isActive with
    | true => exact ⟨_, Rows.mem_update_of_cond hmem hactive, rfl, rfl, rfl⟩
    | false => exact ⟨_, Rows.mem_update_of_not hmem hactive, hsame⟩
  have hreplaced : ∀ {other moved : ToolPermissionRecord} {status : ToolPermissionStatus},
      other.Becomes moved status →
      ∃ kept ∈ Rows.replace other moved before.permissions, permission.SameKeys kept := by
    intro other moved status hbecomes
    by_cases hother : permission = other
    · subst hother
      exact ⟨moved, Rows.mem_update_of_cond hmem (by simp), hbecomes.id, hbecomes.runId,
        hbecomes.toolCallId⟩
    · exact ⟨permission, mem_replace_of_ne hmem hother, hsame⟩
  cases hstep with
  | updateAgentRun | compactAgentRun => exact ⟨_, hmem, hsame⟩
  | completeAgentRun | failAgentRun | requestAgentRunCancellation => exact hrevoked _
  | finishCancelledAgentRun active cancel fence advances => exact ⟨_, hmem, hsame⟩
  | createToolPermission status cancel mode fence advances pending =>
    exact ⟨_, List.mem_append_left _ hmem, hsame⟩
  | decideToolPermission _ _ _ _ _ _ _ becomes | decideExpired _ _ _ _ _ _ becomes
  | expireToolPermission _ _ _ _ _ _ becomes | revokeToolPermission _ _ _ _ _ _ becomes
  | consumeToolPermission _ _ _ _ _ _ _ _ _ _ becomes | consumeExpired _ _ _ becomes =>
    exact hreplaced becomes
  | settleAgentWrite | failAgentWriteOutcomeUnknown => exact ⟨_, hmem, hsame⟩
  | recoverAgentsAt => exact hrevoked _

/-- The tables hold a permission of this run and tool call under this id. -/
def AgentDb.Bound (db : AgentDb) (id runId toolCallId : String) : Prop :=
  ∃ permission ∈ db.permissions,
    permission.id = id ∧ permission.runId = runId ∧ permission.toolCallId = toolCallId

/-- A permission stays bound to its run and tool call while no session is deleted. -/
theorem exec_bound (op : AgentOp) (hsound : db.Sound) {id : String}
    (hbound : db.Bound id runId toolCallId)
    (hkept : ∀ sessionId, ¬ op.DeletesSession json sessionId db) :
    (exec json op db).2.Bound id runId toolCallId := by
  obtain ⟨permission, hmem, rfl, rfl, rfl⟩ := hbound
  obtain ⟨run, hload⟩ := hsound.wellKeyed.loadRun_owner hmem
  have hview := AgentDb.view_eq_some hload
  obtain ⟨after, hafter, _⟩ := (exec_run_cases op hsound hload).resolve_right (hkept _)
  have hviewAfter := AgentDb.view_eq_some hafter
  cases (exec_effect json op hsound.wellKeyed permission.runId).1 with
  | unchanged same =>
    have hequal := same.trans hview
    exact ⟨permission, (AgentDb.mem_view_permissions hequal).mp
      ((AgentDb.mem_view_permissions hview).mpr hmem), rfl, rfl, rfl⟩
  | started label idle absent present => simp [absent] at hview
  | deleted label present owner terminal absent => simp [absent] at hviewAfter
  | stepped target present present' step =>
    obtain ⟨moved, hmoved, hid, hrunId, hcall⟩ :=
      step.keys_kept ((AgentDb.mem_view_permissions present).mpr hmem)
    rw [← hrunId] at present'
    exact ⟨moved, (AgentDb.mem_view_permissions present').mp hmoved, hid, hrunId, hcall⟩

/-- The permission that is answered is bound to the run and call it was requested for. -/
theorem createToolPermission_bound {input : RequestToolPermission}
    {record : ToolPermissionRecord} {db' : AgentDb}
    (hop : createToolPermission env runId input db = .ok (.ok record, db')) :
    db'.Bound record.id runId input.toolCallId := by
  unfold createToolPermission createToolPermissionAt at hop
  simp only [bind_eq_ok, rejectIf_eq_ok, orThrow_eq_ok, pure_eq_ok, exists_and_left, exists_const,
    Prod.mk.injEq, not_not, not_or] at hop
  obtain ⟨_, timestamp, _, _, _, _, _, _, _, _, _, run, _, _, _, _, _, inserted, hinsert, _, _,
    updated, hupdate, hrecord, rfl⟩ := hop
  obtain ⟨rfl, hfresh, _⟩ := insertPermission_ok hinsert
  have hrows := updateOneRun_ok hupdate
  -- the id is new, so the row read back is the one inserted
  have hfind : updated.loadPermission (env.uuid 0) = some
      { id := env.uuid 0, runId, toolCallId := input.toolCallId, toolName := input.toolName
        argumentsSha256 := input.argumentsSha256, summary := input.summary
        status := .pending, revision := 1
        expiresAtMs := timestamp + (input.retentionNanos / 1000000 : Nat)
        createdAtMs := timestamp, updatedAtMs := timestamp, consumedAtMs := none } := by
    unfold AgentDb.loadPermission
    rw [hrows.permissions, Rows.find_append_singleton, Rows.find_eq_none_iff.mpr hfresh]
    simp
  rw [hfind] at hrecord
  simp only [readBack, orThrow, Except.ok.injEq] at hrecord
  subst hrecord
  exact ⟨_, (Rows.find_mem hfind).1, rfl, rfl, rfl⟩

/-! ## A write in flight -/

/-- The run is running behind the fence of this write. -/
def AgentDb.InFlight (db : AgentDb) (runId toolCallId : String) (digest : Sha256) : Prop :=
  ∃ run, db.loadRun runId = some run ∧ run.status = .running ∧ run.FencedBy toolCallId digest

/-- The run has no fence, and no write is recorded as unknown. -/
def AgentDb.Unfenced (db : AgentDb) (runId : String) : Prop :=
  ∃ run, db.loadRun runId = some run ∧ (run.status = .running ∨ run.status = .cancelled) ∧
    run.writeInFlightToolCallId = none ∧ run.writeInFlightArgumentsSha256 = none

/-- Calls from outside leave the write of the run in flight. -/
theorem exec_inFlight_of_outside (hsound : db.Sound) (houtside : op.outside runId = true)
    (hflight : db.InFlight runId toolCallId digest) :
    (exec json op db).2.InFlight runId toolCallId digest := by
  obtain ⟨run, hload, hstatus, hfence⟩ := hflight
  refine fenced_run_kept hsound hload hstatus hfence ?_
  rintro (⟨_, rfl⟩ | ⟨_, _, _, _, rfl⟩ | ⟨_, _, rfl⟩) <;> simp [AgentOp.outside] at houtside

/-- Calls from outside install no fence on the run. -/
theorem exec_unfenced_of_outside (hsound : db.Sound) (houtside : op.outside runId = true)
    (hunfenced : db.Unfenced runId) : (exec json op db).2.Unfenced runId := by
  obtain ⟨run, hload, hstatus, hcall, hdigest⟩ := hunfenced
  have hview := AgentDb.view_eq_some hload
  cases (exec_effect json op hsound.wellKeyed runId).1 with
  | unchanged same =>
    exact ⟨run, AgentDb.loadRun_of_view (same.trans hview), hstatus, hcall, hdigest⟩
  | started label idle absent present => simp [absent] at hview
  | deleted label present owner terminal absent =>
    subst label
    simp [AgentOp.outside] at houtside
  | stepped target present present' step =>
    obtain rfl := Option.some.inj (present.symm.trans hview)
    refine ⟨_, AgentDb.loadRun_of_view present', ?_⟩
    -- the steps left by `outside` keep the fence columns and do not leave the two states
    have howner : ∀ id ∈ op.target, id = runId := target
    have hwaiting : run.status ≠ .waitingPermission := by
      rcases hstatus with hrunning | hcancelled
      · simp [hrunning]
      · simp [hcancelled]
    cases step with
    | updateAgentRun status active cancel fence advances => exact ⟨hstatus, hcall, hdigest⟩
    | compactAgentRun status cancel fence advances coverage => exact ⟨hstatus, hcall, hdigest⟩
    | requestAgentRunCancellation active cancel => exact ⟨.inl rfl, hcall, hdigest⟩
    | finishCancelledAgentRun active cancel fence advances => exact ⟨.inr rfl, hcall, hdigest⟩
    | decideToolPermission status cancel fence sequence mem bound pending becomes =>
      exact absurd status hwaiting
    | decideExpired status cancel fence sequence mem active becomes => exact absurd status hwaiting
    | recoverAgentsAt => simp [AgentOp.outside] at houtside
    | _ => simp [AgentOp.outside, howner _ rfl] at houtside

/-- The write that is in flight can be settled. -/
theorem settleAgentWrite_of_inFlight (hsound : db.Sound)
    (hflight : db.InFlight runId toolCallId digest) {timestamp : Int}
    (hclock : env.clock = .ok timestamp) :
    ∃ result db', settleAgentWrite env runId toolCallId digest db = .ok (result, db') := by
  obtain ⟨run, hload, hstatus, hcall, hdigest⟩ := hflight
  have hone : Rows.changed (fun run : AgentRunRecord => run.id = runId &&
      run.writeInFlightToolCallId = some toolCallId &&
      run.writeInFlightArgumentsSha256 = some digest) db.runs = 1 := by
    refine Rows.changed_eq_one hsound.wellKeyed.runs hload ?_ ?_
    · intro other hcond
      simp only [Bool.and_eq_true, decide_eq_true_eq] at hcond
      exact hcond.1.1
    · simp [(Rows.find_mem hload).2, hcall, hdigest]
  simp only [settleAgentWrite, updateOneRun, bind_eq_ok, rejectIf_eq_ok, orThrow_eq_ok, pure_eq_ok,
    exists_and_left, exists_const, Prod.mk.injEq, not_not, not_or]
  exact ⟨_, _, run, hload, ⟨hstatus, hcall, hdigest⟩, timestamp, hclock, _, ⟨hone, rfl⟩, rfl, rfl⟩

/-- What a settlement does to the write in flight: the fence is cleared, or the
clock could not be read. -/
theorem exec_settleAgentWrite (hsound : db.Sound) (hflight : db.InFlight runId toolCallId digest)
    (env : CallEnv) :
    (∃ timestamp value, env.clock = .ok timestamp ∧
      (exec json (.settleAgentWrite env runId toolCallId digest) db).1 = .ok value ∧
      (exec json (.settleAgentWrite env runId toolCallId digest) db).2.Unfenced runId) ∨
    ∃ error, env.clock = .error error ∧
      exec json (.settleAgentWrite env runId toolCallId digest) db = (.error error, db) := by
  cases hclock : env.clock with
  | error error =>
    right
    obtain ⟨run, hload, hstatus, hcall, hdigest⟩ := hflight
    refine ⟨error, rfl, ?_⟩
    simp [exec, reply, transact, settleAgentWrite, hload, hstatus, hcall, hdigest, hclock,
      rejectIf, orThrow, bind, Except.bind, Except.map]
  | ok timestamp =>
    left
    obtain ⟨result, db', hop⟩ := settleAgentWrite_of_inFlight hsound hflight hclock
    obtain ⟨hsteps, value, rfl⟩ := settleAgentWrite_steps hsound.wellKeyed hop
    refine ⟨timestamp, .run value, rfl, ?_, ?_⟩
    · simp [exec, reply, transact, hop, Except.map]
    · obtain ⟨before, after, _, hafter, hstep⟩ := hsteps.step
      simp only [exec, reply, transact, hop]
      refine ⟨after.run, AgentDb.loadRun_of_view hafter, ?_⟩
      cases hstep with
      | settleAgentWrite status fence digestFence => exact ⟨.inl status, rfl, rfl⟩

/-- A consume that returns a permission put its write in flight. -/
theorem exec_consumeToolPermission (hsound : db.Sound) {id : String}
    {revision lastSequence : Nat} {value : AgentReply}
    (hreply : (exec json (.consumeToolPermission env id revision runId toolCallId digest
      lastSequence) db).1 = .ok value) :
    (exec json (.consumeToolPermission env id revision runId toolCallId digest lastSequence)
        db).2.InFlight runId toolCallId digest ∧
      PermissionConsumed id runId toolCallId db
        (exec json (.consumeToolPermission env id revision runId toolCallId digest lastSequence)
          db).2 := by
  obtain ⟨result, db', hop, hdb', _⟩ := reply_ok hreply
  obtain ⟨hsteps, houtcome⟩ := consumeToolPermission_steps hsound.wellKeyed hop
  rw [exec, hdb']
  rcases houtcome with ⟨_, hused⟩ | ⟨hexpired, _⟩
  · refine ⟨?_, hused⟩
    obtain ⟨before, after, hbefore, hafter, hstep⟩ := hsteps.step
    refine ⟨after.run, AgentDb.loadRun_of_view hafter, ?_⟩
    cases hstep with
    | consumeToolPermission clock status cancel mode fence sequence mem bound approved live becomes =>
      exact ⟨rfl, rfl, rfl⟩
    | consumeExpired mem approved dead becomes =>
      -- the permission used would be expired or still approved, not consumed
      exfalso
      obtain ⟨old, hold, holdId, _, _, holdStatus⟩ := hused.before
      obtain ⟨used, hmem, husedId, rfl, _, husedStatus⟩ := hused.after
      rw [← AgentDb.mem_view_permissions hafter] at hmem
      obtain ⟨row, hrow, hmoved⟩ := Rows.mem_update.mp hmem
      split at hmoved
      · rw [hmoved, becomes.status] at husedStatus
        cases husedStatus
      · subst hmoved
        have hequal := hsound.wellKeyed.permissions.eq_of_key_eq
          ((AgentDb.mem_view_permissions hbefore).mp hrow) hold (husedId.trans holdId.symm)
        rw [hequal, holdStatus] at husedStatus
        cases husedStatus
  · cases hexpired

/-! ## Writes of unknown outcome -/

/-- Calls after the worker gave up on a write: all but its settlement and the
deletion of the session. -/
def AgentOp.leavesWrite (runId : String) : AgentOp → Bool
  | .settleAgentWrite _ id _ _ => id ≠ runId
  | .deleteAgentSession _ _ => false
  | _ => true

def AgentRunRecord.OutcomeUnknown (run : AgentRunRecord) : Prop :=
  run.status = .failed ∧ run.errorCode = some "database_outcome_unknown"

/-- However the run goes on, it ends with its write recorded as unknown, at the
latest when the store is opened again. -/
structure AgentDb.EndsUnknown (json : JsonEngine) (db : AgentDb) (runId : String) : Prop where
  ends : ∀ ops : List { op : AgentOp // op.leavesWrite runId = true }, ∀ run,
    (Trace.run (exec json) db (ops.map Subtype.val)).loadRun runId = some run →
      run.status.isTerminal = true → run.OutcomeUnknown
  recovers : ∀ results timestamp, ∃ run,
    (exec json (.recoverAgentsAt results timestamp) db).2.loadRun runId = some run ∧
      run.OutcomeUnknown

/-- A write in flight, or recorded as unknown. -/
def AgentDb.InDoubt (db : AgentDb) (runId toolCallId : String) (digest : Sha256) : Prop :=
  db.InFlight runId toolCallId digest ∨ ∃ run, db.loadRun runId = some run ∧ run.OutcomeUnknown

/-- A write in doubt stays so under the calls that leave it alone. -/
theorem exec_inDoubt (hsound : db.Sound) (hleaves : op.leavesWrite runId = true)
    (hdoubt : db.InDoubt runId toolCallId digest) :
    (exec json op db).2.InDoubt runId toolCallId digest := by
  rcases hdoubt with ⟨run, hload, hstatus, hfence⟩ | ⟨run, hload, hunknown⟩
  · have hview := AgentDb.view_eq_some hload
    cases (exec_effect json op hsound.wellKeyed runId).1 with
    | unchanged same =>
      exact .inl ⟨run, AgentDb.loadRun_of_view (same.trans hview), hstatus, hfence⟩
    | started label idle absent present => simp [absent] at hview
    | deleted label present owner terminal absent =>
      subst label
      simp [AgentOp.leavesWrite] at hleaves
    | stepped target present present' step =>
      obtain rfl := Option.some.inj (present.symm.trans hview)
      have hafter := AgentDb.loadRun_of_view present'
      rcases step.fenced_cases hstatus hfence with
        hkept | ⟨_, _, rfl⟩ | ⟨_, _, _, _, _, rfl⟩ | ⟨_, _, rfl⟩
      · exact .inl ⟨_, hafter, hkept⟩
      · simp [AgentOp.leavesWrite, target _ rfl] at hleaves
      · cases step with
        | failAgentWriteOutcomeUnknown status fence digestFence advances =>
          exact .inr ⟨_, hafter, rfl, rfl⟩
      · cases step with
        | recoverAgentsAt =>
          refine .inr ⟨_, hafter, ?_⟩
          rw [AgentRunRecord.recovered_fenced (by simp [hstatus, AgentRunStatus.isActive])
            hfence.1]
          exact ⟨rfl, rfl⟩
  · right
    have hkept : ¬ op.DeletesSession json run.sessionId db := by
      rintro ⟨⟨_, rfl⟩, _⟩
      cases hleaves
    obtain ⟨after, hafter, _, _, hfrozen⟩ := (exec_run_cases op hsound hload).resolve_right hkept
    rw [hfrozen (by rw [hunknown.1]; rfl)] at hafter
    exact ⟨run, hafter, hunknown⟩

/-- A write in flight that nobody settles is recorded as unknown when its run ends. -/
theorem AgentDb.InFlight.endsUnknown (hsound : db.Sound)
    (hflight : db.InFlight runId toolCallId digest) : db.EndsUnknown json runId := by
  constructor
  · intro ops run hload hterminal
    have hdoubt : ∀ (ops : List { op : AgentOp // op.leavesWrite runId = true }) (db : AgentDb),
        db.Sound → db.InDoubt runId toolCallId digest →
        (Trace.run (exec json) db (ops.map Subtype.val)).InDoubt runId toolCallId digest := by
      intro ops
      induction ops with
      | nil => intro db _ hdoubt; exact hdoubt
      | cons op rest ih =>
        intro db hsound hdoubt
        exact ih _ (exec_sound json op.val hsound) (exec_inDoubt hsound op.property hdoubt)
    rcases hdoubt ops db hsound (.inl hflight) with
      ⟨found, hfound, hstatus, _⟩ | ⟨found, hfound, hunknown⟩
    · obtain rfl := Option.some.inj (hfound.symm.trans hload)
      rw [hstatus] at hterminal
      cases hterminal
    · obtain rfl := Option.some.inj (hfound.symm.trans hload)
      exact hunknown
  · intro results timestamp
    obtain ⟨run, hload, hstatus, hfence⟩ := hflight
    exact fenced_run_recovered results timestamp hload hstatus hfence

theorem AgentDb.Unfenced.not_endsUnknown (hunfenced : db.Unfenced runId) :
    ¬ db.EndsUnknown json runId := by
  intro hends
  obtain ⟨run, hload, hstatus, hcall, _⟩ := hunfenced
  obtain ⟨after, hafter, hunknown⟩ := hends.recovers [] 0
  obtain ⟨report, db', hok, hrecovered⟩ := recoverAgentsAt_loadRun [] 0 db runId
  have hexec : (exec json (.recoverAgentsAt [] 0) db).2 = db' := by
    simp only [exec, reply, transact, hok]
  rw [hexec, hrecovered, hload, Option.map_some, Option.some.injEq] at hafter
  rcases hstatus with hrunning | hcancelled
  · rw [AgentRunRecord.recovered_interrupted (by simp [hrunning, AgentRunStatus.isActive]) hcall]
      at hafter
    have hcode := hunknown.2
    rw [← hafter] at hcode
    simp [AgentRunRecord.recoverAs] at hcode
  · rw [AgentRunRecord.recovered_terminal (by simp [hcancelled, AgentRunStatus.isActive])] at hafter
    have hfailed := hunknown.1
    rw [← hafter, hcancelled] at hfailed
    cases hfailed

/-- The tool call of the run was used, in every continuation that keeps the
session: no consume of it is accepted again. -/
def AgentDb.Used (db : AgentDb) (runId toolCallId : String) : Prop :=
  ∃ permission ∈ db.permissions, permission.runId = runId ∧ permission.toolCallId = toolCallId ∧
    permission.status = .consumed

theorem exec_used (op : AgentOp) (hsound : db.Sound) (hused : db.Used runId toolCallId)
    (hkept : ∀ sessionId, ¬ op.DeletesSession json sessionId db) :
    (exec json op db).2.Used runId toolCallId := by
  obtain ⟨permission, hmem, rfl, hcall, hstatus⟩ := hused
  obtain ⟨run, hload⟩ := hsound.wellKeyed.loadRun_owner hmem
  exact ⟨permission, exec_retired_kept op hsound hmem (by rw [hstatus]; rfl) hload (hkept _), rfl,
    hcall, hstatus⟩

def AgentOp.keepsSessions : AgentOp → Bool
  | .deleteAgentSession _ _ => false
  | _ => true

theorem AgentDb.Used.run (hsound : db.Sound) (hused : db.Used runId toolCallId)
    (ops : List { op : AgentOp // op.keepsSessions = true }) :
    (Trace.run (exec json) db (ops.map Subtype.val)).Sound ∧
      (Trace.run (exec json) db (ops.map Subtype.val)).Used runId toolCallId := by
  induction ops generalizing db with
  | nil => exact ⟨hsound, hused⟩
  | cons op rest ih =>
    refine ih (exec_sound json op.val hsound) (exec_used op.val hsound hused ?_)
    rintro sessionId ⟨⟨_, hdelete⟩, _⟩
    have hkept := op.property
    rw [hdelete] at hkept
    cases hkept

/-- A tool call that was used is not consumed again. -/
theorem AgentDb.Used.rejects (hsound : db.Sound) (hused : db.Used runId toolCallId) (env : CallEnv)
    (id : String) (revision lastSequence : Nat) :
    ∃ error, (exec json (.consumeToolPermission env id revision runId toolCallId digest
      lastSequence) db).1 = .error error := by
  obtain ⟨used, hmem, hrunId, hcall, hstatus⟩ := hused
  cases hreply : (exec json (.consumeToolPermission env id revision runId toolCallId digest
      lastSequence) db).1 with
  | error error => exact ⟨error, rfl⟩
  | ok value =>
    obtain ⟨other, hother, _, hotherRun, hotherCall, happroved⟩ :=
      (exec_consumeToolPermission hsound hreply).2.before
    have hequal := hsound.wellKeyed.calls.eq_of_key_eq hother hmem
      (by rw [hotherRun, hotherCall, hrunId, hcall])
    rw [hequal, hstatus] at happroved
    cases happroved

end Chat2DB.Storage
