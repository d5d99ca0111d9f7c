import Mathlib
import Chat2DB.Storage.AgentOps

/-! # The lifecycle of one run

The store seen from one run: its row and the permissions it owns. `RunStep`
lists every way an operation may change that view, together with what must
have held for it. The invariants of the lifecycle are proved here, on views,
independently of the tables.
-/

namespace Chat2DB.Storage

variable {status : ToolPermissionStatus} {toolCallId : String} {op : AgentOp}
  {before after : RunView}

/-- One run with the permissions it owns, in insertion order. -/
structure RunView where
  run : AgentRunRecord
  permissions : List ToolPermissionRecord

namespace RunView

/-- The number of pending or approved permissions. -/
def activeCount (view : RunView) : Nat :=
  view.permissions.countP fun permission => permission.status.isActive

/-- The permissions after every active one is revoked. -/
def revoked (view : RunView) (timestamp : Int) : List ToolPermissionRecord :=
  Rows.update (fun permission => permission.status.isActive)
    (fun permission => permission.advance .revoked timestamp) view.permissions

end RunView

/-- The same permission in another state of its life. -/
structure ToolPermissionRecord.Becomes (permission moved : ToolPermissionRecord)
    (status : ToolPermissionStatus) : Prop where
  id : moved.id = permission.id
  runId : moved.runId = permission.runId
  toolCallId : moved.toolCallId = permission.toolCallId
  argumentsSha256 : moved.argumentsSha256 = permission.argumentsSha256
  expiresAtMs : moved.expiresAtMs = permission.expiresAtMs
  status : moved.status = status

/-- The row of a run after recovery. -/
def AgentRunRecord.recovered (run : AgentRunRecord) (timestamp : Int) : AgentRunRecord :=
  if run.status.isActive then
    if run.writeInFlightToolCallId.isSome then
      run.recoverAs "database_outcome_unknown"
        "Database write outcome is unknown after runtime restart" timestamp
    else
      run.recoverAs "runtime_restarted" "Agent run interrupted by runtime restart" timestamp
  else
    run

/-- The ways an operation changes the view of a run. -/
inductive RunStep : AgentOp → RunView → RunView → Prop
  | updateAgentRun {view : RunView} {env id expected update timestamp}
      (status : view.run.status = update.status)
      (active : view.run.status.isActive = true)
      (cancel : view.run.cancelRequested = false)
      (fence : view.run.writeInFlightToolCallId = none)
      (advances : view.run.toAgentRunProgress.Continues update.toAgentRunProgress) :
      RunStep (.updateAgentRun env id expected update) view
        { view with
          run :=
            { view.run with
              toAgentRunProgress := update.toAgentRunProgress
              updatedAtMs := timestamp } }
  | compactAgentRun {view : RunView} {env id expected input timestamp progress}
      (status : view.run.status = .running)
      (cancel : view.run.cancelRequested = false)
      (fence : view.run.writeInFlightToolCallId = none)
      (advances : view.run.toAgentRunProgress.Advances progress)
      (coverage : progress.compactedThroughOrdinal =
        input.compaction.requestedCoverage.or view.run.compactedThroughOrdinal) :
      RunStep (.compactAgentRun env id expected input) view
        { view with
          run := { view.run with toAgentRunProgress := progress, updatedAtMs := timestamp } }
  | completeAgentRun {view : RunView} {env id expected timestamp messageId}
      {input : CompleteAgentRun}
      (status : view.run.status = .running)
      (cancel : view.run.cancelRequested = false)
      (fence : view.run.writeInFlightToolCallId = none)
      (advances : view.run.toAgentRunProgress.Continues input.toAgentRunProgress) :
      RunStep (.completeAgentRun env id expected input) view
        { run :=
            { view.run with
              toAgentRunProgress := input.toAgentRunProgress
              status := .completed
              messageId := some messageId
              errorCode := none
              errorMessage := none
              updatedAtMs := timestamp
              finishedAtMs := some timestamp }
          permissions := view.revoked timestamp }
  | failAgentRun {view : RunView} {env id expected timestamp} {input : FailAgentRun}
      (active : view.run.status.isActive = true)
      (cancel : view.run.cancelRequested = false)
      (fence : view.run.writeInFlightToolCallId = none)
      (advances : view.run.toAgentRunProgress.Continues input.toAgentRunProgress) :
      RunStep (.failAgentRun env id expected input) view
        { run :=
            { view.run with
              toAgentRunProgress := input.toAgentRunProgress
              status := .failed
              messageId := none
              errorCode := some input.errorCode
              errorMessage := input.errorMessage
              updatedAtMs := timestamp
              finishedAtMs := some timestamp }
          permissions := view.revoked timestamp }
  | requestAgentRunCancellation {view : RunView} {env id timestamp}
      (active : view.run.status.isActive = true)
      (cancel : view.run.cancelRequested = false) :
      RunStep (.requestAgentRunCancellation env id) view
        { run :=
            { view.run with
              status := .running
              cancelRequested := true
              updatedAtMs := timestamp }
          permissions := view.revoked timestamp }
  | finishCancelledAgentRun {view : RunView} {env id expected timestamp} {input : CancelAgentRun}
      (active : view.run.status.isActive = true)
      (cancel : view.run.cancelRequested = true)
      (fence : view.run.writeInFlightToolCallId = none)
      (advances : view.run.toAgentRunProgress.Continues input.toAgentRunProgress) :
      RunStep (.finishCancelledAgentRun env id expected input) view
        { view with
          run :=
            { view.run with
              toAgentRunProgress := input.toAgentRunProgress
              status := .cancelled
              messageId := none
              errorCode := none
              errorMessage := none
              updatedAtMs := timestamp
              finishedAtMs := some timestamp } }
  | createToolPermission {view : RunView} {env runId timestamp} {input : RequestToolPermission}
      {permission : ToolPermissionRecord}
      (status : view.run.status = .running)
      (cancel : view.run.cancelRequested = false)
      (mode : view.run.sqlPermissionMode = .askBeforeWrite)
      (fence : view.run.writeInFlightToolCallId = none)
      (advances : view.run.toAgentRunProgress.Continues input.toAgentRunProgress)
      (pending : permission.status = .pending) :
      RunStep (.createToolPermission env runId input) view
        { run :=
            { view.run with
              toAgentRunProgress := input.toAgentRunProgress
              status := .waitingPermission
              updatedAtMs := timestamp }
          permissions := view.permissions ++ [permission] }
  | decideToolPermission {view : RunView} {env id revision runId toolCallId digest lastSequence
        decision timestamp} {permission moved : ToolPermissionRecord}
      (status : view.run.status = .waitingPermission)
      (cancel : view.run.cancelRequested = false)
      (fence : view.run.writeInFlightToolCallId = none)
      (sequence : view.run.lastSequence < lastSequence)
      (mem : permission ∈ view.permissions)
      (bound : permission.id = id ∧ permission.runId = runId ∧ permission.toolCallId = toolCallId ∧
        permission.argumentsSha256 = digest)
      (pending : permission.status = .pending)
      (becomes : permission.Becomes moved decision.permissionStatus) :
      RunStep (.decideToolPermission env id revision runId toolCallId digest lastSequence decision)
        view
        { run :=
            { view.run with status := decision.runStatus, lastSequence, updatedAtMs := timestamp }
          permissions := Rows.replace permission moved view.permissions }
  | decideExpired {view : RunView} {env id revision runId toolCallId digest lastSequence
        decision timestamp} {permission moved : ToolPermissionRecord}
      (status : view.run.status = .waitingPermission)
      (cancel : view.run.cancelRequested = false)
      (fence : view.run.writeInFlightToolCallId = none)
      (sequence : view.run.lastSequence < lastSequence)
      (mem : permission ∈ view.permissions)
      (active : permission.status.isActive = true)
      (becomes : permission.Becomes moved .expired) :
      RunStep (.decideToolPermission env id revision runId toolCallId digest lastSequence decision)
        view
        { run := { view.run with status := .running, lastSequence, updatedAtMs := timestamp }
          permissions := Rows.replace permission moved view.permissions }
  | expireToolPermission {view : RunView} {env id revision runId toolCallId digest lastSequence
        timestamp} {permission moved : ToolPermissionRecord}
      (status : view.run.status = .waitingPermission)
      (cancel : view.run.cancelRequested = false)
      (fence : view.run.writeInFlightToolCallId = none)
      (sequence : view.run.lastSequence < lastSequence)
      (mem : permission ∈ view.permissions)
      (active : permission.status.isActive = true)
      (becomes : permission.Becomes moved .expired) :
      RunStep (.expireToolPermission env id revision runId toolCallId digest lastSequence) view
        { run := { view.run with status := .running, lastSequence, updatedAtMs := timestamp }
          permissions := Rows.replace permission moved view.permissions }
  | revokeToolPermission {view : RunView} {env id revision runId toolCallId digest lastSequence
        timestamp} {permission moved : ToolPermissionRecord}
      (status : view.run.status = .waitingPermission)
      (cancel : view.run.cancelRequested = false)
      (fence : view.run.writeInFlightToolCallId = none)
      (sequence : view.run.lastSequence < lastSequence)
      (mem : permission ∈ view.permissions)
      (active : permission.status.isActive = true)
      (becomes : permission.Becomes moved .revoked) :
      RunStep (.revokeToolPermission env id revision runId toolCallId digest lastSequence) view
        { run := { view.run with status := .running, lastSequence, updatedAtMs := timestamp }
          permissions := Rows.replace permission moved view.permissions }
  | consumeToolPermission {view : RunView} {env : CallEnv} {id revision runId toolCallId digest
        lastSequence timestamp} {permission moved : ToolPermissionRecord}
      (clock : env.clock = .ok timestamp)
      (status : view.run.status = .waitingPermission)
      (cancel : view.run.cancelRequested = false)
      (mode : view.run.sqlPermissionMode = .askBeforeWrite)
      (fence : view.run.writeInFlightToolCallId = none)
      (sequence : view.run.lastSequence < lastSequence)
      (mem : permission ∈ view.permissions)
      (bound : permission.id = id ∧ permission.runId = runId ∧ permission.toolCallId = toolCallId ∧
        permission.argumentsSha256 = digest)
      (approved : permission.status = .approved)
      (live : timestamp < permission.expiresAtMs)
      (becomes : permission.Becomes moved .consumed) :
      RunStep (.consumeToolPermission env id revision runId toolCallId digest lastSequence) view
        { run :=
            { view.run with
              status := .running
              lastSequence
              writeInFlightToolCallId := some toolCallId
              writeInFlightArgumentsSha256 := some digest
              updatedAtMs := timestamp }
          permissions := Rows.replace permission moved view.permissions }
  | consumeExpired {view : RunView} {env : CallEnv} {id revision runId toolCallId digest
        lastSequence timestamp} {permission moved : ToolPermissionRecord}
      (mem : permission ∈ view.permissions)
      (approved : permission.status = .approved)
      (dead : permission.expiresAtMs ≤ timestamp)
      (becomes : permission.Becomes moved .expired) :
      RunStep (.consumeToolPermission env id revision runId toolCallId digest lastSequence) view
        { run :=
            if view.run.status = .waitingPermission then
              { view.run with status := .running, updatedAtMs := timestamp }
            else view.run
          permissions := Rows.replace permission moved view.permissions }
  | settleAgentWrite {view : RunView} {env runId toolCallId digest timestamp}
      (status : view.run.status = .running)
      (fence : view.run.writeInFlightToolCallId = some toolCallId)
      (digestFence : view.run.writeInFlightArgumentsSha256 = some digest) :
      RunStep (.settleAgentWrite env runId toolCallId digest) view
        { view with
          run :=
            { view.run with
              writeInFlightToolCallId := none
              writeInFlightArgumentsSha256 := none
              updatedAtMs := timestamp } }
  | failAgentWriteOutcomeUnknown {view : RunView} {env runId toolCallId digest timestamp}
      {input : UnknownAgentWrite}
      (status : view.run.status = .running)
      (fence : view.run.writeInFlightToolCallId = some toolCallId)
      (digestFence : view.run.writeInFlightArgumentsSha256 = some digest)
      (advances : view.run.toAgentRunProgress.Continues input.toAgentRunProgress) :
      RunStep (.failAgentWriteOutcomeUnknown env runId toolCallId digest input) view
        { view with
          run :=
            { view.run with
              toAgentRunProgress := input.toAgentRunProgress
              status := .failed
              messageId := none
              errorCode := some "database_outcome_unknown"
              errorMessage := some "Database write outcome is unknown and must not be retried"
              updatedAtMs := timestamp
              finishedAtMs := some timestamp } }
  | recoverAgentsAt {view : RunView} {results timestamp} :
      RunStep (.recoverAgentsAt results timestamp) view
        { run := view.run.recovered timestamp
          permissions := view.revoked timestamp }

/-! ## Permissions of a view -/

section Permissions

variable {view : RunView} {permission moved : ToolPermissionRecord}

theorem RunView.activeCount_revoked (view : RunView) (timestamp : Int) (run : AgentRunRecord) :
    RunView.activeCount { run, permissions := view.revoked timestamp } = 0 :=
  Rows.countP_update_all (fun _ _ hactive => hactive) fun _ => rfl

theorem RunView.activeCount_retire (run : AgentRunRecord) (hone : view.activeCount = 1)
    (hmem : permission ∈ view.permissions) (hactive : permission.status.isActive = true)
    (hmoved : moved.status.isActive = false) :
    RunView.activeCount
      { run, permissions := Rows.replace permission moved view.permissions } = 0 :=
  Rows.countP_update_eq_zero hone hmem hactive (by simp) fun _ => hmoved

theorem RunView.activeCount_keep (run : AgentRunRecord)
    (hactive : permission.status.isActive = true) (hmoved : moved.status.isActive = true) :
    RunView.activeCount
      { run, permissions := Rows.replace permission moved view.permissions } =
      view.activeCount := by
  apply Rows.countP_update_of_same
  intro row _ hrow
  rw [of_decide_eq_true hrow, hactive, hmoved]

theorem RunView.activeCount_request (run : AgentRunRecord) (hzero : view.activeCount = 0)
    (hpending : permission.status = .pending) :
    RunView.activeCount { run, permissions := view.permissions ++ [permission] } = 1 := by
  unfold RunView.activeCount at hzero ⊢
  rw [List.countP_append, hzero, List.countP_singleton, hpending]
  rfl

end Permissions

/-! ## The lifecycle invariant -/

/-- Status, permissions, cancellation bit and write fence agree. -/
structure RunView.Sound (view : RunView) : Prop where
  waiting : view.run.status = .waitingPermission → view.activeCount = 1
  idle : view.run.status ≠ .waitingPermission → view.activeCount = 0
  cancelled : view.run.cancelRequested = true → view.run.status ≠ .waitingPermission
  fence : view.run.writeInFlightToolCallId ≠ none →
    view.run.status = .running ∨
      (view.run.status = .failed ∧ view.run.errorCode = some "database_outcome_unknown")
  fencePair : view.run.writeInFlightToolCallId = none ↔
    view.run.writeInFlightArgumentsSha256 = none

/-- A new run is sound. -/
theorem RunView.sound_start (runId sessionId : String) (mode : SqlPermissionMode)
    (timestamp : Int) :
    RunView.Sound
      { run := AgentRunRecord.start runId sessionId mode timestamp, permissions := [] } where
  waiting := by simp [AgentRunRecord.start]
  idle := by simp [RunView.activeCount]
  cancelled := by simp [AgentRunRecord.start]
  fence := by simp [AgentRunRecord.start]
  fencePair := by simp [AgentRunRecord.start]

/-- A run that waits for nothing has no active permission. -/
theorem RunView.sound_of_idle {view : RunView} (hstatus : view.run.status ≠ .waitingPermission)
    (hcount : view.activeCount = 0)
    (hfence : view.run.writeInFlightToolCallId ≠ none →
      view.run.status = .running ∨
        (view.run.status = .failed ∧ view.run.errorCode = some "database_outcome_unknown"))
    (hpair : view.run.writeInFlightToolCallId = none ↔
      view.run.writeInFlightArgumentsSha256 = none) : view.Sound where
  waiting := fun hwaiting => absurd hwaiting hstatus
  idle := fun _ => hcount
  cancelled := fun _ => hstatus
  fence := hfence
  fencePair := hpair

theorem ToolPermissionStatus.isActive_pending (hstatus : status = .pending) :
    status.isActive = true := by
  rw [hstatus]; rfl

theorem ToolPermissionStatus.isActive_approved (hstatus : status = .approved) :
    status.isActive = true := by
  rw [hstatus]; rfl

theorem ToolPermissionRecord.Becomes.isActive {permission moved : ToolPermissionRecord}
    (hbecomes : permission.Becomes moved status) :
    moved.status.isActive = status.isActive := by
  rw [hbecomes.status]

namespace AgentRunRecord

variable {run : AgentRunRecord} {timestamp : Int}

theorem recovered_terminal (hstatus : run.status.isActive = false) :
    run.recovered timestamp = run := by
  unfold recovered
  rw [if_neg (by simp [hstatus])]

/-- A restart does not know what became of a write in flight. -/
theorem recovered_fenced (hstatus : run.status.isActive = true)
    (hfence : run.writeInFlightToolCallId = some toolCallId) :
    run.recovered timestamp = run.recoverAs "database_outcome_unknown"
      "Database write outcome is unknown after runtime restart" timestamp := by
  unfold recovered
  rw [if_pos hstatus, if_pos (by simp [hfence])]

theorem recovered_interrupted (hstatus : run.status.isActive = true)
    (hfence : run.writeInFlightToolCallId = none) :
    run.recovered timestamp = run.recoverAs "runtime_restarted"
      "Agent run interrupted by runtime restart" timestamp := by
  unfold recovered
  rw [if_pos hstatus, if_neg (by simp [hfence])]

end AgentRunRecord

/-- The invariant of a run, one case for each of its steps. -/
theorem RunStep.sound (hstep : RunStep op before after) (hsound : before.Sound) : after.Sound := by
  cases hstep with
  | updateAgentRun _ _ _ fence | compactAgentRun _ _ fence =>
    exact
      { waiting := hsound.waiting, idle := hsound.idle, cancelled := hsound.cancelled
        fence := hsound.fence, fencePair := hsound.fencePair }
  | completeAgentRun _ _ fence | failAgentRun _ _ fence =>
    exact RunView.sound_of_idle (by simp) (RunView.activeCount_revoked before _ _)
      (fun hfence => absurd fence hfence) hsound.fencePair
  | requestAgentRunCancellation active cancel =>
    exact RunView.sound_of_idle (by simp) (RunView.activeCount_revoked before _ _)
      (fun _ => .inl rfl) hsound.fencePair
  | finishCancelledAgentRun active cancel fence advances =>
    exact RunView.sound_of_idle (by simp) (hsound.idle (hsound.cancelled cancel))
      (fun hfence => absurd fence hfence) hsound.fencePair
  | createToolPermission status cancel mode fence advances pending =>
    have hcount := hsound.idle (by simp [status])
    exact
      { waiting := fun _ => RunView.activeCount_request _ hcount pending
        idle := fun hidle => absurd rfl hidle
        cancelled := fun hcancel => by simp [cancel] at hcancel
        fence := fun hfence => absurd fence hfence
        fencePair := hsound.fencePair }
  | decideToolPermission status cancel fence sequence mem bound pending becomes =>
    rename_i decision timestamp permission moved
    have hactive := ToolPermissionStatus.isActive_pending pending
    have hcount := hsound.waiting status
    cases decision with
    | approve =>
      exact
        { waiting := fun _ => (RunView.activeCount_keep _ hactive becomes.isActive).trans hcount
          idle := fun hidle => absurd rfl hidle
          cancelled := fun hcancel => by simp [cancel] at hcancel
          fence := fun hfence => absurd fence hfence
          fencePair := hsound.fencePair }
    | deny =>
      exact RunView.sound_of_idle (by simp [ToolPermissionDecision.runStatus])
        (RunView.activeCount_retire _ hcount mem hactive becomes.isActive)
        (fun hfence => absurd fence hfence) hsound.fencePair
  | decideExpired status _ fence _ mem active becomes
  | expireToolPermission status _ fence _ mem active becomes
  | revokeToolPermission status _ fence _ mem active becomes =>
    exact RunView.sound_of_idle (by simp)
      (RunView.activeCount_retire _ (hsound.waiting status) mem active becomes.isActive)
      (fun hfence => absurd fence hfence) hsound.fencePair
  | consumeToolPermission clock status cancel mode fence sequence mem bound approved live becomes =>
    exact RunView.sound_of_idle (by simp)
      (RunView.activeCount_retire _ (hsound.waiting status) mem
        (ToolPermissionStatus.isActive_approved approved) becomes.isActive)
      (fun _ => .inl rfl) (by simp)
  | consumeExpired mem approved dead becomes =>
    have hactive := ToolPermissionStatus.isActive_approved approved
    -- an approved permission is active, so its run must be waiting
    have hstatus : before.run.status = .waitingPermission := by
      by_contra hidle
      have hnone := List.countP_eq_zero.mp (hsound.idle hidle) _ mem
      exact hnone hactive
    rw [if_pos hstatus]
    have hfence : before.run.writeInFlightToolCallId = none := by
      by_contra hset
      rcases hsound.fence hset with hrunning | ⟨hfailed, _⟩ <;> simp_all
    exact RunView.sound_of_idle (by simp)
      (RunView.activeCount_retire _ (hsound.waiting hstatus) mem hactive becomes.isActive)
      (fun hset => absurd hfence hset) hsound.fencePair
  | settleAgentWrite status fence digestFence =>
    exact RunView.sound_of_idle (by simp [status]) (hsound.idle (by simp [status]))
      (by simp) (by simp)
  | failAgentWriteOutcomeUnknown status fence digestFence advances =>
    exact RunView.sound_of_idle (by simp) (hsound.idle (by simp [status]))
      (fun _ => .inr ⟨rfl, rfl⟩) hsound.fencePair
  | recoverAgentsAt =>
    rename_i results timestamp
    have hcount := RunView.activeCount_revoked before timestamp (before.run.recovered timestamp)
    by_cases hactive : before.run.status.isActive = true
    · cases hfence : before.run.writeInFlightToolCallId with
      | none =>
        rw [AgentRunRecord.recovered_interrupted hactive hfence] at hcount ⊢
        exact RunView.sound_of_idle (by simp [AgentRunRecord.recoverAs]) hcount
          (fun hset => absurd hfence hset) hsound.fencePair
      | some toolCallId =>
        rw [AgentRunRecord.recovered_fenced hactive hfence] at hcount ⊢
        exact RunView.sound_of_idle (by simp [AgentRunRecord.recoverAs]) hcount
          (fun _ => .inr ⟨rfl, rfl⟩) hsound.fencePair
    · rw [AgentRunRecord.recovered_terminal (by simpa using hactive)] at hcount ⊢
      have hstatus : before.run.status ≠ .waitingPermission := by
        intro hwaiting
        rw [hwaiting] at hactive
        exact hactive rfl
      exact RunView.sound_of_idle hstatus hcount hsound.fence hsound.fencePair

/-! ## Progress, finality and the fence -/

/-- No counter of a run is taken back. -/
structure AgentRunProgress.Grows (current later : AgentRunProgress) : Prop where
  lastSequence : current.lastSequence ≤ later.lastSequence
  modelRounds : current.modelRounds ≤ later.modelRounds
  toolCalls : current.toolCalls ≤ later.toolCalls
  inputTokens : current.inputTokens ≤ later.inputTokens
  outputTokens : current.outputTokens ≤ later.outputTokens
  totalTokens : current.totalTokens ≤ later.totalTokens
  compactionCount : current.compactionCount ≤ later.compactionCount
  coverage : coverageRank current.compactedThroughOrdinal ≤
    coverageRank later.compactedThroughOrdinal

namespace AgentRunProgress

theorem Grows.refl (progress : AgentRunProgress) : progress.Grows progress :=
  ⟨le_rfl, le_rfl, le_rfl, le_rfl, le_rfl, le_rfl, le_rfl, le_rfl⟩

theorem Grows.trans {first second third : AgentRunProgress} (hfirst : first.Grows second)
    (hsecond : second.Grows third) : first.Grows third where
  lastSequence := hfirst.lastSequence.trans hsecond.lastSequence
  modelRounds := hfirst.modelRounds.trans hsecond.modelRounds
  toolCalls := hfirst.toolCalls.trans hsecond.toolCalls
  inputTokens := hfirst.inputTokens.trans hsecond.inputTokens
  outputTokens := hfirst.outputTokens.trans hsecond.outputTokens
  totalTokens := hfirst.totalTokens.trans hsecond.totalTokens
  compactionCount := hfirst.compactionCount.trans hsecond.compactionCount
  coverage := hfirst.coverage.trans hsecond.coverage

/-- Progress that the store accepts is progress. -/
theorem Advances.grows {current progress : AgentRunProgress}
    (hadvances : current.Advances progress) : current.Grows progress where
  lastSequence := hadvances.lastSequence.le
  modelRounds := hadvances.modelRounds
  toolCalls := hadvances.toolCalls
  inputTokens := hadvances.inputTokens
  outputTokens := hadvances.outputTokens
  totalTokens := hadvances.totalTokens
  compactionCount := hadvances.compactionCount
  coverage := hadvances.coverage

theorem Grows.of_sequence {progress : AgentRunProgress} {lastSequence : Nat}
    (hsequence : progress.lastSequence ≤ lastSequence) :
    progress.Grows { progress with lastSequence } :=
  { Grows.refl progress with lastSequence := hsequence }

end AgentRunProgress

theorem le_recoveredSequence (lastSequence : Nat) :
    lastSequence ≤ recoveredSequence lastSequence := by
  unfold recoveredSequence
  split <;> omega

theorem AgentRunRecord.recovered_grows (run : AgentRunRecord) (timestamp : Int) :
    run.toAgentRunProgress.Grows (run.recovered timestamp).toAgentRunProgress := by
  have hsequence : run.toAgentRunProgress.Grows
      { run.toAgentRunProgress with lastSequence := recoveredSequence run.lastSequence } :=
    .of_sequence (le_recoveredSequence run.lastSequence)
  unfold AgentRunRecord.recovered
  split
  · split
    · exact hsequence
    · exact hsequence
  · exact AgentRunProgress.Grows.refl _

/-- No step takes the counters of a run back. -/
theorem RunStep.grows (hstep : RunStep op before after) :
    before.run.toAgentRunProgress.Grows after.run.toAgentRunProgress := by
  cases hstep with
  | updateAgentRun _ _ _ _ advances | compactAgentRun _ _ _ advances
  | completeAgentRun _ _ _ advances | failAgentRun _ _ _ advances => exact advances.grows
  | requestAgentRunCancellation active cancel => exact .refl _
  | finishCancelledAgentRun _ _ _ advances | createToolPermission _ _ _ _ advances =>
    exact advances.grows
  | decideToolPermission _ _ _ sequence | decideExpired _ _ _ sequence
  | expireToolPermission _ _ _ sequence | revokeToolPermission _ _ _ sequence
  | consumeToolPermission _ _ _ _ _ sequence =>
    exact .of_sequence sequence.le
  | consumeExpired mem approved dead becomes =>
    split <;> exact .refl _
  | settleAgentWrite status fence digestFence => exact .refl _
  | failAgentWriteOutcomeUnknown status fence digestFence advances => exact advances.grows
  | recoverAgentsAt => exact before.run.recovered_grows _

/-- A run that has ended is not changed. -/
theorem RunStep.frozen (hstep : RunStep op before after)
    (hterminal : before.run.status.isTerminal = true) : after.run = before.run := by
  have hinactive : before.run.status.isActive = false := by
    rw [AgentRunStatus.isActive_eq_not_isTerminal, hterminal]; rfl
  cases hstep with
  | updateAgentRun status active cancel fence advances => simp [hinactive] at active
  | compactAgentRun status | completeAgentRun status =>
    simp [status, AgentRunStatus.isTerminal] at hterminal
  | failAgentRun active | requestAgentRunCancellation active | finishCancelledAgentRun active =>
    simp [hinactive] at active
  | createToolPermission status | decideToolPermission status | decideExpired status
  | expireToolPermission status | revokeToolPermission status | consumeToolPermission _ status =>
    simp [status, AgentRunStatus.isTerminal] at hterminal
  | consumeExpired mem approved dead becomes =>
    have hstatus : before.run.status ≠ .waitingPermission := by
      intro hwaiting
      rw [hwaiting] at hterminal
      cases hterminal
    rw [if_neg hstatus]
  | settleAgentWrite status | failAgentWriteOutcomeUnknown status =>
    simp [status, AgentRunStatus.isTerminal] at hterminal
  | recoverAgentsAt => exact AgentRunRecord.recovered_terminal hinactive

/-- The two columns of the write fence. -/
def AgentRunRecord.FencedBy (run : AgentRunRecord) (toolCallId : String) (digest : Sha256) : Prop :=
  run.writeInFlightToolCallId = some toolCallId ∧ run.writeInFlightArgumentsSha256 = some digest

/-- A running, fenced run keeps status and fence unless its write is settled,
recorded as unknown, or swept by recovery. -/
theorem RunStep.fenced_cases
    {digest : Sha256} (hstep : RunStep op before after) (hstatus : before.run.status = .running)
    (hfence : before.run.FencedBy toolCallId digest) :
    (after.run.status = .running ∧ after.run.FencedBy toolCallId digest) ∨
      (∃ env runId, op = .settleAgentWrite env runId toolCallId digest) ∨
      (∃ env runId call args input, op = .failAgentWriteOutcomeUnknown env runId call args input) ∨
      (∃ results timestamp, op = .recoverAgentsAt results timestamp) := by
  cases hstep with
  | updateAgentRun _ _ _ fence | compactAgentRun _ _ fence | completeAgentRun _ _ fence
  | failAgentRun _ _ fence => simp [hfence.1] at fence
  | requestAgentRunCancellation active cancel => exact .inl ⟨rfl, hfence⟩
  | finishCancelledAgentRun _ _ fence | createToolPermission _ _ _ fence
  | decideToolPermission _ _ fence | decideExpired _ _ fence | expireToolPermission _ _ fence
  | revokeToolPermission _ _ fence | consumeToolPermission _ _ _ _ fence => simp [hfence.1] at fence
  | consumeExpired mem approved dead becomes =>
    rw [if_neg (by simp [hstatus])]
    exact .inl ⟨hstatus, hfence⟩
  | settleAgentWrite status fence digestFence =>
    obtain rfl := Option.some.inj (fence.symm.trans hfence.1)
    obtain rfl := Option.some.inj (digestFence.symm.trans hfence.2)
    exact .inr (.inl ⟨_, _, rfl⟩)
  | failAgentWriteOutcomeUnknown status fence digestFence advances =>
    exact .inr (.inr (.inl ⟨_, _, _, _, _, rfl⟩))
  | recoverAgentsAt => exact .inr (.inr (.inr ⟨_, _, rfl⟩))

/-- What a step that installs a fence is, and what held before it. -/
structure FenceInstalled (op : AgentOp) (before : RunView) (toolCallId : String) (digest : Sha256)
    (permission : ToolPermissionRecord) : Prop where
  consumes : ∃ env revision lastSequence timestamp,
    op = .consumeToolPermission env permission.id revision permission.runId toolCallId digest
      lastSequence ∧ env.clock = .ok timestamp ∧ timestamp < permission.expiresAtMs
  mem : permission ∈ before.permissions
  toolCallId : permission.toolCallId = toolCallId
  argumentsSha256 : permission.argumentsSha256 = digest
  approved : permission.status = .approved
  cancel : before.run.cancelRequested = false
  status : before.run.status = .waitingPermission
  mode : before.run.sqlPermissionMode = .askBeforeWrite

theorem AgentRunRecord.recovered_fence (run : AgentRunRecord) (timestamp : Int) :
    (run.recovered timestamp).writeInFlightToolCallId = run.writeInFlightToolCallId ∧
      (run.recovered timestamp).writeInFlightArgumentsSha256 =
        run.writeInFlightArgumentsSha256 := by
  unfold AgentRunRecord.recovered
  split
  · split <;> exact ⟨rfl, rfl⟩
  · exact ⟨rfl, rfl⟩

/-- Only the consumption of an approved permission installs a fence. -/
theorem RunStep.fence_installed {digest : Sha256} (hstep : RunStep op before after)
    (hafter : after.run.FencedBy toolCallId digest)
    (hbefore : ¬ before.run.FencedBy toolCallId digest) :
    ∃ permission, FenceInstalled op before toolCallId digest permission := by
  cases hstep with
  | updateAgentRun | compactAgentRun | completeAgentRun | failAgentRun
  | requestAgentRunCancellation | finishCancelledAgentRun | createToolPermission
  | decideToolPermission | decideExpired | expireToolPermission | revokeToolPermission =>
    exact absurd hafter hbefore
  | consumeToolPermission clock status cancel mode fence sequence mem bound approved live becomes =>
    obtain ⟨rfl, rfl, rfl, rfl⟩ := bound
    obtain rfl := Option.some.inj hafter.1
    obtain rfl := Option.some.inj hafter.2
    exact ⟨_,
      { consumes := ⟨_, _, _, _, rfl, clock, live⟩
        mem := mem
        toolCallId := rfl
        argumentsSha256 := rfl
        approved := approved
        cancel := cancel
        status := status
        mode := mode }⟩
  | consumeExpired mem approved dead becomes =>
    split at hafter <;> exact absurd hafter hbefore
  | settleAgentWrite status fence digestFence => cases hafter.1
  | failAgentWriteOutcomeUnknown status fence digestFence advances => exact absurd hafter hbefore
  | recoverAgentsAt =>
    obtain ⟨hcall, hdigest⟩ := before.run.recovered_fence _
    exact absurd ⟨hcall.symm.trans hafter.1, hdigest.symm.trans hafter.2⟩ hbefore

/-! ## The life of a permission -/

theorem mem_replace_of_ne {permission moved other : ToolPermissionRecord}
    {permissions : List ToolPermissionRecord} (hother : other ∈ permissions)
    (hne : other ≠ permission) : other ∈ Rows.replace permission moved permissions :=
  Rows.mem_update_of_not hother (by simp [hne])

/-- Steps touch active permissions only, so a retired one stays as it is. -/
theorem RunStep.retired_kept (hstep : RunStep op before after) {permission : ToolPermissionRecord}
    (hmem : permission ∈ before.permissions) (hretired : permission.status.isActive = false) :
    permission ∈ after.permissions := by
  have hrevoked : ∀ timestamp, permission ∈ before.revoked timestamp :=
    fun timestamp => Rows.mem_update_of_not hmem hretired
  -- a replaced permission is active, hence another one
  have hreplaced : ∀ {other moved : ToolPermissionRecord}, other.status.isActive = true →
      permission ∈ Rows.replace other moved before.permissions := by
    intro other moved hactive
    refine mem_replace_of_ne hmem ?_
    rintro rfl
    simp [hactive] at hretired
  cases hstep with
  | updateAgentRun | compactAgentRun => exact hmem
  | completeAgentRun | failAgentRun | requestAgentRunCancellation => exact hrevoked _
  | finishCancelledAgentRun active cancel fence advances => exact hmem
  | createToolPermission status cancel mode fence advances pending =>
    exact List.mem_append_left _ hmem
  | decideToolPermission status cancel fence sequence mem bound pending becomes =>
    exact hreplaced (ToolPermissionStatus.isActive_pending pending)
  | decideExpired _ _ _ _ _ active | expireToolPermission _ _ _ _ _ active
  | revokeToolPermission _ _ _ _ _ active => exact hreplaced active
  | consumeToolPermission _ _ _ _ _ _ _ _ approved | consumeExpired _ approved =>
    exact hreplaced (ToolPermissionStatus.isActive_approved approved)
  | settleAgentWrite | failAgentWriteOutcomeUnknown => exact hmem
  | recoverAgentsAt => exact hrevoked _

/-- The operation is a decision that approves this permission. -/
def AgentOp.Approves (op : AgentOp) (permission : ToolPermissionRecord) : Prop :=
  ∃ env revision lastSequence,
    op = .decideToolPermission env permission.id revision permission.runId permission.toolCallId
      permission.argumentsSha256 lastSequence .approve

/-- Where the approvals of a view come from: from the view before, or from this
very operation. -/
theorem RunStep.approved_origin
    (hstep : RunStep op before after) {permission : ToolPermissionRecord}
    (hmem : permission ∈ after.permissions) (happroved : permission.status = .approved) :
    permission ∈ before.permissions ∨ op.Approves permission := by
  have hrevoked : ∀ {timestamp}, permission ∈ before.revoked timestamp →
      permission ∈ before.permissions := by
    intro timestamp hrow
    obtain ⟨old, hold, rfl⟩ := Rows.mem_update.mp hrow
    split at happroved
    · cases happroved
    · rename_i hnot
      rw [if_neg hnot]
      exact hold
  have hreplaced : ∀ {other moved : ToolPermissionRecord},
      permission ∈ Rows.replace other moved before.permissions →
      permission ∈ before.permissions ∨ permission = moved := by
    intro other moved hrow
    obtain ⟨old, hold, rfl⟩ := Rows.mem_update.mp hrow
    split
    · exact .inr rfl
    · exact .inl hold
  have hretire : ∀ {other moved : ToolPermissionRecord} {status : ToolPermissionStatus},
      other.Becomes moved status → status ≠ .approved →
      permission ∈ Rows.replace other moved before.permissions →
      permission ∈ before.permissions := by
    intro other moved status hbecomes hstatus hrow
    rcases hreplaced hrow with hold | rfl
    · exact hold
    · exact absurd (hbecomes.status.symm.trans happroved) hstatus
  -- only a decision makes a permission approved; the other steps retire some
  cases hstep with
  | updateAgentRun | compactAgentRun => exact .inl hmem
  | completeAgentRun | failAgentRun | requestAgentRunCancellation => exact .inl (hrevoked hmem)
  | finishCancelledAgentRun active cancel fence advances => exact .inl hmem
  | createToolPermission status cancel mode fence advances pending =>
    rcases List.mem_append.mp hmem with hold | hnew
    · exact .inl hold
    · obtain rfl := List.mem_singleton.mp hnew
      simp [pending] at happroved
  | decideToolPermission status cancel fence sequence mem bound pending becomes =>
    rename_i env id revision runId toolCallId digest lastSequence decision timestamp other moved
    rcases hreplaced hmem with hold | rfl
    · exact .inl hold
    · rw [becomes.status] at happroved
      cases decision with
      | approve =>
        obtain ⟨rfl, rfl, rfl, rfl⟩ := bound
        refine .inr ⟨env, revision, lastSequence, ?_⟩
        rw [becomes.id, becomes.runId, becomes.toolCallId, becomes.argumentsSha256]
      | deny => cases happroved
  | decideExpired _ _ _ _ _ _ becomes | expireToolPermission _ _ _ _ _ _ becomes
  | revokeToolPermission _ _ _ _ _ _ becomes | consumeToolPermission _ _ _ _ _ _ _ _ _ _ becomes
  | consumeExpired _ _ _ becomes =>
    exact .inl (hretire becomes (by simp) hmem)
  | settleAgentWrite | failAgentWriteOutcomeUnknown => exact .inl hmem
  | recoverAgentsAt => exact .inl (hrevoked hmem)

end Chat2DB.Storage
