import Chat2DB.Storage.RunLifecycle
import Chat2DB.Storage.TranscriptSteps

/-! # The tables refine the run lifecycle

Every operation of the store changes the view of each run by nothing, by
starting it, by deleting it with its session, or by one `RunStep`.
-/

namespace Chat2DB.Storage

open Outcome

variable {run : AgentRunRecord} {op : AgentOp} {middle : AgentDb} {timestamp : Int}
  {status : AgentRunStatus} {permission : ToolPermissionRecord} {sessionId : String}

namespace AgentDb

def permissionsOf (db : AgentDb) (runId : String) : List ToolPermissionRecord :=
  db.permissions.filter fun permission => permission.runId = runId

/-- The store seen from one run. -/
def view (db : AgentDb) (runId : String) : Option RunView :=
  (db.loadRun runId).map fun run => { run, permissions := db.permissionsOf runId }

/-- The uniqueness and foreign-key constraints of the run and permission tables. -/
structure WellKeyed (db : AgentDb) : Prop where
  runs : Rows.Keyed AgentRunRecord.id db.runs
  permissions : Rows.Keyed ToolPermissionRecord.id db.permissions
  calls : Rows.Keyed (fun permission => (permission.runId, permission.toolCallId)) db.permissions
  owned : ∀ permission ∈ db.permissions, ∃ run ∈ db.runs, run.id = permission.runId

theorem WellKeyed.empty : AgentDb.empty.WellKeyed where
  runs := List.nodup_nil
  permissions := List.nodup_nil
  calls := List.nodup_nil
  owned := by simp [AgentDb.empty]

theorem view_eq_some {db : AgentDb} {runId : String} (hload : db.loadRun runId = some run) :
    db.view runId = some { run, permissions := db.permissionsOf runId } := by
  rw [view, hload]
  rfl

theorem view_eq_none {db : AgentDb} {runId : String} (hload : db.loadRun runId = none) :
    db.view runId = none := by
  rw [view, hload]
  rfl

theorem view_congr {db db' : AgentDb} (hruns : db'.runs = db.runs)
    (hpermissions : db'.permissions = db.permissions) (runId : String) :
    db'.view runId = db.view runId := by
  unfold view loadRun permissionsOf
  rw [hruns, hpermissions]

theorem WellKeyed.congr {db db' : AgentDb} (hkeyed : db.WellKeyed) (hruns : db'.runs = db.runs)
    (hpermissions : db'.permissions = db.permissions) : db'.WellKeyed where
  runs := by rw [hruns]; exact hkeyed.runs
  permissions := by rw [hpermissions]; exact hkeyed.permissions
  calls := by rw [hpermissions]; exact hkeyed.calls
  owned := by rw [hruns, hpermissions]; exact hkeyed.owned

end AgentDb

/-- The columns of a permission that no update changes. -/
def ToolPermissionRecord.SameKeys (permission moved : ToolPermissionRecord) : Prop :=
  moved.id = permission.id ∧ moved.runId = permission.runId ∧
    moved.toolCallId = permission.toolCallId

section Updates

variable {db db' : AgentDb} {id : String} {current : AgentRunRecord}
  {runCond : AgentRunRecord → Bool} {runSet : AgentRunRecord → AgentRunRecord}
  {permCond : ToolPermissionRecord → Bool} {permSet : ToolPermissionRecord → ToolPermissionRecord}

theorem mem_update_keys {permissions : List ToolPermissionRecord} {moved : ToolPermissionRecord}
    (hset : ∀ permission, ToolPermissionRecord.SameKeys permission (permSet permission))
    (hmem : moved ∈ Rows.update permCond permSet permissions) :
    ∃ permission ∈ permissions, permission.SameKeys moved := by
  obtain ⟨old, hold, rfl⟩ := Rows.mem_update.mp hmem
  refine ⟨old, hold, ?_⟩
  split
  · exact hset old
  · exact ⟨rfl, rfl, rfl⟩

theorem WellKeyed.of_updates (hkeyed : db.WellKeyed)
    (hruns : db'.runs = Rows.update runCond runSet db.runs)
    (hpermissions : db'.permissions = Rows.update permCond permSet db.permissions)
    (hrunSet : ∀ run, (runSet run).id = run.id)
    (hpermSet : ∀ permission, ToolPermissionRecord.SameKeys permission (permSet permission)) :
    db'.WellKeyed where
  runs := by
    rw [hruns]
    exact hkeyed.runs.update hrunSet
  permissions := by
    rw [hpermissions]
    exact hkeyed.permissions.update fun permission => (hpermSet permission).1
  calls := by
    rw [hpermissions]
    refine hkeyed.calls.update fun permission => ?_
    rw [(hpermSet permission).2.1, (hpermSet permission).2.2]
  owned := by
    intro moved hmoved
    rw [hpermissions] at hmoved
    obtain ⟨permission, hpermission, -, hrunId, -⟩ := mem_update_keys hpermSet hmoved
    obtain ⟨run, hrun, hid⟩ := hkeyed.owned permission hpermission
    rw [hruns, hrunId, ← hid]
    by_cases hcond : runCond run = true
    · exact ⟨runSet run, Rows.mem_update_of_cond hrun hcond, hrunSet run⟩
    · exact ⟨run, Rows.mem_update_of_not hrun (by simpa using hcond), rfl⟩

theorem loadRun_update (hruns : db'.runs = Rows.update runCond runSet db.runs)
    (hrunSet : ∀ run, (runSet run).id = run.id) (hload : db.loadRun id = some current) :
    db'.loadRun id = some (if runCond current then runSet current else current) := by
  unfold AgentDb.loadRun at hload ⊢
  rw [hruns, Rows.find_update hrunSet, hload]
  rfl

theorem permissionsOf_update
    (hpermissions : db'.permissions = Rows.update permCond permSet db.permissions)
    (hpermSet : ∀ permission, ToolPermissionRecord.SameKeys permission (permSet permission))
    (runId : String) :
    db'.permissionsOf runId = Rows.update permCond permSet (db.permissionsOf runId) := by
  unfold AgentDb.permissionsOf
  rw [hpermissions, Rows.filter_update]
  intro permission
  rw [(hpermSet permission).2.1]

/-- Statements on one run leave the views of the others alone. -/
theorem view_update_other (hruns : db'.runs = Rows.update runCond runSet db.runs)
    (hpermissions : db'.permissions = Rows.update permCond permSet db.permissions)
    (hrunSet : ∀ run, (runSet run).id = run.id)
    (hpermSet : ∀ permission, ToolPermissionRecord.SameKeys permission (permSet permission))
    (hrunCond : ∀ run, runCond run = true → run.id = id)
    (hpermCond : ∀ permission ∈ db.permissions, permCond permission = true → permission.runId = id)
    {other : String} (hother : other ≠ id) : db'.view other = db.view other := by
  have hpermissionsOf : db'.permissionsOf other = db.permissionsOf other := by
    unfold AgentDb.permissionsOf
    rw [hpermissions]
    apply Rows.filter_update_of_disjoint
    · intro permission
      rw [(hpermSet permission).2.1]
    · intro permission hmem hcond
      have hrunId := hpermCond permission hmem hcond
      simp only [decide_eq_false_iff_not]
      intro heq
      exact hother (heq.symm.trans hrunId)
  cases hload : db.loadRun other with
  | none =>
    have hload' : db'.loadRun other = none := by
      unfold AgentDb.loadRun at hload ⊢
      rw [hruns, Rows.find_update hrunSet, hload]
      rfl
    rw [AgentDb.view_eq_none hload, AgentDb.view_eq_none hload']
  | some run =>
    have hid := (Rows.find_mem hload).2
    have hcond : runCond run ≠ true := fun hcond => hother (hid.symm.trans (hrunCond run hcond))
    have hload' := loadRun_update hruns hrunSet hload
    rw [if_neg hcond] at hload'
    rw [AgentDb.view_eq_some hload, AgentDb.view_eq_some hload', hpermissionsOf]

end Updates

/-- An operation on one run: its view makes one step, the other views stay. -/
structure StepsRun (op : AgentOp) (id : String) (db db' : AgentDb) : Prop where
  wellKeyed : db'.WellKeyed
  others : ∀ other, other ≠ id → db'.view other = db.view other
  step : ∃ before after, db.view id = some before ∧ db'.view id = some after ∧
    RunStep op before after
  messages : MessagesEffect op db db'.messages

theorem StepsRun.of_updates {op : AgentOp} {db db' : AgentDb} {id : String}
    {current : AgentRunRecord} {runCond : AgentRunRecord → Bool}
    {runSet : AgentRunRecord → AgentRunRecord} {permCond : ToolPermissionRecord → Bool}
    {permSet : ToolPermissionRecord → ToolPermissionRecord}
    (hkeyed : db.WellKeyed) (hload : db.loadRun id = some current)
    (hruns : db'.runs = Rows.update runCond runSet db.runs)
    (hpermissions : db'.permissions = Rows.update permCond permSet db.permissions)
    (hmessages : MessagesEffect op db db'.messages)
    (hrunSet : ∀ run, (runSet run).id = run.id)
    (hpermSet : ∀ permission, ToolPermissionRecord.SameKeys permission (permSet permission))
    (hrunCond : ∀ run, runCond run = true → run.id = id)
    (hpermCond : ∀ permission ∈ db.permissions, permCond permission = true → permission.runId = id)
    (hstep : RunStep op { run := current, permissions := db.permissionsOf id }
      { run := if runCond current then runSet current else current
        permissions := Rows.update permCond permSet (db.permissionsOf id) }) :
    StepsRun op id db db' where
  wellKeyed := WellKeyed.of_updates hkeyed hruns hpermissions hrunSet hpermSet
  others := fun _ hother =>
    view_update_other hruns hpermissions hrunSet hpermSet hrunCond hpermCond hother
  step := by
    refine ⟨_, _, AgentDb.view_eq_some hload,
      AgentDb.view_eq_some (loadRun_update hruns hrunSet hload), ?_⟩
    rw [permissionsOf_update hpermissions hpermSet]
    exact hstep
  messages := hmessages

theorem StepsRun.of_run_update {db db' : AgentDb} {id : String}
    {current : AgentRunRecord} {runCond : AgentRunRecord → Bool}
    {runSet : AgentRunRecord → AgentRunRecord} (hkeyed : db.WellKeyed)
    (hload : db.loadRun id = some current) (hrows : RunsUpdated runCond runSet middle db')
    (hruns : middle.runs = db.runs) (hpermissions : middle.permissions = db.permissions)
    (hmessages : MessagesEffect op db middle.messages) (hrunSet : ∀ run, (runSet run).id = run.id)
    (hrunCond : ∀ run, runCond run = true → run.id = id)
    (hstep : runCond current = true → RunStep op
      { run := current, permissions := db.permissionsOf id }
      { run := runSet current, permissions := db.permissionsOf id }) :
    StepsRun op id db db' := by
  have hcurrent := Rows.cond_of_changed hkeyed.runs hload hrunCond (hruns ▸ hrows.changed)
  have hnone : db'.permissions = Rows.update (fun _ => false) (fun row => row) db.permissions := by
    rw [hrows.permissions, hpermissions, Rows.update_eq_self fun _ _ => rfl]
  refine StepsRun.of_updates hkeyed hload (hruns ▸ hrows.runs) hnone
    (hrows.messages.symm ▸ hmessages) hrunSet (fun _ => ⟨rfl, rfl, rfl⟩) hrunCond (by simp) ?_
  rw [if_pos hcurrent, Rows.update_eq_self fun _ _ => rfl]
  exact hstep hcurrent

/-- An operation that rewrites the row of one run and revokes its active
permissions. -/
theorem StepsRun.of_run_update_revoke {db updated : AgentDb} {id : String}
    {current : AgentRunRecord} {runCond : AgentRunRecord → Bool}
    {runSet : AgentRunRecord → AgentRunRecord} (hkeyed : db.WellKeyed)
    (hload : db.loadRun id = some current) (hrows : RunsUpdated runCond runSet middle updated)
    (hruns : middle.runs = db.runs) (hpermissions : middle.permissions = db.permissions)
    (hmessages : MessagesEffect op db middle.messages) (hrunSet : ∀ run, (runSet run).id = run.id)
    (hrunCond : ∀ run, runCond run = true → run.id = id)
    (hstep : runCond current = true → RunStep op
      { run := current, permissions := db.permissionsOf id }
      { run := runSet current
        permissions := RunView.revoked { run := current, permissions := db.permissionsOf id }
          timestamp }) :
    StepsRun op id db (revokeActivePermissions id timestamp updated) := by
  have hcurrent := Rows.cond_of_changed hkeyed.runs hload hrunCond (hruns ▸ hrows.changed)
  have hrevokedRows : (revokeActivePermissions id timestamp updated).permissions = Rows.update
      (fun permission => permission.runId = id && permission.status.isActive)
      (fun permission => permission.advance .revoked timestamp) db.permissions := by
    rw [revokeActivePermissions, hrows.permissions, hpermissions]
  -- within the permissions of the run, the condition on the owner is vacuous
  have hrevoked : Rows.update
      (fun permission => permission.runId = id && permission.status.isActive)
      (fun permission => permission.advance .revoked timestamp) (db.permissionsOf id) =
      RunView.revoked { run := current, permissions := db.permissionsOf id } timestamp := by
    refine Rows.update_congr ?_ fun _ _ _ => rfl
    intro permission hmem
    have hrunId : permission.runId = id := by
      simpa [AgentDb.permissionsOf] using (List.mem_filter.mp hmem).2
    simp [hrunId]
  refine StepsRun.of_updates hkeyed hload (hruns ▸ hrows.runs) hrevokedRows
    (show MessagesEffect op db updated.messages from hrows.messages.symm ▸ hmessages) hrunSet (fun _ => ⟨rfl, rfl, rfl⟩) hrunCond ?_ ?_
  · intro permission _ hcond
    simp only [Bool.and_eq_true, decide_eq_true_eq] at hcond
    exact hcond.1
  · rw [if_pos hcurrent, hrevoked]
    exact hstep hcurrent

/-! ## Run transactions -/

/-- A run that was stepped is still there. -/
theorem StepsRun.loadRun {id : String} {db db' : AgentDb} (hsteps : StepsRun op id db db') :
    ∃ run, db'.loadRun id = some run := by
  obtain ⟨_, after, _, hafter, _⟩ := hsteps.step
  cases hload : db'.loadRun id with
  | none => simp [AgentDb.view_eq_none hload] at hafter
  | some run => exact ⟨run, rfl⟩

theorem readBack_of_some {α : Type} {value : Option α} {operation id : String}
    (hvalue : ∃ result, value = some result) : ∃ result, readBack value operation id = .ok result := by
  obtain ⟨result, rfl⟩ := hvalue
  exact ⟨result, rfl⟩

/-- A run in a final status goes nowhere. -/
theorem AgentRunStatus.active_of_canTransition {next : AgentRunStatus}
    (hcan : status.canTransitionTo next = true) : status.isActive = true := by
  cases status <;> cases next <;> simp_all [canTransitionTo, isTerminal, isActive]

theorem AgentRunStatus.running_of_canComplete (hcan : status.canTransitionTo .completed = true) :
    status = .running := by
  cases status <;> simp_all [canTransitionTo, isTerminal]

section RunTransactions

variable {json : JsonEngine} {env : CallEnv} {id : String} {expected : AgentRunStatus}
  {db db' : AgentDb}

/-- An accepted update is one step of its run. -/
theorem updateAgentRun_steps {update : AgentRunUpdate} {result : Except StorageError AgentRunRecord}
    (hkeyed : db.WellKeyed) (hop : updateAgentRun env id expected update db = .ok (result, db')) :
    StepsRun (.updateAgentRun env id expected update) id db db' ∧ ∃ value, result = .ok value := by
  unfold updateAgentRun validateRunUpdate at hop
  simp only [bind_eq_ok, rejectIf_eq_ok, orThrow_eq_ok, pure_eq_ok, exists_and_left, exists_const,
    Prod.mk.injEq, not_not] at hop
  obtain ⟨_, ⟨hterminal, _⟩, current, hload, hexpected, hfence, hstatus, _, hprogress, timestamp, _,
    _, _, updated, hupdate, rfl, rfl⟩ := hop
  have hrows := updateOneRun_ok hupdate
  have hsteps : StepsRun (.updateAgentRun env id expected update) id db updated := by
    refine StepsRun.of_run_update hkeyed hload hrows rfl rfl .unchanged (fun _ => rfl) ?_ ?_
    · intro run hcond
      simp only [Bool.and_eq_true, decide_eq_true_eq] at hcond
      exact hcond.1.1
    · intro hcond
      simp only [Bool.and_eq_true, decide_eq_true_eq, Bool.not_eq_true'] at hcond
      rw [← hstatus] at hterminal ⊢
      refine RunStep.updateAgentRun hstatus ?_ hcond.2 (by simpa using hfence)
        (validateOrdinaryProgress_ok hprogress)
      rw [AgentRunStatus.isActive_eq_not_isTerminal]
      simpa using hterminal
  exact ⟨hsteps, readBack_of_some hsteps.loadRun⟩

/-- The requested coverage is taken over, and exceeds every one that the session has recorded. -/
theorem compactionProgress_ok {current : AgentRunRecord} {requested : Option Nat} {count : Nat}
    {coverage : Option Nat}
    (hprogress : compactionProgress db current requested = .ok (count, coverage)) :
    coverage = requested.or current.compactedThroughOrdinal ∧
      ∀ bound ∈ requested, ∀ recorded ∈ db.sessionCoverage current.sessionId, recorded < bound := by
  cases requested with
  | none =>
    simp only [compactionProgress, Except.ok.injEq, Prod.mk.injEq] at hprogress
    simp [hprogress.2]
  | some bound =>
    simp only [compactionProgress, loadSessionCompactionCoverage, bind_eq_ok, rejectIf_eq_ok,
      orThrow_eq_ok, pure_eq_ok, exists_and_left, exists_const, Prod.mk.injEq] at hprogress
    obtain ⟨recorded, ⟨_, rfl⟩, hadvances, _, _, _, rfl⟩ := hprogress
    refine ⟨rfl, ?_⟩
    intro coverage hcoverage recorded hrecorded
    obtain rfl : bound = coverage := by simpa using hcoverage
    by_contra hge
    exact hadvances ⟨recorded, hrecorded, by omega⟩

/-- A compaction ends before the message that began the run. -/
theorem validateRunCompactionBoundary_ok {requested : Option Nat} {result : Unit}
    (hvalid : validateRunCompactionBoundary db id requested = .ok result) :
    ∀ bound ∈ requested, ∀ message ∈ db.initiatingMessages id, bound < message.ordinal := by
  cases requested with
  | none => simp
  | some bound =>
    simp only [validateRunCompactionBoundary, bind_eq_ok, rejectIf_eq_ok, orThrow_eq_ok,
      exists_and_left, exists_const] at hvalid
    obtain ⟨hone, ordinal, hordinal, hbefore⟩ := hvalid
    intro coverage hcoverage message hmessage
    obtain rfl : bound = coverage := by simpa using hcoverage
    have hleast := (List.min?_eq_some_iff.mp hordinal).2 message.ordinal
      (List.mem_map_of_mem hmessage)
    omega

/-- The checks a requested coverage passed against the tables. -/
structure CompactionAccepted (id : String) (input : CompactAgentRun) (db : AgentDb) : Prop where
  advances : ∀ run, db.loadRun id = some run → ∀ bound ∈ input.compaction.requestedCoverage,
    ∀ recorded ∈ db.sessionCoverage run.sessionId, recorded < bound
  boundary : ∀ bound ∈ input.compaction.requestedCoverage,
    ∀ message ∈ db.initiatingMessages id, bound < message.ordinal

/-- An accepted compaction is one step of its run. -/
theorem compactAgentRun_steps {input : CompactAgentRun}
    {result : Except StorageError CompactedAgentRun}
    (hkeyed : db.WellKeyed)
    (hop : compactAgentRun json env id expected input db = .ok (result, db')) :
    StepsRun (.compactAgentRun env id expected input) id db db' ∧ (∃ value, result = .ok value) ∧
      CompactionAccepted id input db := by
  unfold compactAgentRun at hop
  simp only [bind_eq_ok, rejectIf_eq_ok, orThrow_eq_ok, pure_eq_ok, exists_and_left, exists_const,
    Prod.mk.injEq, Prod.exists, not_not] at hop
  obtain ⟨hexpected, _, _, current, hload, hstatus, hcancel, hfence, _, count, coverage, hcompacted,
    _, hprogress, _, hboundary, timestamp, _, summary, middle, happend, _, _, updated, hupdate, rfl,
    rfl⟩ := hop
  obtain ⟨hcoverage, hadvances⟩ := compactionProgress_ok hcompacted
  have hrows := updateOneRun_ok hupdate
  obtain ⟨hruns, hpermissions, hmessages⟩ := appendSummary_tables happend
  refine ⟨?_, ⟨_, rfl⟩, ?_⟩
  · refine StepsRun.of_run_update hkeyed hload hrows hruns hpermissions hmessages (fun _ => rfl) ?_ ?_
    · intro run hcond
      simp only [Bool.and_eq_true, decide_eq_true_eq] at hcond
      exact hcond.1.1.1
    · intro _
      exact RunStep.compactAgentRun (hstatus.trans hexpected) (by simpa using hcancel)
        (by simpa using hfence) (validateRunProgress_ok hprogress) hcoverage
  · refine ⟨?_, validateRunCompactionBoundary_ok hboundary⟩
    intro run hrun
    obtain rfl := Option.some.inj (hload.symm.trans hrun)
    exact hadvances

/-- A completion is one step of its run. -/
theorem completeAgentRun_steps {input : CompleteAgentRun}
    {result : Except StorageError FinishedAgentRun} (hkeyed : db.WellKeyed)
    (hop : completeAgentRun json env id expected input db = .ok (result, db')) :
    StepsRun (.completeAgentRun env id expected input) id db db' ∧ ∃ value, result = .ok value := by
  unfold completeAgentRun at hop
  simp only [bind_eq_ok, rejectIf_eq_ok, orThrow_eq_ok, pure_eq_ok, exists_and_left, exists_const,
    Prod.mk.injEq, Prod.exists, not_not, not_or] at hop
  obtain ⟨_, _, normalized, hnormalized, current, hload, hexpected, ⟨hcancel, hfence, hcan⟩, _,
    hprogress, timestamp, _, records, middle, happend, final, _, _, _, updated, hupdate, rfl,
    rfl⟩ := hop
  have hrows := updateOneRun_ok hupdate
  obtain ⟨hruns, hpermissions, hmessages⟩ :=
    appendRunMessages_tables (normalizeAgentRunMessages_role hnormalized) happend
  have hsteps : StepsRun (.completeAgentRun env id expected input) id db
      (revokeActivePermissions id timestamp updated) := by
    refine StepsRun.of_run_update_revoke hkeyed hload hrows hruns hpermissions
      (.appended hmessages) (fun _ => rfl) ?_ ?_
    · intro run hcond
      simp only [Bool.and_eq_true, decide_eq_true_eq] at hcond
      exact hcond.1.1
    · intro _
      exact RunStep.completeAgentRun (AgentRunStatus.running_of_canComplete (by simpa using hcan))
        (by simpa using hcancel) (by simpa using hfence) (validateOrdinaryProgress_ok hprogress)
  obtain ⟨run, hrun⟩ := hsteps.loadRun
  refine ⟨hsteps, { run, messages := records }, ?_⟩
  rw [hrun]
  rfl

theorem failAgentRun_steps {input : FailAgentRun} {result : Except StorageError FinishedAgentRun}
    (hkeyed : db.WellKeyed)
    (hop : failAgentRun json env id expected input db = .ok (result, db')) :
    StepsRun (.failAgentRun env id expected input) id db db' ∧ ∃ value, result = .ok value := by
  unfold failAgentRun at hop
  simp only [bind_eq_ok, rejectIf_eq_ok, orThrow_eq_ok, pure_eq_ok, exists_and_left, exists_const,
    Prod.mk.injEq, Prod.exists, not_not, not_or] at hop
  obtain ⟨_, _, _, _, normalized, hnormalized, current, hload, hexpected,
    ⟨hcancel, hfence, hcan⟩, _, hprogress, timestamp, _, records, middle, happend, _, _, updated,
    hupdate, rfl, rfl⟩ := hop
  have hrows := updateOneRun_ok hupdate
  obtain ⟨hruns, hpermissions, hmessages⟩ :=
    appendRunMessages_tables (normalizeAgentRunMessages_role hnormalized) happend
  have hsteps : StepsRun (.failAgentRun env id expected input) id db
      (revokeActivePermissions id timestamp updated) := by
    refine StepsRun.of_run_update_revoke hkeyed hload hrows hruns hpermissions
      (.appended hmessages) (fun _ => rfl) ?_ ?_
    · intro run hcond
      simp only [Bool.and_eq_true, decide_eq_true_eq] at hcond
      exact hcond.1.1.1
    · intro _
      exact RunStep.failAgentRun (AgentRunStatus.active_of_canTransition (by simpa using hcan))
        (by simpa using hcancel) (by simpa using hfence) (validateOrdinaryProgress_ok hprogress)
  obtain ⟨run, hrun⟩ := hsteps.loadRun
  refine ⟨hsteps, { run, messages := records }, ?_⟩
  rw [hrun]
  rfl

/-- A cancellation changes nothing, or is one step of its run. -/
theorem requestAgentRunCancellation_steps {result : Except StorageError AgentRunRecord}
    (hkeyed : db.WellKeyed) (hop : requestAgentRunCancellation env id db = .ok (result, db')) :
    (db' = db ∨ StepsRun (.requestAgentRunCancellation env id) id db db') ∧
      ∃ value, result = .ok value := by
  unfold requestAgentRunCancellation at hop
  simp only [bind_eq_ok, orThrow_eq_ok] at hop
  obtain ⟨current, hload, hop⟩ := hop
  split at hop
  · simp only [pure_eq_ok, Prod.mk.injEq] at hop
    obtain ⟨rfl, rfl⟩ := hop
    exact ⟨.inl rfl, current, rfl⟩
  · rename_i hlive
    simp only [not_or] at hlive
    simp only [bind_eq_ok, pure_eq_ok, Prod.mk.injEq] at hop
    obtain ⟨timestamp, _, updated, hupdate, rfl, rfl⟩ := hop
    have hactive : current.status.isActive = true := by
      rw [AgentRunStatus.isActive_eq_not_isTerminal]
      simpa using hlive.1
    have hsteps : StepsRun (.requestAgentRunCancellation env id) id db
        (revokeActivePermissions id timestamp updated) := by
      refine StepsRun.of_run_update_revoke hkeyed hload (updateOneRun_ok hupdate) rfl rfl
        .unchanged (fun _ => rfl) ?_ ?_
      · intro run hcond
        simp only [Bool.and_eq_true, decide_eq_true_eq] at hcond
        exact hcond.1
      · intro _
        have hresumed : (if current.status = .waitingPermission then AgentRunStatus.running
            else current.status) = .running := by
          cases hstatus : current.status <;> simp_all [AgentRunStatus.isActive]
        rw [hresumed]
        exact RunStep.requestAgentRunCancellation hactive (by simpa using hlive.2)
    exact ⟨.inr hsteps, readBack_of_some hsteps.loadRun⟩

theorem finishCancelledAgentRun_steps {input : CancelAgentRun}
    {result : Except StorageError FinishedAgentRun} (hkeyed : db.WellKeyed)
    (hop : finishCancelledAgentRun json env id expected input db = .ok (result, db')) :
    StepsRun (.finishCancelledAgentRun env id expected input) id db db' ∧
      ∃ value, result = .ok value := by
  unfold finishCancelledAgentRun at hop
  simp only [bind_eq_ok, rejectIf_eq_ok, orThrow_eq_ok, pure_eq_ok, exists_and_left, exists_const,
    Prod.mk.injEq, Prod.exists, not_not, not_or] at hop
  obtain ⟨_, _, normalized, hnormalized, current, hload, hexpected, ⟨hcancel, hfence, hterminal⟩, _,
    hprogress, timestamp, _, records, middle, happend, _, _, updated, hupdate, rfl, rfl⟩ := hop
  obtain ⟨hruns, hpermissions, hmessages⟩ :=
    appendRunMessages_tables (normalizeAgentRunMessages_role hnormalized) happend
  have hsteps : StepsRun (.finishCancelledAgentRun env id expected input) id db updated := by
    refine StepsRun.of_run_update hkeyed hload (updateOneRun_ok hupdate) hruns hpermissions
      (.appended hmessages) (fun _ => rfl) ?_ ?_
    · intro run hcond
      simp only [Bool.and_eq_true, decide_eq_true_eq] at hcond
      exact hcond.1.1.1
    · intro _
      refine RunStep.finishCancelledAgentRun ?_ (by simpa using hcancel) (by simpa using hfence)
        (validateOrdinaryProgress_ok hprogress)
      rw [AgentRunStatus.isActive_eq_not_isTerminal]
      simpa using hterminal
  obtain ⟨run, hrun⟩ := hsteps.loadRun
  refine ⟨hsteps, { run, messages := records }, ?_⟩
  rw [hrun]
  rfl

/-- Settling a write is the step that takes the fence away. -/
theorem settleAgentWrite_steps {toolCallId : String} {digest : Sha256}
    {result : Except StorageError AgentRunRecord} (hkeyed : db.WellKeyed)
    (hop : settleAgentWrite env id toolCallId digest db = .ok (result, db')) :
    StepsRun (.settleAgentWrite env id toolCallId digest) id db db' ∧
      ∃ value, result = .ok value := by
  unfold settleAgentWrite at hop
  simp only [bind_eq_ok, rejectIf_eq_ok, orThrow_eq_ok, pure_eq_ok, exists_and_left, exists_const,
    Prod.mk.injEq, not_not, not_or] at hop
  obtain ⟨current, hload, ⟨hstatus, hcall, hdigest⟩, timestamp, _, updated, hupdate, rfl, rfl⟩ := hop
  have hsteps : StepsRun (.settleAgentWrite env id toolCallId digest) id db updated := by
    refine StepsRun.of_run_update hkeyed hload (updateOneRun_ok hupdate) rfl rfl .unchanged
      (fun _ => rfl) ?_ ?_
    · intro run hcond
      simp only [Bool.and_eq_true, decide_eq_true_eq] at hcond
      exact hcond.1.1
    · intro _
      exact RunStep.settleAgentWrite hstatus hcall hdigest
  exact ⟨hsteps, readBack_of_some hsteps.loadRun⟩

theorem failAgentWriteOutcomeUnknown_steps {toolCallId : String} {digest : Sha256}
    {input : UnknownAgentWrite} {result : Except StorageError FinishedAgentRun}
    (hkeyed : db.WellKeyed)
    (hop : failAgentWriteOutcomeUnknown json env id toolCallId digest input db =
      .ok (result, db')) :
    StepsRun (.failAgentWriteOutcomeUnknown env id toolCallId digest input) id db db' ∧
      ∃ value, result = .ok value := by
  unfold failAgentWriteOutcomeUnknown at hop
  simp only [bind_eq_ok, rejectIf_eq_ok, orThrow_eq_ok, pure_eq_ok, exists_and_left, exists_const,
    Prod.mk.injEq, Prod.exists, not_not, not_or] at hop
  obtain ⟨_, _, normalized, hnormalized, current, hload, ⟨hstatus, hcall, hdigest⟩, _, hprogress,
    timestamp, _, records, middle, happend, _, _, updated, hupdate, rfl, rfl⟩ := hop
  obtain ⟨hruns, hpermissions, hmessages⟩ :=
    appendRunMessages_tables (normalizeAgentRunMessages_role hnormalized) happend
  have hsteps : StepsRun (.failAgentWriteOutcomeUnknown env id toolCallId digest input) id db
      updated := by
    refine StepsRun.of_run_update hkeyed hload (updateOneRun_ok hupdate) hruns hpermissions
      (.appended hmessages) (fun _ => rfl) ?_ ?_
    · intro run hcond
      simp only [Bool.and_eq_true, decide_eq_true_eq] at hcond
      exact hcond.1.1.1
    · intro _
      exact RunStep.failAgentWriteOutcomeUnknown hstatus hcall hdigest
        (validateOrdinaryProgress_ok hprogress)
  obtain ⟨run, hrun⟩ := hsteps.loadRun
  refine ⟨hsteps, { run, messages := records }, ?_⟩
  rw [hrun]
  rfl

end RunTransactions

/-! ## Permission transactions -/

/-- The permission that is decided is the one with this revision, run, call and digest. -/
theorem loadBoundPermission_ok {id : String} {revision : Nat} {runId toolCallId : String}
    {digest : Sha256} {db : AgentDb} {current : ToolPermissionRecord}
    (hload : loadBoundPermission id revision runId toolCallId digest db = .ok current) :
    db.loadPermission id = some current ∧ current.revision = revision ∧ current.runId = runId ∧
      current.toolCallId = toolCallId ∧ current.argumentsSha256 = digest := by
  unfold loadBoundPermission at hload
  simp only [bind_eq_ok, rejectIf_eq_ok, orThrow_eq_ok, pure_eq_ok, exists_and_left, exists_const,
    not_or, not_not] at hload
  obtain ⟨_, hfind, hrevision, hbinding, rfl⟩ := hload
  exact ⟨hfind, hrevision, hbinding⟩

theorem AgentDb.mem_permissionsOf {db : AgentDb} {runId : String} :
    permission ∈ db.permissionsOf runId ↔ permission ∈ db.permissions ∧ permission.runId = runId := by
  simp [AgentDb.permissionsOf]

/-- An update with the key of a permission meets that permission alone. -/
theorem AgentDb.WellKeyed.update_permission {db : AgentDb} (hkeyed : db.WellKeyed)
    {current : ToolPermissionRecord} (hcurrent : current ∈ db.permissions)
    {cond : ToolPermissionRecord → Bool} {set : ToolPermissionRecord → ToolPermissionRecord}
    (hcond : cond current = true)
    (hid : ∀ permission, cond permission = true → permission.id = current.id) :
    Rows.update cond set (db.permissionsOf current.runId) =
      Rows.replace current (set current) (db.permissionsOf current.runId) := by
  refine Rows.update_eq_replace (hkeyed.permissions.filter _)
    (AgentDb.mem_permissionsOf.mpr ⟨hcurrent, rfl⟩) hcond ?_
  intro permission _ hpermission
  exact hid permission hpermission

theorem AgentDb.WellKeyed.owner_of_cond {db : AgentDb} (hkeyed : db.WellKeyed)
    {current : ToolPermissionRecord} (hcurrent : current ∈ db.permissions)
    {cond : ToolPermissionRecord → Bool}
    (hid : ∀ permission, cond permission = true → permission.id = current.id) :
    ∀ permission ∈ db.permissions, cond permission = true → permission.runId = current.runId := by
  intro permission hpermission hcond
  rw [hkeyed.permissions.eq_of_key_eq hpermission hcurrent (hid permission hcond)]

/-- An operation that moves one permission and then rewrites the row of its
run. -/
theorem StepsRun.of_permission_update {db db' : AgentDb} {current : ToolPermissionRecord}
    {runCond : AgentRunRecord → Bool} {runSet : AgentRunRecord → AgentRunRecord}
    {permCond : ToolPermissionRecord → Bool}
    {permSet : ToolPermissionRecord → ToolPermissionRecord} (hkeyed : db.WellKeyed)
    (hload : db.loadRun current.runId = some run) (hcurrent : current ∈ db.permissions)
    (hpermissions : middle.permissions = Rows.update permCond permSet db.permissions)
    (hruns : middle.runs = db.runs) (hmessages : middle.messages = db.messages)
    (hrows : RunsUpdated runCond runSet middle db')
    (hpermSet : ∀ permission, ToolPermissionRecord.SameKeys permission (permSet permission))
    (hpermCond : permCond current = true)
    (hpermId : ∀ permission, permCond permission = true → permission.id = current.id)
    (hrunSet : ∀ row, (runSet row).id = row.id)
    (hrunCond : ∀ row, runCond row = true → row.id = current.runId)
    (hstep : runCond run = true → current ∈ db.permissionsOf current.runId → RunStep op
      { run, permissions := db.permissionsOf current.runId }
      { run := runSet run
        permissions := Rows.replace current (permSet current) (db.permissionsOf current.runId) }) :
    StepsRun op current.runId db db' := by
  have hrun := Rows.cond_of_changed hkeyed.runs hload hrunCond (hruns ▸ hrows.changed)
  refine StepsRun.of_updates hkeyed hload (hruns ▸ hrows.runs)
    (hrows.permissions.trans hpermissions) ((hrows.messages.trans hmessages).symm ▸ .unchanged)
    hrunSet hpermSet hrunCond (hkeyed.owner_of_cond hcurrent hpermId) ?_
  rw [if_pos hrun, hkeyed.update_permission hcurrent hpermCond hpermId]
  exact hstep hrun (AgentDb.mem_permissionsOf.mpr ⟨hcurrent, rfl⟩)

/-- The run of a decided permission goes on, if it still waits. -/
theorem resumeWaitingRun_ok {runId : String} {lastSequence : Nat}
    {error : StorageError} {db db' : AgentDb}
    (hresume : resumeWaitingRun runId status lastSequence timestamp error db = .ok db') :
    RunsUpdated
      (fun run => run.id = runId && run.status = .waitingPermission && !run.cancelRequested &&
        run.lastSequence < lastSequence && run.writeInFlightToolCallId.isNone)
      (fun run => { run with status, lastSequence, updatedAtMs := timestamp }) db db' := by
  unfold resumeWaitingRun toSqlI64 at hresume
  simp only [bind_eq_ok, rejectIf_eq_ok, exists_and_left, exists_const] at hresume
  exact updateOneRun_ok hresume.2

theorem resumeWaitingRun_cond {runId : String} {lastSequence : Nat}
    (hcond : (decide (run.id = runId) && decide (run.status = .waitingPermission) &&
      !run.cancelRequested && decide (run.lastSequence < lastSequence) &&
      run.writeInFlightToolCallId.isNone) = true) :
    run.id = runId ∧ run.status = .waitingPermission ∧ run.cancelRequested = false ∧
      run.lastSequence < lastSequence ∧ run.writeInFlightToolCallId = none := by
  simpa [and_assoc] using hcond

/-- An expiry meets one active permission. -/
theorem expirePermission_ok {current : ToolPermissionRecord} {db db' : AgentDb}
    (hactive : current.status.isActive = true)
    (hexpire : expirePermission current timestamp db = .ok db') :
    db'.permissions = Rows.update
      (fun permission => permission.id = current.id && permission.revision = current.revision &&
        permission.status.isActive)
      (fun permission => permission.advance .expired timestamp) db.permissions ∧
    db'.runs = db.runs ∧ db'.messages = db.messages ∧ db'.sessions = db.sessions := by
  unfold expirePermission toSqlI64 at hexpire
  rw [if_pos hactive] at hexpire
  simp only [bind_eq_ok, rejectIf_eq_ok, pure_eq_ok, exists_and_left, exists_const] at hexpire
  obtain ⟨_, rfl⟩ := hexpire
  exact ⟨rfl, rfl, rfl, rfl⟩

section PermissionTransactions

variable {env : CallEnv} {id runId toolCallId : String} {revision lastSequence : Nat}
  {digest : Sha256} {db db' : AgentDb} {result : Except StorageError ToolPermissionRecord}

theorem loadPermission_of_updates {current : ToolPermissionRecord}
    {permCond : ToolPermissionRecord → Bool}
    {permSet : ToolPermissionRecord → ToolPermissionRecord}
    (hload : db.loadPermission id = some current)
    (hpermissions : db'.permissions = Rows.update permCond permSet db.permissions)
    (hpermSet : ∀ permission, ToolPermissionRecord.SameKeys permission (permSet permission)) :
    ∃ permission, db'.loadPermission id = some permission := by
  unfold AgentDb.loadPermission at hload ⊢
  rw [hpermissions, Rows.find_update fun permission => (hpermSet permission).1, hload]
  exact ⟨_, rfl⟩

/-- A decision is one step of the run that waits for it, or expires the permission. -/
theorem decideToolPermission_steps {decision : ToolPermissionDecision} (hkeyed : db.WellKeyed)
    (hop : decideToolPermission env id revision runId toolCallId digest lastSequence decision db =
      .ok (result, db')) :
    StepsRun (.decideToolPermission env id revision runId toolCallId digest lastSequence decision)
      runId db db' ∧ ∃ value, result = .ok value := by
  unfold decideToolPermission at hop
  simp only [bind_eq_ok, rejectIf_eq_ok, orThrow_eq_ok, exists_and_left, exists_const,
    not_not, not_or] at hop
  obtain ⟨current, hbound, hpending, run, hload, _, _, timestamp, _, hop⟩ := hop
  obtain ⟨hfind, hrevision, rfl, hcall, hdigest⟩ := loadBoundPermission_ok hbound
  obtain ⟨hcurrent, hid⟩ := Rows.find_mem hfind
  have hactive := ToolPermissionStatus.isActive_pending hpending
  split at hop
  · -- the permission is found expired: it is recorded so and the run resumes
    simp only [bind_eq_ok, pure_eq_ok, Prod.mk.injEq] at hop
    obtain ⟨expired, hexpire, resumed, hresume, rfl, rfl⟩ := hop
    obtain ⟨hpermissions, hruns, hmessages, -⟩ := expirePermission_ok hactive hexpire
    have hrows := resumeWaitingRun_ok hresume
    constructor
    · refine StepsRun.of_permission_update hkeyed hload hcurrent hpermissions hruns hmessages hrows
        (fun _ => ⟨rfl, rfl, rfl⟩) (by simp [hactive]) ?_ (fun _ => rfl) ?_ ?_
      · intro permission hcond
        simp only [Bool.and_eq_true, decide_eq_true_eq] at hcond
        exact hcond.1.1
      · intro row hcond
        exact (resumeWaitingRun_cond hcond).1
      · intro hcond hmem
        obtain ⟨_, hstatus, hcancel, hsequence, hfence⟩ := resumeWaitingRun_cond hcond
        exact RunStep.decideExpired hstatus hcancel hfence hsequence hmem hactive
          ⟨rfl, rfl, rfl, rfl, rfl, rfl⟩
    · exact readBack_of_some (loadPermission_of_updates hfind
        (hrows.permissions.trans hpermissions) fun _ => ⟨rfl, rfl, rfl⟩)
  · simp only [toSqlI64, bind_eq_ok, rejectIf_eq_ok, orThrow_eq_ok, pure_eq_ok, exists_and_left,
      exists_const, Prod.mk.injEq] at hop
    obtain ⟨next, _, _, _, decided, hdecide, resumed, hresume, permission, _, rfl, rfl⟩ := hop
    have hmoved := updateOnePermission_ok hdecide
    refine ⟨?_, permission, rfl⟩
    refine StepsRun.of_permission_update hkeyed hload hcurrent hmoved.permissions hmoved.runs
      hmoved.messages (resumeWaitingRun_ok hresume) (fun _ => ⟨rfl, rfl, rfl⟩)
      (by simp [hid, hrevision, hpending, hcall, hdigest]) ?_ (fun _ => rfl) ?_ ?_
    · intro permission hcond
      simp only [Bool.and_eq_true, decide_eq_true_eq] at hcond
      rw [hcond.1.1.1.1.1, hid]
    · intro row hcond
      exact (resumeWaitingRun_cond hcond).1
    · intro hcond hmem
      obtain ⟨_, hstatus, hcancel, hsequence, hfence⟩ := resumeWaitingRun_cond hcond
      exact RunStep.decideToolPermission hstatus hcancel hfence hsequence hmem
        ⟨hid, rfl, hcall, hdigest⟩ hpending ⟨rfl, rfl, rfl, rfl, rfl, rfl⟩

/-- Abandonment, for the operation whose steps are the retirement to `status`. -/
theorem abandonToolPermission_steps {status : ToolPermissionStatus}
    (hlabel : ∀ {view : RunView} {timestamp : Int} {permission moved : ToolPermissionRecord},
      view.run.status = .waitingPermission → view.run.cancelRequested = false →
      view.run.writeInFlightToolCallId = none → view.run.lastSequence < lastSequence →
      permission ∈ view.permissions → permission.status.isActive = true →
      permission.Becomes moved status →
      RunStep op view
        { run := { view.run with status := .running, lastSequence, updatedAtMs := timestamp }
          permissions := Rows.replace permission moved view.permissions }) (hkeyed : db.WellKeyed)
    (hop : abandonToolPermission env id revision runId toolCallId digest lastSequence status db =
      .ok (result, db')) :
    StepsRun op runId db db' ∧ ∃ value, result = .ok value := by
  unfold abandonToolPermission toSqlI64 at hop
  simp only [bind_eq_ok, rejectIf_eq_ok, orThrow_eq_ok, pure_eq_ok, exists_and_left, exists_const,
    Prod.mk.injEq] at hop
  obtain ⟨_, current, hbound, hactive, run, hload, _, timestamp, _, _, next, _, _, _, abandoned,
    habandon, resumed, hresume, rfl, rfl⟩ := hop
  obtain ⟨hfind, hrevision, rfl, hcall, hdigest⟩ := loadBoundPermission_ok hbound
  obtain ⟨hcurrent, hid⟩ := Rows.find_mem hfind
  simp only [Bool.not_eq_false] at hactive
  have hmoved := updateOnePermission_ok habandon
  have hrows := resumeWaitingRun_ok hresume
  constructor
  · refine StepsRun.of_permission_update hkeyed hload hcurrent hmoved.permissions hmoved.runs
      hmoved.messages hrows
      (fun _ => ⟨rfl, rfl, rfl⟩) (by simp [hid, hrevision, hactive, hcall, hdigest]) ?_
      (fun _ => rfl) ?_ ?_
    · intro permission hcond
      simp only [Bool.and_eq_true, decide_eq_true_eq] at hcond
      rw [hcond.1.1.1.1.1, hid]
    · intro row hcond
      exact (resumeWaitingRun_cond hcond).1
    · intro hcond hmem
      obtain ⟨_, hstatus, hcancel, hsequence, hfence⟩ := resumeWaitingRun_cond hcond
      exact hlabel hstatus hcancel hfence hsequence hmem hactive ⟨rfl, rfl, rfl, rfl, rfl, rfl⟩
  · exact readBack_of_some (loadPermission_of_updates hfind
      (hrows.permissions.trans hmoved.permissions) fun _ => ⟨rfl, rfl, rfl⟩)

theorem expireToolPermission_steps (hkeyed : db.WellKeyed)
    (hop : expireToolPermission env id revision runId toolCallId digest lastSequence db =
      .ok (result, db')) :
    StepsRun (.expireToolPermission env id revision runId toolCallId digest lastSequence)
      runId db db' ∧ ∃ value, result = .ok value :=
  abandonToolPermission_steps RunStep.expireToolPermission hkeyed hop

theorem revokeToolPermission_steps (hkeyed : db.WellKeyed)
    (hop : revokeToolPermission env id revision runId toolCallId digest lastSequence db =
      .ok (result, db')) :
    StepsRun (.revokeToolPermission env id revision runId toolCallId digest lastSequence)
      runId db db' ∧ ∃ value, result = .ok value :=
  abandonToolPermission_steps RunStep.revokeToolPermission hkeyed hop

theorem AgentDb.WellKeyed.loadRun_owner (hkeyed : db.WellKeyed)
    (hmem : permission ∈ db.permissions) :
    ∃ run, db.loadRun permission.runId = some run := by
  obtain ⟨run, hrun, hid⟩ := hkeyed.owned permission hmem
  rw [← hid]
  exact ⟨run, hkeyed.runs.find_of_mem hrun⟩

/-- The tables after an approval was found expired when it was to be used. -/
structure ConsumedExpired (runId : String) (permission : ToolPermissionRecord) (timestamp : Int)
    (db db' : AgentDb) : Prop where
  mem : permission ∈ db.permissions
  owner : permission.runId = runId
  approved : permission.status = .approved
  dead : permission.expiresAtMs ≤ timestamp
  permissions : db'.permissions =
    Rows.replace permission (permission.advance .expired timestamp) db.permissions
  runs : db'.runs = Rows.update
    (fun run => run.id = runId && run.status = .waitingPermission)
    (fun run => { run with status := .running, updatedAtMs := timestamp }) db.runs
  messages : db'.messages = db.messages
  sessions : db'.sessions = db.sessions

/-- An approved permission before, and the same permission consumed after. -/
structure PermissionConsumed (id runId toolCallId : String) (db db' : AgentDb) : Prop where
  before : ∃ permission ∈ db.permissions, permission.id = id ∧ permission.runId = runId ∧
    permission.toolCallId = toolCallId ∧ permission.status = .approved
  after : ∃ permission ∈ db'.permissions, permission.id = id ∧ permission.runId = runId ∧
    permission.toolCallId = toolCallId ∧ permission.status = .consumed

/-- The committed outcomes of a consume: the approval is used and the fence is
installed, or it is recorded as expired and the call reports that. -/
theorem consumeToolPermission_steps (hkeyed : db.WellKeyed)
    (hop : consumeToolPermission env id revision runId toolCallId digest lastSequence db =
      .ok (result, db')) :
    StepsRun (.consumeToolPermission env id revision runId toolCallId digest lastSequence)
      runId db db' ∧
      (((∃ value, result = .ok value) ∧ PermissionConsumed id runId toolCallId db db') ∨
        (result = .error (.permissionNotExecutable id "permission expired") ∧
          ∃ timestamp permission, env.clock = .ok timestamp ∧ permission.id = id ∧
            ConsumedExpired runId permission timestamp db db')) := by
  unfold consumeToolPermission at hop
  simp only [bind_eq_ok, rejectIf_eq_ok, exists_and_left, exists_const, not_not] at hop
  obtain ⟨timestamp, hclock, current, hbound, happroved, hop⟩ := hop
  obtain ⟨hfind, hrevision, rfl, hcall, hdigest⟩ := loadBoundPermission_ok hbound
  obtain ⟨hcurrent, hid⟩ := Rows.find_mem hfind
  have hactive := ToolPermissionStatus.isActive_approved happroved
  split at hop
  · -- found expired: committed as such although the call fails
    rename_i hdead
    simp only [bind_eq_ok, pure_eq_ok, Prod.mk.injEq] at hop
    obtain ⟨expired, hexpire, rfl, rfl⟩ := hop
    obtain ⟨hpermissions, hruns, hmessages, hsessions⟩ := expirePermission_ok hactive hexpire
    obtain ⟨run, hload⟩ := hkeyed.loadRun_owner hcurrent
    have hpermId : ∀ permission : ToolPermissionRecord,
        (decide (permission.id = current.id) && decide (permission.revision = current.revision) &&
          permission.status.isActive) = true → permission.id = current.id := by
      intro permission hcond
      simp only [Bool.and_eq_true, decide_eq_true_eq] at hcond
      exact hcond.1.1
    have hreplaced : Rows.update
        (fun permission => permission.id = current.id && permission.revision = current.revision &&
          permission.status.isActive)
        (fun permission => permission.advance .expired timestamp) db.permissions =
        Rows.replace current (current.advance .expired timestamp) db.permissions :=
      Rows.update_eq_replace hkeyed.permissions hcurrent (by simp [hactive])
        fun permission _ => hpermId permission
    rw [hruns]
    refine ⟨?_, .inr ⟨rfl, timestamp, current, hclock, hid,
      { mem := hcurrent, owner := rfl, approved := happroved, dead := hdead
        permissions := hpermissions.trans hreplaced, runs := rfl, messages := hmessages
        sessions := hsessions }⟩⟩
    refine StepsRun.of_updates hkeyed hload rfl hpermissions
      (show MessagesEffect _ db expired.messages from hmessages.symm ▸ .unchanged) (fun _ => rfl)
      (fun _ => ⟨rfl, rfl, rfl⟩) ?_ (hkeyed.owner_of_cond hcurrent hpermId) ?_
    · intro row hcond
      simp only [Bool.and_eq_true, decide_eq_true_eq] at hcond
      exact hcond.1
    · rw [hkeyed.update_permission hcurrent (by simp [hactive]) hpermId]
      have hrunId : run.id = current.runId := (Rows.find_mem hload).2
      have hbecomes : current.Becomes (current.advance .expired timestamp) .expired :=
        ⟨rfl, rfl, rfl, rfl, rfl, rfl⟩
      have hrow : (if (decide (run.id = current.runId) &&
            decide (run.status = .waitingPermission)) = true then
            { run with status := .running, updatedAtMs := timestamp } else run) =
          (if run.status = .waitingPermission then
            { run with status := .running, updatedAtMs := timestamp } else run) := by
        simp [hrunId]
      rw [hrow]
      exact RunStep.consumeExpired (AgentDb.mem_permissionsOf.mpr ⟨hcurrent, rfl⟩) happroved hdead
        hbecomes
  · rename_i hlive
    simp only [toSqlI64, bind_eq_ok, rejectIf_eq_ok, orThrow_eq_ok, pure_eq_ok, exists_and_left,
      exists_const, not_not, not_or, Prod.mk.injEq] at hop
    obtain ⟨run, hload, ⟨_, _, hmode, _⟩, _, next, _, _, _, consumed, hconsume, _, fenced, hfenced,
      rfl, rfl⟩ := hop
    have hmoved := updateOnePermission_ok hconsume
    have hrows := updateOneRun_ok hfenced
    have hcond := Rows.cond_of_changed hkeyed.permissions hfind (by
      intro permission hcond
      simp only [Bool.and_eq_true, decide_eq_true_eq] at hcond
      exact hcond.1.1.1.1.1.1.1) hmoved.changed
    have hpermissions := hrows.permissions.trans hmoved.permissions
    have hused : PermissionConsumed id current.runId toolCallId db fenced := by
      constructor
      · exact ⟨current, hcurrent, hid, rfl, hcall, happroved⟩
      · rw [hpermissions]
        exact ⟨_, Rows.mem_update_of_cond hcurrent hcond, hid, rfl, hcall, rfl⟩
    refine ⟨?_, .inl ⟨readBack_of_some (loadPermission_of_updates hfind hpermissions
      fun _ => ⟨rfl, rfl, rfl⟩), hused⟩⟩
    refine StepsRun.of_permission_update hkeyed hload hcurrent hmoved.permissions hmoved.runs
      hmoved.messages hrows
      (fun _ => ⟨rfl, rfl, rfl⟩) hcond ?_ (fun _ => rfl) ?_ ?_
    · intro permission hcond
      simp only [Bool.and_eq_true, decide_eq_true_eq] at hcond
      rw [hcond.1.1.1.1.1.1.1, hid]
    · intro row hcond
      exact (resumeWaitingRun_cond hcond).1
    · intro hcond hmem
      obtain ⟨_, hstatus, hcancel, hsequence, hfence⟩ := resumeWaitingRun_cond hcond
      exact RunStep.consumeToolPermission hclock hstatus hcancel hmode hfence hsequence hmem
        ⟨hid, rfl, hcall, hdigest⟩ happroved (by omega) ⟨rfl, rfl, rfl, rfl, rfl, rfl⟩

theorem insertPermission_ok (hinsert : insertPermission permission db = .ok db') :
    db' = { db with permissions := db.permissions ++ [permission] } ∧
      (∀ stored ∈ db.permissions, stored.id ≠ permission.id) ∧
      (∀ stored ∈ db.permissions,
        (stored.runId, stored.toolCallId) ≠ (permission.runId, permission.toolCallId)) := by
  unfold insertPermission at hinsert
  simp only [bind_eq_ok, rejectIf_eq_ok, pure_eq_ok, exists_and_left, exists_const] at hinsert
  obtain ⟨hid, hcall, _, rfl⟩ := hinsert
  refine ⟨rfl, ?_, ?_⟩
  · simpa using hid
  · intro stored hstored heq
    simp only [Prod.mk.injEq] at heq
    refine hcall (List.any_eq_true.mpr ⟨stored, hstored, ?_⟩)
    simp [heq.1, heq.2]

/-- A permission with a fresh id for a fresh call keeps the tables keyed. -/
theorem AgentDb.WellKeyed.append_permission (hkeyed : db.WellKeyed)
    (hfreshId : ∀ stored ∈ db.permissions, stored.id ≠ permission.id)
    (hfreshCall : ∀ stored ∈ db.permissions,
      (stored.runId, stored.toolCallId) ≠ (permission.runId, permission.toolCallId))
    (howner : ∃ run ∈ db.runs, run.id = permission.runId) :
    AgentDb.WellKeyed { db with permissions := db.permissions ++ [permission] } where
  runs := hkeyed.runs
  permissions := hkeyed.permissions.append_singleton hfreshId
  calls := hkeyed.calls.append_singleton hfreshCall
  owned := by
    intro stored hstored
    rcases List.mem_append.mp hstored with hold | hnew
    · exact hkeyed.owned stored hold
    · rw [List.mem_singleton.mp hnew]
      exact howner

theorem AgentDb.view_append_permission {other : String} (hother : other ≠ permission.runId) :
    AgentDb.view { db with permissions := db.permissions ++ [permission] } other =
      db.view other := by
  unfold AgentDb.view AgentDb.loadRun AgentDb.permissionsOf
  simp [hother.symm]

/-- A request makes the running run wait for the new permission. -/
theorem createToolPermissionAt_steps {input : RequestToolPermission}
    {expiresAtMs : Int} (hkeyed : db.WellKeyed)
    (hop : createToolPermissionAt env runId input timestamp expiresAtMs db = .ok (result, db')) :
    StepsRun (.createToolPermission env runId input) runId db db' ∧ ∃ value, result = .ok value := by
  unfold createToolPermissionAt at hop
  simp only [bind_eq_ok, rejectIf_eq_ok, orThrow_eq_ok, pure_eq_ok, exists_and_left, exists_const,
    Prod.mk.injEq, not_not, not_or] at hop
  obtain ⟨_, _, _, _, _, _, run, hload, ⟨hcancel, hstatus, hmode, hfence⟩, _, _, hprogress, inserted,
    hinsert, _, _, updated, hupdate, rfl, rfl⟩ := hop
  obtain ⟨hinserted, hfreshId, hfreshCall⟩ := insertPermission_ok hinsert
  have hrows := updateOneRun_ok hupdate
  have hrunCond : ∀ row : AgentRunRecord,
      (decide (row.id = runId) && decide (row.status = .running) && !row.cancelRequested &&
        row.writeInFlightToolCallId.isNone) = true → row.id = runId := by
    intro row hcond
    simp only [Bool.and_eq_true, decide_eq_true_eq] at hcond
    exact hcond.1.1.1
  obtain ⟨hrun, hrunId⟩ := Rows.find_mem hload
  have hloadInserted : inserted.loadRun runId = some run := by
    rw [hinserted]
    exact hload
  have hkeyedInserted : inserted.WellKeyed := by
    rw [hinserted]
    exact hkeyed.append_permission hfreshId hfreshCall ⟨run, hrun, hrunId⟩
  have hpermissions : updated.permissions =
      Rows.update (fun _ => false) (fun row => row) inserted.permissions := by
    rw [hrows.permissions, Rows.update_eq_self fun _ _ => rfl]
  -- the inserted permission is the last one of its run
  have hpermissionsOf := permissionsOf_update hpermissions (fun _ => ⟨rfl, rfl, rfl⟩) runId
  rw [Rows.update_eq_self fun _ _ => rfl, hinserted] at hpermissionsOf
  simp only [AgentDb.permissionsOf, List.filter_append, List.filter_cons, decide_true, if_true,
    List.filter_nil] at hpermissionsOf
  have hloadAfter := loadRun_update hrows.runs (fun _ => rfl) hloadInserted
  rw [if_pos (Rows.cond_of_changed hkeyedInserted.runs hloadInserted hrunCond hrows.changed)]
    at hloadAfter
  have hmessages : updated.messages = db.messages := by
    rw [hrows.messages, hinserted]
  refine ⟨⟨?_, ?_, ⟨_, _, AgentDb.view_eq_some hload, AgentDb.view_eq_some hloadAfter, ?_⟩,
    hmessages.symm ▸ .unchanged⟩, ?_⟩
  · exact WellKeyed.of_updates hkeyedInserted hrows.runs hpermissions (fun _ => rfl)
      fun _ => ⟨rfl, rfl, rfl⟩
  · intro other hother
    rw [view_update_other hrows.runs hpermissions (fun _ => rfl) (fun _ => ⟨rfl, rfl, rfl⟩) hrunCond
      (by simp) hother, hinserted]
    exact AgentDb.view_append_permission hother
  · unfold AgentDb.permissionsOf
    rw [hpermissionsOf]
    exact RunStep.createToolPermission hstatus (by simpa using hcancel) hmode (by simpa using hfence)
      (validateOrdinaryProgress_ok hprogress) rfl
  · refine readBack_of_some ?_
    unfold AgentDb.loadPermission
    rw [hrows.permissions, hinserted, Rows.find_append_singleton]
    cases hfind : Rows.find ToolPermissionRecord.id (env.uuid 0) db.permissions with
    | none => simp
    | some stored => exact ⟨stored, rfl⟩

theorem createToolPermission_steps {input : RequestToolPermission} (hkeyed : db.WellKeyed)
    (hop : createToolPermission env runId input db = .ok (result, db')) :
    StepsRun (.createToolPermission env runId input) runId db db' ∧ ∃ value, result = .ok value := by
  unfold createToolPermission at hop
  simp only [bind_eq_ok, rejectIf_eq_ok, exists_and_left, exists_const] at hop
  obtain ⟨_, timestamp, _, _, _, hcreate⟩ := hop
  exact createToolPermissionAt_steps hkeyed hcreate

end PermissionTransactions

/-! ## Starting and deleting runs, and recovery -/

/-- The run an operation names. -/
def AgentOp.target : AgentOp → Option String
  | .updateAgentRun _ id _ _ => some id
  | .compactAgentRun _ id _ _ => some id
  | .completeAgentRun _ id _ _ => some id
  | .failAgentRun _ id _ _ => some id
  | .requestAgentRunCancellation _ id => some id
  | .finishCancelledAgentRun _ id _ _ => some id
  | .createToolPermission _ runId _ => some runId
  | .decideToolPermission _ _ _ runId _ _ _ _ => some runId
  | .expireToolPermission _ _ _ runId _ _ _ => some runId
  | .revokeToolPermission _ _ _ runId _ _ _ => some runId
  | .consumeToolPermission _ _ _ runId _ _ _ => some runId
  | .settleAgentWrite _ runId _ _ => some runId
  | .failAgentWriteOutcomeUnknown _ runId _ _ _ => some runId
  | _ => none

/-- What an operation can do to the view of one run. -/
inductive RunEffect (op : AgentOp) (runId : String) (db db' : AgentDb) : Prop
  | unchanged (same : db'.view runId = db.view runId)
  | started {env userMessageId sessionId input timestamp}
      (label : op = .startAgentRunWithIds env runId userMessageId sessionId input)
      (idle : db.sessionBusy sessionId = false)
      (absent : db.view runId = none)
      (present : db'.view runId = some
        { run := AgentRunRecord.start runId sessionId input.sqlPermissionMode timestamp
          permissions := [] })
  | deleted {sessionId revision view}
      (label : op = .deleteAgentSession sessionId revision)
      (present : db.view runId = some view)
      (owner : view.run.sessionId = sessionId)
      (terminal : view.run.status.isTerminal = true)
      (absent : db'.view runId = none)
  | stepped {before after}
      (target : ∀ id ∈ op.target, id = runId)
      (present : db.view runId = some before)
      (present' : db'.view runId = some after)
      (step : RunStep op before after)

/-- A step of one run has no effect on any other. -/
theorem StepsRun.effect {id : String} {db db' : AgentDb}
    (hsteps : StepsRun op id db db') (htarget : op.target = some id) (runId : String) :
    RunEffect op runId db db' := by
  by_cases hrun : runId = id
  · subst hrun
    obtain ⟨before, after, hbefore, hafter, hstep⟩ := hsteps.step
    refine .stepped ?_ hbefore hafter hstep
    intro named hnamed
    rw [htarget] at hnamed
    simpa using hnamed.symm
  · exact .unchanged (hsteps.others runId hrun)

section Tables

variable {json : JsonEngine} {env : CallEnv} {db db' : AgentDb}

theorem insertRun_ok (hinsert : insertRun run db = .ok db') :
    db' = { db with runs := db.runs ++ [run] } ∧ (∀ stored ∈ db.runs, stored.id ≠ run.id) ∧
      (run.status.isActive = true → db.sessionBusy run.sessionId = false) := by
  unfold insertRun at hinsert
  simp only [bind_eq_ok, rejectIf_eq_ok, pure_eq_ok, exists_and_left, exists_const] at hinsert
  obtain ⟨hid, hbusy, rfl⟩ := hinsert
  exact ⟨rfl, by simpa using hid, by simpa using hbusy⟩

/-- A start adds a run without permissions and leaves the others alone. -/
theorem startAgentRunWithIds_effect {runId userMessageId : String}
    {input : StartAgentRun} {result : Except StorageError StartedAgentRun} (hkeyed : db.WellKeyed)
    (hop : startAgentRunWithIds json env runId userMessageId sessionId input db =
      .ok (result, db')) (other : String) :
    RunEffect (.startAgentRunWithIds env runId userMessageId sessionId input) other db db' ∧
      db'.WellKeyed := by
  unfold startAgentRunWithIds at hop
  simp only [bind_eq_ok, rejectIf_eq_ok, pure_eq_ok, exists_and_left, exists_const, Prod.mk.injEq,
    Prod.exists] at hop
  obtain ⟨_, timestamp, _, _, _, _, _, hbusy, inserted, hinsert, message, last, happend, _, rfl⟩ := hop
  obtain ⟨hinserted, hfresh, -⟩ := insertRun_ok hinsert
  obtain ⟨hruns, hpermissions⟩ := (appendMessageInTransaction_ok happend).tables
  rw [hinserted] at hruns hpermissions
  have howned : ∀ permission ∈ db.permissions, permission.runId ≠ runId := by
    intro permission hpermission heq
    obtain ⟨run, hrun, hid⟩ := hkeyed.owned permission hpermission
    exact hfresh run hrun (hid.trans heq)
  have habsent : db.loadRun runId = none := Rows.find_eq_none_iff.mpr hfresh
  constructor
  · by_cases hother : other = runId
    · subst hother
      have hload : last.loadRun other = some
          (AgentRunRecord.start other sessionId input.sqlPermissionMode timestamp) := by
        unfold AgentDb.loadRun at habsent ⊢
        rw [hruns, Rows.find_append_singleton, habsent]
        simp [AgentRunRecord.start]
      have hnone : last.permissionsOf other = [] := by
        unfold AgentDb.permissionsOf
        rw [hpermissions, List.filter_eq_nil_iff]
        intro permission hpermission
        simpa using howned permission hpermission
      have hpresent := AgentDb.view_eq_some hload
      rw [hnone] at hpresent
      exact .started rfl (by simpa using hbusy) (AgentDb.view_eq_none habsent) hpresent
    · refine .unchanged ?_
      unfold AgentDb.view AgentDb.loadRun AgentDb.permissionsOf
      rw [hruns, hpermissions, Rows.find_append_singleton,
        if_neg (by simpa [AgentRunRecord.start] using Ne.symm hother)]
      simp
  · exact
      { runs := by
          rw [hruns]
          exact hkeyed.runs.append_singleton hfresh
        permissions := by
          rw [hpermissions]
          exact hkeyed.permissions
        calls := by
          rw [hpermissions]
          exact hkeyed.calls
        owned := by
          intro permission hpermission
          rw [hpermissions] at hpermission
          obtain ⟨run, hrun, hid⟩ := hkeyed.owned permission hpermission
          rw [hruns]
          exact ⟨run, List.mem_append_left _ hrun, hid⟩ }

/-- A deletion takes the runs of an idle session with their permissions, and no others. -/
theorem deleteSessionCascade_effect {sessionId : String} {revision : Nat} (hkeyed : db.WellKeyed)
    (hidle : db.sessionBusy sessionId = false) (runId : String) :
    RunEffect (.deleteAgentSession sessionId revision) runId db
        (deleteSessionCascade sessionId db) ∧
      (deleteSessionCascade sessionId db).WellKeyed := by
  constructor
  · cases hload : db.loadRun runId with
    | none =>
      have hload' : (deleteSessionCascade sessionId db).loadRun runId = none := by
        refine Rows.find_eq_none_iff.mpr fun run hrun => ?_
        exact Rows.find_eq_none_iff.mp hload run (List.mem_of_mem_filter hrun)
      exact .unchanged (by rw [AgentDb.view_eq_none hload, AgentDb.view_eq_none hload'])
    | some run =>
      obtain ⟨hrun, hid⟩ := Rows.find_mem hload
      by_cases howner : run.sessionId = sessionId
      · -- the run goes with its session, which had no active run
        have hterminal : run.status.isTerminal = true := by
          by_contra hlive
          have hbusy : db.sessionBusy sessionId = true := by
            refine List.any_eq_true.mpr ⟨run, hrun, ?_⟩
            rw [AgentRunStatus.isActive_eq_not_isTerminal]
            simpa [howner] using hlive
          simp [hbusy] at hidle
        refine .deleted rfl (AgentDb.view_eq_some hload) howner hterminal ?_
        refine AgentDb.view_eq_none (Rows.find_eq_none_iff.mpr fun stored hstored hstoredId => ?_)
        have hsame := hkeyed.runs.eq_of_key_eq (List.mem_of_mem_filter hstored) hrun
          (hstoredId.trans hid.symm)
        have hkept := (List.mem_filter.mp hstored).2
        simp [hsame, howner] at hkept
      · have hload' : (deleteSessionCascade sessionId db).loadRun runId = some run := by
          unfold AgentDb.loadRun deleteSessionCascade at *
          rw [Rows.find_filter_of_keep, hload]
          intro stored hstored hstoredId
          have hsame := hkeyed.runs.eq_of_key_eq hstored hrun (hstoredId.trans hid.symm)
          simpa [hsame] using howner
        have hpermissions :
            (deleteSessionCascade sessionId db).permissionsOf runId = db.permissionsOf runId := by
          unfold AgentDb.permissionsOf deleteSessionCascade
          rw [List.filter_filter]
          refine List.filter_congr fun permission _ => ?_
          by_cases hpermission : permission.runId = runId
          · have hkept : (db.runs.any fun other =>
                other.sessionId = sessionId && other.id = permission.runId) = false := by
              rw [List.any_eq_false]
              intro other hother
              simp only [Bool.and_eq_true, decide_eq_true_eq, not_and]
              intro hsession hotherId
              refine howner ?_
              rw [← hkeyed.runs.eq_of_key_eq hother hrun
                ((hotherId.trans hpermission).trans hid.symm)]
              exact hsession
            simp only [hkept, Bool.not_false, Bool.and_true]
          · simp [hpermission]
        refine .unchanged ?_
        rw [AgentDb.view_eq_some hload, AgentDb.view_eq_some hload', hpermissions]
  · exact
      { runs := hkeyed.runs.filter _
        permissions := hkeyed.permissions.filter _
        calls := hkeyed.calls.filter _
        owned := by
          intro permission hpermission
          obtain ⟨hmem, hkept⟩ := List.mem_filter.mp hpermission
          obtain ⟨run, hrun, hid⟩ := hkeyed.owned permission hmem
          refine ⟨run, List.mem_filter.mpr ⟨hrun, ?_⟩, hid⟩
          simp only [Bool.not_eq_true', List.any_eq_false, Bool.and_eq_true, decide_eq_true_eq,
            not_and] at hkept
          simpa using fun howner => hkept run hrun howner hid }

/-- The two updates of a recovery are one function of each run. -/
theorem recoverRuns_eq (timestamp : Int) (runs : List AgentRunRecord) :
    Rows.update (fun run => run.status.isActive && run.writeInFlightToolCallId.isNone)
        (fun run => run.recoverAs "runtime_restarted"
          "Agent run interrupted by runtime restart" timestamp)
        (Rows.update (fun run => run.status.isActive && run.writeInFlightToolCallId.isSome)
          (fun run => run.recoverAs "database_outcome_unknown"
            "Database write outcome is unknown after runtime restart" timestamp) runs) =
      Rows.update (fun _ => true) (fun run => run.recovered timestamp) runs := by
  unfold Rows.update
  rw [List.map_map]
  refine List.map_congr_left fun run _ => ?_
  simp only [Function.comp_apply, if_true]
  by_cases hactive : run.status.isActive = true
  · cases hfence : run.writeInFlightToolCallId with
    | none => simp [AgentRunRecord.recovered_interrupted hactive hfence, hactive, hfence]
    | some toolCallId =>
      have hfailed : (run.recoverAs "database_outcome_unknown"
          "Database write outcome is unknown after runtime restart"
          timestamp).status.isActive = false := rfl
      rw [AgentRunRecord.recovered_fenced hactive hfence]
      simp only [hactive, Option.isSome_some, Bool.and_self, if_true, hfailed, Bool.false_and,
        Bool.false_eq_true, if_false]
  · rw [AgentRunRecord.recovered_terminal (by simpa using hactive)]
    simp [hactive]

theorem AgentRunRecord.recovered_id (run : AgentRunRecord) (timestamp : Int) :
    (run.recovered timestamp).id = run.id := by
  unfold AgentRunRecord.recovered
  split
  · split <;> rfl
  · rfl

/-- A recovery succeeds, and every run is then what it makes of that run alone. -/
theorem recoverAgentsAt_loadRun (results : List RetainedResult) (timestamp : Int) (db : AgentDb)
    (runId : String) :
    ∃ report db', recoverAgentsAt results timestamp db = .ok (.ok report, db') ∧
      db'.loadRun runId = (db.loadRun runId).map fun run => run.recovered timestamp := by
  refine ⟨_, _, rfl, ?_⟩
  unfold AgentDb.loadRun
  rw [recoverRuns_eq, Rows.find_update fun run => run.recovered_id timestamp]
  rfl

/-- A recovery is one step of every active run. -/
theorem recoverAgentsAt_effect {results : List RetainedResult}
    {result : Except StorageError AgentRecoveryReport} (hkeyed : db.WellKeyed)
    (hop : recoverAgentsAt results timestamp db = .ok (result, db')) (runId : String) :
    RunEffect (.recoverAgentsAt results timestamp) runId db db' ∧ db'.WellKeyed := by
  unfold recoverAgentsAt at hop
  simp only [pure_eq_ok, Prod.mk.injEq] at hop
  obtain ⟨_, rfl⟩ := hop
  rw [recoverRuns_eq]
  have hrecoveredId : ∀ run : AgentRunRecord, (run.recovered timestamp).id = run.id :=
    fun run => run.recovered_id timestamp
  constructor
  · cases hload : db.loadRun runId with
    | none =>
      refine .unchanged ?_
      rw [AgentDb.view_eq_none hload, AgentDb.view_eq_none]
      unfold AgentDb.loadRun at hload ⊢
      rw [Rows.find_update hrecoveredId, hload]
      rfl
    | some run =>
      refine .stepped (by simp [AgentOp.target]) (AgentDb.view_eq_some hload)
        (AgentDb.view_eq_some (loadRun_update rfl hrecoveredId hload)) ?_
      have hpermissions : ∀ runs handles, AgentDb.permissionsOf
          { db with
            runs := runs
            permissions := Rows.update (fun permission => permission.status.isActive)
              (fun permission => permission.advance .revoked timestamp) db.permissions
            resultHandles := handles } runId =
          RunView.revoked { run, permissions := db.permissionsOf runId } timestamp := by
        intro _ _
        unfold AgentDb.permissionsOf RunView.revoked
        rw [Rows.filter_update]
        exact fun _ => rfl
      rw [hpermissions]
      exact RunStep.recoverAgentsAt
  · exact WellKeyed.of_updates hkeyed rfl rfl hrecoveredId fun _ => ⟨rfl, rfl, rfl⟩

end Tables

/-! ## Every operation -/

/-- A call is rolled back, or commits what its transaction leaves. -/
theorem reply_cases {α : Type} (wrap : α → AgentReply) (body : Transaction α) (db : AgentDb) :
    ((∃ error, body db = .error error) ∧ (reply wrap body db).2 = db) ∨
      ∃ result db', body db = .ok (result, db') ∧ (reply wrap body db).2 = db' := by
  unfold reply transact
  cases hbody : body db with
  | error error => exact .inl ⟨⟨error, rfl⟩, rfl⟩
  | ok committed => exact .inr ⟨committed.1, committed.2, rfl, rfl⟩

/-- What an operation does to the views of the runs and to the messages. -/
structure OpEffect (op : AgentOp) (db db' : AgentDb) : Prop where
  runs : ∀ runId, RunEffect op runId db db'
  wellKeyed : db'.WellKeyed
  messages : MessagesEffect op db db'.messages

theorem OpEffect.rolledBack {db : AgentDb} (hkeyed : db.WellKeyed) :
    OpEffect op db db :=
  ⟨fun _ => .unchanged rfl, hkeyed, .unchanged⟩

theorem StepsRun.opEffect {id : String} {db db' : AgentDb}
    (hsteps : StepsRun op id db db') (htarget : op.target = some id) : OpEffect op db db' :=
  ⟨hsteps.effect htarget, hsteps.wellKeyed, hsteps.messages⟩

theorem OpEffect.unrelated {db db' : AgentDb} (hkeyed : db.WellKeyed)
    (hruns : db'.runs = db.runs) (hpermissions : db'.permissions = db.permissions)
    (hmessages : MessagesEffect op db db'.messages) : OpEffect op db db' :=
  ⟨fun runId => .unchanged (AgentDb.view_congr hruns hpermissions runId),
    hkeyed.congr hruns hpermissions, hmessages⟩

theorem reply_effect {α : Type} {wrap : α → AgentReply} {body : Transaction α}
    {db : AgentDb} (hkeyed : db.WellKeyed)
    (hbody : ∀ result db', body db = .ok (result, db') → OpEffect op db db') :
    OpEffect op db (reply wrap body db).2 := by
  rcases reply_cases wrap body db with ⟨_, hsame⟩ | ⟨result, db', hok, hdb'⟩
  · rw [hsame]
    exact .rolledBack hkeyed
  · rw [hdb']
    exact hbody result db' hok

theorem createAgentSession_tables {json : JsonEngine} {env : CallEnv}
    {providers datasources : List String} {input : CreateAgentSession} {db db' : AgentDb}
    {result : Except StorageError AgentSessionRecord}
    (hop : createAgentSession json env providers datasources input db = .ok (result, db')) :
    db'.runs = db.runs ∧ db'.permissions = db.permissions ∧
      MessagesAppended (·.Plain db.runs) db.messages db'.messages := by
  unfold createAgentSession at hop
  simp only [bind_eq_ok, rejectIf_eq_ok, pure_eq_ok, exists_and_left, exists_const,
    Prod.mk.injEq] at hop
  obtain ⟨_, _, _, _, prompt, _, _, _, _, appended, happend, -, rfl⟩ := hop
  cases prompt with
  | none =>
    simp only [appendSystemPrompt, Except.ok.injEq] at happend
    rw [← happend]
    exact ⟨rfl, rfl, .none⟩
  | some canonical =>
    simp only [appendSystemPrompt, bind_eq_ok, pure_eq_ok, Prod.exists] at happend
    obtain ⟨_, _, happended, rfl⟩ := happend
    have happended := appendMessageInTransaction_ok happended
    refine ⟨happended.tables.1, happended.tables.2, ?_⟩
    rw [happended.messages]
    exact .more .none happended.fits (happended.plain (by simp) (.inl rfl))

theorem appendAgentMessage_messages {json : JsonEngine} {env : CallEnv}
    {input : AppendAgentMessage} {result : Except StorageError AgentMessageRecord}
    {db db' : AgentDb} (hop : appendAgentMessage json env sessionId input db = .ok (result, db')) :
    MessagesAppended (·.Plain db.runs) db.messages db'.messages := by
  unfold appendAgentMessage at hop
  simp only [bind_eq_ok, rejectIf_eq_ok, pure_eq_ok, Prod.mk.injEq, Prod.exists, exists_and_left,
    exists_const] at hop
  obtain ⟨hrole, _, _, _, _, _, _, _, _, happended, -, rfl⟩ := hop
  have happended := appendMessageInTransaction_ok happended
  rw [happended.messages]
  exact .more .none happended.fits (happended.plain hrole (.inl rfl))

theorem startAgentRunWithIds_messages {json : JsonEngine} {env : CallEnv}
    {runId userMessageId : String} {input : StartAgentRun}
    {result : Except StorageError StartedAgentRun} {db db' : AgentDb}
    (hop : startAgentRunWithIds json env runId userMessageId sessionId input db =
      .ok (result, db')) :
    (∀ run ∈ db.runs, run.id ≠ runId) ∧
      ∃ record, db'.messages = db.messages ++ [record] ∧ record.Fits db.messages ∧
        record.sessionId = sessionId ∧ record.runId = some runId ∧ record.role = .user ∧
        record.summaryThroughOrdinal = none ∧ record.Owned db'.runs := by
  unfold startAgentRunWithIds at hop
  simp only [bind_eq_ok, rejectIf_eq_ok, pure_eq_ok, exists_and_left, exists_const, Prod.mk.injEq,
    Prod.exists] at hop
  obtain ⟨_, timestamp, _, _, _, _, _, _, inserted, hinsert, message, last, happend, _, rfl⟩ := hop
  obtain ⟨hinserted, hfresh, -⟩ := insertRun_ok hinsert
  have happended := appendMessageInTransaction_ok happend
  have hmessages := happended.messages
  have hfits := happended.fits
  rw [hinserted] at hmessages hfits
  exact ⟨hfresh, message, hmessages, hfits, happended.session, happended.run, happended.roleEq,
    happended.coverageEq, happended.tables.1 ▸ happended.record_owned⟩

/-- What each call does to runs, permissions and messages, one case for each operation. -/
theorem exec_opEffect (json : JsonEngine) (op : AgentOp) {db : AgentDb} (hkeyed : db.WellKeyed) :
    OpEffect op db (exec json op db).2 := by
  -- what is rolled back has no effect, what is committed that of its transaction
  cases op with
  | createAgentSession env providers datasources input =>
    refine reply_effect hkeyed fun _ _ hok => ?_
    obtain ⟨hruns, hpermissions, hmessages⟩ := createAgentSession_tables hok
    exact .unrelated hkeyed hruns hpermissions (.appended hmessages)
  | updateAgentSession env providers datasources id revision input =>
    refine reply_effect hkeyed fun _ _ hok => ?_
    unfold updateAgentSession at hok
    simp only [bind_eq_ok, pure_eq_ok, Prod.mk.injEq] at hok
    obtain ⟨_, _, _, _, _, _, _, _, _, _, _, _, _, _, _, _, _, _, -, rfl⟩ := hok
    exact .unrelated hkeyed rfl rfl .unchanged
  | deleteAgentSession id revision =>
    refine reply_effect hkeyed fun _ _ hok => ?_
    unfold deleteAgentSession at hok
    simp only [bind_eq_ok, rejectIf_eq_ok, pure_eq_ok, exists_and_left, exists_const,
      Prod.mk.injEq] at hok
    obtain ⟨_, _, _, _, hidle, _, _, rfl⟩ := hok
    have hcascade := @deleteSessionCascade_effect _ id revision hkeyed (by simpa using hidle)
    exact ⟨fun runId => (hcascade runId).1, (hcascade "").2, .deleted rfl⟩
  | appendAgentMessage env sessionId input =>
    refine reply_effect hkeyed fun _ _ hok => ?_
    have hmessages := appendAgentMessage_messages hok
    unfold appendAgentMessage at hok
    simp only [bind_eq_ok, pure_eq_ok, Prod.mk.injEq, Prod.exists] at hok
    obtain ⟨_, _, _, _, _, _, _, _, _, _, _, happended, -, rfl⟩ := hok
    obtain ⟨hruns, hpermissions⟩ := (appendMessageInTransaction_ok happended).tables
    exact .unrelated hkeyed hruns hpermissions (.appended hmessages)
  | startAgentRunWithIds env id userMessageId sessionId input =>
    refine reply_effect hkeyed fun _ _ hok => ?_
    have heffect := startAgentRunWithIds_effect hkeyed hok
    refine ⟨fun runId => (heffect runId).1, (heffect "").2, ?_⟩
    obtain ⟨hfresh, record, hmessages, hfits, hsession, hrun, hrole, hcoverage, _⟩ :=
      startAgentRunWithIds_messages hok
    rw [hmessages]
    exact .started rfl hfresh hfits hsession hrun hrole hcoverage
  | updateAgentRun env id expected update =>
    exact reply_effect hkeyed fun _ _ hok => (updateAgentRun_steps hkeyed hok).1.opEffect rfl
  | compactAgentRun env id expected input =>
    exact reply_effect hkeyed fun _ _ hok => (compactAgentRun_steps hkeyed hok).1.opEffect rfl
  | completeAgentRun env id expected input =>
    exact reply_effect hkeyed fun _ _ hok => (completeAgentRun_steps hkeyed hok).1.opEffect rfl
  | failAgentRun env id expected input =>
    exact reply_effect hkeyed fun _ _ hok => (failAgentRun_steps hkeyed hok).1.opEffect rfl
  | requestAgentRunCancellation env id =>
    refine reply_effect hkeyed fun _ _ hok => ?_
    rcases (requestAgentRunCancellation_steps hkeyed hok).1 with rfl | hsteps
    · exact .rolledBack hkeyed
    · exact hsteps.opEffect rfl
  | finishCancelledAgentRun env id expected input =>
    exact reply_effect hkeyed fun _ _ hok =>
      (finishCancelledAgentRun_steps hkeyed hok).1.opEffect rfl
  | createToolPermission env id input =>
    exact reply_effect hkeyed fun _ _ hok => (createToolPermission_steps hkeyed hok).1.opEffect rfl
  | decideToolPermission env id revision owner toolCallId digest lastSequence decision =>
    exact reply_effect hkeyed fun _ _ hok => (decideToolPermission_steps hkeyed hok).1.opEffect rfl
  | expireToolPermission env id revision owner toolCallId digest lastSequence =>
    exact reply_effect hkeyed fun _ _ hok => (expireToolPermission_steps hkeyed hok).1.opEffect rfl
  | revokeToolPermission env id revision owner toolCallId digest lastSequence =>
    exact reply_effect hkeyed fun _ _ hok => (revokeToolPermission_steps hkeyed hok).1.opEffect rfl
  | consumeToolPermission env id revision owner toolCallId digest lastSequence =>
    exact reply_effect hkeyed fun _ _ hok => (consumeToolPermission_steps hkeyed hok).1.opEffect rfl
  | settleAgentWrite env id toolCallId digest =>
    exact reply_effect hkeyed fun _ _ hok => (settleAgentWrite_steps hkeyed hok).1.opEffect rfl
  | failAgentWriteOutcomeUnknown env id toolCallId digest input =>
    exact reply_effect hkeyed fun _ _ hok =>
      (failAgentWriteOutcomeUnknown_steps hkeyed hok).1.opEffect rfl
  | createAgentResultHandle env results sessionId id resultId retentionNanos =>
    refine reply_effect hkeyed fun _ _ hok => ?_
    unfold createAgentResultHandle at hok
    simp only [bind_eq_ok, rejectIf_eq_ok, orThrow_eq_ok, pure_eq_ok, exists_and_left,
      exists_const, Prod.mk.injEq] at hok
    obtain ⟨_, _, _, _, _, _, _, _, _, _, _, _, -, rfl⟩ := hok
    exact .unrelated hkeyed rfl rfl .unchanged
  | resolveAgentResultHandle env results id sessionId owner =>
    refine reply_effect hkeyed fun _ _ hok => ?_
    unfold resolveAgentResultHandle at hok
    simp only [bind_eq_ok] at hok
    obtain ⟨_, _, _, _, hok⟩ := hok
    split at hok
    · simp only [pure_eq_ok, Prod.mk.injEq] at hok
      rw [← hok.2]
      exact .unrelated hkeyed rfl rfl .unchanged
    · simp only [pure_eq_ok, Prod.mk.injEq] at hok
      rw [← hok.2]
      exact .unrelated hkeyed rfl rfl .unchanged
  | purgeExpiredAgentResultHandles env =>
    refine reply_effect hkeyed fun _ _ hok => ?_
    unfold purgeExpiredAgentResultHandles at hok
    simp only [bind_eq_ok, pure_eq_ok, Prod.mk.injEq] at hok
    obtain ⟨_, _, -, rfl⟩ := hok
    exact .unrelated hkeyed rfl rfl .unchanged
  | recoverAgentsAt results timestamp =>
    refine reply_effect hkeyed fun _ _ hok => ?_
    have heffect := recoverAgentsAt_effect hkeyed hok
    refine ⟨fun runId => (heffect runId).1, (heffect "").2, ?_⟩
    unfold recoverAgentsAt at hok
    simp only [pure_eq_ok, Prod.mk.injEq] at hok
    obtain ⟨-, rfl⟩ := hok
    exact .unchanged

/-- What a call does to one run and its permissions is one step of the lifecycle. -/
theorem exec_effect (json : JsonEngine) (op : AgentOp) {db : AgentDb} (hkeyed : db.WellKeyed)
    (runId : String) :
    RunEffect op runId db (exec json op db).2 ∧ (exec json op db).2.WellKeyed :=
  ⟨(exec_opEffect json op hkeyed).runs runId, (exec_opEffect json op hkeyed).wellKeyed⟩

theorem exec_messages (json : JsonEngine) (op : AgentOp) {db : AgentDb} (hkeyed : db.WellKeyed) :
    MessagesEffect op db (exec json op db).2.messages :=
  (exec_opEffect json op hkeyed).messages

end Chat2DB.Storage
