import Chat2DB.Storage.RunRefinement

/-! # Safety of runs over whole operation sequences

The lifecycle facts of one step, carried along any sequence of store
operations from the empty tables.
-/

namespace Chat2DB.Storage

open Outcome

variable {json : JsonEngine} {ops : List AgentOp} {db : AgentDb} {op : AgentOp}
  {run : AgentRunRecord} {runId toolCallId : String} {digest : Sha256}

/-- The table constraints, and lifecycle agreement of every run. -/
structure AgentDb.Sound (db : AgentDb) : Prop where
  wellKeyed : db.WellKeyed
  views : ∀ runId view, db.view runId = some view → view.Sound

theorem AgentDb.sound_empty : AgentDb.empty.Sound where
  wellKeyed := .empty
  views := by
    intro runId view hview
    cases hview

/-- A call keeps the tables sound, whatever it answers. -/
theorem exec_sound (json : JsonEngine) (op : AgentOp) (hsound : db.Sound) :
    (exec json op db).2.Sound where
  wellKeyed := (exec_effect json op hsound.wellKeyed "").2
  views := by
    intro runId view hview
    cases (exec_effect json op hsound.wellKeyed runId).1 with
    | unchanged same => exact hsound.views runId view (same ▸ hview)
    | started label idle absent present =>
      obtain rfl := Option.some.inj (present.symm.trans hview)
      exact RunView.sound_start _ _ _ _
    | deleted label present owner terminal absent => simp [absent] at hview
    | stepped target present present' step =>
      obtain rfl := Option.some.inj (present'.symm.trans hview)
      exact step.sound (hsound.views runId _ present)

theorem storeAt_sound (json : JsonEngine) (ops : List AgentOp) (count : Nat) :
    (storeAt json ops count).Sound :=
  Trace.stateAt_invariant AgentDb.sound_empty (fun op _ hsound => exec_sound json op hsound) ops count

theorem storeAfter_sound (json : JsonEngine) (ops : List AgentOp) :
    (storeAfter json ops).Sound :=
  Trace.run_invariant AgentDb.sound_empty (fun op _ hsound => exec_sound json op hsound) ops

/-- The call at an index leads from the tables before it to those after it. -/
theorem storeAt_succ {index : Nat} (hop : ops[index]? = some op) :
    storeAt json ops (index + 1) = (exec json op (storeAt json ops index)).2 :=
  Trace.stateAt_succ hop

theorem AgentDb.Sound.view_of_mem (hsound : db.Sound) (hrun : run ∈ db.runs) :
    RunView.Sound { run, permissions := db.permissionsOf run.id } :=
  hsound.views run.id _ (AgentDb.view_eq_some (hsound.wellKeyed.runs.find_of_mem hrun))

/-! ## Waiting runs and active permissions -/

/-- The pending or approved permissions of one run. -/
def AgentDb.activePermissions (db : AgentDb) (runId : String) : List ToolPermissionRecord :=
  db.permissions.filter fun permission => permission.runId = runId && permission.status.isActive

/-- The store counts the active permissions of a run as its view does. -/
theorem activePermissions_length (db : AgentDb) (run : AgentRunRecord) :
    (db.activePermissions run.id).length =
      RunView.activeCount { run, permissions := db.permissionsOf run.id } := by
  unfold AgentDb.activePermissions RunView.activeCount AgentDb.permissionsOf
  rw [List.countP_eq_length_filter, List.filter_filter]
  congr 2
  funext permission
  rw [Bool.and_comm]

/-- The run table agrees with the permission table: a run waits exactly while
it has its one active permission; cancelled and terminal runs have none. -/
structure AgentDb.WaitingAgrees (db : AgentDb) : Prop where
  waiting_iff : ∀ run ∈ db.runs,
    run.status = .waitingPermission ↔ (db.activePermissions run.id).length = 1
  atMostOne : ∀ run ∈ db.runs, (db.activePermissions run.id).length ≤ 1
  cancelled : ∀ run ∈ db.runs, run.cancelRequested = true →
    run.status ≠ .waitingPermission ∧ db.activePermissions run.id = []
  terminal : ∀ run ∈ db.runs, run.status.isTerminal = true → db.activePermissions run.id = []

theorem AgentDb.Sound.activePermissions_of_idle (hsound : db.Sound)
    (hrun : run ∈ db.runs) (hstatus : run.status ≠ .waitingPermission) :
    db.activePermissions run.id = [] := by
  rw [← List.length_eq_zero_iff, activePermissions_length]
  exact (hsound.view_of_mem hrun).idle hstatus

theorem AgentDb.Sound.activePermissions_of_waiting (hsound : db.Sound)
    (hrun : run ∈ db.runs) (hstatus : run.status = .waitingPermission) :
    (db.activePermissions run.id).length = 1 := by
  rw [activePermissions_length]
  exact (hsound.view_of_mem hrun).waiting hstatus

/-- A run waits for a permission exactly while one permission of it is active. -/
theorem reachable_waitingAgrees (json : JsonEngine) (ops : List AgentOp) :
    (storeAfter json ops).WaitingAgrees := by
  have hsound := storeAfter_sound json ops
  constructor
  · intro run hrun
    constructor
    · exact hsound.activePermissions_of_waiting hrun
    · intro hone
      by_contra hstatus
      simp [hsound.activePermissions_of_idle hrun hstatus] at hone
  · intro run hrun
    by_cases hstatus : run.status = .waitingPermission
    · exact (hsound.activePermissions_of_waiting hrun hstatus).le
    · simp [hsound.activePermissions_of_idle hrun hstatus]
  · intro run hrun hcancel
    have hstatus := (hsound.view_of_mem hrun).cancelled hcancel
    exact ⟨hstatus, hsound.activePermissions_of_idle hrun hstatus⟩
  · intro run hrun hterminal
    apply hsound.activePermissions_of_idle hrun
    intro hstatus
    rw [hstatus] at hterminal
    cases hterminal

/-! ## The write fence -/

/-- The operations that may end a write in flight on a run: the exact
settlement, the record of an unknown outcome, and crash recovery. -/
def AgentOp.EndsWrite (op : AgentOp) (runId toolCallId : String) (digest : Sha256) : Prop :=
  (∃ env, op = .settleAgentWrite env runId toolCallId digest) ∨
    (∃ env call args input, op = .failAgentWriteOutcomeUnknown env runId call args input) ∨
    ∃ results timestamp, op = .recoverAgentsAt results timestamp

/-- The operations that a write in flight on a run must block. -/
def AgentOp.BlockedByWrite (op : AgentOp) (runId : String) : Prop :=
  (∃ env expected update, op = .updateAgentRun env runId expected update) ∨
    (∃ env expected input, op = .compactAgentRun env runId expected input) ∨
    (∃ env expected input, op = .completeAgentRun env runId expected input) ∨
    (∃ env expected input, op = .failAgentRun env runId expected input) ∨
    (∃ env expected input, op = .finishCancelledAgentRun env runId expected input) ∨
    ∃ env input, op = .createToolPermission env runId input

/-- Discipline of the fence in one store, over all operations on it. -/
structure AgentDb.FenceDiscipline (json : JsonEngine) (db : AgentDb) : Prop where
  status : ∀ run ∈ db.runs, run.writeInFlightToolCallId ≠ none →
    run.status = .running ∨
      (run.status = .failed ∧ run.errorCode = some "database_outcome_unknown")
  clean : ∀ run ∈ db.runs, run.status = .completed ∨ run.status = .cancelled →
    run.writeInFlightToolCallId = none ∧ run.writeInFlightArgumentsSha256 = none
  kept : ∀ op runId run toolCallId digest, db.loadRun runId = some run → run.status = .running →
    run.FencedBy toolCallId digest → ¬ op.EndsWrite runId toolCallId digest →
    ∃ after, (exec json op db).2.loadRun runId = some after ∧ after.status = .running ∧
      after.FencedBy toolCallId digest
  blocked : ∀ op runId run toolCallId digest, db.loadRun runId = some run → run.status = .running →
    run.FencedBy toolCallId digest → op.BlockedByWrite runId →
    ∃ error, (exec json op db).1 = .error error
  recovered : ∀ results timestamp runId run toolCallId digest, db.loadRun runId = some run →
    run.status = .running → run.FencedBy toolCallId digest →
    ∃ after, (exec json (.recoverAgentsAt results timestamp) db).2.loadRun runId = some after ∧
      after.status = .failed ∧ after.errorCode = some "database_outcome_unknown"

theorem AgentDb.loadRun_of_view {view : RunView} (hview : db.view runId = some view) :
    db.loadRun runId = some view.run := by
  unfold AgentDb.view at hview
  obtain ⟨run, hload, rfl⟩ := Option.map_eq_some_iff.mp hview
  exact hload

/-- A running run keeps its write fence under every call that does not end that write. -/
theorem fenced_run_kept (hsound : db.Sound)
    (hload : db.loadRun runId = some run) (hstatus : run.status = .running)
    (hfence : run.FencedBy toolCallId digest) (hop : ¬ op.EndsWrite runId toolCallId digest) :
    ∃ after, (exec json op db).2.loadRun runId = some after ∧ after.status = .running ∧
      after.FencedBy toolCallId digest := by
  have hview := AgentDb.view_eq_some hload
  cases (exec_effect json op hsound.wellKeyed runId).1 with
  | unchanged same =>
    exact ⟨run, AgentDb.loadRun_of_view (same.trans hview), hstatus, hfence⟩
  | started label idle absent present => simp [absent] at hview
  | deleted label present owner terminal absent =>
    obtain rfl := Option.some.inj (present.symm.trans hview)
    simp [hstatus, AgentRunStatus.isTerminal] at terminal
  | stepped target present present' step =>
    obtain rfl := Option.some.inj (present.symm.trans hview)
    rcases step.fenced_cases hstatus hfence with
      hkept | ⟨env, owner, rfl⟩ | ⟨env, owner, call, args, input, rfl⟩ | ⟨results, timestamp, rfl⟩
    · exact ⟨_, AgentDb.loadRun_of_view present', hkept⟩
    · obtain rfl := target owner rfl
      exact absurd (.inl ⟨env, rfl⟩) hop
    · obtain rfl := target owner rfl
      exact absurd (.inr (.inl ⟨env, call, args, input, rfl⟩)) hop
    · exact absurd (.inr (.inr ⟨results, timestamp, rfl⟩)) hop

theorem reply_rejected {α : Type} {wrap : α → AgentReply} {body : Transaction α}
    (hbody : ∀ result db', body db ≠ .ok (result, db')) :
    ∃ error, (reply wrap body db).1 = .error error := by
  unfold reply transact
  cases hdb : body db with
  | error error => exact ⟨error, rfl⟩
  | ok committed => exact absurd hdb (hbody committed.1 committed.2)

/-- What a write blocks is a step of runs without a fence only. -/
theorem StepsRun.no_fence {id : String} {db' : AgentDb}
    (hsteps : StepsRun op id db db') (hload : db.loadRun id = some run)
    (hblocked : op.BlockedByWrite id) : run.writeInFlightToolCallId = none := by
  obtain ⟨before, after, hbefore, _, hstep⟩ := hsteps.step
  obtain rfl := Option.some.inj (hbefore.symm.trans (AgentDb.view_eq_some hload))
  rcases hblocked with ⟨_, _, _, rfl⟩ | ⟨_, _, _, rfl⟩ | ⟨_, _, _, rfl⟩ | ⟨_, _, _, rfl⟩ |
    ⟨_, _, _, rfl⟩ | ⟨_, _, rfl⟩ <;> cases hstep <;> assumption

/-- While a write is in flight, the calls that it blocks are refused. -/
theorem fenced_run_blocks (hsound : db.Sound)
    (hload : db.loadRun runId = some run) (hfence : run.FencedBy toolCallId digest)
    (hblocked : op.BlockedByWrite runId) : ∃ error, (exec json op db).1 = .error error := by
  have hsteps : ∀ {db'}, ¬ StepsRun op runId db db' := by
    intro db' hsteps
    have hnone := hsteps.no_fence hload hblocked
    simp [hfence.1] at hnone
  have hkeyed := hsound.wellKeyed
  rcases hblocked with ⟨_, _, _, rfl⟩ | ⟨_, _, _, rfl⟩ | ⟨_, _, _, rfl⟩ | ⟨_, _, _, rfl⟩ |
    ⟨_, _, _, rfl⟩ | ⟨_, _, rfl⟩
  · exact reply_rejected fun _ _ hok => hsteps (updateAgentRun_steps hkeyed hok).1
  · exact reply_rejected fun _ _ hok => hsteps (compactAgentRun_steps hkeyed hok).1
  · exact reply_rejected fun _ _ hok => hsteps (completeAgentRun_steps hkeyed hok).1
  · exact reply_rejected fun _ _ hok => hsteps (failAgentRun_steps hkeyed hok).1
  · exact reply_rejected fun _ _ hok => hsteps (finishCancelledAgentRun_steps hkeyed hok).1
  · exact reply_rejected fun _ _ hok => hsteps (createToolPermission_steps hkeyed hok).1

/-- A restart fails a run with a write in flight as one whose outcome is unknown. -/
theorem fenced_run_recovered (results : List RetainedResult) (timestamp : Int)
    (hload : db.loadRun runId = some run) (hstatus : run.status = .running)
    (hfence : run.FencedBy toolCallId digest) :
    ∃ after, (exec json (.recoverAgentsAt results timestamp) db).2.loadRun runId = some after ∧
      after.status = .failed ∧ after.errorCode = some "database_outcome_unknown" := by
  have hrecovered : run.recovered timestamp = run.recoverAs "database_outcome_unknown"
      "Database write outcome is unknown after runtime restart" timestamp :=
    AgentRunRecord.recovered_fenced (by simp [hstatus, AgentRunStatus.isActive]) hfence.1
  obtain ⟨report, db', hok, hafter⟩ := recoverAgentsAt_loadRun results timestamp db runId
  rw [hload, Option.map_some, hrecovered] at hafter
  have hexec : (exec json (.recoverAgentsAt results timestamp) db).2 = db' := by
    simp only [exec, reply, transact, hok]
  rw [hexec]
  exact ⟨_, hafter, rfl, rfl⟩

/-- The discipline of the write fence holds after every sequence of calls. -/
theorem reachable_fenceDiscipline (json : JsonEngine) (ops : List AgentOp) :
    (storeAfter json ops).FenceDiscipline json := by
  have hsound := storeAfter_sound json ops
  constructor
  · intro run hrun hfence
    exact (hsound.view_of_mem hrun).fence hfence
  · intro run hrun hstatus
    have hview := hsound.view_of_mem hrun
    have hcall : run.writeInFlightToolCallId = none := by
      by_contra hfence
      rcases hview.fence hfence with hrunning | ⟨hfailed, _⟩ <;> simp_all
    exact ⟨hcall, hview.fencePair.mp hcall⟩
  · intro op runId run toolCallId digest hload hstatus hfence hop
    exact fenced_run_kept hsound hload hstatus hfence hop
  · intro op runId run toolCallId digest hload hstatus hfence hblocked
    exact fenced_run_blocks hsound hload hfence hblocked
  · intro results timestamp runId run toolCallId digest hload hstatus hfence
    exact fenced_run_recovered results timestamp hload hstatus hfence

/-! ## Recovery -/

/-- No run is active after a recovery. -/
theorem inactive_recovered (run : AgentRunRecord) (timestamp : Int) :
    (run.recovered timestamp).status.isActive = false := by
  unfold AgentRunRecord.recovered
  split
  · split <;> rfl
  · rename_i hinactive
    simpa using hinactive

/-- With nothing under way only result handles are left to remove. -/
theorem recoverAgentsAt_of_inactive {results : List RetainedResult} {timestamp : Int} {db : AgentDb}
    (hruns : ∀ run ∈ db.runs, run.status.isActive = false)
    (hpermissions : ∀ permission ∈ db.permissions, permission.status.isActive = false) :
    ∃ report, recoverAgentsAt results timestamp db = .ok (.ok report, { db with
        resultHandles := db.resultHandles.filter fun handle =>
          !(decide (handle.expiresAtMs ≤ timestamp) ||
            (liveResult results handle.resultId timestamp).isNone) }) ∧
      report.runsFailed = 0 ∧ report.writeOutcomesUnknown = 0 ∧ report.permissionsRevoked = 0 := by
  have hsome : ∀ run ∈ db.runs,
      (run.status.isActive && run.writeInFlightToolCallId.isSome) = false := by
    simp +contextual [hruns]
  have hnone : ∀ run ∈ db.runs,
      (run.status.isActive && run.writeInFlightToolCallId.isNone) = false := by
    simp +contextual [hruns]
  unfold recoverAgentsAt Rows.changed
  dsimp only
  rw [Rows.update_eq_self hsome, Rows.update_eq_self hnone, Rows.update_eq_self hpermissions]
  refine ⟨_, rfl, ?_, ?_, ?_⟩ <;> simp +contextual [hruns, hpermissions]

/-- A start after a crash leaves nothing under way, and a crash between two starts no trace: the
second recovery finds nothing to fail or to revoke and removes just the result handles that
expired or lost their result since. -/
theorem recoverAgentsAt_settles (results later : List RetainedResult)
    (timestamp laterTimestamp : Int) (db : AgentDb) :
    ∃ report recovered again settled,
      recoverAgentsAt results timestamp db = .ok (.ok report, recovered) ∧
      recoverAgentsAt later laterTimestamp recovered = .ok (.ok again, settled) ∧
      (∀ run ∈ recovered.runs, run.status.isActive = false) ∧
      (∀ permission ∈ recovered.permissions, permission.status.isActive = false) ∧
      again.runsFailed = 0 ∧ again.writeOutcomesUnknown = 0 ∧ again.permissionsRevoked = 0 ∧
      settled = { recovered with
        resultHandles := recovered.resultHandles.filter fun handle =>
          !(decide (handle.expiresAtMs ≤ laterTimestamp) ||
            (liveResult later handle.resultId laterTimestamp).isNone) } ∧
      (later = results → laterTimestamp = timestamp → settled = recovered) := by
  obtain ⟨report, recovered, hrecovered, hruns, hpermissions, hhandles⟩ :
      ∃ report recovered, recoverAgentsAt results timestamp db = .ok (.ok report, recovered) ∧
        (∀ run ∈ recovered.runs, run.status.isActive = false) ∧
        (∀ permission ∈ recovered.permissions, permission.status.isActive = false) ∧
        recovered.resultHandles = db.resultHandles.filter fun handle =>
          !(decide (handle.expiresAtMs ≤ timestamp) ||
            (liveResult results handle.resultId timestamp).isNone) := by
    refine ⟨_, _, rfl, ?_, ?_, rfl⟩
    · rw [recoverRuns_eq]
      intro run hrun
      obtain ⟨old, -, rfl⟩ := Rows.mem_update.mp hrun
      exact inactive_recovered old timestamp
    · intro permission hpermission
      obtain ⟨old, -, rfl⟩ := Rows.mem_update.mp hpermission
      split
      · rfl
      · rename_i hinactive
        simpa using hinactive
  obtain ⟨again, hagain, hfailed, hunknown, hrevoked⟩ :=
    @recoverAgentsAt_of_inactive later laterTimestamp recovered hruns hpermissions
  refine ⟨report, recovered, again, _, hrecovered, hagain, hruns, hpermissions, hfailed, hunknown,
    hrevoked, rfl, ?_⟩
  rintro rfl rfl
  rw [List.filter_eq_self.mpr]
  intro handle hhandle
  rw [hhandles] at hhandle
  exact (List.mem_filter.mp hhandle).2

end Chat2DB.Storage
