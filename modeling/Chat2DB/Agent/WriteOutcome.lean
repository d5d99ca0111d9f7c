import Chat2DB.Agent.SqlTools
import Chat2DB.Storage.AgentTranscript

/-! # Tool outcomes tell the truth about the database

What holds of the store and of the log of one call of the write tool, stage by
stage, whatever other tasks commit in between and wherever a storage call breaks
off.
-/

namespace Chat2DB.Agent

open Storage Outcome

variable {json : JsonEngine} {runId : String}

/-! ## Between two storage calls -/

section Turns

variable (turn : StorageTurn runId) {world : ToolWorld}

/-- What single calls from outside keep is kept by all that come in between. -/
theorem interleave_keeps {motive : AgentDb → Prop}
    (hstep : ∀ op db, op.outside runId = true → db.Sound → motive db → motive (exec json op db).2)
    (hsound : world.db.Sound) (hmotive : motive world.db) :
    (world.interleave json turn).db.Sound ∧ motive (world.interleave json turn).db := by
  have hall : ∀ (others : List { op : AgentOp // op.outside runId = true }) (db : AgentDb),
      db.Sound → motive db →
      (Trace.run (exec json) db (others.map Subtype.val)).Sound ∧
        motive (Trace.run (exec json) db (others.map Subtype.val)) := by
    intro others
    induction others with
    | nil => exact fun db hsound hmotive => ⟨hsound, hmotive⟩
    | cons op rest ih =>
      intro db hsound hmotive
      exact ih _ (exec_sound json op.val hsound) (hstep op.val db op.property hsound hmotive)
  exact hall turn.others world.db hsound hmotive

/-- A storage call commits and answers, or fails before or after its commit. -/
theorem storageCall_cases (json : JsonEngine) (op : CallEnv → AgentOp)
    (world : ToolWorld) :
    (∃ value, storageCall json turn op world =
        (.ok value, (world.interleave json turn).commit json (op turn.env)) ∧
      (exec json (op turn.env) (world.interleave json turn).db).1 = .ok value) ∨
    ∃ error after, storageCall json turn op world = (.error error, after) ∧
      (after = world.interleave json turn ∨
        after = (world.interleave json turn).commit json (op turn.env)) := by
  unfold storageCall
  simp only
  split
  · exact .inr ⟨_, _, rfl, .inl rfl⟩
  · exact .inr ⟨_, _, rfl, .inr rfl⟩
  · cases hreply : (exec json (op turn.env) (world.interleave json turn).db).1 with
    | ok value => exact .inl ⟨value, rfl, rfl⟩
    | error error => exact .inr ⟨error, _, rfl, .inr rfl⟩

end Turns

/-- Nothing was dispatched yet. -/
structure ToolWorld.Idle (world : ToolWorld) : Prop where
  sound : world.db.Sound
  unrecorded : world.unknownWrite = none
  undispatched : ∀ sql, .dispatched sql ∉ world.log

theorem ToolWorld.Idle.commit {world : ToolWorld} (hidle : world.Idle) (op : AgentOp) :
    (world.commit json op).Idle where
  sound := exec_sound json op hidle.sound
  unrecorded := hidle.unrecorded
  undispatched := by
    intro sql hmem
    unfold ToolWorld.commit at hmem
    simp only at hmem
    split at hmem
    · rcases List.mem_append.mp hmem with hold | hnew
      · exact hidle.undispatched sql hold
      · simp at hnew
    · exact hidle.undispatched sql hmem

/-- Kept by the calls that other tasks may make. -/
def StableOutside (json : JsonEngine) (runId : String) (kept : AgentDb → Prop) : Prop :=
  ∀ op db, op.outside runId = true → db.Sound → kept db → kept (exec json op db).2

/-- Before the dispatch, with a fact about the store. -/
def ToolWorld.IdleWith (kept : AgentDb → Prop) (world : ToolWorld) : Prop :=
  world.Idle ∧ kept world.db

section Stages

variable (turn : StorageTurn runId) {kept : AgentDb → Prop}

theorem ToolWorld.IdleWith.interleave {world : ToolWorld} (hstable : StableOutside json runId kept)
    (hworld : world.IdleWith kept) : (world.interleave json turn).IdleWith kept := by
  obtain ⟨hidle, hkept⟩ := hworld
  obtain ⟨hsound, hkept⟩ := interleave_keeps turn hstable hidle.sound hkept
  exact ⟨⟨hsound, hidle.unrecorded, hidle.undispatched⟩, hkept⟩

/-- The rule of a storage call between calls from outside. -/
theorem storageCall_triple {op : CallEnv → AgentOp} (grants : AgentReply → AgentDb → Prop)
    (hstable : StableOutside json runId kept)
    (hcommit : ∀ db, db.Sound → kept db → kept (exec json (op turn.env) db).2)
    (hgrants : ∀ db value, db.Sound → kept db →
      (exec json (op turn.env) db).1 = .ok value → grants value (exec json (op turn.env) db).2) :
    Effect.Triple (ToolWorld.IdleWith kept) (storageCall json turn op)
      (fun value world => world.IdleWith kept ∧ grants value world.db ∧
        .committed (op turn.env) ∈ world.log)
      (fun _ => ToolWorld.IdleWith kept) := by
  intro world hworld
  have hbefore := hworld.interleave turn hstable
  have hafter : ((world.interleave json turn).commit json (op turn.env)).IdleWith kept :=
    ⟨hbefore.1.commit _, hcommit _ hbefore.1.sound hbefore.2⟩
  rcases storageCall_cases turn json op world with
    ⟨value, heq, hreply⟩ | ⟨error, after, heq, rfl | rfl⟩
  · rw [heq]
    refine ⟨hafter, hgrants _ _ hbefore.1.sound hbefore.2 hreply, ?_⟩
    simp [ToolWorld.commit, hreply]
  · rw [heq]
    exact hbefore
  · rw [heq]
    exact hafter

theorem storageRead_triple {α : Type} (read : AgentDb → α) (noted : List WriteEffect → Prop)
    (hstable : StableOutside json runId kept) :
    Effect.Triple (fun world => world.IdleWith kept ∧ noted world.log) (storageRead json turn read)
      (fun value world => (world.IdleWith kept ∧ noted world.log) ∧ value = read world.db)
      (fun _ => ToolWorld.IdleWith kept) := by
  rintro world ⟨hworld, hlog⟩
  have hbefore := hworld.interleave turn hstable
  unfold storageRead
  simp only
  split
  · rename_i heq
    split at heq
    · obtain ⟨rfl, rfl⟩ := by simpa using heq
      exact ⟨⟨hbefore, hlog⟩, rfl⟩
    · cases heq
  · rename_i heq
    split at heq
    · cases heq
    · obtain ⟨_, rfl⟩ := by simpa using heq
      exact hbefore

end Stages

theorem StableOutside.and {first second : AgentDb → Prop} (hfirst : StableOutside json runId first)
    (hsecond : StableOutside json runId second) :
    StableOutside json runId fun db => first db ∧ second db := by
  intro op db houtside hsound hboth
  exact ⟨hfirst op db houtside hsound hboth.1, hsecond op db houtside hsound hboth.2⟩

/-! ## Transitions of the tool -/

section Transitions

variable {turn : TransitionTurn runId} {kept : AgentDb → Prop} {op : CallEnv → AgentOp}
  {grants : ToolPermissionRecord → AgentDb → Prop}
  {shown : ToolPermissionRecord → Option ToolPermissionRecord}
  {event : ToolPermissionRecord → Except ApiError AgentEvent}

/-- The call is in the log, its permission grants what the call promises, and
the snapshot shows it. -/
def Persisted (grants : ToolPermissionRecord → AgentDb → Prop)
    (shown : ToolPermissionRecord → Option ToolPermissionRecord) (op : AgentOp)
    (snapshot : AgentRunSnapshot) (world : ToolWorld) : Prop :=
  .committed op ∈ world.log ∧ ∃ permission run, grants permission world.db ∧
    snapshotFromRun run (shown permission) = .ok snapshot

/-- The rule of a permission transition: it ends with the permission it asked for, or in an error
that leaves the write alone. -/
theorem persistPermission_triple (hstable : StableOutside json runId kept)
    (hgrantsStable : ∀ permission, StableOutside json runId (grants permission))
    (hcommit : ∀ db, db.Sound → kept db → kept (exec json (op turn.commit.env) db).2)
    (hgrants : ∀ db permission, db.Sound → kept db →
      (exec json (op turn.commit.env) db).1 = .ok (.permission permission) →
      grants permission (exec json (op turn.commit.env) db).2) :
    Effect.Triple (ToolWorld.IdleWith kept) (persistPermission json turn op shown event)
      (fun durable world => world.IdleWith kept ∧
        Persisted grants shown (op turn.commit.env) durable.snapshot world)
      (fun _ => ToolWorld.IdleWith kept) := by
  let granted : AgentReply → AgentDb → Prop := fun reply db =>
    ∀ permission, AgentReply.permission? reply = some permission → grants permission db
  have hcall := storageCall_triple turn.commit granted hstable hcommit
    (by
      intro db value hsound hkept hreply permission hpermission
      cases value with
      | permission record =>
        obtain rfl := Option.some.inj hpermission
        exact hgrants db record hsound hkept hreply
      | _ => cases hpermission)
  refine Effect.Triple.bind (Effect.Triple.mapError hcall) fun reply => ?_
  have hboth : StableOutside json runId fun db => kept db ∧ granted reply db :=
    hstable.and fun op db houtside hsound hgranted permission hpermission =>
      hgrantsStable permission op db houtside hsound (hgranted permission hpermission)
  have hread := storageRead_triple turn.readBack (fun db => db.loadRun runId)
    (.committed (op turn.commit.env) ∈ ·) hboth
  refine (Effect.Triple.bind (Effect.Triple.mapError (hread.weaken_failed ?_))
    fun found => ?_).strengthen ?_
  · exact fun error world hworld => ⟨hworld.1, hworld.2.1⟩
  · have hkept : ∀ {found} (world : ToolWorld),
        ((world.IdleWith (fun db => kept db ∧ granted reply db) ∧
          .committed (op turn.commit.env) ∈ world.log) ∧ found = world.db.loadRun runId) →
        world.IdleWith kept :=
      fun world hworld => ⟨hworld.1.1.1, hworld.1.1.2.1⟩
    split
    · rename_i permission run hpermission
      refine Effect.Triple.bind (Effect.Triple.mapError (Effect.Triple.of_ofExcept ?_))
        fun snapshot => Effect.Triple.bind (Effect.Triple.mapError (Effect.Triple.of_ofExcept ?_))
          fun event => Effect.Triple.of_pure ?_
      · exact fun error world hworld => hkept world hworld
      · exact fun error world hworld => hkept world hworld.1
      · exact fun world hworld => ⟨hkept world hworld.1.1, hworld.1.1.1.2, permission, run,
          hworld.1.1.1.1.2.2 permission hpermission, hworld.1.2⟩
    · exact Effect.Triple.of_fail hkept
  · exact fun world hworld => ⟨⟨hworld.1.1, hworld.1.2, hworld.2.1⟩, hworld.2.2⟩

/-- The rule of a transition that is tried again. -/
theorem transition_triple (kept : AgentDb → Prop) (grants : ToolPermissionRecord → AgentDb → Prop)
    {op : Nat → CallEnv → AgentOp} (hstable : StableOutside json runId kept)
    (hgrantsStable : ∀ permission, StableOutside json runId (grants permission))
    (hcommit : ∀ sequence db, db.Sound → kept db →
      kept (exec json (op sequence turn.commit.env) db).2)
    (hgrants : ∀ sequence db permission, db.Sound → kept db →
      (exec json (op sequence turn.commit.env) db).1 = .ok (.permission permission) →
      grants permission (exec json (op sequence turn.commit.env) db).2) :
    Effect.Triple (ToolWorld.IdleWith kept)
      (transition turn fun sequence => persistPermission json turn (op sequence) shown event)
      (fun snapshot world => world.IdleWith kept ∧
        ∃ sequence, Persisted grants shown (op sequence turn.commit.env) snapshot world)
      (fun _ => ToolWorld.IdleWith kept) := by
  refine Effect.Triple.bind (Effect.Triple.of_ofExcept fun _ _ hworld => hworld) fun offer =>
    Effect.Triple.bind (Effect.Triple.mapError ((persistPermission_triple hstable hgrantsStable
      (hcommit offer.1) (hgrants offer.1)).strengthen fun _ hworld => hworld.1)) fun durable => ?_
  split
  · refine Effect.Triple.bind (Effect.Triple.of_ofExcept fun _ _ hworld => hworld.1) fun _ =>
      Effect.Triple.of_pure ?_
    exact fun world hworld => ⟨hworld.1.1, offer.1, hworld.1.2⟩
  · exact Effect.Triple.of_fail fun world hworld => hworld.1

end Transitions

namespace SqlToolExecutor

/-! ## Up to the dispatch -/

/-- A failure before the dispatch. -/
def FailedIdle (error : ToolExecutionError) (world : ToolWorld) : Prop :=
  error.outcome ≠ .unknown ∧ world.Idle

/-- The permission under this id belongs to the call. -/
def Requested (runId callId id : String) : ToolWorld → Prop :=
  ToolWorld.IdleWith fun db => db.Bound id runId callId

section Authorization

variable {callId id : String} {digest : Sha256}

theorem bound_stable (json : JsonEngine) (runId callId id : String) :
    StableOutside json runId fun db => db.Bound id runId callId := by
  intro op db houtside hsound hbound
  exact exec_bound op hsound hbound (not_deletesSession_of_outside houtside)

/-- A permission that is loaded is bound to the call. -/
theorem loadPermission_triple (json : JsonEngine) (turn : StorageTurn runId) (callId id : String) :
    Effect.Triple (Requested runId callId id) (loadPermission json turn id)
      (fun permission world =>
        Requested runId callId id world ∧ permission.id = id ∧ permission.toolCallId = callId)
      FailedIdle := by
  have hread := storageRead_triple turn (fun db => db.loadPermission id) (fun _ => True)
    (bound_stable json runId callId id)
  refine (Effect.Triple.bind (Effect.Triple.mapError (hread.weaken_failed ?_))
    fun found => ?_).strengthen fun world hworld => ⟨hworld, trivial⟩
  · exact fun error world hworld => ⟨by simp [toolError], hworld.1⟩
  · split
    · rename_i permission
      refine Effect.Triple.of_pure ?_
      rintro world ⟨⟨hworld, _⟩, hfound⟩
      obtain ⟨hmem, hid⟩ := Rows.find_mem hfound.symm
      obtain ⟨other, hother, hotherId, _, hotherCall⟩ := hworld.2
      have hequal := hworld.1.sound.wellKeyed.permissions.eq_of_key_eq hmem hother
        (hid.trans hotherId.symm)
      exact ⟨hworld, hid, by rw [hequal, hotherCall]⟩
    · exact Effect.Triple.of_fail fun world hworld => ⟨by simp, hworld.1.1.1⟩

theorem pendingPermission_of_snapshotFromRun {run : AgentRunRecord}
    {permission : Option ToolPermissionRecord} {snapshot : AgentRunSnapshot}
    (hsnapshot : snapshotFromRun run permission = .ok snapshot) :
    permission.mapM permissionRequest = .ok snapshot.pendingPermission := by
  unfold snapshotFromRun at hsnapshot
  obtain ⟨pending, hpending, hsnapshot⟩ := (bind_eq_ok _ _ _).mp hsnapshot
  by_cases hwaiting : run.status = .waitingPermission ↔ pending.isSome
  · rw [if_pos hwaiting] at hsnapshot
    obtain ⟨error, _, hsnapshot⟩ := (bind_eq_ok _ _ _).mp hsnapshot
    split_ifs at hsnapshot
    obtain rfl := (pure_eq_ok _ _).mp hsnapshot
    exact hpending
  · rw [if_neg hwaiting] at hsnapshot
    cases hsnapshot

theorem permissionId_of_snapshotFromRun {run : AgentRunRecord} {permission : ToolPermissionRecord}
    {snapshot : AgentRunSnapshot} {pending : AgentPermissionRequest}
    (hsnapshot : snapshotFromRun run (some permission) = .ok snapshot)
    (hpending : snapshot.pendingPermission = some pending) :
    pending.permissionId = permission.id := by
  have hrequest := pendingPermission_of_snapshotFromRun hsnapshot
  rw [hpending, Option.mapM_some] at hrequest
  unfold permissionRequest at hrequest
  split at hrequest
  · simp only [map_eq_pure_bind, bind_eq_ok, pure_eq_ok] at hrequest
    obtain ⟨request, hrequest, hsome⟩ := hrequest
    rw [← Option.some.inj hsome, ← Except.ok.inj hrequest]
  · cases hrequest

/-- A request that is answered gives a permission bound to its call. -/
theorem createToolPermission_grants {db : AgentDb} {env : CallEnv} {input : RequestToolPermission}
    {permission : ToolPermissionRecord}
    (hreply : (exec json (.createToolPermission env runId input) db).1 =
      .ok (.permission permission)) :
    (exec json (.createToolPermission env runId input) db).2.Bound permission.id runId
      input.toolCallId := by
  obtain ⟨result, db', hop, hdb', hvalue⟩ := reply_ok hreply
  obtain rfl := AgentReply.permission.inj hvalue
  rw [exec, hdb']
  exact createToolPermission_bound hop

/-- A request dispatches nothing and ends with a permission of the call. -/
theorem requestWritePermission_triple {executor : SqlToolExecutor runId}
    {turn : TransitionTurn runId} {load : StorageTurn runId} {invocation : ToolInvocation}
    {sql : String} :
    Effect.Triple ToolWorld.Idle
      (requestWritePermission json executor turn load invocation sql digest)
      (fun permission world => Requested runId invocation.callId permission.id world)
      FailedIdle := by
  refine (Effect.Triple.bind (Effect.Triple.mapError ((transition_triple (fun _ => True)
    (fun permission db => db.Bound permission.id runId invocation.callId)
    (fun _ _ _ _ _ => trivial) (fun _ => bound_stable _ _ _ _) (fun _ _ _ _ => trivial)
    (fun _ _ _ _ _ hreply => createToolPermission_grants hreply)).weaken_failed ?_))
    fun snapshot => ?_).strengthen fun world hworld => ⟨hworld, trivial⟩
  · exact fun error world hworld => ⟨by simp [toolError], hworld.1⟩
  · split
    · rename_i pending hpending
      refine ((loadPermission_triple json load invocation.callId pending.permissionId).weaken ?_ fun _ _ hfailed => hfailed).strengthen ?_
      · exact fun permission world hloaded => by
          rw [hloaded.2.1]
          exact hloaded.1
      · rintro world ⟨hidle, _, _, permission, run, hbound, hsnapshot⟩
        rw [permissionId_of_snapshotFromRun hsnapshot hpending]
        exact ⟨hidle.1, hbound⟩
    · exact Effect.Triple.of_fail fun world hworld => ⟨by simp [internalToolError], hworld.1.1⟩

theorem abandonPermission_triple (turn : TransitionTurn runId) (permission : ToolPermissionRecord)
    (status : ToolPermissionStatus) :
    Effect.Triple (Requested runId callId id) (abandonPermission json turn permission status)
      (fun _ => Requested runId callId id) FailedIdle := by
  refine Effect.Triple.bind (Effect.Triple.mapError ((transition_triple
    (fun db => db.Bound id runId callId) (fun _ _ => True) (bound_stable _ _ _ _)
    (fun _ _ _ _ _ _ => trivial) ?_ (fun _ _ _ _ _ _ => trivial)).weaken_failed ?_))
    fun _ => Effect.Triple.of_pure fun world hworld => hworld.1
  · intro sequence db hsound hbound
    refine exec_bound _ hsound hbound ?_
    rintro sessionId ⟨⟨env, hdelete⟩, _⟩
    split at hdelete <;> cases hdelete
  · exact fun error world hworld => ⟨by simp [toolError], hworld.1⟩

theorem revokeAfterLocalCancellation_triple (readRun load : StorageTurn runId)
    (revoke : TransitionTurn runId) (permission : ToolPermissionRecord) :
    Effect.Triple (Requested runId callId permission.id)
      (revokeAfterLocalCancellation json readRun load revoke permission)
      (fun _ => Requested runId callId permission.id) FailedIdle := by
  have hread := storageRead_triple readRun (fun db => db.loadRun runId) (fun _ => True)
    (bound_stable json runId callId permission.id)
  refine (Effect.Triple.bind (Effect.Triple.mapError (hread.weaken_failed ?_))
    fun run => ?_).strengthen fun world hworld => ⟨hworld, trivial⟩
  · exact fun error world hworld => ⟨by simp [toolError], hworld.1⟩
  · split
    · exact Effect.Triple.of_pure fun world hworld => hworld.1.1
    · refine (Effect.Triple.bind (loadPermission_triple json load callId permission.id)
        fun current => ?_).strengthen fun world hworld => hworld.1.1
      split
      · exact (abandonPermission_triple revoke current .revoked).strengthen
          fun world hworld => hworld.1
      · exact Effect.Triple.of_pure fun world hworld => hworld.1

/-- Waiting dispatches nothing, whatever the decision. -/
theorem waitForPermission_triple (permission : ToolPermissionRecord) (turn : WaitTurn runId) :
    Effect.Triple (Requested runId callId permission.id) (waitForPermission json permission turn)
      (fun _ => Requested runId callId permission.id) FailedIdle := by
  cases turn with
  | refused error =>
    exact Effect.Triple.of_fail fun world hworld => ⟨by simp [toolError], hworld.1⟩
  | cancelled readRun load revoke =>
    refine Effect.Triple.bind (revokeAfterLocalCancellation_triple readRun load revoke permission)
      fun _ => Effect.Triple.of_fail ?_
    exact fun world hworld => ⟨by simp [toolCancelled], hworld.1⟩
  | resolved status => exact Effect.Triple.of_pure fun world hworld => hworld
  | waiterCancelled =>
    exact Effect.Triple.of_fail fun world hworld => ⟨by simp [toolCancelled], hworld.1⟩
  | expired expire =>
    exact Effect.Triple.bind (abandonPermission_triple expire permission .expired)
      fun _ => Effect.Triple.of_pure fun world hworld => hworld

/-- A consume of exactly this call and digest is in the log. -/
def ConsumedIn (runId callId : String) (digest : Sha256) (log : List WriteEffect) : Prop :=
  ∃ env id revision sequence,
    .committed (.consumeToolPermission env id revision runId callId digest sequence) ∈ log

/-- The write is in flight and its permission is used up. -/
def Spent (runId callId : String) (digest : Sha256) (db : AgentDb) : Prop :=
  db.InFlight runId callId digest ∧ db.Used runId callId

theorem spent_stable : StableOutside json runId (Spent runId callId digest) := by
  rintro op db houtside hsound ⟨hflight, hused⟩
  exact ⟨exec_inFlight_of_outside hsound houtside hflight,
    exec_used op hsound hused (not_deletesSession_of_outside houtside)⟩

/-- Ready for the dispatch: the permission is used and nothing else happened. -/
structure Authorized (runId callId : String) (digest : Sha256) (world : ToolWorld) : Prop where
  idle : world.Idle
  spent : Spent runId callId digest world.db
  consumed : ConsumedIn runId callId digest world.log

/-- A consumption that succeeds authorizes the one write. -/
theorem consumePermission_triple (turn : TransitionTurn runId) (permission : ToolPermissionRecord) :
    Effect.Triple ToolWorld.Idle (consumePermission json turn permission digest)
      (fun _ => Authorized runId permission.toolCallId digest) FailedIdle := by
  refine (Effect.Triple.bind (Effect.Triple.mapError ((transition_triple (fun _ => True)
    (fun _ => Spent runId permission.toolCallId digest) (fun _ _ _ _ _ => trivial)
    (fun _ => spent_stable) (fun _ _ _ _ => trivial) ?_).weaken_failed ?_))
    fun _ => Effect.Triple.of_pure ?_).strengthen fun world hworld => ⟨hworld, trivial⟩
  · intro sequence db _ hsound _ hreply
    obtain ⟨hflight, hused⟩ := exec_consumeToolPermission hsound hreply
    obtain ⟨used, hmem, _, hrun, hcall, hstatus⟩ := hused.after
    exact ⟨hflight, used, hmem, hrun, hcall, hstatus⟩
  · exact fun error world hworld => ⟨by simp [toolError], hworld.1⟩
  · rintro world ⟨⟨hidle, _⟩, sequence, hlog, _, _, hspent, _⟩
    exact ⟨hidle, hspent, _, _, _, _, hlog⟩

/-- No write is dispatched before it is authorized. -/
theorem authorizeWrite_triple (executor : SqlToolExecutor runId) (invocation : ToolInvocation)
    (script : WriteScript runId) :
    Effect.Triple ToolWorld.Idle (authorizeWrite json executor invocation script)
      (fun _ => Authorized runId invocation.callId invocation.argumentsSha256) FailedIdle := by
  unfold authorizeWrite
  split
  · exact Effect.Triple.of_fail fun world hworld => ⟨by simp, hworld⟩
  · split
    · exact Effect.Triple.of_fail fun world hworld => ⟨by simp [invalidArguments], hworld⟩
    · split
      · exact Effect.Triple.of_fail fun world hworld => ⟨by simp [invalidArguments], hworld⟩
      · refine Effect.Triple.bind requestWritePermission_triple fun permission =>
          Effect.Triple.bind (waitForPermission_triple permission script.wait) fun status => ?_
        split
        · refine Effect.Triple.of_fail fun world hworld => ⟨?_, hworld.1⟩
          cases status <;> simp [permissionError]
        · refine Effect.Triple.bind (loadPermission_triple json script.approved invocation.callId
            permission.id) fun approved => Effect.Triple.bind ?_ fun _ =>
              Effect.Triple.of_pure fun world hworld => hworld
          rintro world ⟨hworld, _, hcall⟩
          rw [← hcall]
          exact consumePermission_triple script.consume approved world hworld.1

end Authorization

/-! ## After the dispatch -/

/-- The update was handed over once, after its permission was used. -/
def DispatchedOnce (runId callId : String) (digest : Sha256) (log : List WriteEffect) : Prop :=
  ∃ before sql after, log = before ++ .dispatched sql :: after ∧
    ConsumedIn runId callId digest before ∧
    (∀ other, .dispatched other ∉ before) ∧ ∀ other, .dispatched other ∉ after

/-- After the dispatch, with what the executor recorded and with the fence as
`fence` says. -/
structure Settling (runId : String) (write : UnknownWrite) (recorded : Option UnknownWrite)
    (fence : AgentDb → Prop) (world : ToolWorld) : Prop where
  sound : world.db.Sound
  recorded : world.unknownWrite = recorded
  once : DispatchedOnce runId write.toolCallId write.argumentsSha256 world.log
  used : world.db.Used runId write.toolCallId
  fence : fence world.db

/-- The transaction of the attempt is committed: it is not stopped before, and
the clock can be read. -/
def SettleTurn.commits (turn : SettleTurn runId) : Bool :=
  turn.settle.fault ≠ .beforeCommit && turn.settle.env.clock.isOk

/-- The settlement is committed, and neither its answer nor the read-back comes
through. -/
def SettleTurn.lost (turn : SettleTurn runId) : Bool :=
  turn.commits && turn.settle.fault = .afterCommit && turn.readBack.fault ≠ .none

/-- The next attempt is made. -/
def SettleTurn.retried (turn : SettleTurn runId) : Bool :=
  !turn.commits && turn.readBack.fault = .none

/-- One of the attempts that are made is lost. -/
def lostIn : List (SettleTurn runId) → Bool
  | [] => false
  | turn :: rest => turn.lost || (turn.retried && lostIn rest)

section Settlement

variable {write : UnknownWrite} {recorded : Option UnknownWrite} {fence : AgentDb → Prop}

def flying (runId : String) (write : UnknownWrite) (db : AgentDb) : Prop :=
  db.InFlight runId write.toolCallId write.argumentsSha256

theorem flying_stable : StableOutside json runId (flying runId write) :=
  fun _ _ houtside hsound hflight => exec_inFlight_of_outside hsound houtside hflight

theorem unfenced_stable : StableOutside json runId fun db => db.Unfenced runId :=
  fun _ _ houtside hsound hunfenced => exec_unfenced_of_outside hsound houtside hunfenced

theorem Settling.interleave (turn : StorageTurn runId) (hstable : StableOutside json runId fence)
    {world : ToolWorld} (hworld : Settling runId write recorded fence world) :
    Settling runId write recorded fence (world.interleave json turn) := by
  have hused : StableOutside json runId fun db => db.Used runId write.toolCallId :=
    fun op db houtside hsound hused =>
      exec_used op hsound hused (not_deletesSession_of_outside houtside)
  obtain ⟨hsound, hused, hfence⟩ := interleave_keeps turn (hused.and hstable) hworld.sound
    ⟨hworld.used, hworld.fence⟩
  exact ⟨hsound, hworld.recorded, hworld.once, hused, hfence⟩

theorem DispatchedOnce.append_committed {callId : String} {digest : Sha256}
    {log : List WriteEffect} (honce : DispatchedOnce runId callId digest log) (op : AgentOp) :
    DispatchedOnce runId callId digest (log ++ [.committed op]) := by
  obtain ⟨before, sql, after, rfl, hconsumed, hbefore, hafter⟩ := honce
  refine ⟨before, sql, after ++ [.committed op], by simp, hconsumed, hbefore, ?_⟩
  intro other hmem
  rcases List.mem_append.mp hmem with hold | hnew
  · exact hafter other hold
  · simp at hnew

/-- A commit of one's own while a write settles. -/
theorem Settling.commit {world : ToolWorld} {after : AgentDb → Prop} (op : AgentOp)
    (hworld : Settling runId write recorded fence world)
    (hkept : ∀ sessionId, ¬ op.DeletesSession json sessionId world.db)
    (hafter : after (exec json op world.db).2) :
    Settling runId write recorded after (world.commit json op) where
  sound := exec_sound json op hworld.sound
  recorded := hworld.recorded
  once := by
    simp only [ToolWorld.commit]
    split
    · exact hworld.once.append_committed op
    · exact hworld.once
  used := exec_used op hworld.sound hworld.used hkept
  fence := hafter

/-- A settlement that is committed takes the fence away. -/
theorem Settling.settle (json : JsonEngine) {world : ToolWorld} (env : CallEnv)
    (hworld : Settling runId write recorded (flying runId write) world) :
    let op := .settleAgentWrite env runId write.toolCallId write.argumentsSha256
    (env.clock.isOk = true ∧ ∃ value, (exec json op world.db).1 = .ok value ∧
      Settling runId write recorded (·.Unfenced runId) (world.commit json op)) ∨
    (env.clock.isOk = false ∧ ∃ error, (exec json op world.db).1 = .error error ∧
      Settling runId write recorded (flying runId write) (world.commit json op)) := by
  intro op
  have hkept : ∀ sessionId, ¬ op.DeletesSession json sessionId world.db := by
    rintro sessionId ⟨⟨_, hdelete⟩, _⟩
    simp [op] at hdelete
  rcases exec_settleAgentWrite hworld.sound hworld.fence env with
    ⟨timestamp, value, hclock, hreply, hunfenced⟩ | ⟨error, hclock, hexec⟩
  · exact .inl ⟨by rw [hclock]; rfl, value, hreply, hworld.commit op hkept hunfenced⟩
  · refine .inr ⟨by rw [hclock]; rfl, error, congrArg Prod.fst hexec, hworld.commit op hkept ?_⟩
    rw [congrArg Prod.snd hexec]
    exact hworld.fence

/-- The settlement of an attempt clears the fence exactly when it is committed. -/
theorem settleCall_triple (turn : SettleTurn runId) :
    Effect.Triple (Settling runId write recorded (flying runId write))
      (storageCall json turn.settle fun env =>
        .settleAgentWrite env runId write.toolCallId write.argumentsSha256)
      (fun _ world => (turn.commits = true ∧ turn.settle.fault = .none) ∧
        Settling runId write recorded (·.Unfenced runId) world)
      (fun _ world => (turn.commits = true ∧ turn.settle.fault = .afterCommit ∧
          Settling runId write recorded (·.Unfenced runId) world) ∨
        turn.commits = false ∧ Settling runId write recorded (flying runId write) world) := by
  intro world hworld
  have hbefore : Settling runId write recorded (flying runId write)
      (world.interleave json turn.settle) := hworld.interleave turn.settle flying_stable
  have hsettle := hbefore.settle json turn.settle.env
  unfold storageCall SettleTurn.commits
  cases hfault : turn.settle.fault with
  | beforeCommit => exact .inr ⟨by simp, hbefore⟩
  | afterCommit =>
    rcases hsettle with ⟨hclock, _, _, hworld⟩ | ⟨hclock, _, _, hworld⟩
    · exact .inl ⟨by simp [hclock], rfl, hworld⟩
    · exact .inr ⟨by simp [hclock], hworld⟩
  | none =>
    rcases hsettle with ⟨hclock, value, hreply, hworld⟩ | ⟨hclock, error, hreply, hworld⟩
    · simp only [hreply]
      exact ⟨⟨by simp [hclock], trivial⟩, hworld⟩
    · simp only [hreply]
      exact .inr ⟨by simp [hclock], hworld⟩

theorem settleRead_triple (turn : StorageTurn runId) (hstable : StableOutside json runId fence) :
    Effect.Triple (Settling runId write recorded fence)
      (storageRead json turn fun db => db.loadRun runId)
      (fun found world => turn.fault = .none ∧ found = world.db.loadRun runId ∧
        Settling runId write recorded fence world)
      (fun _ world => turn.fault ≠ .none ∧ Settling runId write recorded fence world) := by
  intro world hworld
  have hbefore := hworld.interleave turn hstable
  unfold storageRead
  by_cases hfault : turn.fault = .none
  · simp only [if_pos hfault]
    exact ⟨hfault, trivial, hbefore⟩
  · simp only [if_neg hfault]
    exact ⟨hfault, hbefore⟩

/-- The settlement failed: the write is recorded, and the fence is cleared only
if a committed settlement was lost. -/
def SettleFailed (runId : String) (write : UnknownWrite) (lost : Bool) (error : ToolExecutionError)
    (world : ToolWorld) : Prop :=
  error.outcome = .unknown ∧
    Settling runId write (some write)
      (if lost then (·.Unfenced runId) else flying runId write) world

/-- An unknown outcome is recorded before its error is returned. -/
theorem recordUnknown_triple {α : Type} {error : ToolExecutionError}
    (hunknown : error.outcome = .unknown) :
    Effect.Triple (Settling runId write none fence)
      (do recordUnknown write; Effect.fail error : Effect ToolWorld ToolExecutionError α)
      (fun _ _ => False)
      (fun error world => error.outcome = .unknown ∧ Settling runId write (some write) fence world) :=
  Effect.Triple.bind
    (Effect.Triple.of_update fun _ hworld =>
      ⟨hworld.sound, rfl, hworld.once, hworld.used, hworld.fence⟩)
    fun _ => Effect.Triple.of_fail fun _ hworld => ⟨hunknown, hworld⟩

theorem reconcileSettlement_of_unfenced (turn : StorageTurn runId) (error : StorageError)
    (retry : Effect ToolWorld ToolExecutionError Unit) :
    Effect.Triple (Settling runId write none (·.Unfenced runId))
      (reconcileSettlement json write turn error retry)
      (fun _ world => turn.fault = .none ∧ Settling runId write none (·.Unfenced runId) world)
      (fun error world => turn.fault ≠ .none ∧ error.outcome = .unknown ∧
        Settling runId write (some write) (·.Unfenced runId) world) := by
  refine Effect.Triple.bind (Effect.Triple.attempt (settleRead_triple turn unfenced_stable))
    fun found => ?_
  cases found with
  | error error =>
    refine Effect.Triple.of_fact fun hfault => (recordUnknown_triple rfl).weaken ?_ ?_
    · exact fun _ _ hfalse => hfalse.elim
    · exact fun error world hfailed => ⟨hfault, hfailed⟩
  | ok found =>
    rintro world ⟨hfault, rfl, hworld⟩
    obtain ⟨run, hload, _, hcall, hdigest⟩ := hworld.fence
    simp only [hload, hcall, hdigest, Option.isNone_none, Bool.and_self, if_true]
    exact ⟨hfault, hworld⟩

/-- Where the fence still stands the settlement is tried again. -/
theorem reconcileSettlement_of_flying (turn : StorageTurn runId) (error : StorageError)
    {retry : Effect ToolWorld ToolExecutionError Unit} {returned : Unit → ToolWorld → Prop}
    {failed : ToolExecutionError → ToolWorld → Prop}
    (hretry : turn.fault = .none →
      Effect.Triple (Settling runId write none (flying runId write)) retry returned failed)
    (hfailed : turn.fault ≠ .none → ∀ error world, error.outcome = .unknown →
      Settling runId write (some write) (flying runId write) world → failed error world) :
    Effect.Triple (Settling runId write none (flying runId write))
      (reconcileSettlement json write turn error retry) returned failed := by
  refine Effect.Triple.bind (Effect.Triple.attempt (settleRead_triple turn flying_stable))
    fun found => ?_
  cases found with
  | error error =>
    refine Effect.Triple.of_fact fun hfault => (recordUnknown_triple rfl).weaken ?_ ?_
    · exact fun _ _ hfalse => hfalse.elim
    · exact fun error world hrecorded => hfailed hfault error world hrecorded.1 hrecorded.2
  | ok found =>
    rintro world ⟨hfault, rfl, hworld⟩
    obtain ⟨run, hload, _, hcall, hdigest⟩ := hworld.fence
    simp only [hload, hcall, hdigest, Option.isNone_some, Bool.and_self, Bool.false_eq_true,
      if_false, ne_eq, not_true_eq_false, or_self]
    exact hretry hfault world hworld

/-- The attempts settle the write, or record it. -/
theorem settleAttempts_triple (turns : List (SettleTurn runId)) (lastError : Option StorageError)
    (hattempted : turns ≠ [] ∨ lastError.isSome = true) :
    Effect.Triple (Settling runId write none (flying runId write))
      (settleAttempts json write turns lastError)
      (fun _ world => lostIn turns = false ∧ Settling runId write none (·.Unfenced runId) world)
      (SettleFailed runId write (lostIn turns)) := by
  induction turns generalizing lastError with
  | nil =>
    obtain ⟨error, rfl⟩ := Option.isSome_iff_exists.mp (hattempted.resolve_left (by simp))
    exact (recordUnknown_triple rfl).weaken (fun _ _ hfalse => hfalse.elim)
      fun _ _ hfailed => hfailed
  | cons turn rest ih =>
    refine Effect.Triple.bind (Effect.Triple.attempt (settleCall_triple turn)) fun settled => ?_
    cases settled with
    | ok value =>
      refine Effect.Triple.of_pure ?_
      rintro world ⟨⟨hcommits, hfault⟩, hworld⟩
      exact ⟨by simp [lostIn, SettleTurn.lost, SettleTurn.retried, hcommits, hfault], hworld⟩
    | error error =>
      rintro world (⟨hcommits, hfault, hworld⟩ | ⟨hcommits, hworld⟩)
      · refine (reconcileSettlement_of_unfenced turn.readBack error _).weaken ?_ ?_ world hworld
        · rintro _ world ⟨hread, hworld⟩
          have hlost : lostIn (turn :: rest) = false := by
            simp [lostIn, SettleTurn.lost, SettleTurn.retried, hcommits, hread]
          exact ⟨hlost, hworld⟩
        · rintro error world ⟨hread, hunknown, hworld⟩
          have hlost : lostIn (turn :: rest) = true := by
            simp [lostIn, SettleTurn.lost, hcommits, hfault, hread]
          rw [hlost]
          exact ⟨hunknown, hworld⟩
      · refine reconcileSettlement_of_flying turn.readBack error ?_ ?_ world hworld
        · intro hread
          have hlost : lostIn (turn :: rest) = lostIn rest := by
            simp [lostIn, SettleTurn.lost, SettleTurn.retried, hcommits, hread]
          rw [hlost]
          exact ih (some error) (.inr rfl)
        · intro hread error world hunknown hworld
          have hlost : lostIn (turn :: rest) = false := by
            simp [lostIn, SettleTurn.lost, SettleTurn.retried, hcommits, hread]
          rw [hlost]
          exact ⟨hunknown, hworld⟩

end Settlement

/-- The database said whether the update was executed. -/
def updateKnown : Except DatabaseWriteError Nat → Bool
  | .ok _ => true
  | .error error => error.outcome ≠ .unknown

/-- A settlement is made and one of its attempts is lost. -/
def WriteScript.settlementLost (script : WriteScript runId) : Bool :=
  updateKnown script.update && lostIn [script.first, script.second]

/-- How a dispatched write fails: settled, with an outcome that is known, or
recorded as unknown. -/
def DispatchFailed (runId : String) (script : WriteScript runId) (write : UnknownWrite)
    (error : ToolExecutionError) (world : ToolWorld) : Prop :=
  (error.outcome ≠ .unknown ∧ updateKnown script.update = true ∧ script.settlementLost = false ∧
    Settling runId write none (·.Unfenced runId) world) ∨
  error.outcome = .unknown ∧
    Settling runId write (some write)
      (if script.settlementLost then (·.Unfenced runId) else flying runId write) world

section Dispatch

variable {write : UnknownWrite}

/-- An authorized update is dispatched once. -/
theorem executeAgentUpdate_triple (script : WriteScript runId) (sql : String) :
    Effect.Triple (Authorized runId write.toolCallId write.argumentsSha256)
      (executeAgentUpdate script sql)
      (fun update world =>
        update = script.update ∧ Settling runId write none (flying runId write) world)
      (DispatchFailed runId script write) := by
  refine Effect.Triple.bind (Effect.Triple.of_update ?_)
    fun _ => Effect.Triple.of_pure fun world hworld => ⟨rfl, hworld⟩
  intro world hworld
  exact
    { sound := hworld.idle.sound
      recorded := hworld.idle.unrecorded
      once := ⟨world.log, sql, [], rfl, hworld.consumed, hworld.idle.undispatched, by simp⟩
      used := hworld.spent.2
      fence := hworld.spent.1 }

/-- A known outcome is settled, or recorded as unknown. -/
theorem settleWrite_triple (script : WriteScript runId) (hknown : updateKnown script.update = true) :
    Effect.Triple (Settling runId write none (flying runId write)) (settleWrite json script write)
      (fun _ world => script.settlementLost = false ∧
        Settling runId write none (·.Unfenced runId) world)
      (DispatchFailed runId script write) := by
  have hlost : script.settlementLost = lostIn [script.first, script.second] := by
    simp [WriteScript.settlementLost, hknown]
  refine (settleAttempts_triple [script.first, script.second] none (.inl (by simp))).weaken ?_ ?_
  · exact fun _ world hworld => ⟨hlost.trans hworld.1, hworld.2⟩
  · intro error world hworld
    right
    rw [hlost]
    exact hworld

/-- The rule of a dispatched write, over every answer of the driver. -/
theorem dispatchWrite_triple (script : WriteScript runId) (write : UnknownWrite) (sql : String) :
    Effect.Triple (Authorized runId write.toolCallId write.argumentsSha256)
      (dispatchWrite json script write sql)
      (fun _ world => updateKnown script.update = true ∧ script.settlementLost = false ∧
        Settling runId write none (·.Unfenced runId) world)
      (DispatchFailed runId script write) := by
  refine Effect.Triple.bind (executeAgentUpdate_triple script sql) fun update =>
    Effect.Triple.of_fact fun hupdate => ?_
  cases update with
  | ok affectedRows =>
    have hknown : updateKnown script.update = true := by rw [← hupdate]; rfl
    exact Effect.Triple.bind (settleWrite_triple script hknown)
      fun _ => Effect.Triple.of_pure fun world hworld => ⟨hknown, hworld⟩
  | error error =>
    by_cases hunknown : error.outcome = .unknown
    · simp only [if_pos hunknown]
      have hlost : script.settlementLost = false := by
        simp [WriteScript.settlementLost, ← hupdate, updateKnown, hunknown]
      have hreported : (databaseWriteError error).outcome = .unknown := by
        simp [databaseWriteError, toolError, hunknown]
      refine (recordUnknown_triple hreported).weaken (fun _ _ hfalse => hfalse.elim) ?_
      intro error world hworld
      right
      rw [hlost]
      exact hworld
    · simp only [if_neg hunknown]
      have hknown : updateKnown script.update = true := by
        simp [← hupdate, updateKnown, hunknown]
      refine Effect.Triple.bind (settleWrite_triple script hknown)
        fun _ => Effect.Triple.of_fail fun world hworld => .inl ⟨?_, hknown, hworld⟩
      cases houtcome : error.outcome with
      | notStarted => simp [databaseWriteError, toolError, houtcome]
      | unknown => exact absurd houtcome hunknown

end Dispatch

/-! ## The whole call -/

def IsUnknown {α : Type} (result : Except ToolExecutionError α) : Prop :=
  ∃ error, result = .error error ∧ error.outcome = .unknown

/-- No consume of the call is accepted again, while the session is kept. -/
def NeverAgain (json : JsonEngine) (runId callId : String) (db : AgentDb) : Prop :=
  ∀ ops : List { op : AgentOp // op.keepsSessions = true }, ∀ env id revision digest sequence,
    ∃ error, (exec json (.consumeToolPermission env id revision runId callId digest sequence)
      (Trace.run (exec json) db (ops.map Subtype.val))).1 = .error error

/-- The outcome of a call of the tool tells the truth about the database. -/
structure TruthfulOutcome (json : JsonEngine) (runId : String) (invocation : ToolInvocation)
    (update : Except DatabaseWriteError Nat) (result : Except ToolExecutionError String)
    (world : ToolWorld) : Prop where
  /-- The update is handed over at most once, and only after its permission was used. -/
  once : (∀ sql, .dispatched sql ∉ world.log) ∨
    DispatchedOnce runId invocation.callId invocation.argumentsSha256 world.log
  /-- A result that is not unknown means that nothing was handed over, or that the outcome is
  known and the fence is cleared. -/
  known : ¬ IsUnknown result → (∀ sql, .dispatched sql ∉ world.log) ∨
    updateKnown update = true ∧ world.db.Unfenced runId
  /-- An unknown outcome is recorded for exactly this call. -/
  recorded : (∃ sql, .dispatched sql ∈ world.log) → updateKnown update = false ∨ IsUnknown result →
    world.unknownWrite =
      some { toolCallId := invocation.callId, argumentsSha256 := invocation.argumentsSha256 }
  /-- The run of a recorded write ends with the outcome unknown. -/
  ends : world.unknownWrite.isSome = true → world.db.EndsUnknown json runId
  /-- A write that was handed over is not handed over again. -/
  again : (∃ sql, .dispatched sql ∈ world.log) → NeverAgain json runId invocation.callId world.db

section Outcome

variable {invocation : ToolInvocation} {update : Except DatabaseWriteError Nat}
  {result : Except ToolExecutionError String} {world : ToolWorld}

/-- A call that fails before it dispatches tells the truth. -/
theorem TruthfulOutcome.of_idle {error : ToolExecutionError} (hfailed : FailedIdle error world) :
    TruthfulOutcome json runId invocation update (.error error) world := by
  have hnone : ¬ ∃ sql, .dispatched sql ∈ world.log := by
    rintro ⟨sql, hmem⟩
    exact hfailed.2.undispatched sql hmem
  exact
    { once := .inl hfailed.2.undispatched
      known := fun _ => .inl hfailed.2.undispatched
      recorded := fun hdispatched _ => absurd hdispatched hnone
      ends := fun hsome => by simp [hfailed.2.unrecorded] at hsome
      again := fun hdispatched => absurd hdispatched hnone }

variable {recorded : Option UnknownWrite} {fence : AgentDb → Prop}

/-- The tool call of a dispatched write is not authorized again. -/
theorem Settling.neverAgain {write : UnknownWrite}
    (hworld : Settling runId write recorded fence world) :
    NeverAgain json runId write.toolCallId world.db := by
  intro ops env id revision digest sequence
  obtain ⟨hsound, hused⟩ := hworld.used.run hworld.sound ops
  exact hused.rejects hsound env id revision sequence

/-- The write of an invocation. -/
def ToolInvocation.write (invocation : ToolInvocation) : UnknownWrite :=
  { toolCallId := invocation.callId, argumentsSha256 := invocation.argumentsSha256 }

/-- A settled write is told as what the driver said. -/
theorem TruthfulOutcome.of_settled (hknown : updateKnown update = true)
    (hresult : ¬ IsUnknown result)
    (hworld : Settling runId (ToolInvocation.write invocation) none (·.Unfenced runId) world) :
    TruthfulOutcome json runId invocation update result world where
  once := .inr hworld.once
  known := fun _ => .inr ⟨hknown, hworld.fence⟩
  recorded := by
    rintro _ (hunknown | hunknown)
    · simp [hknown] at hunknown
    · exact absurd hunknown hresult
  ends := fun hsome => by simp [hworld.recorded] at hsome
  again := fun _ => hworld.neverAgain

theorem TruthfulOutcome.of_flying (hresult : IsUnknown result)
    (hworld : Settling runId (ToolInvocation.write invocation) (some (ToolInvocation.write invocation))
      (flying runId (ToolInvocation.write invocation)) world) :
    TruthfulOutcome json runId invocation update result world where
  once := .inr hworld.once
  known := fun hknown => absurd hresult hknown
  recorded := fun _ _ => hworld.recorded
  ends := fun _ => AgentDb.InFlight.endsUnknown hworld.sound hworld.fence
  again := fun _ => hworld.neverAgain

/-- A write that was settled and is told as unknown is not told truthfully. -/
theorem TruthfulOutcome.not_of_unfenced {write : UnknownWrite}
    (hworld : Settling runId write (some write) (·.Unfenced runId) world) :
    ¬ TruthfulOutcome json runId invocation update result world := by
  intro htruth
  have hends := htruth.ends (by simp [hworld.recorded])
  exact hworld.fence.not_endsUnknown hends

end Outcome

/-- From the dispatch on, the outcome is truthful unless the settlement is lost. -/
theorem dispatchWrite_truthful_iff {invocation : ToolInvocation} (script : WriteScript runId)
    (sql : String) {world : ToolWorld}
    (hauthorized : Authorized runId invocation.callId invocation.argumentsSha256 world) :
    let write : UnknownWrite :=
      { toolCallId := invocation.callId, argumentsSha256 := invocation.argumentsSha256 }
    TruthfulOutcome json runId invocation script.update
        (dispatchWrite json script write sql world).1
        (dispatchWrite json script write sql world).2 ↔ ¬ script.settlementLost = true := by
  intro write
  rcases (dispatchWrite_triple script write sql).ends hauthorized with
    ⟨value, after, hresult, hknown, hlost, hworld⟩ | ⟨error, after, hresult, hfailed⟩
  · rw [hresult]
    refine iff_of_true (.of_settled hknown ?_ hworld) (by simp [hlost])
    rintro ⟨_, herror, _⟩
    cases herror
  · rw [hresult]
    rcases hfailed with ⟨houtcome, hknown, hlost, hworld⟩ | ⟨houtcome, hworld⟩
    · refine iff_of_true (.of_settled hknown ?_ hworld) (by simp [hlost])
      rintro ⟨_, herror, hunknown⟩
      exact houtcome (Except.error.inj herror ▸ hunknown)
    · cases hlost : script.settlementLost with
      | false =>
        rw [hlost] at hworld
        exact iff_of_true (.of_flying ⟨error, rfl, houtcome⟩ hworld) (by simp)
      | true =>
        rw [hlost] at hworld
        exact iff_of_false (TruthfulOutcome.not_of_unfenced hworld) (by simp)

theorem executeWrite_truthful_of_idle (json : JsonEngine) (executor : SqlToolExecutor runId)
    (invocation : ToolInvocation) (script : WriteScript runId) {world : ToolWorld}
    (hidle : world.Idle) :
    TruthfulOutcome json runId invocation script.update
        (executeWrite json executor invocation script world).1
        (executeWrite json executor invocation script world).2 ↔
      ¬ ((authorizeWrite json executor invocation script world).1.isOk = true ∧
        script.settlementLost = true) := by
  unfold executeWrite
  rcases (authorizeWrite_triple executor invocation script).ends hidle with
    ⟨sql, after, hresult, hauthorized⟩ | ⟨error, after, hresult, hfailed⟩
  · rw [Effect.bind_of_ok hresult, hresult]
    exact (dispatchWrite_truthful_iff script sql hauthorized).trans
      (by simp [Except.isOk, Except.toBool])
  · rw [Effect.bind_of_error hresult, hresult]
    exact iff_of_true (.of_idle hfailed) (by simp [Except.isOk, Except.toBool])

/-- A call of the tool on a store that any calls led to. -/
def callWorld (json : JsonEngine) (ops : List AgentOp) : ToolWorld :=
  { db := storeAfter json ops, unknownWrite := none, log := [] }

theorem callWorld_idle (json : JsonEngine) (ops : List AgentOp) : (callWorld json ops).Idle :=
  ⟨storeAfter_sound json ops, rfl, by simp [callWorld]⟩

/-- The outcome of a call tells the truth exactly when no committed settlement
of its write is lost with its read-back. -/
theorem executeWrite_truthful_iff (json : JsonEngine) (ops : List AgentOp) (runId : String)
    (executor : SqlToolExecutor runId) (invocation : ToolInvocation) (script : WriteScript runId) :
    TruthfulOutcome json runId invocation script.update
        (executeWrite json executor invocation script (callWorld json ops)).1
        (executeWrite json executor invocation script (callWorld json ops)).2 ↔
      ¬ ((authorizeWrite json executor invocation script (callWorld json ops)).1.isOk = true ∧
        script.settlementLost = true) :=
  executeWrite_truthful_of_idle json executor invocation script (callWorld_idle json ops)

/-- A run whose write waits for the decision. -/
def lostSettlementOps : List AgentOp :=
  let env : CallEnv := { clock := .ok 0, uuid := fun _ => "session" }
  [ .createAgentSession env ["provider"] []
      { title := "chat", providerId := "provider", datasourceId := none, systemPrompt := none },
    .startAgentRunWithIds env "run" "message" "session"
      { userMessage := "hello", sqlPermissionMode := .askBeforeWrite } ]

def lostSettlementExecutor : SqlToolExecutor "run" :=
  { permissionMode := .askBeforeWrite
    progress :=
      { modelRounds := 0, toolCalls := 0, inputTokens := 0, outputTokens := 0, totalTokens := 0
        compactionCount := 0, compactedThroughOrdinal := none } }

def lostSettlementInvocation : ToolInvocation :=
  { callId := "call", name := "execute_database_write", sql := some "DELETE FROM t"
    argumentsSha256 := 0 }

def lostSettlementScript : WriteScript "run" :=
  let env : CallEnv := { clock := .ok 0, uuid := fun _ => "permission" }
  let quiet : StorageTurn "run" := { others := [], env, fault := .none }
  let snapshot (sequence : Nat) : AgentRunSnapshot :=
    { runId := "run", sessionId := "session", status := .running, lastSequence := some sequence
      updatedAtMs := "0", usage := { inputTokens := "0", outputTokens := "0", totalTokens := "0" }
      pendingPermission := none, messageId := none, error := none }
  let accepts (sequence : Nat) : TransitionTurn "run" :=
    { offered := .ok (sequence + 1, snapshot sequence), commit := quiet, readBack := quiet
      published := .ok () }
  { request := accepts 1
    requested := quiet
    wait := .resolved .approved
    approved :=
      { quiet with
        others := [⟨.decideToolPermission env "permission" 1 "run" "call" 0 3 .approve, rfl⟩] }
    consume := accepts 3
    update := .ok 1
    first :=
      { settle := { quiet with fault := .afterCommit }
        readBack := { quiet with fault := .beforeCommit } }
    second := { settle := quiet, readBack := quiet } }

/-- The settlement is committed, its answer and the read-back are lost: the write
is recorded as unknown, and the run cannot end so. -/
theorem lostSettlement_untruthful :
    ¬ ∀ (json : JsonEngine) (ops : List AgentOp) (runId : String)
      (executor : SqlToolExecutor runId) (invocation : ToolInvocation)
      (script : WriteScript runId),
      TruthfulOutcome json runId invocation script.update
        (executeWrite json executor invocation script (callWorld json ops)).1
        (executeWrite json executor invocation script (callWorld json ops)).2 := by
  intro htruth
  have hiff := executeWrite_truthful_of_idle JsonEngine.greeting lostSettlementExecutor
    lostSettlementInvocation lostSettlementScript
    (callWorld_idle JsonEngine.greeting lostSettlementOps)
  have hauthorized : (authorizeWrite JsonEngine.greeting lostSettlementExecutor
      lostSettlementInvocation lostSettlementScript
      (callWorld JsonEngine.greeting lostSettlementOps)).1.isOk = true := by decide +kernel
  exact hiff.mp (htruth _ _ _ _ _ _) ⟨hauthorized, by decide⟩

end SqlToolExecutor

end Chat2DB.Agent
