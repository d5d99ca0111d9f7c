import Chat2DB.Results.Quota
import Chat2DB.Results.RoundTrip

/-! # What holds however operations fail

Every action keeps the store sound, whether it ends, fails at some step or is
cut off by a crash, and every operation keeps it within the quota if it was
within the quota before.
-/

namespace Chat2DB.Results

open Stepwise (Allows Guarded)

variable {config : StoreConfig} {spoiled : List ResultId} {session : Session} {limit : Nat}
  {store other : ResultStore} {state next : StoreState} {operation : Operation} {id : ResultId}
  {steps : Nat} {image : CrashImage} {quotaMs : Int}

/-! ## Actions -/

theorem operate_cases (hstep : state.step config (.operate operation) = some next) :
    state.session.Enabled state.store operation ∧
      Stepwise.run (state.session.program config operation) state.store =
        (.ok next.session, next.store) := by
  rw [StoreState.step] at hstep
  by_cases henabled : state.session.Enabled state.store operation
  · rw [if_pos henabled] at hstep
    refine ⟨henabled, ?_⟩
    split at hstep
    · rename_i session store hrun
      cases hstep
      exact hrun
    · cases hstep
  · rw [if_neg henabled] at hstep
    cases hstep

theorem fail_cases {written cleaned : Nat}
    (hstep : state.faultyStep config (.fail operation steps written cleaned) = some next) :
    state.session.Enabled state.store operation ∧
      next.store = Stepwise.after state.store
        (state.failedSteps config operation steps written cleaned) ∧
      next.session = state.session.afterFailure operation := by
  rw [StoreState.faultyStep] at hstep
  by_cases henabled : state.session.Enabled state.store operation
  · rw [if_pos henabled] at hstep
    cases hstep
    exact ⟨henabled, rfl, rfl⟩
  · rw [if_neg henabled] at hstep
    cases hstep

theorem crash_cases {during : Option Operation}
    (hstep : state.step config (.crash during steps image) = some next) :
    (image.strays.map Prod.fst).Nodup ∧
      (∀ operation ∈ during, state.session.Enabled state.store operation) ∧
      next.store = (state.interrupted config during steps).crash image ∧
      next.session = { state.session with opened := false, writers := [] } := by
  rw [StoreState.step] at hstep
  by_cases hcrash : (image.strays.map Prod.fst).Nodup ∧
      ∀ operation ∈ during, state.session.Enabled state.store operation
  · rw [if_pos hcrash] at hstep
    cases hstep
    exact ⟨hcrash.1, hcrash.2, rfl, rfl⟩
  · rw [if_neg hcrash] at hstep
    cases hstep

theorem sound_initial : Sound [] StoreState.initial.session StoreState.initial.store where
  distinct := ⟨List.nodup_nil, List.nodup_nil⟩
  writers := List.nodup_nil
  known := by simp [StoreState.initial]
  held := by simp [StoreState.initial]
  closed := fun _ => rfl
  spoiledKnown := by simp
  spoiledPoisoned := by simp
  spoiledWriting := by simp

theorem Within.allows_steps (hwithin : Within spoiled state.session limit state.store)
    (hlimit : config.maxRetainedBytes ≤ limit)
    (henabled : state.session.Enabled state.store operation) :
    Allows (Permits spoiled (state.session.afterFailure operation) limit) state.store
      (state.stepsOf config operation) :=
  (Session.program_permits hwithin hlimit henabled).allows rfl

theorem Sound.allows_cleanup (hsound : Sound spoiled session store)
    (henabled : session.Enabled store operation) (cleaned : Nat) :
    Allows (Permits spoiled (session.afterFailure operation) limit) other
      (operation.cleanup.take cleaned) := by
  apply Stepwise.allows_of_forall
  intro step hstep state
  have hmem := List.mem_of_mem_take hstep
  cases operation with
  | begin id schema retention nowMs quotaMs =>
    have hfree : ∀ writer ∈ session.writers, writer.id ≠ id := by
      rintro writer hwriter rfl
      exact hsound.known writer hwriter henabled.2.2.2
    simp only [Operation.cleanup, List.mem_cons, List.not_mem_nil, or_false] at hmem
    rcases hmem with rfl | rfl
    · exact hfree
    · trivial
  | finish | abort =>
    simp only [Operation.cleanup, List.mem_cons, List.not_mem_nil, or_false] at hmem
    rcases hmem with rfl | rfl | rfl
    · exact fun writer hwriter => (of_mem_dropWriter hwriter).2
    · exact fun writer hwriter => (of_mem_dropWriter hwriter).2
    · trivial
  | openStore | append | purge => simp [Operation.cleanup] at hmem

theorem Within.operated (hwithin : Within spoiled state.session limit state.store)
    (hlimit : config.maxRetainedBytes ≤ limit)
    (hstep : state.step config (.operate operation) = some next) :
    Within spoiled next.session limit next.store := by
  obtain ⟨henabled, hrun⟩ := operate_cases hstep
  have hstart : ∀ start, start = state.store →
      Within spoiled (state.session.afterFailure operation) limit start := by
    rintro start rfl
    exact ⟨hwithin.sound.afterFailure operation, hwithin.accounted⟩
  have hprogram := (Session.program_permits hwithin hlimit henabled).keeps
    (motive := Within spoiled (state.session.afterFailure operation) limit)
    (fun _ _ hstore hpermits => hstore.apply hpermits) hstart
  have hend := (hprogram state.store rfl).2
  rw [hrun] at hend
  exact ⟨hend.1, hend.2.accounted⟩

theorem Within.failed (hwithin : Within spoiled state.session limit state.store)
    (hlimit : config.maxRetainedBytes ≤ limit) {written cleaned : Nat}
    (hstep : state.faultyStep config (.fail operation steps written cleaned) = some next) :
    Within spoiled next.session limit next.store := by
  obtain ⟨henabled, hstore, hsession⟩ := fail_cases hstep
  have hafter : Within spoiled (state.session.afterFailure operation) limit state.store :=
    ⟨hwithin.sound.afterFailure operation, hwithin.accounted⟩
  have hcut := (hwithin.allows_steps hlimit henabled).cutShort
    (fun _ _ written hpermits => hpermits.tear written) steps written
  have hall := Stepwise.allows_append.mpr
    ⟨hcut, hwithin.sound.allows_cleanup henabled cleaned⟩
  rw [hstore, hsession]
  exact hall.keeps (fun _ _ hstore hpermits => hstore.apply hpermits) hafter

theorem Sound.crash (hsound : Sound spoiled session store)
    (hstrays : (image.strays.map Prod.fst).Nodup) :
    Sound spoiled { session with opened := false, writers := [] } (store.crash image) where
  distinct := ⟨hsound.distinct.results, crash_files hsound.distinct.files hstrays⟩
  writers := List.nodup_nil
  known := by simp
  held := by simp
  closed := fun _ => rfl
  spoiledKnown := hsound.spoiledKnown
  spoiledPoisoned := by simp
  spoiledWriting := hsound.spoiledWriting

theorem Within.crashed (hwithin : Within spoiled state.session limit state.store)
    (hlimit : config.maxRetainedBytes ≤ limit) {during : Option Operation}
    (hstep : state.step config (.crash during steps image) = some next) :
    Sound spoiled next.session next.store := by
  obtain ⟨hstrays, henabled, hstore, hsession⟩ := crash_cases hstep
  rw [hstore, hsession]
  cases during with
  | none => exact hwithin.sound.crash hstrays
  | some operation =>
    have hsteps := hwithin.allows_steps hlimit (henabled operation rfl)
    rw [← List.take_append_drop steps (state.stepsOf config operation),
      Stepwise.allows_append] at hsteps
    have hafter : Within spoiled (state.session.afterFailure operation) limit state.store :=
      ⟨hwithin.sound.afterFailure operation, hwithin.accounted⟩
    have hlast := hsteps.1.keeps (fun _ _ hstore hpermits => hstore.apply hpermits) hafter
    have hcrashed := hlast.sound.crash hstrays
    exact ⟨hcrashed.distinct, hcrashed.writers, by simp, by simp, fun _ => rfl,
      hwithin.sound.spoiledKnown, by simp, hcrashed.spoiledWriting⟩

theorem Sound.faultyStep (hsound : Sound spoiled state.session state.store)
    {action : FaultyAction} (hstep : state.faultyStep config action = some next) :
    Sound spoiled next.session next.store := by
  have hwithin : Within spoiled state.session
      (max config.maxRetainedBytes state.store.accountedBytes) state.store :=
    ⟨hsound, Nat.le_max_right _ _⟩
  have hlimit := Nat.le_max_left config.maxRetainedBytes state.store.accountedBytes
  cases action with
  | fail operation steps written cleaned => exact (hwithin.failed hlimit hstep).sound
  | regular action =>
    cases action with
    | operate operation => exact (hwithin.operated hlimit hstep).sound
    | crash during steps image => exact hwithin.crashed hlimit hstep

theorem Sound.faultyRun (hsound : Sound spoiled state.session state.store)
    {actions : List FaultyAction}
    (hrun : Machine.run (StoreState.faultyStep config) state actions = some next) :
    Sound spoiled next.session next.store :=
  Machine.run_invariant (motive := fun state => Sound spoiled state.session state.store) hsound
    (fun _ _ _ hbefore hstep => hbefore.faultyStep hstep) hrun

theorem afterFaults_sound {actions : List FaultyAction}
    (hrun : StoreState.afterFaults config actions = some state) :
    Sound [] state.session state.store :=
  sound_initial.faultyRun hrun

/-! ## Requests that do not fit -/

/-- An operation asks room for a frame, by a reading of the clock. -/
def Operation.Requests (config : StoreConfig) (frame : List UInt8) (quotaMs : Int) :
    Operation → Prop
  | .begin _ schema _ _ checkMs =>
    encodeFrame (config.codec.encodeSchema schema) Wire.maxFrameBytes = .ok frame ∧
      checkMs = quotaMs
  | .append _ batch checkMs =>
    encodeFrame (config.codec.encodeBatch batch) Wire.maxBatchBytes = .ok frame ∧
      checkMs = quotaMs
  | .openStore _ | .finish _ _ | .abort _ | .purge _ => False

/-- The frame of an operation does not even fit when everything dead is gone. -/
def StoreState.Exceeds (config : StoreConfig) (state : StoreState) (operation : Operation) : Prop :=
  ∃ frame quotaMs, operation.Requests config frame quotaMs ∧
    config.maxRetainedBytes <
      (Stepwise.run (purgeExpiredAt quotaMs state.session.activeResults)
        state.store).2.accountedBytes + frame.length

/-- Nothing is there that was not there before. -/
structure Reduced (before after : ResultStore) : Prop where
  results : after.results.Sublist before.results
  files : (after.files.map ResultFile.link).Sublist (before.files.map ResultFile.link)
  accounted : after.accountedBytes ≤ before.accountedBytes

/-- Discarding leaves less. -/
theorem reduced_of_allows {kept : List ResultId} {steps : List StoreStep}
    (hsteps : Allows (fun _ step => Discards kept step) store steps)
    (hsound : Sound spoiled session store) (hkept : ∀ writer ∈ session.writers, writer.id ∈ kept) :
    Reduced store (Stepwise.after store steps) := by
  have hwithin : Within spoiled session store.accountedBytes (Stepwise.after store steps) :=
    hsteps.keeps (fun _ _ hstore hdiscards => hstore.apply (hdiscards.permits hkept))
      ⟨hsound, Nat.le_refl _⟩
  refine ⟨?_, ?_, hwithin.accounted⟩
  · apply hsteps.keeps (motive := fun state => state.results.Sublist store.results) _
      (List.Sublist.refl _)
    intro state step hstate hdiscards
    cases step with
    | deleteResult id => exact List.filter_sublist.trans hstate
    | removeFile | syncDirectory => exact hstate
    | _ => exact hdiscards.elim
  · apply hsteps.keeps (motive := fun state =>
      (state.files.map ResultFile.link).Sublist (store.files.map ResultFile.link)) _
      (List.Sublist.refl _)
    intro state step hstate hdiscards
    cases step with
    | deleteResult id => exact hstate
    | removeFile id => exact (List.filter_sublist.map _).trans hstate
    | syncDirectory =>
      have hlinked : (state.apply .syncDirectory).files.map ResultFile.link =
          state.files.map ResultFile.link := by
        rw [ResultStore.apply, List.map_map]
        rfl
      change ((state.apply .syncDirectory).files.map ResultFile.link).Sublist _
      rw [hlinked]
      exact hstate
    | _ => exact hdiscards.elim

theorem Discards.tear {kept : List ResultId} {step : StoreStep} (hdiscards : Discards kept step)
    (written : Nat) :
    Allows (fun _ step => Discards kept step) store (step.tear written) := by
  cases step with
  | writeFile id offset data => exact hdiscards.elim
  | _ => trivial

theorem checkResultQuota_refuses {activeResults : List ResultId}
    (hdistinct : store.Distinct) {requested : Nat} (hrequested : 0 < requested)
    (hpurged : (Stepwise.run (purgeExpiredAt quotaMs activeResults) store).2.accountedBytes ≤
      store.accountedBytes) (hexceeds : config.maxRetainedBytes <
      (Stepwise.run (purgeExpiredAt quotaMs activeResults) store).2.accountedBytes + requested) :
    Guarded (fun _ step =>
        Discards ((store.keptResults quotaMs activeResults).map StoredResult.id) step)
      (fun state => state = store) (checkResultQuota config requested quotaMs activeResults)
      (fun _ _ => False) (fun _ _ => True) := by
  refine (checkResultQuota_grants hdistinct hrequested).weaken (fun _ hstart => hstart) ?_
    fun _ _ hfailed => hfailed
  rintro _ last ⟨hroom, rfl | rfl⟩
  · omega
  · omega

theorem Sound.purged_le (hsound : Sound spoiled session store) (quotaMs : Int) :
    (Stepwise.run (purgeExpiredAt quotaMs session.activeResults) store).2.accountedBytes ≤
      store.accountedBytes := by
  have hpurge := @purgeExpiredAt_purges store quotaMs session.activeResults (fun _ _ => True)
    hsound.distinct
  exact (reduced_of_allows (hpurge.allows rfl) hsound fun writer hwriter =>
    hsound.writer_kept hwriter quotaMs).accounted

theorem attempt_refuses {α : Type} {allowed : ResultStore → StoreStep → Prop} {after : Session}
    {program : StoreM α} {next : Except ResultError α → StoreM Session}
    (hprogram : Guarded allowed (fun state => state = store) program (fun _ _ => False)
      fun _ _ => True)
    (hfailed : ∀ error, next (.error error) = pure after) :
    Guarded allowed (fun state => state = store) (Stepwise.attempt program >>= next)
      (fun reached _ => reached = after) (fun _ _ => False) := by
  refine .bind _ hprogram.attempt fun result => ?_
  cases result with
  | ok value => exact fun _ hnever => hnever.elim
  | error error =>
    rw [hfailed error]
    exact .of_pure fun _ _ => rfl

/-- An operation whose frame does not fit discards something at most, and fails. -/
theorem Session.program_refuses (hsound : Sound spoiled session store)
    (henabled : session.Enabled store operation) {frame : List UInt8}
    (hrequest : operation.Requests config frame quotaMs) (hexceeds : config.maxRetainedBytes <
      (Stepwise.run (purgeExpiredAt quotaMs session.activeResults) store).2.accountedBytes +
        frame.length) :
    Guarded (fun _ step =>
        Discards ((store.keptResults quotaMs session.activeResults).map StoredResult.id) step)
      (fun state => state = store) (session.program config operation)
      (fun next _ => next = session.afterFailure operation) (fun _ _ => False) := by
  have hpurged := hsound.purged_le quotaMs
  cases operation with
  | begin id schema retention nowMs checkMs =>
    obtain ⟨hframe, rfl⟩ := hrequest
    apply attempt_refuses
    · refine .check (fun _ _ _ => trivial) fun _ _ => ?_
      refine .check (fun _ _ _ => trivial) fun _ _ => ?_
      refine .check (fun _ _ _ => trivial) fun _ _ => ?_
      refine .check (fun _ _ _ => trivial) fun _ _ => ?_
      refine .check (fun _ _ _ => trivial) fun _ _ => ?_
      refine .check (fun _ _ _ => trivial) fun encoded hencoded => ?_
      obtain rfl : frame = encoded := Except.ok.inj (hframe.symm.trans hencoded)
      refine .bind _ (checkResultQuota_refuses hsound.distinct (encodeFrame_positive hframe)
        hpurged hexceeds) fun _ => ?_
      exact fun _ hnever => hnever.elim
    · exact fun error => rfl
  | append id batch checkMs =>
    obtain ⟨hframe, rfl⟩ := hrequest
    cases hfind : session.findWriter id with
    | none => exact absurd hfind henabled.2
    | some writer =>
      simp only [Session.program, hfind]
      apply attempt_refuses
      · refine .check (fun _ _ _ => trivial) fun _ _ => ?_
        refine .check (fun _ _ _ => trivial) fun _ _ => ?_
        refine .check (fun _ _ _ => trivial) fun encoded hencoded => ?_
        obtain rfl : frame = encoded := Except.ok.inj (hframe.symm.trans hencoded)
        refine .check (fun _ _ _ => trivial) fun _ _ => ?_
        refine .check (fun _ _ _ => trivial) fun _ _ => ?_
        refine .bind _ (checkResultQuota_refuses hsound.distinct (encodeFrame_positive hframe)
          hpurged hexceeds) fun _ => ?_
        exact fun _ hnever => hnever.elim
      · exact fun error => rfl
  | openStore | finish | abort | purge => exact hrequest.elim

/-! ## The quota -/

/-- An operation is taken, and returns or fails. -/
def StoreState.Performs (config : StoreConfig) (state : StoreState) (operation : Operation)
    (next : StoreState) : Prop :=
  state.faultyStep config (.regular (.operate operation)) = some next ∨
    ∃ steps written cleaned,
      state.faultyStep config (.fail operation steps written cleaned) = some next

theorem Within.performed (hwithin : Within spoiled state.session limit state.store)
    (hlimit : config.maxRetainedBytes ≤ limit) (hstep : state.Performs config operation next) :
    Within spoiled next.session limit next.store := by
  rcases hstep with hstep | ⟨steps, written, cleaned, hstep⟩
  · exact hwithin.operated hlimit hstep
  · exact hwithin.failed hlimit hstep

theorem allows_cleanup_of_requests (henabled : session.Enabled store operation)
    {frame : List UInt8} (hrequest : operation.Requests config frame quotaMs) (cleaned : Nat) :
    Allows (fun _ step =>
        Discards ((store.keptResults quotaMs session.activeResults).map StoredResult.id) step)
      other (operation.cleanup.take cleaned) := by
  apply Stepwise.allows_of_forall
  intro step hstep _
  have hmem := List.mem_of_mem_take hstep
  cases operation with
  | begin id schema retention nowMs checkMs =>
    have hunkept : id ∉ (store.keptResults quotaMs session.activeResults).map StoredResult.id := by
      intro hkept
      obtain ⟨result, hresult, hid⟩ := List.mem_map.mp hkept
      exact Rows.find_eq_none_iff.mp henabled.2.1 result (List.mem_filter.mp hresult).1 hid
    simp only [Operation.cleanup, List.mem_cons, List.not_mem_nil, or_false] at hmem
    rcases hmem with rfl | rfl
    · exact hunkept
    · trivial
  | append id batch checkMs => simp [Operation.cleanup] at hmem
  | openStore | finish | abort | purge => exact hrequest.elim

theorem Sound.refused (hsound : Sound spoiled state.session state.store)
    (hexceeds : state.Exceeds config operation) (hstep : state.Performs config operation next) :
    next.session = state.session.afterFailure operation ∧ Reduced state.store next.store := by
  obtain ⟨frame, quotaMs, hrequest, hexceeds⟩ := hexceeds
  have hkept : ∀ writer ∈ state.session.writers, writer.id ∈
      (state.store.keptResults quotaMs state.session.activeResults).map StoredResult.id :=
    fun writer hwriter => hsound.writer_kept hwriter quotaMs
  rcases hstep with hstep | ⟨steps, written, cleaned, hstep⟩
  · obtain ⟨henabled, hrun⟩ := operate_cases hstep
    have hprogram := Session.program_refuses hsound henabled hrequest hexceeds
    have hend := (hprogram state.store rfl).2
    rw [hrun] at hend
    have hlast : Stepwise.after state.store (state.stepsOf config operation) = next.store :=
      congrArg Prod.snd hrun
    exact ⟨hend, hlast ▸ reduced_of_allows (hprogram.allows rfl) hsound hkept⟩
  · obtain ⟨henabled, hstore, hsession⟩ := fail_cases hstep
    have hprogram := Session.program_refuses hsound henabled hrequest hexceeds
    have hcut := (hprogram.allows rfl).cutShort
      (fun _ _ written hdiscards => hdiscards.tear written) steps written
    have hall := Stepwise.allows_append.mpr
      ⟨hcut, allows_cleanup_of_requests henabled hrequest cleaned⟩
    rw [hstore]
    exact ⟨hsession, reduced_of_allows hall hsound hkept⟩

/-- In every run, failures among its actions: every id is accounted once, no operation that starts
within the quota ends outside it, and one whose frame does not fit fails and leaves nothing. -/
theorem operations_stay_within_quota {actions : List FaultyAction}
    (hrun : StoreState.afterFaults config actions = some state) :
    (state.store.countRetained = state.store.retainedResultBytes ∧
      state.store.accountedBytes = ∑ id ∈ state.store.heldIds, state.store.weight id) ∧
    (∀ operation next, state.Performs config operation next →
      state.store.accountedBytes ≤ config.maxRetainedBytes →
        next.store.accountedBytes ≤ config.maxRetainedBytes) ∧
    ∀ operation next, state.Performs config operation next → state.Exceeds config operation →
      next.session = state.session.afterFailure operation ∧ Reduced state.store next.store := by
  have hsound := afterFaults_sound hrun
  refine ⟨⟨countRetained_eq hsound.distinct, accountedBytes_eq_sum hsound.distinct⟩, ?_, ?_⟩
  · intro operation next hstep hquota
    have hwithin : Within [] state.session config.maxRetainedBytes state.store := ⟨hsound, hquota⟩
    exact (hwithin.performed (Nat.le_refl _) hstep).accounted
  · intro operation next hstep hexceeds
    exact hsound.refused hexceeds hstep

/-- A result is begun, and the first write of a batch stops after three bytes. -/
def tornActions : List FaultyAction :=
  [.regular (.operate (.openStore 0)), .regular (.operate (.begin 1 smallSchema 60000000000 0 0)),
    .fail (.append 1 smallBatch 10) 0 3 0]

/-- The torn bytes are counted, and still are when the removal of the result fails half way. -/
theorem operations_stay_within_quota_torn :
    ∃ state next, StoreState.afterFaults smallConfig tornActions = some state ∧
      state.faultyStep smallConfig (.fail (.abort 1) 1 0 0) = some next ∧
      state.store.countRetained = .ok 19 ∧ next.store.accountedBytes ≤ 2 ^ 30 := by
  obtain ⟨state, next, hrun, hstep, hcount, hbytes⟩ : ∃ state next,
      StoreState.afterFaults smallConfig tornActions = some state ∧
        state.faultyStep smallConfig (.fail (.abort 1) 1 0 0) = some next ∧
          state.store.retainedResultBytes = .ok 19 ∧ state.store.accountedBytes = 19 :=
    ⟨_, _, rfl, rfl, rfl, rfl⟩
  have hquota := operations_stay_within_quota hrun
  refine ⟨state, next, hrun, hstep, hquota.1.1.trans hcount, ?_⟩
  apply hquota.2.1 (.abort 1) next (.inr ⟨1, 0, 0, hstep⟩)
  rw [hbytes]
  decide

end Chat2DB.Results
