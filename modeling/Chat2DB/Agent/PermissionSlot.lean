import Chat2DB.Agent.PermissionSignals

/-! # The slot of a permission signal

Every step of an entry leaves the slot alone, cancels what waits there, settles
it, or puts a new signal into it. A new signal is one that was asked for, or the
resolution of a permission that has none there.
-/

namespace Chat2DB.Agent

/-! ## What a step does to the slot -/

/-- The slot is free for a permission: nobody waits there for another one. -/
def AgentRunEntry.FreeFor (entry : AgentRunEntry) (permissionId : String) : Prop :=
  ∀ current ∈ entry.permission, current.permissionId ≠ permissionId ∧ current.state ≠ .waiting

/-- What a step does to the slot, given what it asks for and what it settles. -/
inductive SlotMove (entry : AgentRunEntry) (requests : Option String)
    (settles : Option (String × PermissionSignalState)) : Option PermissionSignal → Prop
  | same : SlotMove entry requests settles entry.permission
  | cancelled : SlotMove entry requests settles entry.cancelCurrentPermission.permission
  | opened {permissionId} (request : requests = some permissionId)
      (free : entry.FreeFor permissionId) :
      SlotMove entry requests settles
        (some { permissionId, state := if entry.cancellation then .cancelled else .waiting })
  | resolved {permissionId state} (settlement : settles = some (permissionId, state))
      (waiting : entry.permission = some ⟨permissionId, .waiting⟩) :
      SlotMove entry requests settles (some ⟨permissionId, state⟩)
  | early {permissionId state} (settlement : settles = some (permissionId, state))
      (free : entry.FreeFor permissionId) :
      SlotMove entry requests settles (some ⟨permissionId, state⟩)

/-- The token of a run is cancelled once and for all. -/
def KeepsToken (entry later : AgentRunEntry) : Prop :=
  entry.cancellation = true → later.cancellation = true

/-- What a step of the entry does to the slot and to the token. -/
structure EntryMove (requests : Option String) (settles : Option (String × PermissionSignalState))
    (entry later : AgentRunEntry) : Prop where
  slot : SlotMove entry requests settles later.permission
  token : KeepsToken entry later

namespace AgentRunEntry

variable {entry later : AgentRunEntry} {permissionId : String}
  {requests : Option String} {settles : Option (String × PermissionSignalState)}

/-- Giving an entry up does to its permission what a cancellation does. -/
theorem permission_invalidateEntry (entry : AgentRunEntry) (force : Bool) :
    (entry.invalidateEntry force).permission = entry.cancelCurrentPermission.permission ∧
      (entry.invalidateEntry force).cancellation = true := by
  unfold invalidateEntry
  dsimp only
  split
  · exact ⟨rfl, rfl⟩
  · split
    · exact ⟨rfl, rfl⟩
    · exact ⟨rfl, rfl⟩

theorem entryMove_invalidated {force : Bool}
    (hslot : later.permission = (entry.invalidateEntry force).permission)
    (htoken : later.cancellation = (entry.invalidateEntry force).cancellation) :
    EntryMove requests settles entry later := by
  obtain ⟨hcancelled, htrue⟩ := entry.permission_invalidateEntry force
  refine ⟨?_, fun _ => htoken.trans htrue⟩
  rw [hslot, hcancelled]
  exact .cancelled

theorem entryMove_same (hslot : later.permission = entry.permission)
    (htoken : later.cancellation = entry.cancellation) :
    EntryMove requests settles entry later := by
  refine ⟨?_, fun hcancelled => htoken.trans hcancelled⟩
  rw [hslot]
  exact .same

theorem entryMove_installPermissionSignal
    (hstep : entry.installPermissionSignal permissionId = some later)
    (hrequests : requests = some permissionId) :
    EntryMove requests settles entry later := by
  unfold installPermissionSignal at hstep
  split at hstep
  · next current hcurrent =>
      split at hstep
      · cases hstep
        exact ⟨.same, id⟩
      · next hother =>
          split at hstep
          · cases hstep
          · next hfinished =>
              cases hstep
              refine ⟨.opened hrequests ?_, id⟩
              intro signal hsignal
              obtain rfl := Option.some.inj (hcurrent.symm.trans hsignal)
              exact ⟨hother, hfinished⟩
  · next hnone =>
      cases hstep
      refine ⟨.opened hrequests ?_, id⟩
      intro signal hsignal
      rw [hnone] at hsignal
      cases hsignal

/-- A settlement writes the slot, or finds it settled. -/
theorem entryMove_settleSlot {state : PermissionSignalState}
    (hstep : entry.settleSlot permissionId state = some later)
    (hsettles : settles = some (permissionId, state)) :
    EntryMove requests settles entry later := by
  unfold settleSlot at hstep
  dsimp only at hstep
  split at hstep
  · next current hcurrent =>
      split at hstep
      · next hsame =>
          split at hstep
          · next hwaiting =>
              cases hstep
              refine ⟨.resolved hsettles ?_, id⟩
              rw [hcurrent, ← hsame, ← hwaiting]
          · cases hstep
            exact ⟨.same, id⟩
      · next hother =>
          split at hstep
          · cases hstep
          · next hfinished =>
              cases hstep
              refine ⟨.early hsettles ?_, id⟩
              intro signal hsignal
              obtain rfl := Option.some.inj (hcurrent.symm.trans hsignal)
              exact ⟨hother, hfinished⟩
  · next hnone =>
      cases hstep
      refine ⟨.early hsettles ?_, id⟩
      intro signal hsignal
      rw [hnone] at hsignal
      cases hsignal

/-- A settled slot does not wait. -/
theorem finished_settleSlot {state : PermissionSignalState} (hstate : state ≠ .waiting)
    (hstep : entry.settleSlot permissionId state = some later) :
    later.cancelCurrentPermission.permission = later.permission := by
  have hfinished : ∀ current ∈ later.permission, current.state ≠ .waiting := by
    unfold settleSlot at hstep
    dsimp only at hstep
    intro current hcurrent
    split at hstep
    · next former hformer =>
        split at hstep
        · split at hstep
          · cases hstep
            obtain rfl := Option.some.inj hcurrent
            exact hstate
          · next hformerState =>
              cases hstep
              obtain rfl := Option.some.inj (hformer.symm.trans hcurrent)
              exact hformerState
        · split at hstep
          · cases hstep
          · cases hstep
            obtain rfl := Option.some.inj hcurrent
            exact hstate
    · cases hstep
      obtain rfl := Option.some.inj hcurrent
      exact hstate
  unfold cancelCurrentPermission
  cases hslot : later.permission with
  | none => rfl
  | some current => simp [hfinished current hslot]

theorem entryMove_acceptTransition {runId : String} {durable : DurableAgentTransition}
    (hstep : entry.acceptTransition runId durable = some later) :
    EntryMove (EntryAction.requests (.acceptTransition durable)) settles entry later := by
  unfold acceptTransition at hstep
  split at hstep
  · dsimp only at hstep
    split at hstep
    · split at hstep
      · next permission hevent =>
          split at hstep
          · next installed hinstall =>
              cases hstep
              have hmove : EntryMove (EntryAction.requests (.acceptTransition durable)) settles
                  entry installed :=
                entryMove_installPermissionSignal hinstall (by simp [EntryAction.requests, hevent])
              exact ⟨hmove.slot, hmove.token⟩
          · cases hstep
            exact entryMove_invalidated rfl rfl
      · cases hstep
        exact entryMove_same rfl rfl
    · cases hstep
      exact entryMove_invalidated rfl rfl
  · cases hstep

theorem entryMove_finishTransition {order : Nat}
    (hstep : entry.finishTransition order = some later) :
    EntryMove requests (EntryAction.settles entry (.finishTransition order)) entry later := by
  unfold finishTransition at hstep
  split at hstep
  · next durable hphase =>
      split at hstep
      · cases hstep
        exact entryMove_invalidated rfl rfl
      · next settled hsettled =>
          -- Marking the run terminal cancels what waits, which a settled slot does not do.
          have hevent : EntryMove requests (EntryAction.settles entry (.finishTransition order))
                entry settled ∧
              (settled = entry ∨
                settled.cancelCurrentPermission.permission = settled.permission) := by
            unfold settleEvent at hsettled
            split at hsettled
            · next permissionId status hresolved =>
                rw [settlePermission_eq] at hsettled
                obtain ⟨-, hsettle⟩ := Option.ite_none_right_eq_some.mp hsettled
                refine ⟨entryMove_settleSlot hsettle ?_, .inr (finished_settleSlot ?_ hsettle)⟩
                · simp [EntryAction.settles, hphase, hresolved]
                · simp
            · obtain rfl := Option.some.inj hsettled
              exact ⟨entryMove_same rfl rfl, .inl rfl⟩
          obtain ⟨hmove, hwaiting⟩ := hevent
          split at hstep
          · cases hstep
            rcases hwaiting with rfl | hfinished
            · exact ⟨.cancelled, id⟩
            · refine ⟨?_, hmove.token⟩
              have hslot : (settled.markTerminal order).permission = settled.permission := hfinished
              dsimp only
              rw [hslot]
              exact hmove.slot
          · cases hstep
            exact ⟨hmove.slot, hmove.token⟩
  · cases hstep

theorem entryMove_finishTask (hstep : entry.finishTask = some later) :
    EntryMove requests settles entry later := by
  unfold finishTask at hstep
  obtain ⟨-, hstep⟩ := Option.ite_none_right_eq_some.mp hstep
  have hclose : ∀ left : AgentRunEntry, left.closeTask.permission = left.permission ∧
      left.closeTask.cancellation = left.cancellation := by
    intro left
    unfold closeTask
    dsimp only
    split <;> exact ⟨rfl, rfl⟩
  obtain ⟨hslot, htoken⟩ := hclose entry.invalidateUnfinished
  cases hstep
  have hleft : entry.invalidateUnfinished = entry.invalidateEntry false ∨
      entry.invalidateUnfinished = entry := by
    unfold invalidateUnfinished
    split
    · exact .inl rfl
    · exact .inr rfl
  rcases hleft with hleft | hleft
  · exact entryMove_invalidated (hslot.trans (by rw [hleft])) (htoken.trans (by rw [hleft]))
  · exact entryMove_same (hslot.trans (by rw [hleft])) (htoken.trans (by rw [hleft]))

end AgentRunEntry

open AgentRunEntry in
/-- What each action does to the slot, one case for each. -/
theorem EntryAction.entryMove {runId : String} {replayCapacity : Nat} {entry later : AgentRunEntry}
    {action : EntryAction} (hstep : action.apply runId replayCapacity entry = some later) :
    EntryMove action.requests (action.settles entry) entry later := by
  -- most actions leave the slot alone, or give the entry up
  cases action with
  | beginTransition =>
    obtain ⟨-, hstep⟩ := Option.ite_none_left_eq_some.mp hstep
    cases hstep
    exact entryMove_same rfl rfl
  | commitTransition =>
    simp only [apply, AgentRunEntry.commitTransition] at hstep
    split at hstep
    · cases hstep
      exact entryMove_same rfl rfl
    · cases hstep
  | acceptTransition durable => exact entryMove_acceptTransition hstep
  | definitelyNotCommitted =>
    simp only [apply, AgentRunEntry.definitelyNotCommitted] at hstep
    split at hstep
    · cases hstep
      exact entryMove_same rfl rfl
    · cases hstep
  | indeterminate =>
    simp only [apply, AgentRunEntry.indeterminate] at hstep
    split at hstep
    · cases hstep
      exact entryMove_invalidated rfl rfl
    · cases hstep
      exact entryMove_invalidated rfl rfl
    · cases hstep
  | publishTransition =>
    simp only [apply, AgentRunEntry.publishTransition] at hstep
    split at hstep
    · split at hstep
      · cases hstep
        exact entryMove_same rfl rfl
      · cases hstep
        exact entryMove_invalidated rfl rfl
    · cases hstep
  | finishTransition order => exact entryMove_finishTransition hstep
  | dropTransition =>
    simp only [apply, AgentRunEntry.dropTransition] at hstep
    split at hstep
    · cases hstep
      exact entryMove_invalidated rfl rfl
    · cases hstep
      exact entryMove_invalidated rfl rfl
    · cases hstep
  | cancelRun =>
    obtain ⟨-, hstep⟩ := Option.ite_none_right_eq_some.mp hstep
    cases hstep
    exact ⟨.same, fun _ => rfl⟩
  | cancelAll =>
    cases hstep
    exact ⟨.same, fun _ => rfl⟩
  | cancelCurrentPermission =>
    obtain ⟨-, hstep⟩ := Option.ite_none_right_eq_some.mp hstep
    cases hstep
    exact ⟨.cancelled, id⟩
  | abandon =>
    obtain ⟨-, hstep⟩ := Option.ite_none_right_eq_some.mp hstep
    cases hstep
    exact entryMove_invalidated rfl rfl
  | joinTimeout =>
    obtain ⟨-, hstep⟩ := Option.ite_none_left_eq_some.mp hstep
    cases hstep
    exact entryMove_invalidated rfl rfl
  | attachTask =>
    obtain ⟨-, hstep⟩ := Option.ite_none_right_eq_some.mp hstep
    cases hstep
    exact entryMove_same rfl rfl
  | finishTask => exact entryMove_finishTask hstep
  | evict =>
    obtain ⟨-, hstep⟩ := Option.ite_none_right_eq_some.mp hstep
    cases hstep
    exact entryMove_same rfl rfl

/-! ## What the slot records -/

/-- A resolution is recorded only by a call that settles the permission with it. -/
theorem SlotMove.recorded_resolved {entry : AgentRunEntry} {requests : Option String}
    {settles : Option (String × PermissionSignalState)} {slot : Option PermissionSignal}
    {permissionId : String} {status : AgentPermissionStatus}
    (hmove : SlotMove entry requests settles slot)
    (hrecorded : (permissionId, .resolved status) ∈ recorded entry.permission slot) :
    settles = some (permissionId, .resolved status) := by
  obtain ⟨signal, rfl, hchanged, hsame⟩ : ∃ signal, slot = some signal ∧
      entry.permission ≠ some signal ∧
      (permissionId, .resolved status) = (signal.permissionId, signal.state) := by
    unfold recorded at hrecorded
    split at hrecorded
    · cases hrecorded
    · next signal =>
        split_ifs at hrecorded with hskip
        · cases hrecorded
        · exact ⟨signal, rfl, fun h => hskip (.inr h), List.mem_singleton.mp hrecorded⟩
  obtain ⟨rfl, hstate⟩ := Prod.mk.inj hsame
  generalize hslot : some signal = slot at hmove
  cases hmove with
  | same => exact absurd hslot.symm hchanged
  | cancelled =>
    unfold AgentRunEntry.cancelCurrentPermission at hslot
    cases hcurrent : entry.permission with
    | none => simp [hcurrent] at hslot
    | some current =>
      rw [hcurrent, Option.map_some] at hslot
      by_cases hwaiting : current.state = .waiting
      · rw [if_pos hwaiting] at hslot
        obtain rfl := Option.some.inj hslot
        cases hstate
      · rw [if_neg hwaiting] at hslot
        exact absurd (hcurrent.trans hslot.symm) hchanged
  | opened request free =>
    obtain rfl := Option.some.inj hslot
    cases hcancelled : entry.cancellation <;> simp [hcancelled] at hstate
  | resolved settlement | early settlement =>
    obtain rfl := Option.some.inj hslot
    rw [settlement, hstate]

/-- An outcome stays in the slot while nothing is requested and no other permission is settled. -/
theorem SlotMove.keeps_finished {entry : AgentRunEntry}
    {settles : Option (String × PermissionSignalState)} {slot : Option PermissionSignal}
    {current : PermissionSignal} (hmove : SlotMove entry none settles slot)
    (hcurrent : entry.permission = some current) (hfinished : current.state ≠ .waiting)
    (hfree : ∀ settlement ∈ settles, ¬ entry.FreeFor settlement.1) :
    slot = some current := by
  cases hmove with
  | same => exact hcurrent
  | cancelled =>
    unfold AgentRunEntry.cancelCurrentPermission
    rw [hcurrent, Option.map_some, if_neg hfinished]
  | opened request free => cases request
  | resolved settlement waiting =>
    obtain rfl := Option.some.inj (hcurrent.symm.trans waiting)
    exact absurd rfl hfinished
  | early settlement free => exact absurd free (hfree _ settlement)

end Chat2DB.Agent
