import Chat2DB.Agent.PermissionSlot

/-! # Waiters are told what was settled

A signal that waits stays in the slot until it is settled or cancelled, and a
finished one never changes. As long as no permission is given a second signal,
every waiter of a permission reads the one signal that it has.
-/

namespace Chat2DB.Agent

variable {signal : PermissionSignal} {waiter : AgentPermissionWaiter} {entry : AgentRunEntry}

/-! ## Channels -/

/-- A finished channel stays as it is, and one that waits stays with its permission. -/
def Continues (channels later : List PermissionSignal) : Prop :=
  ∀ (channel : Nat) signal, channels[channel]? = some signal →
    ∃ next, later[channel]? = some next ∧ next.permissionId = signal.permissionId ∧
      (signal.state ≠ .waiting → next = signal)

theorem Continues.refl (channels : List PermissionSignal) : Continues channels channels :=
  fun _ signal hsignal => ⟨signal, hsignal, rfl, fun _ => rfl⟩

theorem continues_append (channels : List PermissionSignal) (signal : PermissionSignal) :
    Continues channels (channels ++ [signal]) := by
  intro channel former hformer
  refine ⟨former, ?_, rfl, fun _ => rfl⟩
  rw [List.getElem?_append_left (List.getElem?_eq_some_iff.mp hformer).1, hformer]

/-- Settling the last channel keeps all the others. -/
theorem continues_finish (front : List PermissionSignal) (permissionId : String)
    (state : PermissionSignalState) :
    Continues (front ++ [⟨permissionId, .waiting⟩])
      (front ++ [⟨permissionId, state⟩]) := by
  intro channel former hformer
  by_cases hchannel : channel < front.length
  · rw [List.getElem?_append_left hchannel] at hformer ⊢
    exact ⟨former, hformer, rfl, fun _ => rfl⟩
  · obtain ⟨hlength, -⟩ := List.getElem?_eq_some_iff.mp hformer
    rw [List.length_append, List.length_singleton] at hlength
    obtain rfl : channel = front.length := by omega
    rw [List.getElem?_concat_length] at hformer ⊢
    obtain rfl := Option.some.inj hformer
    exact ⟨_, rfl, rfl, fun hwaiting => absurd rfl hwaiting⟩

/-- What finished channels have recorded. -/
def outcomes (channels : List PermissionSignal) : List (String × PermissionSignalState) :=
  (channels.filter fun signal => signal.state ≠ .waiting).map fun signal =>
    (signal.permissionId, signal.state)

theorem outcomes_append (first second : List PermissionSignal) :
    outcomes (first ++ second) = outcomes first ++ outcomes second := by
  simp [outcomes]

/-- The slot holds the last channel, the only one that may wait, and no permission has two. -/
structure Recorded (slot : Option PermissionSignal) (channels : List PermissionSignal)
    (settled : List (String × PermissionSignalState)) : Prop where
  slot : slot = channels.getLast?
  distinct : (channels.map PermissionSignal.permissionId).Nodup
  finished : ∀ signal ∈ channels.dropLast, signal.state ≠ .waiting
  settled : settled = outcomes channels

namespace Recorded

variable {slot : Option PermissionSignal} {channels : List PermissionSignal}
  {settled : List (String × PermissionSignalState)} {permissionId : String}
  {state : PermissionSignalState}

theorem split (hrecorded : Recorded (some signal) channels settled) :
    channels = channels.dropLast ++ [signal] :=
  (List.dropLast_append_getLast? _ hrecorded.slot.symm).symm

theorem same (hrecorded : Recorded slot channels settled) :
    nextChannels channels slot slot = channels ∧ recorded slot slot = [] := by
  cases slot with
  | none => exact ⟨rfl, rfl⟩
  | some signal =>
    constructor
    · simp only [nextChannels, Option.any_some, decide_true, if_true]
      exact hrecorded.split.symm
    · simp [Agent.recorded]

/-- A slot that is settled settles its last channel. -/
theorem finish (hrecorded : Recorded (some ⟨permissionId, .waiting⟩) channels settled)
    (hstate : state ≠ .waiting) :
    Recorded (some ⟨permissionId, state⟩) (channels.dropLast ++ [⟨permissionId, state⟩])
      (settled ++ [(permissionId, state)]) where
  slot := by simp
  distinct := by
    have hdistinct := hrecorded.distinct
    rw [hrecorded.split, List.map_append] at hdistinct
    rw [List.map_append]
    exact hdistinct
  finished := by
    rw [List.dropLast_concat]
    exact hrecorded.finished
  settled := by
    rw [hrecorded.settled, hrecorded.split, outcomes_append, outcomes_append,
      List.dropLast_concat]
    simp [outcomes, hstate]

/-- A permission without a channel gets one. -/
theorem append (hrecorded : Recorded slot channels settled)
    (hfree : ∀ current ∈ slot, current.state ≠ .waiting)
    (hnew : permissionId ∉ channels.map PermissionSignal.permissionId) :
    Recorded (some ⟨permissionId, state⟩) (channels ++ [⟨permissionId, state⟩])
      (settled ++ recorded slot (some ⟨permissionId, state⟩)) where
  slot := by simp
  distinct := by
    rw [List.map_append, List.nodup_append]
    refine ⟨hrecorded.distinct, by simp, ?_⟩
    intro other hother added hadded hsame
    rw [List.map_singleton, List.mem_singleton] at hadded
    rw [hsame, hadded] at hother
    exact hnew hother
  finished := by
    rw [List.dropLast_concat]
    intro signal hsignal
    cases hslot : slot with
    | none =>
      have hnone := hrecorded.slot
      rw [hslot] at hnone
      rw [List.getLast?_eq_none_iff.mp hnone.symm] at hsignal
      cases hsignal
    | some current =>
      subst hslot
      rw [hrecorded.split, List.mem_append, List.mem_singleton] at hsignal
      rcases hsignal with hsignal | rfl
      · exact hrecorded.finished signal hsignal
      · exact hfree signal rfl
  settled := by
    have hother : slot ≠ some ⟨permissionId, state⟩ := by
      rintro rfl
      apply hnew
      rw [hrecorded.split]
      simp
    rw [hrecorded.settled, outcomes_append]
    by_cases hstate : state = .waiting <;> simp [outcomes, Agent.recorded, hstate, hother]

end Recorded

/-! ## Rooms -/

/-- What a waiter returns at once on a signal. -/
def PermissionSignalState.outcome (cancellation : Bool) :
    PermissionSignalState → Option AgentPermissionWaitOutcome
  | .resolved status => some (.resolved status)
  | .cancelled => some .cancelled
  | .waiting => if cancellation then some .cancelled else none

/-- A waiter reads a channel of its permission, and what it has returned is what the channel says,
or the run was cancelled. -/
structure Reads (channels : List PermissionSignal) (cancellation : Bool)
    (waiter : AgentPermissionWaiter) (signal : PermissionSignal) : Prop where
  channel : channels[waiter.channel]? = some signal
  permission : signal.permissionId = waiter.permissionId
  resolved : ∀ status, waiter.outcome = some (.resolved status) → signal.state = .resolved status
  cancelled : waiter.outcome = some .cancelled → signal.state = .cancelled ∨ cancellation = true

/-- A waiter goes on reading the channel it was given. -/
theorem Reads.continues {channels later : List PermissionSignal} {before after : Bool}
    (hreads : Reads channels before waiter signal) (hcontinues : Continues channels later)
    (htoken : before = true → after = true) :
    ∃ next, Reads later after waiter next := by
  obtain ⟨next, hnext, hpermission, hsame⟩ := hcontinues _ _ hreads.channel
  refine ⟨next, hnext, hpermission.trans hreads.permission, ?_, ?_⟩
  · intro status houtcome
    have hstate := hreads.resolved status houtcome
    rw [hsame (by rw [hstate]; simp)]
    exact hstate
  · intro houtcome
    rcases hreads.cancelled houtcome with hstate | htrue
    · rw [hsame (by rw [hstate]; simp)]
      exact .inl hstate
    · exact .inr (htoken htrue)

namespace PermissionRoom

structure Told (room : PermissionRoom) : Prop where
  recorded : Recorded room.entry.permission room.channels room.settled
  waiters : ∀ waiter ∈ room.waiters,
    ∃ signal, Reads room.channels room.entry.cancellation waiter signal

variable {room next : PermissionRoom} {later : AgentRunEntry} {requests : Option String}
  {settles : Option (String × PermissionSignalState)}

theorem told_start (hslot : entry.permission = none) :
    (start entry).Told where
  recorded :=
    { slot := hslot
      distinct := List.nodup_nil
      finished := fun _ hsignal => by cases hsignal
      settled := rfl }
  waiters := fun _ hwaiter => by cases hwaiter

/-- A step that gives no permission a second signal leaves the room in order. -/
theorem Told.follow (htold : room.Told) (hmove : EntryMove requests settles room.entry later)
    (hrequests : ∀ permissionId ∈ requests, ¬ room.Renews permissionId)
    (hsettles : ∀ settlement ∈ settles, ¬ room.Renews settlement.1 ∧ settlement.2 ≠ .waiting) :
    (room.follow later).Told ∧ Continues room.channels (room.follow later).channels := by
  have hfollow : ∀ channels settled, nextChannels room.channels room.entry.permission
        later.permission = channels →
      room.settled ++ Agent.recorded room.entry.permission later.permission = settled →
      Recorded later.permission channels settled → Continues room.channels channels →
      (room.follow later).Told ∧ Continues room.channels (room.follow later).channels := by
    rintro channels settled rfl rfl hrecorded hcontinues
    refine ⟨⟨hrecorded, fun waiter hwaiter => ?_⟩, hcontinues⟩
    obtain ⟨signal, hreads⟩ := htold.waiters waiter hwaiter
    exact hreads.continues hcontinues hmove.token
  have hrecorded := htold.recorded
  have hslot := hmove.slot
  have hfresh : ∀ permissionId, room.entry.FreeFor permissionId → ¬ room.Renews permissionId →
      permissionId ∉ room.channels.map PermissionSignal.permissionId :=
    fun permissionId hfree hrenews hmem => hrenews ⟨hfree, hmem⟩
  -- A permission whose signal is not in the slot gets the next channel.
  have hadd : ∀ permissionId state, later.permission = some ⟨permissionId, state⟩ →
      room.entry.FreeFor permissionId → ¬ room.Renews permissionId →
      (room.follow later).Told ∧ Continues room.channels (room.follow later).channels := by
    intro permissionId state hlater hfree hrenews
    refine hfollow (room.channels ++ [⟨permissionId, state⟩]) _ ?_ rfl ?_ (continues_append _ _)
    · rw [hlater]
      unfold nextChannels
      dsimp only
      rw [if_neg]
      cases hcurrent : room.entry.permission with
      | none => simp
      | some current => simpa using (hfree current hcurrent).1
    · rw [hlater]
      exact hrecorded.append (fun current hcurrent => (hfree current hcurrent).2)
        (hfresh permissionId hfree hrenews)
  -- The signal in the slot is settled or cancelled.
  have hfinish : ∀ permissionId state, room.entry.permission = some ⟨permissionId, .waiting⟩ →
      later.permission = some ⟨permissionId, state⟩ → state ≠ .waiting →
      (room.follow later).Told ∧ Continues room.channels (room.follow later).channels := by
    intro permissionId state hwaiting hlater hstate
    rw [hwaiting] at hrecorded
    refine hfollow (room.channels.dropLast ++ [⟨permissionId, state⟩])
      (room.settled ++ [(permissionId, state)]) ?_ ?_ ?_ ?_
    · rw [hwaiting, hlater]
      simp [nextChannels]
    · rw [hwaiting, hlater]
      simp [Agent.recorded, hstate, hstate.symm]
    · rw [hlater]
      exact hrecorded.finish hstate
    · conv_lhs => rw [hrecorded.split]
      exact continues_finish _ _ _
  have hsame : later.permission = room.entry.permission →
      (room.follow later).Told ∧ Continues room.channels (room.follow later).channels := by
    intro hlater
    obtain ⟨hchannels, hnothing⟩ := hrecorded.same
    refine hfollow room.channels room.settled ?_ ?_ ?_ (.refl _)
    · rw [hlater, hchannels]
    · rw [hlater, hnothing, List.append_nil]
    · rw [hlater]
      exact hrecorded
  generalize hafter : later.permission = after at hslot
  cases hslot with
  | same => exact hsame hafter
  | cancelled =>
    unfold AgentRunEntry.cancelCurrentPermission at hafter
    cases hcurrent : room.entry.permission with
    | none => exact hsame (by rw [hafter, hcurrent]; rfl)
    | some current =>
      obtain ⟨permissionId, state⟩ := current
      rw [hcurrent, Option.map_some] at hafter
      by_cases hstate : state = .waiting
      · subst hstate
        exact hfinish permissionId .cancelled hcurrent (by simpa using hafter) (by simp)
      · rw [if_neg hstate] at hafter
        exact hsame (hafter.trans hcurrent.symm)
  | opened request free => exact hadd _ _ hafter free (hrequests _ request)
  | resolved settlement waiting =>
    exact hfinish _ _ waiting hafter (hsettles _ settlement).2
  | early settlement free => exact hadd _ _ hafter free (hsettles _ settlement).1

variable {runId : String} {replayCapacity : Nat} {action : RoomAction}

theorem settles_ne_waiting {settlement : String × PermissionSignalState}
    (hsettles : settlement ∈ action.settles entry) : settlement.2 ≠ .waiting := by
  cases action with
  | entry action =>
    cases action with
    | finishTransition order =>
      simp only [RoomAction.settles, EntryAction.settles] at hsettles
      split at hsettles
      · split at hsettles
        · cases hsettles
          simp
        · cases hsettles
      · cases hsettles
    | _ => cases hsettles
  | applySettlement permissionId settlement =>
    cases hsettles
    cases settlement <;> simp [Settlement.signal]
  | _ => cases hsettles

theorem slot_installPermissionSignal {installed : AgentRunEntry} {permissionId : String}
    (hinstall : entry.installPermissionSignal permissionId = some installed) :
    ∃ signal, installed.permission = some signal ∧ signal.permissionId = permissionId := by
  unfold AgentRunEntry.installPermissionSignal at hinstall
  split at hinstall
  · next current hcurrent =>
      split at hinstall
      · next hsame =>
          cases hinstall
          exact ⟨current, hcurrent, hsame⟩
      · split at hinstall
        · cases hinstall
        · cases hinstall
          exact ⟨_, rfl, rfl⟩
  · cases hinstall
    exact ⟨_, rfl, rfl⟩

/-- A new waiter reads the channel in the slot. -/
theorem Told.install (htold : room.Told) (hslot : room.entry.permission = some signal) :
    Told { room with
      waiters := room.waiters ++
        [{ permissionId := signal.permissionId, channel := room.channels.length - 1
           outcome := none }] } where
  recorded := htold.recorded
  waiters := by
    intro waiter hwaiter
    rcases List.mem_append.mp hwaiter with hwaiter | hwaiter
    · exact htold.waiters waiter hwaiter
    · obtain rfl := List.mem_singleton.mp hwaiter
      refine ⟨signal, ?_, rfl, ?_, ?_⟩
      · rw [← List.getLast?_eq_getElem?, ← htold.recorded.slot, hslot]
      · intro status houtcome
        cases houtcome
      · intro houtcome
        cases houtcome

/-- Only the last channel is still open. -/
theorem Told.last_of_waiting {channel : Nat} (htold : room.Told)
    (hchannel : room.channels[channel]? = some signal) (hwaiting : signal.state = .waiting) :
    ¬ channel + 1 < room.channels.length := by
  intro hlater
  refine htold.recorded.finished signal ?_ hwaiting
  rw [List.mem_iff_getElem?]
  refine ⟨channel, ?_⟩
  rw [List.getElem?_dropLast, if_pos (by omega), hchannel]

/-- A poll tells a waiter what is on its channel, or that the run was cancelled. -/
theorem Told.pollWaiter_eq
    (htold : room.Told) (hreads : Reads room.channels room.entry.cancellation waiter signal) :
    room.pollWaiter waiter = signal.state.outcome room.entry.cancellation := by
  unfold pollWaiter
  rw [hreads.channel, Option.map_some]
  cases hstate : signal.state with
  | resolved | cancelled => rfl
  | waiting =>
    dsimp only
    rw [if_neg (htold.last_of_waiting hreads.channel hstate)]
    rfl

/-- Polling keeps to what the channel says. -/
theorem Told.poll {index : Nat} (htold : room.Told) (hwaiter : room.waiters[index]? = some waiter) :
    Told { room with
      waiters := room.waiters.set index { waiter with outcome := room.pollWaiter waiter } } where
  recorded := htold.recorded
  waiters := by
    intro polled hpolled
    rcases List.mem_or_eq_of_mem_set hpolled with hpolled | rfl
    · exact htold.waiters polled hpolled
    · obtain ⟨signal, hreads⟩ := htold.waiters waiter (List.mem_of_getElem? hwaiter)
      refine ⟨signal, hreads.channel, hreads.permission, ?_, ?_⟩ <;>
        dsimp only <;> rw [htold.pollWaiter_eq hreads]
      · intro status houtcome
        cases hstate : signal.state with
        | resolved other =>
          rw [hstate] at houtcome
          obtain rfl : other = status := by
            simpa [PermissionSignalState.outcome] using houtcome
          rfl
        | cancelled | waiting =>
          rw [hstate] at houtcome
          simp [PermissionSignalState.outcome] at houtcome
      · intro houtcome
        cases hstate : signal.state with
        | resolved other =>
          rw [hstate] at houtcome
          simp [PermissionSignalState.outcome] at houtcome
        | cancelled => exact .inl rfl
        | waiting =>
          rw [hstate] at houtcome
          exact .inr (by simpa [PermissionSignalState.outcome] using houtcome)

/-- One step that gives no permission a second signal. -/
theorem Told.step (htold : room.Told) (hallowed : room.Allowed action)
    (hstep : room.step runId replayCapacity action = some next) : next.Told := by
  obtain ⟨hrequests, hsettled⟩ := hallowed
  have hsettles : ∀ settlement ∈ action.settles room.entry,
      ¬ room.Renews settlement.1 ∧ settlement.2 ≠ .waiting :=
    fun settlement hsettlement =>
      ⟨(hsettled _ hsettlement).1, settles_ne_waiting hsettlement⟩
  -- every action is a move of the entry, or leaves slot and channels alone
  cases action with
  | entry action =>
    obtain ⟨later, hlater, rfl⟩ := Option.map_eq_some_iff.mp hstep
    exact (htold.follow (EntryAction.entryMove hlater) hrequests hsettles).1
  | locked action =>
    obtain ⟨later, hlater, rfl⟩ := Option.map_eq_some_iff.mp hstep
    obtain ⟨moved, hmoved, hkept⟩ := Option.bind_eq_some_iff.mp hlater
    obtain ⟨-, hkept⟩ := Option.ite_none_right_eq_some.mp hkept
    obtain rfl := Option.some.inj hkept
    have hmove : EntryMove none none room.entry
        { moved with permission := room.entry.permission } :=
      ⟨.same, (EntryAction.entryMove hmoved).token⟩
    refine (htold.follow hmove ?_ ?_).1
    · intro permissionId hpermission
      cases hpermission
    · intro settlement hsettlement
      cases hsettlement
  | checkSettlement permissionId settlement =>
    obtain ⟨-, hstep⟩ := Option.ite_none_right_eq_some.mp hstep
    cases hstep
    exact ⟨htold.recorded, htold.waiters⟩
  | applySettlement permissionId settlement =>
    obtain ⟨-, hstep⟩ := Option.ite_none_right_eq_some.mp hstep
    have hrest : Told { room with settling := room.settling.erase (permissionId, settlement) } :=
      ⟨htold.recorded, htold.waiters⟩
    split at hstep
    · next later hlater =>
        cases hstep
        exact (hrest.follow (AgentRunEntry.entryMove_settleSlot hlater rfl) hrequests hsettles).1
    · cases hstep
      exact hrest
  | installWaiter permissionId =>
    obtain ⟨-, hstep⟩ := Option.ite_none_left_eq_some.mp hstep
    obtain ⟨later, hlater, hstep⟩ := Option.bind_eq_some_iff.mp hstep
    cases hstep
    obtain ⟨-, hinstall⟩ := Option.ite_none_right_eq_some.mp hlater
    have hmove : EntryMove (some permissionId) none room.entry later :=
      AgentRunEntry.entryMove_installPermissionSignal hinstall rfl
    obtain ⟨signal, hslot, rfl⟩ := slot_installPermissionSignal hinstall
    refine (htold.follow hmove hrequests ?_).1.install hslot
    intro settlement hsettlement
    cases hsettlement
  | poll index =>
    obtain ⟨waiter, hwaiter, hstep⟩ := Option.bind_eq_some_iff.mp hstep
    obtain ⟨-, hstep⟩ := Option.ite_none_left_eq_some.mp hstep
    cases hstep
    exact htold.poll hwaiter

/-! ## Runs -/

/-- The first settlement of a permission. -/
def firstSettlement (room : PermissionRoom) (permissionId : String) :
    Option PermissionSignalState :=
  (room.settled.find? fun settlement => settlement.1 = permissionId).map Prod.snd

variable {snapshot : AgentRunSnapshot} {actions : List RoomAction}

/-- Along a run of allowed actions every waiter is told. -/
theorem told_of_run
    (hrun : Machine.run (PermissionRoom.step runId replayCapacity)
      (start (AgentRunHub.startedEntry snapshot)) actions = some room)
    (halong : Machine.Along Allowed (PermissionRoom.step runId replayCapacity)
      (start (AgentRunHub.startedEntry snapshot)) actions) : room.Told :=
  Machine.run_invariant_along (told_start rfl)
    (fun _ _ _ htold hallowed hstep => htold.step hallowed hstep) hrun halong

/-- What a step does to the entry and to the history. -/
theorem entryMove_step (hstep : room.step runId replayCapacity action = some next) :
    EntryMove action.requests (action.settles room.entry) room.entry next.entry ∧
      next.settled =
        room.settled ++ Agent.recorded room.entry.permission next.entry.permission := by
  have hnothing : room.settled =
      room.settled ++ Agent.recorded room.entry.permission room.entry.permission := by
    cases room.entry.permission <;> simp [Agent.recorded]
  cases action with
  | entry action =>
    obtain ⟨later, hlater, rfl⟩ := Option.map_eq_some_iff.mp hstep
    exact ⟨EntryAction.entryMove hlater, rfl⟩
  | locked action =>
    obtain ⟨later, hlater, rfl⟩ := Option.map_eq_some_iff.mp hstep
    obtain ⟨moved, hmoved, hkept⟩ := Option.bind_eq_some_iff.mp hlater
    obtain ⟨-, hkept⟩ := Option.ite_none_right_eq_some.mp hkept
    obtain rfl := Option.some.inj hkept
    exact ⟨⟨.same, (EntryAction.entryMove hmoved).token⟩, rfl⟩
  | checkSettlement permissionId settlement =>
    obtain ⟨-, hstep⟩ := Option.ite_none_right_eq_some.mp hstep
    cases hstep
    exact ⟨⟨.same, id⟩, hnothing⟩
  | applySettlement permissionId settlement =>
    obtain ⟨-, hstep⟩ := Option.ite_none_right_eq_some.mp hstep
    split at hstep
    · next later hlater =>
        cases hstep
        exact ⟨AgentRunEntry.entryMove_settleSlot hlater rfl, rfl⟩
    · cases hstep
      exact ⟨⟨.same, id⟩, hnothing⟩
  | installWaiter permissionId =>
    obtain ⟨-, hstep⟩ := Option.ite_none_left_eq_some.mp hstep
    obtain ⟨later, hlater, hstep⟩ := Option.bind_eq_some_iff.mp hstep
    cases hstep
    obtain ⟨-, hinstall⟩ := Option.ite_none_right_eq_some.mp hlater
    exact ⟨AgentRunEntry.entryMove_installPermissionSignal hinstall rfl, rfl⟩
  | poll index =>
    obtain ⟨waiter, -, hstep⟩ := Option.bind_eq_some_iff.mp hstep
    obtain ⟨-, hstep⟩ := Option.ite_none_left_eq_some.mp hstep
    cases hstep
    exact ⟨⟨.same, id⟩, hnothing⟩

end PermissionRoom

/-- The first settlement of a permission is what its only signal says. -/
theorem Recorded.find?_settled {slot : Option PermissionSignal} {channels : List PermissionSignal}
    {settled : List (String × PermissionSignalState)}
    (hrecorded : Recorded slot channels settled) (hsignal : signal ∈ channels) :
    (settled.find? fun settlement => settlement.1 = signal.permissionId) =
      if signal.state = .waiting then none else some (signal.permissionId, signal.state) := by
  have honly : ∀ settlement ∈ settled, settlement.1 = signal.permissionId →
      signal.state ≠ .waiting ∧ settlement = (signal.permissionId, signal.state) := by
    intro settlement hsettlement hsame
    rw [hrecorded.settled, outcomes, List.mem_map] at hsettlement
    obtain ⟨other, hother, rfl⟩ := hsettlement
    obtain ⟨hmem, hstate⟩ := List.mem_filter.mp hother
    obtain rfl : other = signal := List.inj_on_of_nodup_map hrecorded.distinct hmem hsignal hsame
    exact ⟨of_decide_eq_true hstate, rfl⟩
  split_ifs with hwaiting
  · rw [List.find?_eq_none]
    intro settlement hsettlement hsame
    exact (honly settlement hsettlement (of_decide_eq_true hsame)).1 hwaiting
  · have hmem : (signal.permissionId, signal.state) ∈ settled := by
      rw [hrecorded.settled, outcomes, List.mem_map]
      exact ⟨signal, List.mem_filter.mpr ⟨hsignal, decide_eq_true hwaiting⟩, rfl⟩
    cases hfound : settled.find? fun settlement => settlement.1 = signal.permissionId with
    | none => simpa using List.find?_eq_none.mp hfound _ hmem
    | some settlement =>
      have hsame := List.find?_some hfound
      rw [(honly settlement (List.mem_of_find?_eq_some hfound) (of_decide_eq_true hsame)).2]

theorem RoomAction.requests_of_settles {action : RoomAction}
    {settlement : String × PermissionSignalState} (hsettles : settlement ∈ action.settles entry) :
    action.requests = none := by
  cases action with
  | entry action =>
    cases action with
    | finishTransition order => rfl
    | _ => cases hsettles
  | applySettlement permissionId settlement => rfl
  | _ => cases hsettles

namespace PermissionRoom

variable {room : PermissionRoom} {runId : String} {replayCapacity : Nat}
  {snapshot : AgentRunSnapshot} {actions : List RoomAction}

/-- The first settlement of a request is what its waiter's channel shows. -/
theorem Told.firstSettlement_eq
    (htold : room.Told) (hreads : Reads room.channels room.entry.cancellation waiter signal) :
    room.firstSettlement waiter.permissionId =
      if signal.state = .waiting then none else some signal.state := by
  unfold firstSettlement
  rw [← hreads.permission,
    htold.recorded.find?_settled (List.mem_of_getElem? hreads.channel)]
  split_ifs <;> rfl

/-- Every settlement that was recorded was made by an action of the run. -/
theorem settled_of_run
    (hrun : Machine.run (PermissionRoom.step runId replayCapacity)
      (start (AgentRunHub.startedEntry snapshot)) actions = some room) :
    ∀ permissionId status, (permissionId, .resolved status) ∈ room.settled →
      ∃ before action after reached, actions = before ++ action :: after ∧
        Machine.run (PermissionRoom.step runId replayCapacity)
          (start (AgentRunHub.startedEntry snapshot)) before = some reached ∧
        action.settles reached.entry = some (permissionId, .resolved status) := by
  refine Machine.run_induction (motive := fun actions room => ∀ permissionId status,
    (permissionId, .resolved status) ∈ room.settled → ∃ before action after reached,
      actions = before ++ action :: after ∧
        Machine.run (PermissionRoom.step runId replayCapacity)
          (start (AgentRunHub.startedEntry snapshot)) before = some reached ∧
        action.settles reached.entry = some (permissionId, .resolved status)) ?_ ?_ hrun
  · intro permissionId status hsettled
    cases hsettled
  · intro actions action before after hbefore hstep ih permissionId status hsettled
    obtain ⟨hmove, hhistory⟩ := entryMove_step hstep
    rw [hhistory, List.mem_append] at hsettled
    rcases hsettled with hsettled | hsettled
    · obtain ⟨early, settling, late, reached, rfl, hreached, hsettles⟩ :=
        ih permissionId status hsettled
      exact ⟨early, settling, late ++ [action], reached, by simp, hreached, hsettles⟩
    · exact ⟨actions, action, [], before, rfl, hbefore, hmove.slot.recorded_resolved hsettled⟩

/-- As long as no permission is given a second signal and no settlement replaces one that is
still to be read, every waiter of a permission is told its first settlement, whenever it was
installed, and no other. -/
theorem waiters_told
    (hrun : Machine.run (PermissionRoom.step runId replayCapacity)
      (start (AgentRunHub.startedEntry snapshot)) actions = some room)
    (halong : Machine.Along Allowed (PermissionRoom.step runId replayCapacity)
      (start (AgentRunHub.startedEntry snapshot)) actions) :
    -- What the waiters have returned.
    (∀ waiter ∈ room.waiters,
      (∀ status, waiter.outcome = some (.resolved status) →
        room.firstSettlement waiter.permissionId = some (.resolved status) ∧
          ∃ before action after reached, actions = before ++ action :: after ∧
            Machine.run (PermissionRoom.step runId replayCapacity)
              (start (AgentRunHub.startedEntry snapshot)) before = some reached ∧
            action.settles reached.entry = some (waiter.permissionId, .resolved status)) ∧
      (waiter.outcome = some .cancelled →
        room.firstSettlement waiter.permissionId = some .cancelled ∨
          room.entry.cancellation = true)) ∧
    -- What they return when they are polled.
    (∀ waiter ∈ room.waiters,
      (∀ status, room.firstSettlement waiter.permissionId = some (.resolved status) →
        room.pollWaiter waiter = some (.resolved status)) ∧
      (room.firstSettlement waiter.permissionId = some .cancelled →
        room.pollWaiter waiter = some .cancelled) ∧
      (room.pollWaiter waiter = none ↔
        room.firstSettlement waiter.permissionId = none ∧ room.entry.cancellation = false)) ∧
    -- What the slot recorded stays there when a permission is settled that had a signal before,
    -- and when it is still to be read.
    (∀ before action after reached later, actions = before ++ action :: after →
      Machine.run (PermissionRoom.step runId replayCapacity)
        (start (AgentRunHub.startedEntry snapshot)) before = some reached →
      reached.step runId replayCapacity action = some later →
      ∀ settlement ∈ action.settles reached.entry,
        ∀ current ∈ reached.entry.permission, current.state ≠ .waiting →
          (settlement.1 ∈ reached.channels.map PermissionSignal.permissionId ∨
            ∀ waiter ∈ reached.waiters, waiter.channel + 1 ≠ reached.channels.length) →
          later.entry.permission = some current) := by
  have htold : room.Told := told_of_run hrun halong
  refine ⟨?_, ?_, ?_⟩
  · intro waiter hwaiter
    obtain ⟨signal, hreads⟩ := htold.waiters waiter hwaiter
    have hfirst := htold.firstSettlement_eq hreads
    constructor
    · intro status houtcome
      have hstate := hreads.resolved status houtcome
      rw [hstate, if_neg (by simp)] at hfirst
      refine ⟨hfirst, settled_of_run hrun waiter.permissionId status ?_⟩
      obtain ⟨settlement, hfound, hstatus⟩ := Option.map_eq_some_iff.mp hfirst
      have hsame : settlement.1 = waiter.permissionId := by
        simpa using List.find?_some hfound
      rw [← hsame, ← hstatus]
      exact List.mem_of_find?_eq_some hfound
    · intro houtcome
      rcases hreads.cancelled houtcome with hstate | hcancelled
      · rw [hstate, if_neg (by simp)] at hfirst
        exact .inl hfirst
      · exact .inr hcancelled
  · intro waiter hwaiter
    obtain ⟨signal, hreads⟩ := htold.waiters waiter hwaiter
    rw [htold.firstSettlement_eq hreads, htold.pollWaiter_eq hreads]
    cases signal.state <;> simp [PermissionSignalState.outcome]
  · intro before action after reached later hactions hreached hstep settlement hsettles current
      hcurrent hfinished hkept
    have hallowed := halong before action after reached hactions hreached
    have hmove := (entryMove_step hstep).1.slot
    rw [RoomAction.requests_of_settles hsettles] at hmove
    refine hmove.keeps_finished hcurrent hfinished ?_
    intro other hother hfree
    obtain rfl : other = settlement := Option.some.inj (hother.symm.trans hsettles)
    obtain ⟨hrenews, hdiscards⟩ := hallowed.2 other hother
    rcases hkept with hold | hunread
    · exact hrenews ⟨hfree, hold⟩
    · exact hdiscards ⟨hfree, by rw [hcurrent]; rfl, hunread⟩

/-! ## Two permissions of one run -/

def twiceAsked (permissionId : String) : AgentPermissionRequest :=
  { permissionId, runId := "run", toolCallId := permissionId, toolName := "write"
    argumentsSha256 := "", summary := "", requestedAtMs := "1", expiresAtMs := "9" }

def twiceAskedSnapshot (sequence : Nat) (pending : Option String) : AgentRunSnapshot :=
  { runId := "run", sessionId := "session"
    status := if pending.isSome then .waitingForPermission else .running
    lastSequence := some sequence, updatedAtMs := "1"
    usage := { inputTokens := "0", outputTokens := "0", totalTokens := "0" }
    pendingPermission := pending.map twiceAsked, messageId := none, error := none }

/-- A transition from its beginning to its end. -/
def wholeTransition (durable : DurableAgentTransition) : List RoomAction :=
  [.entry .beginTransition, .entry .commitTransition, .entry (.acceptTransition durable),
    .entry .publishTransition, .entry (.finishTransition 0)]

def wholeSettlement (permissionId : String) : List RoomAction :=
  [.checkSettlement permissionId (.resolved .approved),
    .applySettlement permissionId (.resolved .approved)]

def askFor (sequence : Nat) (permissionId : String) : List RoomAction :=
  wholeTransition ⟨twiceAskedSnapshot sequence (some permissionId),
    .permissionRequested (twiceAsked permissionId)⟩

/-- The first permission is asked for, approved and reported as such. -/
def firstApproved : List RoomAction :=
  askFor 2 "first" ++ [.installWaiter "first"] ++ wholeSettlement "first" ++ [.poll 0] ++
    wholeTransition ⟨twiceAskedSnapshot 3 none, .permissionResolved "first" .approved⟩

/-- The decision on the second permission arrives before it is asked for. -/
def earlyDecision : List RoomAction :=
  firstApproved ++ wholeSettlement "second" ++ askFor 4 "second" ++ [.installWaiter "second"]

/-- So does this one, and the decision on the first arrives again. -/
def repeatedDecision : List RoomAction :=
  firstApproved ++ wholeSettlement "second" ++ wholeSettlement "first" ++ askFor 4 "second" ++
    [.installWaiter "second"]

def twiceAskedRun (actions : List RoomAction) : Option PermissionRoom :=
  Machine.run (PermissionRoom.step "run" 8)
    (start (AgentRunHub.startedEntry (twiceAskedSnapshot 1 none))) actions

theorem earlyDecision_told :
    ∃ room, twiceAskedRun earlyDecision = some room ∧
      ∃ waiter ∈ room.waiters, waiter.permissionId = "second" ∧
        room.pollWaiter waiter = some (.resolved .approved) := by
  have hsettled : ((twiceAskedRun earlyDecision).any fun room => room.waiters.any fun waiter =>
      waiter.permissionId = "second" ∧
        room.firstSettlement waiter.permissionId = some (.resolved .approved)) = true := by
    decide +kernel
  obtain ⟨room, hrun, hroom⟩ := (Option.any_eq_true _ _).mp hsettled
  obtain ⟨waiter, hwaiter, htold⟩ := List.any_eq_true.mp hroom
  obtain ⟨hsecond, hfirst⟩ := of_decide_eq_true htold
  have hpoll := (waiters_told hrun (by decide +kernel)).2.1 waiter hwaiter
  exact ⟨room, hrun, waiter, hwaiter, hsecond, hpoll.1 _ hfirst⟩

/-- The second permission is approved, and the tool call that asked for it sleeps. -/
theorem repeatedDecision_asleep :
    ¬ ∀ actions room, twiceAskedRun actions = some room → ∀ waiter ∈ room.waiters,
      room.pollWaiter waiter = none → room.firstSettlement waiter.permissionId = none := by
  intro hclaim
  have hasleep : ((twiceAskedRun repeatedDecision).any fun room => room.waiters.any fun waiter =>
      room.pollWaiter waiter = none ∧
        room.firstSettlement waiter.permissionId = some (.resolved .approved)) = true := by
    decide +kernel
  obtain ⟨room, hrun, hroom⟩ := (Option.any_eq_true _ _).mp hasleep
  obtain ⟨waiter, hwaiter, htold⟩ := List.any_eq_true.mp hroom
  obtain ⟨hpoll, hfirst⟩ := of_decide_eq_true htold
  rw [hclaim _ room hrun waiter hwaiter hpoll] at hfirst
  cases hfirst

end PermissionRoom

end Chat2DB.Agent
