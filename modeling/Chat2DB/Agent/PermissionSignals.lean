import Chat2DB.Agent.Hub
import Chat2DB.Base.Machine

/-! # Signals and waiters of one run

The entry of a run has one slot for the signal of a permission. A signal is a
channel with one value; the slot may get another signal while waiters still read
the old one. Settling a permission looks at the snapshot first and writes to the
slot later, so that other calls come in between.
-/

namespace Chat2DB.Agent

/-- How a permission is settled by a call. -/
inductive Settlement where
  | resolved (status : AgentPermissionStatus)
  | cancelled
deriving DecidableEq

def Settlement.signal : Settlement → PermissionSignalState
  | .resolved status => .resolved status
  | .cancelled => .cancelled

inductive AgentPermissionWaitOutcome where
  | resolved (status : AgentPermissionStatus)
  | cancelled
deriving DecidableEq

/-- A receiver of a channel, and what its `wait` has returned. -/
structure AgentPermissionWaiter where
  permissionId : String
  channel : Nat
  outcome : Option AgentPermissionWaitOutcome
deriving DecidableEq

/-! ## Steps of the entry -/

namespace AgentRunEntry

/-- The check of `settle_permission`. -/
def maySettle (entry : AgentRunEntry) (permissionId : String) : Bool :=
  !entry.snapshot.status.isTerminal &&
    !(entry.snapshot.pendingPermission.any fun pending => pending.permissionId ≠ permissionId)

/-- `settle_permission` from where it has locked the slot; `none` for a mismatch. -/
def settleSlot (entry : AgentRunEntry) (permissionId : String)
    (resolution : PermissionSignalState) : Option AgentRunEntry :=
  let settled := { entry with permission := some { permissionId, state := resolution } }
  match entry.permission with
  | some current =>
    if current.permissionId = permissionId then
      if current.state = .waiting then some settled else some entry
    else if current.state = .waiting then none
    else some settled
  | none => some settled

theorem settlePermission_eq (entry : AgentRunEntry) (permissionId : String)
    (resolution : PermissionSignalState) :
    entry.settlePermission permissionId resolution =
      if entry.maySettle permissionId then entry.settleSlot permissionId resolution else none := by
  unfold settlePermission maySettle settleSlot
  cases entry.snapshot.status.isTerminal with
  | true => rfl
  | false =>
    cases entry.snapshot.pendingPermission.any fun pending =>
      pending.permissionId ≠ permissionId <;> rfl

end AgentRunEntry

/-- The calls on an entry that install no waiter. -/
inductive EntryAction where
  | beginTransition
  | commitTransition
  | acceptTransition (durable : DurableAgentTransition)
  | definitelyNotCommitted
  | indeterminate
  | publishTransition
  | finishTransition (order : Nat)
  | dropTransition
  /-- `request_cancellation` up to where it waits for the slot. -/
  | cancelRun
  /-- `cancel_all` up to there. -/
  | cancelAll
  /-- The rest of both. -/
  | cancelCurrentPermission
  | abandon
  | joinTimeout
  | attachTask
  | finishTask
  | evict
deriving DecidableEq

namespace EntryAction

variable (runId : String) (replayCapacity : Nat)

def apply (entry : AgentRunEntry) : EntryAction → Option AgentRunEntry
  | .beginTransition => entry.beginTransition
  | .commitTransition => entry.commitTransition
  | .acceptTransition durable => entry.acceptTransition runId durable
  | .definitelyNotCommitted => entry.definitelyNotCommitted
  | .indeterminate => entry.indeterminate
  | .publishTransition => entry.publishTransition runId replayCapacity
  | .finishTransition order => entry.finishTransition order
  | .dropTransition => entry.dropTransition
  | .cancelRun =>
    if entry.found && !entry.snapshot.status.isTerminal then
      some { entry with cancellation := true }
    else none
  | .cancelAll => some { entry with cancellation := true }
  | .cancelCurrentPermission =>
    if entry.cancellation then some entry.cancelCurrentPermission else none
  | .abandon => entry.abandon
  | .joinTimeout => if entry.taskDone then none else some (entry.invalidateEntry true)
  | .attachTask => entry.attachTask
  | .finishTask => entry.finishTask
  | .evict => entry.evict

/-- `invalidate_entry` only tries to lock the slot. A step that would have done nothing to the slot
but cancel what waits there leaves it alone when another call holds the lock. -/
def applyLocked (entry : AgentRunEntry) (action : EntryAction) : Option AgentRunEntry := do
  let later ← action.apply runId replayCapacity entry
  if later.unavailable && later.permission = entry.cancelCurrentPermission.permission then
    some { later with permission := entry.permission }
  else none

end EntryAction

/-! ## The entry with its waiters -/

structure PermissionRoom where
  entry : AgentRunEntry
  /-- Every channel that was made, with its value. The slot holds the last one. -/
  channels : List PermissionSignal
  waiters : List AgentPermissionWaiter
  /-- Calls that have passed their check and wait for the slot. -/
  settling : List (String × Settlement)
  /-- History: what the slot recorded for a permission, each time that it did. -/
  settled : List (String × PermissionSignalState)
deriving DecidableEq

inductive RoomAction where
  | entry (action : EntryAction)
  | locked (action : EntryAction)
  | checkSettlement (permissionId : String) (settlement : Settlement)
  | applySettlement (permissionId : String) (settlement : Settlement)
  | installWaiter (permissionId : String)
  | poll (index : Nat)
deriving DecidableEq

/-- The permission that a call asks a signal for. -/
def EntryAction.requests : EntryAction → Option String
  | .acceptTransition durable =>
    match durable.event with
    | .permissionRequested permission => some permission.permissionId
    | _ => none
  | _ => none

/-- The resolution that a published transition carries to the slot. -/
def EntryAction.settles (entry : AgentRunEntry) :
    EntryAction → Option (String × PermissionSignalState)
  | .finishTransition _ =>
    match entry.transition with
    | some (.published durable) =>
      match durable.event with
      | .permissionResolved permissionId status => some (permissionId, .resolved status)
      | _ => none
    | _ => none
  | _ => none

namespace RoomAction

def requests : RoomAction → Option String
  | .entry action => action.requests
  | .installWaiter permissionId => some permissionId
  | _ => none

def settles (entry : AgentRunEntry) : RoomAction → Option (String × PermissionSignalState)
  | .entry action => action.settles entry
  | .applySettlement permissionId settlement => some (permissionId, settlement.signal)
  | _ => none

end RoomAction

/-- The channels after a step of the entry. The slot keeps its channel as long as it is about the
same permission; otherwise it was given a new one. -/
def nextChannels (channels : List PermissionSignal) (before : Option PermissionSignal) :
    Option PermissionSignal → List PermissionSignal
  | none => channels
  | some signal =>
    if before.any fun current => current.permissionId = signal.permissionId then
      channels.dropLast ++ [signal]
    else channels ++ [signal]

/-- What the slot recorded in a step. -/
def recorded (before : Option PermissionSignal) :
    Option PermissionSignal → List (String × PermissionSignalState)
  | none => []
  | some signal =>
    if signal.state = .waiting ∨ before = some signal then []
    else [(signal.permissionId, signal.state)]

namespace PermissionRoom

def start (entry : AgentRunEntry) : PermissionRoom :=
  { entry, channels := [], waiters := [], settling := [], settled := [] }

/-- The room after a step of its entry. -/
def follow (room : PermissionRoom) (later : AgentRunEntry) : PermissionRoom :=
  { room with
    entry := later
    channels := nextChannels room.channels room.entry.permission later.permission
    settled := room.settled ++ recorded room.entry.permission later.permission }

/-- What `wait` finds: the value of the channel first, then the token of the run, then whether the
sender is gone. -/
def pollWaiter (room : PermissionRoom) (waiter : AgentPermissionWaiter) :
    Option AgentPermissionWaitOutcome :=
  match room.channels[waiter.channel]?.map PermissionSignal.state with
  | some (.resolved status) => some (.resolved status)
  | some .cancelled => some .cancelled
  | some .waiting | none =>
    if room.entry.cancellation then some .cancelled
    else if waiter.channel + 1 < room.channels.length then some .cancelled
    else none

variable (runId : String) (replayCapacity : Nat)

def step (room : PermissionRoom) : RoomAction → Option PermissionRoom
  | .entry action => (action.apply runId replayCapacity room.entry).map room.follow
  | .locked action => (action.applyLocked runId replayCapacity room.entry).map room.follow
  | .checkSettlement permissionId settlement =>
    if room.entry.found && settlement ≠ .resolved .pending &&
        room.entry.maySettle permissionId then
      some { room with settling := (permissionId, settlement) :: room.settling }
    else none
  | .applySettlement permissionId settlement =>
    if (permissionId, settlement) ∈ room.settling then
      let rest := { room with settling := room.settling.erase (permissionId, settlement) }
      match room.entry.settleSlot permissionId settlement.signal with
      | some later => some (rest.follow later)
      | none => some rest
    else none
  | .installWaiter permissionId => do
    if permissionId.isEmpty then none else
    let later ← room.entry.installPermissionWaiter permissionId
    let next := room.follow later
    some
      { next with
        waiters := next.waiters ++
          [{ permissionId, channel := next.channels.length - 1, outcome := none }] }
  | .poll index => do
    let waiter ← room.waiters[index]?
    if waiter.outcome.isSome then none else
    some
      { room with
        waiters := room.waiters.set index { waiter with outcome := room.pollWaiter waiter } }

/-! ## Signals lost -/

/-- Nobody waits for another permission in the slot. -/
def FreeFor (room : PermissionRoom) (permissionId : String) : Prop :=
  ∀ current ∈ room.entry.permission,
    current.permissionId ≠ permissionId ∧ current.state ≠ .waiting

instance (room : PermissionRoom) (permissionId : String) : Decidable (room.FreeFor permissionId) :=
  inferInstanceAs (Decidable (∀ _, _))

/-- The slot holds the finished signal of another permission, and this one had a signal before. -/
def Renews (room : PermissionRoom) (permissionId : String) : Prop :=
  room.FreeFor permissionId ∧ permissionId ∈ room.channels.map PermissionSignal.permissionId

instance (room : PermissionRoom) (permissionId : String) : Decidable (room.Renews permissionId) :=
  inferInstanceAs (Decidable (_ ∧ _))

/-- The slot has a signal that no waiter was given to read. -/
def Unread (room : PermissionRoom) : Prop :=
  room.entry.permission.isSome ∧ ∀ waiter ∈ room.waiters, waiter.channel + 1 ≠ room.channels.length

instance (room : PermissionRoom) : Decidable room.Unread :=
  inferInstanceAs (Decidable (_ ∧ ∀ _, _))

/-- The slot holds the finished signal of another permission, which is still to be read. -/
def Discards (room : PermissionRoom) (permissionId : String) : Prop :=
  room.FreeFor permissionId ∧ room.Unread

instance (room : PermissionRoom) (permissionId : String) : Decidable (room.Discards permissionId) :=
  inferInstanceAs (Decidable (_ ∧ _))

/-- The step makes no second signal for a permission, and no settlement replaces the finished
signal of another permission that is still to be read. -/
def Allowed (room : PermissionRoom) (action : RoomAction) : Prop :=
  (∀ permissionId ∈ action.requests, ¬ room.Renews permissionId) ∧
    ∀ settlement ∈ action.settles room.entry,
      ¬ room.Renews settlement.1 ∧ ¬ room.Discards settlement.1

instance (room : PermissionRoom) (action : RoomAction) : Decidable (room.Allowed action) :=
  inferInstanceAs (Decidable ((∀ _, _) ∧ ∀ _, _))

end PermissionRoom

end Chat2DB.Agent
