import Mathlib
import Chat2DB.Base.Machine

/-! # The agent run hub

Process-local coordination of live runs: one entry for a run, with a mutex that
orders its durable transitions, a bounded journal, and a broadcast channel that
subscriptions read after their replay.

An asynchronous call is split where it may be suspended; a step of the machine
is what happens between two such points. The entry of a run is named by the run
id, which is registered at most once.
-/

namespace Chat2DB.Agent

/-! ## Contract -/

inductive AgentRunStatus where
  | running
  | waitingForPermission
  | completed
  | failed
  | cancelled
deriving DecidableEq

def AgentRunStatus.isTerminal : AgentRunStatus → Bool
  | completed | failed | cancelled => true
  | running | waitingForPermission => false

inductive AgentPermissionStatus where
  | pending
  | approved
  | denied
  | consumed
  | expired
  | revoked
deriving DecidableEq

structure AgentPermissionRequest where
  permissionId : String
  runId : String
  toolCallId : String
  toolName : String
  argumentsSha256 : String
  summary : String
  requestedAtMs : String
  expiresAtMs : String
deriving DecidableEq

structure AgentUsage where
  inputTokens : String
  outputTokens : String
  totalTokens : String
deriving DecidableEq

structure ApiError where
  code : String
  message : String
  retryable : Bool
deriving DecidableEq

/-- Run events; tool outputs and the compaction strategy are not inspected. -/
inductive AgentEvent where
  | started
  | textDelta (delta : String)
  | toolStarted (toolCallId name argumentsSha256 : String)
  | toolCompleted (toolCallId name : String)
  | toolFailed (toolCallId name : String) (error : ApiError)
  | permissionRequested (permission : AgentPermissionRequest)
  | permissionResolved (permissionId : String) (status : AgentPermissionStatus)
  | contextCompacted (droppedTurns : String)
  | usage (usage : AgentUsage)
  | completed (messageId : String)
  | failed (error : ApiError)
  | cancelled (reason : Option String)
deriving DecidableEq

def AgentEvent.isTerminal : AgentEvent → Bool
  | completed _ | failed _ | cancelled _ => true
  | _ => false

/-- The snapshot fields the hub reads. `lastSequence` is what the decimal text
parses to as a `u64`. -/
structure AgentRunSnapshot where
  runId : String
  sessionId : String
  status : AgentRunStatus
  lastSequence : Option Nat
  updatedAtMs : String
  usage : AgentUsage
  pendingPermission : Option AgentPermissionRequest
  messageId : Option String
  error : Option ApiError
deriving DecidableEq

structure AgentEventEnvelope where
  runId : String
  sequence : Nat
  occurredAtMs : String
  event : AgentEvent
deriving DecidableEq

/-- Snapshot and event of one committed transition. -/
structure DurableAgentTransition where
  snapshot : AgentRunSnapshot
  event : AgentEvent
deriving DecidableEq

def u64Max : Nat := 2 ^ 64 - 1

def eventMatchesSnapshot (event : AgentEvent) (snapshot prior : AgentRunSnapshot) : Bool :=
  match event with
  | .started => false
  | .permissionRequested permission =>
    snapshot.status = .waitingForPermission && permission.runId = snapshot.runId &&
      snapshot.pendingPermission = some permission
  | .permissionResolved permissionId _ =>
    (prior.pendingPermission.any fun permission => permission.permissionId = permissionId) &&
      snapshot.status = .running && snapshot.pendingPermission.isNone
  | .usage usage => !snapshot.status.isTerminal && snapshot.usage = usage
  | .completed messageId =>
    snapshot.status = .completed && snapshot.messageId = some messageId && snapshot.error.isNone
  | .failed error =>
    snapshot.status = .failed && snapshot.error = some error && snapshot.messageId.isNone
  | .cancelled _ => snapshot.status = .cancelled
  | .textDelta _ | .toolStarted _ _ _ | .toolCompleted _ _ | .toolFailed _ _ _
  | .contextCompacted _ => !snapshot.status.isTerminal

def validateDurableTransition (runId : String) (prior : AgentRunSnapshot) (expectedSequence : Nat)
    (durable : DurableAgentTransition) : Bool :=
  durable.snapshot.runId = runId && durable.snapshot.sessionId = prior.sessionId &&
    durable.snapshot.lastSequence = some expectedSequence && durable.event ≠ .started &&
    eventMatchesSnapshot durable.event durable.snapshot prior

def validateStartedSnapshot (snapshot : AgentRunSnapshot) : Bool :=
  !snapshot.runId.isEmpty && !snapshot.sessionId.isEmpty && snapshot.status = .running &&
    snapshot.lastSequence = some 1 && snapshot.pendingPermission.isNone &&
    snapshot.messageId.isNone && snapshot.error.isNone

/-! ## Entries -/

inductive PermissionSignalState where
  | waiting
  | resolved (status : AgentPermissionStatus)
  | cancelled
deriving DecidableEq

structure PermissionSignal where
  permissionId : String
  state : PermissionSignalState
deriving DecidableEq

/-- Where the holder of the transition mutex stands. -/
inductive TransitionPhase where
  /-- The number is offered to `persist`; nothing is stored yet. -/
  | persisting (next : Nat) (prior : AgentRunSnapshot)
  /-- The storage transaction committed; its answer is not processed yet. -/
  | committed (next : Nat) (prior : AgentRunSnapshot)
  /-- The answer was validated and is to be published. -/
  | accepted (next : Nat) (durable : DurableAgentTransition)
  /-- Published; the waiter and the terminal bookkeeping remain. -/
  | published (durable : DurableAgentTransition)
deriving DecidableEq

structure AgentRunEntry where
  snapshot : AgentRunSnapshot
  sequence : Nat
  journal : List AgentEventEnvelope
  /-- Everything sent on the broadcast channel so far. -/
  sent : List AgentEventEnvelope
  cancellation : Bool
  unavailable : Bool
  permission : Option PermissionSignal
  attached : Bool
  done : Bool
  taskDone : Bool
  terminalOrder : Nat
  /-- The holder of the transition mutex, while its drop guard is armed. -/
  transition : Option TransitionPhase
  /-- The entry is still in the map of runs. -/
  registered : Bool
  /-- History: the numbers that some transition stored or may have stored. -/
  spent : List Nat
deriving DecidableEq

namespace AgentRunEntry

/-- Wake the current permission waiter with a cancellation. -/
def cancelCurrentPermission (entry : AgentRunEntry) : AgentRunEntry :=
  { entry with
    permission := entry.permission.map fun current =>
      if current.state = .waiting then { current with state := .cancelled } else current }

def removeEntry (entry : AgentRunEntry) : AgentRunEntry :=
  { entry with registered := false }

/-- With an attached worker that is still running, the entry is removed when its
task is done; the worker is aborted in either case. -/
def invalidateEntry (entry : AgentRunEntry) (force : Bool) : AgentRunEntry :=
  let invalid :=
    { entry.cancelCurrentPermission with unavailable := true, cancellation := true }
  if entry.done then
    invalid.removeEntry
  else if force || !entry.attached then
    removeEntry { invalid with done := true, taskDone := true }
  else
    invalid

/-- The signal of a new waiter, already cancelled if the run is. -/
def newSignal (entry : AgentRunEntry) (permissionId : String) : AgentRunEntry :=
  { entry with
    permission := some
      { permissionId, state := if entry.cancellation then .cancelled else .waiting } }

/-- `none` when another permission is still waiting. -/
def installPermissionSignal (entry : AgentRunEntry) (permissionId : String) :
    Option AgentRunEntry :=
  match entry.permission with
  | some current =>
    if current.permissionId = permissionId then some entry
    else if current.state = .waiting then none
    else some (entry.newSignal permissionId)
  | none => some (entry.newSignal permissionId)

/-- `none` when the resolution does not belong to the current waiter. -/
def settlePermission (entry : AgentRunEntry) (permissionId : String)
    (resolution : PermissionSignalState) : Option AgentRunEntry :=
  if entry.snapshot.status.isTerminal then none
  else if entry.snapshot.pendingPermission.any fun pending => pending.permissionId ≠ permissionId
  then none
  else
    let settled := { entry with permission := some { permissionId, state := resolution } }
    match entry.permission with
    | some current =>
      if current.permissionId = permissionId then
        if current.state = .waiting then some settled else some entry
      else if current.state = .waiting then none
      else some settled
    | none => some settled

def markTerminal (entry : AgentRunEntry) (order : Nat) : AgentRunEntry :=
  { entry.cancelCurrentPermission with terminalOrder := max order 1 }

/-! ### One transition, from suspension point to suspension point -/

/-- Acquire the mutex and offer the next number. -/
def beginTransition (entry : AgentRunEntry) : Option AgentRunEntry :=
  if entry.transition.isSome || entry.unavailable || entry.snapshot.status.isTerminal ||
      entry.sequence = u64Max then none
  else some { entry with transition := some (.persisting (entry.sequence + 1) entry.snapshot) }

/-- The storage transaction of the holder commits under its number. -/
def commitTransition (entry : AgentRunEntry) : Option AgentRunEntry :=
  match entry.transition with
  | some (.persisting next prior) =>
    some
      { entry with transition := some (.committed next prior), spent := next :: entry.spent }
  | _ => none

/-- `persist` returned its transition. -/
def acceptTransition (entry : AgentRunEntry) (runId : String) (durable : DurableAgentTransition) :
    Option AgentRunEntry :=
  match entry.transition with
  | some (.committed next prior) =>
    let invalid := { entry.invalidateEntry false with transition := none }
    if validateDurableTransition runId prior next durable then
      match durable.event with
      | .permissionRequested permission =>
        match entry.installPermissionSignal permission.permissionId with
        | some installed => some { installed with transition := some (.accepted next durable) }
        | none => some invalid
      | _ => some { entry with transition := some (.accepted next durable) }
    else some invalid
  | _ => none

/-- `persist` failed without having committed: the number stays free. -/
def definitelyNotCommitted (entry : AgentRunEntry) : Option AgentRunEntry :=
  match entry.transition with
  | some (.persisting _ _) => some { entry with transition := none }
  | _ => none

/-- `persist` failed and may have committed. -/
def indeterminate (entry : AgentRunEntry) : Option AgentRunEntry :=
  match entry.transition with
  | some (.persisting next _) =>
    some { entry.invalidateEntry false with transition := none, spent := next :: entry.spent }
  | some (.committed _ _) => some { entry.invalidateEntry false with transition := none }
  | _ => none

/-- Under the state mutex: advance the cached sequence, keep the event in the
journal and send it. -/
def publishTransition (entry : AgentRunEntry) (runId : String) (replayCapacity : Nat) :
    Option AgentRunEntry :=
  match entry.transition with
  | some (.accepted next durable) =>
    if entry.sequence + 1 = next then
      let envelope : AgentEventEnvelope :=
        { runId, sequence := next, occurredAtMs := durable.snapshot.updatedAtMs
          event := durable.event }
      let retained :=
        if entry.journal.length = replayCapacity then entry.journal.tail else entry.journal
      some
        { entry with
          sequence := next
          snapshot := durable.snapshot
          journal := retained ++ [envelope]
          sent := entry.sent ++ [envelope]
          transition := some (.published durable) }
    else some { entry.invalidateEntry false with transition := none }
  | _ => none

/-- Only a resolution concerns the waiter. -/
def settleEvent (entry : AgentRunEntry) : AgentEvent → Option AgentRunEntry
  | .permissionResolved permissionId status =>
    entry.settlePermission permissionId (.resolved status)
  | _ => some entry

/-- Wake the resolved waiter, or close the permission of a terminal run, and
release the mutex. -/
def finishTransition (entry : AgentRunEntry) (order : Nat) : Option AgentRunEntry :=
  match entry.transition with
  | some (.published durable) =>
    match entry.settleEvent durable.event with
    | none => some { entry.invalidateEntry false with transition := none }
    | some settled =>
      if durable.snapshot.status.isTerminal then
        some { settled.markTerminal order with transition := none }
      else some { settled with transition := none }
  | _ => none

/-- The future is dropped and its guard invalidates the entry; a storage call
that was still running may commit later. -/
def dropTransition (entry : AgentRunEntry) : Option AgentRunEntry :=
  match entry.transition with
  | some (.persisting next _) =>
    some { entry.invalidateEntry false with transition := none, spent := next :: entry.spent }
  | some _ => some { entry.invalidateEntry false with transition := none }
  | none => none

/-! ### The other calls on an entry -/

/-- `entry(run_id)` finds it. -/
def found (entry : AgentRunEntry) : Bool := entry.registered && !entry.unavailable

def requestCancellation (entry : AgentRunEntry) : Option AgentRunEntry :=
  if entry.found && !entry.snapshot.status.isTerminal then
    some (cancelCurrentPermission { entry with cancellation := true })
  else none

def installPermissionWaiter (entry : AgentRunEntry) (permissionId : String) :
    Option AgentRunEntry :=
  if entry.found && entry.transition.isNone && !entry.snapshot.status.isTerminal then
    entry.installPermissionSignal permissionId
  else none

def abandon (entry : AgentRunEntry) : Option AgentRunEntry :=
  if entry.registered then some (entry.invalidateEntry true) else none

def attachTask (entry : AgentRunEntry) : Option AgentRunEntry :=
  if entry.found && !entry.attached && !entry.done then some { entry with attached := true }
  else none

/-- A worker that ended without a terminal event leaves its stream unusable. -/
def invalidateUnfinished (entry : AgentRunEntry) : AgentRunEntry :=
  if !entry.unavailable && !entry.snapshot.status.isTerminal then entry.invalidateEntry false
  else entry

def closeTask (entry : AgentRunEntry) : AgentRunEntry :=
  let finished := { entry with done := true, taskDone := true }
  if entry.unavailable then finished.removeEntry else finished

/-- The monitor of an attached worker, under the transition mutex. -/
def finishTask (entry : AgentRunEntry) : Option AgentRunEntry :=
  if entry.attached && entry.transition.isNone && !entry.done then
    some entry.invalidateUnfinished.closeTask
  else none

/-- `reserve` may evict any entry with an eviction order. -/
def evict (entry : AgentRunEntry) : Option AgentRunEntry :=
  if entry.registered && entry.terminalOrder ≠ 0 && entry.taskDone then some entry.removeEntry
  else none

end AgentRunEntry

/-! ## Subscriptions -/

/-- Why a subscription ended with an error. -/
inductive SubscriptionError where
  | streamUnavailable
  | replayWindow (requested oldest latest : Nat)
  | invalidSequence
deriving DecidableEq

inductive SubscriptionPhase where
  /-- At the head of the loop of `next_event`. -/
  | polling
  /-- Waiting on the channel. -/
  | receiving
  /-- The channel reported a lag. -/
  | lagged
  | finished
  | failed (error : SubscriptionError)
deriving DecidableEq

structure AgentRunSubscription where
  runId : String
  requested : Option Nat
  replay : List AgentEventEnvelope
  /-- The next index the receiver reads from the channel. -/
  position : Nat
  cursor : Nat
  phase : SubscriptionPhase
  /-- History: the number of the first event to be yielded. -/
  first : Nat
  /-- History: the events yielded so far. -/
  yielded : List AgentEventEnvelope
deriving DecidableEq

def oldestRetained (entry : AgentRunEntry) : Nat :=
  (entry.journal.head?.map AgentEventEnvelope.sequence).getD entry.sequence

def validateReplayCursor (entry : AgentRunEntry) : Option Nat → Except SubscriptionError Unit
  | none => .ok ()
  | some requested =>
    if requested > entry.sequence then .error .invalidSequence
    else if min (requested + 1) u64Max < oldestRetained entry then
      .error (.replayWindow requested (oldestRetained entry) entry.sequence)
    else .ok ()

def replayAfter (entry : AgentRunEntry) (cursor : Nat) : List AgentEventEnvelope :=
  entry.journal.filter fun event => event.sequence > cursor

def subscribe (entry : AgentRunEntry) (runId : String) (afterSequence : Option Nat) :
    Option AgentRunSubscription :=
  if entry.found then
    match validateReplayCursor entry afterSequence with
    | .ok () =>
      some
        { runId
          requested := afterSequence
          replay := replayAfter entry (afterSequence.getD 0)
          position := entry.sent.length
          cursor := afterSequence.getD 0
          phase := .polling
          first := (afterSequence.map (· + 1)).getD (oldestRetained entry)
          yielded := [] }
    | .error _ => none
  else none

namespace AgentRunSubscription

/-- Hand one event to the caller. -/
def yield (subscription : AgentRunSubscription) (event : AgentEventEnvelope) :
    AgentRunSubscription :=
  { subscription with
    cursor := event.sequence
    yielded := subscription.yielded ++ [event]
    phase := .polling }

/-- The head of the loop: the replay first, then the end of a terminal run. -/
def poll (subscription : AgentRunSubscription) (entry : AgentRunEntry) :
    Option AgentRunSubscription :=
  if subscription.phase = .polling then
    if entry.unavailable then some { subscription with phase := .failed .streamUnavailable }
    else
      match subscription.replay with
      | event :: rest => some ({ subscription with replay := rest }.yield event)
      | [] =>
        if entry.snapshot.status.isTerminal && subscription.cursor ≥ entry.sequence then
          some { subscription with phase := .finished }
        else some { subscription with phase := .receiving }
  else none

/-- The channel answers: a lag when the receiver fell out of its window. -/
def receive (subscription : AgentRunSubscription) (entry : AgentRunEntry) (liveCapacity : Nat) :
    Option AgentRunSubscription :=
  if subscription.phase = .receiving then
    if entry.unavailable then some { subscription with phase := .failed .streamUnavailable }
    else if entry.sent.length - subscription.position > liveCapacity then
      some
        { subscription with position := entry.sent.length - liveCapacity, phase := .lagged }
    else
      match entry.sent[subscription.position]? with
      | none => none
      | some event =>
        let received := { subscription with position := subscription.position + 1 }
        if event.sequence ≤ subscription.cursor then some { received with phase := .polling }
        else some (received.yield event)
  else none

/-- After a lag the replay is taken from the journal again. -/
def refill (subscription : AgentRunSubscription) (entry : AgentRunEntry) :
    Option AgentRunSubscription :=
  if subscription.phase = .lagged then
    match validateReplayCursor entry (some subscription.cursor) with
    | .ok () =>
      some
        { subscription with
          replay := replayAfter entry subscription.cursor
          phase := .polling }
    | .error error => some { subscription with phase := .failed error }
  else none

end AgentRunSubscription

/-! ## The hub -/

structure HubCapacities where
  replay : Nat
  live : Nat
  replay_pos : 0 < replay
  live_pos : 0 < live

structure AgentRunHub where
  runs : String → Option AgentRunEntry
  nextTerminalOrder : Nat
  subscriptions : List AgentRunSubscription
  /-- `last_sequence` of the runs in the store. -/
  durable : String → Option Nat

def AgentRunHub.new : AgentRunHub where
  runs := fun _ => none
  nextTerminalOrder := 1
  subscriptions := []
  durable := fun _ => none

inductive HubAction where
  | startRun (runId : String)
  | registerStarted (snapshot : AgentRunSnapshot)
  | beginTransition (runId : String)
  | commit (runId : String)
  | accept (runId : String) (durable : DurableAgentTransition)
  | definitelyNotCommitted (runId : String)
  | indeterminate (runId : String)
  | publish (runId : String)
  | finish (runId : String)
  | dropTransition (runId : String)
  | lateCommit (runId : String) (number : Nat)
  | requestCancellation (runId : String)
  | installPermissionWaiter (runId permissionId : String)
  | abandon (runId : String)
  | attachTask (runId : String)
  | taskDone (runId : String)
  | evict (runId : String)
  | subscribe (runId : String) (afterSequence : Option Nat)
  | poll (index : Nat)
  | receive (index : Nat)
  | refill (index : Nat)

namespace AgentRunHub

/-- A step of one entry. -/
def onEntry (hub : AgentRunHub) (runId : String)
    (change : AgentRunEntry → Option AgentRunEntry) : Option AgentRunHub := do
  let entry ← hub.runs runId
  let changed ← change entry
  pure { hub with runs := Function.update hub.runs runId (some changed) }

/-- A step of one subscription, which reads its entry. -/
def onSubscription (hub : AgentRunHub) (index : Nat)
    (change : AgentRunSubscription → AgentRunEntry → Option AgentRunSubscription) :
    Option AgentRunHub := do
  let subscription ← hub.subscriptions[index]?
  let entry ← hub.runs subscription.runId
  let changed ← change subscription entry
  pure { hub with subscriptions := hub.subscriptions.set index changed }

/-- The entry of a registered run, with its `Started` event. -/
def startedEntry (snapshot : AgentRunSnapshot) : AgentRunEntry :=
  let envelope : AgentEventEnvelope :=
    { runId := snapshot.runId, sequence := 1, occurredAtMs := snapshot.updatedAtMs
      event := .started }
  { snapshot, sequence := 1, journal := [envelope], sent := [envelope], cancellation := false
    unavailable := false, permission := none, attached := false, done := false, taskDone := false
    terminalOrder := 0, transition := none, registered := true, spent := [1] }

/-- The store takes a number only if it is greater than the stored one. -/
def store (hub : AgentRunHub) (runId : String) (number : Nat) : Option AgentRunHub := do
  let stored ← hub.durable runId
  if stored < number then
    pure { hub with durable := Function.update hub.durable runId (some number) }
  else none

def step (capacities : HubCapacities) (hub : AgentRunHub) : HubAction → Option AgentRunHub
  | .startRun runId =>
    if (hub.durable runId).isNone then
      some { hub with durable := Function.update hub.durable runId (some 1) }
    else none
  | .registerStarted snapshot =>
    if validateStartedSnapshot snapshot && (hub.runs snapshot.runId).isNone &&
        hub.durable snapshot.runId = some 1 then
      some
        { hub with
          runs := Function.update hub.runs snapshot.runId (some (startedEntry snapshot)) }
    else none
  | .beginTransition runId => hub.onEntry runId AgentRunEntry.beginTransition
  | .commit runId => do
    let entry ← hub.runs runId
    match entry.transition with
    | some (.persisting next _) =>
      let stored ← hub.store runId next
      stored.onEntry runId AgentRunEntry.commitTransition
    | _ => none
  | .accept runId durable => hub.onEntry runId fun entry => entry.acceptTransition runId durable
  | .definitelyNotCommitted runId => hub.onEntry runId AgentRunEntry.definitelyNotCommitted
  | .indeterminate runId => hub.onEntry runId AgentRunEntry.indeterminate
  | .publish runId =>
    hub.onEntry runId fun entry => entry.publishTransition runId capacities.replay
  | .finish runId => do
    let entry ← hub.runs runId
    let finished ← hub.onEntry runId fun entry => entry.finishTransition hub.nextTerminalOrder
    if entry.snapshot.status.isTerminal then
      pure { finished with nextTerminalOrder := min (hub.nextTerminalOrder + 1) u64Max }
    else pure finished
  | .dropTransition runId => hub.onEntry runId AgentRunEntry.dropTransition
  | .lateCommit runId number => do
    let entry ← hub.runs runId
    if entry.unavailable && number ∈ entry.spent then hub.store runId number else none
  | .requestCancellation runId => hub.onEntry runId AgentRunEntry.requestCancellation
  | .installPermissionWaiter runId permissionId =>
    hub.onEntry runId fun entry => entry.installPermissionWaiter permissionId
  | .abandon runId => hub.onEntry runId AgentRunEntry.abandon
  | .attachTask runId => hub.onEntry runId AgentRunEntry.attachTask
  | .taskDone runId => hub.onEntry runId AgentRunEntry.finishTask
  | .evict runId => hub.onEntry runId AgentRunEntry.evict
  | .subscribe runId afterSequence => do
    let entry ← hub.runs runId
    let subscription ← Agent.subscribe entry runId afterSequence
    pure { hub with subscriptions := hub.subscriptions ++ [subscription] }
  | .poll index => hub.onSubscription index AgentRunSubscription.poll
  | .receive index =>
    hub.onSubscription index fun subscription entry => subscription.receive entry capacities.live
  | .refill index => hub.onSubscription index AgentRunSubscription.refill

end AgentRunHub

end Chat2DB.Agent
