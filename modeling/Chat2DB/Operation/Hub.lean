import Chat2DB.Operation.Replay

/-! # The operation hub

All operations of the application by id. The hub holds a bounded number of them: a new
operation takes the place of the one that ended first, and ended operations are found by
the order number that the end of an operation draws.
-/

namespace Chat2DB.Operation

open Chat2DB.Agent (u64Max)

inductive CancellationRequest where
  | waiting
  | requested (reason : Option String)
deriving DecidableEq

inductive CancelDisposition where
  | unknownOperation
  | accepted
  | alreadyTerminal
deriving DecidableEq

/-- The counter of ends. It starts at one: zero stands for no end. -/
structure TerminalCounter where
  next : Nat
  positive : 0 < next
deriving DecidableEq

/-- An operation with its subscribers. -/
structure HubEntry where
  state : OperationState
  /-- Everything sent on the channel. -/
  sent : List OperationEventEnvelope
  subscribers : List OperationSubscription
  cancel : CancellationRequest
  /-- Zero until the operation has ended. -/
  terminalOrder : Nat
  /-- History: the call of the hub that ended the operation. -/
  endedAt : Option Nat
deriving DecidableEq

/-- What `emit` leaves. -/
structure Emitted where
  succeeded : Bool
  entry : HubEntry
  counter : TerminalCounter

namespace HubEntry

def create (timestamp : Int) : HubEntry where
  state := .create timestamp
  sent := []
  subscribers := []
  cancel := .waiting
  terminalOrder := 0
  endedAt := none

/-- The change of the state, with the call at which an operation that ran has ended. -/
def become (entry : HubEntry) (call : Nat) (state : OperationState) : HubEntry :=
  { entry with
    state
    endedAt :=
      if entry.state.status = .running ∧ state.status ≠ .running then some call
      else entry.endedAt }

/-- The last part of `emit`: an operation that has ended draws its order number. -/
def drawOrder (entry : HubEntry) (counter : TerminalCounter) : Emitted :=
  if entry.state.status = .running then ⟨true, entry, counter⟩
  else if counter.next ≥ u64Max then ⟨false, entry, counter⟩
  else
    ⟨true, { entry with terminalOrder := counter.next },
      ⟨counter.next + 1, Nat.succ_pos counter.next⟩⟩

def emit (entry : HubEntry) (replayCapacity call : Nat) (counter : TerminalCounter)
    (event : OperationEvent) (clock : Option Int) : Emitted :=
  if entry.state.status ≠ .running then ⟨true, entry, counter⟩
  else
    let applied := entry.state.applyEvent event
    if !applied.succeeded then ⟨false, entry.become call applied.state, counter⟩
    else if applied.state.sequence ≥ u64Max then
      ⟨false, entry.become call applied.state, counter⟩
    else
      let state := { applied.state with sequence := applied.state.sequence + 1 }
      match clock with
      | none => ⟨false, entry.become call state, counter⟩
      | some updatedAtMs =>
        let envelope : OperationEventEnvelope :=
          { sequence := state.sequence, occurredAtMs := updatedAtMs, event }
        let state :=
          { state with
            updatedAtMs
            journal :=
              (if state.journal.length = replayCapacity then state.journal.tail
                else state.journal) ++ [envelope] }
        { entry.become call state with sent := entry.sent ++ [envelope] }.drawOrder counter

def subscribe (entry : HubEntry) (afterSequence : Option Nat) :
    Except SubscriptionError HubEntry :=
  match validateReplayCursor entry.state afterSequence with
  | .error error => .error error
  | .ok () =>
    .ok
      { entry with
        subscribers := entry.subscribers ++
          [{ replay := replayAfter entry.state (afterSequence.getD 0)
             position := entry.sent.length
             cursor := afterSequence.getD 0
             phase := .polling
             requested := afterSequence
             first := (afterSequence.map (· + 1)).getD (max entry.state.oldest 1)
             returned := [] }] }

def requestCancel (entry : HubEntry) (reason : Option String) : HubEntry :=
  if entry.state.status = .running then { entry with cancel := .requested reason } else entry

end HubEntry

/-- The held operations, in the order in which they were created. -/
structure OperationHub where
  operations : List (String × HubEntry)
  counter : TerminalCounter
  /-- History: the calls so far. -/
  calls : Nat

/-- Both capacities are positive. -/
structure Capacities where
  replay : Nat
  operations : Nat
  replay_pos : 0 < replay
  operations_pos : 0 < operations

namespace OperationHub

def new : OperationHub where
  operations := []
  counter := ⟨1, Nat.one_pos⟩
  calls := 0

/-- The ended operation with the least order number; equal numbers are told apart by the id. -/
def oldestTerminal : List (String × HubEntry) → Option (Nat × String)
  | [] => none
  | (id, entry) :: rest =>
    match oldestTerminal rest with
    | none => if entry.terminalOrder ≠ 0 then some (entry.terminalOrder, id) else none
    | some (order, other) =>
      if entry.terminalOrder ≠ 0 ∧
          (entry.terminalOrder < order ∨ entry.terminalOrder = order ∧ id < other) then
        some (entry.terminalOrder, id)
      else some (order, other)

/-- How `create` answers. -/
inductive CreateReply where
  | created
  | clockFailed
  | capacityExhausted
deriving DecidableEq

/-- `id` is the UUID that was drawn, `clock` is what `now_millis` answers. -/
def create (capacities : Capacities) (hub : OperationHub) (id : String) (clock : Option Int) :
    CreateReply × OperationHub :=
  match clock with
  | none => (.clockFailed, hub)
  | some timestamp =>
    if hub.operations.length ≥ capacities.operations then
      match oldestTerminal hub.operations with
      | none => (.capacityExhausted, hub)
      | some (_, oldest) =>
        (.created,
          { hub with
            operations :=
              (hub.operations.filter fun entry => entry.1 ≠ oldest) ++
                [(id, .create timestamp)] })
    else
      (.created, { hub with operations := hub.operations ++ [(id, .create timestamp)] })

def entry (hub : OperationHub) (id : String) : Option HubEntry :=
  (hub.operations.find? fun entry => entry.1 = id).map Prod.snd

/-- Changes the operation with this id. -/
def update (hub : OperationHub) (id : String) (change : HubEntry → HubEntry) : OperationHub :=
  { hub with
    operations :=
      hub.operations.map fun entry => if entry.1 = id then (id, change entry.2) else entry }

/-- Whether the call succeeds, and the hub after it. -/
def emit (capacities : Capacities) (hub : OperationHub) (id : String) (event : OperationEvent)
    (clock : Option Int) : Bool × OperationHub :=
  match hub.entry id with
  | none => (false, hub)
  | some entry =>
    let emitted := entry.emit capacities.replay hub.calls hub.counter event clock
    (emitted.succeeded,
      { hub.update id (fun _ => emitted.entry) with counter := emitted.counter })

def subscribe (hub : OperationHub) (id : String) (afterSequence : Option Nat) : OperationHub :=
  match hub.entry id with
  | none => hub
  | some entry =>
    match entry.subscribe afterSequence with
    | .error _ => hub
    | .ok next => hub.update id fun _ => next

def cancel (hub : OperationHub) (id : String) : CancelDisposition × OperationHub :=
  match hub.entry id with
  | none => (.unknownOperation, hub)
  | some entry =>
    (if entry.state.status = .running then .accepted else .alreadyTerminal,
      hub.update id fun _ => entry.requestCancel none)

def cancelAll (hub : OperationHub) (reason : String) : OperationHub :=
  { hub with
    operations := hub.operations.map fun entry => (entry.1, entry.2.requestCancel (some reason)) }

end OperationHub

inductive HubCall where
  | create (id : String) (clock : Option Int)
  | emit (id : String) (event : OperationEvent) (clock : Option Int)
  | subscribe (id : String) (afterSequence : Option Nat)
  | cancel (id : String)
  | cancelAll (reason : String)

namespace OperationHub

/-- One call. The id of a new operation is drawn at random and is none of those held. -/
def step (capacities : Capacities) (hub : OperationHub) (call : HubCall) : Option OperationHub :=
  let next : Option OperationHub :=
    match call with
    | .create id clock =>
      if (hub.entry id).isSome then none else some (hub.create capacities id clock).2
    | .emit id event clock => some (hub.emit capacities id event clock).2
    | .subscribe id afterSequence => some (hub.subscribe id afterSequence)
    | .cancel id => some (hub.cancel id).2
    | .cancelAll reason => some (hub.cancelAll reason)
  next.map fun hub => { hub with calls := hub.calls + 1 }

end OperationHub

end Chat2DB.Operation
