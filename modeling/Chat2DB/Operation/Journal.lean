import Chat2DB.Agent.Hub

/-! # The operation journal

One query operation with its bounded journal, the broadcast channel of its
events, and a subscription that replays the journal before it follows the
channel. A step of the subscription is what happens between two points at which
it may be suspended.
-/

namespace Chat2DB.Operation

open Chat2DB.Agent (ApiError u64Max)

/-! ## Contract -/

inductive OperationStatus where
  | running
  | completed
  | failed
  | cancelled
deriving DecidableEq

/-- The counts are decimal texts. -/
structure ResultMetadata where
  id : String
  rowCount : String
  byteCount : String
  truncatedByMaxRows : Bool
  truncatedByMaxResultBytes : Bool
  createdAtMs : String
  expiresAtMs : String
deriving DecidableEq

inductive OperationEvent where
  | started
  | progress (rowCount byteCount : Nat)
  | completed (result : ResultMetadata)
  | failed (error : ApiError)
  | cancelled (reason : Option String)
deriving DecidableEq

def OperationEvent.isTerminal : OperationEvent → Bool
  | started | progress _ _ => false
  | completed _ | failed _ | cancelled _ => true

structure OperationEventEnvelope where
  sequence : Nat
  occurredAtMs : Int
  event : OperationEvent
deriving DecidableEq

/-- A decimal digit sum on top of what was read before. -/
def readDigit (read : Option Nat) (digit : Char) : Option Nat := do
  let value ← read
  if digit.isDigit ∧ value * 10 + (digit.toNat - '0'.toNat) ≤ u64Max then
    some (value * 10 + (digit.toNat - '0'.toNat))
  else none

/-- `str::parse::<u64>`: digits after an optional plus sign, within the range. -/
def parseContractU64 (value : String) : Option Nat :=
  match value.toList with
  | [] => none
  | '+' :: [] => none
  | '+' :: digits => digits.foldl readDigit (some 0)
  | digits => digits.foldl readDigit (some 0)

/-! ## The operation -/

structure OperationState where
  status : OperationStatus
  sequence : Nat
  updatedAtMs : Int
  rowCount : Nat
  byteCount : Nat
  result : Option ResultMetadata
  error : Option ApiError
  journal : List OperationEventEnvelope
deriving DecidableEq

/-- A call that may fail after it changed the state. -/
structure Applied where
  state : OperationState
  succeeded : Bool

namespace OperationState

def create (timestamp : Int) : OperationState where
  status := .running
  sequence := 0
  updatedAtMs := timestamp
  rowCount := 0
  byteCount := 0
  result := none
  error := none
  journal := []

def applyEvent (state : OperationState) : OperationEvent → Applied
  | .started => ⟨state, true⟩
  | .progress rowCount byteCount =>
    if rowCount < state.rowCount ∨ byteCount < state.byteCount then ⟨state, false⟩
    else ⟨{ state with rowCount, byteCount }, true⟩
  | .completed result =>
    -- the status is set before the counts are parsed
    let state := { state with status := .completed }
    match parseContractU64 result.rowCount with
    | none => ⟨state, false⟩
    | some rowCount =>
      let state := { state with rowCount }
      match parseContractU64 result.byteCount with
      | none => ⟨state, false⟩
      | some byteCount => ⟨{ state with byteCount, result := some result }, true⟩
  | .failed error => ⟨{ state with status := .failed, error := some error }, true⟩
  | .cancelled _ => ⟨{ state with status := .cancelled }, true⟩

end OperationState

/-! ## Subscriptions -/

inductive SubscriptionError where
  | replayWindow (requested oldest latest : Nat)
  | invalidSequence
deriving DecidableEq

/-- Where `next_event` stands. -/
inductive SubscriptionPhase where
  /-- At the head of the loop, or between two calls. -/
  | polling
  /-- Waiting on the channel. -/
  | receiving
  /-- The channel reported a lag. -/
  | lagged
  | failed (error : SubscriptionError)
deriving DecidableEq

structure OperationSubscription where
  replay : List OperationEventEnvelope
  /-- The next index the receiver reads from the channel. -/
  position : Nat
  cursor : Nat
  phase : SubscriptionPhase
  /-- History: the cursor it was opened with. -/
  requested : Option Nat
  /-- History: the number of the first event to be returned. -/
  first : Nat
  /-- History: what the calls of `next_event` returned. -/
  returned : List (Option OperationEventEnvelope)
deriving DecidableEq

def OperationState.oldest (state : OperationState) : Nat :=
  (state.journal.head?.map OperationEventEnvelope.sequence).getD state.sequence

def validateReplayCursor (state : OperationState) : Option Nat → Except SubscriptionError Unit
  | none => .ok ()
  | some requested =>
    if requested > state.sequence then .error .invalidSequence
    else if min (requested + 1) u64Max < state.oldest then
      .error (.replayWindow requested state.oldest state.sequence)
    else .ok ()

def replayAfter (state : OperationState) (cursor : Nat) : List OperationEventEnvelope :=
  state.journal.filter fun event => event.sequence > cursor

namespace OperationSubscription

/-- An event is handed to the caller. -/
def yield (subscription : OperationSubscription) (event : OperationEventEnvelope) :
    OperationSubscription :=
  { subscription with
    cursor := event.sequence
    returned := subscription.returned ++ [some event]
    phase := .polling }

/-- The head of the loop: the replay first, then the end of a terminal operation. -/
def poll (subscription : OperationSubscription) (state : OperationState) :
    Option OperationSubscription :=
  if subscription.phase ≠ .polling then none
  else
    match subscription.replay with
    | event :: rest => some ({ subscription with replay := rest }.yield event)
    | [] =>
      if state.status ≠ .running ∧ subscription.cursor ≥ state.sequence then
        some { subscription with returned := subscription.returned ++ [none] }
      else some { subscription with phase := .receiving }

/-- The channel answers: with the next event in order, or with a lag over which
`skipped` events are lost. -/
def receive (subscription : OperationSubscription) (sent : List OperationEventEnvelope)
    (skipped : Nat) : Option OperationSubscription :=
  if subscription.phase ≠ .receiving then none
  else if skipped = 0 then do
    let event ← sent[subscription.position]?
    let received := { subscription with position := subscription.position + 1 }
    if event.sequence ≤ subscription.cursor then some { received with phase := .polling }
    else some (received.yield event)
  else if subscription.position + skipped ≤ sent.length then
    some { subscription with position := subscription.position + skipped, phase := .lagged }
  else none

/-- After a lag the replay is taken from the journal again. -/
def refill (subscription : OperationSubscription) (state : OperationState) :
    Option OperationSubscription :=
  if subscription.phase ≠ .lagged then none
  else
    match validateReplayCursor state (some subscription.cursor) with
    | .ok () =>
      some
        { subscription with
          replay := replayAfter state subscription.cursor
          phase := .polling }
    | .error error => some { subscription with phase := .failed error }

end OperationSubscription

/-! ## Both together -/

structure OperationEntry where
  state : OperationState
  /-- Everything sent on the channel. -/
  sent : List OperationEventEnvelope
  subscription : Option OperationSubscription
deriving DecidableEq

inductive OperationAction where
  /-- `clock` is what `now_millis` answers. -/
  | emit (event : OperationEvent) (clock : Option Int)
  | subscribe (afterSequence : Option Nat)
  | poll
  | receive (skipped : Nat)
  | refill
deriving DecidableEq

namespace OperationEntry

def create (timestamp : Int) : OperationEntry where
  state := .create timestamp
  sent := []
  subscription := none

def emit (entry : OperationEntry) (replayCapacity : Nat) (event : OperationEvent)
    (clock : Option Int) : OperationEntry :=
  if entry.state.status ≠ .running then entry
  else
    let applied := entry.state.applyEvent event
    if !applied.succeeded then { entry with state := applied.state }
    else if applied.state.sequence ≥ u64Max then { entry with state := applied.state }
    else
      let state := { applied.state with sequence := applied.state.sequence + 1 }
      match clock with
      | none => { entry with state }
      | some updatedAtMs =>
        let envelope : OperationEventEnvelope :=
          { sequence := state.sequence, occurredAtMs := updatedAtMs, event }
        { entry with
          state :=
            { state with
              updatedAtMs
              journal :=
                (if state.journal.length = replayCapacity then state.journal.tail
                  else state.journal) ++ [envelope] }
          sent := entry.sent ++ [envelope] }

/-- The journal and the channel are read under one lock. -/
def subscribe (entry : OperationEntry) (afterSequence : Option Nat) : Option OperationEntry :=
  match entry.subscription, validateReplayCursor entry.state afterSequence with
  | none, .ok () =>
    some
      { entry with
        subscription :=
          some
            { replay := replayAfter entry.state (afterSequence.getD 0)
              position := entry.sent.length
              cursor := afterSequence.getD 0
              phase := .polling
              requested := afterSequence
              first := (afterSequence.map (· + 1)).getD (max entry.state.oldest 1)
              returned := [] } }
  | _, _ => none

def step (replayCapacity : Nat) (entry : OperationEntry) : OperationAction → Option OperationEntry
  | .emit event clock => some (entry.emit replayCapacity event clock)
  | .subscribe afterSequence => entry.subscribe afterSequence
  | .poll => do
    let subscription ← (← entry.subscription).poll entry.state
    some { entry with subscription := some subscription }
  | .receive skipped => do
    let subscription ← (← entry.subscription).receive entry.sent skipped
    some { entry with subscription := some subscription }
  | .refill => do
    let subscription ← (← entry.subscription).refill entry.state
    some { entry with subscription := some subscription }

end OperationEntry

/-- The entry after the actions, if every one of them was possible. -/
def entryAfter (replayCapacity : Nat) (timestamp : Int) (actions : List OperationAction) :
    Option OperationEntry :=
  Machine.run (OperationEntry.step replayCapacity) (.create timestamp) actions

end Chat2DB.Operation
