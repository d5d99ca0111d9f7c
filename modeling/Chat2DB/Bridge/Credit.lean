import Chat2DB.Base.Machine
import Mathlib

/-! # Credits of a query stream

The bridge and the engine account for the same credits of one query stream, with
requests and replies in flight between them in two pipes.
-/

namespace Chat2DB.Bridge

def maxCreditGrant : Nat := 8

def maxOutstandingCredits : Nat := 32

/-! ## Messages -/

/-- What the bridge sends to the engine. -/
inductive EngineRequest where
  | executeQuery (credits : Nat)
  | grantCredits (credits : Nat)
  | cancelOperation
deriving DecidableEq

/-- What the engine sends to the bridge. A reply to a grant carries the credits
that were requested, which the bridge keeps under its request id. -/
inductive EngineReply where
  | queryStarted
  | rowBatch
  /-- The terminal event; `unregistered` are the credits of a query that was not registered. -/
  | queryEnded (unregistered : Nat)
  | creditsGranted (requested : Nat)
  | creditsRejected (requested : Nat)
  | operationCancelled
deriving DecidableEq

/-! ## The bridge -/

structure StreamPending where
  started : Bool
  /-- The receiver of the events is gone. -/
  abandoned : Bool
  outstandingCredits : Nat
deriving DecidableEq

namespace StreamPending

/-- Slots of the event channel that are kept for other events than batches. -/
def reservedNonBatch (stream : StreamPending) : Nat := (if stream.started then 0 else 1) + 1

/-- `free` is the capacity that the event channel has left. -/
def reserveCredits (stream : StreamPending) (free credits : Nat) : Option StreamPending :=
  if credits = 0 ∨ maxCreditGrant < credits ∨ stream.abandoned then none
  else if free - stream.reservedNonBatch - stream.outstandingCredits < credits then none
  else if maxOutstandingCredits < stream.outstandingCredits + credits then none
  else some { stream with outstandingCredits := stream.outstandingCredits + credits }

/-- Credits that were not accepted are free again. -/
def releaseReservedCredits (stream : StreamPending) (credits : Nat) : StreamPending :=
  { stream with outstandingCredits := stream.outstandingCredits - credits }

end StreamPending

/-! ## The engine -/

structure QueryOperation where
  credits : Nat
  reservedCredits : Nat
  cancelled : Bool
  sealed : Bool
deriving DecidableEq

namespace QueryOperation

/-- The check that raises `operation.credit_overflow`. -/
def overflows (operation : QueryOperation) (additional : Nat) : Bool :=
  maxOutstandingCredits - additional < operation.credits + operation.reservedCredits

/-- `grantCredits` on the operation that is active. -/
def addCredits (operation : QueryOperation) (additional : Nat) : Option QueryOperation :=
  if additional = 0 ∨ maxCreditGrant < additional ∨ operation.sealed then none
  else if operation.overflows additional then none
  else some { operation with credits := operation.credits + additional }

def reserveCredit (operation : QueryOperation) : Option QueryOperation :=
  if operation.credits = 0 then none
  else
    some { operation with
      credits := operation.credits - 1, reservedCredits := operation.reservedCredits + 1 }

def returnCredit (operation : QueryOperation) : Option QueryOperation :=
  if operation.reservedCredits = 0 then none
  else
    some { operation with
      reservedCredits := operation.reservedCredits - 1, credits := operation.credits + 1 }

def consumeReservedCredit (operation : QueryOperation) : Option QueryOperation :=
  if operation.reservedCredits = 0 then none
  else some { operation with reservedCredits := operation.reservedCredits - 1 }

end QueryOperation

/-- Where the query worker is. -/
inductive QueryWorker where
  | unregistered
  /-- Before the query started. -/
  | starting
  /-- At `awaitCredit`. -/
  | awaiting
  /-- A credit is reserved and a batch is built. -/
  | reading
  /-- The batch is handed to the writer; its credit is not consumed yet. -/
  | writing
  /-- The rows are done, or failed; `broken` if the writer failed. -/
  | stopping (broken : Bool)
  | sealed (broken : Bool)
  | done
deriving DecidableEq

/-! ## Both together -/

structure BridgeState where
  eventCapacity : Nat
  stream : Option StreamPending
  /-- Events that the consumer of the stream has not taken. -/
  queued : Nat
  requests : List EngineRequest
  replies : List EngineReply
  operation : Option QueryOperation
  worker : QueryWorker
  /-- A batch was written and its credit was not consumed. -/
  unconsumed : Bool
deriving DecidableEq

inductive BridgeAction where
  /-- `delivered` unless the request is given up before the writer takes it. -/
  | grantCredits (credits : Nat) (delivered : Bool)
  | cancel
  | abandon
  | takeEvent
  | route
  /-- The engine dispatches a request; `accepted` if it would register a query. -/
  | dispatch (accepted : Bool)
  | start (succeeds : Bool)
  /-- `expired` if the deadline passes first. -/
  | awaitCredit (expired : Bool)
  /-- No row is left, or reading failed. -/
  | returnCredit
  | writeBatch
  | consumeCredit (exhausted : Bool)
  /-- The worker is interrupted while the writer has its batch. -/
  | interrupt
  | seal
  | finish
deriving DecidableEq

namespace BridgeState

/-- `validate_stream_registration`, and the request on its way. -/
def register (eventCapacity initialCredits : Nat) : Option BridgeState :=
  if initialCredits ≤ eventCapacity - 2 ∧ initialCredits ≤ maxCreditGrant then
    some
      { eventCapacity
        stream := some { started := false, abandoned := false, outstandingCredits := initialCredits }
        queued := 0
        requests := [.executeQuery initialCredits]
        replies := []
        operation := none
        worker := .unregistered
        unconsumed := false }
  else none

def grantCredits (state : BridgeState) (credits : Nat) (delivered : Bool) : Option BridgeState := do
  let stream ← state.stream
  let reserved ← stream.reserveCredits (state.eventCapacity - state.queued) credits
  if delivered then
    some { state with
      stream := some reserved, requests := state.requests ++ [.grantCredits credits] }
  else some { state with stream := some (reserved.releaseReservedCredits credits) }

/-- One event for the consumer, unless the stream is abandoned. -/
def emit (state : BridgeState) (stream : StreamPending) : Option BridgeState :=
  if stream.abandoned then some { state with stream := some stream }
  else if state.queued < state.eventCapacity then
    some { state with stream := some stream, queued := state.queued + 1 }
  else none

def routeStream (state : BridgeState) (stream : StreamPending) : EngineReply → Option BridgeState
  | .queryStarted =>
    if stream.started then none else state.emit { stream with started := true }
  | .rowBatch =>
    if !stream.started || stream.outstandingCredits = 0 then none
    else state.emit { stream with outstandingCredits := stream.outstandingCredits - 1 }
  | .queryEnded _ => some { state with stream := none }
  | .creditsGranted _ | .operationCancelled => some state
  | .creditsRejected requested =>
    some { state with stream := some (stream.releaseReservedCredits requested) }

def route (state : BridgeState) : Option BridgeState :=
  match state.replies with
  | [] => none
  | reply :: rest =>
    match state.stream with
    | none => some { state with replies := rest }
    | some stream => { state with replies := rest }.routeStream stream reply

/-- The engine handles the next request. -/
def dispatch (state : BridgeState) (accepted : Bool) : Option BridgeState :=
  match state.requests with
  | [] => none
  | .executeQuery credits :: rest =>
    if accepted then
      some { state with
        requests := rest
        operation :=
          some { credits, reservedCredits := 0, cancelled := false, sealed := false }
        worker := .starting }
    else
      some { state with
        requests := rest, replies := state.replies ++ [.queryEnded credits], worker := .done }
  | .grantCredits credits :: rest =>
    match state.operation.bind (·.addCredits credits) with
    | some granted =>
      some { state with
        requests := rest
        operation := some granted
        replies := state.replies ++ [.creditsGranted credits] }
    | none =>
      some { state with
        requests := rest, replies := state.replies ++ [.creditsRejected credits] }
  | .cancelOperation :: rest =>
    some { state with
      requests := rest
      operation := state.operation.map fun operation =>
        if operation.sealed then operation else { operation with cancelled := true }
      replies := state.replies ++ [.operationCancelled] }

/-- A step of the query worker, with its operation. -/
def work (state : BridgeState) (operation : QueryOperation) : BridgeAction → Option BridgeState
  | .start succeeds =>
    if state.worker ≠ .starting then none
    else if succeeds then
      some { state with replies := state.replies ++ [.queryStarted], worker := .awaiting }
    else some { state with worker := .stopping false }
  | .awaitCredit expired =>
    if state.worker ≠ .awaiting then none
    else if expired || operation.cancelled then some { state with worker := .stopping false }
    else do
      let reserved ← operation.reserveCredit
      some { state with operation := some reserved, worker := .reading }
  | .returnCredit =>
    if state.worker ≠ .reading then none
    else do
      let returned ← operation.returnCredit
      some { state with operation := some returned, worker := .stopping false }
  | .writeBatch =>
    if state.worker ≠ .reading ∨ operation.cancelled then none
    else
      some { state with
        replies := state.replies ++ [.rowBatch], worker := .writing, unconsumed := true }
  | .consumeCredit exhausted =>
    if state.worker ≠ .writing then none
    else do
      let consumed ← operation.consumeReservedCredit
      some { state with
        operation := some consumed
        worker := if exhausted then .stopping false else .awaiting
        unconsumed := false }
  | .interrupt =>
    if state.worker ≠ .writing then none
    else do
      let returned ← operation.returnCredit
      some { state with operation := some returned, worker := .stopping true }
  | .seal =>
    match state.worker with
    | .stopping broken =>
      some { state with
        operation := some { operation with sealed := true }, worker := .sealed broken }
    | _ => none
  | .finish =>
    match state.worker with
    | .sealed broken =>
      some { state with
        replies := if broken then state.replies else state.replies ++ [.queryEnded 0]
        worker := .done }
    | _ => none
  | _ => none

def step (state : BridgeState) : BridgeAction → Option BridgeState
  | .grantCredits credits delivered => state.grantCredits credits delivered
  | .cancel => some { state with requests := state.requests ++ [.cancelOperation] }
  | .abandon =>
    some { state with
      stream := state.stream.map fun stream => { stream with abandoned := true } }
  | .takeEvent => if state.queued = 0 then none else some { state with queued := state.queued - 1 }
  | .route => state.route
  | .dispatch accepted => state.dispatch accepted
  | action => do state.work (← state.operation) action

end BridgeState

/-- The state after the actions, if every one of them was possible. -/
def bridgeAfter (eventCapacity initialCredits : Nat) (actions : List BridgeAction) :
    Option BridgeState := do
  let start ← BridgeState.register eventCapacity initialCredits
  Machine.run BridgeState.step start actions

end Chat2DB.Bridge
