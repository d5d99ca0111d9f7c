import Chat2DB.Base.Machine
import Chat2DB.Base.Rows
import Chat2DB.Supervisor.StreamPending

/-! # Pending requests of the bridge

The table of the requests that wait for the engine, with the channels of its
query streams. Channels are numbered in the order in which they were made and
stay when their stream is gone, since the consumer may still read them.
-/

namespace Chat2DB.Supervisor

open Outcome (rejectIf orThrow)

inductive ControlEffect where
  | grantCredits (targetRequestId : String) (batchCredits : Nat)
  | cancel (targetRequestId : String)
deriving DecidableEq

def ControlEffect.targetRequestId : ControlEffect → String
  | .grantCredits target _ | .cancel target => target

/-! ## Lifecycle -/

inductive LifecycleExpectation where
  | quiesce (generation epoch nonce : UInt64)
  | resume (generation epoch nonce : UInt64)
deriving DecidableEq

def validateLifecycleAck (operation : String)
    (expectedGeneration expectedEpoch expectedNonce generation epoch nonce : UInt64) :
    Except String Unit := do
  rejectIf (generation ≠ expectedGeneration) (s!"{operation} acknowledgement generation " ++
    s!"{generation} did not match request generation {expectedGeneration}")
  rejectIf (epoch ≠ expectedEpoch)
    s!"{operation} acknowledgement epoch {epoch} did not match request epoch {expectedEpoch}"
  rejectIf (nonce ≠ expectedNonce)
    s!"{operation} acknowledgement nonce did not match the request"

def LifecycleExpectation.validate (expectation : LifecycleExpectation) (payload : Wire.Payload) :
    Except String Unit :=
  match expectation, payload with
  | _, .error _ => .ok ()
  | .quiesce generation epoch nonce, .quiesceAck ackGeneration ackEpoch ackNonce hasSnapshot => do
    validateLifecycleAck "quiesce" generation epoch nonce ackGeneration ackEpoch ackNonce
    rejectIf (hasSnapshot = false) "quiesce acknowledgement did not include a snapshot"
  | .resume generation epoch nonce, .resumeAck ackGeneration ackEpoch ackNonce =>
    validateLifecycleAck "resume" generation epoch nonce ackGeneration ackEpoch ackNonce
  | .quiesce .., _ => .error "quiesce request received an unexpected response payload"
  | .resume .., _ => .error "resume request received an unexpected response payload"

inductive PendingLane where
  | retireable
  | fatalOnUnknown
  | stream
  | control (effect : ControlEffect)
  | lifecycle (expectation : LifecycleExpectation)
deriving DecidableEq

namespace PendingLane

def consumesNormalSlot : PendingLane → Bool
  | .control _ | .lifecycle _ => false
  | _ => true

def unknownOutcomeIsFatal : PendingLane → Bool
  | .fatalOnUnknown | .stream | .control _ => true
  | _ => false

def invalidResponseIsRequestScoped : PendingLane → Bool
  | .lifecycle _ => true
  | _ => false

end PendingLane

/-! ## The table -/

inductive PendingKind where
  | unary
  | stream (stream : StreamPending)
deriving DecidableEq

structure PendingRequest where
  requestId : String
  traceId : String
  sessionId : Option String
  kind : PendingKind
  deadline : Nat
  lane : PendingLane
deriving DecidableEq

namespace PendingRequest

def streamPending (request : PendingRequest) : Option StreamPending :=
  match request.kind with
  | .stream stream => some stream
  | .unary => none

def mapStream (change : StreamPending → StreamPending) (request : PendingRequest) :
    PendingRequest :=
  match request.kind with
  | .stream stream => { request with kind := .stream (change stream) }
  | .unary => request

/-- The number of the channel that the request has. -/
def events (request : PendingRequest) : Option Nat := request.streamPending.bind (·.events)

end PendingRequest

inductive PendingSink where
  | unary
  /-- The channel with this number, of this capacity. -/
  | stream (events eventCapacity initialCredits : Nat) (budgets : QueryBudgets)
deriving DecidableEq

structure RetiredRequests where
  traces : List (String × String)
  order : List String
deriving DecidableEq

structure PendingRequests where
  active : List PendingRequest
  retired : RetiredRequests
  normalCount : Nat
  controlCount : Nat
  cancellingTargets : List String
  channels : List (Channel StreamItem)
  /-- What was sent to the callers of unary requests. -/
  answers : List (String × Except PendingFailure Wire.Payload)

namespace RetiredRequests

/-- The oldest are forgotten. -/
def insert (retired : RetiredRequests) (requestId traceId : String) : RetiredRequests :=
  let traces := retired.traces.filter (·.1 ≠ requestId) ++ [(requestId, traceId)]
  if retired.traces.any (·.1 = requestId) then { retired with traces }
  else
    let order := retired.order ++ [requestId]
    let expired := order.take (order.length - maxRetiredRequests)
    { traces := traces.filter (·.1 ∉ expired), order := order.drop expired.length }

def validate (traceId : String) (metadata : Wire.ResponseMeta) (hasPayload : Bool) :
    Except RouteError Unit := do
  rejectIf (metadata.traceId ≠ traceId)
    (.invalid s!"retired response trace id does not match request {metadata.requestId}")
  rejectIf (metadata.sequence ≠ 0 ∨ ¬ metadata.terminal ∨ ¬ hasPayload)
    (.invalid s!"retired request {metadata.requestId} received an invalid unary response")

/-- A retired request is forgotten by its response, valid or not. -/
def accept (retired : RetiredRequests) (metadata : Wire.ResponseMeta) (hasPayload : Bool) :
    RetiredRequests × Except RouteError Unit :=
  match retired.traces.find? (·.1 = metadata.requestId) with
  | none =>
    (retired, .error (.invalid s!"response references unknown request {metadata.requestId}"))
  | some (_, traceId) =>
    ({ traces := retired.traces.filter (·.1 ≠ metadata.requestId)
       order := retired.order.filter (· ≠ metadata.requestId) },
      validate traceId metadata hasPayload)

end RetiredRequests

namespace PendingRequests

def new : PendingRequests :=
  { active := []
    retired := { traces := [], order := [] }
    normalCount := 0
    controlCount := 0
    cancellingTargets := []
    channels := []
    answers := [] }

def find (table : PendingRequests) (requestId : String) : Option PendingRequest :=
  Rows.find PendingRequest.requestId requestId table.active

/-- Rewrite the stream that waits under an id. -/
def mapStream (table : PendingRequests) (requestId : String)
    (change : StreamPending → StreamPending) : PendingRequests :=
  { table with
    active := Rows.update (fun request => decide (request.requestId = requestId))
      (PendingRequest.mapStream change) table.active }

/-- The slots that the channel of a stream has left. -/
def freeOf (table : PendingRequests) (stream : StreamPending) : Nat :=
  match stream.events.bind (table.channels[·]?) with
  | some channel => channel.free
  | none => 0

def releaseReservedCredits (table : PendingRequests) (targetRequestId : String) (credits : Nat) :
    PendingRequests :=
  table.mapStream targetRequestId (·.releaseReservedCredits credits)

def rollbackControl (table : PendingRequests) : PendingLane → PendingRequests
  | .control (.grantCredits targetRequestId batchCredits) =>
    table.releaseReservedCredits targetRequestId batchCredits
  | .control (.cancel targetRequestId) =>
    { table with cancellingTargets := table.cancellingTargets.filter (· ≠ targetRequestId) }
  | _ => table

/-- One request fewer, or more, of the kind of a lane. -/
def countDown (table : PendingRequests) (lane : PendingLane) : PendingRequests :=
  if lane.consumesNormalSlot then { table with normalCount := table.normalCount - 1 }
  else { table with controlCount := table.controlCount - 1 }

def countUp (table : PendingRequests) (lane : PendingLane) : PendingRequests :=
  if lane.consumesNormalSlot then { table with normalCount := table.normalCount + 1 }
  else { table with controlCount := table.controlCount + 1 }

/-- The other requests than the one under an id. -/
def others (table : PendingRequests) (requestId : String) : List PendingRequest :=
  table.active.filter (·.requestId ≠ requestId)

def remove (table : PendingRequests) (request : PendingRequest) : PendingRequests :=
  { table with active := table.others request.requestId }.countDown request.lane

def restore (table : PendingRequests) (request : PendingRequest) : PendingRequests :=
  { table with active := table.others request.requestId ++ [request] }.countUp request.lane

def answer (table : PendingRequests) (requestId : String)
    (response : Except PendingFailure Wire.Payload) : PendingRequests :=
  { table with answers := table.answers ++ [(requestId, response)] }

/-- `PendingRequest::fail`, for a request that is no longer in the table. -/
def fail (table : PendingRequests) (request : PendingRequest) (failure : PendingFailure) :
    PendingRequests :=
  match request.kind with
  | .unary => table.answer request.requestId (.error failure)
  | .stream stream => { table with channels := stream.emitFailure table.channels failure }

/-! ### Inserting -/

def prepareControl (table : PendingRequests) (effect : ControlEffect)
    (sessionId : Option String) : Except PendingFailure PendingRequests := do
  let target ← orThrow (table.find effect.targetRequestId)
    (.invalidRequest s!"target query stream {effect.targetRequestId} is not active")
  rejectIf (target.sessionId ≠ sessionId) (.invalidRequest
    s!"control request session does not match query stream {effect.targetRequestId}")
  let stream ← orThrow target.streamPending
    (.invalidRequest s!"control target {effect.targetRequestId} is not a query stream")
  match effect with
  | .grantCredits targetRequestId batchCredits => do
    rejectIf stream.abandoned
      (.invalidRequest s!"query stream {targetRequestId} has been abandoned")
    let reserved ← stream.reserveCredits (table.freeOf stream) batchCredits
    pure (table.mapStream targetRequestId fun _ => reserved)
  | .cancel targetRequestId => do
    rejectIf (targetRequestId ∈ table.cancellingTargets) (.invalidRequest
      s!"query stream {targetRequestId} already has a cancellation in flight")
    pure { table with cancellingTargets := table.cancellingTargets ++ [targetRequestId] }

def validateStreamRegistration (sink : PendingSink) (sessionId : Option String) :
    Except PendingFailure Unit :=
  match sink with
  | .unary => .ok ()
  | .stream _ eventCapacity initialCredits _ => do
    let sessionId ← orThrow sessionId (.invalidRequest "query streams require a session id")
    rejectIf (sessionId.utf8ByteSize = 0)
      (.invalidRequest "query stream session id cannot be empty")
    rejectIf (eventCapacity - 2 < initialCredits) (.invalidRequest
      s!"initial query credits {initialCredits} exceed bounded event capacity {eventCapacity - 2}")
    rejectIf (maxCreditGrant < initialCredits)
      (.invalidRequest s!"initial query credits exceed {maxCreditGrant}")

def kindOf : PendingSink → PendingKind
  | .unary => .unary
  | .stream events eventCapacity initialCredits budgets =>
    .stream
      { events := some events
        eventCapacity
        budgets
        abandoned := false
        started := false
        columnCount := 0
        nextSequence := 0
        nextRowOffset := 0
        resultBytes := 0
        outstandingCredits := initialCredits }

/-- The table after the attempt, and why it failed. A control effect that was
prepared stays prepared when the sink is refused. -/
def insert (table : PendingRequests) (requestId traceId : String) (sessionId : Option String)
    (sink : PendingSink) (deadline : Nat) (lane : PendingLane) :
    PendingRequests × Except PendingFailure Unit :=
  let prepared :=
    match lane with
    | .control effect => table.prepareControl effect sessionId
    | _ => .ok table
  match prepared with
  | .error failure => (table, .error failure)
  | .ok table =>
    match validateStreamRegistration sink sessionId with
    | .error failure => (table, .error failure)
    | .ok () =>
      (table.restore { requestId, traceId, sessionId, kind := kindOf sink, deadline, lane },
        .ok ())

/-- A sink that was never in the table fails. -/
def failSink (table : PendingRequests) (requestId : String) (sink : PendingSink)
    (failure : PendingFailure) : PendingRequests :=
  match sink with
  | .unary => table.answer requestId (.error failure)
  | .stream events _ _ _ =>
    match table.channels[events]? with
    | none => table
    | some channel =>
      match channel.trySend (.error failure) with
      | .ok sent => { table with channels := table.channels.set events sent }
      | .error _ => table

/-! ### Leaving -/

def rejectWithFailure (table : PendingRequests) (requestId : String) (failure : PendingFailure) :
    PendingRequests :=
  match table.find requestId with
  | none => table
  | some request => ((table.remove request).rollbackControl request.lane).fail request failure

/-- The table, and what ends the engine. -/
def retire (table : PendingRequests) (requestId : String) : PendingRequests × Option String :=
  match table.find requestId with
  | none => (table, none)
  | some request =>
    let table := (table.remove request).rollbackControl request.lane
    if request.lane.unknownOutcomeIsFatal then
      (table, some
        s!"request {requestId} was abandoned after delivery; engine state is unknown")
    else ({ table with retired := table.retired.insert requestId request.traceId }, none)

def abandonStream (table : PendingRequests) (requestId sessionId : String) : PendingRequests :=
  match table.find requestId with
  | none => table
  | some request =>
    if request.sessionId ≠ some sessionId then table
    else table.mapStream requestId fun stream =>
      { stream with abandoned := true, events := none }

def expireRequest (table : PendingRequests) (requestId : String) :
    PendingRequests × Option String :=
  match table.find requestId with
  | none => (table, none)
  | some request =>
    let table := ((table.remove request).rollbackControl request.lane).fail request
      (.timeout requestId .unknown)
    if request.lane.unknownOutcomeIsFatal then
      (table, some (s!"request {requestId} timed out before a terminal response; " ++
        "generation outcome is unknown"))
    else ({ table with retired := table.retired.insert requestId request.traceId }, none)

/-- The requests that are due, which expire in any order. -/
def expired (table : PendingRequests) (now : Nat) : List String :=
  (table.active.filter (·.deadline ≤ now)).map (·.requestId)

/-- The first fatal timeout ends the engine. -/
def expire (table : PendingRequests) (order : List String) : PendingRequests × Option String :=
  order.foldl
    (fun (table, fatal) requestId =>
      let (table, failed) := table.expireRequest requestId
      (table, fatal.or failed))
    (table, none)

def failAll (table : PendingRequests) (message : String) : PendingRequests :=
  let failed := table.active.foldl
    (fun failed request => failed.fail request (.unavailable message .unknown)) table
  { failed with active := [], normalCount := 0, controlCount := 0, cancellingTargets := [] }

/-! ### Responses -/

def applyLaneResponse (table : PendingRequests) (lane : PendingLane) (payload : Wire.Payload) :
    Except String PendingRequests :=
  match lane with
  | .control (.grantCredits targetRequestId batchCredits) =>
    match payload with
    | .creditsGranted accepted =>
      if batchCredits < accepted.toNat then
        .error
          s!"credit response for {targetRequestId} accepted more credits than requested"
      else
        .ok (table.releaseReservedCredits targetRequestId (batchCredits - accepted.toNat))
    | .error _ => .ok (table.releaseReservedCredits targetRequestId batchCredits)
    | _ => .error s!"credit request for {targetRequestId} used an unexpected response payload"
  | .control (.cancel targetRequestId) =>
    match payload with
    | .operationCancelled | .error _ =>
      .ok { table with
        cancellingTargets := table.cancellingTargets.filter (· ≠ targetRequestId) }
    | _ => .error s!"cancel request for {targetRequestId} used an unexpected response payload"
  | .lifecycle expectation => do
    expectation.validate payload
    pure table
  | .retireable | .fatalOnUnknown | .stream => .ok table

/-- A response to a unary request, which is no longer in the table. -/
def routeUnary (table : PendingRequests) (request : PendingRequest)
    (metadata : Wire.ResponseMeta) (payload : Wire.Payload) : Except RouteError PendingRequests := do
  rejectIf (metadata.sequence ≠ 0) (.invalid
    s!"unary response {metadata.requestId} used non-zero sequence {metadata.sequence}")
  rejectIf (¬ metadata.terminal)
    (.invalid s!"unary response {metadata.requestId} was not terminal")
  match table.applyLaneResponse request.lane payload with
  | .ok table => pure (table.answer request.requestId (.ok payload))
  | .error message =>
    if request.lane.invalidResponseIsRequestScoped then
      pure (table.answer request.requestId (.error (.protocol message)))
    else .error (.invalid message)

/-- A response to a stream, which is no longer in the table and comes back
unless the response was its last. -/
def routeStream (codec : Wire.Codec) (table : PendingRequests) (request : PendingRequest)
    (stream : StreamPending) (metadata : Wire.ResponseMeta) (payload : Wire.Payload) :
    Except RouteError PendingRequests :=
  match stream.route codec table.channels metadata payload with
  | .error violation => .error (.stream metadata.requestId violation)
  | .ok (stream, channels, terminal) =>
    if terminal then .ok { table with channels }
    else .ok ({ table with channels }.restore { request with kind := .stream stream })

def routeRequest (codec : Wire.Codec) (table : PendingRequests) (request : PendingRequest)
    (metadata : Wire.ResponseMeta) (payload : Option Wire.Payload) :
    Except RouteError PendingRequests := do
  rejectIf (metadata.traceId ≠ request.traceId)
    (.invalid s!"response trace id does not match request {metadata.requestId}")
  let payload ← orThrow payload (.invalid s!"response {metadata.requestId} has no payload")
  let _ ← (validateResponsePayload payload).mapError .invalid
  match request.kind with
  | .unary => table.routeUnary request metadata payload
  | .stream stream => table.routeStream codec request stream metadata payload

/-- The table after a response, and why the response was refused. A request whose
response is refused is gone. -/
def routeResponse (codec : Wire.Codec) (table : PendingRequests) (response : Wire.ServerEnvelope) :
    PendingRequests × Except RouteError Unit :=
  match response.responseMeta with
  | none => (table, .error (.invalid "response metadata is missing"))
  | some metadata =>
    if metadata.requestId.utf8ByteSize = 0 then
      (table, .error (.invalid "response request id is empty"))
    else
      match table.find metadata.requestId with
      | none =>
        let (retired, result) := table.retired.accept metadata response.payload.isSome
        ({ table with retired }, result)
      | some request =>
        match (table.remove request).routeRequest codec request metadata response.payload with
        | .ok table => (table, .ok ())
        | .error error => (table.remove request, .error error)

end PendingRequests

/-! ## The table in use -/

/-- A channel has slots for the start and the end of its query. -/
structure EngineConfig where
  streamEventCapacity : Nat
  valid : 2 ≤ streamEventCapacity

inductive PendingAction where
  /-- A request, or a query with its initial credits. -/
  | insert (requestId traceId : String) (sessionId : Option String)
      (query : Option (Nat × QueryBudgets)) (deadline : Nat) (lane : PendingLane)
  /-- The request is withdrawn before it is written. -/
  | reject (requestId : String) (failure : PendingFailure)
  /-- The caller of a unary request is gone. -/
  | retire (requestId : String)
  /-- The consumer drops its stream. -/
  | abandon (requestId sessionId : String)
  | expire (now : Nat) (order : List String)
  | route (response : Wire.ServerEnvelope)
  | failAll (message : String)
  /-- The consumer takes an event. -/
  | receive (number : Nat)
  /-- The receiver of a channel is gone before the table hears of it. -/
  | dropReceiver (number : Nat)

namespace PendingRequests

def setChannel (table : PendingRequests) (number : Nat) (channel : Channel StreamItem) :
    PendingRequests :=
  { table with channels := table.channels.set number channel }

/-- The sink of a request, with a new channel if it is a query. -/
def openSink (config : EngineConfig) (table : PendingRequests) :
    Option (Nat × QueryBudgets) → PendingRequests × PendingSink
  | none => (table, .unary)
  | some (initialCredits, budgets) =>
    ({ table with channels := table.channels ++ [.new config.streamEventCapacity] },
      .stream table.channels.length config.streamEventCapacity initialCredits budgets)

def acceptRequest (config : EngineConfig) (table : PendingRequests) (requestId traceId : String)
    (sessionId : Option String) (query : Option (Nat × QueryBudgets)) (deadline : Nat)
    (lane : PendingLane) : PendingRequests :=
  let (opened, sink) := table.openSink config query
  match opened.insert requestId traceId sessionId sink deadline lane with
  | (table, .ok ()) => table
  | (table, .error failure) => table.failSink requestId sink failure

/-- The receiver of a stream goes with the stream. -/
def closeEvents (table : PendingRequests) (requestId : String) : PendingRequests :=
  match (table.find requestId).bind (·.events) with
  | none => table
  | some number =>
    match table.channels[number]? with
    | none => table
    | some channel => table.setChannel number channel.close

def step (config : EngineConfig) (codec : Wire.Codec) (table : PendingRequests) :
    PendingAction → Option PendingRequests
  | .insert requestId traceId sessionId query deadline lane =>
    if requestId.utf8ByteSize = 0 ∨ (table.find requestId).isSome then none
    else some (table.acceptRequest config requestId traceId sessionId query deadline lane)
  | .reject requestId failure => some (table.rejectWithFailure requestId failure)
  | .retire requestId =>
    -- Only the caller of a unary request holds a guard that retires it.
    if ((table.find requestId).bind (·.streamPending)).isSome then none
    else some (table.retire requestId).1
  | .abandon requestId sessionId =>
    if (table.find requestId).any (·.sessionId = some sessionId) then
      some ((table.closeEvents requestId).abandonStream requestId sessionId)
    else some table
  | .expire now order =>
    if order.Perm (table.expired now) then some (table.expire order).1 else none
  | .route response => some (table.routeResponse codec response).1
  | .failAll message => some (table.failAll message)
  | .receive number => do
    let channel ← table.channels[number]?
    let taken ← channel.recv
    some (table.setChannel number taken)
  | .dropReceiver number => do
    let channel ← table.channels[number]?
    some (table.setChannel number channel.close)

end PendingRequests

/-- The table after the actions, if every one of them was possible. -/
def pendingAfter (config : EngineConfig) (codec : Wire.Codec) (actions : List PendingAction) :
    Option PendingRequests :=
  Machine.run (PendingRequests.step config codec) .new actions

end Chat2DB.Supervisor
