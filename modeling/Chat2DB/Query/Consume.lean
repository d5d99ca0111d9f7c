import Chat2DB.Results.Session
import Chat2DB.Supervisor.Pending

/-! # Keeping a query stream

The events of a query stream go from the bridge through a bounded channel to the
query service, which begins a result with the schema, appends the batches and
finishes the result with the completion. Other operations use the store meanwhile.
-/

namespace Chat2DB.Query

open Outcome (rejectIf)
open Results (ResultId ResultError ResultMetadata ResultStore Session StoreConfig StoreState Operation)
open Supervisor (PendingFailure PendingSink QueryBudgets QueryEvent StreamPending)

/-! ## Registration -/

structure QueryOptions where
  maxRows : Nat
  targetBatchRows : Nat
  targetBatchBytes : Nat
  initialBatchCredits : Nat
  maxResultBytes : Nat
deriving DecidableEq

def QueryOptions.validate (options : QueryOptions) : Except PendingFailure Unit := do
  rejectIf (options.targetBatchRows > Wire.maxBatchRows) (.invalidRequest
    s!"target_batch_rows must be zero or at most {Wire.maxBatchRows}")
  rejectIf (options.targetBatchBytes ≠ 0 ∧
    ¬ (1024 ≤ options.targetBatchBytes ∧ options.targetBatchBytes ≤ Wire.maxBatchBytes))
    (.invalidRequest
      s!"target_batch_bytes must be zero or between 1024 and {Wire.maxBatchBytes}")
  rejectIf (options.initialBatchCredits > Supervisor.maxCreditGrant) (.invalidRequest
    s!"initial query credits cannot exceed {Supervisor.maxCreditGrant}")
  rejectIf (options.maxResultBytes > Wire.maxResultBytes) (.invalidRequest
    s!"max_result_bytes cannot exceed {Wire.maxResultBytes}")

def QueryOptions.budgets (options : QueryOptions) : QueryBudgets :=
  { maxRows := options.maxRows
    targetBatchRows := options.targetBatchRows
    targetBatchBytes := options.targetBatchBytes
    maxResultBytes :=
      if options.maxResultBytes = 0 then Wire.defaultResultBytes else options.maxResultBytes }

/-- The sink with which a query is registered. -/
def QueryOptions.sink (options : QueryOptions) (events eventCapacity : Nat) : PendingSink :=
  .stream events eventCapacity options.initialBatchCredits options.budgets

/-! ## Consuming -/

/-- Why a query failed: the store refused a call, or an event came out of order. -/
inductive ConsumeError where
  | store (error : ResultError)
  | internal
deriving DecidableEq

inductive Consumption where
  | consuming
  | finished (metadata : ResultMetadata)
  | failed (error : ConsumeError)
deriving DecidableEq

/-- A query whose events are being kept. `consumed` has no counterpart in the program. -/
structure StreamRun where
  stream : StreamPending
  /-- The last response has come, and the stream is no longer pending. -/
  ended : Bool
  queue : List QueryEvent
  consumed : List QueryEvent
  consumption : Consumption
  writer : Option ResultId
  kept : StoreState
deriving DecidableEq

/-- The fresh UUID, the time to live and the clock readings of a call on the store. -/
structure Timing where
  id : ResultId
  resultTtlSeconds : Nat
  nowMs : Int
  quotaMs : Int
deriving DecidableEq

/-- `Duration::from_secs`, in nanoseconds -/
def Timing.retention (timing : Timing) : Nat := timing.resultTtlSeconds * 1000000000

inductive StreamAction where
  /-- A response of the engine is routed to the stream and its event sent. -/
  | respond (metadata : Wire.ResponseMeta) (payload : Wire.Payload)
  /-- Credits are granted while the channel has `free` slots. -/
  | grant (free credits : Nat)
  /-- The query service takes the next event. -/
  | consume (timing : Timing)
  /-- Something else is done with the store. -/
  | other (operation : Operation)
deriving DecidableEq

/-- The result of an operation that runs on a writer or begins one. -/
def callResult (config : StoreConfig) (session : Session) (store : ResultStore) :
    Operation → Except ResultError (Option ResultMetadata)
  | .begin id schema retention nowMs quotaMs =>
    (Stepwise.run (Results.beginResult config id schema retention nowMs quotaMs
      session.activeResults) store).1.map fun _ => none
  | .append id batch quotaMs =>
    match session.findWriter id with
    | none => .error (.resultNotFound id)
    | some writer =>
      (Stepwise.run (Results.appendBatch config writer batch quotaMs session.activeResults)
        store).1.map fun _ => none
  | .finish id completed =>
    match session.findWriter id with
    | none => .error (.resultNotFound id)
    | some writer => (Stepwise.run (Results.finish writer completed) store).1.map some
  | _ => .ok none

/-- The call on the store for an event. -/
def callOf (timing : Timing) (id : ResultId) : QueryEvent → Operation
  | .started started => .begin id started.toWire timing.retention timing.nowMs timing.quotaMs
  | .batch batch => .append id batch.toWire timing.quotaMs
  | .completed completed => .finish id completed.toWire

/-- The result that an operation works on. -/
def resultOf : Operation → Option ResultId
  | .begin id _ _ _ _ => some id
  | .append id _ _ => some id
  | .finish id _ => some id
  | .abort id => some id
  | .openStore _ => none
  | .purge _ => none

namespace StreamRun

variable (config : StoreConfig)

/-- The result that the next event is for; an event out of order has none. -/
def target (run : StreamRun) (timing : Timing) : QueryEvent → Option ResultId
  | .started _ => if run.writer = none then some timing.id else none
  | .batch batch =>
    if Supervisor.u64Max < batch.startRowOffset.toNat + batch.rows.length then none else run.writer
  | .completed _ => run.writer

/-- A completion takes the writer. -/
def taken (run : StreamRun) : QueryEvent → Option ResultId
  | .completed _ => none
  | _ => run.writer

/-- What the query service does with an event. -/
def consumeEvent (run : StreamRun) (timing : Timing) (event : QueryEvent) : Option StreamRun :=
  match run.target timing event with
  | none => some { run with consumption := .failed .internal }
  | some id => do
    let call := callOf timing id event
    let kept ← run.kept.step config (.operate call)
    match callResult config run.kept.session run.kept.store call with
    | .ok none => some { run with kept, writer := some id }
    | .ok (some metadata) =>
      some { run with kept, writer := run.taken event, consumption := .finished metadata }
    | .error error =>
      some { run with kept, writer := run.taken event, consumption := .failed (.store error) }

/-- The store may be used for anything but the result that is being written. -/
def Free (run : StreamRun) (operation : Operation) : Prop :=
  run.consumption = .consuming → ∀ id ∈ run.writer, resultOf operation ≠ some id

instance (run : StreamRun) (operation : Operation) : Decidable (run.Free operation) :=
  inferInstanceAs (Decidable (_ → _))

def step (run : StreamRun) : StreamAction → Option StreamRun
  | .respond metadata payload =>
    if run.ended then
      none
    else
      match run.stream.accept config.codec metadata payload with
      | .error _ => none
      | .ok (stream, .ok event, ended) =>
        some { run with stream, ended, queue := run.queue ++ [event] }
      | .ok (stream, .error _, ended) => some { run with stream, ended }
  | .grant free credits =>
    match run.stream.reserveCredits free credits with
    | .error _ => none
    | .ok stream => some { run with stream }
  | .consume timing =>
    match run.consumption, run.queue with
    | .consuming, event :: queue =>
      { run with queue, consumed := run.consumed ++ [event] }.consumeEvent config timing event
    | _, _ => none
  | .other operation =>
    if run.Free operation then
      (run.kept.step config (.operate operation)).map fun kept => { run with kept }
    else
      none

end StreamRun

end Chat2DB.Query
