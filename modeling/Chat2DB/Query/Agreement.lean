import Chat2DB.Query.Consume
import Chat2DB.Results.Acceptance
import Chat2DB.Results.Runs
import Chat2DB.Supervisor.StreamRules

/-! # Agreement of the bridge and the store

Both check the events of a query stream. What the bridge lets pass is described
by what a reader knows of the stream; the store takes every such event unless
the schema has no columns or a batch has no rows.
-/

namespace Chat2DB.Query

open Results
open Supervisor (QueryEvent StreamPending)

variable {config : StoreConfig} {codec : Wire.Codec} {view : View} {stream next : StreamPending}
  {ended : Bool}

/-! ## What a reader knows -/

structure View where
  started : Bool
  completed : Bool
  columns : Nat
  rows : Nat
  bytes : Nat
deriving DecidableEq

def View.start : View :=
  { started := false, completed := false, columns := 0, rows := 0, bytes := 0 }

/-- What a valid event tells its reader. -/
inductive View.Next (codec : Wire.Codec) (view : View) : QueryEvent → View → Prop where
  | started {schema : Supervisor.QueryStarted} (fresh : view.started = false)
      (columns : schema.toWire.columns.length ≤ Wire.maxColumns) :
      Next codec view (.started schema)
        { view with started := true, columns := schema.toWire.columns.length }
  | batch {batch : Supervisor.RowBatch} (started : view.started = true)
      (running : view.completed = false)
      (offset : batch.toWire.startRowOffset.toNat = view.rows)
      (rows : batch.toWire.rows.length ≤ Wire.maxBatchRows)
      (bytes : codec.batchLength batch.toWire ≤ Wire.maxBatchBytes)
      (widths : ∀ row ∈ batch.toWire.rows, row.values.length = view.columns)
      (total : view.bytes + (batch.toWire.rows.map codec.rowLength).sum ≤ Wire.maxResultBytes) :
      Next codec view (.batch batch)
        { view with
          rows := view.rows + batch.toWire.rows.length
          bytes := view.bytes + (batch.toWire.rows.map codec.rowLength).sum }
  | completed {completed : Supervisor.QueryCompleted} (started : view.started = true)
      (running : view.completed = false) (rows : completed.toWire.rowCount.toNat = view.rows) :
      Next codec view (.completed completed) { view with completed := true }

/-- The events of a stream, one after another. -/
inductive Reads (codec : Wire.Codec) : View → List QueryEvent → View → Prop where
  | nil {view : View} : Reads codec view [] view
  | cons {view next last : View} {event : QueryEvent} {rest : List QueryEvent}
      (first : view.Next codec event next) (others : Reads codec next rest last) :
      Reads codec view (event :: rest) last

theorem Reads.append {middle last : View} {first second : List QueryEvent}
    (hfirst : Reads codec view first middle) (hsecond : Reads codec middle second last) :
    Reads codec view (first ++ second) last := by
  induction hfirst with
  | nil => exact hsecond
  | cons hnext _ ih => exact .cons hnext (ih hsecond)

theorem Reads.append_singleton {middle last : View} {events : List QueryEvent}
    {event : QueryEvent} (hreads : Reads codec view events middle)
    (hnext : middle.Next codec event last) : Reads codec view (events ++ [event]) last :=
  hreads.append (.cons hnext .nil)

/-! ## The bridge -/

/-- Where a stream is, from the events it has sent. -/
structure Sent (stream : StreamPending) (ended : Bool) (view : View) : Prop where
  started : view.started = stream.started
  columns : view.columns = stream.columnCount
  rows : view.rows = stream.nextRowOffset
  bytes : view.bytes = stream.resultBytes
  completed : view.completed = true → ended = true
  budget : stream.budgets.maxResultBytes ≤ Wire.maxResultBytes

/-- An event that the bridge accepts is valid for its reader. -/
theorem Sent.accept {metadata : Wire.ResponseMeta}
    {payload : Wire.Payload} {event : QueryEvent} (hsent : Sent stream false view)
    (haccept : stream.accept codec metadata payload = .ok (next, .ok event, ended)) :
    ∃ after, view.Next codec event after ∧ Sent next ended after ∧ event.toWire = payload := by
  have hrunning : view.completed = false := by
    cases hcompleted : view.completed with
    | false => rfl
    | true => cases hsent.completed hcompleted
  have htoWire : ∀ {payload event}, StreamPending.convert payload = .ok event →
      event.toWire = payload := by
    intro payload event hconverted
    exact Supervisor.toWire_queryEventFromPayload ((Outcome.mapError_eq_ok ..).mp hconverted)
  obtain ⟨-, -, haccepts⟩ := StreamPending.accept_eq_ok_iff.mp haccept
  cases haccepts with
  | @started started _ hfollows hconverted =>
    have hwire := htoWire hconverted
    cases event with
    | started schema =>
      obtain rfl : schema.toWire = started := by simpa [QueryEvent.toWire] using hwire
      refine ⟨_, .started (hsent.started.trans hfollows.first.1) hfollows.columns, ?_, rfl⟩
      refine ⟨rfl, rfl, hsent.rows, hsent.bytes, fun hcompleted => ?_, hsent.budget⟩
      rw [hrunning] at hcompleted
      cases hcompleted
    | batch _ => cases hwire
    | completed _ => cases hwire
  | @batch batch _ hfollows hconverted =>
    have hwire := htoWire hconverted
    cases event with
    | started _ => cases hwire
    | batch rows =>
      obtain rfl : rows.toWire = batch := by simpa [QueryEvent.toWire] using hwire
      have htotal : view.bytes + (rows.toWire.rows.map codec.rowLength).sum ≤
          Wire.maxResultBytes := by
        rw [hsent.bytes]
        exact Nat.le_trans hfollows.resultBytes hsent.budget
      refine ⟨_, .batch (hsent.started.trans hfollows.started) hrunning
        (hfollows.offset.trans hsent.rows.symm) hfollows.rows hfollows.bytes ?_ htotal, ?_, rfl⟩
      · exact fun row hrow => (hfollows.widths row hrow).trans hsent.columns.symm
      · refine ⟨hsent.started, hsent.columns, ?_, ?_, fun hcompleted => ?_, hsent.budget⟩
        · exact congrArg (· + rows.toWire.rows.length) hsent.rows
        · exact congrArg (· + (rows.toWire.rows.map codec.rowLength).sum) hsent.bytes
        · rw [hrunning] at hcompleted
          cases hcompleted
    | completed _ => cases hwire
  | @completed completed _ hfollows hconverted =>
    have hwire := htoWire hconverted
    cases event with
    | started _ => cases hwire
    | batch _ => cases hwire
    | completed summary =>
      obtain rfl : summary.toWire = completed := by simpa [QueryEvent.toWire] using hwire
      refine ⟨_, .completed (hsent.started.trans hfollows.started) hrunning
        (hfollows.rowCount.trans hsent.rows.symm), ?_, rfl⟩
      exact ⟨hsent.started, hsent.columns, hsent.rows, hsent.bytes, fun _ => rfl, hsent.budget⟩

/-- A response that is refused leaves the view where it was. -/
theorem Sent.accept_error
    {metadata : Wire.ResponseMeta} {payload : Wire.Payload} {failure : Supervisor.PendingFailure}
    (hsent : Sent stream false view)
    (haccept : stream.accept codec metadata payload = .ok (next, .error failure, ended)) :
    Sent next ended view := by
  obtain ⟨-, -, haccepts⟩ := StreamPending.accept_eq_ok_iff.mp haccept
  cases haccepts with
  | failed _ =>
    exact ⟨hsent.started, hsent.columns, hsent.rows, hsent.bytes, fun _ => rfl, hsent.budget⟩

theorem Sent.reserveCredits {free credits : Nat} (hsent : Sent stream ended view)
    (hreserve : stream.reserveCredits free credits = .ok next) : Sent next ended view := by
  simp only [StreamPending.reserveCredits, Outcome.bind_eq_ok, Outcome.rejectIf_eq_ok,
    Outcome.pure_eq_ok, exists_const] at hreserve
  obtain ⟨-, -, -, -, -, -, rfl⟩ := hreserve
  exact ⟨hsent.started, hsent.columns, hsent.rows, hsent.bytes, hsent.completed, hsent.budget⟩

end Chat2DB.Query
