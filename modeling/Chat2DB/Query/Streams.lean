import Chat2DB.Query.Keeping
import Chat2DB.Results.RoundTrip

/-! # Every stream that the bridge accepts

The store takes the calls for a stream if and only if its schema has a column and
none of its batches is empty.
-/

namespace Chat2DB.Query

open Results
open Supervisor (QueryEvent StreamPending)

variable {config : StoreConfig} {run next : StreamRun} {event : QueryEvent}

/-- There is something to store in an event. -/
def Storable : QueryEvent → Prop
  | .started schema => schema.toWire.columns ≠ []
  | .batch batch => batch.toWire.rows ≠ []
  | .completed _ => True

instance : DecidablePred Storable
  | .started schema => inferInstanceAs (Decidable (schema.toWire.columns ≠ []))
  | .batch batch => inferInstanceAs (Decidable (batch.toWire.rows ≠ []))
  | .completed _ => inferInstanceAs (Decidable True)

def LawfulPayload (codec : Wire.Codec) : Wire.Payload → Prop
  | .queryStarted schema => LawfulSchema codec schema
  | .rowBatch batch => LawfulBatch codec batch
  | _ => True

/-- What is relied on of the encoding, and of the clock and the request. -/
def StreamAction.Lawful (codec : Wire.Codec) : StreamAction → Prop
  | .respond _ payload => LawfulPayload codec payload
  | .grant _ _ => True
  | .consume timing => timing.Valid
  | .other operation => operation.Lawful codec

/-- Where the query service is. -/
def Writes (run : StreamRun) (here : View) : Prop :=
  match run.consumption with
  | .consuming => (∀ event ∈ run.consumed, Storable event) ∧
      match run.writer with
      | none => here = View.start
      | some id => here.started = true ∧ here.completed = false ∧
          ∃ writer, run.kept.session.findWriter id = some writer ∧ InStep writer here
  | .finished metadata => (∀ event ∈ run.consumed, Storable event) ∧
      ∃ completed, QueryEvent.completed completed ∈ run.consumed ∧
        metadata.rowCount = completed.toWire.rowCount.toNat
  | .failed error => ∃ refused, error = .store refused ∧
      ((∀ event ∈ run.consumed, Storable event) → refused.IsQuota)

/-- The stream, the queue and the writer in step. -/
structure Tracks (config : StoreConfig) (run : StreamRun) : Prop where
  consistent : Consistent config run.kept
  opened : run.kept.session.opened = true
  lawful : ∀ event ∈ run.queue, LawfulPayload config.codec event.toWire
  reads : ∃ here there, Reads config.codec here run.queue there ∧
    Sent run.stream run.ended there ∧ Writes run here

/-! ## The bridge -/

/-- A response moves the stream and leaves what was consumed. -/
theorem Tracks.respond {metadata : Wire.ResponseMeta} {payload : Wire.Payload}
    (htracks : Tracks config run) (hlawful : LawfulPayload config.codec payload)
    (hstep : run.step config (.respond metadata payload) = some next) : Tracks config next := by
  obtain ⟨here, there, hreads, hsent, hwrites⟩ := htracks.reads
  simp only [StreamRun.step] at hstep
  split at hstep
  · cases hstep
  · rename_i hended
    rw [Bool.not_eq_true] at hended
    rw [hended] at hsent
    split at hstep
    · cases hstep
    · rename_i stream event ended haccept
      cases hstep
      obtain ⟨after, hnext, hafter, rfl⟩ := hsent.accept haccept
      refine ⟨htracks.consistent, htracks.opened, ?_, here, after, hreads.append_singleton hnext,
        hafter, hwrites⟩
      intro other hother
      rcases List.mem_append.mp hother with hother | hother
      · exact htracks.lawful other hother
      · rw [List.mem_singleton.mp hother]
        exact hlawful
    · rename_i stream failure ended haccept
      cases hstep
      exact ⟨htracks.consistent, htracks.opened, htracks.lawful, here, there, hreads,
        hsent.accept_error haccept, hwrites⟩

theorem Tracks.grant {free credits : Nat} (htracks : Tracks config run)
    (hstep : run.step config (.grant free credits) = some next) : Tracks config next := by
  obtain ⟨here, there, hreads, hsent, hwrites⟩ := htracks.reads
  simp only [StreamRun.step] at hstep
  split at hstep
  · cases hstep
  · rename_i stream hreserve
    cases hstep
    exact ⟨htracks.consistent, htracks.opened, htracks.lawful, here, there, hreads,
      hsent.reserveCredits hreserve, hwrites⟩

/-! ## The store -/

theorem operate_lawful {codec : Wire.Codec} {operation : Operation}
    (hlawful : operation.Lawful codec) : (StoreAction.operate operation).Lawful codec := by
  rintro _ ⟨⟩
  exact hlawful

/-- Operations on other results do not disturb the consumption. -/
theorem Tracks.other {operation : Operation} (htracks : Tracks config run)
    (hlawful : operation.Lawful config.codec)
    (hstep : run.step config (.other operation) = some next) : Tracks config next := by
  obtain ⟨here, there, hreads, hsent, hwrites⟩ := htracks.reads
  simp only [StreamRun.step] at hstep
  split at hstep
  · rename_i hfree
    obtain ⟨kept, hkept, rfl⟩ := Option.map_eq_some_iff.mp hstep
    have hconsistent := (htracks.consistent.step (operate_lawful hlawful) hkept).consistent
    have hbecomes := becomes_of_step htracks.opened hkept
    have hopened := hbecomes.opened htracks.opened
    refine ⟨hconsistent, hopened, htracks.lawful, here, there, hreads, hsent, ?_⟩
    unfold Writes at hwrites ⊢
    cases hconsumption : run.consumption with
    | finished | failed =>
      rw [hconsumption] at hwrites
      exact hwrites
    | consuming =>
      rw [hconsumption] at hwrites
      refine ⟨hwrites.1, ?_⟩
      cases hwriter : run.writer with
      | none =>
        have hstart := hwrites.2
        rw [hwriter] at hstart
        exact hstart
      | some id =>
        have hinside := hwrites.2
        rw [hwriter] at hinside
        obtain ⟨hstarted, hrunning, writer, hfound, hinStep⟩ := hinside
        obtain ⟨hmember, rfl⟩ := findWriter_mem hfound
        have hstill := hbecomes.mem_writers hmember (hfree hconsumption writer.id hwriter)
        exact ⟨hstarted, hrunning, writer,
          (hconsistent.settled hopened).writers.find_of_mem hstill, hinStep⟩
  · cases hstep

/-! ## Events -/

theorem storable_append {consumed : List QueryEvent}
    (hconsumed : ∀ other ∈ consumed, Storable other) (hevent : Storable event) :
    ∀ other ∈ consumed ++ [event], Storable other := by
  intro other hother
  rcases List.mem_append.mp hother with hother | hother
  · exact hconsumed other hother
  · rw [List.mem_singleton.mp hother]
    exact hevent

/-- The run before the event is used. -/
def StreamRun.take (run : StreamRun) (event : QueryEvent) (queue : List QueryEvent) : StreamRun :=
  { run with queue, consumed := run.consumed ++ [event] }

/-- A refusal for want of anything to store is one of an event that is not storable. -/
theorem writes_of_refused {here : View} {error : ResultError}
    (hnext : next.consumption = .failed (.store error)) (hevent : event ∈ next.consumed)
    (hquota : Storable event → error.IsQuota) : Writes next here := by
  unfold Writes
  rw [hnext]
  exact ⟨error, rfl, fun hstorable => hquota (hstorable event hevent)⟩

/-- One event, from where the reader is to where it is next. -/
theorem Tracks.consumeEvent {timing : Timing} {queue : List QueryEvent}
    {here there : View} (htracks : Tracks config run) (hconsuming : run.consumption = .consuming)
    (hlaw : LawfulPayload config.codec event.toWire) (hvalid : timing.Valid)
    (hwrites : Writes run here) (hnext : here.Next config.codec event there)
    (hstep : (run.take event queue).consumeEvent config timing event = some next) :
    Consistent config next.kept ∧ next.kept.session.opened = true ∧ next.queue = queue ∧
      next.stream = run.stream ∧ next.ended = run.ended ∧ Writes next there := by
  unfold Writes at hwrites
  rw [hconsuming] at hwrites
  obtain ⟨hstorable, hwriter⟩ := hwrites
  have hstored : event ∈ run.consumed ++ [event] :=
    List.mem_append_right _ List.mem_cons_self
  have hkept : ∀ {id kept}, (callOf timing id event).Lawful config.codec →
      run.kept.step config (.operate (callOf timing id event)) = some kept →
      Consistent config kept ∧ kept.session.opened = true := by
    intro id kept hlawful hkept
    exact ⟨(htracks.consistent.step (operate_lawful hlawful) hkept).consistent,
      (becomes_of_step htracks.opened hkept).opened htracks.opened⟩
  have hinside : here.started = true → ∃ id, run.writer = some id ∧
      ∃ writer, run.kept.session.findWriter id = some writer ∧ InStep writer here := by
    intro hstarted
    cases hsome : run.writer with
    | none =>
      rw [hsome] at hwriter
      obtain rfl : here = View.start := hwriter
      cases hstarted
    | some id =>
      rw [hsome] at hwriter
      exact ⟨id, rfl, hwriter.2.2⟩
  -- one arm of the loop for each kind of event
  cases hnext with
  | @started schema hfresh hcolumns =>
    have hnone : run.writer = none := by
      cases hsome : run.writer with
      | none => rfl
      | some id =>
        rw [hsome] at hwriter
        rw [hwriter.1] at hfresh
        cases hfresh
    rw [hnone] at hwriter
    obtain rfl : here = View.start := hwriter
    simp only [StreamRun.consumeEvent, StreamRun.target, StreamRun.take, hnone, if_true] at hstep
    obtain ⟨kept, hcall, hstep⟩ := Option.bind_eq_some_iff.mp hstep
    obtain ⟨hconsistent, hopened⟩ := hkept (show Operation.Lawful _ _ from hlaw.decode) hcall
    rcases begin_ends htracks.consistent htracks.opened hlaw hcolumns hvalid hcall with
      ⟨_, hresult, hnonempty, rfl, hfound⟩ | ⟨error, hresult, hquota⟩
    · rw [show callResult config run.kept.session run.kept.store
        (callOf timing timing.id (.started schema)) = .ok none from hresult] at hstep
      cases hstep
      refine ⟨hconsistent, hopened, rfl, rfl, rfl, ?_⟩
      unfold Writes
      rw [show run.consumption = .consuming from hconsuming]
      refine ⟨storable_append hstorable hnonempty, rfl, rfl, _, hfound, ?_⟩
      refine ⟨rfl, ⟨rfl, List.length_pos_iff.mpr hnonempty⟩, rfl, Nat.le_refl _, Nat.zero_le _, ?_⟩
      have hlength : (frameOf (config.codec.encodeSchema schema.toWire)).length =
          4 + config.codec.schemaLength schema.toWire := length_frameOf ..
      have hframe := hlaw.frame
      change (frameOf (config.codec.encodeSchema schema.toWire)).length ≤
        4 + Wire.maxFrameBytes + 0 * (4 + Wire.maxBatchBytes)
      omega
    · rw [show callResult config run.kept.session run.kept.store
        (callOf timing timing.id (.started schema)) = .error error from hresult] at hstep
      cases hstep
      exact ⟨hconsistent, hopened, rfl, rfl, rfl, writes_of_refused rfl hstored hquota⟩
  | @batch batch hstarted hrunning hoffset hrows hbytes hwidths htotal =>
    obtain ⟨id, hsome, writer, hfound, hinStep⟩ := hinside hstarted
    -- the offset cannot overflow: a result is far shorter than 2^64 rows
    have hsmall : batch.startRowOffset.toNat + batch.rows.length ≤ Supervisor.u64Max := by
      have hoffset' : batch.startRowOffset.toNat = here.rows := hoffset
      have hlength : batch.toWire.rows.length = batch.rows.length := List.length_map ..
      have hlimits : Wire.maxResultBytes + Wire.maxBatchRows ≤ Supervisor.u64Max := by decide
      have hshort := hinStep.short
      have hbounded := hinStep.bounded
      omega
    simp only [StreamRun.consumeEvent, StreamRun.target, StreamRun.take, hsome,
      if_neg (Nat.not_lt.mpr hsmall)] at hstep
    obtain ⟨kept, hcall, hstep⟩ := Option.bind_eq_some_iff.mp hstep
    obtain ⟨hconsistent, hopened⟩ :=
      hkept (show Operation.Lawful _ _ from ⟨hlaw.decode, hlaw.rows⟩) hcall
    rcases append_ends htracks.consistent htracks.opened hconsistent hlaw hfound hinStep hoffset
        hrows hbytes hwidths htotal hcall with
      ⟨_, hresult, hnonempty, rfl, after, hafter, hinStepAfter⟩ | ⟨error, hresult, hquota⟩
    · rw [show callResult config run.kept.session run.kept.store
        (callOf timing id (.batch batch)) = .ok none from hresult] at hstep
      cases hstep
      refine ⟨hconsistent, hopened, rfl, rfl, rfl, ?_⟩
      unfold Writes
      rw [show run.consumption = .consuming from hconsuming]
      exact ⟨storable_append hstorable hnonempty, hstarted, hrunning, after, hafter,
        hinStepAfter⟩
    · rw [show callResult config run.kept.session run.kept.store
        (callOf timing id (.batch batch)) = .error error from hresult] at hstep
      cases hstep
      exact ⟨hconsistent, hopened, rfl, rfl, rfl, writes_of_refused rfl hstored hquota⟩
  | @completed completed hstarted hrunning hrows =>
    obtain ⟨id, hsome, writer, hfound, hinStep⟩ := hinside hstarted
    simp only [StreamRun.consumeEvent, StreamRun.target, StreamRun.take, hsome] at hstep
    obtain ⟨kept, hcall, hstep⟩ := Option.bind_eq_some_iff.mp hstep
    obtain ⟨hconsistent, hopened⟩ := hkept (show Operation.Lawful _ _ from trivial) hcall
    rcases finish_ends htracks.consistent htracks.opened hfound hinStep hrows with
      ⟨_, hresult, -, metadata, rfl, hcount⟩ | ⟨error, hresult, hquota⟩
    · rw [show callResult config run.kept.session run.kept.store
        (callOf timing id (.completed completed)) = .ok (some metadata) from hresult] at hstep
      cases hstep
      refine ⟨hconsistent, hopened, rfl, rfl, rfl, ?_⟩
      exact ⟨storable_append hstorable trivial, completed, hstored, hcount⟩
    · rw [show callResult config run.kept.session run.kept.store
        (callOf timing id (.completed completed)) = .error error from hresult] at hstep
      cases hstep
      exact ⟨hconsistent, hopened, rfl, rfl, rfl, writes_of_refused rfl hstored hquota⟩

/-! ## Runs -/

/-- Consuming the next event keeps the stored result in step with the stream. -/
theorem Tracks.consume {timing : Timing} (htracks : Tracks config run) (hvalid : timing.Valid)
    (hstep : run.step config (.consume timing) = some next) : Tracks config next := by
  obtain ⟨here, there, hreads, hsent, hwrites⟩ := htracks.reads
  have hlawful := htracks.lawful
  simp only [StreamRun.step] at hstep
  split at hstep
  · rename_i event queue hconsuming hqueue
    rw [hqueue] at hreads hlawful
    cases hreads with
    | cons hnext hothers =>
      obtain ⟨hconsistent, hopened, hrest, hstream, hended, hwrites⟩ :=
        htracks.consumeEvent hconsuming (hlawful event List.mem_cons_self) hvalid hwrites hnext
          hstep
      refine ⟨hconsistent, hopened, ?_, _, there, ?_, ?_, hwrites⟩
      · rw [hrest]
        exact fun other hother => hlawful other (List.mem_cons_of_mem _ hother)
      · rw [hrest]
        exact hothers
      · rw [hstream, hended]
        exact hsent
  · cases hstep

theorem Tracks.step {action : StreamAction} (htracks : Tracks config run)
    (hlawful : action.Lawful config.codec) (hstep : run.step config action = some next) :
    Tracks config next := by
  cases action with
  | respond metadata payload => exact htracks.respond hlawful hstep
  | grant free credits => exact htracks.grant hstep
  | consume timing => exact htracks.consume hlawful hstep
  | other operation => exact htracks.other hlawful hstep

/-- A query that was just registered, with the store that it will use. -/
def StreamRun.registered (stream : StreamPending) (kept : StoreState) : StreamRun :=
  { stream, ended := false, queue := [], consumed := [], consumption := .consuming, writer := none,
    kept }

theorem tracks_registered {options : QueryOptions} {events eventCapacity : Nat}
    {stream : StreamPending} {kept : StoreState} (hvalid : options.validate = .ok ())
    (hsink : Supervisor.PendingRequests.kindOf (options.sink events eventCapacity) = .stream stream)
    (hkept : Consistent config kept) (hopened : kept.session.opened = true) :
    Tracks config (StreamRun.registered stream kept) := by
  obtain rfl := Supervisor.PendingKind.stream.inj hsink
  refine ⟨hkept, hopened, fun _ hevent => absurd hevent List.not_mem_nil, View.start, View.start,
    .nil, ⟨rfl, rfl, rfl, rfl, fun hcompleted => ?_, ?_⟩, ?_⟩
  · cases hcompleted
  · simp only [QueryOptions.validate, Outcome.bind_eq_ok, Outcome.rejectIf_eq_ok, exists_const]
      at hvalid
    have hlimit := hvalid.2.2.2
    have hdefault : Wire.defaultResultBytes ≤ Wire.maxResultBytes := by decide
    change (if options.maxResultBytes = 0 then Wire.defaultResultBytes
      else options.maxResultBytes) ≤ Wire.maxResultBytes
    split
    · exact hdefault
    · exact Nat.not_lt.mp hlimit
  · exact ⟨fun _ hevent => absurd hevent List.not_mem_nil, rfl⟩

/-- No call on the store failed, and a finished result has the announced row count. -/
def Keeps (run : StreamRun) : Prop :=
  (∀ error, run.consumption ≠ .failed error) ∧
    ∀ metadata, run.consumption = .finished metadata →
      ∃ completed, QueryEvent.completed completed ∈ run.consumed ∧
        metadata.rowCount = completed.toWire.rowCount.toNat

/-- Without a refusal for the quota, a run keeps its promise exactly if every event can be stored.
-/
theorem Tracks.keeps_iff (htracks : Tracks config run)
    (hquota : ∀ error, run.consumption = .failed (.store error) → ¬ error.IsQuota) :
    Keeps run ↔ ∀ event ∈ run.consumed, Storable event := by
  obtain ⟨_, _, -, -, hwrites⟩ := htracks.reads
  unfold Writes at hwrites
  unfold Keeps
  cases hconsumption : run.consumption with
  | consuming =>
    rw [hconsumption] at hwrites
    simpa using hwrites.1
  | finished metadata =>
    rw [hconsumption] at hwrites
    refine ⟨fun _ => hwrites.1, fun _ => ⟨?_, ?_⟩⟩
    · exact fun _ hfailed => by cases hfailed
    · rintro _ ⟨⟩
      exact hwrites.2
  | failed error =>
    rw [hconsumption] at hwrites
    obtain ⟨refused, rfl, hrefused⟩ := hwrites
    constructor
    · exact fun hkeeps => absurd rfl (hkeeps.1 _)
    · exact fun hstorable => absurd (hrefused hstorable) (hquota refused hconsumption)

/-- In every run, with anything else done to the store meanwhile, the store keeps the events of a
stream that the bridge accepts exactly as long as the schema has a column and no batch is empty. -/
theorem accepted_stream_kept_iff {options : QueryOptions} {events eventCapacity : Nat}
    {stream : StreamPending} {before : List StoreAction} {kept : StoreState}
    {actions : List StreamAction} {run : StreamRun} (hvalid : options.validate = .ok ())
    (hsink : Supervisor.PendingRequests.kindOf (options.sink events eventCapacity) = .stream stream)
    (hbefore : StoreState.afterActions config before = some kept)
    (hbeforeLawful : ∀ action ∈ before, action.Lawful config.codec)
    (hopened : kept.session.opened = true)
    (hrun : Machine.run (StreamRun.step config) (StreamRun.registered stream kept) actions =
      some run)
    (hlawful : ∀ action ∈ actions, action.Lawful config.codec)
    (hquota : ∀ error, run.consumption = .failed (.store error) → ¬ error.IsQuota) :
    Keeps run ↔ ∀ event ∈ run.consumed, Storable event := by
  have hstart : Tracks config (StreamRun.registered stream kept) :=
    tracks_registered hvalid hsink (afterActions_consistent hbefore hbeforeLawful).1 hopened
  suffices htracks : Tracks config run from htracks.keeps_iff hquota
  refine Machine.run_induction (motive := fun actions run =>
    (∀ action ∈ actions, action.Lawful config.codec) → Tracks config run) ?_ ?_ hrun hlawful
  · exact fun _ => hstart
  · intro actions action first last _ hstep ih hlawful
    exact (ih fun other hother => hlawful other (List.mem_append_left _ hother)).step
      (hlawful action (List.mem_append_right _ List.mem_cons_self)) hstep

/-! ### A small stream -/

def smallOptions : QueryOptions :=
  { maxRows := 0, targetBatchRows := 0, targetBatchBytes := 0, initialBatchCredits := 8,
    maxResultBytes := 0 }

def smallTiming : Timing := { id := 1, resultTtlSeconds := 60, nowMs := 10, quotaMs := 10 }

def smallMeta (sequence : UInt64) (terminal : Bool) : Wire.ResponseMeta :=
  { requestId := "q", traceId := "t", sequence, terminal }

def smallStreamActions : List StreamAction :=
  [.respond (smallMeta 0 false) (.queryStarted smallSchema), .consume smallTiming,
    .respond (smallMeta 1 false) (.rowBatch smallBatch),
    .respond (smallMeta 2 true) (.queryCompleted smallCompletion), .consume smallTiming,
    .consume smallTiming]

theorem smallSchema_lawful : LawfulSchema smallCodec smallSchema :=
  ⟨by decide, by decide, by decide⟩

theorem smallBatch_lawful : LawfulBatch smallCodec smallBatch :=
  ⟨by decide, by decide, by decide, by decide⟩

theorem smallTiming_valid : smallTiming.Valid := ⟨by decide, by decide⟩

theorem accepted_stream_kept_iff_small : ∃ stream kept run,
    Supervisor.PendingRequests.kindOf (smallOptions.sink 0 32) = .stream stream ∧
      StoreState.afterActions smallConfig [.operate (.openStore 0)] = some kept ∧
      Machine.run (StreamRun.step smallConfig) (StreamRun.registered stream kept)
        smallStreamActions = some run ∧ run.consumed.length = 3 ∧ Keeps run := by
  obtain ⟨stream, kept, run, metadata, hsink, hkept, hopened, hrun, hlength, hmetadata, hall⟩ :
      ∃ stream kept run metadata,
        Supervisor.PendingRequests.kindOf (smallOptions.sink 0 32) = .stream stream ∧
        StoreState.afterActions smallConfig [.operate (.openStore 0)] = some kept ∧
        kept.session.opened = true ∧
        Machine.run (StreamRun.step smallConfig) (StreamRun.registered stream kept)
          smallStreamActions = some run ∧
        run.consumed.length = 3 ∧ run.consumption = .finished metadata ∧
        (run.consumed.all fun event => decide (Storable event)) = true :=
    ⟨_, _, _, _, rfl, rfl, rfl, rfl, rfl, rfl, rfl⟩
  refine ⟨stream, kept, run, hsink, hkept, hrun, hlength, ?_⟩
  refine (accepted_stream_kept_iff rfl hsink hkept (by decide) hopened hrun ?_ ?_).mpr
    (by simpa using hall)
  · intro action haction
    simp only [smallStreamActions, List.mem_cons, List.not_mem_nil, or_false] at haction
    rcases haction with rfl | rfl | rfl | rfl | rfl | rfl
    · exact smallSchema_lawful
    · exact smallTiming_valid
    · exact smallBatch_lawful
    · trivial
    · exact smallTiming_valid
    · exact smallTiming_valid
  · intro error hfailed
    rw [hmetadata] at hfailed
    cases hfailed

/-- An empty batch is valid for the bridge. -/
def emptyBatchActions : List StreamAction :=
  [.respond (smallMeta 0 false) (.queryStarted smallSchema), .consume smallTiming,
    .respond (smallMeta 1 false) (.rowBatch { startRowOffset := 0, rows := [] }),
    .consume smallTiming]

theorem empty_batch_refused : ∃ stream kept run,
    Supervisor.PendingRequests.kindOf (smallOptions.sink 0 32) = .stream stream ∧
      StoreState.afterActions smallConfig [.operate (.openStore 0)] = some kept ∧
      Machine.run (StreamRun.step smallConfig) (StreamRun.registered stream kept)
        emptyBatchActions = some run ∧
      run.consumption =
        .failed (.store (.invalidResult "row batch count is outside protocol limits")) :=
  ⟨_, _, _, rfl, rfl, rfl, rfl⟩

end Chat2DB.Query
