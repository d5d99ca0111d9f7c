import Chat2DB.Supervisor.StreamPending

/-! # The rules of a query stream

What a response must satisfy for its stream to accept it, and what the stream is
after a response that does.
-/

namespace Chat2DB.Supervisor

variable {event : QueryEvent}

/-! ## Conversions -/

def KnownValueType (value : Int32) : Prop := 1 ≤ value.toInt ∧ value.toInt ≤ 15

def KnownNullability (value : Int32) : Prop := 0 ≤ value.toInt ∧ value.toInt ≤ 2

theorem JdbcValueType.fromWire_isOk_iff {value : Int32} :
    (∃ valueType, fromWire value = .ok valueType) ↔ KnownValueType value := by
  unfold fromWire KnownValueType
  split
  case h_16 =>
    constructor
    · rintro ⟨_, hunknown⟩
      cases hunknown
    · intro hknown
      grind
  all_goals simp [*]

theorem ColumnNullability.fromWire_isOk_iff {value : Int32} :
    (∃ nullability, fromWire value = .ok nullability) ↔ KnownNullability value := by
  unfold fromWire KnownNullability
  split
  case h_4 =>
    constructor
    · rintro ⟨_, hunknown⟩
      cases hunknown
    · intro hknown
      grind
  all_goals simp [*]

theorem JdbcColumn.fromWire_isOk_iff {wireColumn : Wire.JdbcColumn} :
    (∃ column, fromWire wireColumn = .ok column) ↔
      KnownValueType wireColumn.valueType ∧ KnownNullability wireColumn.nullability := by
  rw [← JdbcValueType.fromWire_isOk_iff, ← ColumnNullability.fromWire_isOk_iff]
  simp only [fromWire, Outcome.bind_eq_ok, Outcome.pure_eq_ok]
  constructor
  · rintro ⟨_, valueType, hvalueType, nullability, hnullability, -⟩
    exact ⟨⟨valueType, hvalueType⟩, ⟨nullability, hnullability⟩⟩
  · rintro ⟨⟨valueType, hvalueType⟩, ⟨nullability, hnullability⟩⟩
    exact ⟨_, valueType, hvalueType, nullability, hnullability, rfl⟩

theorem mapM_isOk_iff {ε α β : Type} {convert : α → Except ε β} {sources : List α} :
    (∃ targets, sources.mapM convert = .ok targets) ↔
      ∀ source ∈ sources, ∃ target, convert source = .ok target := by
  induction sources with
  | nil => simp [Outcome.pure_eq_ok]
  | cons source rest ih =>
    rw [List.forall_mem_cons, ← ih, List.mapM_cons]
    simp only [Outcome.bind_eq_ok, Outcome.pure_eq_ok]
    constructor
    · rintro ⟨_, target, htarget, targets, htargets, -⟩
      exact ⟨⟨target, htarget⟩, ⟨targets, htargets⟩⟩
    · rintro ⟨⟨target, htarget⟩, ⟨targets, htargets⟩⟩
      exact ⟨_, target, htarget, targets, htargets, rfl⟩

theorem JdbcRow.fromWire_isOk_iff {wireRow : Wire.JdbcRow} :
    (∃ row, fromWire wireRow = .ok row) ↔ ∀ value ∈ wireRow.values, value.value ≠ none := by
  have hvalue : ∀ value : Wire.JdbcValue,
      (∃ target, valueFromWire value = .ok target) ↔ value.value ≠ none := by
    intro value
    simp only [valueFromWire, Outcome.orThrow_eq_ok]
    exact Option.ne_none_iff_exists'.symm
  rw [← forall₂_congr fun value _ => hvalue value, ← mapM_isOk_iff]
  simp only [fromWire, Outcome.bind_eq_ok, Outcome.pure_eq_ok]
  constructor
  · rintro ⟨_, values, hvalues, -⟩
    exact ⟨values, hvalues⟩
  · rintro ⟨values, hvalues⟩
    exact ⟨_, values, hvalues, rfl⟩

theorem convert_started_isOk_iff {started : Wire.QueryStarted} :
    (∃ event, StreamPending.convert (.queryStarted started) = .ok event) ↔
      ∀ column ∈ started.columns,
        KnownValueType column.valueType ∧ KnownNullability column.nullability := by
  rw [← forall₂_congr fun column _ => JdbcColumn.fromWire_isOk_iff, ← mapM_isOk_iff]
  simp only [StreamPending.convert, Outcome.mapError_eq_ok, queryEventFromPayload,
    Outcome.bind_eq_ok, Outcome.pure_eq_ok]
  constructor
  · rintro ⟨_, columns, hcolumns, -⟩
    exact ⟨columns, hcolumns⟩
  · rintro ⟨columns, hcolumns⟩
    exact ⟨_, columns, hcolumns, rfl⟩

theorem convert_batch_isOk_iff {batch : Wire.RowBatch} :
    (∃ event, StreamPending.convert (.rowBatch batch) = .ok event) ↔
      ∀ row ∈ batch.rows, ∀ value ∈ row.values, value.value ≠ none := by
  rw [← forall₂_congr fun row _ => JdbcRow.fromWire_isOk_iff, ← mapM_isOk_iff]
  simp only [StreamPending.convert, Outcome.mapError_eq_ok, queryEventFromPayload,
    Outcome.bind_eq_ok, Outcome.pure_eq_ok]
  constructor
  · rintro ⟨_, rows, hrows, -⟩
    exact ⟨rows, hrows⟩
  · rintro ⟨rows, hrows⟩
    exact ⟨_, rows, hrows, rfl⟩

/-! ## Rules -/

namespace StreamPending

variable {codec : Wire.Codec} {stream next : StreamPending} {metadata : Wire.ResponseMeta}
  {payload : Wire.Payload}

/-- How a query starts. -/
structure FollowsStarted (stream : StreamPending) (metadata : Wire.ResponseMeta)
    (started : Wire.QueryStarted) : Prop where
  more : metadata.terminal = false
  first : stream.started = false ∧ metadata.sequence = 0
  columns : started.columns.length ≤ Wire.maxColumns
  ordinals : ordinalsContiguous started.columns = true
  types : ∀ column ∈ started.columns,
    KnownValueType column.valueType ∧ KnownNullability column.nullability

/-- What a batch of rows satisfies. -/
structure FollowsBatch (codec : Wire.Codec) (stream : StreamPending)
    (metadata : Wire.ResponseMeta) (batch : Wire.RowBatch) : Prop where
  more : metadata.terminal = false
  started : stream.started = true
  credit : 0 < stream.outstandingCredits
  rows : batch.rows.length ≤ Wire.maxBatchRows
  targetRows : stream.budgets.targetBatchRows ≠ 0 →
    batch.rows.length ≤ stream.budgets.targetBatchRows
  bytes : codec.batchLength batch ≤ Wire.maxBatchBytes
  targetBytes : stream.budgets.targetBatchBytes ≠ 0 →
    codec.batchLength batch ≤ stream.budgets.targetBatchBytes
  offset : batch.startRowOffset.toNat = stream.nextRowOffset
  widths : ∀ row ∈ batch.rows, row.values.length = stream.columnCount
  rowCount : stream.nextRowOffset + batch.rows.length ≤ u64Max
  maxRows : stream.budgets.maxRows ≠ 0 →
    stream.nextRowOffset + batch.rows.length ≤ stream.budgets.maxRows
  byteCount : stream.resultBytes + (batch.rows.map codec.rowLength).sum ≤ u64Max
  resultBytes : stream.resultBytes + (batch.rows.map codec.rowLength).sum ≤
    stream.budgets.maxResultBytes
  values : ∀ row ∈ batch.rows, ∀ value ∈ row.values, value.value ≠ none

/-- How a query ends. -/
structure FollowsCompleted (stream : StreamPending) (metadata : Wire.ResponseMeta)
    (completed : Wire.QueryCompleted) : Prop where
  terminal : metadata.terminal = true
  started : stream.started = true
  rowCount : completed.rowCount.toNat = stream.nextRowOffset
  truncated : completed.truncatedByMaxRows = true →
    stream.budgets.maxRows ≠ 0 ∧ completed.rowCount.toNat = stream.budgets.maxRows

theorem acceptStarted_eq_ok_iff {started : Wire.QueryStarted} :
    stream.acceptStarted metadata started = .ok (next, event) ↔
      stream.FollowsStarted metadata started ∧ convert (.queryStarted started) = .ok event ∧
        next = { stream with started := true, columnCount := started.columns.length } := by
  simp only [acceptStarted, Outcome.bind_eq_ok, Outcome.rejectIf_eq_ok, Outcome.pure_eq_ok,
    Prod.mk.injEq, exists_const]
  constructor
  · rintro ⟨henvelope, hcolumns, hordinals, converted, hconverted, rfl, rfl⟩
    refine ⟨⟨?_, ⟨?_, ?_⟩, ?_, ?_, ?_⟩, hconverted, rfl⟩
    · simpa using fun h => henvelope (.inl h)
    · simpa using fun h => henvelope (.inr (.inl h))
    · by_contra h
      exact henvelope (.inr (.inr h))
    · omega
    · simpa using hordinals
    · exact convert_started_isOk_iff.mp ⟨converted, hconverted⟩
  · rintro ⟨hfollows, hconverted, rfl⟩
    refine ⟨?_, ?_, ?_, event, hconverted, rfl, rfl⟩
    · simp [hfollows.more, hfollows.first]
    · exact Nat.not_lt.mpr hfollows.columns
    · simp [hfollows.ordinals]

theorem acceptBatch_eq_ok_iff {batch : Wire.RowBatch} :
    stream.acceptBatch codec metadata batch = .ok (next, event) ↔
      stream.FollowsBatch codec metadata batch ∧ convert (.rowBatch batch) = .ok event ∧
        next = { stream with
          outstandingCredits := stream.outstandingCredits - 1
          nextRowOffset := stream.nextRowOffset + batch.rows.length
          resultBytes := stream.resultBytes + (batch.rows.map codec.rowLength).sum } := by
  simp only [acceptBatch, Outcome.bind_eq_ok, Outcome.rejectIf_eq_ok, Outcome.pure_eq_ok,
    Prod.mk.injEq, exists_const]
  constructor
  · rintro ⟨henvelope, hcredit, hrows, htargetRows, hbytes, htargetBytes, hoffset, hwidths,
      hrowCount, hmaxRows, hbyteCount, hresultBytes, converted, hconverted, rfl, rfl⟩
    refine ⟨⟨?_, ?_, by omega, by omega, by omega, by omega, by omega, by omega, ?_, by omega,
      by omega, by omega, by omega, ?_⟩, hconverted, rfl⟩
    · simpa using fun h => henvelope (.inl h)
    · by_contra h
      exact henvelope (.inr h)
    · intro row hrow
      by_contra h
      exact hwidths ⟨row, hrow, h⟩
    · exact convert_batch_isOk_iff.mp ⟨converted, hconverted⟩
  · rintro ⟨hfollows, hconverted, rfl⟩
    obtain ⟨hmore, hstarted, hcredit, hrows, htargetRows, hbytes, htargetBytes, hoffset, hwidths,
      hrowCount, hmaxRows, hbyteCount, hresultBytes, -⟩ := hfollows
    refine ⟨by simp [hmore, hstarted], by omega, by omega, by omega, by omega, by omega, by omega,
      ?_, by omega, by omega, by omega, by omega, event, hconverted, rfl, rfl⟩
    rintro ⟨row, hrow, hwidth⟩
    exact hwidth (hwidths row hrow)

theorem acceptCompleted_eq_ok_iff {completed : Wire.QueryCompleted} :
    stream.acceptCompleted metadata completed = .ok event ↔
      stream.FollowsCompleted metadata completed ∧
        convert (.queryCompleted completed) = .ok event := by
  simp only [acceptCompleted, Outcome.bind_eq_ok, Outcome.rejectIf_eq_ok, exists_const]
  constructor
  · rintro ⟨henvelope, htruncated, hconverted⟩
    refine ⟨⟨?_, ?_, ?_, ?_⟩, hconverted⟩
    · by_contra h
      exact henvelope (.inl h)
    · by_contra h
      exact henvelope (.inr (.inl h))
    · by_contra h
      exact henvelope (.inr (.inr h))
    · intro hflag
      by_contra h
      exact htruncated ⟨hflag, by omega⟩
  · rintro ⟨hfollows, hconverted⟩
    refine ⟨?_, ?_, hconverted⟩
    · simp [hfollows.terminal, hfollows.started, hfollows.rowCount]
    · rintro ⟨hflag, hwrong⟩
      have := hfollows.truncated hflag
      omega

/-- What an accepted payload makes of its stream. -/
inductive Accepts (codec : Wire.Codec) (stream : StreamPending) (metadata : Wire.ResponseMeta) :
    Wire.Payload → StreamPending → StreamItem → Bool → Prop where
  | started {started : Wire.QueryStarted} {event : QueryEvent}
      (follows : stream.FollowsStarted metadata started)
      (converted : convert (.queryStarted started) = .ok event) :
      Accepts codec stream metadata (.queryStarted started)
        { stream with started := true, columnCount := started.columns.length } (.ok event) false
  | batch {batch : Wire.RowBatch} {event : QueryEvent}
      (follows : stream.FollowsBatch codec metadata batch)
      (converted : convert (.rowBatch batch) = .ok event) :
      Accepts codec stream metadata (.rowBatch batch)
        { stream with
          outstandingCredits := stream.outstandingCredits - 1
          nextRowOffset := stream.nextRowOffset + batch.rows.length
          resultBytes := stream.resultBytes + (batch.rows.map codec.rowLength).sum }
        (.ok event) false
  | completed {completed : Wire.QueryCompleted} {event : QueryEvent}
      (follows : stream.FollowsCompleted metadata completed)
      (converted : convert (.queryCompleted completed) = .ok event) :
      Accepts codec stream metadata (.queryCompleted completed) stream (.ok event) true
  | failed {error : Wire.EngineError} (terminal : metadata.terminal = true) :
      Accepts codec stream metadata (.error error) stream (.error (.remote error)) true

variable {item : StreamItem} {terminal : Bool}

theorem acceptPayload_eq_ok_iff :
    stream.acceptPayload codec metadata payload = .ok (next, item, terminal) ↔
      stream.Accepts codec metadata payload next item terminal := by
  constructor
  · intro haccept
    cases payload with
    | queryStarted started =>
      obtain ⟨⟨accepted, event⟩, hevent, haccept⟩ := (Outcome.bind_eq_ok _ _ _).mp haccept
      obtain ⟨hfollows, hconverted, rfl⟩ := acceptStarted_eq_ok_iff.mp hevent
      cases haccept
      exact .started hfollows hconverted
    | rowBatch batch =>
      obtain ⟨⟨accepted, event⟩, hevent, haccept⟩ := (Outcome.bind_eq_ok _ _ _).mp haccept
      obtain ⟨hfollows, hconverted, rfl⟩ := acceptBatch_eq_ok_iff.mp hevent
      cases haccept
      exact .batch hfollows hconverted
    | queryCompleted completed =>
      obtain ⟨event, hevent, haccept⟩ := (Outcome.bind_eq_ok _ _ _).mp haccept
      obtain ⟨hfollows, hconverted⟩ := acceptCompleted_eq_ok_iff.mp hevent
      cases haccept
      exact .completed hfollows hconverted
    | error error =>
      obtain ⟨_, hterminal, haccept⟩ := (Outcome.bind_eq_ok _ _ _).mp haccept
      cases haccept
      exact .failed (by simpa using (Outcome.rejectIf_eq_ok _ _ _).mp hterminal)
    | _ => cases haccept
  · rintro (⟨hfollows, hconverted⟩ | ⟨hfollows, hconverted⟩ | ⟨hfollows, hconverted⟩ | hterminal)
    · exact (Outcome.bind_eq_ok _ _ _).mpr
        ⟨_, acceptStarted_eq_ok_iff.mpr ⟨hfollows, hconverted, rfl⟩, rfl⟩
    · exact (Outcome.bind_eq_ok _ _ _).mpr
        ⟨_, acceptBatch_eq_ok_iff.mpr ⟨hfollows, hconverted, rfl⟩, rfl⟩
    · exact (Outcome.bind_eq_ok _ _ _).mpr
        ⟨_, acceptCompleted_eq_ok_iff.mpr ⟨hfollows, hconverted⟩, rfl⟩
    · exact (Outcome.bind_eq_ok _ _ _).mpr
        ⟨(), (Outcome.rejectIf_eq_ok _ _ _).mpr (by simp [hterminal]), rfl⟩

theorem accept_eq_ok_iff :
    stream.accept codec metadata payload = .ok (next, item, terminal) ↔
      metadata.sequence.toNat = stream.nextSequence ∧ stream.nextSequence < u64Max ∧
        stream.advance.Accepts codec metadata payload next item terminal := by
  simp only [accept, Outcome.bind_eq_ok, Outcome.rejectIf_eq_ok, exists_const,
    acceptPayload_eq_ok_iff]
  constructor
  · rintro ⟨hsequence, hbound, haccepts⟩
    exact ⟨by omega, by omega, haccepts⟩
  · rintro ⟨hsequence, hbound, haccepts⟩
    exact ⟨by omega, by omega, haccepts⟩

/-- A response follows the protocol of the stream it is for. -/
def Follows (codec : Wire.Codec) (stream : StreamPending) (metadata : Wire.ResponseMeta)
    (payload : Wire.Payload) : Prop :=
  metadata.sequence.toNat = stream.nextSequence ∧ stream.nextSequence < u64Max ∧
    match payload with
    | .queryStarted started => stream.advance.FollowsStarted metadata started
    | .rowBatch batch => stream.advance.FollowsBatch codec metadata batch
    | .queryCompleted completed => stream.advance.FollowsCompleted metadata completed
    | .error _ => metadata.terminal = true
    | _ => False

theorem accept_of_follows (hfollows : stream.Follows codec metadata payload) :
    ∃ next item terminal, stream.accept codec metadata payload = .ok (next, item, terminal) := by
  obtain ⟨hsequence, hbound, hrules⟩ := hfollows
  suffices haccepts : ∃ next item terminal,
      stream.advance.Accepts codec metadata payload next item terminal by
    obtain ⟨next, item, terminal, haccepts⟩ := haccepts
    exact ⟨next, item, terminal, accept_eq_ok_iff.mpr ⟨hsequence, hbound, haccepts⟩⟩
  cases payload with
  | queryStarted started =>
    obtain ⟨event, hevent⟩ := convert_started_isOk_iff.mpr hrules.types
    exact ⟨_, _, _, .started hrules hevent⟩
  | rowBatch batch =>
    obtain ⟨event, hevent⟩ := convert_batch_isOk_iff.mpr hrules.values
    exact ⟨_, _, _, .batch hrules hevent⟩
  | queryCompleted completed => exact ⟨_, _, _, .completed hrules rfl⟩
  | error error => exact ⟨_, _, _, .failed hrules⟩
  | _ => exact hrules.elim

theorem accept_ne_channelFull {capacity : Nat} :
    stream.accept codec metadata payload ≠ .error (.channelFull capacity) := by
  have hconvert : ∀ payload, convert payload ≠ .error (.channelFull capacity) := by
    intro payload
    unfold convert
    cases queryEventFromPayload payload <;> simp [Except.mapError]
  refine Outcome.bind_ne_error (Outcome.rejectIf_ne_error (by simp)) fun _ => ?_
  refine Outcome.bind_ne_error (Outcome.rejectIf_ne_error (by simp)) fun _ => ?_
  cases payload with
  | queryStarted | rowBatch =>
    refine Outcome.bind_ne_error ?_ (by simp [pure, Except.pure])
    repeat refine Outcome.bind_ne_error (Outcome.rejectIf_ne_error (by simp)) fun _ => ?_
    exact Outcome.bind_ne_error (hconvert _) (by simp [pure, Except.pure])
  | queryCompleted completed =>
    refine Outcome.bind_ne_error ?_ (by simp [pure, Except.pure])
    repeat refine Outcome.bind_ne_error (Outcome.rejectIf_ne_error (by simp)) fun _ => ?_
    exact hconvert _
  | error error =>
    exact Outcome.bind_ne_error (Outcome.rejectIf_ne_error (by simp))
      (by simp [pure, Except.pure])
  | _ => simp [acceptPayload]

end StreamPending

end Chat2DB.Supervisor
