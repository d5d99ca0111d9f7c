import Chat2DB.Query.Agreement

/-! # Keeping every event

The writer of a query stays in step with the events that were consumed, whatever
else is done with the store. Each event that can be stored is then taken, unless
the quota is used up.
-/

namespace Chat2DB.Query

open Results
open Storage (i64Max)
open Stepwise (Triple)

variable {config : StoreConfig} {codec : Wire.Codec} {session next : Session} {store : ResultStore}
  {id : ResultId} {kept after : StoreState} {operation : Operation} {timing : Timing}
  {writer : ResultWriter} {batch : Wire.RowBatch} {quotaMs : Int} {activeResults : List ResultId}

/-! ## Other operations -/

/-- What an operation may make of a session. -/
inductive Becomes (session : Session) : Operation → Session → Prop where
  | begun {id : ResultId} {schema : Wire.QueryStarted} {retention : Nat} {nowMs quotaMs : Int}
      (writer : ResultWriter) :
      Becomes session (.begin id schema retention nowMs quotaMs) (session.started writer schema)
  | appended {id : ResultId} {batch : Wire.RowBatch} {quotaMs : Int} (next : ResultWriter)
      (same : next.id = id) : Becomes session (.append id batch quotaMs) (session.appended next batch)
  | poisoned {id : ResultId} {batch : Wire.RowBatch} {quotaMs : Int} :
      Becomes session (.append id batch quotaMs) (session.poison id)
  | finished {id : ResultId} {completed : Wire.QueryCompleted} :
      Becomes session (.finish id completed) (session.finished id completed)
  | dropped {id : ResultId} {operation : Operation} (uses : resultOf operation = some id) :
      Becomes session operation (session.dropWriter id)
  | same {operation : Operation} : Becomes session operation session

/-- A writer keeps its result. -/
theorem appendBatch_id :
    Triple (fun _ => True) (appendBatch config writer batch quotaMs activeResults)
      (fun next _ => next.id = writer.id) (fun _ _ => True) (fun _ => True) := by
  refine .check (fun _ _ => trivial) (fun _ _ _ => trivial) fun _ _ => ?_
  refine .check (fun _ _ => trivial) (fun _ _ _ => trivial) fun _ _ => ?_
  refine .check (fun _ _ => trivial) (fun _ _ _ => trivial) fun _ _ => ?_
  refine .check (fun _ _ => trivial) (fun _ _ _ => trivial) fun _ _ => ?_
  refine .check (fun _ _ => trivial) (fun _ _ _ => trivial) fun _ _ => ?_
  refine .bind _ .anything fun _ => .bind _ .anything fun _ => ?_
  refine .bind _ .anything fun _ => .bind _ .anything fun _ => ?_
  refine .check (fun _ _ => trivial) (fun _ _ _ => trivial) fun _ _ => ?_
  exact .of_pure (fun _ _ => trivial) fun _ _ => rfl

/-- A program that succeeds changes the session as its operation says. -/
theorem program_becomes (hopened : session.opened = true)
    (henabled : session.Enabled store operation) :
    Triple (fun _ => True) (session.program config operation)
      (fun next _ => Becomes session operation next) (fun _ _ => True) (fun _ => True) := by
  have hpure : ∀ next, Becomes session operation next →
      Triple (fun _ => True) (pure next : StoreM Session)
        (fun next _ => Becomes session operation next) (fun _ _ => True) (fun _ => True) :=
    fun _ hnext => .of_pure (fun _ _ => trivial) fun _ _ => hnext
  cases operation with
  | openStore timestampMs =>
    rw [Session.Enabled, hopened] at henabled
    cases henabled
  | begin id schema retention nowMs quotaMs =>
    refine .bind _ .anything fun begun => (?_ : Triple (fun _ => True) _ _ _ _)
    cases begun with
    | ok writer => exact hpure _ (.begun writer)
    | error _ => exact hpure _ .same
  | append id batch quotaMs =>
    cases hwriter : session.findWriter id with
    | none => exact absurd hwriter henabled.2
    | some writer =>
      have hid := (findWriter_mem hwriter).2
      simp only [Session.program, hwriter]
      apply Triple.bind _ appendBatch_id.attempt
      intro appended
      cases appended with
      | ok next =>
        exact .of_pure (fun _ _ => trivial) fun _ hnext => .appended next (hnext.trans hid)
      | error _ => exact hpure _ .poisoned
  | finish id completed =>
    cases hwriter : session.findWriter id with
    | none => exact absurd hwriter henabled.2
    | some writer =>
      simp only [Session.program, hwriter]
      refine .bind _ .anything fun result => (?_ : Triple (fun _ => True) _ _ _ _)
      cases result with
      | ok _ => exact hpure _ .finished
      | error _ => exact hpure _ (.dropped rfl)
  | abort id => exact .bind _ .anything fun _ => hpure _ (.dropped rfl)
  | purge timestampMs => exact .bind _ .anything fun _ => hpure _ .same

theorem Becomes.opened (hbecomes : Becomes session operation next)
    (hopened : session.opened = true) : next.opened = true := by
  cases hbecomes with
  | _ => exact hopened

/-- Operations on other results leave a writer alone. -/
theorem Becomes.mem_writers (hbecomes : Becomes session operation next)
    (hwriter : writer ∈ session.writers) (hother : resultOf operation ≠ some writer.id) :
    writer ∈ next.writers := by
  have hapart : ∀ {other}, resultOf operation = some other → writer.id ≠ other := by
    rintro other hresult rfl
    exact hother hresult
  cases hbecomes with
  | begun _ => exact List.mem_append_left _ hwriter
  | appended other hid =>
    refine Rows.mem_update_of_not hwriter (decide_eq_false ?_)
    rw [hid]
    exact hapart rfl
  | poisoned => exact Rows.mem_update_of_not hwriter (decide_eq_false (hapart rfl))
  | finished => exact List.mem_filter.mpr ⟨hwriter, decide_eq_true (hapart rfl)⟩
  | dropped huses => exact List.mem_filter.mpr ⟨hwriter, decide_eq_true (hapart huses)⟩
  | same => exact hwriter

/-- A step is a run of the operation's program on the store. -/
theorem step_operate (hstep : kept.step config (.operate operation) = some after) :
    kept.session.Enabled kept.store operation ∧
      Stepwise.run (kept.session.program config operation) kept.store =
        (.ok after.session, after.store) := by
  simp only [StoreState.step] at hstep
  split at hstep
  · rename_i henabled
    cases hrun : Stepwise.run (kept.session.program config operation) kept.store with
    | mk result last =>
      rw [hrun] at hstep
      cases result with
      | ok session =>
        cases hstep
        exact ⟨henabled, rfl⟩
      | error _ => cases hstep
  · cases hstep

theorem becomes_of_step (hopened : kept.session.opened = true)
    (hstep : kept.step config (.operate operation) = some after) :
    Becomes kept.session operation after.session := by
  obtain ⟨henabled, hrun⟩ := step_operate hstep
  rcases @Stepwise.Triple.ends _ _ _ _ _ _ _ _ _ _ (@program_becomes config _ _ _ hopened henabled)
      kept.store trivial with
    ⟨_, _, hends, hbecomes⟩ | ⟨_, _, hends, -⟩
  · rw [hrun] at hends
    cases hends
    exact hbecomes
  · rw [hrun] at hends
    cases hends

/-! ## Calls -/

/-- What the encoding of a schema satisfies. The frame in which it came is no longer. -/
structure LawfulSchema (codec : Wire.Codec) (schema : Wire.QueryStarted) : Prop where
  decode : codec.decodeSchema (codec.encodeSchema schema) = some schema
  empty : codec.schemaLength schema = 0 ↔ schema.columns = []
  frame : codec.schemaLength schema ≤ Wire.maxFrameBytes

/-- What the encoding of a batch satisfies. Only what has nothing in it is encoded as nothing. -/
structure LawfulBatch (codec : Wire.Codec) (batch : Wire.RowBatch) : Prop where
  decode : codec.decodeBatch (codec.encodeBatch batch) = some batch
  rows : ∀ row ∈ batch.rows, codec.rowLength row ≤ codec.batchLength batch
  positive : batch.rows ≠ [] → 0 < codec.batchLength batch
  values : ∀ row ∈ batch.rows, row.values ≠ [] → 0 < codec.rowLength row

/-- The time to live of a request is a positive number of 32 bits, and the clock is far from the
end of time. -/
structure Timing.Valid (timing : Timing) : Prop where
  ttl : 0 < timing.resultTtlSeconds ∧ timing.resultTtlSeconds < 2 ^ 32
  expiry : timing.nowMs + (timing.resultTtlSeconds * 1000 : Nat) ≤ i64Max

theorem Timing.retention_ms (timing : Timing) :
    timing.retention / 1000000 = timing.resultTtlSeconds * 1000 := by
  unfold Timing.retention
  omega

/-- A schema that takes no bytes is refused. -/
theorem beginResult_refuses {schema : Wire.QueryStarted} {retention : Nat} {nowMs : Int}
    (hempty : config.codec.schemaLength schema = 0) :
    Triple (fun _ => True) (beginResult config id schema retention nowMs quotaMs activeResults)
      (fun _ _ => False) (fun _ _ => True) (fun _ => True) := by
  refine .check (fun _ _ => trivial) (fun _ _ _ => trivial) fun _ _ => ?_
  refine .check (fun _ _ => trivial) (fun _ _ _ => trivial) fun _ _ => ?_
  refine .check (fun _ _ => trivial) (fun _ _ _ => trivial) fun _ _ => ?_
  refine .check (fun _ _ => trivial) (fun _ _ _ => trivial) fun _ _ => ?_
  refine .check (fun _ _ => trivial) (fun _ _ _ => trivial) fun _ _ => ?_
  refine .check (fun _ _ => trivial) (fun _ _ _ => trivial) fun frame hframe => ?_
  have hpositive : 0 < config.codec.schemaLength schema := (encodeFrame_eq_ok_iff.mp hframe).1
  omega

/-- A batch without rows is refused. -/
theorem appendBatch_refuses (hempty : batch.rows = []) :
    Triple (fun _ => True) (appendBatch config writer batch quotaMs activeResults)
      (fun _ _ => False) (fun _ _ => True) (fun _ => True) := by
  refine .check (fun _ _ => trivial) (fun _ _ _ => trivial) fun _ _ => ?_
  refine .check (fun _ _ => trivial) (fun _ _ _ => trivial) fun _ hvalid => ?_
  exact absurd hempty (validateBatch_eq_ok_iff.mp hvalid).nonempty

/-- The end of a call for an event: it was taken, or it was refused for the quota or for want of
anything to store. -/
def Ends (result : Except ResultError (Option ResultMetadata)) (storable : Prop)
    (taken : Option ResultMetadata → Prop) : Prop :=
  (∃ metadata, result = .ok metadata ∧ storable ∧ taken metadata) ∨
    ∃ error, result = .error error ∧ (storable → error.IsQuota)

theorem ends_of_triple {α : Type} {program : StoreM α} {store : ResultStore}
    {onOk : α → Option ResultMetadata} {before : ResultStore → Prop} (returned : α → Prop)
    {storable : Prop} {taken : Option ResultMetadata → Prop} (hstore : before store)
    (hrefuses : ¬ storable →
      Triple before program (fun _ _ => False) (fun _ _ => True) (fun _ => True))
    (haccepts : storable → Triple before program (fun value _ => returned value)
      (fun error _ => error.IsQuota) (fun _ => True))
    (htaken : ∀ value last, storable → Stepwise.run program store = (.ok value, last) →
      returned value → taken (onOk value)) :
    Ends ((Stepwise.run program store).1.map onOk) storable taken := by
  by_cases hstorable : storable
  · rcases (haccepts hstorable).ends hstore with
      ⟨value, last, hends, hreturned⟩ | ⟨error, last, hends, hquota⟩
    · refine .inl ⟨onOk value, ?_, hstorable, htaken value last hstorable hends hreturned⟩
      rw [hends]
      rfl
    · refine .inr ⟨error, ?_, fun _ => hquota⟩
      rw [hends]
      rfl
  · rcases (hrefuses hstorable).ends hstore with ⟨_, _, -, hnever⟩ | ⟨error, last, hends, -⟩
    · exact hnever.elim
    · refine .inr ⟨error, ?_, fun hyes => absurd hyes hstorable⟩
      rw [hends]
      rfl

/-- The start of a stream is taken if there are columns, and gives the result a new writer. -/
theorem begin_ends {schema : Wire.QueryStarted} (hkept : Consistent config kept)
    (hopened : kept.session.opened = true) (hlaw : LawfulSchema config.codec schema)
    (hcolumns : schema.columns.length ≤ Wire.maxColumns) (hvalid : timing.Valid)
    (hstep : kept.step config (.operate
      (.begin id schema timing.retention timing.nowMs timing.quotaMs)) = some after) :
    Ends (callResult config kept.session kept.store
        (.begin id schema timing.retention timing.nowMs timing.quotaMs))
      (schema.columns ≠ []) fun metadata => metadata = none ∧
        after.session.findWriter id = some (newWriter id schema
          (frameOf (config.codec.encodeSchema schema)) timing.nowMs
          (timing.nowMs + (timing.retention / 1000000 : Nat))) := by
  obtain ⟨henabled, hrun⟩ := step_operate hstep
  have hunknown : Unknown id kept.store := ⟨henabled.2.2.1, henabled.2.1⟩
  refine ends_of_triple (fun writer => writer = newWriter id schema
    (frameOf (config.codec.encodeSchema schema)) timing.nowMs
    (timing.nowMs + (timing.retention / 1000000 : Nat))) hunknown ?_ ?_ ?_
  · intro hempty
    exact (beginResult_refuses (hlaw.empty.mpr (not_not.mp hempty))).strengthen fun _ _ => trivial
  · intro hnonempty
    refine beginResult_accepts ?_ ?_ hcolumns ?_ hlaw.frame
    · have hrange : 2 ^ 32 * 1000 ≤ i64Max := by decide
      have httl := hvalid.ttl
      rw [timing.retention_ms]
      omega
    · rw [timing.retention_ms]
      exact hvalid.expiry
    · exact Nat.pos_of_ne_zero fun hzero => hnonempty (hlaw.empty.mp hzero)
  · rintro _ last - hends rfl
    refine ⟨rfl, ?_⟩
    have hprogram : Stepwise.run (kept.session.program config
        (.begin id schema timing.retention timing.nowMs timing.quotaMs)) kept.store =
          (.ok (kept.session.started (newWriter id schema
            (frameOf (config.codec.encodeSchema schema)) timing.nowMs
            (timing.nowMs + (timing.retention / 1000000 : Nat))) schema), last) := by
      refine Stepwise.run_attempt_bind.trans ?_
      rw [hends]
      rfl
    have hsession := Except.ok.inj (congrArg Prod.fst (hprogram.symm.trans hrun))
    rw [← hsession]
    have hfresh : Rows.find ResultWriter.id id kept.session.writers = none := by
      rw [Rows.find_eq_none_iff]
      rintro old hold rfl
      exact (hkept.settled hopened).known old hold henabled.2.2.2
    refine (Rows.find_append_singleton id kept.session.writers _).trans ?_
    rw [hfresh, Option.none_or]
    exact if_pos rfl

/-- A writer in step with what its reader knows. -/
structure InStep (writer : ResultWriter) (view : View) : Prop where
  sound : writer.poisoned = false
  columns : writer.schemaColumns = view.columns ∧ 0 < view.columns
  rows : writer.nextRow = view.rows
  short : view.rows ≤ view.bytes
  bounded : view.bytes ≤ Wire.maxResultBytes
  room : writer.committedLength ≤
    4 + Wire.maxFrameBytes + view.rows * (4 + Wire.maxBatchBytes)

/-- Rows that have columns take a byte each at least. -/
theorem LawfulBatch.length_le_sum (hlaw : LawfulBatch codec batch)
    {columns : Nat} (hcolumns : 0 < columns)
    (hwidths : ∀ row ∈ batch.rows, row.values.length = columns) :
    batch.rows.length ≤ (batch.rows.map codec.rowLength).sum := by
  have hpositive : ∀ row ∈ batch.rows, 1 ≤ codec.rowLength row := by
    intro row hrow
    refine hlaw.values row hrow fun hnone => ?_
    have hwidth := hwidths row hrow
    rw [hnone, List.length_nil] at hwidth
    omega
  have hsum := List.length_le_sum_of_one_le (batch.rows.map codec.rowLength) (by simpa using hpositive)
  simpa using hsum

/-- A batch in step with the writer is taken if it has rows, and moves the writer on. -/
theorem append_ends {here : View}
    (hkept : Consistent config kept) (hopened : kept.session.opened = true)
    (hafter : Consistent config after) (hlaw : LawfulBatch config.codec batch)
    (hwriter : kept.session.findWriter id = some writer) (hinStep : InStep writer here)
    (hoffset : batch.startRowOffset.toNat = here.rows)
    (hrows : batch.rows.length ≤ Wire.maxBatchRows)
    (hbytes : config.codec.batchLength batch ≤ Wire.maxBatchBytes)
    (hwidths : ∀ row ∈ batch.rows, row.values.length = here.columns)
    (htotal : here.bytes + (batch.rows.map config.codec.rowLength).sum ≤ Wire.maxResultBytes)
    (hstep : kept.step config (.operate (.append id batch timing.quotaMs)) = some after) :
    Ends (callResult config kept.session kept.store (.append id batch timing.quotaMs))
      (batch.rows ≠ []) fun metadata => metadata = none ∧
        ∃ next, after.session.findWriter id = some next ∧ InStep next
          { here with
            rows := here.rows + batch.rows.length
            bytes := here.bytes + (batch.rows.map config.codec.rowLength).sum } := by
  obtain ⟨henabled, hrun⟩ := step_operate hstep
  obtain ⟨hmember, rfl⟩ := findWriter_mem hwriter
  have hshort := hlaw.length_le_sum hinStep.columns.2 hwidths
  have hroom := hinStep.room
  have hsmall := hinStep.short
  have hwriterRows := hinStep.rows
  have hlimits : 4 + Wire.maxFrameBytes + Wire.maxResultBytes * (4 + Wire.maxBatchBytes) +
      (4 + Wire.maxBatchBytes) ≤ i64Max ∧ Wire.maxResultBytes ≤ i64Max := by decide
  -- the file is bounded by its rows, so its length stays below 2^63
  have hproduct : here.rows * (4 + Wire.maxBatchBytes) ≤
      Wire.maxResultBytes * (4 + Wire.maxBatchBytes) :=
    Nat.mul_le_mul_right _ (Nat.le_trans hsmall hinStep.bounded)
  have hprotects : Protects (fun _ => False) kept.store := fun _ hnever => hnever.elim
  have hcall : callResult config kept.session kept.store (.append writer.id batch timing.quotaMs) =
      (Stepwise.run (appendBatch config writer batch timing.quotaMs kept.session.activeResults)
        kept.store).1.map fun _ => none := by
    simp only [callResult, hwriter]
  rw [hcall]
  have hstable : Stable config kept.session (fun _ => False) kept.store :=
    ⟨hkept.settled hopened, hprotects⟩
  refine ends_of_triple (fun next => next =
    writer.advance (frameOf (config.codec.encodeBatch batch)) batch.rows.length) hstable ?_ ?_ ?_
  · intro hempty
    exact (appendBatch_refuses (not_not.mp hempty)).strengthen fun _ _ => trivial
  · intro hnonempty
    refine appendBatch_accepts (fun _ hnever => hnever.elim) hmember hinStep.sound ?_
      (hlaw.positive hnonempty) ?_ ?_
    · refine ⟨hoffset.trans hwriterRows.symm, hnonempty, hrows, hbytes, fun row hrow => ?_⟩
      exact (hwidths row hrow).trans hinStep.columns.1.symm
    · omega
    · omega
  · rintro next last hnonempty hends rfl
    refine ⟨rfl, writer.advance (frameOf (config.codec.encodeBatch batch)) batch.rows.length, ?_, ?_⟩
    · have hprogram : Stepwise.run (kept.session.program config
          (.append writer.id batch timing.quotaMs)) kept.store =
            (.ok (kept.session.appended (writer.advance (frameOf (config.codec.encodeBatch batch))
              batch.rows.length) batch), last) := by
        simp only [Session.program, hwriter]
        refine Stepwise.run_attempt_bind.trans ?_
        rw [hends]
        rfl
      have hsession : kept.session.appended (writer.advance
          (frameOf (config.codec.encodeBatch batch)) batch.rows.length) batch = after.session :=
        Except.ok.inj (congrArg Prod.fst (hprogram.symm.trans hrun))
      have hstill : after.session.opened = true := by
        rw [← hsession]
        exact hopened
      have hmem : writer.advance (frameOf (config.codec.encodeBatch batch)) batch.rows.length ∈
          after.session.writers := by
        rw [← hsession]
        exact Rows.mem_update_of_cond hmember (decide_eq_true rfl)
      exact (hafter.settled hstill).writers.find_of_mem hmem
    · have hlength : (frameOf (config.codec.encodeBatch batch)).length =
          4 + config.codec.batchLength batch := length_frameOf ..
      refine ⟨hinStep.sound, hinStep.columns, ?_, Nat.add_le_add hsmall hshort, htotal, ?_⟩
      · exact congrArg (· + batch.rows.length) hwriterRows
      · have hsome : 4 + Wire.maxBatchBytes ≤ batch.rows.length * (4 + Wire.maxBatchBytes) :=
          Nat.le_mul_of_pos_left _ (List.length_pos_iff.mpr hnonempty)
        change writer.committedLength + (frameOf (config.codec.encodeBatch batch)).length ≤
          4 + Wire.maxFrameBytes + (here.rows + batch.rows.length) * (4 + Wire.maxBatchBytes)
        rw [Nat.add_mul, hlength]
        omega

/-- The end of a stream is taken, with its number of rows. -/
theorem finish_ends {completed : Wire.QueryCompleted} {here : View}
    (hkept : Consistent config kept) (hopened : kept.session.opened = true)
    (hwriter : kept.session.findWriter id = some writer) (hinStep : InStep writer here)
    (hrows : completed.rowCount.toNat = here.rows) :
    Ends (callResult config kept.session kept.store (.finish id completed)) True fun metadata =>
      ∃ finished, metadata = some finished ∧ finished.rowCount = completed.rowCount.toNat := by
  obtain ⟨hmember, rfl⟩ := findWriter_mem hwriter
  have hprotects : Protects (fun _ => False) kept.store := fun _ hnever => hnever.elim
  have hstable : Stable config kept.session (fun _ => False) kept.store :=
    ⟨hkept.settled hopened, hprotects⟩
  have hcall : callResult config kept.session kept.store (.finish writer.id completed) =
      (Stepwise.run (finish writer completed) kept.store).1.map some := by
    simp only [callResult, hwriter]
  rw [hcall]
  refine ends_of_triple (fun metadata => metadata.rowCount = completed.rowCount.toNat) hstable
    (fun hnever => absurd trivial hnever) ?_ ?_
  · intro _
    refine (finish_accepts hmember hinStep.sound (hrows.trans hinStep.rows.symm)).weaken ?_ ?_ ?_
    · exact fun _ _ hmetadata => hmetadata
    · exact fun _ _ hnever => hnever.elim
    · exact fun _ _ => trivial
  · exact fun metadata _ _ _ hmetadata => ⟨metadata, rfl, hmetadata⟩

end Chat2DB.Query
