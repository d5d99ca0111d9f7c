import Chat2DB.Results.Finishing

/-! # What the store accepts

A call on the store for data within its limits fails only when the quota is used
up: none of the checks on the way, and no constraint of the database, stops it.
-/

namespace Chat2DB.Results

open Storage (i64Max u64Max)
open Stepwise (Triple)

variable {config : StoreConfig} {session : Session} {store : ResultStore} {id : ResultId}
  {keep : StoredResult → Prop} {writer : ResultWriter} {batch : Wire.RowBatch}
  {schema : Wire.QueryStarted} {completed : Wire.QueryCompleted} {activeResults : List ResultId}
  {quotaMs : Int}

/-- The errors by which the store says that the retained results take too much room. -/
def ResultError.IsQuota (error : ResultError) : Prop :=
  error = .numericRange "retained result bytes" ∨
    ∃ requested available, error = .quotaExceeded requested available

/-! ## Quota -/

/-- What no purge takes away. -/
structure KeptByUpkeep (kept : ResultStore → Prop) : Prop where
  delete : ∀ store id, kept store → kept (store.apply (.deleteResult id))
  remove : ∀ store id, kept store → kept (store.apply (.removeFile id))
  link : ∀ store, kept store → kept (store.apply .syncDirectory)

variable {kept : ResultStore → Prop} {failed : ResultError → ResultStore → Prop}

theorem deleteResult_upkeeps (hkept : KeptByUpkeep kept) (id : ResultId) :
    Triple kept (deleteResult id) (fun _ => kept) failed (fun _ => True) := by
  apply Triple.bind (fun _ => kept)
  · exact .of_perform (fun _ _ => trivial) (fun _ _ => trivial) fun store => hkept.delete store id
  intro _
  apply Triple.bind (fun _ => kept)
  · exact .of_perform (fun _ _ => trivial) (fun _ _ => trivial) fun store => hkept.remove store id
  intro _
  exact .of_perform (fun _ _ => trivial) (fun _ _ => trivial) hkept.link

theorem purgeExpiredAt_upkeeps (hkept : KeptByUpkeep kept) (timestampMs : Int) :
    Triple kept (purgeExpiredAt timestampMs activeResults) (fun _ => kept) failed
      (fun _ => True) := by
  have hstay : ∀ {α : Type} (value : α),
      Triple kept (pure value : StoreM α) (fun _ => kept) failed (fun _ => True) :=
    fun _ => .of_pure (fun _ _ => trivial) fun _ hstore => hstore
  have hread : ∀ {α : Type} (view : ResultStore → α),
      Triple kept (Stepwise.read view : StoreM α) (fun _ => kept) failed (fun _ => True) :=
    fun _ => (Triple.of_read fun _ _ => trivial).weaken (fun _ _ hstore => hstore.1)
      (fun _ _ hfailed => hfailed) fun _ _ => trivial
  apply Triple.bind _ (hread _)
  intro results
  apply Triple.bind (fun _ => kept)
  · apply Triple.fold (fun _ _ => kept) (fun _ _ _ => trivial)
    intro result rest report
    unfold purgeResult
    split
    · exact hstay report
    · exact .bind _ (deleteResult_upkeeps hkept result.id) fun _ => hstay _
  intro report
  apply Triple.bind _ (hread _)
  intro referenced
  apply Triple.bind _ (hread _)
  intro files
  apply Triple.bind (fun _ => kept)
  · apply Triple.fold (fun _ _ => kept) (fun _ _ _ => trivial)
    intro file rest removed
    unfold removeOrphan
    split
    · exact hstay removed
    · apply Triple.bind (fun _ => kept)
      · exact .of_perform (fun _ _ => trivial) (fun _ _ => trivial)
          fun store => hkept.remove store file.id
      · exact fun _ => hstay _
  intro removed
  split
  · apply Triple.bind (fun _ => kept)
    · exact .of_perform (fun _ _ => trivial) (fun _ _ => trivial) hkept.link
    · exact fun _ => hstay _
  · exact hstay _

theorem retainedResultBytes_quota :
    Triple kept retainedResultBytes (fun _ => kept) (fun error _ => error.IsQuota)
      (fun _ => True) := by
  apply Triple.bind _ (.of_read fun _ _ => trivial)
  intro retained
  refine (Triple.of_ofExcept (fun _ _ => trivial) ?_).weaken (fun _ _ hstore => hstore.1.1)
    (fun _ _ hquota => hquota) fun _ _ => trivial
  rintro error store ⟨-, rfl⟩ herror
  simp only [ResultStore.retainedResultBytes, Outcome.bind_eq_error, Outcome.rejectIf_eq_error]
    at herror
  rcases herror with ⟨-, rfl⟩ | ⟨_, -, hpure⟩
  · exact .inl rfl
  · cases hpure

theorem checkResultQuota_quota (hkept : KeptByUpkeep kept) (requested : Nat) (timestampMs : Int) :
    Triple kept (checkResultQuota config requested timestampMs activeResults) (fun _ => kept)
      (fun error _ => error.IsQuota) (fun _ => True) := by
  apply Triple.bind _ retainedResultBytes_quota
  intro retained
  split
  · apply Triple.bind _ (purgeExpiredAt_upkeeps hkept timestampMs)
    intro _
    apply Triple.bind _ retainedResultBytes_quota
    intro left
    refine (Triple.of_ofExcept (fun _ _ => trivial) ?_).weaken (fun _ _ hstore => hstore.1)
      (fun _ _ hquota => hquota) fun _ _ => trivial
    intro error store _ herror
    obtain ⟨-, rfl⟩ := (Outcome.rejectIf_eq_error _ _ _).mp herror
    exact .inr ⟨_, _, rfl⟩
  · exact .of_pure (fun _ _ => trivial) fun _ hstore => hstore

theorem keptByUpkeep_true : KeptByUpkeep fun _ => True :=
  ⟨fun _ _ _ => trivial, fun _ _ _ => trivial, fun _ _ => trivial⟩

/-! ## Beginning -/

/-- Neither the index nor the directory knows the id. -/
def Unknown (id : ResultId) (store : ResultStore) : Prop :=
  store.findFile id = none ∧ store.loadStoredResult id = none

theorem keptByUpkeep_unknown : KeptByUpkeep (Unknown id) := by
  refine ⟨?_, ?_, ?_⟩
  · rintro store other ⟨hfile, hresult⟩
    refine ⟨hfile, ?_⟩
    rw [load_apply_deleteResult]
    split
    · rfl
    · exact hresult
  · rintro store other ⟨hfile, hresult⟩
    refine ⟨?_, hresult⟩
    rw [ResultStore.findFile, Rows.find_eq_none_iff] at hfile ⊢
    exact fun file hmem => hfile file (List.mem_of_mem_filter hmem)
  · rintro store ⟨hfile, hresult⟩
    refine ⟨?_, hresult⟩
    rw [findFile_syncDirectory, hfile]
    rfl

theorem perform_index {step : StoreStep} {index : ResultStore → Prop}
    (hstep : ∀ store, index store → index (store.apply step)) :
    Triple index (Stepwise.perform step) (fun _ => index) failed (fun _ => True) :=
  .of_perform (fun _ _ => trivial) (fun _ _ => trivial) hstep

theorem writeSchemaFile_accepts {frame : List UInt8} {createdAtMs expiresAtMs : Int}
    (hlong : 5 ≤ frame.length) (hshort : frame.length ≤ i64Max) :
    Triple (Unknown id) (writeSchemaFile config id frame createdAtMs expiresAtMs) (fun _ _ => True)
      (fun _ _ => False) (fun _ => True) := by
  let index : ResultStore → Prop := fun store => store.loadStoredResult id = none
  apply Triple.bind _ (.of_read fun _ _ => trivial)
  intro existing
  refine Triple.of_state ?_
  rintro store ⟨⟨hfile, hresult⟩, rfl⟩
  refine .passed ((Outcome.rejectIf_eq_ok _ _ ()).mpr (not_not.mpr hfile)) (fun _ _ => trivial) ?_
  have hstart : ∀ state, state = store → index state := by
    rintro _ rfl
    exact hresult
  refine Triple.strengthen ?_ hstart
  apply Triple.bind _ (perform_index fun _ hindex => hindex)
  intro _
  apply Triple.bind _ (perform_index fun _ hindex => hindex)
  intro _
  apply Triple.bind _ (perform_index fun _ hindex => hindex)
  intro _
  apply Triple.bind _ (perform_index fun _ hindex => hindex)
  intro _
  have hinsert : Triple index
      (insertWritingResult (writingResult config id frame createdAtMs expiresAtMs))
      (fun _ _ => True) (fun _ _ => False) (fun _ => True) := by
    refine .passed ((Outcome.rejectIf_eq_ok _ _ ()).mpr (Nat.not_lt.mpr hshort))
      (fun _ _ => trivial) ?_
    apply Triple.of_state
    intro start hnone
    apply Triple.read_at trivial
    have hadmitted : start.admitsResult (writingResult config id frame createdAtMs expiresAtMs) :=
      ⟨hnone, hlong, config.hash.length_digest frame⟩
    refine .passed ((Outcome.rejectIf_eq_ok _ _ ()).mpr (by simpa using hadmitted))
      (fun _ _ => trivial) ?_
    exact .of_perform (fun _ _ => trivial) (fun _ _ => trivial) fun _ _ => trivial
  apply Triple.bind _ hinsert.attempt
  intro inserted
  cases inserted with
  | ok _ => exact .of_pure (fun _ _ => trivial) fun _ _ => trivial
  | error error => exact fun _ hnever => hnever.elim

/-- A schema whose encoding is neither empty nor too long is accepted. -/
theorem beginResult_accepts {retention : Nat} {nowMs : Int}
    (hretention : 0 < retention / 1000000 ∧ retention / 1000000 ≤ i64Max)
    (hexpiry : nowMs + (retention / 1000000 : Nat) ≤ i64Max)
    (hcolumns : schema.columns.length ≤ Wire.maxColumns)
    (hpositive : 0 < config.codec.schemaLength schema)
    (hmaximum : config.codec.schemaLength schema ≤ Wire.maxFrameBytes) :
    Triple (Unknown id) (beginResult config id schema retention nowMs quotaMs activeResults)
      (fun next _ => next = newWriter id schema (frameOf (config.codec.encodeSchema schema)) nowMs
        (nowMs + (retention / 1000000 : Nat)))
      (fun error _ => error.IsQuota) (fun _ => True) := by
  have hnonzero : retention ≠ 0 := by
    rintro rfl
    exact absurd hretention.1 (by decide)
  have hframe : (frameOf (config.codec.encodeSchema schema)).length =
      4 + config.codec.schemaLength schema := length_frameOf ..
  have hencode : encodeFrame (config.codec.encodeSchema schema) Wire.maxFrameBytes =
      .ok (frameOf (config.codec.encodeSchema schema)) :=
    encodeFrame_eq_ok_iff.mpr ⟨hpositive, hmaximum,
      Nat.lt_of_le_of_lt hmaximum (by decide), rfl⟩
  have hrange : Wire.maxFrameBytes + 4 ≤ i64Max := by decide
  refine .passed ((Outcome.rejectIf_eq_ok _ _ ()).mpr hnonzero) (fun _ _ => trivial) ?_
  refine .passed ((Outcome.rejectIf_eq_ok _ _ ()).mpr (Nat.not_lt.mpr hretention.2))
    (fun _ _ => trivial) ?_
  refine .passed ((Outcome.rejectIf_eq_ok _ _ ()).mpr (Int.not_lt.mpr hexpiry))
    (fun _ _ => trivial) ?_
  refine .passed ((Outcome.rejectIf_eq_ok _ _ ()).mpr (by omega)) (fun _ _ => trivial) ?_
  refine .passed ((Outcome.rejectIf_eq_ok _ _ ()).mpr (Nat.not_lt.mpr hcolumns))
    (fun _ _ => trivial) ?_
  refine .passed hencode (fun _ _ => trivial) ?_
  apply Triple.bind _ (checkResultQuota_quota keptByUpkeep_unknown _ quotaMs)
  intro _
  apply Triple.bind (fun _ _ => True)
  · exact (writeSchemaFile_accepts (by omega) (by omega)).weaken (fun _ _ _ => trivial)
      (fun _ _ hnever => hnever.elim) fun _ _ => trivial
  · exact fun _ => .of_pure (fun _ _ => trivial) fun _ _ => rfl

/-! ## Appending -/

theorem ChunksHold.before {bytes : List UInt8} {columns ordinal offset row endOffset endRow : Nat}
    {chunks : List ChunkIndex} {batches : List Wire.RowBatch}
    (hholds : ChunksHold config bytes id columns ordinal offset row chunks batches endOffset endRow) :
    row ≤ endRow ∧ ∀ chunk ∈ chunks,
      chunk.ordinal < ordinal + chunks.length ∧ chunk.startRow < endRow := by
  induction hholds with
  | nil => simp
  | @cons chunk chunks batch _ _ _ hread _ ih =>
    obtain ⟨-, hvalid, hend, hcount⟩ := readChunk_eq_ok_iff.mp hread
    obtain ⟨hrow, hlater⟩ := ih
    have hnonempty := List.length_pos_iff.mpr hvalid.nonempty
    refine ⟨by omega, fun other hother => ?_⟩
    rcases List.mem_cons.mp hother with rfl | hother
    · refine ⟨?_, by omega⟩
      rw [List.length_cons]
      omega
    · obtain ⟨hordinal, hstart⟩ := hlater other hother
      refine ⟨?_, hstart⟩
      rw [List.length_cons]
      omega

/-- What the index has to say for the next chunk of a writer. -/
structure Ready (writer : ResultWriter) (store : ResultStore) : Prop where
  keyed : Rows.Keyed StoredResult.id store.results
  row : ∃ result, store.loadStoredResult writer.id = some result ∧
    result.matchesWriting writer.nextRow writer.committedLength = true
  chunks : ∀ chunk ∈ store.chunks, chunk.resultId = writer.id →
    chunk.index.ordinal ≠ writer.nextOrdinal ∧ chunk.index.startRow ≠ writer.nextRow

theorem LiveAt.matchesWriting {result : StoredResult} {written : Written} {file : ResultFile}
    (hat : LiveAt config store writer result written file) :
    result.matchesWriting writer.nextRow writer.committedLength = true := by
  simp [StoredResult.matchesWriting, hat.writing, hat.rows, hat.length]

theorem Settled.ready (hsettled : Settled config session store)
    (hmember : writer ∈ session.writers) (hpoisoned : writer.poisoned = false) :
    Ready writer store ∧ 5 ≤ writer.committedLength ∧ writer.nextOrdinal ≤ i64Max := by
  obtain ⟨result, written, file, -, hat⟩ := hsettled.live writer hmember hpoisoned
  refine ⟨⟨hsettled.durable.results, ⟨result, hat.found, hat.matchesWriting⟩, ?_⟩, ?_,
    hat.nextOrdinal_le⟩
  · intro chunk hchunk hid
    have hentry : chunk.index ∈ store.entries writer.id :=
      List.mem_map_of_mem (List.mem_filter.mpr ⟨hchunk, decide_eq_true hid⟩)
    obtain ⟨hordinal, hrow⟩ := hat.holds.readsChunks.before.2 chunk.index hentry
    have hlength := hat.ordinal
    have hrows := hat.rows
    omega
  · -- The schema frame is longer than its length in four bytes.
    obtain ⟨_, hframe, -⟩ := (Outcome.bind_eq_ok _ _ _).mp hat.holds.readsSchema
    have hlong : 4 < result.schemaFrameLength := readIndexedFrame_frameLength hframe
    have hoffset := hat.holds.readsChunks.offset_le
    have hlength := hat.length
    omega

theorem commitChunk_accepts {frame : List UInt8} {rows : Nat} (hstart : 5 ≤ writer.committedLength)
    (hordinal : writer.nextOrdinal ≤ i64Max) (hframe : 5 ≤ frame.length) (hrows : 0 < rows)
    (hlength : writer.committedLength + frame.length ≤ i64Max)
    (hend : writer.nextRow + rows ≤ i64Max) :
    Triple (Ready writer) (commitChunk (writer.chunk config frame rows)
        (writer.committedLength + frame.length)) (fun _ _ => True) (fun _ _ => False)
      (fun _ => True) := by
  have hbound : ∀ {value : Nat} (label : String), value ≤ i64Max →
      toSqlI64 value label = .ok () := fun label hvalue =>
    (Outcome.rejectIf_eq_ok _ _ ()).mpr (Nat.not_lt.mpr hvalue)
  refine .passed (hbound _ hordinal) (fun _ _ => trivial) ?_
  refine .passed (hbound _ (Nat.le_trans (Nat.le_add_right _ _) hlength)) (fun _ _ => trivial) ?_
  refine .passed (hbound _ (Nat.le_trans (Nat.le_add_left _ _) hlength)) (fun _ _ => trivial) ?_
  refine .passed (hbound _ (Nat.le_trans (Nat.le_add_right _ _) hend)) (fun _ _ => trivial) ?_
  refine .passed (hbound _ hend) (fun _ _ => trivial) ?_
  refine .passed (hbound _ (Nat.le_trans (Nat.le_add_left _ _) hend)) (fun _ _ => trivial) ?_
  apply Triple.of_state
  intro store hready
  obtain ⟨result, hfound, hmatches⟩ := hready.row
  have hadmitted : store.admitsChunk (writer.chunk config frame rows) := by
    refine ⟨?_, fun other hother hid => hready.chunks other hother hid, hstart, hframe, ?_, hrows,
      config.hash.length_digest frame⟩
    · exact Option.ne_none_iff_exists'.mpr ⟨result, hfound⟩
    · exact Nat.lt_add_of_pos_right hrows
  have hid : result.id = writer.id := (Rows.find_mem hfound).2
  have hchanged : Rows.changed (ResultStore.ownsChunk (writer.chunk config frame rows))
      store.results = 1 := by
    refine Rows.changed_eq_one hready.keyed hfound ?_ ?_
    · exact fun other howns => (ownsChunk_eq_true.mp howns).1
    · simp only [ResultStore.ownsChunk, Bool.and_eq_true, decide_eq_true_eq]
      exact ⟨hid, hmatches⟩
  apply Triple.read_at trivial
  refine .passed ((Outcome.rejectIf_eq_ok _ _ ()).mpr (by simpa using hadmitted))
    (fun _ _ => trivial) ?_
  refine .passed (hbound _ hlength) (fun _ _ => trivial) ?_
  apply Triple.read_at trivial
  refine .passed ((Outcome.rejectIf_eq_ok _ _ ()).mpr (not_not.mpr hchanged)) (fun _ _ => trivial) ?_
  exact .of_perform (fun _ _ => trivial) (fun _ _ => trivial) fun _ _ => trivial

/-- A batch that is valid for its writer is accepted while there is room for numbers. -/
theorem appendBatch_accepts
    (hclock : ∀ result, keep result → quotaMs < result.expiresAtMs)
    (hmember : writer ∈ session.writers) (hpoisoned : writer.poisoned = false)
    (hvalid : ValidBatch config.codec writer.schemaColumns writer.nextRow batch)
    (hpositive : 0 < config.codec.batchLength batch)
    (hlength : writer.committedLength + (4 + config.codec.batchLength batch) ≤ i64Max)
    (hend : writer.nextRow + batch.rows.length ≤ i64Max) :
    Triple (Stable config session keep)
      (appendBatch config writer batch quotaMs session.activeResults)
      (fun next _ => next =
        writer.advance (frameOf (config.codec.encodeBatch batch)) batch.rows.length)
      (fun error _ => error.IsQuota) (fun _ => True) := by
  have hmaximum := hvalid.bytes
  have hu64 : i64Max < u64Max := by decide
  have hframe : (frameOf (config.codec.encodeBatch batch)).length =
      4 + config.codec.batchLength batch := length_frameOf ..
  have hencode : encodeFrame (config.codec.encodeBatch batch) Wire.maxBatchBytes =
      .ok (frameOf (config.codec.encodeBatch batch)) :=
    encodeFrame_eq_ok_iff.mpr ⟨hpositive, hmaximum, Nat.lt_of_le_of_lt hmaximum (by decide), rfl⟩
  refine .passed ((Outcome.rejectIf_eq_ok _ _ ()).mpr (by simp [hpoisoned])) (fun _ _ => trivial) ?_
  have hvalidated : validateBatch config.codec batch writer.nextRow writer.schemaColumns = .ok () :=
    validateBatch_eq_ok_iff.mpr hvalid
  refine .passed hvalidated (fun _ _ => trivial) ?_
  refine .passed hencode (fun _ _ => trivial) ?_
  refine .passed ((Outcome.rejectIf_eq_ok _ _ ()).mpr (by omega)) (fun _ _ => trivial) ?_
  refine .passed ((Outcome.rejectIf_eq_ok _ _ ()).mpr (by omega)) (fun _ _ => trivial) ?_
  have hquota : Triple (Stable config session keep)
      (checkResultQuota config (frameOf (config.codec.encodeBatch batch)).length quotaMs
        session.activeResults) (fun _ => Stable config session keep)
      (fun error _ => error.IsQuota) (fun _ => True) := by
    refine ((checkResultQuota_keeps hclock).both ((checkResultQuota_quota keptByUpkeep_true _
      quotaMs).strengthen fun _ _ => trivial)).weaken ?_ ?_ fun _ _ => trivial
    · exact fun _ _ hstore => hstore.1
    · exact fun _ _ hstore => hstore.2
  apply Triple.bind _ hquota
  intro _
  apply Triple.of_state
  intro store hstable
  obtain ⟨hready, hstart, hordinal⟩ := hstable.settled.ready hmember hpoisoned
  have hbefore : ∀ state, state = store → Ready writer state := by
    rintro _ rfl
    exact hready
  refine Triple.strengthen ?_ hbefore
  -- writing and syncing the file leave the tables of the store alone
  have hfiles : ∀ step, (∀ state : ResultStore, (state.apply step).results = state.results ∧
      (state.apply step).chunks = state.chunks) →
      ∀ state, Ready writer state → Ready writer (state.apply step) := by
    intro step hsame state hstate
    obtain ⟨hresults, hchunks⟩ := hsame state
    obtain ⟨hkeyed, hrow, hbefore⟩ := hstate
    refine ⟨hresults ▸ hkeyed, ?_, hchunks ▸ hbefore⟩
    unfold ResultStore.loadStoredResult
    rw [hresults]
    exact hrow
  apply Triple.bind _ (perform_index (hfiles _ fun _ => ⟨rfl, rfl⟩))
  intro _
  apply Triple.bind _ (perform_index (hfiles _ fun _ => ⟨rfl, rfl⟩))
  intro _
  apply Triple.bind (fun _ _ => True)
  · have hlong : 5 ≤ (frameOf (config.codec.encodeBatch batch)).length := by omega
    have hcommit : Triple (Ready writer)
        (commitChunk (writer.chunk config (frameOf (config.codec.encodeBatch batch))
          batch.rows.length)
          (writer.committedLength + (frameOf (config.codec.encodeBatch batch)).length))
        (fun _ _ => True) (fun _ _ => False) (fun _ => True) :=
      commitChunk_accepts hstart hordinal hlong (List.length_pos_iff.mpr hvalid.nonempty)
        (by omega) hend
    apply Triple.bind _ hcommit.attempt
    intro committed
    cases committed with
    | ok _ => exact .of_pure (fun _ _ => trivial) fun _ _ => trivial
    | error error => exact fun _ hnever => hnever.elim
  intro _
  refine .passed ((Outcome.rejectIf_eq_ok _ _ ()).mpr (by omega)) (fun _ _ => trivial) ?_
  exact .of_pure (fun _ _ => trivial) fun _ _ => rfl

/-! ## Finishing -/

/-- A completion with the number of the appended rows is accepted. -/
theorem finish_accepts (hmember : writer ∈ session.writers) (hpoisoned : writer.poisoned = false)
    (hrows : completed.rowCount.toNat = writer.nextRow) :
    Triple (Stable config session keep) (finish writer completed)
      (fun metadata _ => metadata.rowCount = completed.rowCount.toNat) (fun _ _ => False)
      (fun _ => True) := by
  have hcommit : Triple (Stable config session keep)
      (commitCompletion writer.id completed writer.committedLength) (fun _ _ => True)
      (fun _ _ => False) (fun _ => True) := by
    apply Triple.of_state
    intro store hstable
    obtain ⟨result, written, file, -, hat⟩ := hstable.settled.live writer hmember hpoisoned
    have hid : result.id = writer.id := (Rows.find_mem hat.found).2
    have hchanged : Rows.changed
        (ResultStore.ownsCompletion writer.id completed writer.committedLength)
        store.results = 1 := by
      refine Rows.changed_eq_one hstable.settled.durable.results hat.found ?_ ?_
      · exact fun other howns => (ownsCompletion_eq_true.mp howns).1
      · exact ownsCompletion_eq_true.mpr ⟨hid, hat.writing, hat.rows.trans hrows.symm, hat.length⟩
    refine .passed ((Outcome.rejectIf_eq_ok _ _ ()).mpr ?_) (fun _ _ => trivial) ?_
    · rw [hrows]
      exact Nat.not_lt.mpr hat.range.2
    refine .passed ((Outcome.rejectIf_eq_ok _ _ ()).mpr (Nat.not_lt.mpr hat.range.1))
      (fun _ _ => trivial) ?_
    apply Triple.read_at trivial
    refine .passed ((Outcome.rejectIf_eq_ok _ _ ()).mpr (not_not.mpr hchanged))
      (fun _ _ => trivial) ?_
    exact .of_perform (fun _ _ => trivial) (fun _ _ => trivial) fun _ _ => trivial
  have hcomplete : Triple (Stable config session keep) (completeResult writer completed)
      (fun metadata _ => metadata.rowCount = completed.rowCount.toNat) (fun _ _ => False)
      (fun _ => True) := by
    refine .passed ((Outcome.rejectIf_eq_ok _ _ ()).mpr (by simp [hpoisoned]))
      (fun _ _ => trivial) ?_
    refine .passed ((Outcome.rejectIf_eq_ok _ _ ()).mpr (not_not.mpr hrows)) (fun _ _ => trivial) ?_
    apply Triple.bind _ hcommit.attempt
    intro committed
    cases committed with
    | ok _ => exact .of_pure (fun _ _ => trivial) fun _ _ => rfl
    | error error => exact fun _ hnever => hnever.elim
  apply Triple.bind _ hcomplete.attempt
  intro result
  cases result with
  | ok metadata => exact .of_pure (fun _ _ => trivial) fun _ hstore => hstore
  | error error => exact fun _ hnever => hnever.elim

end Chat2DB.Results
