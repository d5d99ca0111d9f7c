import Chat2DB.Results.Upkeep

/-! # Appending keeps the store

A frame is written behind the committed bytes and synced before its chunk is
committed. Until the row, the record and the writer agree again, the writer
counts as poisoned, so that a failure on the way needs nothing of it.
-/

namespace Chat2DB.Results

open Storage (i64Max u64Max)
open Stepwise (Triple)

variable {config : StoreConfig} {session : Session} {store : ResultStore} {id : ResultId}
  {keep : StoredResult → Prop} {payload : List UInt8} {writer : ResultWriter}
  {batch : Wire.RowBatch} {result : StoredResult} {written : Written} {file : ResultFile}
  {history : List Written} {next : ResultStore}

/-- The result after a batch. -/
def StoredResult.advance (result : StoredResult) (frame : List UInt8) (rows : Nat) : StoredResult :=
  { result with
    committedLength := result.committedLength + frame.length
    rowCount := result.rowCount + rows }

/-- A file with one more frame holds one more batch. -/
theorem LiveAt.holds_append (hat : LiveAt config store writer result written file)
    (hvalid : ValidBatch config.codec writer.schemaColumns writer.nextRow batch)
    (hpositive : 0 < payload.length) (hmaximum : payload.length ≤ Wire.maxBatchBytes)
    (hdecode : config.codec.decodeBatch payload = some batch) :
    BytesHold config (file.bytes ++ frameOf payload)
      (result.advance (frameOf payload) batch.rows.length)
      (store.entries writer.id ++ [(writer.chunk config (frameOf payload) batch.rows.length).index])
      written.schema (written.batches ++ [batch]) := by
  have hid : result.id = writer.id := (Rows.find_mem hat.found).2
  have hlength : file.bytes.length = result.committedLength := hat.exact.trans hat.length.symm
  have hfront : BytesHold config (file.bytes ++ frameOf payload) result (store.entries writer.id)
      written.schema written.batches := by
    refine hat.holds.of_take (Nat.le_of_eq hlength.symm) ?_ ?_
    · rw [List.length_append]
      omega
    · rw [← hlength, List.take_left, List.take_length]
  have hframe : readIndexedFrame config.hash config.codec.decodeBatch
      (file.bytes ++ frameOf payload ++ []) result.id file.bytes.length (frameOf payload).length
      (config.hash.digest (frameOf payload)) Wire.maxBatchBytes = .ok batch :=
    readIndexedFrame_frameOf hpositive hmaximum (Nat.lt_of_le_of_lt hmaximum (by decide)) hdecode
  rw [List.append_nil, hat.exact] at hframe
  have hread : readChunk config (file.bytes ++ frameOf payload) result.id
      written.schema.columns.length
      (writer.chunk config (frameOf payload) batch.rows.length).index = .ok batch := by
    rw [hat.columns]
    exact readChunk_eq_ok_iff.mpr ⟨hframe, hvalid, rfl, rfl⟩
  have hchunks := hfront.readsChunks.concat hread
    (by rw [Nat.zero_add]; exact hat.ordinal.symm) hat.length.symm hat.rows.symm
  refine ⟨hfront.readsSchema, ?_⟩
  have hrows : (writer.chunk config (frameOf payload) batch.rows.length).index.endRowExclusive =
      result.rowCount + batch.rows.length := by
    rw [hat.rows]
    rfl
  rw [hrows] at hchunks
  exact hchunks

theorem find_record {change : Written → Written}
    (hchange : ∀ written, (change written).id = written.id) (other : ResultId) :
    Rows.find Written.id other
        (Rows.update (fun written => decide (written.id = id)) change history) =
      (Rows.find Written.id other history).map fun written =>
        if written.id = id then change written else written := by
  rw [Rows.find_update hchange]
  simp only [decide_eq_true_eq]

theorem find_record_self (change : Written → Written)
    (hchange : ∀ written, (change written).id = written.id)
    (hwritten : Rows.find Written.id id history = some written) :
    Rows.find Written.id id
        (Rows.update (fun written => decide (written.id = id)) change history) =
      some (change written) := by
  rw [find_record hchange, hwritten, Option.map_some, if_pos (Rows.find_mem hwritten).2]

theorem find_record_ne {change : Written → Written}
    (hchange : ∀ written, (change written).id = written.id) {other : ResultId}
    (hother : other ≠ id) :
    Rows.find Written.id other
        (Rows.update (fun written => decide (written.id = id)) change history) =
      Rows.find Written.id other history := by
  rw [find_record hchange]
  cases hfound : Rows.find Written.id other history with
  | none => rfl
  | some written =>
    rw [Option.map_some, if_neg]
    exact fun hid => hother ((Rows.find_mem hfound).2.symm.trans hid)

theorem Settled.record (hsettled : Settled config session store) (change : Written → Written)
    (hchange : ∀ written, (change written).id = written.id)
    (hfree : ¬ Tracked session store id) : Settled config (session.record id change) store := by
  refine hsettled.with_history ?_ ?_
  · intro other htracked
    refine find_record_ne hchange ?_
    rintro rfl
    exact hfree htracked
  · intro other hother
    rw [find_record hchange]
    simpa using hother

theorem LiveAt.load_commitChunk (hat : LiveAt config store writer result written file)
    (frame : List UInt8) (rows : Nat) :
    (store.apply (.commitChunk (writer.chunk config frame rows)
        (writer.committedLength + frame.length))).loadStoredResult writer.id =
      some (result.advance frame rows) := by
  have howns : ResultStore.ownsChunk (writer.chunk config frame rows) result = true :=
    ownsChunk_eq_true.mpr ⟨(Rows.find_mem hat.found).2, hat.writing, hat.rows, hat.length⟩
  rw [Chat2DB.Results.load_commitChunk, hat.found, Option.map_some, if_pos howns]
  simp only [StoredResult.advance, ResultWriter.chunk, hat.length, hat.rows]

/-- Committing the chunk of a synced frame takes its writer on. -/
theorem Staged.commitChunk (hkeyed : Rows.Keyed ResultWriter.id session.writers)
    (hwriter : writer ∈ session.writers) (hat : LiveAt config store writer result written file)
    (hwritten : Rows.find Written.id writer.id session.history = some written)
    (hvalid : ValidBatch config.codec writer.schemaColumns writer.nextRow batch)
    (hpositive : 0 < payload.length) (hmaximum : payload.length ≤ Wire.maxBatchBytes)
    (hdecode : config.codec.decodeBatch payload = some batch)
    (hlength : writer.committedLength + (frameOf payload).length ≤ i64Max)
    (hrows : writer.nextRow + batch.rows.length ≤ i64Max)
    (hstaged : Staged config (session.poison writer.id) keep
      (ResultFile.settled writer.id (file.bytes ++ frameOf payload)) next)
    (hresults : next.results = store.results) (hchunks : next.chunks = store.chunks) :
    Stable config (session.appended (writer.advance (frameOf payload) batch.rows.length) batch) keep
      (next.apply (.commitChunk (writer.chunk config (frameOf payload) batch.rows.length)
        (writer.committedLength + (frameOf payload).length))) := by
  have hfound : next.loadStoredResult writer.id = some result := by
    unfold ResultStore.loadStoredResult
    rw [hresults]
    exact hat.found
  have hentries : next.entries writer.id = store.entries writer.id := by
    unfold ResultStore.entries
    rw [hchunks]
  have hload : (next.apply (.commitChunk
      (writer.chunk config (frameOf payload) batch.rows.length)
      (writer.committedLength + (frameOf payload).length))).loadStoredResult writer.id =
      some (result.advance (frameOf payload) batch.rows.length) := by
    rw [← hat.load_commitChunk]
    unfold ResultStore.loadStoredResult ResultStore.apply ResultStore.updateResults
    rw [hresults]
  -- The writer counts as poisoned until the row, the record and the writer agree again.
  have hcommitted := hstaged.stable.settled.commitChunk
    (writer.chunk config (frameOf payload) batch.rows.length)
    (writer.committedLength + (frameOf payload).length) hstaged.untracked
    (Option.ne_none_iff_exists'.mpr ⟨result, hfound⟩)
  have hrecorded := hcommitted.record
    (fun written => { written with batches := written.batches ++ [batch] })
    (fun _ => rfl) (hcommitted.not_tracked_poison hwriter rfl)
  have hlive : Live config (session.record writer.id fun written =>
      { written with batches := written.batches ++ [batch] }).history
      (next.apply (.commitChunk (writer.chunk config (frameOf payload) batch.rows.length)
        (writer.committedLength + (frameOf payload).length)))
      (writer.advance (frameOf payload) batch.rows.length) := by
    refine ⟨result.advance (frameOf payload) batch.rows.length,
      { written with batches := written.batches ++ [batch] },
      ResultFile.settled writer.id (file.bytes ++ frameOf payload), ?_, ?_⟩
    · exact find_record_self (fun written => { written with batches := written.batches ++ [batch] })
        (fun _ => rfl) hwritten
    · have hlist : (next.apply (.commitChunk
          (writer.chunk config (frameOf payload) batch.rows.length)
          (writer.committedLength + (frameOf payload).length))).entries writer.id =
          store.entries writer.id ++
            [(writer.chunk config (frameOf payload) batch.rows.length).index] := by
        rw [entries_commitChunk, hentries]
        exact congrArg (store.entries writer.id ++ ·) (if_pos rfl)
      exact
        { found := hload
          writing := hat.writing
          length := congrArg (· + (frameOf payload).length) hat.length
          rows := congrArg (· + batch.rows.length) hat.rows
          expires := hat.expires
          unfinished := hat.unfinished
          columns := hat.columns
          ordinal := by
            rw [show (writer.advance (frameOf payload) batch.rows.length).id = writer.id from rfl,
              hlist, List.length_append, hat.ordinal]
            rfl
          opens := hstaged.found
          linked := rfl
          synced := rfl
          exact := by
            simp only [ResultFile.settled, List.length_append, hat.exact, ResultWriter.advance]
          range := ⟨hlength, hrows⟩
          holds := by
            have hholds := hat.holds_append hvalid hpositive hmaximum hdecode
            rw [← hlist] at hholds
            exact hholds }
  refine ⟨hrecorded.with_writers (hkeyed.update_at ?_) ?_, ?_⟩
  · intro row hrow
    exact (of_decide_eq_true hrow).symm
  · intro other hother
    obtain ⟨old, hold, rfl⟩ := Rows.mem_update.mp hother
    split
    · exact .inr (.inl hlive)
    · rename_i hapart
      exact .inl (Rows.mem_update_of_not hold (Bool.eq_false_iff.mpr hapart))
  · intro row hrow
    obtain ⟨hmem, hcomplete⟩ := hstaged.stable.protects row hrow
    refine ⟨Rows.mem_update_of_not hmem ?_, hcomplete⟩
    rw [Bool.eq_false_iff]
    intro howns
    rw [(ownsChunk_eq_true.mp howns).2.1] at hcomplete
    cases hcomplete

theorem Stable.safe_appended {next : ResultWriter}
    (hstable : Stable config (session.appended next batch) keep store)
    (hwriter : writer ∈ session.writers) (hid : next.id = writer.id) :
    Safe config session.history keep store := by
  have hmem : next ∈ (session.appended next batch).writers :=
    Rows.mem_update.mpr ⟨writer, hwriter, by simp [hid]⟩
  refine hstable.safe_of_writer hmem ?_
  intro other hother
  refine (find_record_ne ?_ hother).symm
  exact fun _ => rfl

/-- The store, the writer and the batch when a frame has been written and synced. -/
structure Synced (config : StoreConfig) (session : Session) (keep : StoredResult → Prop)
    (writer : ResultWriter) (batch : Wire.RowBatch) (payload : List UInt8) (next : ResultStore) :
    Prop where
  keyed : Rows.Keyed ResultWriter.id session.writers
  member : writer ∈ session.writers
  valid : ValidBatch config.codec writer.schemaColumns writer.nextRow batch
  positive : 0 < payload.length
  maximum : payload.length ≤ Wire.maxBatchBytes
  decode : config.codec.decodeBatch payload = some batch
  staged : ∃ store result written file, LiveAt config store writer result written file ∧
    Rows.find Written.id writer.id session.history = some written ∧
    Staged config (session.poison writer.id) keep
      (ResultFile.settled writer.id (file.bytes ++ frameOf payload)) next ∧
    next.results = store.results ∧ next.chunks = store.chunks

theorem Synced.poisoned (hsynced : Synced config session keep writer batch payload next) :
    Stable config (session.poison writer.id) keep next := by
  obtain ⟨_, _, _, _, -, -, hstaged, -⟩ := hsynced.staged
  exact hstaged.stable

theorem commitChunk_keeps :
    Triple (Synced config session keep writer batch payload)
      (commitChunk (writer.chunk config (frameOf payload) batch.rows.length)
        (writer.committedLength + (frameOf payload).length))
      (fun _ => Stable config
        (session.appended (writer.advance (frameOf payload) batch.rows.length) batch) keep)
      (fun _ => Synced config session keep writer batch payload)
      (Safe config session.history keep) := by
  have hsafe : ∀ store, Synced config session keep writer batch payload store →
      Safe config session.history keep store := fun _ hstore => hstore.poisoned.safe
  refine Triple.check hsafe (fun _ _ hstore => hstore) fun _ _ => ?_
  refine Triple.check hsafe (fun _ _ hstore => hstore) fun _ _ => ?_
  refine Triple.check hsafe (fun _ _ hstore => hstore) fun _ _ => ?_
  refine Triple.check hsafe (fun _ _ hstore => hstore) fun _ _ => ?_
  refine Triple.check hsafe (fun _ _ hstore => hstore) fun _ hrows => ?_
  refine Triple.check hsafe (fun _ _ hstore => hstore) fun _ _ => ?_
  refine .bind _ (.of_read hsafe) fun admitted => ?_
  refine Triple.check (fun _ hstore => hsafe _ hstore.1) (fun _ _ hstore => hstore.1) fun _ _ => ?_
  refine Triple.check (fun _ hstore => hsafe _ hstore.1) (fun _ _ hstore => hstore.1)
    fun _ hlength => ?_
  refine .bind _ (.of_read fun _ hstore => hsafe _ hstore.1) fun changed => ?_
  refine Triple.check (fun _ hstore => hsafe _ hstore.1.1) (fun _ _ hstore => hstore.1.1)
    fun _ _ => ?_
  have hcommitted : ∀ next, Synced config session keep writer batch payload next →
      Stable config (session.appended (writer.advance (frameOf payload) batch.rows.length) batch)
        keep (next.apply (.commitChunk (writer.chunk config (frameOf payload) batch.rows.length)
          (writer.committedLength + (frameOf payload).length))) := by
    intro next hsynced
    obtain ⟨_, _, _, _, hat, hwritten, hstaged, hresults, hchunks⟩ := hsynced.staged
    exact hstaged.commitChunk hsynced.keyed hsynced.member hat hwritten hsynced.valid
      hsynced.positive hsynced.maximum hsynced.decode
      (Nat.not_lt.mp ((Outcome.rejectIf_eq_ok _ _ _).mp hlength))
      (Nat.not_lt.mp ((Outcome.rejectIf_eq_ok _ _ _).mp hrows)) hresults hchunks
  refine .of_perform (fun _ hstore => hsafe _ hstore.1.1) (fun next hstore => ?_)
    fun next hstore => hcommitted next hstore.1.1
  exact (hcommitted next hstore.1.1).safe_appended hstore.1.1.member rfl

/-- A chunk that was not committed is not found. -/
theorem Synced.not_applied (hsynced : Synced config session keep writer batch payload next) :
    next.verifyChunkCommit (writer.chunk config (frameOf payload) batch.rows.length)
      (writer.committedLength + (frameOf payload).length) ≠ .ok .applied := by
  obtain ⟨store, result, _, _, hat, -, -, hresults, -⟩ := hsynced.staged
  have hfound : next.loadStoredResult writer.id = some result := by
    unfold ResultStore.loadStoredResult
    rw [hresults]
    exact hat.found
  have hrows := List.length_pos_iff.mpr hsynced.valid.nonempty
  have hbefore : result.matchesWriting (writer.nextRow + batch.rows.length)
      (writer.committedLength + (frameOf payload).length) = false := by
    simp only [StoredResult.matchesWriting, hat.rows, hat.length, length_frameOf]
    simp [Nat.ne_of_gt hrows]
  have hmismatch : ∀ other : Prop, ¬ (result.matchesWriting
      (writer.chunk config (frameOf payload) batch.rows.length).index.endRowExclusive
      (writer.committedLength + (frameOf payload).length) = true ∧ other) := by
    rintro other ⟨hmatches, -⟩
    exact absurd (hbefore.symm.trans hmatches) (by decide)
  intro happlied
  obtain ⟨_, -, happlied⟩ := (Outcome.bind_eq_ok _ _ _).mp happlied
  rw [show (writer.chunk config (frameOf payload) batch.rows.length).resultId = writer.id from rfl,
    hfound] at happlied
  cases hchunk : next.loadChunk writer.id
      (writer.chunk config (frameOf payload) batch.rows.length).index.ordinal with
  | some stored =>
    rw [hchunk] at happlied
    simp only at happlied
    rw [if_neg (hmismatch _)] at happlied
    cases happlied
  | none =>
    rw [hchunk] at happlied
    simp only at happlied
    split at happlied <;> cases happlied

theorem commitChunkVerified_keeps (hmember : writer ∈ session.writers) :
    Triple (Synced config session keep writer batch payload)
      (commitChunkVerified (writer.chunk config (frameOf payload) batch.rows.length)
        (writer.committedLength + (frameOf payload).length))
      (fun _ => Stable config
        (session.appended (writer.advance (frameOf payload) batch.rows.length) batch) keep)
      (fun _ => Stable config (session.poison writer.id) keep)
      (Safe config session.history keep) := by
  refine .bind _ (.attempt commitChunk_keeps) fun committed => ?_
  cases committed with
  | ok _ =>
    exact .of_pure (fun _ hstore => hstore.safe_appended hmember rfl) fun _ hstore => hstore
  | error error =>
    refine .bind _ (.of_read fun _ hstore => hstore.poisoned.safe) fun verified => ?_
    have hfail : ∀ error : ResultError, Triple
        (fun next => Synced config session keep writer batch payload next ∧
          verified = next.verifyChunkCommit
            (writer.chunk config (frameOf payload) batch.rows.length)
            (writer.committedLength + (frameOf payload).length))
        (Stepwise.fail error : StoreM Unit)
        (fun _ => Stable config
          (session.appended (writer.advance (frameOf payload) batch.rows.length) batch) keep)
        (fun _ => Stable config (session.poison writer.id) keep)
        (Safe config session.history keep) := fun _ =>
      .of_fail (fun _ hstore => hstore.1.poisoned.safe) fun _ hstore => hstore.1.poisoned
    cases verified with
    | error _ => exact hfail _
    | ok commit =>
      cases commit with
      | applied =>
        rintro next ⟨hsynced, happlied⟩
        exact absurd happlied.symm hsynced.not_applied
      | notApplied => exact hfail _
      | diverged => exact hfail _

theorem LiveAt.write_sync (hat : LiveAt config store writer result written file)
    (frame : List UInt8) :
    (file.write writer.committedLength frame).sync =
      ResultFile.settled writer.id (file.bytes ++ frame) := by
  have hid : file.id = writer.id := (Rows.find_mem hat.opens).2
  have hkept : file.bytes.takeD writer.committedLength 0 = file.bytes := by
    rw [← hat.exact, List.takeD_eq_take _ (Nat.le_refl _), List.take_length]
  have hrest : file.bytes.drop (writer.committedLength + frame.length) = [] :=
    List.drop_of_length_le (by rw [hat.exact]; omega)
  unfold ResultFile.write ResultFile.sync ResultFile.settled
  simp only [hkept, hrest, List.append_nil, hid, hat.linked]

theorem LiveAt.nextOrdinal_le (hat : LiveAt config store writer result written file) :
    writer.nextOrdinal ≤ i64Max := by
  have hordinal := hat.holds.readsChunks.ordinal_le
  have hlength := hat.length
  have hrange := hat.range.1
  rw [hat.ordinal] at hordinal
  omega

/-- Writing and syncing a frame behind the committed bytes. -/
theorem Stable.synced (hstable : Stable config session keep store)
    (hmember : writer ∈ session.writers) (hpoisoned : writer.poisoned = false)
    (hvalid : ValidBatch config.codec writer.schemaColumns writer.nextRow batch)
    (hpositive : 0 < payload.length) (hmaximum : payload.length ≤ Wire.maxBatchBytes)
    (hdecode : config.codec.decodeBatch payload = some batch) :
    Safe config session.history keep
        (store.apply (.writeFile writer.id writer.committedLength (frameOf payload))) ∧
      Synced config session keep writer batch payload
        ((store.apply (.writeFile writer.id writer.committedLength (frameOf payload))).apply
          (.syncFile writer.id)) := by
  obtain ⟨result, written, file, hwritten, hat⟩ := hstable.settled.live writer hmember hpoisoned
  have hid : file.id = writer.id := (Rows.find_mem hat.opens).2
  have hpoison := hstable.settled.poison writer.id
  have hstaged : Staged config (session.poison writer.id) keep file store := by
    refine ⟨⟨hpoison, hstable.protects⟩, ?_, ?_⟩
    · rw [hid]
      exact hpoison.not_tracked_poison hmember rfl
    · rw [hid]
      exact hat.opens
  have hwrite : ∀ file, (ResultFile.write writer.committedLength (frameOf payload) file).id =
      file.id := fun _ => rfl
  have hsync : ∀ file, (ResultFile.sync file).id = file.id := fun _ => rfl
  have hwrote := hstaged.updateFile hwrite
  have hsynced := hwrote.updateFile hsync
  rw [hwrite, hid] at hsynced
  rw [hid] at hwrote
  refine ⟨hwrote.stable.safe, hstable.settled.writers, hmember, hvalid, hpositive, hmaximum, hdecode,
    store, result, written, file, hat, hwritten, ?_, rfl, rfl⟩
  rw [← hat.write_sync]
  exact hsynced

theorem appendBatch_keeps {quotaMs : Int}
    (hclock : ∀ result, keep result → quotaMs < result.expiresAtMs)
    (hmember : writer ∈ session.writers)
    (hdecode : config.codec.decodeBatch (config.codec.encodeBatch batch) = some batch) :
    Triple (Stable config session keep)
      (appendBatch config writer batch quotaMs session.activeResults)
      (fun next => Stable config (session.appended next batch) keep)
      (fun _ => Stable config (session.poison writer.id) keep)
      (Safe config session.history keep) := by
  have hpoison : ∀ store, Stable config session keep store →
      Stable config (session.poison writer.id) keep store :=
    fun _ hstore => ⟨hstore.settled.poison writer.id, hstore.protects⟩
  refine Triple.check (fun _ hstore => hstore.safe) (fun _ _ => hpoison _) fun _ hpoisoned => ?_
  refine Triple.check (fun _ hstore => hstore.safe) (fun _ _ => hpoison _) fun _ hvalid => ?_
  refine Triple.check (fun _ hstore => hstore.safe) (fun _ _ => hpoison _) fun frame hframe => ?_
  refine Triple.check (fun _ hstore => hstore.safe) (fun _ _ => hpoison _) fun _ _ => ?_
  refine Triple.check (fun _ hstore => hstore.safe) (fun _ _ => hpoison _) fun _ _ => ?_
  obtain ⟨hpositive, hmaximum, -, rfl⟩ := encodeFrame_eq_ok_iff.mp hframe
  have hsynced := fun store (hstore : Stable config session keep store) =>
    hstore.synced hmember (by simpa using (Outcome.rejectIf_eq_ok _ _ _).mp hpoisoned)
      (validateBatch_eq_ok_iff.mp hvalid) hpositive hmaximum hdecode
  refine .bind _ ((checkResultQuota_keeps hclock).weaken (fun _ _ hstore => hstore)
    (fun _ _ => hpoison _) fun _ hstore => hstore) fun _ => ?_
  refine .of_state fun store hstore => ?_
  refine .bind (fun _ next => next = store.apply
    (.writeFile writer.id writer.committedLength (frameOf (config.codec.encodeBatch batch)))) ?_
    fun _ => ?_
  · refine .of_perform ?_ ?_ ?_
    · rintro _ rfl
      exact hstore.safe
    · rintro _ rfl
      exact (hsynced _ hstore).1
    · rintro _ rfl
      rfl
  refine .bind (fun _ => Synced config session keep writer batch (config.codec.encodeBatch batch))
    ?_ fun _ => ?_
  · refine .of_perform ?_ ?_ ?_
    · rintro _ rfl
      exact (hsynced _ hstore).1
    · rintro _ rfl
      exact (hsynced _ hstore).2.poisoned.safe
    · rintro _ rfl
      exact (hsynced _ hstore).2
  refine .bind _ (commitChunkVerified_keeps hmember) fun _ => ?_
  refine Triple.passed ((Outcome.rejectIf_eq_ok _ _ ()).mpr ?_)
    (fun _ hstore => hstore.safe_appended hmember rfl) ?_
  · obtain ⟨_, _, _, -, hat⟩ := hstore.settled.live writer hmember
      (by simpa using (Outcome.rejectIf_eq_ok _ _ _).mp hpoisoned)
    have hordinal := hat.nextOrdinal_le
    have hu64 : i64Max < u64Max := by decide
    omega
  · exact .of_pure (fun _ hstore => hstore.safe_appended hmember rfl) fun _ hstore => hstore

end Chat2DB.Results
