import Chat2DB.Results.Pages
import Chat2DB.Results.Session

/-! # What the store keeps

Two invariants carry the result store. `Durable` holds at every moment, also
between the steps of an operation: the index never runs ahead of what is synced,
so that a crash leaves every completed result whole. `Settled` holds between
operations and adds what the live writers and the readers rely on.
-/

namespace Chat2DB.Results

open Storage (i64Max)

variable {config : StoreConfig} {store next : ResultStore} {session : Session}
  {history : List Written} {result : StoredResult} {written : Written} {bytes : List UInt8}
  {batches : List Wire.RowBatch} {writer : ResultWriter} {change : ResultFile → ResultFile}
  {chunk : ResultChunk}

/-! ## Chunks of a result -/

/-- The index entries of a result in the order in which they were committed. -/
def ResultStore.entries (store : ResultStore) (id : ResultId) : List ChunkIndex :=
  (store.chunks.filter fun chunk => decide (chunk.resultId = id)).map ResultChunk.index

theorem ChunksHold.pairwise {id : ResultId}
    {columns ordinal offset row endOffset endRow : Nat} {chunks : List ChunkIndex}
    (hholds : ChunksHold config bytes id columns ordinal offset row chunks batches endOffset endRow) :
    chunks.Pairwise (fun left right => left.ordinal ≤ right.ordinal) ∧
      ∀ chunk ∈ chunks, ordinal ≤ chunk.ordinal := by
  induction hholds with
  | nil => simp
  | @cons chunk chunks _ _ _ _ _ _ ih =>
    obtain ⟨hpairwise, hlater⟩ := ih
    have hafter : ∀ other ∈ chunks, chunk.ordinal ≤ other.ordinal := fun other hother =>
      Nat.le_of_succ_le (hlater other hother)
    refine ⟨List.pairwise_cons.mpr ⟨hafter, hpairwise⟩, ?_⟩
    intro other hother
    rcases List.mem_cons.mp hother with rfl | hother
    · exact Nat.le_refl _
    · exact hafter other hother

theorem BytesHold.loadAllChunks_eq {schema : Wire.QueryStarted}
    (hholds : BytesHold config bytes result (store.entries result.id) schema batches) :
    store.loadAllChunks result.id = store.entries result.id :=
  hholds.readsChunks.pairwise.1.insertionSort_eq

theorem BytesHold.of_take {other : List UInt8} {chunks : List ChunkIndex}
    {schema : Wire.QueryStarted} (hholds : BytesHold config bytes result chunks schema batches)
    (hbytes : result.committedLength ≤ bytes.length)
    (hother : result.committedLength ≤ other.length)
    (hsame : other.take result.committedLength = bytes.take result.committedLength) :
    BytesHold config other result chunks schema batches := by
  have hchunks := hholds.readsChunks.of_take (Nat.le_refl _) hbytes hother hsame
  refine ⟨?_, hchunks⟩
  have hschema := hholds.readsSchema
  unfold readSchema at hschema ⊢
  have hbound : 0 + result.schemaFrameLength ≤ result.committedLength := by
    rw [Nat.zero_add]
    exact hholds.readsChunks.offset_le
  rw [← readIndexedFrame_take hbound hother, hsame, readIndexedFrame_take hbound hbytes]
  exact hschema

/-! ## Invariants -/

/-- The synced part of a file holds what was written to a result. -/
structure Kept (config : StoreConfig) (store : ResultStore) (result : StoredResult)
    (written : Written) : Prop where
  expires : result.expiresAtMs = written.expiresAtMs
  length : result.committedLength ≤ i64Max
  rows : result.rowCount ≤ i64Max
  file : ∃ file, store.findFile result.id = some file ∧ file.linked = true ∧
    result.committedLength ≤ file.synced ∧ file.synced ≤ file.bytes.length ∧
    BytesHold config file.bytes result (store.entries result.id) written.schema written.batches

/-- What holds at every moment. -/
structure Durable (config : StoreConfig) (history : List Written) (store : ResultStore) :
    Prop where
  results : Rows.Keyed StoredResult.id store.results
  files : Rows.Keyed ResultFile.id store.files
  owned : ∀ chunk ∈ store.chunks, store.loadStoredResult chunk.resultId ≠ none
  versions : ∀ result ∈ store.results, result.formatVersion = resultFormatVersion
  complete : ∀ result ∈ store.results, result.state = .complete →
    ∃ written, Rows.find Written.id result.id history = some written ∧
      Kept config store result written

/-- The row, the record and the file of a writer that may go on. -/
structure LiveAt (config : StoreConfig) (store : ResultStore) (writer : ResultWriter)
    (result : StoredResult) (written : Written) (file : ResultFile) : Prop where
  found : store.loadStoredResult writer.id = some result
  writing : result.state = .writing
  length : result.committedLength = writer.committedLength
  rows : result.rowCount = writer.nextRow
  expires : result.expiresAtMs = writer.expiresAtMs ∧ written.expiresAtMs = writer.expiresAtMs
  unfinished : written.completion = none
  columns : written.schema.columns.length = writer.schemaColumns
  ordinal : (store.entries writer.id).length = writer.nextOrdinal
  opens : store.findFile writer.id = some file
  linked : file.linked = true
  synced : file.synced = file.bytes.length
  exact : file.bytes.length = writer.committedLength
  range : writer.committedLength ≤ i64Max ∧ writer.nextRow ≤ i64Max
  holds : BytesHold config file.bytes result (store.entries writer.id) written.schema
    written.batches

def Live (config : StoreConfig) (history : List Written) (store : ResultStore)
    (writer : ResultWriter) : Prop :=
  ∃ result written file, Rows.find Written.id writer.id history = some written ∧
    LiveAt config store writer result written file

/-- What holds between operations. -/
structure Settled (config : StoreConfig) (session : Session) (store : ResultStore) : Prop where
  durable : Durable config session.history store
  exact : ∀ result ∈ store.results, result.state = .complete →
    ∀ file, store.findFile result.id = some file → file.bytes.length = result.committedLength
  recorded : ∀ id, store.loadStoredResult id ≠ none →
    Rows.find Written.id id session.history ≠ none
  writers : Rows.Keyed ResultWriter.id session.writers
  known : ∀ writer ∈ session.writers, Rows.find Written.id writer.id session.history ≠ none
  writing : ∀ writer ∈ session.writers, ∀ result,
    store.loadStoredResult writer.id = some result → result.state = .writing
  live : ∀ writer ∈ session.writers, writer.poisoned = false →
    Live config session.history store writer

/-- The results that have to be left alone: completed ones and those of live writers. -/
def Tracked (session : Session) (store : ResultStore) (id : ResultId) : Prop :=
  (∃ result, store.loadStoredResult id = some result ∧ result.state = .complete) ∨
    ∃ writer ∈ session.writers, writer.id = id ∧ writer.poisoned = false

/-! ## Frame -/

/-- Nothing about a result differs between two stores. -/
structure Untouched (store next : ResultStore) (id : ResultId) : Prop where
  found : next.loadStoredResult id = store.loadStoredResult id
  entries : next.entries id = store.entries id
  file : next.findFile id = store.findFile id

theorem Kept.untouched (hkept : Kept config store result written)
    (huntouched : Untouched store next result.id) : Kept config next result written := by
  obtain ⟨file, hfile, hrest⟩ := hkept.file
  refine ⟨hkept.expires, hkept.length, hkept.rows, file, ?_, ?_⟩
  · rw [huntouched.file]
    exact hfile
  · rw [huntouched.entries]
    exact hrest

theorem Live.untouched (hlive : Live config history store writer)
    (huntouched : Untouched store next writer.id) : Live config history next writer := by
  obtain ⟨result, written, file, hwritten, hat⟩ := hlive
  refine ⟨result, written, file, hwritten,
    { hat with found := ?_, ordinal := ?_, opens := ?_, holds := ?_ }⟩
  · rw [huntouched.found]
    exact hat.found
  · rw [huntouched.entries]
    exact hat.ordinal
  · rw [huntouched.file]
    exact hat.opens
  · rw [huntouched.entries]
    exact hat.holds

theorem Durable.find_of_mem (hdurable : Durable config history store)
    (hresult : result ∈ store.results) : store.loadStoredResult result.id = some result :=
  hdurable.results.find_of_mem hresult

/-- A step that leaves the tracked results alone and completes none keeps the invariant. -/
theorem Settled.frame (hsettled : Settled config session store)
    (hresults : Rows.Keyed StoredResult.id next.results)
    (hfiles : Rows.Keyed ResultFile.id next.files)
    (howned : ∀ chunk ∈ next.chunks, next.loadStoredResult chunk.resultId ≠ none)
    (hversions : ∀ result ∈ next.results, result.formatVersion = resultFormatVersion)
    (hcomplete : ∀ result ∈ next.results, result.state = .complete → result ∈ store.results)
    (hrecorded : ∀ id, next.loadStoredResult id ≠ none →
      Rows.find Written.id id session.history ≠ none)
    (hwriting : ∀ writer ∈ session.writers, ∀ result,
      next.loadStoredResult writer.id = some result → result.state = .writing)
    (htracked : ∀ id, Tracked session store id →
      next.loadStoredResult id ≠ none → Untouched store next id)
    (hlive : ∀ writer ∈ session.writers, writer.poisoned = false →
      next.loadStoredResult writer.id ≠ none) :
    Settled config session next := by
  have hsame : ∀ result ∈ next.results, result.state = .complete →
      Untouched store next result.id := by
    intro result hresult hstate
    have hold := hsettled.durable.find_of_mem (hcomplete result hresult hstate)
    refine htracked result.id (.inl ⟨result, hold, hstate⟩) ?_
    exact Option.ne_none_iff_exists'.mpr ⟨result, hresults.find_of_mem hresult⟩
  refine ⟨⟨hresults, hfiles, howned, hversions, ?_⟩, ?_, hrecorded, hsettled.writers,
    hsettled.known, hwriting, ?_⟩
  · intro result hresult hstate
    obtain ⟨written, hwritten, hkept⟩ :=
      hsettled.durable.complete result (hcomplete result hresult hstate) hstate
    exact ⟨written, hwritten, hkept.untouched (hsame result hresult hstate)⟩
  · intro result hresult hstate file hfile
    rw [(hsame result hresult hstate).file] at hfile
    exact hsettled.exact result (hcomplete result hresult hstate) hstate file hfile
  · intro writer hwriter hpoisoned
    exact (hsettled.live writer hwriter hpoisoned).untouched
      (htracked writer.id (.inr ⟨writer, hwriter, rfl, hpoisoned⟩) (hlive writer hwriter hpoisoned))

theorem Settled.file_of_tracked (hsettled : Settled config session store) {id : ResultId}
    (htracked : Tracked session store id) :
    ∃ file, store.findFile id = some file ∧ file.linked = true := by
  rcases htracked with ⟨result, hfound, hstate⟩ | ⟨writer, hwriter, rfl, hpoisoned⟩
  · obtain ⟨hresult, rfl⟩ := Rows.find_mem hfound
    obtain ⟨_, -, hkept⟩ := hsettled.durable.complete result hresult hstate
    obtain ⟨file, hfile, hlinked, -⟩ := hkept.file
    exact ⟨file, hfile, hlinked⟩
  · obtain ⟨_, _, file, -, hat⟩ := hsettled.live writer hwriter hpoisoned
    exact ⟨file, hat.opens, hat.linked⟩

theorem Settled.found_of_tracked (hsettled : Settled config session store) {id : ResultId}
    (htracked : Tracked session store id) : store.loadStoredResult id ≠ none := by
  rcases htracked with ⟨result, hfound, hstate⟩ | ⟨writer, hwriter, rfl, hpoisoned⟩
  · simp [hfound]
  · obtain ⟨result, _, _, -, hat⟩ := hsettled.live writer hwriter hpoisoned
    simp [hat.found]

/-- A step that changes files only. -/
theorem Settled.frame_files (hsettled : Settled config session store)
    (hresults : next.results = store.results) (hchunks : next.chunks = store.chunks)
    (hfiles : Rows.Keyed ResultFile.id next.files)
    (hsame : ∀ id file, Tracked session store id → store.findFile id = some file →
      file.linked = true → next.findFile id = some file) :
    Settled config session next := by
  have hload : ∀ id, next.loadStoredResult id = store.loadStoredResult id := by
    intro id
    unfold ResultStore.loadStoredResult
    rw [hresults]
  refine hsettled.frame ?_ hfiles ?_ ?_ ?_ ?_ ?_ ?_ ?_
  · rw [hresults]
    exact hsettled.durable.results
  · intro chunk hchunk
    rw [hload]
    exact hsettled.durable.owned chunk (hchunks ▸ hchunk)
  · rw [hresults]
    exact hsettled.durable.versions
  · intro result hresult _
    exact hresults ▸ hresult
  · intro id hfound
    rw [hload] at hfound
    exact hsettled.recorded id hfound
  · intro writer hwriter result hfound
    rw [hload] at hfound
    exact hsettled.writing writer hwriter result hfound
  · intro id htracked _
    obtain ⟨file, hfile, hlinked⟩ := hsettled.file_of_tracked htracked
    refine ⟨hload id, ?_, ?_⟩
    · unfold ResultStore.entries
      rw [hchunks]
    · rw [hfile]
      exact hsame id file htracked hfile hlinked
  · intro writer hwriter hpoisoned
    rw [hload]
    exact hsettled.found_of_tracked (.inr ⟨writer, hwriter, rfl, hpoisoned⟩)

/-! ## Steps -/

variable {id : ResultId}

theorem findFile_updateFile (hchange : ∀ file, (change file).id = file.id) (other : ResultId) :
    (store.updateFile id change).findFile other =
      (store.findFile other).map fun file => if file.id = id then change file else file := by
  unfold ResultStore.findFile ResultStore.updateFile
  rw [Rows.find_update hchange]
  simp only [decide_eq_true_eq]

theorem findFile_updateFile_self {file : ResultFile}
    (hchange : ∀ file, (change file).id = file.id) (hfile : store.findFile id = some file) :
    (store.updateFile id change).findFile id = some (change file) := by
  rw [findFile_updateFile hchange, hfile, Option.map_some, if_pos (Rows.find_mem hfile).2]

theorem findFile_syncDirectory (id : ResultId) :
    (store.apply .syncDirectory).findFile id = (store.findFile id).map ResultFile.link := by
  unfold ResultStore.findFile ResultStore.apply Rows.find
  exact List.find?_map ..

theorem Settled.createFile (hsettled : Settled config session store)
    (hfresh : store.findFile id = none) : Settled config session (store.apply (.createFile id)) := by
  refine hsettled.frame_files rfl rfl ?_ ?_
  · exact hsettled.durable.files.append_singleton (Rows.find_eq_none_iff.mp hfresh)
  · intro other file _ hfile _
    have happend : (store.apply (.createFile id)).findFile other =
        (store.findFile other).or _ := Rows.find_append_singleton other store.files _
    rw [happend, hfile, Option.some_or]

theorem Settled.updateFile (hsettled : Settled config session store)
    (hchange : ∀ file, (change file).id = file.id) (hfree : ¬ Tracked session store id) :
    Settled config session (store.updateFile id change) := by
  refine hsettled.frame_files rfl rfl ?_ ?_
  · exact hsettled.durable.files.update hchange
  · intro other file htracked hfile _
    have hid : file.id ≠ id := by
      rintro rfl
      exact hfree ((Rows.find_mem hfile).2 ▸ htracked)
    rw [findFile_updateFile hchange, hfile, Option.map_some, if_neg hid]

theorem Settled.removeFile (hsettled : Settled config session store)
    (hfree : ¬ Tracked session store id) :
    Settled config session (store.apply (.removeFile id)) := by
  refine hsettled.frame_files rfl rfl ?_ ?_
  · exact hsettled.durable.files.filter _
  · intro other file htracked hfile _
    have hother : other ≠ id := by
      rintro rfl
      exact hfree htracked
    refine (Rows.find_filter_of_keep ?_).trans hfile
    rintro row _ rfl
    simpa using hother

theorem Settled.syncDirectory (hsettled : Settled config session store) :
    Settled config session (store.apply .syncDirectory) := by
  refine hsettled.frame_files rfl rfl ?_ ?_
  · unfold Rows.Keyed ResultStore.apply
    rw [List.map_map]
    exact hsettled.durable.files
  · intro other file _ hfile hlinked
    rw [findFile_syncDirectory, hfile, Option.map_some]
    cases file
    simp only at hlinked
    rw [hlinked, ResultFile.link]

theorem load_apply_deleteResult (other : ResultId) :
    (store.apply (.deleteResult id)).loadStoredResult other =
      if other = id then none else store.loadStoredResult other := by
  unfold ResultStore.loadStoredResult ResultStore.apply
  by_cases hother : other = id
  · rw [if_pos hother, Rows.find_eq_none_iff]
    intro row hrow
    subst hother
    simpa using (List.mem_filter.mp hrow).2
  · rw [if_neg hother]
    refine Rows.find_filter_of_keep ?_
    rintro row _ rfl
    simpa using hother

theorem entries_apply_deleteResult {other : ResultId} (hother : other ≠ id) :
    (store.apply (.deleteResult id)).entries other = store.entries other := by
  unfold ResultStore.entries ResultStore.apply
  simp only [List.filter_filter]
  congr 1
  apply List.filter_congr
  intro chunk _
  by_cases hchunk : chunk.resultId = other <;> simp [hchunk, hother]

theorem Settled.deleteResult (hsettled : Settled config session store)
    (hfree : ∀ writer ∈ session.writers, writer.poisoned = false → writer.id ≠ id) :
    Settled config session (store.apply (.deleteResult id)) := by
  have hmem : ∀ result ∈ (store.apply (.deleteResult id)).results, result ∈ store.results :=
    fun result hresult => List.mem_of_mem_filter hresult
  refine hsettled.frame ?_ hsettled.durable.files ?_ ?_ ?_ ?_ ?_ ?_ ?_
  · exact hsettled.durable.results.filter _
  · intro chunk hchunk
    obtain ⟨hchunk, hother⟩ := List.mem_filter.mp hchunk
    rw [load_apply_deleteResult, if_neg (by simpa using hother)]
    exact hsettled.durable.owned chunk hchunk
  · exact fun result hresult => hsettled.durable.versions result (hmem result hresult)
  · exact fun result hresult _ => hmem result hresult
  · intro other hfound
    rw [load_apply_deleteResult] at hfound
    split at hfound
    · exact absurd rfl hfound
    · exact hsettled.recorded other hfound
  · intro writer hwriter result hfound
    rw [load_apply_deleteResult] at hfound
    split at hfound
    · cases hfound
    · exact hsettled.writing writer hwriter result hfound
  · intro other _ hfound
    rw [load_apply_deleteResult] at hfound
    have hother : other ≠ id := by
      rintro rfl
      simp at hfound
    exact ⟨by rw [load_apply_deleteResult, if_neg hother], entries_apply_deleteResult hother, rfl⟩
  · intro writer hwriter hpoisoned
    rw [load_apply_deleteResult, if_neg (hfree writer hwriter hpoisoned)]
    exact hsettled.found_of_tracked (.inr ⟨writer, hwriter, rfl, hpoisoned⟩)

theorem load_insertResult (hfresh : store.loadStoredResult result.id = none) :
    (store.apply (.insertResult result)).loadStoredResult result.id = some result := by
  unfold ResultStore.loadStoredResult at hfresh ⊢
  unfold ResultStore.apply
  rw [Rows.find_append_singleton, hfresh, Option.none_or, if_pos rfl]

theorem Durable.entries_eq_nil (hdurable : Durable config history store)
    (hfresh : store.loadStoredResult id = none) : store.entries id = [] := by
  unfold ResultStore.entries
  rw [List.map_eq_nil_iff, List.filter_eq_nil_iff]
  intro chunk hchunk hid
  have howned := hdurable.owned chunk hchunk
  rw [of_decide_eq_true hid] at howned
  exact howned hfresh

theorem Settled.insertResult (hsettled : Settled config session store)
    (hfresh : store.loadStoredResult result.id = none) (hstate : result.state = .writing)
    (hversion : result.formatVersion = resultFormatVersion)
    (hrecord : Rows.find Written.id result.id session.history ≠ none) :
    Settled config session (store.apply (.insertResult result)) := by
  have hload : ∀ other, (store.apply (.insertResult result)).loadStoredResult other =
      (store.loadStoredResult other).or (if result.id = other then some result else none) :=
    fun other => Rows.find_append_singleton other store.results result
  have hold : ∀ other, store.loadStoredResult other ≠ none →
      (store.apply (.insertResult result)).loadStoredResult other =
        store.loadStoredResult other := by
    intro other hother
    obtain ⟨row, hrow⟩ := Option.ne_none_iff_exists'.mp hother
    rw [hload, hrow, Option.some_or]
  refine hsettled.frame ?_ hsettled.durable.files ?_ ?_ ?_ ?_ ?_ ?_ ?_
  · exact hsettled.durable.results.append_singleton (Rows.find_eq_none_iff.mp hfresh)
  · intro chunk hchunk
    have howned := hsettled.durable.owned chunk hchunk
    rw [hold _ howned]
    exact howned
  · intro row hrow
    rcases List.mem_append.mp hrow with hrow | hrow
    · exact hsettled.durable.versions row hrow
    · rw [List.mem_singleton.mp hrow]
      exact hversion
  · intro row hrow hcomplete
    rcases List.mem_append.mp hrow with hrow | hrow
    · exact hrow
    · rw [List.mem_singleton.mp hrow, hstate] at hcomplete
      cases hcomplete
  · intro other hfound
    by_cases hother : store.loadStoredResult other = none
    · rw [hload, hother, Option.none_or] at hfound
      split at hfound
      · rename_i hid
        exact hid ▸ hrecord
      · exact absurd rfl hfound
    · exact hsettled.recorded other hother
  · intro writer hwriter row hrow
    rw [hload] at hrow
    cases hwriterRow : store.loadStoredResult writer.id with
    | some other =>
      rw [hwriterRow, Option.some_or] at hrow
      exact hsettled.writing writer hwriter row (hwriterRow.trans hrow)
    | none =>
      rw [hwriterRow, Option.none_or] at hrow
      split at hrow
      · obtain rfl := Option.some.inj hrow
        exact hstate
      · cases hrow
  · intro other htracked _
    exact ⟨hold other (hsettled.found_of_tracked htracked), rfl, rfl⟩
  · intro writer hwriter hpoisoned
    have htracked := hsettled.found_of_tracked (.inr ⟨writer, hwriter, rfl, hpoisoned⟩)
    rw [hold _ htracked]
    exact htracked

theorem load_updateResults {cond : StoredResult → Bool} {set : StoredResult → StoredResult}
    (hset : ∀ row, (set row).id = row.id) (other : ResultId) :
    (store.updateResults cond set).loadStoredResult other =
      (store.loadStoredResult other).map fun row => if cond row then set row else row := by
  unfold ResultStore.loadStoredResult ResultStore.updateResults
  exact Rows.find_update hset other store.results

theorem load_commitChunk {committedLength : Nat} (other : ResultId) :
    (store.apply (.commitChunk chunk committedLength)).loadStoredResult other =
      (store.loadStoredResult other).map fun row =>
        if ResultStore.ownsChunk chunk row then
          { row with committedLength, rowCount := chunk.index.endRowExclusive }
        else row := by
  refine load_updateResults ?_ other
  exact fun _ => rfl

theorem entries_commitChunk {committedLength : Nat} (other : ResultId) :
    (store.apply (.commitChunk chunk committedLength)).entries other =
      store.entries other ++ if chunk.resultId = other then [chunk.index] else [] := by
  unfold ResultStore.entries ResultStore.apply
  simp only [List.filter_append, List.map_append]
  congr 1
  by_cases hchunk : chunk.resultId = other <;> simp [hchunk]

theorem ownsChunk_eq_true :
    ResultStore.ownsChunk chunk result = true ↔ result.id = chunk.resultId ∧
      result.state = .writing ∧ result.rowCount = chunk.index.startRow ∧
      result.committedLength = chunk.index.fileOffset := by
  simp [ResultStore.ownsChunk, StoredResult.matchesWriting, and_assoc]

theorem Settled.commitChunk (hsettled : Settled config session store) (chunk : ResultChunk)
    (committedLength : Nat) (hfree : ¬ Tracked session store chunk.resultId)
    (hfound : store.loadStoredResult chunk.resultId ≠ none) :
    Settled config session (store.apply (.commitChunk chunk committedLength)) := by
  have hexists : ∀ other, store.loadStoredResult other ≠ none →
      (store.apply (.commitChunk chunk committedLength)).loadStoredResult other ≠ none := by
    intro other hother
    rw [load_commitChunk]
    simpa using hother
  refine hsettled.frame ?_ hsettled.durable.files ?_ ?_ ?_ ?_ ?_ ?_ ?_
  · exact hsettled.durable.results.update fun _ => rfl
  · intro other hother
    rcases List.mem_append.mp hother with hother | hother
    · exact hexists _ (hsettled.durable.owned other hother)
    · rw [List.mem_singleton.mp hother]
      exact hexists _ hfound
  · intro row hrow
    obtain ⟨old, hold, rfl⟩ := Rows.mem_update.mp hrow
    have hversion := hsettled.durable.versions old hold
    split
    · exact hversion
    · exact hversion
  · intro row hrow hcomplete
    obtain ⟨old, hold, rfl⟩ := Rows.mem_update.mp hrow
    split at hcomplete
    · rename_i howns
      rw [(ownsChunk_eq_true.mp howns).2.1] at hcomplete
      cases hcomplete
    · rename_i howns
      rw [if_neg howns]
      exact hold
  · intro other hother
    rw [load_commitChunk] at hother
    exact hsettled.recorded other (by simpa using hother)
  · intro writer hwriter row hrow
    rw [load_commitChunk] at hrow
    obtain ⟨old, hold, rfl⟩ := Option.map_eq_some_iff.mp hrow
    have hstate := hsettled.writing writer hwriter old hold
    split
    · exact hstate
    · exact hstate
  · intro other htracked _
    have hother : chunk.resultId ≠ other := by
      rintro rfl
      exact hfree htracked
    refine ⟨?_, ?_, rfl⟩
    · obtain ⟨row, hrow⟩ := Option.ne_none_iff_exists'.mp (hsettled.found_of_tracked htracked)
      have howns : ¬ ResultStore.ownsChunk chunk row = true := by
        intro howns
        exact hother ((ownsChunk_eq_true.mp howns).1.symm.trans (Rows.find_mem hrow).2)
      rw [load_commitChunk, hrow, Option.map_some, if_neg howns]
    · rw [entries_commitChunk, if_neg hother, List.append_nil]
  · intro writer hwriter hpoisoned
    exact hexists _ (hsettled.found_of_tracked (.inr ⟨writer, hwriter, rfl, hpoisoned⟩))

/-! ## Sessions -/

theorem Live.state_eq (hlive : Live config history store writer)
    (hfound : store.loadStoredResult writer.id = some result) : result.state = .writing := by
  obtain ⟨row, _, _, -, hat⟩ := hlive
  obtain rfl := Option.some.inj (hat.found.symm.trans hfound)
  exact hat.writing

theorem Settled.with_writers (hsettled : Settled config session store)
    {writers : List ResultWriter} (hwriters : Rows.Keyed ResultWriter.id writers)
    (hknown : ∀ writer ∈ writers, writer ∈ session.writers ∨
      Live config session.history store writer ∨
      writer.poisoned = true ∧ ∃ old ∈ session.writers, old.id = writer.id) :
    Settled config { session with writers } store := by
  refine ⟨hsettled.durable, hsettled.exact, hsettled.recorded, hwriters, ?_, ?_, ?_⟩
  · intro writer hwriter
    rcases hknown writer hwriter with hknown | ⟨_, _, _, hwritten, -⟩ | ⟨-, old, hold, hid⟩
    · exact hsettled.known writer hknown
    · simp [hwritten]
    · exact hid ▸ hsettled.known old hold
  · intro writer hwriter row hrow
    rcases hknown writer hwriter with hknown | hlive | ⟨-, old, hold, hid⟩
    · exact hsettled.writing writer hknown row hrow
    · exact hlive.state_eq hrow
    · rw [← hid] at hrow
      exact hsettled.writing old hold row hrow
  · intro writer hwriter hpoisoned
    rcases hknown writer hwriter with hknown | hlive | ⟨hpoisoned', -⟩
    · exact hsettled.live writer hknown hpoisoned
    · exact hlive
    · rw [hpoisoned] at hpoisoned'
      cases hpoisoned'

theorem Settled.with_history (hsettled : Settled config session store) {other : List Written}
    (hsame : ∀ id, Tracked session store id →
      Rows.find Written.id id other = Rows.find Written.id id session.history)
    (hrecorded : ∀ id, Rows.find Written.id id session.history ≠ none →
      Rows.find Written.id id other ≠ none) :
    Settled config { session with history := other } store := by
  refine ⟨{ hsettled.durable with complete := ?_ }, hsettled.exact,
    fun id hfound => hrecorded id (hsettled.recorded id hfound), hsettled.writers,
    fun writer hwriter => hrecorded writer.id (hsettled.known writer hwriter),
    hsettled.writing, ?_⟩
  · intro result hresult hstate
    have htracked : Tracked session store result.id :=
      .inl ⟨result, hsettled.durable.find_of_mem hresult, hstate⟩
    obtain ⟨written, hwritten, hkept⟩ := hsettled.durable.complete result hresult hstate
    exact ⟨written, (hsame result.id htracked).trans hwritten, hkept⟩
  · intro writer hwriter hpoisoned
    have htracked : Tracked session store writer.id := .inr ⟨writer, hwriter, rfl, hpoisoned⟩
    obtain ⟨result, written, file, hwritten, hat⟩ := hsettled.live writer hwriter hpoisoned
    exact ⟨result, written, file, (hsame writer.id htracked).trans hwritten, hat⟩

theorem find_record_new {id : ResultId} (hid : written.id = id)
    (hfresh : Rows.find Written.id id history = none) :
    Rows.find Written.id id (history ++ [written]) = some written := by
  rw [Rows.find_append_singleton, hfresh, Option.none_or, if_pos hid]

theorem find_record_old {id : ResultId} (hold : Rows.find Written.id id history ≠ none) :
    Rows.find Written.id id (history ++ [written]) = Rows.find Written.id id history := by
  obtain ⟨old, hfound⟩ := Option.ne_none_iff_exists'.mp hold
  rw [Rows.find_append_singleton, hfound, Option.some_or]

theorem Settled.record_new (hsettled : Settled config session store) (written : Written) :
    Settled config { session with history := session.history ++ [written] } store := by
  refine hsettled.with_history ?_ ?_
  · intro id htracked
    exact find_record_old (hsettled.recorded id (hsettled.found_of_tracked htracked))
  · intro id hold
    rw [find_record_old hold]
    exact hold

theorem Settled.add_writer (hsettled : Settled config session store)
    (hlive : Live config session.history store writer)
    (hfresh : ∀ old ∈ session.writers, old.id ≠ writer.id) :
    Settled config { session with writers := session.writers ++ [writer] } store := by
  refine hsettled.with_writers (hsettled.writers.append_singleton hfresh) ?_
  intro other hother
  rcases List.mem_append.mp hother with hother | hother
  · exact .inl hother
  · rw [List.mem_singleton.mp hother]
    exact .inr (.inl hlive)

theorem Settled.dropWriter (hsettled : Settled config session store) (id : ResultId) :
    Settled config (session.dropWriter id) store :=
  hsettled.with_writers (hsettled.writers.filter _) fun _ hwriter => .inl (List.mem_of_mem_filter hwriter)

theorem Settled.poison (hsettled : Settled config session store) (id : ResultId) :
    Settled config (session.poison id) store := by
  refine hsettled.with_writers (hsettled.writers.update fun _ => rfl) ?_
  intro writer hwriter
  obtain ⟨old, hold, rfl⟩ := Rows.mem_update.mp hwriter
  split
  · exact .inr (.inr ⟨rfl, old, hold, rfl⟩)
  · exact .inl hold

theorem mem_poison (hwriter : writer ∈ session.writers) :
    { writer with poisoned := true } ∈ (session.poison writer.id).writers :=
  Rows.mem_update_of_cond hwriter (by simp)

theorem Settled.not_tracked (hsettled : Settled config session store)
    (hwriter : writer ∈ session.writers) (hpoisoned : writer.poisoned = true) :
    ¬ Tracked session store writer.id := by
  rintro (⟨result, hfound, hstate⟩ | ⟨other, hother, hid, hlive⟩)
  · rw [hsettled.writing writer hwriter result hfound] at hstate
    cases hstate
  · obtain rfl := hsettled.writers.eq_of_key_eq hother hwriter hid
    rw [hpoisoned] at hlive
    cases hlive

theorem Settled.not_tracked_poison (hsettled : Settled config (session.poison id) store)
    (hwriter : writer ∈ session.writers) (hid : writer.id = id) :
    ¬ Tracked (session.poison id) store id := by
  subst hid
  have hnone := hsettled.not_tracked (mem_poison hwriter) rfl
  exact hnone

end Chat2DB.Results
