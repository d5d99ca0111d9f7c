import Chat2DB.Results.Durability

/-! # Operations keep the store

Every operation takes a settled store to a settled store, whether it returns or
fails, and every state on the way is durable. Completed results that have not
expired by the clock readings of the operation stay as they are.
-/

namespace Chat2DB.Results

open Storage (i64Max)
open Stepwise (Triple)

variable {config : StoreConfig} {session : Session} {store : ResultStore} {id : ResultId}
  {keep : StoredResult → Prop} {failed : ResultError → ResultStore → Prop} {timestampMs : Int}
  {file : ResultFile}

/-- Some completed results are still there. -/
def Protects (keep : StoredResult → Prop) (store : ResultStore) : Prop :=
  ∀ result, keep result → result ∈ store.results ∧ result.state = .complete

/-- A settled store with the protected results. -/
structure Stable (config : StoreConfig) (session : Session) (keep : StoredResult → Prop)
    (store : ResultStore) : Prop where
  settled : Settled config session store
  protects : Protects keep store

/-- A store that a crash may leave, with the protected results. -/
structure Safe (config : StoreConfig) (history : List Written) (keep : StoredResult → Prop)
    (store : ResultStore) : Prop where
  durable : Durable config history store
  protects : Protects keep store

theorem Stable.safe (hstable : Stable config session keep store) :
    Safe config session.history keep store :=
  ⟨hstable.settled.durable, hstable.protects⟩

theorem keeps_of_perform {before : ResultStore → Prop} {step : StoreStep}
    (hbefore : ∀ store, before store → Stable config session keep store)
    (hstep : ∀ store, before store → Stable config session keep (store.apply step)) :
    Triple before (Stepwise.perform step) (fun _ => Stable config session keep) failed
      (Safe config session.history keep) :=
  .of_perform (fun store hstore => (hbefore store hstore).safe)
    (fun store hstore => (hstep store hstore).safe) hstep

/-! ## Removal -/

theorem deleteResult_keeps
    (hfree : ∀ writer ∈ session.writers, writer.poisoned = false → writer.id ≠ id)
    (hunprotected : ∀ result, keep result → result.id ≠ id) :
    Triple (Stable config session keep) (deleteResult id)
      (fun _ => Stable config session keep) failed (Safe config session.history keep) := by
  have hprotects : ∀ store, Protects keep store → Protects keep (store.apply (.deleteResult id)) := by
    intro store hstore result hresult
    obtain ⟨hmem, hstate⟩ := hstore result hresult
    exact ⟨List.mem_filter.mpr ⟨hmem, by simpa using hunprotected result hresult⟩, hstate⟩
  refine .bind (fun _ store => Stable config session keep store ∧
    store.loadStoredResult id = none) ?_ fun _ => ?_
  · refine .of_perform (fun _ hstore => hstore.safe) (fun store hstore => ?_) fun store hstore => ?_
    · exact (Stable.mk (hstore.settled.deleteResult hfree) (hprotects store hstore.protects)).safe
    · refine ⟨⟨hstore.settled.deleteResult hfree, hprotects store hstore.protects⟩, ?_⟩
      exact (load_apply_deleteResult id).trans (if_pos rfl)
  · refine .bind _ (keeps_of_perform (fun _ hstore => hstore.1) ?_) fun _ => ?_
    · rintro store ⟨hstable, hnone⟩
      refine ⟨hstable.settled.removeFile ?_, hstable.protects⟩
      exact fun htracked => hstable.settled.found_of_tracked htracked hnone
    · exact keeps_of_perform (fun _ hstore => hstore)
        fun _ hstore => ⟨hstore.settled.syncDirectory, hstore.protects⟩

/-- An expired result may go: no live writer has it and it is not protected. -/
def Removable (session : Session) (keep : StoredResult → Prop) (result : StoredResult) : Prop :=
  (¬ (result.state = .writing ∧ result.id ∈ session.activeResults) →
    ∀ writer ∈ session.writers, writer.poisoned = false → writer.id ≠ result.id) ∧
  ∀ other, keep other → other.id ≠ result.id

theorem purgeResult_keeps {report : PurgeReport}
    {result : StoredResult} (hremovable : Removable session keep result) :
    Triple (Stable config session keep) (purgeResult session.activeResults report result)
      (fun _ => Stable config session keep) failed (Safe config session.history keep) := by
  unfold purgeResult
  split
  · exact .of_pure (fun _ hstore => hstore.safe) fun _ hstore => hstore
  · rename_i hinactive
    refine .bind _ (deleteResult_keeps (hremovable.1 hinactive) hremovable.2) fun _ => ?_
    exact .of_pure (fun _ hstore => hstore.safe) fun _ hstore => hstore

theorem purgeResults_keeps (results : List StoredResult) (report : PurgeReport) :
    Triple (fun store => Stable config session keep store ∧
        ∀ result ∈ results, Removable session keep result)
      (Stepwise.fold (purgeResult session.activeResults) results report)
      (fun _ => Stable config session keep) failed (Safe config session.history keep) := by
  refine (Triple.fold (fun rest _ store => Stable config session keep store ∧
    ∀ result ∈ rest, Removable session keep result) (fun _ _ hstore => hstore.1.safe) ?_ results
    report).weaken (fun _ _ hstore => hstore.1) (fun _ _ hstore => hstore) fun _ hstore => hstore
  intro result rest report
  refine .of_fact fun hmembers => ?_
  exact (purgeResult_keeps (hmembers result List.mem_cons_self)).weaken
    (fun _ _ hstore => ⟨hstore, fun other hother =>
      hmembers other (List.mem_cons_of_mem result hother)⟩)
    (fun _ _ hstore => hstore) fun _ hstore => hstore

/-- Files that no result refers to are removed. -/
theorem removeOrphans_keeps {referenced : List ResultId} (files : List ResultFile) (removed : Nat) :
    Triple (fun store => Stable config session keep store ∧
        ∀ result ∈ store.results, result.id ∈ referenced)
      (Stepwise.fold (removeOrphan referenced) files removed)
      (fun _ => Stable config session keep) failed (Safe config session.history keep) := by
  refine (Triple.fold (fun _ _ store => Stable config session keep store ∧
    ∀ result ∈ store.results, result.id ∈ referenced)
    (fun _ _ hstore => hstore.1.safe) ?_ files removed).weaken
    (fun _ _ hstore => hstore.1) (fun _ _ hstore => hstore) fun _ hstore => hstore
  intro file rest removed
  unfold removeOrphan
  split
  · exact .of_pure (fun _ hstore => hstore.1.safe) fun _ hstore => hstore
  · rename_i horphan
    have hkeeps : ∀ store, Stable config session keep store ∧
        (∀ result ∈ store.results, result.id ∈ referenced) →
        Stable config session keep (store.apply (.removeFile file.id)) := by
      rintro store ⟨hstable, hreferenced⟩
      refine ⟨hstable.settled.removeFile fun htracked => ?_, hstable.protects⟩
      obtain ⟨row, hrow⟩ :=
        Option.ne_none_iff_exists'.mp (hstable.settled.found_of_tracked htracked)
      obtain ⟨hmem, hid⟩ := Rows.find_mem hrow
      exact horphan (hid ▸ hreferenced row hmem)
    refine .bind (fun _ store => Stable config session keep store ∧
      ∀ result ∈ store.results, result.id ∈ referenced) ?_ fun _ => ?_
    · exact .of_perform (fun _ hstore => hstore.1.safe) (fun _ hstore => (hkeeps _ hstore).safe)
        fun _ hstore => ⟨hkeeps _ hstore, hstore.2⟩
    · exact .of_pure (fun _ hstore => hstore.1.safe) fun _ hstore => hstore

theorem Stable.removable (hstable : Stable config session keep store)
    (hclock : ∀ result, keep result → timestampMs < result.expiresAtMs) {result : StoredResult}
    (hresult : result ∈ store.results) (hexpired : result.expiresAtMs ≤ timestampMs) :
    Removable session keep result := by
  constructor
  · rintro hinactive writer hwriter hpoisoned hid
    obtain ⟨row, _, _, -, hat⟩ := hstable.settled.live writer hwriter hpoisoned
    have hfound := hat.found
    rw [hid, hstable.settled.durable.find_of_mem hresult] at hfound
    obtain rfl := Option.some.inj hfound
    exact hinactive ⟨hat.writing, List.mem_map.mpr ⟨writer, hwriter, hid⟩⟩
  · intro other hother hid
    obtain ⟨hmem, -⟩ := hstable.protects other hother
    obtain rfl := hstable.settled.durable.results.eq_of_key_eq hmem hresult hid
    exact absurd (hclock _ hother) (Int.not_lt.mpr hexpired)

theorem purgeExpiredAt_keeps (hclock : ∀ result, keep result → timestampMs < result.expiresAtMs) :
    Triple (Stable config session keep) (purgeExpiredAt timestampMs session.activeResults)
      (fun _ => Stable config session keep) failed (Safe config session.history keep) := by
  refine .bind _ (.of_read fun _ hstore => hstore.safe) fun results => ?_
  refine .bind (fun _ => Stable config session keep) ?_ fun report => ?_
  · refine (purgeResults_keeps _ _).strengthen ?_
    rintro store ⟨hstable, rfl⟩
    refine ⟨hstable, fun result hresult => ?_⟩
    obtain ⟨hmem, hexpired⟩ := List.mem_filter.mp hresult
    exact hstable.removable hclock ((List.perm_insertionSort _ _).mem_iff.mp hmem)
      (by simpa using hexpired)
  refine .bind _ (.of_read fun _ hstore => hstore.safe) fun referenced => ?_
  refine .bind _ (.of_read fun _ hstore => hstore.1.safe) fun files => ?_
  refine .bind _ ((removeOrphans_keeps files 0).strengthen ?_) fun removed => ?_
  · rintro store ⟨⟨hstable, rfl⟩, -⟩
    exact ⟨hstable, fun result hresult => List.mem_map_of_mem hresult⟩
  split
  · refine .bind _ (keeps_of_perform (fun _ hstore => hstore)
      fun _ hstore => ⟨hstore.settled.syncDirectory, hstore.protects⟩) fun _ => ?_
    exact .of_pure (fun _ hstore => hstore.safe) fun _ hstore => hstore
  · exact .of_pure (fun _ hstore => hstore.safe) fun _ hstore => hstore

/-! ## Quota -/

theorem retainedResultBytes_keeps :
    Triple (Stable config session keep) retainedResultBytes (fun _ => Stable config session keep)
      (fun _ => Stable config session keep) (Safe config session.history keep) := by
  refine .bind _ (.of_read fun _ hstore => hstore.safe) fun retained => ?_
  refine (Triple.of_ofExcept (fun _ hstore => hstore.1.safe) fun _ _ hstore _ => hstore.1).weaken
    (fun _ _ hstore => hstore.1.1) (fun _ _ hstore => hstore) fun _ hstore => hstore

theorem checkResultQuota_keeps {requested : Nat}
    (hclock : ∀ result, keep result → timestampMs < result.expiresAtMs) :
    Triple (Stable config session keep)
      (checkResultQuota config requested timestampMs session.activeResults)
      (fun _ => Stable config session keep) (fun _ => Stable config session keep)
      (Safe config session.history keep) := by
  refine .bind _ retainedResultBytes_keeps fun retained => ?_
  split
  · refine .bind _ (purgeExpiredAt_keeps hclock) fun _ => ?_
    refine .bind _ retainedResultBytes_keeps fun _ => ?_
    exact (Triple.of_ofExcept (fun _ hstore => hstore.safe) fun _ _ hstore _ => hstore).weaken
      (fun _ _ hstore => hstore.1) (fun _ _ hstore => hstore) fun _ hstore => hstore
  · exact .of_pure (fun _ hstore => hstore.safe) fun _ hstore => hstore

/-! ## Writing -/

/-- A store in which the file of an untracked result is known. -/
structure Staged (config : StoreConfig) (session : Session) (keep : StoredResult → Prop)
    (file : ResultFile) (store : ResultStore) : Prop where
  stable : Stable config session keep store
  untracked : ¬ Tracked session store file.id
  found : store.findFile file.id = some file

theorem Staged.updateFile {change : ResultFile → ResultFile}
    (hstaged : Staged config session keep file store)
    (hchange : ∀ file, (change file).id = file.id) :
    Staged config session keep (change file) (store.updateFile file.id change) := by
  refine ⟨⟨hstaged.stable.settled.updateFile hchange hstaged.untracked, hstaged.stable.protects⟩,
    ?_, ?_⟩
  · rw [hchange]
    exact hstaged.untracked
  · rw [hchange]
    exact findFile_updateFile_self hchange hstaged.found

theorem staged_update {step : StoreStep} {change : ResultFile → ResultFile}
    (hstep : ∀ store : ResultStore, store.apply step = store.updateFile file.id change)
    (hchange : ∀ file, (change file).id = file.id) :
    Triple (Staged config session keep file) (Stepwise.perform step)
      (fun _ => Staged config session keep (change file)) failed
      (Safe config session.history keep) := by
  have hstaged : ∀ store, Staged config session keep file store →
      Staged config session keep (change file) (store.apply step) :=
    fun store hstore => hstep store ▸ hstore.updateFile hchange
  exact .of_perform (fun _ hstore => hstore.stable.safe)
    (fun store hstore => (hstaged store hstore).stable.safe) hstaged

theorem staged_link :
    Triple (Staged config session keep file) (Stepwise.perform StoreStep.syncDirectory)
      (fun _ => Staged config session keep file.link) failed
      (Safe config session.history keep) := by
  have hstaged : ∀ store, Staged config session keep file store →
      Staged config session keep file.link (store.apply .syncDirectory) := by
    intro store hstore
    refine ⟨⟨hstore.stable.settled.syncDirectory, hstore.stable.protects⟩, hstore.untracked, ?_⟩
    exact (findFile_syncDirectory file.id).trans (congrArg _ hstore.found)
  exact .of_perform (fun _ hstore => hstore.stable.safe)
    (fun store hstore => (hstaged store hstore).stable.safe) hstaged

/-- The writer of a result that was just begun. -/
def newWriter (id : ResultId) (schema : Wire.QueryStarted) (frame : List UInt8)
    (createdAtMs expiresAtMs : Int) : ResultWriter :=
  { id
    schemaColumns := schema.columns.length
    committedLength := frame.length
    nextRow := 0
    nextOrdinal := 0
    createdAtMs
    expiresAtMs
    poisoned := false }

variable {schema : Wire.QueryStarted} {payload : List UInt8} {createdAtMs expiresAtMs : Int}

theorem readSchema_frameOf (hpositive : 0 < payload.length)
    (hmaximum : payload.length ≤ Wire.maxFrameBytes)
    (hdecode : config.codec.decodeSchema payload = some schema)
    (hcolumns : schema.columns.length ≤ Wire.maxColumns) :
    readSchema config (frameOf payload)
      (writingResult config id (frameOf payload) createdAtMs expiresAtMs) = .ok schema := by
  have hrange : payload.length < 2 ^ 32 := Nat.lt_of_le_of_lt hmaximum (by decide)
  have hread : readIndexedFrame config.hash config.codec.decodeSchema
      ([] ++ frameOf payload ++ []) id 0 (frameOf payload).length
      (config.hash.digest (frameOf payload)) Wire.maxFrameBytes = .ok schema :=
    readIndexedFrame_frameOf hpositive hmaximum hrange hdecode
  rw [List.nil_append, List.append_nil] at hread
  simp only [readSchema, Outcome.bind_eq_ok, Outcome.mapError_eq_ok, validateSchema,
    Outcome.rejectIf_eq_ok, Outcome.pure_eq_ok, exists_const]
  exact ⟨schema, hread, Nat.not_lt.mpr hcolumns, rfl⟩

/-- Indexing a synced schema file gives a writer that may go on. -/
theorem Staged.insertResult
    (hstaged : Staged config session keep (ResultFile.settled id (frameOf payload)) store)
    (hfresh : Rows.find Written.id id session.history = none)
    (hpositive : 0 < payload.length) (hmaximum : payload.length ≤ Wire.maxFrameBytes)
    (hdecode : config.codec.decodeSchema payload = some schema)
    (hcolumns : schema.columns.length ≤ Wire.maxColumns) :
    Stable config
      (session.started (newWriter id schema (frameOf payload) createdAtMs expiresAtMs) schema) keep
      (store.apply (.insertResult
        (writingResult config id (frameOf payload) createdAtMs expiresAtMs))) := by
  have hsettled := hstaged.stable.settled
  have hload : store.loadStoredResult id = none := by
    by_contra hfound
    exact hsettled.recorded id hfound hfresh
  -- First the record, then the row, and the writer last.
  let written : Written :=
    { id, schema, batches := [], createdAtMs, expiresAtMs, completion := none }
  let row := writingResult config id (frameOf payload) createdAtMs expiresAtMs
  have hwritten : Rows.find Written.id id (session.history ++ [written]) = some written :=
    find_record_new rfl hfresh
  have hinserted : Settled config { session with history := session.history ++ [written] }
      (store.apply (.insertResult row)) :=
    (hsettled.record_new written).insertResult hload rfl rfl (by simp [row, writingResult, hwritten])
  have hentries : (store.apply (.insertResult row)).entries id = [] :=
    hsettled.durable.entries_eq_nil hload
  have hbound : (frameOf payload).length ≤ i64Max := by
    rw [length_frameOf]
    exact Nat.le_trans (Nat.add_le_add_left hmaximum _) (by decide)
  have hlive : Live config (session.history ++ [written]) (store.apply (.insertResult row))
      (newWriter id schema (frameOf payload) createdAtMs expiresAtMs) := by
    refine ⟨row, written, ResultFile.settled id (frameOf payload), hwritten, ?_⟩
    exact
      { found := load_insertResult hload
        writing := rfl
        length := rfl
        rows := rfl
        expires := ⟨rfl, rfl⟩
        unfinished := rfl
        columns := rfl
        ordinal := congrArg List.length hentries
        opens := hstaged.found
        linked := rfl
        synced := rfl
        exact := rfl
        range := ⟨hbound, Nat.zero_le _⟩
        holds := ⟨readSchema_frameOf hpositive hmaximum hdecode hcolumns, hentries ▸ .nil⟩ }
  refine ⟨hinserted.add_writer hlive fun old hold hid => ?_, fun result hresult => ?_⟩
  · exact hsettled.known old hold (hid ▸ hfresh)
  · obtain ⟨hmem, hstate⟩ := hstaged.stable.protects result hresult
    exact ⟨List.mem_append_left _ hmem, hstate⟩

theorem Stable.safe_of_writer (hstable : Stable config session keep store) {writer : ResultWriter}
    (hwriter : writer ∈ session.writers) {history : List Written}
    (hsame : ∀ other, other ≠ writer.id →
      Rows.find Written.id other history = Rows.find Written.id other session.history) :
    Safe config history keep store := by
  refine ⟨{ hstable.settled.durable with complete := ?_ }, hstable.protects⟩
  intro result hresult hstate
  obtain ⟨written, hwritten, hkept⟩ := hstable.settled.durable.complete result hresult hstate
  have hother : result.id ≠ writer.id := by
    intro hid
    have hfound := hstable.settled.durable.find_of_mem hresult
    rw [hid] at hfound
    rw [hstable.settled.writing writer hwriter result hfound] at hstate
    cases hstate
  exact ⟨written, (hsame result.id hother).trans hwritten, hkept⟩

theorem Stable.safe_started {writer : ResultWriter} {schema : Wire.QueryStarted}
    (hstable : Stable config (session.started writer schema) keep store) :
    Safe config session.history keep store := by
  refine hstable.safe_of_writer (List.mem_append_right _ List.mem_cons_self) ?_
  intro other hother
  refine ((Rows.find_append_singleton other session.history _).trans ?_).symm
  rw [if_neg (Ne.symm hother), Option.or_none]

theorem insertWritingResult_keeps
    (hfresh : Rows.find Written.id id session.history = none)
    (hpositive : 0 < payload.length) (hmaximum : payload.length ≤ Wire.maxFrameBytes)
    (hdecode : config.codec.decodeSchema payload = some schema)
    (hcolumns : schema.columns.length ≤ Wire.maxColumns) :
    Triple (Staged config session keep (ResultFile.settled id (frameOf payload)))
      (insertWritingResult (writingResult config id (frameOf payload) createdAtMs expiresAtMs))
      (fun _ => Stable config (session.started
        (newWriter id schema (frameOf payload) createdAtMs expiresAtMs) schema) keep)
      (fun _ => Staged config session keep (ResultFile.settled id (frameOf payload)))
      (Safe config session.history keep) := by
  refine Triple.check (fun _ hstore => hstore.stable.safe) (fun _ _ hstore => hstore) fun _ _ => ?_
  refine .bind _ (.of_read fun _ hstore => hstore.stable.safe) fun admitted => ?_
  refine Triple.check (fun _ hstore => hstore.1.stable.safe) (fun _ _ hstore => hstore.1) fun _ _ => ?_
  refine .of_perform (fun _ hstore => hstore.1.stable.safe) (fun _ hstore => ?_) fun _ hstore => ?_
  · exact (hstore.1.insertResult hfresh hpositive hmaximum hdecode hcolumns).safe_started
  · exact hstore.1.insertResult hfresh hpositive hmaximum hdecode hcolumns

theorem writeSchemaFile_keeps
    (hfresh : Rows.find Written.id id session.history = none)
    (hpositive : 0 < payload.length) (hmaximum : payload.length ≤ Wire.maxFrameBytes)
    (hdecode : config.codec.decodeSchema payload = some schema)
    (hcolumns : schema.columns.length ≤ Wire.maxColumns) :
    Triple (Stable config session keep)
      (writeSchemaFile config id (frameOf payload) createdAtMs expiresAtMs)
      (fun _ => Stable config (session.started
        (newWriter id schema (frameOf payload) createdAtMs expiresAtMs) schema) keep)
      (fun _ => Stable config session keep) (Safe config session.history keep) := by
  have hunknown : ∀ store, Stable config session keep store → store.loadStoredResult id = none := by
    intro store hstore
    by_contra hfound
    exact hstore.settled.recorded id hfound hfresh
  refine .bind _ (.of_read fun _ hstore => hstore.safe) fun existing => ?_
  refine Triple.check (fun _ hstore => hstore.1.safe) (fun _ _ hstore => hstore.1) fun _ hnone => ?_
  -- The file: created, written, synced, and then its directory entry.
  refine .bind (fun _ => Staged config session keep
    { id, bytes := [], synced := 0, linked := false }) ?_ fun _ => ?_
  · have hcreated : ∀ store, Stable config session keep store ∧ existing = store.findFile id →
        Staged config session keep { id, bytes := [], synced := 0, linked := false }
          (store.apply (.createFile id)) := by
      rintro store ⟨hstable, rfl⟩
      have hmissing : store.findFile id = none := by
        by_contra hfile
        exact (Outcome.rejectIf_eq_ok _ _ _).mp hnone hfile
      refine ⟨⟨hstable.settled.createFile hmissing, hstable.protects⟩, ?_, ?_⟩
      · intro htracked
        exact (hstable.settled.createFile hmissing).found_of_tracked htracked (hunknown store hstable)
      · refine (Rows.find_append_singleton id store.files _).trans ?_
        rw [show Rows.find ResultFile.id id store.files = none from hmissing, Option.none_or,
          if_pos rfl]
    exact .of_perform (fun _ hstore => hstore.1.safe)
      (fun store hstore => (hcreated store hstore).stable.safe) hcreated
  refine .bind _ (staged_update (fun _ => rfl) fun _ => rfl) fun _ => ?_
  refine .bind _ (staged_update (fun _ => rfl) fun _ => rfl) fun _ => ?_
  refine .bind _ staged_link fun _ => ?_
  have hfile : (ResultFile.write 0 (frameOf payload)
      { id, bytes := [], synced := 0, linked := false }).sync.link =
      ResultFile.settled id (frameOf payload) := by
    simp [ResultFile.write, ResultFile.sync, ResultFile.link, ResultFile.settled]
  rw [hfile]
  refine .bind _ (.attempt (insertWritingResult_keeps hfresh hpositive hmaximum hdecode hcolumns))
    fun inserted => ?_
  cases inserted with
  | ok _ =>
    exact .of_pure (fun _ hstore => hstore.safe_started) fun _ hstore => hstore
  | error error =>
    refine .bind _ (.of_read fun _ hstore => hstore.stable.safe) fun stored => ?_
    cases stored with
    | some actual =>
      -- No row can be in the way of a fresh UUID.
      rintro store ⟨hstaged, hstored⟩
      rw [hunknown store hstaged.stable] at hstored
      cases hstored
    | none =>
      refine .bind _ (keeps_of_perform (fun _ hstore => hstore.1.stable) ?_) fun _ => ?_
      · rintro store ⟨hstaged, -⟩
        exact ⟨hstaged.stable.settled.removeFile hstaged.untracked, hstaged.stable.protects⟩
      refine .bind _ (keeps_of_perform (fun _ hstore => hstore)
        fun _ hstore => ⟨hstore.settled.syncDirectory, hstore.protects⟩) fun _ => ?_
      exact .of_fail (fun _ hstore => hstore.safe) fun _ hstore => hstore

theorem beginResultAt_keeps {quotaMs : Int}
    (hclock : ∀ result, keep result → quotaMs < result.expiresAtMs)
    (hfresh : Rows.find Written.id id session.history = none)
    (hdecode : config.codec.decodeSchema (config.codec.encodeSchema schema) = some schema) :
    Triple (Stable config session keep)
      (beginResultAt config id schema createdAtMs expiresAtMs quotaMs session.activeResults)
      (fun writer => Stable config (session.started writer schema) keep)
      (fun _ => Stable config session keep) (Safe config session.history keep) := by
  refine Triple.check (fun _ hstore => hstore.safe) (fun _ _ hstore => hstore) fun _ _ => ?_
  refine Triple.check (fun _ hstore => hstore.safe) (fun _ _ hstore => hstore) fun _ hvalid => ?_
  refine Triple.check (fun _ hstore => hstore.safe) (fun _ _ hstore => hstore) fun frame hframe => ?_
  obtain ⟨hpositive, hmaximum, -, rfl⟩ := encodeFrame_eq_ok_iff.mp hframe
  have hcolumns : schema.columns.length ≤ Wire.maxColumns :=
    Nat.not_lt.mp ((Outcome.rejectIf_eq_ok _ _ _).mp hvalid)
  refine .bind _ (checkResultQuota_keeps hclock) fun _ => ?_
  refine .bind _ (writeSchemaFile_keeps hfresh hpositive hmaximum hdecode hcolumns) fun _ => ?_
  exact .of_pure (fun _ hstore => hstore.safe_started) fun _ hstore => hstore

theorem beginResult_keeps {retention : Nat} {nowMs quotaMs : Int}
    (hclock : ∀ result, keep result → quotaMs < result.expiresAtMs)
    (hfresh : Rows.find Written.id id session.history = none)
    (hdecode : config.codec.decodeSchema (config.codec.encodeSchema schema) = some schema) :
    Triple (Stable config session keep)
      (beginResult config id schema retention nowMs quotaMs session.activeResults)
      (fun writer => Stable config (session.started writer schema) keep)
      (fun _ => Stable config session keep) (Safe config session.history keep) := by
  refine Triple.check (fun _ hstore => hstore.safe) (fun _ _ hstore => hstore) fun _ _ => ?_
  refine Triple.check (fun _ hstore => hstore.safe) (fun _ _ hstore => hstore) fun _ _ => ?_
  refine Triple.check (fun _ hstore => hstore.safe) (fun _ _ hstore => hstore) fun _ _ => ?_
  exact beginResultAt_keeps hclock hfresh hdecode

end Chat2DB.Results
