import Chat2DB.Results.Durability

/-! # Recovery

Recovery is described for any store that the database and the file system can
hold, however damaged: what survives is exactly what is complete, live and whole.
The steps of recovery are few, and whatever they keep is kept by all of it.
-/

namespace Chat2DB.Results

open Storage (i64Max u64Max)
open Stepwise (Triple)

variable {config : StoreConfig} {store base next : ResultStore} {id : ResultId}
  {result : StoredResult} {timestampMs : Int} {other : ResultId} {bytes : List UInt8}
  {error : ResultError}

/-! ## Bytes -/

/-- The bytes of the file of a result. -/
def ResultStore.fileBytes (store : ResultStore) (id : ResultId) : Option (List UInt8) :=
  (store.findFile id).map ResultFile.bytes

theorem fileBytes_updateFile (change : ResultFile → ResultFile)
    (hchange : ∀ file, (change file).id = file.id) (other : ResultId) :
    (store.updateFile id change).fileBytes other =
      (store.findFile other).map fun file =>
        if other = id then (change file).bytes else file.bytes := by
  unfold ResultStore.fileBytes
  rw [findFile_updateFile hchange]
  cases hfile : store.findFile other with
  | none => rfl
  | some file =>
    obtain rfl : file.id = other := (Rows.find_mem hfile).2
    simp only [Option.map_some]
    split <;> rfl

theorem fileBytes_truncateFile {length : Nat} (other : ResultId) :
    (store.apply (.truncateFile id length)).fileBytes other =
      (store.fileBytes other).map fun bytes => if other = id then bytes.take length else bytes := by
  refine (fileBytes_updateFile (ResultFile.truncate length) (fun _ => rfl) other).trans ?_
  unfold ResultStore.fileBytes
  rw [Option.map_map]
  rfl

theorem fileBytes_syncFile (other : ResultId) :
    (store.apply (.syncFile id)).fileBytes other = store.fileBytes other := by
  refine (fileBytes_updateFile ResultFile.sync (fun _ => rfl) other).trans ?_
  unfold ResultStore.fileBytes
  congr 1
  funext file
  split <;> rfl

theorem fileBytes_syncDirectory (other : ResultId) :
    (store.apply .syncDirectory).fileBytes other = store.fileBytes other := by
  unfold ResultStore.fileBytes
  rw [findFile_syncDirectory, Option.map_map]
  rfl

theorem fileBytes_removeFile (hother : other ≠ id) :
    (store.apply (.removeFile id)).fileBytes other = store.fileBytes other := by
  unfold ResultStore.fileBytes
  congr 1
  refine Rows.find_filter_of_keep ?_
  rintro file _ rfl
  simpa using hother

theorem loadAllChunks_deleteResult (hother : other ≠ id) :
    (store.apply (.deleteResult id)).loadAllChunks other = store.loadAllChunks other := by
  have hentries : (store.apply (.deleteResult id)).entries other = store.entries other :=
    entries_apply_deleteResult hother
  unfold ResultStore.entries at hentries
  unfold ResultStore.loadAllChunks
  rw [hentries]

/-! ## Validation -/

/-- What the database and the file system make sure of. -/
structure WellFormed (store : ResultStore) : Prop where
  results : Rows.Keyed StoredResult.id store.results
  files : Rows.Keyed ResultFile.id store.files
  lengths : ∀ result ∈ store.results, result.state = .complete →
    result.committedLength ≤ i64Max

/-- The committed bytes of a result hold what the index says, with or without a tail behind. -/
def Intact (config : StoreConfig) (store : ResultStore) (result : StoredResult) : Prop :=
  ∃ bytes schema batches, store.fileBytes result.id = some bytes ∧
    result.committedLength ≤ bytes.length ∧
    BytesHold config (bytes.take result.committedLength) result (store.loadAllChunks result.id)
      schema batches

theorem readChunk_error {columns : Nat} {chunk : ChunkIndex}
    (herror : readChunk config bytes id columns chunk = .error error) :
    ∃ reason, error = corrupt id reason := by
  simp only [readChunk, validateIndexedBatch, Outcome.bind_eq_error, Outcome.rejectIf_eq_error]
    at herror
  rcases herror with hframe | ⟨batch, -, (⟨-, rfl⟩ | ⟨_, -, hbatch⟩) | ⟨_, -, hpure⟩⟩
  · exact readIndexedFrame_error hframe
  · exact ⟨_, rfl⟩
  · cases hvalid : validateBatch config.codec batch chunk.startRow columns with
    | ok value =>
      rw [hvalid] at hbatch
      cases hbatch
    | error other =>
      rw [hvalid] at hbatch
      cases hbatch
      exact ⟨_, rfl⟩
  · cases hpure

theorem validateChunks_error {columns ordinal offset row : Nat} {chunks : List ChunkIndex}
    (hordinal : ordinal + bytes.length ≤ u64Max + offset) (hlength : bytes.length ≤ u64Max)
    (herror : validateChunks config bytes id columns chunks ordinal offset row = .error error) :
    ∃ reason, error = corrupt id reason := by
  induction chunks generalizing ordinal offset row with
  | nil => cases herror
  | cons chunk rest ih =>
    simp only [validateChunks, Outcome.bind_eq_error, Outcome.rejectIf_eq_error,
      Outcome.rejectIf_eq_ok] at herror
    rcases herror with ⟨-, rfl⟩ | ⟨_, hplace, hchunk | ⟨batch, hread, hrest⟩⟩
    · exact ⟨_, rfl⟩
    · exact readChunk_error hchunk
    · -- Behind a frame that reads, neither sum can leave the range.
      obtain ⟨hframe, -⟩ := readChunk_eq_ok_iff.mp hread
      have hend := readIndexedFrame_bound hframe
      have hlong := readIndexedFrame_frameLength hframe
      have hoffset : chunk.fileOffset = offset := by
        by_contra hne
        exact hplace (.inr (.inl hne))
      rcases hrest with ⟨hmany, -⟩ | ⟨_, -, ⟨hfar, -⟩ | ⟨_, -, hrest⟩⟩
      · omega
      · omega
      · exact ih (by omega) hrest

theorem validateBytes_error {chunks : List ChunkIndex} (hlength : bytes.length ≤ u64Max)
    (herror : validateBytes config bytes result chunks = .error error) :
    ∃ reason, error = corrupt result.id reason := by
  simp only [validateBytes, readSchema, Outcome.bind_eq_error, Outcome.rejectIf_eq_error] at herror
  rcases herror with (hframe | ⟨schema, -, hschema | ⟨_, -, hpure⟩⟩) |
    ⟨schema, -, hchunks | ⟨place, -, -, rfl⟩⟩
  · exact readIndexedFrame_error hframe
  · cases hvalid : validateSchema schema with
    | ok value =>
      rw [hvalid] at hschema
      cases hschema
    | error other =>
      rw [hvalid] at hschema
      cases hschema
      exact ⟨_, rfl⟩
  · cases hpure
  · exact validateChunks_error (Nat.le_trans (by omega) (Nat.le_add_right _ _)) hlength hchunks
  · exact ⟨_, rfl⟩

/-! ## Steps of recovery -/

/-- A result that recovery removes. -/
def Removed (config : StoreConfig) (timestampMs : Int) (store : ResultStore)
    (result : StoredResult) : Prop :=
  result.state = .writing ∨ result.expiresAtMs ≤ timestampMs ∨ ¬ Intact config store result

/-- What every step of recovery keeps. -/
structure KeptByRecovery (config : StoreConfig) (timestampMs : Int) (kept : ResultStore → Prop) :
    Prop where
  delete : ∀ store id, kept store →
    (∀ result ∈ store.results, result.id = id → Removed config timestampMs store result) →
    kept (store.apply (.deleteResult id))
  remove : ∀ store id, kept store → store.loadStoredResult id = none →
    kept (store.apply (.removeFile id))
  link : ∀ store, kept store → kept (store.apply .syncDirectory)
  truncate : ∀ store, kept store → ∀ result ∈ store.results,
    kept (store.apply (.truncateFile result.id result.committedLength))
  sync : ∀ store id, kept store → kept (store.apply (.syncFile id))

/-- The store after the tail of a file was cut off. -/
def ResultStore.cutTail (store : ResultStore) (result : StoredResult) : ResultStore :=
  match store.fileBytes result.id with
  | none => store
  | some bytes =>
    if result.committedLength < bytes.length then
      (store.apply (.truncateFile result.id result.committedLength)).apply (.syncFile result.id)
    else
      store

theorem cutTail_results : (store.cutTail result).results = store.results := by
  unfold ResultStore.cutTail
  split
  · rfl
  · split <;> rfl

theorem cutTail_chunks : (store.cutTail result).chunks = store.chunks := by
  unfold ResultStore.cutTail
  split
  · rfl
  · split <;> rfl

theorem cutTail_loadAllChunks (id : ResultId) :
    (store.cutTail result).loadAllChunks id = store.loadAllChunks id := by
  unfold ResultStore.loadAllChunks
  rw [cutTail_chunks]

theorem cutTail_files (hfiles : Rows.Keyed ResultFile.id store.files) :
    Rows.Keyed ResultFile.id (store.cutTail result).files := by
  unfold ResultStore.cutTail
  split
  · exact hfiles
  · split
    · refine Rows.Keyed.update (Rows.Keyed.update hfiles ?_) ?_
      · exact fun _ => rfl
      · exact fun _ => rfl
    · exact hfiles

theorem cutTail_fileBytes_ne (hother : other ≠ result.id) :
    (store.cutTail result).fileBytes other = store.fileBytes other := by
  unfold ResultStore.cutTail
  split
  · rfl
  · split
    · rw [fileBytes_syncFile, fileBytes_truncateFile]
      simp only [if_neg hother, Option.map_id']
    · rfl

theorem cutTail_fileBytes :
    (store.cutTail result).fileBytes result.id =
      (store.fileBytes result.id).map fun bytes => bytes.take result.committedLength := by
  unfold ResultStore.cutTail
  split
  · rename_i hbytes
    rw [hbytes]
    rfl
  · rename_i bytes hbytes
    split
    · rw [fileBytes_syncFile, fileBytes_truncateFile]
      simp only [if_pos]
    · rename_i hshort
      rw [hbytes, Option.map_some, List.take_of_length_le (Nat.not_lt.mp hshort)]

theorem intact_cutTail : Intact config (store.cutTail result) result ↔ Intact config store result := by
  unfold Intact
  rw [cutTail_fileBytes, cutTail_loadAllChunks]
  constructor
  · rintro ⟨_, schema, batches, hcut, hlength, hholds⟩
    obtain ⟨bytes, hbytes, rfl⟩ := Option.map_eq_some_iff.mp hcut
    rw [List.length_take] at hlength
    rw [List.take_take, Nat.min_self] at hholds
    exact ⟨bytes, schema, batches, hbytes, by omega, hholds⟩
  · rintro ⟨bytes, schema, batches, hbytes, hlength, hholds⟩
    refine ⟨_, schema, batches, Option.map_eq_some_iff.mpr ⟨bytes, hbytes, rfl⟩, ?_, ?_⟩
    · rw [List.length_take]
      omega
    · rw [List.take_take, Nat.min_self]
      exact hholds

variable {kept : ResultStore → Prop}

theorem KeptByRecovery.cutTail (hkept : KeptByRecovery config timestampMs kept)
    (hstore : kept store) (hresult : result ∈ store.results) : kept (store.cutTail result) := by
  unfold ResultStore.cutTail
  split
  · exact hstore
  · split
    · exact hkept.sync _ _ (hkept.truncate store hstore result hresult)
    · exact hstore

theorem truncateTail_spec (hkept : KeptByRecovery config timestampMs kept)
    (hstore : kept base) (hresult : result ∈ base.results) :
    Triple (fun store => store = base) (truncateTail result)
      (fun tailTruncated store => store = base.cutTail result ∧
        ∃ bytes, base.fileBytes result.id = some bytes ∧ result.committedLength ≤ bytes.length ∧
          tailTruncated = decide (result.committedLength < bytes.length))
      (fun error store => store = base.cutTail result ∧ ¬ Intact config base result ∧
        ∃ reason, error = corrupt result.id reason) kept := by
  have hstart : ∀ store, store = base → kept store := by
    rintro _ rfl
    exact hstore
  refine .read_at hstore ?_
  cases hfile : base.findFile result.id with
  | none =>
    have hbytes : base.fileBytes result.id = none := by
      unfold ResultStore.fileBytes
      rw [hfile]
      rfl
    have hmissing : base.openResultFile result.id =
        .error (corrupt result.id "result file is missing") := by
      unfold ResultStore.openResultFile
      rw [hfile]
      rfl
    refine .stopped hmissing hstart ?_
    rintro _ rfl
    refine ⟨?_, ?_, _, rfl⟩
    · unfold ResultStore.cutTail
      rw [hbytes]
    · rintro ⟨bytes, _, _, hfound, -⟩
      rw [hbytes] at hfound
      cases hfound
  | some file =>
    have hbytes : base.fileBytes result.id = some file.bytes := by
      unfold ResultStore.fileBytes
      rw [hfile]
      rfl
    have hcut : base.cutTail result = if result.committedLength < file.bytes.length then
        (base.apply (.truncateFile result.id result.committedLength)).apply (.syncFile result.id)
        else base := by
      unfold ResultStore.cutTail
      rw [hbytes]
    have hopened : base.openResultFile result.id = .ok file := by
      unfold ResultStore.openResultFile
      rw [hfile]
      rfl
    refine .passed hopened hstart ?_
    -- shorter than what was committed is corrupt, longer is cut off
    by_cases hshort : file.bytes.length < result.committedLength
    · refine .stopped ((Outcome.rejectIf_eq_error _ _ _).mpr ⟨hshort, rfl⟩) hstart ?_
      rintro _ rfl
      refine ⟨?_, ?_, _, rfl⟩
      · rw [hcut, if_neg (by omega)]
      · rintro ⟨bytes, _, _, hfound, hlength, -⟩
        rw [hbytes] at hfound
        obtain rfl := Option.some.inj hfound
        omega
    · refine .passed ((Outcome.rejectIf_eq_ok _ _ ()).mpr hshort) hstart ?_
      by_cases hlong : file.bytes.length > result.committedLength
      · rw [if_pos hlong]
        have htruncated := hkept.truncate base hstore result hresult
        have hsynced := hkept.sync _ result.id htruncated
        refine .perform_at hstore htruncated (.perform_at htruncated hsynced ?_)
        refine .of_pure ?_ ?_
        · rintro _ rfl
          exact hsynced
        · rintro _ rfl
          refine ⟨?_, file.bytes, hbytes, by omega, ?_⟩
          · rw [hcut, if_pos hlong]
            rfl
          · simp [hlong]
      · rw [if_neg hlong]
        refine .of_pure hstart ?_
        rintro _ rfl
        refine ⟨?_, file.bytes, hbytes, by omega, ?_⟩
        · rw [hcut, if_neg hlong]
        · simp [hlong]

theorem openResultFile_bind {α : Type}
    (hbytes : store.fileBytes id = some bytes) (check : List UInt8 → Except ResultError α) :
    (do
      let file ← store.openResultFile id
      check file.bytes) = check bytes := by
  obtain ⟨file, hfile, rfl⟩ := Option.map_eq_some_iff.mp hbytes
  unfold ResultStore.openResultFile
  rw [hfile]
  rfl

theorem validateCompletedResult_spec (hkept : KeptByRecovery config timestampMs kept)
    (hstore : kept base) (hresult : result ∈ base.results)
    (hversion : result.formatVersion = resultFormatVersion)
    (hlength : result.committedLength ≤ i64Max) :
    Triple (fun store => store = base) (validateCompletedResult config result)
      (fun tailTruncated store => store = base.cutTail result ∧ Intact config base result ∧
        ∃ bytes, base.fileBytes result.id = some bytes ∧
          tailTruncated = decide (result.committedLength < bytes.length))
      (fun error store => store = base.cutTail result ∧ ¬ Intact config base result ∧
        ∃ reason, error = corrupt result.id reason) kept := by
  have hstart : ∀ store, store = base → kept store := by
    rintro _ rfl
    exact hstore
  have hcut : kept (base.cutTail result) := hkept.cutTail hstore hresult
  refine .passed ((Outcome.rejectIf_eq_ok _ _ ()).mpr (not_not.mpr hversion)) hstart ?_
  refine .bind _ (truncateTail_spec hkept hstore hresult) fun tailTruncated => ?_
  refine .of_fact ?_
  rintro ⟨bytes, hbytes, henough, htail⟩
  refine .read_at hcut ?_
  -- The file is now as long as the index says, and what is checked is that.
  have hcutBytes : (base.cutTail result).fileBytes result.id =
      some (bytes.take result.committedLength) := by
    rw [cutTail_fileBytes, hbytes, Option.map_some]
  have hshort : (bytes.take result.committedLength).length ≤ u64Max := by
    rw [List.length_take]
    have hu64 : i64Max < u64Max := by decide
    omega
  have hintact : validateBytes config (bytes.take result.committedLength) result
      (base.loadAllChunks result.id) = .ok () ↔ Intact config base result := by
    rw [validateBytes_eq_ok_iff hshort]
    constructor
    · rintro ⟨schema, batches, hholds⟩
      exact ⟨bytes, schema, batches, hbytes, henough, hholds⟩
    · rintro ⟨other, schema, batches, hother, -, hholds⟩
      rw [hbytes] at hother
      obtain rfl := Option.some.inj hother
      exact ⟨schema, batches, hholds⟩
  have hcrash : ∀ store, store = base.cutTail result → kept store := by
    rintro _ rfl
    exact hcut
  rw [openResultFile_bind hcutBytes fun bytes =>
    validateBytes config bytes result ((base.cutTail result).loadAllChunks result.id),
    cutTail_loadAllChunks]
  cases hchecked : validateBytes config (bytes.take result.committedLength) result
      (base.loadAllChunks result.id) with
  | error error =>
    refine .stopped rfl hcrash ?_
    rintro _ rfl
    refine ⟨rfl, fun hwhole => ?_, validateBytes_error hshort hchecked⟩
    rw [hintact.mpr hwhole] at hchecked
    cases hchecked
  | ok _ =>
    refine .passed rfl hcrash (.of_pure hcrash ?_)
    rintro _ rfl
    exact ⟨rfl, hintact.mp hchecked, bytes, hbytes, htail⟩

/-! ## One result -/

/-- The store without a result and its file. -/
def ResultStore.erase (store : ResultStore) (id : ResultId) : ResultStore :=
  ((store.apply (.deleteResult id)).apply (.removeFile id)).apply .syncDirectory

theorem mem_erase : result ∈ (store.erase id).results ↔ result ∈ store.results ∧ result.id ≠ id := by
  refine List.mem_filter.trans (and_congr_right fun _ => ?_)
  simp

theorem erase_fileBytes (hother : other ≠ id) :
    (store.erase id).fileBytes other = store.fileBytes other := by
  unfold ResultStore.erase
  rw [fileBytes_syncDirectory, fileBytes_removeFile hother]
  rfl

theorem erase_loadAllChunks (hother : other ≠ id) :
    (store.erase id).loadAllChunks other = store.loadAllChunks other :=
  loadAllChunks_deleteResult hother

theorem erase_files (hfiles : Rows.Keyed ResultFile.id store.files) :
    Rows.Keyed ResultFile.id (store.erase id).files := by
  have hkeyed : Rows.Keyed ResultFile.id ((store.apply (.deleteResult id)).apply
      (.removeFile id)).files := hfiles.filter _
  unfold Rows.Keyed ResultStore.erase ResultStore.apply
  rw [List.map_map]
  exact hkeyed

theorem deleteResult_spec {failed : ResultError → ResultStore → Prop}
    (hkept : KeptByRecovery config timestampMs kept) (hstore : kept base)
    (hremoved : ∀ result ∈ base.results, result.id = id →
      Removed config timestampMs base result) :
    Triple (fun store => store = base) (deleteResult id)
      (fun _ store => store = base.erase id ∧ kept (base.erase id)) failed kept := by
  have hdeleted := hkept.delete base id hstore hremoved
  have hcleared := hkept.remove _ id hdeleted
    ((load_apply_deleteResult id).trans (if_pos rfl))
  have hlinked := hkept.link _ hcleared
  refine .perform_at hstore hdeleted (.perform_at hdeleted hcleared ?_)
  refine .of_perform ?_ ?_ ?_
  · rintro _ rfl
    exact hcleared
  · rintro _ rfl
    exact hlinked
  · rintro _ rfl
    exact ⟨rfl, hlinked⟩

/-- Two stores that differ at most in the bytes of one file. -/
structure Alike (id : ResultId) (store middle : ResultStore) : Prop where
  results : middle.results = store.results
  files : Rows.Keyed ResultFile.id middle.files
  chunks : ∀ other, middle.loadAllChunks other = store.loadAllChunks other
  bytes : ∀ other, other ≠ id → middle.fileBytes other = store.fileBytes other

theorem alike_self (hfiles : Rows.Keyed ResultFile.id store.files) : Alike id store store :=
  ⟨rfl, hfiles, fun _ => rfl, fun _ _ => rfl⟩

theorem alike_cutTail (hfiles : Rows.Keyed ResultFile.id store.files) :
    Alike result.id store (store.cutTail result) :=
  ⟨cutTail_results, cutTail_files hfiles, cutTail_loadAllChunks, fun _ => cutTail_fileBytes_ne⟩

/-- A result that recovery leaves, with its file at the committed length. -/
structure Survives (config : StoreConfig) (timestampMs : Int) (base store : ResultStore)
    (result : StoredResult) : Prop where
  complete : result.state = .complete
  live : timestampMs < result.expiresAtMs
  intact : Intact config base result
  bytes : store.fileBytes result.id =
    (base.fileBytes result.id).map fun bytes => bytes.take result.committedLength
  chunks : store.loadAllChunks result.id = base.loadAllChunks result.id

/-- Where recovery stands before the results that are left. -/
structure Recovering (config : StoreConfig) (timestampMs : Int) (base : ResultStore)
    (kept : ResultStore → Prop) (rest : List StoredResult) (referenced : List ResultId)
    (store : ResultStore) : Prop where
  keeps : kept store
  wellFormed : WellFormed store
  members : ∀ result ∈ store.results, result ∈ base.results
  distinct : (rest.map StoredResult.id).Nodup
  pending : ∀ result ∈ rest, result ∈ store.results ∧
    store.fileBytes result.id = base.fileBytes result.id ∧
    store.loadAllChunks result.id = base.loadAllChunks result.id
  done : ∀ result ∈ store.results, result ∈ rest ∨
    Survives config timestampMs base store result ∧ result.id ∈ referenced
  owners : ∀ id ∈ referenced, ∃ result ∈ store.results, result ∉ rest ∧ result.id = id
  all : ∀ result ∈ base.results, ¬ Removed config timestampMs base result → result ∈ store.results

variable {rest : List StoredResult} {referenced : List ResultId}

theorem Recovering.distinct_cons
    (hrecovering : Recovering config timestampMs base kept (result :: rest) referenced store)
    {other : StoredResult} (hother : other ∈ rest) : other.id ≠ result.id := by
  intro hid
  have hfresh := (List.nodup_cons.mp hrecovering.distinct).1
  exact hfresh (hid ▸ List.mem_map_of_mem hother)

theorem Recovering.intact_iff
    (hrecovering : Recovering config timestampMs base kept (result :: rest) referenced store) :
    Intact config store result ↔ Intact config base result := by
  obtain ⟨-, hbytes, hchunks⟩ := hrecovering.pending result List.mem_cons_self
  unfold Intact
  rw [hbytes, hchunks]

/-- Removing the result whose turn it is, possibly after its tail was cut off. -/
theorem Recovering.erase
    (hrecovering : Recovering config timestampMs base kept (result :: rest) referenced store)
    (hremoved : Removed config timestampMs base result) {middle : ResultStore}
    (halike : Alike result.id store middle) (hkept : kept (middle.erase result.id)) :
    Recovering config timestampMs base kept rest referenced (middle.erase result.id) := by
  have hmem : ∀ other, other ∈ (middle.erase result.id).results ↔
      other ∈ store.results ∧ other.id ≠ result.id := by
    intro other
    rw [mem_erase, halike.results]
  have hsame : ∀ other, other ≠ result.id →
      (middle.erase result.id).fileBytes other = store.fileBytes other ∧
        (middle.erase result.id).loadAllChunks other = store.loadAllChunks other := by
    intro other hother
    rw [erase_fileBytes hother, erase_loadAllChunks hother, halike.bytes other hother,
      halike.chunks]
    exact ⟨rfl, rfl⟩
  have hself := (hrecovering.pending result List.mem_cons_self).1
  refine ⟨hkept, ⟨?_, erase_files halike.files, ?_⟩, ?_, ?_, ?_, ?_, ?_, ?_⟩
  · refine Rows.Keyed.filter ?_ _
    rw [halike.results]
    exact hrecovering.wellFormed.results
  · exact fun other hother => hrecovering.wellFormed.lengths other ((hmem other).mp hother).1
  · exact fun other hother => hrecovering.members other ((hmem other).mp hother).1
  · exact (List.nodup_cons.mp hrecovering.distinct).2
  · intro other hother
    obtain ⟨hfound, hbase⟩ := hrecovering.pending other (List.mem_cons_of_mem result hother)
    have hapart := hrecovering.distinct_cons hother
    rw [(hsame _ hapart).1, (hsame _ hapart).2]
    exact ⟨(hmem other).mpr ⟨hfound, hapart⟩, hbase⟩
  · intro other hother
    obtain ⟨hfound, hapart⟩ := (hmem other).mp hother
    rcases hrecovering.done other hfound with hpending | ⟨hsurvives, hreferenced⟩
    · rcases List.mem_cons.mp hpending with rfl | hpending
      · exact absurd rfl hapart
      · exact .inl hpending
    · refine .inr ⟨{ hsurvives with bytes := ?_, chunks := ?_ }, hreferenced⟩
      · rw [(hsame _ hapart).1]
        exact hsurvives.bytes
      · rw [(hsame _ hapart).2]
        exact hsurvives.chunks
  · intro id hid
    obtain ⟨owner, howner, hdone, rfl⟩ := hrecovering.owners id hid
    have hapart : owner.id ≠ result.id := by
      intro heq
      obtain rfl := hrecovering.wellFormed.results.eq_of_key_eq howner hself heq
      exact hdone List.mem_cons_self
    exact ⟨owner, (hmem owner).mpr ⟨howner, hapart⟩,
      fun hrest => hdone (List.mem_cons_of_mem result hrest), rfl⟩
  · intro other hother hstays
    have hfound := hrecovering.all other hother hstays
    refine (hmem other).mpr ⟨hfound, fun hid => ?_⟩
    obtain rfl := hrecovering.wellFormed.results.eq_of_key_eq hfound hself hid
    exact hstays hremoved

/-- Leaving the result whose turn it is. -/
theorem Recovering.leave
    (hrecovering : Recovering config timestampMs base kept (result :: rest) referenced store)
    (hcomplete : result.state = .complete) (hlive : timestampMs < result.expiresAtMs)
    (hintact : Intact config base result) (hkept : kept (store.cutTail result)) :
    Recovering config timestampMs base kept rest (result.id :: referenced)
      (store.cutTail result) := by
  obtain ⟨hself, hselfBytes, hselfChunks⟩ := hrecovering.pending result List.mem_cons_self
  refine ⟨hkept, ⟨?_, cutTail_files hrecovering.wellFormed.files, ?_⟩, ?_, ?_, ?_, ?_, ?_, ?_⟩
  · rw [cutTail_results]
    exact hrecovering.wellFormed.results
  · rw [cutTail_results]
    exact hrecovering.wellFormed.lengths
  · rw [cutTail_results]
    exact hrecovering.members
  · exact (List.nodup_cons.mp hrecovering.distinct).2
  · intro other hother
    have hapart := hrecovering.distinct_cons hother
    rw [cutTail_results, cutTail_fileBytes_ne hapart, cutTail_loadAllChunks]
    exact hrecovering.pending other (List.mem_cons_of_mem result hother)
  · intro other hother
    rw [cutTail_results] at hother
    by_cases hid : other.id = result.id
    · obtain rfl := hrecovering.wellFormed.results.eq_of_key_eq hother hself hid
      refine .inr ⟨⟨hcomplete, hlive, hintact, ?_, ?_⟩, List.mem_cons_self⟩
      · rw [cutTail_fileBytes, hselfBytes]
      · rw [cutTail_loadAllChunks, hselfChunks]
    · rcases hrecovering.done other hother with hpending | ⟨hsurvives, hreferenced⟩
      · rcases List.mem_cons.mp hpending with rfl | hpending
        · exact absurd rfl hid
        · exact .inl hpending
      · refine .inr ⟨{ hsurvives with bytes := ?_, chunks := ?_ },
          List.mem_cons_of_mem _ hreferenced⟩
        · rw [cutTail_fileBytes_ne hid]
          exact hsurvives.bytes
        · rw [cutTail_loadAllChunks]
          exact hsurvives.chunks
  · intro id hid
    rw [cutTail_results]
    rcases List.mem_cons.mp hid with rfl | hid
    · refine ⟨result, hself, fun hrest => ?_, rfl⟩
      exact hrecovering.distinct_cons hrest rfl
    · obtain ⟨owner, howner, hdone, rfl⟩ := hrecovering.owners id hid
      exact ⟨owner, howner, fun hrest => hdone (List.mem_cons_of_mem result hrest), rfl⟩
  · rw [cutTail_results]
    exact hrecovering.all

/-- Removing the result whose turn it is. -/
theorem Recovering.delete_spec (hkept : KeptByRecovery config timestampMs kept)
    (hrecovering : Recovering config timestampMs base kept (result :: rest) referenced store)
    (hremoved : Removed config timestampMs base result) {middle : ResultStore}
    (halike : Alike result.id store middle) (hmiddle : kept middle)
    (hremovedNow : Removed config timestampMs middle result) {progress : RecoveryProgress}
    (hprogress : progress.referencedFiles = referenced) :
    Triple (fun next => next = middle)
      (do
        deleteResult result.id
        pure progress : StoreM RecoveryProgress)
      (fun next => Recovering config timestampMs base kept rest next.referencedFiles)
      (fun _ _ => False) kept := by
  have hself := (hrecovering.pending result List.mem_cons_self).1
  have honly : ∀ other ∈ middle.results, other.id = result.id →
      Removed config timestampMs middle other := by
    intro other hother hid
    rw [halike.results] at hother
    obtain rfl := hrecovering.wellFormed.results.eq_of_key_eq hother hself hid
    exact hremovedNow
  apply Triple.bind _ (deleteResult_spec hkept hmiddle honly)
  intro _
  apply Triple.of_fact
  intro herased
  apply Triple.of_pure
  · rintro _ rfl
    exact herased
  · rintro _ rfl
    rw [hprogress]
    exact hrecovering.erase hremoved halike herased

/-- The turn of one result. Recovery does not fail for what a file or the index holds. -/
theorem recoverResult_spec (hkept : KeptByRecovery config timestampMs kept)
    (hversions : ∀ result ∈ base.results, result.formatVersion = resultFormatVersion)
    (progress : RecoveryProgress) :
    Triple (Recovering config timestampMs base kept (result :: rest) progress.referencedFiles)
      (recoverResult config timestampMs progress result)
      (fun next => Recovering config timestampMs base kept rest next.referencedFiles)
      (fun _ _ => False) kept := by
  apply Triple.of_state
  intro store hrecovering
  have hself := (hrecovering.pending result List.mem_cons_self).1
  have hkeeps := hrecovering.keeps
  have halike : Alike result.id store store := alike_self hrecovering.wellFormed.files
  unfold recoverResult
  -- unfinished or expired results go; a complete one has its tail cut off
  by_cases hwriting : result.state = .writing
  · rw [if_pos hwriting]
    exact hrecovering.delete_spec hkept (.inl hwriting) halike hkeeps (.inl hwriting) rfl
  rw [if_neg hwriting]
  by_cases hexpired : result.expiresAtMs ≤ timestampMs
  · rw [if_pos hexpired]
    exact hrecovering.delete_spec hkept (.inr (.inl hexpired)) halike hkeeps
      (.inr (.inl hexpired)) rfl
  rw [if_neg hexpired]
  have hcomplete : result.state = .complete := by
    cases hstate : result.state with
    | writing => exact absurd hstate hwriting
    | complete => rfl
  apply Triple.bind _ (.attempt (validateCompletedResult_spec hkept hkeeps hself
    (hversions result (hrecovering.members result hself))
    (hrecovering.wellFormed.lengths result hself hcomplete)))
  intro validated
  cases validated with
  | ok tailTruncated =>
    apply Triple.of_fact
    rintro ⟨hintact, -⟩
    have hcut := hkept.cutTail hkeeps hself
    apply Triple.of_pure
    · rintro _ rfl
      exact hcut
    · rintro _ rfl
      exact hrecovering.leave hcomplete (Int.not_le.mp hexpired)
        (hrecovering.intact_iff.mp hintact) hcut
  | error error =>
    apply Triple.of_fact
    rintro ⟨hdamaged, reason, rfl⟩
    refine hrecovering.delete_spec hkept (.inr (.inr ?_))
      (alike_cutTail hrecovering.wellFormed.files) (hkept.cutTail hkeeps hself)
      (.inr (.inr ?_)) rfl
    · exact fun hintact => hdamaged (hrecovering.intact_iff.mpr hintact)
    · exact fun hintact => hdamaged (intact_cutTail.mp hintact)

/-! ## All of it -/

/-- What recovery makes of a store. -/
structure Recovered (config : StoreConfig) (timestampMs : Int) (base store : ResultStore) :
    Prop where
  wellFormed : WellFormed store
  members : ∀ result ∈ store.results, result ∈ base.results
  survives : ∀ result ∈ store.results, Survives config timestampMs base store result
  all : ∀ result ∈ base.results, ¬ Removed config timestampMs base result → result ∈ store.results
  referenced : ∀ file ∈ store.files, ∃ result ∈ store.results, result.id = file.id
  linked : ∀ file ∈ store.files, file.linked = true

/-- The files that are left while the unreferenced ones are removed. -/
structure Clearing (config : StoreConfig) (timestampMs : Int) (base : ResultStore)
    (kept : ResultStore → Prop) (referenced : List ResultId) (rest : List ResultFile)
    (store : ResultStore) : Prop where
  recovering : Recovering config timestampMs base kept [] referenced store
  left : ∀ file ∈ store.files, file.id ∈ referenced ∨ ∃ other ∈ rest, other.id = file.id

theorem removeOrphan_spec (hkept : KeptByRecovery config timestampMs kept) {file : ResultFile}
    {others : List ResultFile} (removed : Nat) :
    Triple (Clearing config timestampMs base kept referenced (file :: others))
      (removeOrphan referenced removed file)
      (fun _ => Clearing config timestampMs base kept referenced others) (fun _ _ => False)
      kept := by
  unfold removeOrphan
  by_cases hreferenced : file.id ∈ referenced
  · rw [if_pos hreferenced]
    apply Triple.of_pure
    · exact fun _ hstore => hstore.recovering.keeps
    · refine fun store hstore => ⟨hstore.recovering, fun other hother => ?_⟩
      rcases hstore.left other hother with hleft | ⟨pending, hpending, hid⟩
      · exact .inl hleft
      · rcases List.mem_cons.mp hpending with rfl | hpending
        · exact .inl (hid ▸ hreferenced)
        · exact .inr ⟨pending, hpending, hid⟩
  · rw [if_neg hreferenced]
    have hunreferenced : ∀ store, Recovering config timestampMs base kept [] referenced store →
        ∀ result ∈ store.results, result.id ≠ file.id := by
      intro store hstore result hresult hid
      rcases hstore.done result hresult with hpending | ⟨-, hfound⟩
      · cases hpending
      · exact hreferenced (hid ▸ hfound)
    have hremoved : ∀ store, Clearing config timestampMs base kept referenced (file :: others)
        store → Clearing config timestampMs base kept referenced others
          (store.apply (.removeFile file.id)) := by
      intro store hstore
      have hrecovering := hstore.recovering
      have hapart := hunreferenced store hrecovering
      refine ⟨{ hrecovering with
        keeps := ?_, wellFormed := ?_, pending := ?_, done := ?_ }, ?_⟩
      · exact hkept.remove store file.id hrecovering.keeps
          (Rows.find_eq_none_iff.mpr hapart)
      · exact ⟨hrecovering.wellFormed.results, hrecovering.wellFormed.files.filter _,
          hrecovering.wellFormed.lengths⟩
      · intro result hresult
        cases hresult
      · intro result hresult
        rcases hrecovering.done result hresult with hpending | ⟨hsurvives, hfound⟩
        · cases hpending
        · refine .inr ⟨{ hsurvives with bytes := ?_ }, hfound⟩
          rw [fileBytes_removeFile (hapart result hresult)]
          exact hsurvives.bytes
      · intro other hother
        obtain ⟨hother, hne⟩ := List.mem_filter.mp hother
        rcases hstore.left other hother with hleft | ⟨pending, hpending, hid⟩
        · exact .inl hleft
        · rcases List.mem_cons.mp hpending with rfl | hpending
          · simp [hid] at hne
          · exact .inr ⟨pending, hpending, hid⟩
    apply Triple.bind (fun _ => Clearing config timestampMs base kept referenced others)
    · exact .of_perform (fun _ hstore => hstore.recovering.keeps)
        (fun store hstore => (hremoved store hstore).recovering.keeps) hremoved
    · exact fun _ => .of_pure (fun _ hstore => hstore.recovering.keeps) fun _ hstore => hstore

/-- The last step makes the directory durable. -/
theorem Clearing.recovered (hkept : KeptByRecovery config timestampMs kept)
    (hclearing : Clearing config timestampMs base kept referenced [] store) :
    kept (store.apply .syncDirectory) ∧
      Recovered config timestampMs base (store.apply .syncDirectory) := by
  have hrecovering := hclearing.recovering
  refine ⟨hkept.link store hrecovering.keeps, ⟨hrecovering.wellFormed.results, ?_,
    hrecovering.wellFormed.lengths⟩, hrecovering.members, ?_, hrecovering.all, ?_, ?_⟩
  · unfold Rows.Keyed ResultStore.apply
    rw [List.map_map]
    exact hrecovering.wellFormed.files
  · intro result hresult
    rcases hrecovering.done result hresult with hpending | ⟨hsurvives, -⟩
    · cases hpending
    · refine { hsurvives with bytes := ?_ }
      rw [fileBytes_syncDirectory]
      exact hsurvives.bytes
  · intro file hfile
    obtain ⟨old, hold, rfl⟩ := List.mem_map.mp hfile
    rcases hclearing.left old hold with hreferenced | ⟨_, hnone, -⟩
    · obtain ⟨result, hresult, -, hid⟩ := hrecovering.owners old.id hreferenced
      exact ⟨result, hresult, hid⟩
    · cases hnone
  · intro file hfile
    obtain ⟨old, -, rfl⟩ := List.mem_map.mp hfile
    rfl

theorem unsupported_eq_none
    (hversions : ∀ result ∈ store.results, result.formatVersion = resultFormatVersion) :
    store.loadAllResults.find? (fun result =>
      decide (result.formatVersion ≠ resultFormatVersion)) = none := by
  rw [List.find?_eq_none]
  intro result hresult
  have hmem := (List.perm_insertionSort _ store.results).mem_iff.mp hresult
  simp [hversions result hmem]

/-- Recovery of any store with known formats: it returns, and what its steps keep is kept at every
moment. -/
theorem recoverAt_spec (hkept : KeptByRecovery config timestampMs kept) (hstore : kept base)
    (hwellFormed : WellFormed base)
    (hversions : ∀ result ∈ base.results, result.formatVersion = resultFormatVersion) :
    Triple (fun store => store = base) (recoverAt config timestampMs)
      (fun _ store => kept store ∧ Recovered config timestampMs base store) (fun _ _ => False)
      kept := by
  apply Triple.read_at hstore
  rw [unsupported_eq_none hversions]
  apply Triple.read_at hstore
  have hperm := List.perm_insertionSort
    (fun left right : StoredResult => left.id ≤ right.id) base.results
  have hstart : Recovering config timestampMs base kept base.loadAllResults [] base := by
    refine ⟨hstore, hwellFormed, fun _ hresult => hresult, ?_, ?_, ?_, ?_, ?_⟩
    · exact ((hperm.map StoredResult.id).nodup_iff).mpr hwellFormed.results
    · exact fun result hresult => ⟨hperm.mem_iff.mp hresult, rfl, rfl⟩
    · exact fun result hresult => .inl (hperm.mem_iff.mpr hresult)
    · intro id hid
      cases hid
    · exact fun _ hresult _ => hresult
  apply Triple.bind (fun progress : RecoveryProgress =>
    Recovering config timestampMs base kept [] progress.referencedFiles)
  · refine (Triple.fold (fun rest (progress : RecoveryProgress) =>
      Recovering config timestampMs base kept rest progress.referencedFiles)
      (fun _ _ hrecovering => hrecovering.keeps) ?_ base.loadAllResults _).strengthen ?_
    · exact fun result rest progress => recoverResult_spec hkept hversions progress
    · rintro _ rfl
      exact hstart
  intro progress
  apply Triple.bind _ (.of_read fun _ hrecovering => hrecovering.keeps)
  intro files
  apply Triple.bind (fun _ => Clearing config timestampMs base kept progress.referencedFiles [])
  · refine (Triple.fold (fun rest _ =>
      Clearing config timestampMs base kept progress.referencedFiles rest)
      (fun _ _ hclearing => hclearing.recovering.keeps) ?_ files 0).strengthen ?_
    · exact fun file rest removed => removeOrphan_spec hkept removed
    · rintro store ⟨hrecovering, rfl⟩
      exact ⟨hrecovering, fun file hfile => .inr ⟨file, hfile, rfl⟩⟩
  intro removed
  apply Triple.bind (fun _ store => kept store ∧ Recovered config timestampMs base store)
  · exact .of_perform (fun _ hclearing => hclearing.recovering.keeps)
      (fun _ hclearing => (hclearing.recovered hkept).1)
      fun _ hclearing => hclearing.recovered hkept
  · exact fun _ => .of_pure (fun _ hrecovered => hrecovered.1) fun _ hrecovered => hrecovered

/-! ## Once more -/

/-- A store that recovery has no work with. -/
structure Idle (config : StoreConfig) (timestampMs : Int) (store : ResultStore) : Prop where
  wellFormed : WellFormed store
  versions : ∀ result ∈ store.results, result.formatVersion = resultFormatVersion
  complete : ∀ result ∈ store.results, result.state = .complete
  live : ∀ result ∈ store.results, timestampMs < result.expiresAtMs
  intact : ∀ result ∈ store.results, Intact config store result
  exact : ∀ result ∈ store.results, ∀ bytes, store.fileBytes result.id = some bytes →
    bytes.length = result.committedLength
  referenced : ∀ file ∈ store.files, ∃ result ∈ store.results, result.id = file.id
  linked : ∀ file ∈ store.files, file.linked = true

theorem Recovered.idle (hrecovered : Recovered config timestampMs base store)
    (hversions : ∀ result ∈ base.results, result.formatVersion = resultFormatVersion) :
    Idle config timestampMs store := by
  refine ⟨hrecovered.wellFormed, ?_, ?_, ?_, ?_, ?_, hrecovered.referenced, hrecovered.linked⟩
  · exact fun result hresult => hversions result (hrecovered.members result hresult)
  · exact fun result hresult => (hrecovered.survives result hresult).complete
  · exact fun result hresult => (hrecovered.survives result hresult).live
  · intro result hresult
    have hsurvives := hrecovered.survives result hresult
    obtain ⟨bytes, schema, batches, hbytes, hlength, hholds⟩ := hsurvives.intact
    refine ⟨bytes.take result.committedLength, schema, batches, ?_, ?_, ?_⟩
    · rw [hsurvives.bytes, hbytes, Option.map_some]
    · rw [List.length_take]
      omega
    · rw [hsurvives.chunks, List.take_take, Nat.min_self]
      exact hholds
  · intro result hresult bytes hbytes
    have hsurvives := hrecovered.survives result hresult
    obtain ⟨old, _, _, hold, hlength, -⟩ := hsurvives.intact
    rw [hsurvives.bytes, hold, Option.map_some] at hbytes
    obtain rfl := Option.some.inj hbytes
    rw [List.length_take]
    omega

theorem keptByRecovery_true : KeptByRecovery config timestampMs fun _ => True :=
  ⟨fun _ _ _ _ => trivial, fun _ _ _ _ => trivial, fun _ _ => trivial, fun _ _ _ _ => trivial,
    fun _ _ _ => trivial⟩

theorem Idle.cutTail_eq (hidle : Idle config timestampMs store) (hresult : result ∈ store.results) :
    store.cutTail result = store := by
  unfold ResultStore.cutTail
  split
  · rfl
  · rename_i bytes hbytes
    rw [if_neg]
    rw [hidle.exact result hresult bytes hbytes]
    exact Nat.lt_irrefl _

theorem Idle.recoverResult_spec (hidle : Idle config timestampMs base)
    (hresult : result ∈ base.results) (progress : RecoveryProgress) :
    Triple (fun store => store = base) (recoverResult config timestampMs progress result)
      (fun next store => store = base ∧
        next = { progress with referencedFiles := result.id :: progress.referencedFiles })
      (fun _ _ => False) (fun _ => True) := by
  have hcomplete := hidle.complete result hresult
  have hwriting : result.state ≠ .writing := by
    rw [hcomplete]
    decide
  have hkept : KeptByRecovery config timestampMs fun _ => True := keptByRecovery_true
  unfold recoverResult
  rw [if_neg hwriting, if_neg (Int.not_le.mpr (hidle.live result hresult))]
  apply Triple.bind _ (.attempt (validateCompletedResult_spec hkept trivial hresult
    (hidle.versions result hresult) (hidle.wellFormed.lengths result hresult hcomplete)))
  rw [hidle.cutTail_eq hresult]
  intro validated
  cases validated with
  | ok tailTruncated =>
    apply Triple.of_fact
    rintro ⟨-, bytes, hbytes, rfl⟩
    apply Triple.of_pure
    · exact fun _ _ => trivial
    · rintro _ rfl
      rw [hidle.exact result hresult bytes hbytes]
      simp
  | error error =>
    rintro store ⟨-, hdamaged, -⟩
    exact absurd (hidle.intact result hresult) hdamaged

theorem Idle.syncDirectory_eq (hidle : Idle config timestampMs store) :
    store.apply .syncDirectory = store := by
  have hfiles : store.files.map ResultFile.link = store.files := by
    refine (List.map_congr_left fun file hfile => ?_).trans (List.map_id _)
    have hlinked := hidle.linked file hfile
    cases file
    simp only at hlinked
    rw [hlinked, ResultFile.link]
    rfl
  unfold ResultStore.apply
  rw [hfiles]

/-- Recovery after recovery finds nothing to do. -/
theorem Idle.recoverAt_eq (hidle : Idle config timestampMs store) :
    Stepwise.run (recoverAt config timestampMs) store =
      (.ok { writingRemoved := 0, expiredRemoved := 0, corruptRemoved := 0,
             orphanFilesRemoved := 0, tailsTruncated := 0 }, store) := by
  let nothing : RecoveryReport :=
    { writingRemoved := 0, expiredRemoved := 0, corruptRemoved := 0, orphanFilesRemoved := 0,
      tailsTruncated := 0 }
  have hperm := List.perm_insertionSort
    (fun left right : StoredResult => left.id ≤ right.id) store.results
  have hspec : Triple (fun state => state = store) (recoverAt config timestampMs)
      (fun report state => state = store ∧ report = nothing) (fun _ _ => False)
      (fun _ => True) := by
    apply Triple.read_at trivial
    rw [unsupported_eq_none hidle.versions]
    apply Triple.read_at trivial
    -- The results pass one by one, and each of them keeps its file referenced.
    apply Triple.bind (fun (progress : RecoveryProgress) state => state = store ∧
      progress.report = nothing ∧ ∀ result ∈ store.results, result.id ∈ progress.referencedFiles)
    · refine ((Triple.fold (fun rest (progress : RecoveryProgress) state => state = store ∧
        progress.report = nothing ∧ (∀ result ∈ rest, result ∈ store.results) ∧
        ∀ result ∈ store.results, result ∈ rest ∨ result.id ∈ progress.referencedFiles)
        (fun _ _ _ => trivial) ?_ store.loadAllResults _).strengthen ?_).weaken ?_
        (fun _ _ hnever => hnever) fun _ _ => trivial
      · intro result rest progress
        apply Triple.of_fact
        rintro ⟨hreport, hmembers, hreferenced⟩
        refine (hidle.recoverResult_spec (hmembers result List.mem_cons_self) progress).weaken ?_
          (fun _ _ hnever => hnever) fun _ _ => trivial
        rintro _ _ ⟨rfl, rfl⟩
        refine ⟨rfl, hreport, ?_, ?_⟩
        · exact fun other hother => hmembers other (List.mem_cons_of_mem result hother)
        · intro other hother
          rcases hreferenced other hother with hpending | hdone
          · rcases List.mem_cons.mp hpending with rfl | hpending
            · exact .inr List.mem_cons_self
            · exact .inl hpending
          · exact .inr (List.mem_cons_of_mem _ hdone)
      · rintro _ rfl
        exact ⟨rfl, rfl, fun result hresult => hperm.mem_iff.mp hresult,
          fun result hresult => .inl (hperm.mem_iff.mpr hresult)⟩
      · rintro progress _ ⟨rfl, hreport, -, hreferenced⟩
        refine ⟨rfl, hreport, fun result hresult => ?_⟩
        exact (hreferenced result hresult).resolve_left List.not_mem_nil
    intro progress
    apply Triple.of_fact
    rintro ⟨hreport, hreferenced⟩
    apply Triple.read_at trivial
    apply Triple.bind (fun (removed : Nat) state => state = store ∧ removed = 0)
    · refine ((Triple.fold (fun rest (removed : Nat) state => state = store ∧ removed = 0 ∧
        ∀ file ∈ rest, file ∈ store.files) (fun _ _ _ => trivial) ?_ store.files 0).strengthen
        ?_).weaken ?_ (fun _ _ hnever => hnever) fun _ _ => trivial
      · intro file rest removed
        apply Triple.of_fact
        rintro ⟨hremoved, hmembers⟩
        obtain ⟨result, hresult, hid⟩ := hidle.referenced file (hmembers file List.mem_cons_self)
        unfold removeOrphan
        rw [if_pos (hid ▸ hreferenced result hresult)]
        apply Triple.of_pure (fun _ _ => trivial)
        rintro _ rfl
        exact ⟨rfl, hremoved, fun other hother => hmembers other (List.mem_cons_of_mem file hother)⟩
      · rintro _ rfl
        exact ⟨rfl, rfl, fun _ hfile => hfile⟩
      · exact fun _ _ hstate => ⟨hstate.1, hstate.2.1⟩
    intro removed
    apply Triple.of_fact
    rintro rfl
    apply Triple.perform_at trivial trivial
    apply Triple.of_pure (fun _ _ => trivial)
    rintro _ rfl
    exact ⟨hidle.syncDirectory_eq, by rw [hreport]⟩
  rcases hspec.ends rfl with ⟨report, last, hrun, rfl, rfl⟩ | ⟨_, _, -, hnever⟩
  · exact hrun
  · exact hnever.elim

theorem recoverAt_unsupported (hresult : result ∈ store.results)
    (hversion : result.formatVersion ≠ resultFormatVersion) :
    ∃ error, recoverAt config timestampMs store = (.error error, []) := by
  have hmem := (List.perm_insertionSort
    (fun left right : StoredResult => left.id ≤ right.id) store.results).mem_iff.mpr hresult
  obtain ⟨unsupported, hfound⟩ : ∃ unsupported, store.loadAllResults.find? (fun result =>
      decide (result.formatVersion ≠ resultFormatVersion)) = some unsupported := by
    rw [← Option.isSome_iff_exists, List.find?_isSome]
    exact ⟨result, hmem, by simpa using hversion⟩
  refine ⟨.unsupportedResultFormat unsupported.id unsupported.formatVersion resultFormatVersion, ?_⟩
  have hread : (Stepwise.read (fun store : ResultStore => store.loadAllResults.find? fun result =>
      decide (result.formatVersion ≠ resultFormatVersion)) : StoreM (Option StoredResult)) store =
        (.ok (some unsupported), []) :=
    congrArg (fun found => (Except.ok found, [])) hfound
  exact Stepwise.bind_of_ok hread

end Chat2DB.Results
