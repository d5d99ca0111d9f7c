import Chat2DB.Base.Rows
import Chat2DB.Base.Stepwise
import Chat2DB.Results.Frames
import Mathlib

/-! # The result store

The store is an index in SQLite beside a directory of result files. Every
operation is a program of file steps and committed transactions, taken while the
results lock is held, so that operations do not interleave.
-/

namespace Chat2DB.Results

open Outcome (rejectIf)
open Storage (i64Max u64Max)

def maxResultPageRows : Nat := 4096

def maxResultPageBytes : Nat := 16 * 1024 * 1024

/-- Chosen so that every row that the protocol allows fits. -/
def minResultPageBytes : Nat := Wire.maxBatchBytes

/-! ## Index -/

inductive ResultState where
  | writing
  | complete
deriving DecidableEq

structure StoredResult where
  id : ResultId
  formatVersion : Int
  state : ResultState
  schemaFrameLength : Nat
  schemaSha256 : List UInt8
  committedLength : Nat
  rowCount : Nat
  truncatedByMaxRows : Bool
  truncatedByMaxResultBytes : Bool
  createdAtMs : Int
  expiresAtMs : Int
deriving DecidableEq

structure ResultMetadata where
  id : ResultId
  rowCount : Nat
  byteCount : Nat
  truncatedByMaxRows : Bool
  truncatedByMaxResultBytes : Bool
  createdAtMs : Int
  expiresAtMs : Int
deriving DecidableEq

namespace StoredResult

def metadata (result : StoredResult) : Except ResultError ResultMetadata := do
  rejectIf (result.state ≠ .complete) (.invalidResult "result is not complete")
  pure
    { id := result.id
      rowCount := result.rowCount
      byteCount := result.committedLength
      truncatedByMaxRows := result.truncatedByMaxRows
      truncatedByMaxResultBytes := result.truncatedByMaxResultBytes
      createdAtMs := result.createdAtMs
      expiresAtMs := result.expiresAtMs }

def matchesCompletion (result : StoredResult) (completed : Wire.QueryCompleted)
    (committedLength : Nat) : Bool :=
  result.state = .complete && result.rowCount = completed.rowCount.toNat &&
    result.committedLength = committedLength &&
    result.truncatedByMaxRows = completed.truncatedByMaxRows &&
    result.truncatedByMaxResultBytes = completed.truncatedByMaxResultBytes

def matchesWriting (result : StoredResult) (rowCount committedLength : Nat) : Bool :=
  result.state = .writing && result.rowCount = rowCount &&
    result.committedLength = committedLength

end StoredResult

structure ChunkIndex where
  ordinal : Nat
  fileOffset : Nat
  frameLength : Nat
  startRow : Nat
  endRowExclusive : Nat
  rowCount : Nat
  sha256 : List UInt8
deriving DecidableEq

/-- A row of the chunk table. -/
structure ResultChunk where
  resultId : ResultId
  index : ChunkIndex
deriving DecidableEq

/-! ## Files -/

/-- A file of the results directory: its bytes, how many of them are known to be on the disk, and
whether its directory entry is. -/
structure ResultFile where
  id : ResultId
  bytes : List UInt8
  synced : Nat
  linked : Bool
deriving DecidableEq

namespace ResultFile

/-- Bytes that are written again are no longer known to be on the disk. -/
def write (offset : Nat) (data : List UInt8) (file : ResultFile) : ResultFile :=
  { file with
    bytes := file.bytes.takeD offset 0 ++ data ++ file.bytes.drop (offset + data.length)
    synced := min file.synced offset }

def sync (file : ResultFile) : ResultFile := { file with synced := file.bytes.length }

def link (file : ResultFile) : ResultFile := { file with linked := true }

/-- `File::set_len` for a shorter length -/
def truncate (length : Nat) (file : ResultFile) : ResultFile :=
  { file with bytes := file.bytes.take length, synced := min file.synced length }

end ResultFile

structure ResultStore where
  results : List StoredResult
  chunks : List ResultChunk
  files : List ResultFile
deriving DecidableEq

def emptyStore : ResultStore := { results := [], chunks := [], files := [] }

/-! ## Steps -/

/-- What the store does to its files, and the transactions that it commits. -/
inductive StoreStep where
  | createFile (id : ResultId)
  | writeFile (id : ResultId) (offset : Nat) (data : List UInt8)
  | syncFile (id : ResultId)
  | truncateFile (id : ResultId) (length : Nat)
  | removeFile (id : ResultId)
  | syncDirectory
  | insertResult (result : StoredResult)
  | commitChunk (chunk : ResultChunk) (committedLength : Nat)
  | commitCompletion (id : ResultId) (completed : Wire.QueryCompleted) (committedLength : Nat)
  | deleteResult (id : ResultId)
deriving DecidableEq

namespace ResultStore

variable (store : ResultStore)

def updateFile (id : ResultId) (change : ResultFile → ResultFile) : ResultStore :=
  { store with files := Rows.update (fun file => decide (file.id = id)) change store.files }

def updateResults (cond : StoredResult → Bool) (set : StoredResult → StoredResult) :
    ResultStore :=
  { store with results := Rows.update cond set store.results }

/-- The rows that `commit_chunk` updates. -/
def ownsChunk (chunk : ResultChunk) (result : StoredResult) : Bool :=
  result.id = chunk.resultId && result.matchesWriting chunk.index.startRow chunk.index.fileOffset

/-- The rows that `commit_completion` updates. -/
def ownsCompletion (id : ResultId) (completed : Wire.QueryCompleted) (committedLength : Nat)
    (result : StoredResult) : Bool :=
  result.id = id && result.matchesWriting completed.rowCount.toNat committedLength

def apply : StoreStep → ResultStore
  | .createFile id =>
    { store with files := store.files ++ [{ id, bytes := [], synced := 0, linked := false }] }
  | .writeFile id offset data => store.updateFile id (ResultFile.write offset data)
  | .syncFile id => store.updateFile id ResultFile.sync
  | .truncateFile id length => store.updateFile id (ResultFile.truncate length)
  | .removeFile id => { store with files := store.files.filter fun file => file.id ≠ id }
  | .syncDirectory => { store with files := store.files.map ResultFile.link }
  | .insertResult result => { store with results := store.results ++ [result] }
  | .commitChunk chunk committedLength =>
    { store.updateResults (ownsChunk chunk) fun result =>
        { result with committedLength, rowCount := chunk.index.endRowExclusive } with
      chunks := store.chunks ++ [chunk] }
  | .commitCompletion id completed committedLength =>
    store.updateResults (ownsCompletion id completed committedLength) fun result =>
      { result with
        state := .complete
        truncatedByMaxRows := completed.truncatedByMaxRows
        truncatedByMaxResultBytes := completed.truncatedByMaxResultBytes }
  | .deleteResult id =>
    { store with
      results := store.results.filter fun result => result.id ≠ id
      chunks := store.chunks.filter fun chunk => chunk.resultId ≠ id }

def loadStoredResult (id : ResultId) : Option StoredResult :=
  Rows.find StoredResult.id id store.results

def loadAllResults : List StoredResult :=
  store.results.insertionSort fun left right => left.id ≤ right.id

def loadAllChunks (id : ResultId) : List ChunkIndex :=
  ((store.chunks.filter fun chunk => chunk.resultId = id).map ResultChunk.index).insertionSort
    fun left right => left.ordinal ≤ right.ordinal

def loadChunk (id : ResultId) (ordinal : Nat) : Option ChunkIndex :=
  (store.loadAllChunks id).find? fun chunk => chunk.ordinal = ordinal

/-- The chunks with a row in the range. -/
def loadPageChunks (id : ResultId) (startRow endRow : Nat) :
    Except ResultError (List ChunkIndex) := do
  toSqlI64 endRow "page end row"
  toSqlI64 startRow "page start row"
  pure ((store.loadAllChunks id).filter fun chunk =>
    chunk.startRow < endRow && startRow < chunk.endRowExclusive)

def findFile (id : ResultId) : Option ResultFile := Rows.find ResultFile.id id store.files

end ResultStore

instance : Primitive ResultStore StoreStep where
  apply := ResultStore.apply

/-- A program of the result store. -/
abbrev StoreM (α : Type) : Type := Stepwise ResultStore StoreStep ResultError α

open Stepwise (perform read fail ofExcept fold attempt)

/-! ## Validation -/

def validateSchema (schema : Wire.QueryStarted) : Except ResultError Unit :=
  rejectIf (schema.columns.length > Wire.maxColumns)
    (.invalidResult "query schema exceeds the protocol column limit")

def validateBatch (codec : Wire.Codec) (batch : Wire.RowBatch) (expectedStart : Nat)
    (schemaColumns : Nat) : Except ResultError Unit := do
  rejectIf (batch.startRowOffset.toNat ≠ expectedStart)
    (.invalidResult "row batch is not contiguous with prior chunks")
  rejectIf (batch.rows = [] ∨ batch.rows.length > Wire.maxBatchRows)
    (.invalidResult "row batch count is outside protocol limits")
  rejectIf (codec.batchLength batch > Wire.maxBatchBytes)
    (.invalidResult "row batch exceeds the protocol byte limit")
  rejectIf (∃ row ∈ batch.rows, row.values.length ≠ schemaColumns)
    (.invalidResult "row width does not match query schema")

def validateIndexedBatch (codec : Wire.Codec) (batch : Wire.RowBatch) (chunk : ChunkIndex)
    (schemaColumns : Nat) (id : ResultId) : Except ResultError Unit := do
  rejectIf (batch.startRowOffset.toNat ≠ chunk.startRow ∨ batch.rows.length ≠ chunk.rowCount ∨
    chunk.endRowExclusive < chunk.startRow ∨
    chunk.endRowExclusive - chunk.startRow ≠ chunk.rowCount)
    (corrupt id "row batch does not match its chunk index")
  (validateBatch codec batch chunk.startRow schemaColumns).mapError fun _ =>
    corrupt id "indexed row batch violates protocol limits"

/-! ## Configuration -/

/-- What the store is opened with. -/
structure StoreConfig where
  codec : Wire.Codec
  hash : Sha256
  maxRetainedBytes : Nat
  limited : 0 < maxRetainedBytes ∧ maxRetainedBytes ≤ u64Max

section Programs

variable (config : StoreConfig)

/-! ## Removal -/

/-- Remove a result from the index and then its file. The chunks go with the row. -/
def deleteResult (id : ResultId) : StoreM Unit := do
  perform (.deleteResult id)
  perform (.removeFile id)
  perform .syncDirectory

structure PurgeReport where
  resultsRemoved : Nat
  indexedBytesRemoved : Nat
  orphanFilesRemoved : Nat
deriving DecidableEq

/-- Remove one result that is past its expiry, unless a live writer holds it. -/
def purgeResult (activeResults : List ResultId) (report : PurgeReport) (result : StoredResult) :
    StoreM PurgeReport :=
  if result.state = .writing ∧ result.id ∈ activeResults then
    pure report
  else do
    deleteResult result.id
    pure
      { report with
        resultsRemoved := report.resultsRemoved + 1
        indexedBytesRemoved := min (report.indexedBytesRemoved + result.committedLength) u64Max }

/-- Remove one file unless it is referenced; returns how many were removed so far. -/
def removeOrphan (referenced : List ResultId) (removed : Nat) (file : ResultFile) : StoreM Nat :=
  if file.id ∈ referenced then
    pure removed
  else do
    perform (.removeFile file.id)
    pure (removed + 1)

def purgeExpiredAt (timestampMs : Int) (activeResults : List ResultId) : StoreM PurgeReport := do
  let results ← read ResultStore.loadAllResults
  let expired := results.filter fun result => result.expiresAtMs ≤ timestampMs
  let report ← fold (purgeResult activeResults) expired
    { resultsRemoved := 0, indexedBytesRemoved := 0, orphanFilesRemoved := 0 }
  let referenced ← read fun store => store.results.map StoredResult.id
  let files ← read ResultStore.files
  let removed ← fold (removeOrphan referenced) files 0
  if removed > 0 then
    perform .syncDirectory
  pure { report with orphanFilesRemoved := removed }

/-! ## Quota -/

/-- Every file at its length or its indexed length, whichever is greater, and every result
without a file at its indexed length. -/
def ResultStore.accountedBytes (store : ResultStore) : Nat :=
  (store.files.map fun file =>
    match store.loadStoredResult file.id with
    | some result => max result.committedLength file.bytes.length
    | none => file.bytes.length).sum +
  ((store.results.filter fun result => store.findFile result.id = none).map
    StoredResult.committedLength).sum

def ResultStore.retainedResultBytes (store : ResultStore) : Except ResultError Nat := do
  rejectIf (store.accountedBytes > u64Max) (.numericRange "retained result bytes")
  pure store.accountedBytes

def retainedResultBytes : StoreM Nat := do
  let retained ← read ResultStore.retainedResultBytes
  ofExcept retained

/-- Make room by a purge when the request does not fit. -/
def checkResultQuota (requested : Nat) (timestampMs : Int) (activeResults : List ResultId) :
    StoreM Unit := do
  let retained ← retainedResultBytes
  if requested > config.maxRetainedBytes - retained then
    let _ ← purgeExpiredAt timestampMs activeResults
    let retained ← retainedResultBytes
    ofExcept (rejectIf (requested > config.maxRetainedBytes - retained)
      (.quotaExceeded requested (config.maxRetainedBytes - retained)))

/-! ## Writing -/

structure ResultWriter where
  id : ResultId
  schemaColumns : Nat
  committedLength : Nat
  nextRow : Nat
  nextOrdinal : Nat
  createdAtMs : Int
  expiresAtMs : Int
  poisoned : Bool
deriving DecidableEq

/-- The row of a result that was just begun. -/
def writingResult (id : ResultId) (frame : List UInt8) (createdAtMs expiresAtMs : Int) :
    StoredResult :=
  { id
    formatVersion := resultFormatVersion
    state := .writing
    schemaFrameLength := frame.length
    schemaSha256 := config.hash.digest frame
    committedLength := frame.length
    rowCount := 0
    truncatedByMaxRows := false
    truncatedByMaxResultBytes := false
    createdAtMs
    expiresAtMs }

/-- The constraints that the database checks on a new result. -/
def ResultStore.admitsResult (store : ResultStore) (result : StoredResult) : Prop :=
  store.loadStoredResult result.id = none ∧ 5 ≤ result.schemaFrameLength ∧
    result.schemaSha256.length = 32

instance (store : ResultStore) (result : StoredResult) :
    Decidable (store.admitsResult result) :=
  inferInstanceAs (Decidable (_ ∧ _))

def insertWritingResult (result : StoredResult) : StoreM Unit := do
  ofExcept (toSqlI64 result.schemaFrameLength "schema frame length")
  let admitted ← read fun store => decide (store.admitsResult result)
  ofExcept (rejectIf (admitted = false) .sqlite)
  perform (.insertResult result)

/-- Create the file of a result with its schema frame. A file in the way is left alone, and a
file that could not be indexed is removed again. -/
def writeSchemaFile (id : ResultId) (frame : List UInt8) (createdAtMs expiresAtMs : Int) :
    StoreM Unit := do
  let existing ← read fun store => store.findFile id
  ofExcept (rejectIf (existing ≠ none) (.fileExists id))
  perform (.createFile id)
  perform (.writeFile id 0 frame)
  perform (.syncFile id)
  perform .syncDirectory
  let inserted ← attempt (insertWritingResult (writingResult config id frame createdAtMs expiresAtMs))
  match inserted with
  | .ok () => pure ()
  | .error error => do
    let stored ← read fun store => store.loadStoredResult id
    match stored with
    | some actual =>
      if actual.state = .writing ∧ actual.committedLength = frame.length ∧
          actual.schemaSha256 = config.hash.digest frame then
        pure ()
      else
        fail (.outcomeUnknown "begin retained result" id)
    | none => do
      perform (.removeFile id)
      perform .syncDirectory
      fail error

/-- `id` is the fresh UUID and `quotaMs` the clock reading of the quota check. -/
def beginResultAt (id : ResultId) (schema : Wire.QueryStarted) (createdAtMs expiresAtMs : Int)
    (quotaMs : Int) (activeResults : List ResultId) : StoreM ResultWriter := do
  ofExcept (rejectIf (expiresAtMs ≤ createdAtMs)
    (.invalidResult "result expiry must be after creation"))
  ofExcept (validateSchema schema)
  let frame ← ofExcept (encodeFrame (config.codec.encodeSchema schema) Wire.maxFrameBytes)
  checkResultQuota config frame.length quotaMs activeResults
  writeSchemaFile config id frame createdAtMs expiresAtMs
  pure
    { id
      schemaColumns := schema.columns.length
      committedLength := frame.length
      nextRow := 0
      nextOrdinal := 0
      createdAtMs
      expiresAtMs
      poisoned := false }

/-- The retention is a duration in nanoseconds. -/
def beginResult (id : ResultId) (schema : Wire.QueryStarted) (retention : Nat) (nowMs : Int)
    (quotaMs : Int) (activeResults : List ResultId) : StoreM ResultWriter := do
  ofExcept (rejectIf (retention = 0)
    (.invalidResult "result retention must be greater than zero"))
  ofExcept (rejectIf (retention / 1000000 > i64Max) (.numericRange "result retention"))
  ofExcept (rejectIf (nowMs + (retention / 1000000 : Nat) > i64Max)
    (.numericRange "result expiry"))
  beginResultAt config id schema nowMs (nowMs + (retention / 1000000 : Nat)) quotaMs activeResults

/-- The constraints that the database checks on a new chunk. -/
def ResultStore.admitsChunk (store : ResultStore) (chunk : ResultChunk) : Prop :=
  store.loadStoredResult chunk.resultId ≠ none ∧
    (∀ other ∈ store.chunks, other.resultId = chunk.resultId →
      other.index.ordinal ≠ chunk.index.ordinal ∧ other.index.startRow ≠ chunk.index.startRow) ∧
    5 ≤ chunk.index.fileOffset ∧ 5 ≤ chunk.index.frameLength ∧
    chunk.index.startRow < chunk.index.endRowExclusive ∧ 0 < chunk.index.rowCount ∧
    chunk.index.sha256.length = 32

instance (store : ResultStore) (chunk : ResultChunk) : Decidable (store.admitsChunk chunk) :=
  inferInstanceAs (Decidable (_ ∧ _))

/-- The transaction inserts the chunk and moves the result on, or does neither. -/
def commitChunk (chunk : ResultChunk) (committedLength : Nat) : StoreM Unit := do
  ofExcept (toSqlI64 chunk.index.ordinal "chunk ordinal")
  ofExcept (toSqlI64 chunk.index.fileOffset "chunk file offset")
  ofExcept (toSqlI64 chunk.index.frameLength "chunk frame length")
  ofExcept (toSqlI64 chunk.index.startRow "chunk start row")
  ofExcept (toSqlI64 chunk.index.endRowExclusive "chunk end row")
  ofExcept (toSqlI64 chunk.index.rowCount "chunk row count")
  let admitted ← read fun store => decide (store.admitsChunk chunk)
  ofExcept (rejectIf (admitted = false) .sqlite)
  ofExcept (toSqlI64 committedLength "result committed length")
  let changed ← read fun store => Rows.changed (ResultStore.ownsChunk chunk) store.results
  ofExcept (rejectIf (changed ≠ 1)
    (.invalidResult "result writer no longer owns the writing index"))
  perform (.commitChunk chunk committedLength)

inductive CommitState where
  | applied
  | notApplied
  | diverged
deriving DecidableEq

def ResultStore.verifyChunkCommit (store : ResultStore) (chunk : ResultChunk)
    (committedLength : Nat) : Except ResultError CommitState := do
  toSqlI64 chunk.index.ordinal "chunk ordinal"
  match store.loadStoredResult chunk.resultId, store.loadChunk chunk.resultId chunk.index.ordinal with
  | some result, some stored =>
    if result.matchesWriting chunk.index.endRowExclusive committedLength ∧
        stored.fileOffset = chunk.index.fileOffset ∧
        stored.frameLength = chunk.index.frameLength ∧ stored.startRow = chunk.index.startRow ∧
        stored.endRowExclusive = chunk.index.endRowExclusive ∧
        stored.sha256 = chunk.index.sha256 then
      pure .applied
    else
      pure .diverged
  | some result, none =>
    if result.matchesWriting chunk.index.startRow chunk.index.fileOffset then
      pure .notApplied
    else
      pure .diverged
  | _, _ => pure .diverged

/-- Commit a chunk; after a failure the index says whether it was committed after all. -/
def commitChunkVerified (chunk : ResultChunk) (committedLength : Nat) : StoreM Unit := do
  let committed ← attempt (commitChunk chunk committedLength)
  match committed with
  | .ok () => pure ()
  | .error error => do
    let verified ← read fun store => store.verifyChunkCommit chunk committedLength
    match verified with
    | .ok .applied => pure ()
    | .ok .notApplied => fail error
    | .ok .diverged => fail (.outcomeUnknown "append result chunk" chunk.resultId)
    | .error _ => fail (.outcomeUnknown "append result chunk" chunk.resultId)

/-- The index entry of the batch that a writer appends next. -/
def ResultWriter.chunk (writer : ResultWriter) (frame : List UInt8) (rows : Nat) : ResultChunk :=
  { resultId := writer.id
    index :=
      { ordinal := writer.nextOrdinal
        fileOffset := writer.committedLength
        frameLength := frame.length
        startRow := writer.nextRow
        endRowExclusive := writer.nextRow + rows
        rowCount := rows
        sha256 := config.hash.digest frame } }

def ResultWriter.advance (writer : ResultWriter) (frame : List UInt8) (rows : Nat) :
    ResultWriter :=
  { writer with
    committedLength := writer.committedLength + frame.length
    nextRow := writer.nextRow + rows
    nextOrdinal := writer.nextOrdinal + 1 }

/-- The writer after the batch. The file is synced before the chunk is committed. -/
def appendBatch (writer : ResultWriter) (batch : Wire.RowBatch) (quotaMs : Int)
    (activeResults : List ResultId) : StoreM ResultWriter := do
  ofExcept (rejectIf (writer.poisoned = true) (.invalidResult "result writer is poisoned"))
  ofExcept (validateBatch config.codec batch writer.nextRow writer.schemaColumns)
  let frame ← ofExcept (encodeFrame (config.codec.encodeBatch batch) Wire.maxBatchBytes)
  ofExcept (rejectIf (writer.committedLength + frame.length > u64Max)
    (.numericRange "result file length"))
  ofExcept (rejectIf (writer.nextRow + batch.rows.length > u64Max)
    (.numericRange "result row count"))
  checkResultQuota config frame.length quotaMs activeResults
  perform (.writeFile writer.id writer.committedLength frame)
  perform (.syncFile writer.id)
  commitChunkVerified (writer.chunk config frame batch.rows.length)
    (writer.committedLength + frame.length)
  ofExcept (rejectIf (writer.nextOrdinal + 1 > u64Max) (.numericRange "result chunk ordinal"))
  pure (writer.advance frame batch.rows.length)

def commitCompletion (id : ResultId) (completed : Wire.QueryCompleted) (committedLength : Nat) :
    StoreM Unit := do
  ofExcept (toSqlI64 completed.rowCount.toNat "completion row count")
  ofExcept (toSqlI64 committedLength "completion committed length")
  let changed ← read fun store =>
    Rows.changed (ResultStore.ownsCompletion id completed committedLength) store.results
  ofExcept (rejectIf (changed ≠ 1)
    (.invalidResult "result completion no longer owns the writing index"))
  perform (.commitCompletion id completed committedLength)

/-- Complete a result; after a failure the index says whether it was completed after all. -/
def completeResult (writer : ResultWriter) (completed : Wire.QueryCompleted) :
    StoreM ResultMetadata := do
  ofExcept (rejectIf (writer.poisoned = true) (.invalidResult "result writer is poisoned"))
  ofExcept (rejectIf (completed.rowCount.toNat ≠ writer.nextRow)
    (.invalidResult "completion row count does not match indexed chunks"))
  let committed ← attempt (commitCompletion writer.id completed writer.committedLength)
  match committed with
  | .ok () =>
    pure
      { id := writer.id
        rowCount := completed.rowCount.toNat
        byteCount := writer.committedLength
        truncatedByMaxRows := completed.truncatedByMaxRows
        truncatedByMaxResultBytes := completed.truncatedByMaxResultBytes
        createdAtMs := writer.createdAtMs
        expiresAtMs := writer.expiresAtMs }
  | .error error => do
    let stored ← read fun store => store.loadStoredResult writer.id
    match stored with
    | some actual =>
      if actual.matchesCompletion completed writer.committedLength then
        ofExcept actual.metadata
      else if actual.matchesWriting writer.nextRow writer.committedLength then
        fail error
      else
        fail (.outcomeUnknown "complete retained result" writer.id)
    | none => fail error

/-- A writer that fails to finish is dropped, which removes its result unless the outcome of the
completion is unknown. -/
def finish (writer : ResultWriter) (completed : Wire.QueryCompleted) : StoreM ResultMetadata := do
  let result ← attempt (completeResult writer completed)
  match result with
  | .ok metadata => pure metadata
  | .error (.outcomeUnknown operation id) => fail (.outcomeUnknown operation id)
  | .error error => do
    deleteResult writer.id
    fail error

end Programs

end Chat2DB.Results
