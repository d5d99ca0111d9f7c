import Chat2DB.Results.Store

/-! # Reading and recovering results

A page is read from the chunks that overlap it, each verified against the index.
Recovery checks every completed result as a whole, cuts off what lies behind the
committed length, and removes what is unfinished, expired, corrupt or orphaned.
-/

namespace Chat2DB.Results

open Outcome (rejectIf orThrow)
open Storage (u64Max)
open Stepwise (perform read fail ofExcept fold attempt)

variable (config : StoreConfig)

/-! ## Files -/

def ResultStore.openResultFile (store : ResultStore) (id : ResultId) :
    Except ResultError ResultFile :=
  orThrow (store.findFile id) (corrupt id "result file is missing")

def ensureExactFileLength (file : ResultFile) (expected : Nat) : Except ResultError Unit :=
  rejectIf (file.bytes.length ≠ expected) (corrupt file.id "completed result file length changed")

def readSchema (bytes : List UInt8) (result : StoredResult) :
    Except ResultError Wire.QueryStarted := do
  let schema ← readIndexedFrame config.hash config.codec.decodeSchema bytes result.id 0
    result.schemaFrameLength result.schemaSha256 Wire.maxFrameBytes
  (validateSchema schema).mapError fun _ => corrupt result.id "stored schema is invalid"
  pure schema

/-- The batch of a chunk, if it is what the index says. -/
def readChunk (bytes : List UInt8) (id : ResultId) (schemaColumns : Nat) (chunk : ChunkIndex) :
    Except ResultError Wire.RowBatch := do
  let batch ← readIndexedFrame config.hash config.codec.decodeBatch bytes id chunk.fileOffset
    chunk.frameLength chunk.sha256 Wire.maxBatchBytes
  validateIndexedBatch config.codec batch chunk schemaColumns id
  pure batch

/-! ## Pages -/

structure PageRequest where
  offset : Nat
  maxRows : Nat
  maxBytes : Nat
deriving DecidableEq

structure ResultPage where
  metadata : ResultMetadata
  schema : Wire.QueryStarted
  offset : Nat
  rows : List Wire.JdbcRow
  hasMore : Bool
deriving DecidableEq

def validatePageRequest (request : PageRequest) : Except ResultError Unit := do
  rejectIf (request.maxRows = 0 ∨ request.maxRows > maxResultPageRows)
    (.invalidResult "page row limit must be between 1 and 4096")
  rejectIf (¬ (minResultPageBytes ≤ request.maxBytes ∧ request.maxBytes ≤ maxResultPageBytes))
    (.invalidResult "page byte limit must be between 8 MiB and 16 MiB")

/-- The rows collected so far, their bytes, and whether the page is full. -/
structure PageRows where
  rows : List Wire.JdbcRow
  rowBytes : Nat
  full : Bool
deriving DecidableEq

/-- The inner loop: the rows of one batch from a global row number on. -/
def takeRows (id : ResultId) (request : PageRequest) (requestedEnd : Nat) :
    Nat → List Wire.JdbcRow → PageRows → Except ResultError PageRows
  | _, [], page => pure page
  | globalRow, row :: rest, page => do
    rejectIf (globalRow > u64Max) (.numericRange "result page row offset")
    if globalRow < request.offset then
      takeRows id request requestedEnd (globalRow + 1) rest page
    else if globalRow ≥ requestedEnd ∨ page.rows.length ≥ request.maxRows then
      pure { page with full := true }
    else do
      let encoded := config.codec.rowLength row
      rejectIf (encoded > request.maxBytes)
        (corrupt id "one row exceeds the minimum page byte budget")
      if min (page.rowBytes + encoded) u64Max > request.maxBytes then
        pure { page with full := true }
      else
        takeRows id request requestedEnd (globalRow + 1) rest
          { page with rows := page.rows ++ [row], rowBytes := page.rowBytes + encoded }

/-- Where the next chunk of a page has to start. -/
def checkChunkStart (id : ResultId) (request : PageRequest) (expected : Option Nat)
    (chunk : ChunkIndex) : Except ResultError Unit :=
  match expected with
  | none =>
    rejectIf (chunk.startRow > request.offset ∨ chunk.endRowExclusive ≤ request.offset)
      (corrupt id "first result page chunk does not cover its offset")
  | some expected =>
    rejectIf (chunk.startRow ≠ expected)
      (corrupt id "result page chunk rows are not contiguous")

/-- The outer loop over the chunks of a page. -/
def takeChunks (bytes : List UInt8) (id : ResultId) (schemaColumns : Nat) (request : PageRequest)
    (requestedEnd : Nat) :
    Option Nat → List ChunkIndex → PageRows → Except ResultError PageRows
  | _, [], page => pure page
  | expected, chunk :: rest, page => do
    checkChunkStart id request expected chunk
    let batch ← readChunk config bytes id schemaColumns chunk
    let next ← takeRows config id request requestedEnd batch.startRowOffset.toNat batch.rows page
    if next.full then
      pure next
    else
      takeChunks bytes id schemaColumns request requestedEnd (some chunk.endRowExclusive) rest next

def readPageRows (bytes : List UInt8) (id : ResultId) (schemaColumns : Nat) (request : PageRequest)
    (requestedEnd : Nat) (chunks : List ChunkIndex) : Except ResultError (List Wire.JdbcRow) := do
  rejectIf (chunks = []) (corrupt id "result page has no indexed chunks")
  let page ← takeChunks config bytes id schemaColumns request requestedEnd none chunks
    { rows := [], rowBytes := 0, full := false }
  pure page.rows

/-- The page of a result whose file and schema were found. -/
def readRows (store : ResultStore) (bytes : List UInt8) (schema : Wire.QueryStarted)
    (metadata : ResultMetadata) (request : PageRequest) : Except ResultError ResultPage := do
  let requestedEnd := min (min (request.offset + request.maxRows) u64Max) metadata.rowCount
  let chunks ← store.loadPageChunks metadata.id request.offset requestedEnd
  let rows ← readPageRows config bytes metadata.id schema.columns.length request requestedEnd chunks
  rejectIf (rows = []) (corrupt metadata.id "live page range produced no rows")
  pure
    { metadata
      schema
      offset := request.offset
      rows
      hasMore := decide (min (request.offset + rows.length) u64Max < metadata.rowCount) }

def readResultPageAt (store : ResultStore) (id : ResultId) (request : PageRequest)
    (timestampMs : Int) : Except ResultError ResultPage := do
  validatePageRequest request
  let stored ← orThrow
    ((store.loadStoredResult id).filter fun result =>
      result.state = .complete && timestampMs < result.expiresAtMs)
    (.resultNotFound id)
  rejectIf (stored.formatVersion ≠ resultFormatVersion)
    (.unsupportedResultFormat id stored.formatVersion resultFormatVersion)
  let file ← store.openResultFile id
  ensureExactFileLength file stored.committedLength
  let schema ← readSchema config file.bytes stored
  let metadata ← stored.metadata
  if request.offset ≥ metadata.rowCount then
    pure { metadata, schema, offset := request.offset, rows := [], hasMore := false }
  else
    readRows config store file.bytes schema metadata request

/-! ## Recovery -/

/-- Check the chunks of a result in their order, from the place where the next one is due. The
result is the place behind the last one. -/
def validateChunks (bytes : List UInt8) (id : ResultId) (schemaColumns : Nat) :
    List ChunkIndex → Nat → Nat → Nat → Except ResultError (Nat × Nat)
  | [], _, expectedOffset, expectedRow => pure (expectedOffset, expectedRow)
  | chunk :: rest, expectedOrdinal, expectedOffset, expectedRow => do
    rejectIf (chunk.ordinal ≠ expectedOrdinal ∨ chunk.fileOffset ≠ expectedOffset ∨
      chunk.startRow ≠ expectedRow) (corrupt id "result chunk index is not contiguous")
    let _ ← readChunk config bytes id schemaColumns chunk
    rejectIf (expectedOrdinal + 1 > u64Max) (.numericRange "result chunk ordinal")
    rejectIf (expectedOffset + chunk.frameLength > u64Max) (.numericRange "result file offset")
    validateChunks bytes id schemaColumns rest (expectedOrdinal + 1)
      (expectedOffset + chunk.frameLength) chunk.endRowExclusive

/-- Check the committed bytes of a result against its index. -/
def validateBytes (bytes : List UInt8) (result : StoredResult) (chunks : List ChunkIndex) :
    Except ResultError Unit := do
  let schema ← readSchema config bytes result
  let place ← validateChunks config bytes result.id schema.columns.length chunks 0
    result.schemaFrameLength 0
  rejectIf (place.1 ≠ result.committedLength ∨ place.2 ≠ result.rowCount)
    (corrupt result.id "result aggregate does not match its chunk index")

/-- Whether a tail behind the committed length had to be cut off. -/
def truncateTail (result : StoredResult) : StoreM Bool := do
  let opened ← read fun store => store.openResultFile result.id
  let file ← ofExcept opened
  ofExcept (rejectIf (file.bytes.length < result.committedLength)
    (corrupt result.id "result file is shorter than its index"))
  if file.bytes.length > result.committedLength then do
    perform (.truncateFile result.id result.committedLength)
    perform (.syncFile result.id)
    pure true
  else
    pure false

def validateCompletedResult (result : StoredResult) : StoreM Bool := do
  ofExcept (rejectIf (result.formatVersion ≠ resultFormatVersion)
    (.unsupportedResultFormat result.id result.formatVersion resultFormatVersion))
  let tailTruncated ← truncateTail result
  let checked ← read fun store => do
    let file ← store.openResultFile result.id
    validateBytes config file.bytes result (store.loadAllChunks result.id)
  ofExcept checked
  pure tailTruncated

structure RecoveryReport where
  writingRemoved : Nat
  expiredRemoved : Nat
  corruptRemoved : Nat
  orphanFilesRemoved : Nat
  tailsTruncated : Nat
deriving DecidableEq

/-- The report and the files that stay. -/
structure RecoveryProgress where
  report : RecoveryReport
  referencedFiles : List ResultId
deriving DecidableEq

def recoverResult (timestampMs : Int) (progress : RecoveryProgress) (result : StoredResult) :
    StoreM RecoveryProgress :=
  let report := progress.report
  if result.state = .writing then do
    deleteResult result.id
    pure { progress with report := { report with writingRemoved := report.writingRemoved + 1 } }
  else if result.expiresAtMs ≤ timestampMs then do
    deleteResult result.id
    pure { progress with report := { report with expiredRemoved := report.expiredRemoved + 1 } }
  else do
    let validated ← attempt (validateCompletedResult config result)
    match validated with
    | .ok tailTruncated =>
      pure
        { report :=
            if tailTruncated then { report with tailsTruncated := report.tailsTruncated + 1 }
            else report
          referencedFiles := result.id :: progress.referencedFiles }
    | .error (.corruptResult _ _) => do
      deleteResult result.id
      pure { progress with report := { report with corruptRemoved := report.corruptRemoved + 1 } }
    | .error error => fail error

def recoverAt (timestampMs : Int) : StoreM RecoveryReport := do
  let unsupported ← read fun store =>
    store.loadAllResults.find? fun result => result.formatVersion ≠ resultFormatVersion
  match unsupported with
  | some result =>
    fail (.unsupportedResultFormat result.id result.formatVersion resultFormatVersion)
  | none => do
    let results ← read ResultStore.loadAllResults
    let progress ← fold (recoverResult config timestampMs) results
      { report :=
          { writingRemoved := 0, expiredRemoved := 0, corruptRemoved := 0,
            orphanFilesRemoved := 0, tailsTruncated := 0 }
        referencedFiles := [] }
    let files ← read ResultStore.files
    let removed ← fold (removeOrphan progress.referencedFiles) files 0
    perform .syncDirectory
    pure { progress.report with orphanFilesRemoved := removed }

end Chat2DB.Results
