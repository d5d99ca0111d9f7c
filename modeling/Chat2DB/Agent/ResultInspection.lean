import Chat2DB.Agent.SqlTools
import Chat2DB.Results.Contract
import Chat2DB.Results.RoundTrip

/-! # Inspecting a result page by page

An agent reads a retained result through a handle. An answer is a page of the
result, cut down until its text is short enough for the model: rows are taken
off its end and then columns, and the next offset is the one behind the rows
that stayed.
-/

namespace Chat2DB.Agent.Inspection

open Contract (FloatText ResultColumn ResultPage ResultPageRequest ResultRow parseU32 parseU64
  parseUnsigned uuidText)
open JsonBytes
open Outcome
open Results (ResultError ResultStore StoreConfig StoredResult)
open Sql (AppError)
open Storage (AgentDb CallEnv RetainedResult transact)

/-! ## The tool -/

def modelPreviewBytes : Nat := 48 * 1024

def resultSampleRows : Nat := 20

def maxInspectionRows : Nat := 100

def maxToolOutputContentBytes : Nat := 64 * 1024

structure InspectArguments where
  handleId : String
  offset : Option String
  maxRows : Option Nat
deriving DecidableEq

structure ResultInspection where
  handleId : String
  offset : String
  nextOffset : String
  columns : List ResultColumn
  columnsTruncated : Bool
  rows : List ResultRow
  rowsTruncated : Bool
  hasMore : Bool
deriving DecidableEq

namespace ResultInspection

/-- `serialized_bytes` -/
def serializedBytes (inspection : ResultInspection) : Nat :=
  objectBytes
    [("handleId", textBytes inspection.handleId),
      ("offset", textBytes inspection.offset),
      ("nextOffset", textBytes inspection.nextOffset),
      ("columns", arrayBytes (inspection.columns.map Contract.columnBytes)),
      ("columnsTruncated", boolBytes inspection.columnsTruncated),
      ("rows", arrayBytes (inspection.rows.map ResultRow.jsonBytes)),
      ("rowsTruncated", boolBytes inspection.rowsTruncated),
      ("hasMore", boolBytes inspection.hasMore)]

/-- The answer is short enough for the model. -/
def Previewable (inspection : ResultInspection) : Prop :=
  inspection.serializedBytes ≤ modelPreviewBytes

instance : DecidablePred Previewable :=
  fun inspection => inferInstanceAs (Decidable (inspection.serializedBytes ≤ modelPreviewBytes))

end ResultInspection

/-- The offset behind some rows, saturating. -/
def behind (offset count : Nat) : String :=
  toString (min (offset + count) Storage.u64Max)

/-- A page with all its rows and columns. -/
def wholeInspection (handleId : String) (page : ResultPage) : ResultInspection :=
  let offset := (parseUnsigned Storage.u64Max page.offset).getD 0
  { handleId
    offset := page.offset
    nextOffset := behind offset page.rows.length
    columns := page.columns
    columnsTruncated := false
    rows := page.rows
    rowsTruncated := false
    hasMore := page.hasMore }

def boundedInspection (handleId : String) (page : ResultPage) : ResultInspection :=
  let offset := (parseUnsigned Storage.u64Max page.offset).getD 0
  let whole := wholeInspection handleId page
  let rows := Fill.trim (fun rows => ResultInspection.Previewable { whole with rows }) page.rows
  let columns :=
    Fill.trim (fun columns => ResultInspection.Previewable { whole with rows, columns }) page.columns
  { whole with
    rows
    columns
    columnsTruncated := decide (columns.length < page.columns.length)
    rowsTruncated := decide (rows.length < page.rows.length)
    hasMore := page.hasMore || decide (rows.length < page.rows.length)
    nextOffset := behind offset rows.length }

/-- What the tool finds when it is called: the clocks, the agent tables and the results. -/
structure InspectionWorld where
  env : CallEnv
  db : AgentDb
  store : ResultStore
  timestampMs : Int

namespace InspectionWorld

/-- The columns of the results that the agent tables look at. -/
def retainedResults (world : InspectionWorld) : List RetainedResult :=
  world.store.results.map fun result =>
    { id := uuidText result.id
      complete := decide (result.state = .complete)
      expiresAtMs := result.expiresAtMs }

def loadStoredResult (world : InspectionWorld) (id : String) : Option StoredResult :=
  world.store.results.find? fun result => uuidText result.id = id

end InspectionWorld

/-- The error that a failure of the result store is reported as. -/
def appError : ResultError → AppError
  | .invalidResult message => AppError.invalid "invalid_result_request" message
  | .resultNotFound id =>
    { kind := .notFound, code := "result_not_found"
      message := s!"Result {uuidText id} does not exist or expired" }
  | .quotaExceeded _ _ =>
    { kind := .resourceExhausted, code := "result_storage_quota_exceeded"
      message := "The retained-result storage quota is exhausted" }
  | .outcomeUnknown _ _ =>
    { kind := .unavailable, code := "storage_outcome_unknown"
      message := "The durable storage outcome is unknown and was not retried" }
  | .sqlite | .fileExists _ | .numericRange _ | .unsupportedResultFormat _ _ _
  | .corruptResult _ _ => AppError.internal

def toolFailure (error : AppError) : ToolExecutionError :=
  toolError (ApiError.new error.code error.message) .failed

section Tool

variable (config : StoreConfig) (floats : FloatText)

/-- `read_result_page` for an id in text form. -/
def readResultPage (world : InspectionWorld) (id : String) (request : Results.PageRequest) :
    Except AppError Results.ResultPage :=
  match world.loadStoredResult id with
  | some stored =>
    (Results.readResultPageAt config world.store stored.id request world.timestampMs).mapError
      appError
  | none => do
    (Results.validatePageRequest request).mapError appError
    .error
      { kind := .notFound, code := "result_not_found"
        message := s!"Result {id} does not exist or expired" }

/-- `Application::result_page` -/
def resultPage (world : InspectionWorld) (id : String) (request : ResultPageRequest) :
    Except AppError ResultPage := do
  let offset ← parseU64 request.offset "offset"
  let maxRows ← parseU32 request.maxRows "maxRows"
  let maxBytes ← parseU64 request.maxBytes "maxBytes"
  let page ← readResultPage config world id { offset, maxRows, maxBytes }
  Contract.resultPage floats page

/-- A run of an agent, and the session that it belongs to. -/
structure Owner where
  sessionId : String
  runId : String

def inspectResult (owner : Owner) (world : InspectionWorld) (arguments : InspectArguments) :
    Except ToolExecutionError ResultInspection := do
  rejectIf (Storage.isBlank arguments.handleId = true)
    (invalidArguments "handleId cannot be empty")
  let offset := arguments.offset.getD "0"
  let _ ← orThrow (parseUnsigned Storage.u64Max offset)
    (invalidArguments "offset must be an unsigned decimal integer")
  let maxRows := arguments.maxRows.getD resultSampleRows
  rejectIf (maxRows = 0 ∨ maxRows > maxInspectionRows)
    (invalidArguments "maxRows must be between 1 and 100")
  let resolve := Storage.resolveAgentResultHandle world.env world.retainedResults
    arguments.handleId owner.sessionId owner.runId
  let handle ← (transact resolve world.db).1.mapError fun error => toolError (apiError error) .failed
  let page ← (resultPage config floats world handle.resultId
    { offset
      maxRows := toString maxRows
      maxBytes := toString Results.maxResultPageBytes }).mapError toolFailure
  let inspection := boundedInspection arguments.handleId page
  rejectIf (inspection.serializedBytes > maxToolOutputContentBytes) internalToolError
  pure inspection

/-- Ask for the rows behind the last answer until an answer says that there are no more. The world
and the number of rows may differ from call to call; `none` means that the fuel ran out. -/
def inspectAll (owner : Owner) (worlds : Nat → InspectionWorld) (handleId : String)
    (maxRows : Nat → Nat) :
    Nat → Nat → String → Option (Except ToolExecutionError (List ResultInspection))
  | 0, _, _ => none
  | fuel + 1, turn, offset =>
    match inspectResult config floats owner (worlds turn)
      { handleId, offset := some offset, maxRows := some (maxRows turn) } with
    | .error error => some (.error error)
    | .ok inspection =>
      if inspection.hasMore then
        (inspectAll owner worlds handleId maxRows fuel (turn + 1) inspection.nextOffset).map
          (Except.map (inspection :: ·))
      else
        some (.ok [inspection])

end Tool

end Chat2DB.Agent.Inspection
