import Chat2DB.Sql.AppError
import Chat2DB.Wire.Messages
import Chat2DB.Base.Outcome

/-! # Batches of a native MySQL result

A query task reads rows from the server, assembles them into batches that keep
to the target sizes, and stops at the limits of the query. A byte count that is
kept by hand stands for the encoded length of the batch being assembled.
-/

namespace Chat2DB.MySql

open Chat2DB.Sql Outcome

/-! ## Encoded lengths -/

/-- The bytes of a base-128 varint. -/
def encodedLenVarint (value : Nat) : Nat :=
  if value < 128 then 1 else 1 + encodedLenVarint (value / 128)

/-- The bytes of a field's key, whose lowest three bits hold the wire type. -/
def keyLen (field : Nat) : Nat :=
  encodedLenVarint (8 * field)

/-- A batch of rows with the offset of its first one. -/
structure RowBatch (Row : Type) where
  startRowOffset : Nat
  rows : List Row

/-- An entry of the repeated field two: its key, its length, and the row. -/
def rowEntryLen {Row : Type} (rowLen : Row → Nat) (row : Row) : Nat :=
  keyLen 2 + encodedLenVarint (rowLen row) + rowLen row

/-- The encoded length of a batch: field one when it is not zero, and the rows. -/
def RowBatch.encodedLen {Row : Type} (rowLen : Row → Nat) (batch : RowBatch Row) : Nat :=
  (if batch.startRowOffset = 0 then 0 else keyLen 1 + encodedLenVarint batch.startRowOffset) +
    (batch.rows.map (rowEntryLen rowLen)).sum

/-! ## Options -/

structure QueryExecutionOptions where
  maxRows : Nat
  maxResultBytes : Nat
  targetBatchRows : Nat
  targetBatchBytes : Nat
deriving DecidableEq

def defaultBatchRows : Nat := 256

def defaultBatchBytes : Nat := 262144

def defaultResultBytes : Nat := 67108864

def maxResultBytesLimit : Nat := 1073741824

def validateQueryOptions (options : QueryExecutionOptions) : Except AppError Unit := do
  rejectIf (Wire.maxBatchRows < options.targetBatchRows)
    (.invalid "invalid_query_limits" s!"batchRows must be at most {Wire.maxBatchRows}")
  rejectIf (options.targetBatchBytes ≠ 0 ∧
      ¬ (1024 ≤ options.targetBatchBytes ∧ options.targetBatchBytes ≤ Wire.maxBatchBytes))
    (.invalid "invalid_query_limits"
      s!"batchBytes must be zero or between 1024 and {Wire.maxBatchBytes}")
  rejectIf (maxResultBytesLimit < options.maxResultBytes)
    (.invalid "invalid_query_limits" s!"maxResultBytes must be at most {maxResultBytesLimit}")

def QueryExecutionOptions.resultBytes (options : QueryExecutionOptions) : Nat :=
  if options.maxResultBytes = 0 then defaultResultBytes else options.maxResultBytes

def QueryExecutionOptions.batchRows (options : QueryExecutionOptions) : Nat :=
  if options.targetBatchRows = 0 then defaultBatchRows else options.targetBatchRows

def QueryExecutionOptions.batchBytes (options : QueryExecutionOptions) : Nat :=
  if options.targetBatchBytes = 0 then defaultBatchBytes else options.targetBatchBytes

/-! ## The task -/

inductive QueryTaskError where
  | cancelled (reason : String)
  | failed (error : AppError)
deriving DecidableEq

def internalError : QueryTaskError :=
  .failed {
    kind := .internal
    code := "internal_error"
    message := "The operation could not be completed" }

structure QueryCompleted where
  rowCount : Nat
  truncatedByMaxRows : Bool
  truncatedByMaxResultBytes : Bool
deriving DecidableEq

/-- Addition of 64-bit counters that stops at the greatest one. -/
def saturatingAdd (left right : Nat) : Nat :=
  min (left + right) (2 ^ 64 - 1)

def rowBatchPrefixBytes (startRowOffset : Nat) : Nat :=
  if startRowOffset = 0 then 0 else saturatingAdd 1 (encodedLenVarint startRowOffset)

/-- What the task calls outside: the conversion of a row, its encoded length,
the writer of the result, the operation's progress, and the end of the connection. -/
structure ResultSink (Raw Row : Type) where
  mysqlRow : Raw → Except QueryTaskError Row
  encodedLen : Row → Nat
  append : List (RowBatch Row) → RowBatch Row → Except QueryTaskError Unit
  progress : Nat → List (RowBatch Row) → Except QueryTaskError Unit
  terminate : Except QueryTaskError Unit
  finish : QueryCompleted → Except QueryTaskError Unit

/-- The state of the loop, with the batches that it has appended. -/
structure Batching (Row : Type) where
  pendingRows : List Row
  pendingBytes : Nat
  rowCount : Nat
  resultBytes : Nat
  appended : List (RowBatch Row)

def Batching.start {Row : Type} : Batching Row where
  pendingRows := []
  pendingBytes := 0
  rowCount := 0
  resultBytes := 0
  appended := []

section
variable {Raw Row : Type} (sink : ResultSink Raw Row) (options : QueryExecutionOptions)

def rowBatchEntryBytes (row : Row) : Nat :=
  saturatingAdd (saturatingAdd 1 (encodedLenVarint (sink.encodedLen row))) (sink.encodedLen row)

/-- Append the pending rows as one batch. The rows are gone even when that fails. -/
def flushRows (state : Batching Row) : Batching Row × Except QueryTaskError Unit :=
  if state.pendingRows = [] then (state, .ok ())
  else if state.rowCount < state.pendingRows.length then (state, .error internalError)
  else
    let batch : RowBatch Row :=
      { startRowOffset := state.rowCount - state.pendingRows.length, rows := state.pendingRows }
    let taken := { state with pendingRows := [] }
    if Wire.maxBatchBytes < batch.encodedLen sink.encodedLen then
      (taken, .error (.failed {
        kind := .resourceExhausted
        code := "mysql_result_batch_too_large"
        message := "One MySQL result row exceeds the retained-result batch limit" }))
    else match sink.append state.appended batch with
      | .error error => (taken, .error error)
      | .ok () =>
        let written := { taken with appended := state.appended ++ [batch] }
        (written, sink.progress state.rowCount written.appended)

/-- Add a row that the limits allow. -/
def pushRow (state : Batching Row) (row : Row) : Except QueryTaskError (Batching Row) := do
  let entryBytes := rowBatchEntryBytes sink row
  let pendingBytes := if state.pendingRows = [] then rowBatchPrefixBytes state.rowCount
    else state.pendingBytes
  rejectIf (2 ^ 64 ≤ state.rowCount + 1) internalError
  rejectIf (2 ^ 64 ≤ state.resultBytes + sink.encodedLen row) internalError
  return { state with
    pendingRows := state.pendingRows ++ [row]
    pendingBytes := saturatingAdd pendingBytes entryBytes
    rowCount := state.rowCount + 1
    resultBytes := state.resultBytes + sink.encodedLen row }

/-- Whether the row does not fit the batch that is being assembled. -/
def fillsBatch (state : Batching Row) (row : Row) : Prop :=
  state.pendingRows ≠ [] ∧ (options.batchRows ≤ state.pendingRows.length ∨
    options.batchBytes < saturatingAdd (saturatingAdd state.pendingBytes
      (if state.pendingRows = [] then rowBatchPrefixBytes state.rowCount else 0))
      (rowBatchEntryBytes sink row))

instance (state : Batching Row) (row : Row) : Decidable (fillsBatch sink options state row) :=
  inferInstanceAs (Decidable (_ ∧ _))

/-- The batch is appended when the row does not fit it any more. -/
def makeRoom (state : Batching Row) (row : Row) : Batching Row × Except QueryTaskError Unit :=
  if fillsBatch sink options state row then
    let flushed := flushRows sink state
    ({ flushed.1 with pendingBytes := 0 }, flushed.2)
  else (state, .ok ())

/-- One turn of the loop: a completion when the row exceeds a limit, else the next state. -/
def takeRow (state : Batching Row) (raw : Raw) :
    Batching Row × Except QueryTaskError (Option QueryCompleted) :=
  if options.maxRows ≠ 0 ∧ options.maxRows ≤ state.rowCount then
    (state, .ok (some {
      rowCount := state.rowCount
      truncatedByMaxRows := true
      truncatedByMaxResultBytes := false }))
  else match sink.mysqlRow raw with
    | .error error => (state, .error error)
    | .ok row =>
      if options.resultBytes < saturatingAdd state.resultBytes (sink.encodedLen row) then
        (state, .ok (some {
          rowCount := state.rowCount
          truncatedByMaxRows := false
          truncatedByMaxResultBytes := true }))
      else match makeRoom sink options state row with
        | (room, .error error) => (room, .error error)
        | (room, .ok ()) =>
          match pushRow sink room row with
          | .error error => (room, .error error)
          | .ok next => (next, .ok none)

/-- The loop over the rows of the server, where an error is a failed read or a cancellation. -/
def consumeRows : List (Except QueryTaskError Raw) → Batching Row →
    Batching Row × Except QueryTaskError QueryCompleted
  | [], state => (state, .ok {
      rowCount := state.rowCount
      truncatedByMaxRows := false
      truncatedByMaxResultBytes := false })
  | .error error :: _, state => (state, .error error)
  | .ok raw :: rows, state =>
    match takeRow sink options state raw with
    | (next, .error error) => (next, .error error)
    | (next, .ok (some completed)) => (next, .ok completed)
    | (next, .ok none) => consumeRows rows next

/-- Whether the server still has rows to send behind a completion. -/
def requiresTermination (completed : QueryCompleted) : Bool :=
  completed.truncatedByMaxRows || completed.truncatedByMaxResultBytes

/-- The batches that the task appends for the rows of the server, and how it ends. -/
def executeQueryTask (rows : List (Except QueryTaskError Raw)) :
    List (RowBatch Row) × Except QueryTaskError QueryCompleted :=
  match consumeRows sink options rows .start with
  | (state, .error error) => (state.appended, .error error)
  | (state, .ok completed) =>
    match if requiresTermination completed = true then sink.terminate else .ok () with
    | .error error => (state.appended, .error error)
    | .ok () =>
      match flushRows sink state with
      | (final, .error error) => (final.appended, .error error)
      | (final, .ok ()) =>
        (final.appended, (sink.finish completed).map fun _ => completed)

/-! ## What the batches are to be -/

/-- The batch that is being assembled. -/
def Batching.assembling (state : Batching Row) : RowBatch Row where
  startRowOffset := state.rowCount - state.pendingRows.length
  rows := state.pendingRows

/-- The states in front of the rows that are still to be read. -/
inductive Reached : Batching Row → List (Except QueryTaskError Raw) →
    Batching Row → List (Except QueryTaskError Raw) → Prop
  | here (state : Batching Row) (rows : List (Except QueryTaskError Raw)) :
      Reached state rows state rows
  | row {state next last : Batching Row} {raw : Raw} {rows rest : List (Except QueryTaskError Raw)}
      (hturn : takeRow sink options state raw = (next, .ok none))
      (hrest : Reached next rows last rest) : Reached state (.ok raw :: rows) last rest

/-- Batches that start at the offset and follow each other without a gap. -/
def Contiguous : Nat → List (RowBatch Row) → Prop
  | _, [] => True
  | offset, batch :: batches =>
    batch.startRowOffset = offset ∧ Contiguous (offset + batch.rows.length) batches

/-- A batch keeps to the target sizes, unless it is a single row. -/
def KeepsTargets (batch : RowBatch Row) : Prop :=
  1 ≤ batch.rows.length ∧ batch.rows.length ≤ options.batchRows ∧
    (options.batchBytes < batch.encodedLen sink.encodedLen → batch.rows.length = 1)

/-- The rows keep to the limits of the query. -/
def Allowed (rows : List Row) : Prop :=
  (options.maxRows ≠ 0 → rows.length ≤ options.maxRows) ∧
    (rows.map sink.encodedLen).sum ≤ options.resultBytes

/-- The rows of the server in front of `rest` were read and convert to `kept`. -/
def ReadAs (rows : List (Except QueryTaskError Raw)) (kept : List Row)
    (rest : List (Except QueryTaskError Raw)) : Prop :=
  ∃ raws, rows = raws.map .ok ++ rest ∧
    List.Forall₂ (fun raw row => sink.mysqlRow raw = .ok row) raws kept

/-- Nothing but an end of the rows, or a next row that a limit forbids, stops the kept rows. -/
def LongestAllowed (kept : List Row) (rest : List (Except QueryTaskError Raw)) : Prop :=
  Allowed sink options kept ∧ (rest = [] ∨ ∃ raw tail, rest = .ok raw :: tail ∧
    ∀ row, sink.mysqlRow raw = .ok row → ¬ Allowed sink options (kept ++ [row]))

/-- The flags name the limit that the next row exceeds, the number of rows before the bytes. -/
def FlagsCut (kept : List Row) (rest : List (Except QueryTaskError Raw))
    (completed : QueryCompleted) : Prop :=
  (completed.truncatedByMaxRows = true ↔
    rest ≠ [] ∧ options.maxRows ≠ 0 ∧ kept.length = options.maxRows) ∧
  (completed.truncatedByMaxResultBytes = true ↔
    rest ≠ [] ∧ ¬ (options.maxRows ≠ 0 ∧ kept.length = options.maxRows) ∧
      ∃ raw row tail, rest = .ok raw :: tail ∧ sink.mysqlRow raw = .ok row ∧
        options.resultBytes < ((kept ++ [row]).map sink.encodedLen).sum)

end

/-! ## The byte count -/

theorem keyLen_eq_one {field : Nat} (h : field < 16) : keyLen field = 1 := by
  rw [keyLen, encodedLenVarint, if_pos (by omega)]

theorem encodedLenVarint_le (groups : Nat) {value : Nat} (h : value < 128 ^ (groups + 1)) :
    encodedLenVarint value ≤ groups + 1 := by
  induction groups generalizing value with
  | zero =>
    rw [encodedLenVarint, if_pos (by simpa using h)]
  | succ groups ih =>
    rw [encodedLenVarint]
    split_ifs with hsmall
    · omega
    · have hrest := ih (Nat.div_lt_of_lt_mul (by rwa [pow_succ'] at h))
      omega

theorem encodedLenVarint_le_ten {value : Nat} (h : value < 2 ^ 64) : encodedLenVarint value ≤ 10 :=
  encodedLenVarint_le 9 (lt_of_lt_of_le h (by norm_num))

theorem saturatingAdd_eq {left right : Nat} (h : left + right < 2 ^ 64) :
    saturatingAdd left right = left + right :=
  Nat.min_eq_left (by omega)

theorem saturatingAdd_le_iff {left right bound : Nat} (h : bound < 2 ^ 64 - 1) :
    saturatingAdd left right ≤ bound ↔ left + right ≤ bound := by
  rw [saturatingAdd]
  omega

theorem rowBatchPrefixBytes_eq {offset : Nat} (h : offset < 2 ^ 64) :
    rowBatchPrefixBytes offset =
      if offset = 0 then 0 else keyLen 1 + encodedLenVarint offset := by
  have hten := encodedLenVarint_le_ten h
  rw [rowBatchPrefixBytes, keyLen_eq_one (by decide), saturatingAdd_eq (by omega)]

section
variable {Raw Row : Type} {sink : ResultSink Raw Row} {options : QueryExecutionOptions}

theorem rowBatchEntryBytes_eq {row : Row} (h : sink.encodedLen row < 2 ^ 63) :
    rowBatchEntryBytes sink row = rowEntryLen sink.encodedLen row := by
  have hten := encodedLenVarint_le_ten (lt_trans h (by norm_num))
  have hkey : saturatingAdd 1 (encodedLenVarint (sink.encodedLen row)) =
      1 + encodedLenVarint (sink.encodedLen row) := saturatingAdd_eq (by omega)
  rw [rowBatchEntryBytes, rowEntryLen, keyLen_eq_one (by decide), hkey,
    saturatingAdd_eq (by omega)]

theorem validateQueryOptions_ok (h : validateQueryOptions options = .ok ()) :
    1 ≤ options.batchRows ∧ options.batchBytes < 2 ^ 63 ∧ options.resultBytes < 2 ^ 63 := by
  obtain ⟨_, hrows, h⟩ := (bind_eq_ok _ _ _).1 h
  obtain ⟨_, hbytes, hresult⟩ := (bind_eq_ok _ _ _).1 h
  have hbytes := (rejectIf_eq_ok _ _ _).1 hbytes
  have hresult := (rejectIf_eq_ok _ _ _).1 hresult
  simp only [QueryExecutionOptions.batchRows, QueryExecutionOptions.batchBytes,
    QueryExecutionOptions.resultBytes, defaultBatchRows, defaultBatchBytes, defaultResultBytes,
    maxResultBytesLimit, Wire.maxBatchBytes] at hbytes hresult ⊢
  split_ifs <;> omega

/-! ## Appended batches -/

theorem contiguous_append (offset : Nat) (batches : List (RowBatch Row)) (batch : RowBatch Row) :
    Contiguous offset (batches ++ [batch]) ↔ Contiguous offset batches ∧
      batch.startRowOffset = offset + (batches.flatMap (·.rows)).length := by
  induction batches generalizing offset with
  | nil => simp [Contiguous]
  | cons first batches ih =>
    rw [List.cons_append, Contiguous, Contiguous, ih, List.flatMap_cons, List.length_append,
      Nat.add_assoc, and_assoc]

/-- The batches so far follow each other, keep to the targets, and hold these rows. -/
structure WellBatched (sink : ResultSink Raw Row) (options : QueryExecutionOptions)
    (batches : List (RowBatch Row)) (rows : List Row) : Prop where
  contiguous : Contiguous 0 batches
  targets : ∀ batch ∈ batches, KeepsTargets sink options batch
  rows_eq : batches.flatMap (·.rows) = rows

theorem WellBatched.append {batches : List (RowBatch Row)} {rows : List Row}
    (h : WellBatched sink options batches rows) {batch : RowBatch Row}
    (hoffset : batch.startRowOffset = rows.length) (hbatch : KeepsTargets sink options batch) :
    WellBatched sink options (batches ++ [batch]) (rows ++ batch.rows) where
  contiguous := by
    rw [contiguous_append, h.rows_eq, Nat.zero_add]
    exact ⟨h.contiguous, hoffset⟩
  targets := by
    intro other hother
    rcases List.mem_append.1 hother with hother | hother
    · exact h.targets other hother
    · rwa [List.mem_singleton.1 hother]
  rows_eq := by
    rw [List.flatMap_append, h.rows_eq, List.flatMap_singleton]

/-- A state in front of a row: the kept rows are those appended and those pending,
the counters agree with them, and the batch being assembled keeps to the targets. -/
structure Sound (sink : ResultSink Raw Row) (options : QueryExecutionOptions)
    (state : Batching Row) (kept : List Row) : Prop where
  appended : ∃ written, kept = written ++ state.pendingRows ∧
    WellBatched sink options state.appended written
  rowCount : state.rowCount = kept.length
  resultBytes : state.resultBytes = (kept.map sink.encodedLen).sum
  allowed : Allowed sink options kept
  counted : kept.length < 2 ^ 64
  pendingBytes : state.pendingBytes = state.assembling.encodedLen sink.encodedLen
  pending : state.pendingRows = [] ∨ KeepsTargets sink options state.assembling

theorem sound_start : Sound sink options .start [] where
  appended := ⟨[], rfl, trivial, by simp [Batching.start], rfl⟩
  rowCount := rfl
  resultBytes := rfl
  allowed := by simp [Allowed]
  counted := by norm_num
  pendingBytes := rfl
  pending := Or.inl rfl

theorem Sound.assembling_offset {state : Batching Row} {kept written : List Row}
    (h : Sound sink options state kept) (hkept : kept = written ++ state.pendingRows) :
    state.assembling.startRowOffset = written.length := by
  rw [Batching.assembling, h.rowCount, hkept, List.length_append]
  simp

theorem flushRows_cases {state : Batching Row} {kept : List Row}
    (h : Sound sink options state kept) (hpending : state.pendingRows ≠ []) :
    ∃ (appended : List (RowBatch Row)) (result : Except QueryTaskError Unit),
      flushRows sink state = ({ state with pendingRows := [], appended }, result) ∧
      (appended = state.appended ++ [state.assembling] ∨
        (appended = state.appended ∧ ∃ error, result = .error error)) := by
  have hcount : ¬ state.rowCount < state.pendingRows.length := by
    obtain ⟨written, hkept, _⟩ := h.appended
    rw [h.rowCount, hkept, List.length_append]
    omega
  rw [flushRows, if_neg hpending, if_neg hcount]
  dsimp only
  split_ifs
  · exact ⟨_, _, rfl, Or.inr ⟨rfl, _, rfl⟩⟩
  · split
    · exact ⟨_, _, rfl, Or.inr ⟨rfl, _, rfl⟩⟩
    · exact ⟨_, _, rfl, Or.inl rfl⟩

theorem flushRows_wellBatched {state : Batching Row} {kept : List Row}
    (h : Sound sink options state kept) :
    ∃ written, WellBatched sink options (flushRows sink state).1.appended written ∧
      written <+: kept ∧ ((flushRows sink state).2 = .ok () → written = kept) := by
  obtain ⟨written, hkept, hbatches⟩ := h.appended
  by_cases hpending : state.pendingRows = []
  · rw [flushRows, if_pos hpending]
    rw [hpending, List.append_nil] at hkept
    exact ⟨written, hbatches, hkept ▸ List.prefix_rfl, fun _ => hkept.symm⟩
  · obtain ⟨appended, result, hflush, hcases⟩ := flushRows_cases h hpending
    rw [hflush]
    rcases hcases with rfl | ⟨rfl, error, rfl⟩
    · have hassembled := h.pending.resolve_left hpending
      refine ⟨kept, ?_, List.prefix_rfl, fun _ => rfl⟩
      rw [hkept]
      exact hbatches.append (h.assembling_offset hkept) hassembled
    · exact ⟨written, hbatches, hkept ▸ List.prefix_append _ _, fun hok => by cases hok⟩

/-! ## A turn of the loop -/

/-- A state that has room for the row in the batch being assembled. -/
structure HasRoom (sink : ResultSink Raw Row) (options : QueryExecutionOptions)
    (room : Batching Row) (kept : List Row) (row : Row) : Prop where
  appended : ∃ written, kept = written ++ room.pendingRows ∧
    WellBatched sink options room.appended written
  rowCount : room.rowCount = kept.length
  resultBytes : room.resultBytes = (kept.map sink.encodedLen).sum
  pending : room.pendingRows = [] ∨
    (room.pendingBytes = room.assembling.encodedLen sink.encodedLen ∧
      room.pendingRows.length < options.batchRows ∧
      room.pendingBytes + rowEntryLen sink.encodedLen row ≤ options.batchBytes)

theorem makeRoom_hasRoom (hoptions : validateQueryOptions options = .ok ())
    {state room : Batching Row} {kept : List Row} (h : Sound sink options state kept) {row : Row}
    (hrow : sink.encodedLen row < 2 ^ 63)
    (hroom : makeRoom sink options state row = (room, .ok ())) :
    HasRoom sink options room kept row := by
  obtain ⟨written, hkept, hbatches⟩ := h.appended
  rw [makeRoom] at hroom
  split_ifs at hroom with hfills
  · obtain ⟨appended, result, hflush, hcases⟩ := flushRows_cases h hfills.1
    rw [hflush] at hroom
    obtain ⟨rfl, rfl⟩ := Prod.mk.inj hroom
    have happended : appended = state.appended ++ [state.assembling] := by
      rcases hcases with happended | ⟨_, error, herror⟩
      · exact happended
      · cases herror
    have hassembled := h.pending.resolve_left hfills.1
    refine ⟨⟨kept, (List.append_nil kept).symm, ?_⟩, h.rowCount, h.resultBytes, Or.inl rfl⟩
    dsimp only
    rw [happended, hkept]
    exact hbatches.append (h.assembling_offset hkept) hassembled
  · obtain ⟨rfl, -⟩ := Prod.mk.inj hroom
    refine ⟨⟨written, hkept, hbatches⟩, h.rowCount, h.resultBytes, ?_⟩
    by_cases hpending : state.pendingRows = []
    · exact Or.inl hpending
    · have hbytes := (validateQueryOptions_ok hoptions).2.1
      rw [fillsBatch, not_and, not_or, if_neg hpending, not_le, not_lt] at hfills
      obtain ⟨hcount, hcandidate⟩ := hfills hpending
      rw [rowBatchEntryBytes_eq hrow, saturatingAdd_le_iff (by omega)] at hcandidate
      have hsaturated : saturatingAdd state.pendingBytes 0 = min state.pendingBytes (2 ^ 64 - 1) :=
        rfl
      exact Or.inr ⟨h.pendingBytes, hcount, by omega⟩

theorem encodedLen_append (offset : Nat) (rows : List Row) (row : Row) :
    RowBatch.encodedLen sink.encodedLen ⟨offset, rows ++ [row]⟩ =
      RowBatch.encodedLen sink.encodedLen ⟨offset, rows⟩ + rowEntryLen sink.encodedLen row := by
  simp [RowBatch.encodedLen, Nat.add_assoc]

/-- A row that the limits allow is added to the kept rows. -/
theorem pushRow_sound (hoptions : validateQueryOptions options = .ok ()) {room next : Batching Row}
    {kept : List Row} {row : Row} (h : HasRoom sink options room kept row)
    (hallowed : Allowed sink options (kept ++ [row])) (hrow : sink.encodedLen row < 2 ^ 63)
    (hpush : pushRow sink room row = .ok next) : Sound sink options next (kept ++ [row]) := by
  obtain ⟨hbatchRows, hbatchBytes, _⟩ := validateQueryOptions_ok hoptions
  obtain ⟨written, hkept, hbatches⟩ := h.appended
  obtain ⟨_, hcount, hpush⟩ := (bind_eq_ok _ _ _).1 hpush
  obtain ⟨_, _, hpush⟩ := (bind_eq_ok _ _ _).1 hpush
  have hcount := (rejectIf_eq_ok _ _ _).1 hcount
  obtain rfl := ((pure_eq_ok _ _).1 hpush).symm
  have hlength : room.pendingRows.length ≤ room.rowCount := by
    rw [h.rowCount, hkept, List.length_append]
    omega
  have hoffset : room.rowCount + 1 - (room.pendingRows ++ [row]).length =
      room.rowCount - room.pendingRows.length := by
    rw [List.length_append, List.length_singleton]
    omega
  -- The byte count before the row stands for the pending rows at their offset.
  have hbefore : (if room.pendingRows = [] then rowBatchPrefixBytes room.rowCount
      else room.pendingBytes) = room.assembling.encodedLen sink.encodedLen := by
    split_ifs with hempty
    · rw [rowBatchPrefixBytes_eq (by omega), Batching.assembling, hempty]
      simp [RowBatch.encodedLen]
    · exact (h.pending.resolve_left hempty).1
  have hafter : RowBatch.encodedLen sink.encodedLen
      ⟨room.rowCount + 1 - (room.pendingRows ++ [row]).length, room.pendingRows ++ [row]⟩ =
      room.assembling.encodedLen sink.encodedLen + rowEntryLen sink.encodedLen row := by
    rw [hoffset, encodedLen_append]
    rfl
  have hentry : rowEntryLen sink.encodedLen row ≤ 2 ^ 63 + 11 := by
    have hten := encodedLenVarint_le_ten (lt_trans hrow (by norm_num))
    rw [rowEntryLen, keyLen_eq_one (by decide)]
    omega
  have hfits : room.assembling.encodedLen sink.encodedLen +
      rowEntryLen sink.encodedLen row < 2 ^ 64 := by
    rcases h.pending with hempty | ⟨hbytes, _, hcandidate⟩
    · have hten := encodedLenVarint_le_ten (by omega : room.rowCount < 2 ^ 64)
      rw [← hbefore, if_pos hempty, rowBatchPrefixBytes_eq (by omega), keyLen_eq_one (by decide)]
      split_ifs <;> omega
    · rw [← hbytes]
      omega
  refine ⟨⟨written, by rw [hkept, List.append_assoc], hbatches⟩, ?_, ?_, hallowed, ?_, ?_,
    Or.inr ⟨?_, ?_, ?_⟩⟩
  · simp [h.rowCount]
  · simp [h.resultBytes]
  · rw [List.length_append, List.length_singleton, ← h.rowCount]
    omega
  · rw [Batching.assembling]
    dsimp only
    rw [hbefore, rowBatchEntryBytes_eq hrow, saturatingAdd_eq hfits, hafter]
  · simp [Batching.assembling]
  · rw [Batching.assembling, List.length_append, List.length_singleton]
    rcases h.pending with hempty | ⟨_, hcount, _⟩
    · rw [hempty, List.length_nil]
      omega
    · omega
  · intro hlarge
    rw [Batching.assembling] at hlarge ⊢
    dsimp only at hlarge ⊢
    rw [hafter] at hlarge
    rcases h.pending with hempty | ⟨hbytes, _, hcandidate⟩
    · rw [hempty]
      rfl
    · rw [← hbytes] at hlarge
      omega

/-- A turn that goes on has read a row that the limits allow. -/
theorem takeRow_sound (hoptions : validateQueryOptions options = .ok ()) {state next : Batching Row}
    {kept : List Row} (h : Sound sink options state kept) {raw : Raw}
    (hturn : takeRow sink options state raw = (next, .ok none)) :
    ∃ row, sink.mysqlRow raw = .ok row ∧ Sound sink options next (kept ++ [row]) := by
  have hlimit := (validateQueryOptions_ok hoptions).2.2
  rw [takeRow] at hturn
  split_ifs at hturn with hmaxRows
  · cases Except.ok.inj (Prod.mk.inj hturn).2
  split at hturn
  · cases (Prod.mk.inj hturn).2
  · rename_i row hrow
    split_ifs at hturn with hbytes
    · cases Except.ok.inj (Prod.mk.inj hturn).2
    split at hturn
    · cases (Prod.mk.inj hturn).2
    · rename_i room hroom
      split at hturn
      · cases (Prod.mk.inj hturn).2
      · rename_i pushed hpush
        obtain ⟨rfl, -⟩ := Prod.mk.inj hturn
        rw [not_lt, saturatingAdd_le_iff (by omega), h.resultBytes] at hbytes
        have hallowed : Allowed sink options (kept ++ [row]) := by
          refine ⟨fun hlimited => ?_, by simpa using hbytes⟩
          rw [not_and, not_le, h.rowCount] at hmaxRows
          rw [List.length_append, List.length_singleton]
          exact hmaxRows hlimited
        have hsmall : sink.encodedLen row < 2 ^ 63 := by omega
        exact ⟨row, hrow, pushRow_sound hoptions (makeRoom_hasRoom hoptions h hsmall hroom)
          hallowed hsmall hpush⟩

/-- A turn that completes the result names the limit that the row exceeds. -/
theorem takeRow_completed (hoptions : validateQueryOptions options = .ok ())
    {state next : Batching Row} {kept : List Row} (h : Sound sink options state kept) {raw : Raw}
    {completed : QueryCompleted}
    (hturn : takeRow sink options state raw = (next, .ok (some completed)))
    (tail : List (Except QueryTaskError Raw)) :
    next = state ∧ completed.rowCount = kept.length ∧
      LongestAllowed sink options kept (.ok raw :: tail) ∧
      FlagsCut sink options kept (.ok raw :: tail) completed := by
  have hlimit := (validateQueryOptions_ok hoptions).2.2
  rw [takeRow] at hturn
  split_ifs at hturn with hmaxRows
  · obtain ⟨rfl, hcompleted⟩ := Prod.mk.inj hturn
    obtain rfl := Option.some.inj (Except.ok.inj hcompleted)
    have hreached : kept.length = options.maxRows := by
      have hallowed := h.allowed.1 hmaxRows.1
      have hleast := hmaxRows.2
      rw [h.rowCount] at hleast
      omega
    refine ⟨rfl, h.rowCount, ⟨h.allowed, Or.inr ⟨raw, tail, rfl, ?_⟩⟩, ?_, ?_⟩
    · rintro row - ⟨hcount, -⟩
      have hcount := hcount hmaxRows.1
      rw [List.length_append, List.length_singleton] at hcount
      omega
    · simp [hmaxRows.1, hreached]
    · simp [hmaxRows.1, hreached]
  · split at hturn
    · cases (Prod.mk.inj hturn).2
    · rename_i row hrow
      have hbelow : ¬ (options.maxRows ≠ 0 ∧ kept.length = options.maxRows) := by
        rintro ⟨hlimited, hreached⟩
        exact hmaxRows ⟨hlimited, by rw [h.rowCount, hreached]⟩
      split_ifs at hturn with hbytes
      · obtain ⟨rfl, hcompleted⟩ := Prod.mk.inj hturn
        obtain rfl := Option.some.inj (Except.ok.inj hcompleted)
        rw [← not_le, saturatingAdd_le_iff (by omega), not_le, h.resultBytes] at hbytes
        have hover : options.resultBytes < ((kept ++ [row]).map sink.encodedLen).sum := by
          simpa using hbytes
        refine ⟨rfl, h.rowCount, ⟨h.allowed, Or.inr ⟨raw, tail, rfl, ?_⟩⟩, ?_, ?_⟩
        · rintro other hother ⟨-, hsum⟩
          rw [hrow] at hother
          rw [← Except.ok.inj hother] at hsum
          omega
        · simp only [Bool.false_eq_true, false_iff]
          rintro ⟨-, hlimited⟩
          exact hbelow hlimited
        · simp only [true_iff]
          exact ⟨List.cons_ne_nil _ _, hbelow, raw, row, tail, rfl, hrow, hover⟩
      · split at hturn
        · cases (Prod.mk.inj hturn).2
        · split at hturn
          · cases (Prod.mk.inj hturn).2
          · cases Except.ok.inj (Prod.mk.inj hturn).2

/-- A turn that fails leaves batches that hold a part of the kept rows. -/
theorem takeRow_failed {state next : Batching Row} {kept : List Row}
    (h : Sound sink options state kept) {raw : Raw} {error : QueryTaskError}
    (hturn : takeRow sink options state raw = (next, .error error)) :
    ∃ written, WellBatched sink options next.appended written ∧ written <+: kept := by
  obtain ⟨unflushed, hkept, hbatches⟩ := h.appended
  have hunchanged : ∃ written, WellBatched sink options state.appended written ∧
      written <+: kept := ⟨unflushed, hbatches, hkept ▸ List.prefix_append _ _⟩
  have hroomBatches : ∀ row room result, makeRoom sink options state row = (room, result) →
      ∃ written, WellBatched sink options room.appended written ∧ written <+: kept := by
    intro row room result hroom
    rw [makeRoom] at hroom
    split_ifs at hroom
    · obtain ⟨rfl, -⟩ := Prod.mk.inj hroom
      obtain ⟨written, hwritten, hpart, -⟩ := flushRows_wellBatched h
      exact ⟨written, hwritten, hpart⟩
    · obtain ⟨rfl, -⟩ := Prod.mk.inj hroom
      exact hunchanged
  rw [takeRow] at hturn
  split_ifs at hturn
  · cases (Prod.mk.inj hturn).2
  split at hturn
  · obtain ⟨rfl, -⟩ := Prod.mk.inj hturn
    exact hunchanged
  · split_ifs at hturn
    · cases (Prod.mk.inj hturn).2
    split at hturn
    · rename_i hroom
      obtain ⟨rfl, -⟩ := Prod.mk.inj hturn
      exact hroomBatches _ _ _ hroom
    · rename_i hroom
      split at hturn
      · obtain ⟨rfl, -⟩ := Prod.mk.inj hturn
        exact hroomBatches _ _ _ hroom
      · cases (Prod.mk.inj hturn).2

/-! ## Whole runs -/

theorem readAs_nil (rows : List (Except QueryTaskError Raw)) : ReadAs sink rows [] rows :=
  ⟨[], rfl, List.Forall₂.nil⟩

theorem readAs_cons {raw : Raw} {row : Row} (hrow : sink.mysqlRow raw = .ok row)
    {rows rest : List (Except QueryTaskError Raw)} {kept : List Row}
    (h : ReadAs sink rows kept rest) : ReadAs sink (.ok raw :: rows) (row :: kept) rest := by
  obtain ⟨raws, rfl, hraws⟩ := h
  exact ⟨raw :: raws, rfl, List.Forall₂.cons hrow hraws⟩

theorem reached_sound (hoptions : validateQueryOptions options = .ok ()) {state last : Batching Row}
    {rows rest : List (Except QueryTaskError Raw)}
    (hreached : Reached sink options state rows last rest) {kept : List Row}
    (h : Sound sink options state kept) : ∃ more, Sound sink options last (kept ++ more) := by
  induction hreached generalizing kept with
  | here state rows => exact ⟨[], by rwa [List.append_nil]⟩
  | row hturn hrest ih =>
    obtain ⟨row, _, hnext⟩ := takeRow_sound hoptions h hturn
    obtain ⟨more, hmore⟩ := ih hnext
    exact ⟨row :: more, by simpa using hmore⟩

/-- How the loop ends, in terms of the rows that were kept. -/
def EndsWith (sink : ResultSink Raw Row) (options : QueryExecutionOptions)
    (final : Batching Row) (kept : List Row) (rest : List (Except QueryTaskError Raw)) :
    Except QueryTaskError QueryCompleted → Prop
  | .ok completed => Sound sink options final kept ∧ completed.rowCount = kept.length ∧
      LongestAllowed sink options kept rest ∧ FlagsCut sink options kept rest completed
  | .error _ => ∃ written, WellBatched sink options final.appended written ∧ written <+: kept

theorem consumeRows_endsWith (hoptions : validateQueryOptions options = .ok ())
    (rows : List (Except QueryTaskError Raw)) {state : Batching Row} {kept : List Row}
    (h : Sound sink options state kept) :
    ∃ more rest, ReadAs sink rows more rest ∧ Allowed sink options (kept ++ more) ∧
      EndsWith sink options (consumeRows sink options rows state).1 (kept ++ more) rest
        (consumeRows sink options rows state).2 := by
  induction rows generalizing state kept with
  | nil =>
    refine ⟨[], [], readAs_nil [], ?_, ?_⟩
    · rw [List.append_nil]
      exact h.allowed
    · rw [List.append_nil]
      refine ⟨h, h.rowCount, ⟨h.allowed, Or.inl rfl⟩, ?_, ?_⟩
      · simp
      · simp
  | cons item rows ih =>
    obtain ⟨unflushed, hkept, hbatches⟩ := h.appended
    cases item with
    | error error =>
      refine ⟨[], .error error :: rows, readAs_nil _, ?_, ?_⟩
      · rw [List.append_nil]
        exact h.allowed
      · rw [List.append_nil]
        exact ⟨unflushed, hbatches, hkept ▸ List.prefix_append _ _⟩
    | ok raw =>
      rw [consumeRows]
      split
      · rename_i next error hturn
        refine ⟨[], .ok raw :: rows, readAs_nil _, ?_, ?_⟩
        · rw [List.append_nil]
          exact h.allowed
        · rw [List.append_nil]
          exact takeRow_failed h hturn
      · rename_i next completed hturn
        obtain ⟨rfl, hcount, hlongest, hflags⟩ := takeRow_completed hoptions h hturn rows
        refine ⟨[], .ok raw :: rows, readAs_nil _, ?_, ?_⟩
        · rw [List.append_nil]
          exact h.allowed
        · rw [List.append_nil]
          exact ⟨h, hcount, hlongest, hflags⟩
      · rename_i next hturn
        obtain ⟨row, hrow, hnext⟩ := takeRow_sound hoptions h hturn
        obtain ⟨more, rest, hread, hallowed, hends⟩ := ih hnext
        rw [List.append_assoc, List.singleton_append] at hallowed hends
        exact ⟨row :: more, rest, readAs_cons hrow hread, hallowed, hends⟩

/-- The batches of a task hold a part of the rows that the loop kept, and all of
them when the task completes. -/
theorem executeQueryTask_written {rows rest : List (Except QueryTaskError Raw)} {kept : List Row}
    (h : EndsWith sink options (consumeRows sink options rows .start).1 kept rest
      (consumeRows sink options rows .start).2) :
    ∃ written, WellBatched sink options (executeQueryTask sink options rows).1 written ∧
      written <+: kept ∧
      ∀ completed, (executeQueryTask sink options rows).2 = .ok completed →
        written = kept ∧ completed.rowCount = kept.length ∧
        LongestAllowed sink options kept rest ∧ FlagsCut sink options kept rest completed := by
  rw [executeQueryTask]
  split
  · rename_i state error hconsume
    rw [hconsume] at h
    obtain ⟨written, hbatches, hpart⟩ := h
    exact ⟨written, hbatches, hpart, fun completed hok => by cases hok⟩
  · rename_i state completed hconsume
    rw [hconsume] at h
    obtain ⟨hsound, hcount, hlongest, hflags⟩ := h
    obtain ⟨unflushed, hkept, hunflushed⟩ := hsound.appended
    obtain ⟨written, hbatches, hpart, hall⟩ := flushRows_wellBatched hsound
    split
    · exact ⟨unflushed, hunflushed, hkept ▸ List.prefix_append _ _, fun other hok => by cases hok⟩
    · split
      · rename_i final error hflush
        rw [hflush] at hbatches
        exact ⟨written, hbatches, hpart, fun other hok => by cases hok⟩
      · rename_i final hflush
        rw [hflush] at hbatches hall
        refine ⟨written, hbatches, hpart, fun other hok => ?_⟩
        have hsame : completed = other := by
          cases hfinish : sink.finish completed with
          | error error =>
            rw [hfinish] at hok
            cases hok
          | ok =>
            rw [hfinish] at hok
            exact Except.ok.inj hok
        rw [← hsame]
        exact ⟨hall rfl, hcount, hlongest, hflags⟩

/-! ## Runs that complete -/

/-- Nothing that the task calls for a converted row fails. -/
structure Reliable (sink : ResultSink Raw Row) : Prop where
  append : ∀ batches batch, sink.append batches batch = .ok ()
  progress : ∀ count batches, sink.progress count batches = .ok ()
  terminate : sink.terminate = .ok ()
  finish : ∀ completed, sink.finish completed = .ok ()

/-- The row fits a batch of its own, at any offset. -/
def FitsBatch (sink : ResultSink Raw Row) (row : Row) : Prop :=
  11 + rowEntryLen sink.encodedLen row ≤ Wire.maxBatchBytes

/-- Every item of the server is a row that converts and fits a batch of its own. -/
def Readable (sink : ResultSink Raw Row) (rows : List (Except QueryTaskError Raw)) : Prop :=
  ∀ item ∈ rows, ∃ raw row, item = .ok raw ∧ sink.mysqlRow raw = .ok row ∧ FitsBatch sink row

/-- Rows that fit a batch are flushed into a sink that takes them. -/
theorem flushRows_ok (hoptions : validateQueryOptions options = .ok ()) (hsink : Reliable sink)
    {state : Batching Row} {kept : List Row} (h : Sound sink options state kept)
    (hfits : ∀ row ∈ kept, FitsBatch sink row) : (flushRows sink state).2 = .ok () := by
  obtain ⟨written, hkept, _⟩ := h.appended
  by_cases hpending : state.pendingRows = []
  · rw [flushRows, if_pos hpending]
  · have hcount : ¬ state.rowCount < state.pendingRows.length := by
      rw [h.rowCount, hkept, List.length_append]
      omega
    have hbytes : options.batchBytes ≤ Wire.maxBatchBytes := by
      obtain ⟨_, _, hnext⟩ := (bind_eq_ok _ _ _).1 hoptions
      obtain ⟨_, hbytes, _⟩ := (bind_eq_ok _ _ _).1 hnext
      have hbytes := (rejectIf_eq_ok _ _ _).1 hbytes
      simp only [QueryExecutionOptions.batchBytes, defaultBatchBytes, Wire.maxBatchBytes]
        at hbytes ⊢
      split_ifs <;> omega
    have hlength : state.assembling.encodedLen sink.encodedLen ≤ Wire.maxBatchBytes := by
      by_cases hlarge : options.batchBytes < state.assembling.encodedLen sink.encodedLen
      · obtain ⟨row, hrow⟩ := List.length_eq_one_iff.1
          ((h.pending.resolve_left hpending).2.2 hlarge)
        have hrow : state.pendingRows = [row] := hrow
        have hfit := hfits row (by rw [hkept, hrow]; simp)
        have hten : encodedLenVarint (state.rowCount - 1) ≤ 10 := by
          have hcounted := h.counted
          have hsame := h.rowCount
          exact encodedLenVarint_le_ten (by omega)
        have hone : state.assembling.encodedLen sink.encodedLen =
            (if state.rowCount - 1 = 0 then 0 else 1 + encodedLenVarint (state.rowCount - 1)) +
              rowEntryLen sink.encodedLen row := by
          rw [Batching.assembling, hrow, RowBatch.encodedLen, keyLen_eq_one (by decide)]
          simp
        rw [FitsBatch] at hfit
        rw [hone]
        split_ifs <;> omega
      · omega
    rw [flushRows, if_neg hpending, if_neg hcount]
    dsimp only
    rw [if_neg (by rw [not_lt]; exact hlength), hsink.append]
    exact hsink.progress _ _

/-- A row that converts and fits is taken, or completes the result. -/
theorem takeRow_ok (hoptions : validateQueryOptions options = .ok ()) (hsink : Reliable sink)
    {state : Batching Row} {kept : List Row} (h : Sound sink options state kept)
    (hfits : ∀ row ∈ kept, FitsBatch sink row) (hcount : kept.length + 1 < 2 ^ 64) {raw : Raw}
    {row : Row} (hrow : sink.mysqlRow raw = .ok row) :
    ∃ next outcome, takeRow sink options state raw = (next, .ok outcome) := by
  have hlimit := (validateQueryOptions_ok hoptions).2.2
  rw [takeRow, hrow]
  split_ifs with hmaxRows
  · exact ⟨_, _, rfl⟩
  · dsimp only
    split_ifs with hbytes
    · exact ⟨_, _, rfl⟩
    · rw [not_lt, saturatingAdd_le_iff (by omega)] at hbytes
      have hroom : (makeRoom sink options state row).2 = .ok () := by
        rw [makeRoom]
        split_ifs
        · exact flushRows_ok hoptions hsink h hfits
        · rfl
      cases hmade : makeRoom sink options state row with
      | mk room result =>
        rw [hmade] at hroom
        obtain rfl : result = .ok () := hroom
        have hsmall : sink.encodedLen row < 2 ^ 63 := by omega
        have hmore := makeRoom_hasRoom hoptions h hsmall hmade
        have hpush : ∃ next, pushRow sink room row = .ok next := by
          have hcounted : ¬ 2 ^ 64 ≤ room.rowCount + 1 := by
            rw [hmore.rowCount]
            omega
          have hsummed : ¬ 2 ^ 64 ≤ room.resultBytes + sink.encodedLen row := by
            rw [hmore.resultBytes, ← h.resultBytes]
            omega
          rw [pushRow, rejectIf, if_neg hcounted, ok_bind, rejectIf, if_neg hsummed, ok_bind]
          exact ⟨_, rfl⟩
        obtain ⟨next, hpush⟩ := hpush
        dsimp only
        rw [hpush]
        exact ⟨_, _, rfl⟩

theorem consumeRows_ok (hoptions : validateQueryOptions options = .ok ()) (hsink : Reliable sink)
    {rows : List (Except QueryTaskError Raw)} (hrows : Readable sink rows) {state : Batching Row}
    {kept : List Row} (h : Sound sink options state kept)
    (hfits : ∀ row ∈ kept, FitsBatch sink row) (hcount : kept.length + rows.length < 2 ^ 64) :
    ∃ final completed more, consumeRows sink options rows state = (final, .ok completed) ∧
      Sound sink options final more ∧ ∀ row ∈ more, FitsBatch sink row := by
  induction rows generalizing state kept with
  | nil => exact ⟨_, _, kept, rfl, h, hfits⟩
  | cons item rows ih =>
    obtain ⟨raw, row, rfl, hrow, hfit⟩ := hrows item List.mem_cons_self
    rw [List.length_cons] at hcount
    obtain ⟨next, outcome, hturn⟩ := takeRow_ok hoptions hsink h hfits (by omega) hrow
    rw [consumeRows, hturn]
    cases outcome with
    | some completed =>
      obtain ⟨rfl, -⟩ := takeRow_completed hoptions h hturn rows
      exact ⟨_, completed, kept, rfl, h, hfits⟩
    | none =>
      obtain ⟨other, hother, hnext⟩ := takeRow_sound hoptions h hturn
      obtain rfl : row = other := Except.ok.inj (hrow.symm.trans hother)
      apply ih (fun item hitem => hrows item (List.mem_cons_of_mem _ hitem)) hnext
      · intro taken hmem
        rcases List.mem_append.1 hmem with hmem | hmem
        · exact hfits taken hmem
        · rwa [List.mem_singleton.1 hmem]
      · rw [List.length_append, List.length_singleton]
        omega

theorem executeQueryTask_ok (hoptions : validateQueryOptions options = .ok ())
    (hsink : Reliable sink) {rows : List (Except QueryTaskError Raw)} (hrows : Readable sink rows)
    (hcount : rows.length < 2 ^ 64) :
    ∃ completed, (executeQueryTask sink options rows).2 = .ok completed := by
  obtain ⟨final, completed, kept, hconsume, hsound, hfits⟩ :=
    consumeRows_ok hoptions hsink hrows (@sound_start Raw Row sink options) (by simp)
      (by simpa using hcount)
  have hflush := flushRows_ok hoptions hsink hsound hfits
  have hterminate : (if requiresTermination completed = true then sink.terminate else .ok ()) =
      .ok () := by
    rw [hsink.terminate, ite_self]
  cases hflushed : flushRows sink final with
  | mk flushed result =>
    rw [hflushed] at hflush
    obtain rfl : result = .ok () := hflush
    rw [executeQueryTask, hconsume]
    simp only [hterminate, hflushed, hsink.finish]
    exact ⟨completed, rfl⟩

/-- The batches of a query task, however it ends, start at offset zero, follow each
other and keep to the target sizes, and hold a part of the rows that were read
within the limits. A task that completes holds exactly the longest part that the
limits allow, with the flags of the limit that cut it and its number of rows; it
completes when nothing fails and every row fits a batch. Before every row the
byte count is the encoded length of the batch being assembled. -/
theorem executeQueryTask_batches (sink : ResultSink Raw Row)
    (hoptions : validateQueryOptions options = .ok ())
    (rows : List (Except QueryTaskError Raw)) :
    (∀ state rest, Reached sink options .start rows state rest →
      state.pendingBytes = state.assembling.encodedLen sink.encodedLen) ∧
    (Reliable sink → Readable sink rows → rows.length < 2 ^ 64 →
      ∃ completed, (executeQueryTask sink options rows).2 = .ok completed) ∧
    ∃ kept rest, ReadAs sink rows kept rest ∧ Allowed sink options kept ∧
      Contiguous 0 (executeQueryTask sink options rows).1 ∧
      (∀ batch ∈ (executeQueryTask sink options rows).1, KeepsTargets sink options batch) ∧
      (executeQueryTask sink options rows).1.flatMap (·.rows) <+: kept ∧
      ∀ completed, (executeQueryTask sink options rows).2 = .ok completed →
        (executeQueryTask sink options rows).1.flatMap (·.rows) = kept ∧
        completed.rowCount = ((executeQueryTask sink options rows).1.flatMap (·.rows)).length ∧
        LongestAllowed sink options kept rest ∧ FlagsCut sink options kept rest completed := by
  refine ⟨?_, fun hsink hrows hcount => executeQueryTask_ok hoptions hsink hrows hcount, ?_⟩
  · intro state rest hreached
    obtain ⟨more, hsound⟩ := reached_sound hoptions hreached sound_start
    exact hsound.pendingBytes
  · obtain ⟨kept, rest, hread, hallowed, hends⟩ :=
      consumeRows_endsWith hoptions rows (@sound_start Raw Row sink options)
    rw [List.nil_append] at hallowed hends
    obtain ⟨written, hbatches, hpart, hcompleted⟩ := executeQueryTask_written hends
    refine ⟨kept, rest, hread, hallowed, hbatches.contiguous, hbatches.targets, ?_, ?_⟩
    · rw [hbatches.rows_eq]
      exact hpart
    · intro completed hok
      obtain ⟨hwritten, hcount, hlongest, hflags⟩ := hcompleted completed hok
      rw [hbatches.rows_eq, hwritten]
      exact ⟨rfl, hcount, hlongest, hflags⟩

/-- A sink that keeps rows of bytes and never fails. -/
def byteSink : ResultSink (List UInt8) (List UInt8) where
  mysqlRow := .ok
  encodedLen := List.length
  append := fun _ _ => .ok ()
  progress := fun _ _ => .ok ()
  terminate := .ok ()
  finish := fun _ => .ok ()

theorem executeQueryTask_batches_sample :
    let options : QueryExecutionOptions := ⟨2, 0, 1, 0⟩
    let rows : List (Except QueryTaskError (List UInt8)) := [.ok [1], .ok [2], .ok [3]]
    (∀ state rest, Reached byteSink options .start rows state rest →
      state.pendingBytes = state.assembling.encodedLen byteSink.encodedLen) ∧
    (Reliable byteSink → Readable byteSink rows → rows.length < 2 ^ 64 →
      ∃ completed, (executeQueryTask byteSink options rows).2 = .ok completed) ∧
    ∃ kept rest, ReadAs byteSink rows kept rest ∧ Allowed byteSink options kept ∧
      Contiguous 0 (executeQueryTask byteSink options rows).1 ∧
      (∀ batch ∈ (executeQueryTask byteSink options rows).1,
        KeepsTargets byteSink options batch) ∧
      (executeQueryTask byteSink options rows).1.flatMap (·.rows) <+: kept ∧
      ∀ completed, (executeQueryTask byteSink options rows).2 = .ok completed →
        (executeQueryTask byteSink options rows).1.flatMap (·.rows) = kept ∧
        completed.rowCount =
          ((executeQueryTask byteSink options rows).1.flatMap (·.rows)).length ∧
        LongestAllowed byteSink options kept rest ∧
        FlagsCut byteSink options kept rest completed :=
  executeQueryTask_batches byteSink (by rfl) _

end

end Chat2DB.MySql
