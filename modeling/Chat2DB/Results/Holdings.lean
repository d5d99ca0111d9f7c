import Chat2DB.Results.Reading

/-! # What the bytes of a result hold

The bytes of a result hold a schema and a list of batches when every frame reads
back under its index entry and the entries follow one another without a gap.
That is what recovery checks.
-/

namespace Chat2DB.Results

open Storage (u64Max)

variable {config : StoreConfig} {bytes : List UInt8} {id : ResultId} {columns : Nat}
  {batch : Wire.RowBatch}

/-- A batch that the store takes at a row. -/
structure ValidBatch (codec : Wire.Codec) (columns startRow : Nat) (batch : Wire.RowBatch) :
    Prop where
  start : batch.startRowOffset.toNat = startRow
  nonempty : batch.rows ≠ []
  rows : batch.rows.length ≤ Wire.maxBatchRows
  bytes : codec.batchLength batch ≤ Wire.maxBatchBytes
  widths : ∀ row ∈ batch.rows, row.values.length = columns

theorem validateBatch_eq_ok_iff {codec : Wire.Codec} {startRow : Nat} {result : Unit} :
    validateBatch codec batch startRow columns = .ok result ↔
      ValidBatch codec columns startRow batch := by
  simp only [validateBatch, Outcome.bind_eq_ok, Outcome.rejectIf_eq_ok, exists_const]
  constructor
  · rintro ⟨hstart, hrows, hbytes, hwidths⟩
    refine ⟨not_not.mp hstart, fun hempty => hrows (.inl hempty), ?_, by omega, ?_⟩
    · exact Nat.not_lt.mp fun hmany => hrows (.inr hmany)
    · intro row hrow
      by_contra hwidth
      exact hwidths ⟨row, hrow, hwidth⟩
  · intro hvalid
    refine ⟨not_not.mpr hvalid.start, ?_, Nat.not_lt.mpr hvalid.bytes, ?_⟩
    · rintro (hempty | hmany)
      · exact hvalid.nonempty hempty
      · exact absurd hvalid.rows (Nat.not_le.mpr hmany)
    · rintro ⟨row, hrow, hwidth⟩
      exact hwidth (hvalid.widths row hrow)

theorem readChunk_eq_ok_iff {chunk : ChunkIndex} :
    readChunk config bytes id columns chunk = .ok batch ↔
      readIndexedFrame config.hash config.codec.decodeBatch bytes id chunk.fileOffset
          chunk.frameLength chunk.sha256 Wire.maxBatchBytes = .ok batch ∧
        ValidBatch config.codec columns chunk.startRow batch ∧
        batch.rows.length = chunk.rowCount ∧
        chunk.endRowExclusive = chunk.startRow + batch.rows.length := by
  simp only [readChunk, validateIndexedBatch, Outcome.bind_eq_ok, Outcome.rejectIf_eq_ok,
    Outcome.mapError_eq_ok, Outcome.pure_eq_ok, exists_const, validateBatch_eq_ok_iff]
  constructor
  · rintro ⟨read, hread, ⟨hindex, hvalid⟩, rfl⟩
    exact ⟨hread, hvalid, by omega, by omega⟩
  · rintro ⟨hread, hvalid, hcount, hend⟩
    have hstart := hvalid.start
    exact ⟨batch, hread, ⟨by omega, hvalid⟩, rfl⟩

/-- The chunks are the batches, in order and without a gap, from one place of the file and of the
rows to another. -/
inductive ChunksHold (config : StoreConfig) (bytes : List UInt8) (id : ResultId) (columns : Nat) :
    (ordinal offset row : Nat) → List ChunkIndex → List Wire.RowBatch →
    (endOffset endRow : Nat) → Prop where
  | nil {ordinal offset row : Nat} :
      ChunksHold config bytes id columns ordinal offset row [] [] offset row
  | cons {chunk : ChunkIndex} {chunks : List ChunkIndex} {batch : Wire.RowBatch}
      {batches : List Wire.RowBatch} {endOffset endRow : Nat}
      (read : readChunk config bytes id columns chunk = .ok batch)
      (rest : ChunksHold config bytes id columns (chunk.ordinal + 1)
        (chunk.fileOffset + chunk.frameLength) chunk.endRowExclusive chunks batches endOffset
        endRow) :
      ChunksHold config bytes id columns chunk.ordinal chunk.fileOffset chunk.startRow
        (chunk :: chunks) (batch :: batches) endOffset endRow

/-- The rows of some batches, in order. -/
def rowsOf (batches : List Wire.RowBatch) : List Wire.JdbcRow :=
  batches.flatMap Wire.RowBatch.rows

@[simp] theorem rowsOf_nil : rowsOf [] = [] := rfl

@[simp] theorem rowsOf_cons (batch : Wire.RowBatch) (batches : List Wire.RowBatch) :
    rowsOf (batch :: batches) = batch.rows ++ rowsOf batches :=
  List.flatMap_cons

namespace ChunksHold

variable {ordinal offset row endOffset endRow : Nat} {chunks : List ChunkIndex}
  {batches : List Wire.RowBatch}

theorem endRow_eq (hholds : ChunksHold config bytes id columns ordinal offset row chunks batches
    endOffset endRow) : endRow = row + (rowsOf batches).length := by
  induction hholds with
  | nil => rfl
  | cons hread _ ih =>
    obtain ⟨-, -, -, hend⟩ := readChunk_eq_ok_iff.mp hread
    rw [ih, hend, rowsOf_cons, List.length_append, Nat.add_assoc]

theorem offset_le (hholds : ChunksHold config bytes id columns ordinal offset row chunks batches
    endOffset endRow) : offset ≤ endOffset := by
  induction hholds with
  | nil => exact Nat.le_refl _
  | cons _ _ ih => omega

theorem ordinal_le (hholds : ChunksHold config bytes id columns ordinal offset row chunks batches
    endOffset endRow) : ordinal + chunks.length + offset ≤ endOffset + ordinal := by
  induction hholds with
  | nil =>
    rw [List.length_nil]
    omega
  | @cons chunk _ _ _ _ _ hread _ ih =>
    obtain ⟨hframe, -⟩ := readChunk_eq_ok_iff.mp hread
    have hlong := readIndexedFrame_frameLength hframe
    rw [List.length_cons]
    omega

theorem valid_of_mem (hholds : ChunksHold config bytes id columns ordinal offset row chunks
    batches endOffset endRow) (hbatch : batch ∈ batches) :
    ∃ startRow, ValidBatch config.codec columns startRow batch := by
  induction hholds with
  | nil => cases hbatch
  | cons hread _ ih =>
    rcases List.mem_cons.mp hbatch with rfl | hbatch
    · exact ⟨_, (readChunk_eq_ok_iff.mp hread).2.1⟩
    · exact ih hbatch

theorem concat (hholds : ChunksHold config bytes id columns ordinal offset row chunks batches
    endOffset endRow) {chunk : ChunkIndex}
    (hread : readChunk config bytes id columns chunk = .ok batch)
    (hordinal : chunk.ordinal = ordinal + chunks.length) (hoffset : chunk.fileOffset = endOffset)
    (hrow : chunk.startRow = endRow) :
    ChunksHold config bytes id columns ordinal offset row (chunks ++ [chunk]) (batches ++ [batch])
      (endOffset + chunk.frameLength) chunk.endRowExclusive := by
  induction hholds with
  | nil =>
    subst hoffset hrow
    obtain rfl : chunk.ordinal = _ := hordinal
    exact .cons hread .nil
  | cons hfirst _ ih =>
    refine .cons hfirst (ih ?_ hoffset hrow)
    rw [hordinal, List.length_cons]
    omega

theorem of_take (hholds : ChunksHold config bytes id columns ordinal offset row chunks batches
    endOffset endRow) {other : List UInt8} {bound : Nat} (hend : endOffset ≤ bound)
    (hbytes : bound ≤ bytes.length) (hother : bound ≤ other.length)
    (hsame : other.take bound = bytes.take bound) :
    ChunksHold config other id columns ordinal offset row chunks batches endOffset endRow := by
  induction hholds with
  | nil => exact .nil
  | @cons chunk _ batch _ _ _ hread hrest ih =>
    refine .cons ?_ (ih hend)
    have hbound : chunk.fileOffset + chunk.frameLength ≤ bound :=
      Nat.le_trans hrest.offset_le hend
    obtain ⟨hframe, hindexed⟩ := readChunk_eq_ok_iff.mp hread
    refine readChunk_eq_ok_iff.mpr ⟨?_, hindexed⟩
    rw [← readIndexedFrame_take hbound hother, hsame, readIndexedFrame_take hbound hbytes]
    exact hframe

end ChunksHold

/-- The chunks pass the check exactly when they hold some batches. -/
theorem validateChunks_eq_ok_iff {chunks : List ChunkIndex} {ordinal offset row : Nat}
    {place : Nat × Nat} (hordinal : ordinal + bytes.length ≤ u64Max + offset)
    (hlength : bytes.length ≤ u64Max) :
    validateChunks config bytes id columns chunks ordinal offset row = .ok place ↔
      ∃ batches, ChunksHold config bytes id columns ordinal offset row chunks batches place.1
        place.2 := by
  induction chunks generalizing ordinal offset row with
  | nil =>
    rw [validateChunks, Outcome.pure_eq_ok]
    constructor
    · rintro rfl
      exact ⟨[], .nil⟩
    · rintro ⟨batches, hholds⟩
      cases hholds
      rfl
  | cons chunk rest ih =>
    simp only [validateChunks, Outcome.bind_eq_ok, Outcome.rejectIf_eq_ok, exists_const]
    -- A frame that reads ends within the file, and so bounds the sums that are checked.
    have hbounds : ∀ batch, readChunk config bytes id columns chunk = .ok batch →
        chunk.fileOffset + chunk.frameLength ≤ bytes.length ∧
          framePrefixBytes < chunk.frameLength := by
      intro batch hread
      obtain ⟨hframe, -⟩ := readChunk_eq_ok_iff.mp hread
      exact ⟨readIndexedFrame_bound hframe, readIndexedFrame_frameLength hframe⟩
    constructor
    · rintro ⟨hplace, batch, hread, hnextOrdinal, hnextOffset, hrest⟩
      obtain ⟨hend, hpositive⟩ := hbounds batch hread
      obtain ⟨rfl, rfl, rfl⟩ : chunk.ordinal = ordinal ∧ chunk.fileOffset = offset ∧
          chunk.startRow = row := by
        refine ⟨?_, ?_, ?_⟩ <;> by_contra hne
        · exact hplace (.inl hne)
        · exact hplace (.inr (.inl hne))
        · exact hplace (.inr (.inr hne))
      obtain ⟨batches, hholds⟩ := (ih (by omega)).mp hrest
      exact ⟨batch :: batches, .cons hread hholds⟩
    · rintro ⟨batches, hholds⟩
      cases hholds with
      | cons hread hrest =>
        obtain ⟨hend, hpositive⟩ := hbounds _ hread
        refine ⟨by simp, _, hread, by omega, by omega, ?_⟩
        exact (ih (by omega)).mpr ⟨_, hrest⟩

/-- The bytes hold the schema and the batches that the index describes. -/
structure BytesHold (config : StoreConfig) (bytes : List UInt8) (result : StoredResult)
    (chunks : List ChunkIndex) (schema : Wire.QueryStarted) (batches : List Wire.RowBatch) :
    Prop where
  readsSchema : readSchema config bytes result = .ok schema
  readsChunks : ChunksHold config bytes result.id schema.columns.length 0 result.schemaFrameLength 0
    chunks batches result.committedLength result.rowCount

theorem validateBytes_eq_ok_iff {result : StoredResult} {chunks : List ChunkIndex}
    (hlength : bytes.length ≤ u64Max) :
    validateBytes config bytes result chunks = .ok () ↔
      ∃ schema batches, BytesHold config bytes result chunks schema batches := by
  simp only [validateBytes, Outcome.bind_eq_ok, Outcome.rejectIf_eq_ok]
  constructor
  · rintro ⟨schema, hschema, place, hplace, haggregate⟩
    obtain ⟨batches, hholds⟩ :=
      (validateChunks_eq_ok_iff (Nat.le_trans (by omega) (Nat.le_add_right _ _)) hlength).mp hplace
    obtain ⟨hoffset, hrow⟩ : place.1 = result.committedLength ∧ place.2 = result.rowCount := by
      omega
    rw [hoffset, hrow] at hholds
    exact ⟨schema, batches, hschema, hholds⟩
  · rintro ⟨schema, batches, hholds⟩
    refine ⟨schema, hholds.readsSchema, (result.committedLength, result.rowCount), ?_, by simp⟩
    exact (validateChunks_eq_ok_iff (Nat.le_trans (by omega) (Nat.le_add_right _ _)) hlength).mpr
      ⟨batches, hholds.readsChunks⟩

end Chat2DB.Results
