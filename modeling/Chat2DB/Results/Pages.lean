import Chat2DB.Base.Fill
import Chat2DB.Results.Holdings

/-! # Pages of a result

A page starts in the middle of a chunk and stops in the middle of another. Its
rows are the longest part of the rows from its offset on that is within both
limits, whatever the chunks are.
-/

namespace Chat2DB.Results

open Storage (i64Max u64Max)
open Fill (fill total)

variable {config : StoreConfig} {bytes : List UInt8} {id : ResultId} {columns limit : Nat}
  {request : PageRequest} {rows : List Wire.JdbcRow} {chunk : ChunkIndex} {batch : Wire.RowBatch}

theorem takeRows_skip {requestedEnd globalRow : Nat} {page : PageRows}
    (hrow : globalRow ≤ request.offset) (hoffset : request.offset ≤ globalRow + rows.length)
    (hrange : globalRow + rows.length ≤ u64Max) :
    takeRows config id request requestedEnd globalRow rows page =
      takeRows config id request requestedEnd request.offset
        (rows.drop (request.offset - globalRow)) page := by
  induction rows generalizing globalRow with
  | nil =>
    obtain rfl : globalRow = request.offset := by
      rw [List.length_nil] at hoffset
      omega
    rw [List.drop_nil]
  | cons row rest ih =>
    rw [List.length_cons] at hoffset hrange
    by_cases hbefore : globalRow < request.offset
    · have hpassed : (row :: rest).drop (request.offset - globalRow) =
          rest.drop (request.offset - (globalRow + 1)) := by
        rw [← Nat.succ_pred_eq_of_pos (Nat.sub_pos_of_lt hbefore), List.drop_succ_cons,
          Nat.pred_eq_sub_one, Nat.sub_sub]
      rw [hpassed, ← ih (by omega) (by omega) (by omega), takeRows, Outcome.rejectIf,
        if_neg (by omega), if_pos hbefore]
      rfl
    · obtain rfl : globalRow = request.offset := by omega
      rw [Nat.sub_self, List.drop_zero]

/-- The page after some more rows were offered to it. -/
def PageRows.offer (config : StoreConfig) (request : PageRequest) (limit : Nat)
    (page : PageRows) (rows : List Wire.JdbcRow) : PageRows :=
  let taken := fill config.codec.rowLength (limit - page.rows.length)
    (request.maxBytes - page.rowBytes) rows
  { rows := page.rows ++ taken
    rowBytes := page.rowBytes + total config.codec.rowLength taken
    full := decide (taken ≠ rows) }

/-- Rows of the page are taken while they fit. -/
theorem takeRows_offer {globalRow : Nat} {page : PageRows}
    (hpage : page.full = false) (hrow : globalRow = request.offset + page.rows.length)
    (hlimit : page.rows.length ≤ limit) (hmaxRows : limit ≤ request.maxRows)
    (hbytes : page.rowBytes ≤ request.maxBytes) (hmaxBytes : request.maxBytes < u64Max)
    (hrange : globalRow + rows.length ≤ u64Max)
    (hrows : ∀ row ∈ rows, config.codec.rowLength row ≤ request.maxBytes) :
    takeRows config id request (request.offset + limit) globalRow rows page =
      .ok (page.offer config request limit rows) := by
  induction rows generalizing globalRow page with
  | nil =>
    cases page
    simp_all [takeRows, PageRows.offer, pure, Except.pure]
  | cons row rest ih =>
    rw [List.length_cons] at hrange
    have hrowBytes := hrows row List.mem_cons_self
    rw [takeRows, Outcome.rejectIf, if_neg (by omega)]
    simp only [bind, Except.bind]
    rw [if_neg (by omega)]
    by_cases hroom : page.rows.length < limit
    · rw [if_neg (by omega), Outcome.rejectIf, if_neg (by omega)]
      obtain ⟨room, hroom'⟩ : ∃ room, limit - page.rows.length = room + 1 :=
        ⟨limit - page.rows.length - 1, by omega⟩
      by_cases hfits : config.codec.rowLength row ≤ request.maxBytes - page.rowBytes
      · -- The row fits, and the page goes on with one row more.
        have hlength : (page.rows ++ [row]).length = page.rows.length + 1 := by simp
        have hgrown := @ih (globalRow + 1)
          { page with
            rows := page.rows ++ [row]
            rowBytes := page.rowBytes + config.codec.rowLength row }
          hpage (by simp only [hlength]; omega) (by simp only [hlength]; omega)
          (by simp only; omega) (by omega)
          fun other hother => hrows other (List.mem_cons_of_mem row hother)
        simp only
        rw [if_neg (by omega), hgrown]
        have hrest : limit - (page.rows ++ [row]).length = room := by omega
        unfold PageRows.offer
        simp only [hrest, hroom', Fill.fill_cons_of_le hfits, Fill.total_cons, Nat.sub_sub,
          List.append_assoc, List.singleton_append, Nat.add_assoc, ne_eq, List.cons.injEq,
          true_and]
      · simp only
        rw [if_pos (by omega)]
        unfold PageRows.offer
        simp [hroom', Fill.fill_cons_of_lt (Nat.not_le.mp hfits), pure, Except.pure]
    · rw [if_pos (by omega)]
      unfold PageRows.offer
      obtain hfull : limit - page.rows.length = 0 := by omega
      simp [hfull, pure, Except.pure]

/-- Where the page stands before the chunk that starts at a row: nothing was taken yet, every row
up to this one was taken, or the page has all the rows it may have. -/
inductive PageAt (request : PageRequest) (limit row : Nat) (expected : Option Nat)
    (page : PageRows) : Prop where
  | before (start : row ≤ request.offset) (first : expected = none)
      (empty : page = { rows := [], rowBytes := 0, full := false })
  | within (start : row = request.offset + page.rows.length) (next : expected = some row)
      (room : page.rows.length ≤ limit) (bytes : page.rowBytes ≤ request.maxBytes)
      (more : page.full = false)
  | done (start : request.offset + limit ≤ row) (all : page.rows.length = limit)

/-- The rows that are still to come of a page. -/
def PageRows.pending (page : PageRows) (request : PageRequest) (row : Nat)
    (rows : List Wire.JdbcRow) : List Wire.JdbcRow :=
  rows.drop (request.offset + page.rows.length - row)

variable {ordinal offset row endOffset endRow : Nat} {chunks : List ChunkIndex}
  {batches : List Wire.RowBatch} {expected : Option Nat} {page : PageRows}

/-- The part of a batch that a page has not passed yet. -/
def PageRows.fresh (page : PageRows) (request : PageRequest) (row : Nat)
    (batch : Wire.RowBatch) : List Wire.JdbcRow :=
  batch.rows.drop (request.offset + page.rows.length - row)

/-- A chunk that overlaps a page continues it. -/
theorem PageAt.continue (id : ResultId) (hat : PageAt request limit chunk.startRow expected page)
    (hvalid : ValidBatch config.codec columns chunk.startRow batch)
    (hend : chunk.endRowExclusive = chunk.startRow + batch.rows.length)
    (hbelow : chunk.startRow < request.offset + limit)
    (habove : request.offset < chunk.endRowExclusive) (hrange : chunk.endRowExclusive ≤ u64Max) :
    checkChunkStart id request expected chunk = .ok () ∧ page.full = false ∧
      page.rows.length ≤ limit ∧ page.rowBytes ≤ request.maxBytes ∧
      request.offset + page.rows.length ≥ chunk.startRow ∧
      request.offset + page.rows.length ≤ chunk.endRowExclusive ∧
      takeRows config id request (request.offset + limit) batch.startRowOffset.toNat batch.rows
          page =
        takeRows config id request (request.offset + limit) (request.offset + page.rows.length)
          (page.fresh request chunk.startRow batch) page := by
  cases hat with
  | before hstart hfirst hempty =>
    subst hfirst hempty
    refine ⟨?_, rfl, Nat.zero_le _, Nat.zero_le _, hstart, Nat.le_of_lt habove, ?_⟩
    · exact (Outcome.rejectIf_eq_ok _ _ _).mpr (by omega)
    · rw [hvalid.start, takeRows_skip hstart (by omega) (by omega)]
      rfl
  | within hstart hnext hroom hbytes hmore =>
    subst hnext
    refine ⟨?_, hmore, hroom, hbytes, by omega, by omega, ?_⟩
    · exact (Outcome.rejectIf_eq_ok _ _ _).mpr (by simp)
    · unfold PageRows.fresh
      rw [hvalid.start, ← hstart, Nat.sub_self, List.drop_zero]
  | done hstart hall => omega

theorem PageAt.skip (hat : PageAt request limit chunk.startRow expected page)
    (hend : chunk.endRowExclusive = chunk.startRow + batch.rows.length)
    (hrows : batch.rows ≠ []) (hlimit : 0 < limit)
    (hapart : ¬ (chunk.startRow < request.offset + limit ∧
      request.offset < chunk.endRowExclusive)) :
    PageAt request limit chunk.endRowExclusive expected page := by
  have hpositive := List.length_pos_iff.mpr hrows
  cases hat with
  | before hstart hfirst hempty => exact .before (by omega) hfirst hempty
  | within hstart hnext hroom hbytes hmore => exact .done (by omega) (by omega)
  | done hstart hall => exact .done (by omega) hall

theorem PageRows.offer_of_all (htaken : fill config.codec.rowLength (limit - page.rows.length)
      (request.maxBytes - page.rowBytes) rows = rows) :
    page.offer config request limit rows =
      { rows := page.rows ++ rows
        rowBytes := page.rowBytes + total config.codec.rowLength rows
        full := false } := by
  unfold PageRows.offer
  simp [htaken]

theorem PageAt.next (hroom : page.rows.length ≤ limit) (hbytes : page.rowBytes ≤ request.maxBytes)
    (htaken : fill config.codec.rowLength (limit - page.rows.length)
      (request.maxBytes - page.rowBytes) rows = rows)
    (hend : chunk.endRowExclusive = request.offset + page.rows.length + rows.length) :
    PageAt request limit chunk.endRowExclusive (some chunk.endRowExclusive)
      { rows := page.rows ++ rows
        rowBytes := page.rowBytes + total config.codec.rowLength rows
        full := false } := by
  have hnumber : rows.length ≤ limit - page.rows.length := by
    rw [← htaken]
    exact Fill.length_fill_le
  have hweight : total config.codec.rowLength rows ≤ request.maxBytes - page.rowBytes := by
    conv_lhs => rw [← htaken]
    exact Fill.total_fill_le
  refine .within ?_ rfl ?_ ?_ rfl
  · rw [List.length_append]
    omega
  · rw [List.length_append]
    omega
  · simp only
    omega

theorem PageRows.pending_cons (hend : chunk.endRowExclusive = chunk.startRow + batch.rows.length)
    (hreached : request.offset + page.rows.length ≤ chunk.endRowExclusive) :
    page.pending request chunk.startRow (rowsOf (batch :: batches)) =
      page.fresh request chunk.startRow batch ++ rowsOf batches := by
  unfold PageRows.pending PageRows.fresh
  rw [rowsOf_cons, List.drop_append_of_le_length (by omega)]

theorem PageAt.fill_skip (hat : PageAt request limit chunk.startRow expected page)
    (hend : chunk.endRowExclusive = chunk.startRow + batch.rows.length)
    (hapart : ¬ (chunk.startRow < request.offset + limit ∧
      request.offset < chunk.endRowExclusive)) :
    fill config.codec.rowLength (limit - page.rows.length) (request.maxBytes - page.rowBytes)
        (page.pending request chunk.startRow (rowsOf (batch :: batches))) =
      fill config.codec.rowLength (limit - page.rows.length) (request.maxBytes - page.rowBytes)
        (page.pending request chunk.endRowExclusive (rowsOf batches)) := by
  by_cases hall : limit - page.rows.length = 0
  · rw [hall, Fill.fill_zero, Fill.fill_zero]
  · have hpassed : chunk.endRowExclusive ≤ request.offset + page.rows.length := by
      cases hat with
      | before | within | done => omega
    unfold PageRows.pending
    rw [rowsOf_cons, List.drop_append, List.drop_of_length_le (by omega), List.nil_append, hend,
      Nat.sub_add_eq]

/-- Every chunk of the range takes the page on, and the chunks outside it have nothing for it. -/
theorem takeChunks_filter (hholds : ChunksHold config bytes id columns ordinal offset row chunks
      batches endOffset endRow) (hat : PageAt request limit row expected page)
    (hlimit : 0 < limit) (hmaxRows : limit ≤ request.maxRows)
    (hmaxBytes : request.maxBytes < u64Max) (hrange : endRow ≤ u64Max)
    (hrows : ∀ row ∈ rowsOf batches, config.codec.rowLength row ≤ request.maxBytes) :
    ∃ last, takeChunks config bytes id columns request (request.offset + limit) expected
        (chunks.filter fun chunk => decide (chunk.startRow < request.offset + limit) &&
          decide (request.offset < chunk.endRowExclusive)) page = .ok last ∧
      last.rows = page.rows ++ fill config.codec.rowLength (limit - page.rows.length)
        (request.maxBytes - page.rowBytes) (page.pending request row (rowsOf batches)) := by
  induction hholds generalizing expected page with
  | nil => exact ⟨page, rfl, by simp [PageRows.pending]⟩
  | @cons chunk chunks batch batches endOffset endRow hread hrest ih =>
    obtain ⟨-, hvalid, hcount, hend⟩ := readChunk_eq_ok_iff.mp hread
    have hlast := hrest.endRow_eq
    have hrestRows : ∀ row ∈ rowsOf batches, config.codec.rowLength row ≤ request.maxBytes :=
      fun other hother => hrows other (by simp [hother])
    by_cases hkept : chunk.startRow < request.offset + limit ∧
        request.offset < chunk.endRowExclusive
    · obtain ⟨hcheck, hmore, hroom, hbytes, hpassed, hreached, htake⟩ :=
        hat.continue id hvalid hend hkept.1 hkept.2 (by omega)
      have hfreshRows : ∀ row ∈ page.fresh request chunk.startRow batch,
          config.codec.rowLength row ≤ request.maxBytes :=
        fun other hother => hrows other (by simp [List.mem_of_mem_drop hother])
      have hfresh : (page.fresh request chunk.startRow batch).length =
          chunk.endRowExclusive - (request.offset + page.rows.length) := by
        unfold PageRows.fresh
        rw [List.length_drop]
        omega
      rw [takeRows_offer hmore rfl hroom hmaxRows hbytes hmaxBytes (by omega) hfreshRows] at htake
      rw [List.filter_cons_of_pos (by simpa using hkept), takeChunks, hcheck, hread,
        PageRows.pending_cons hend hreached]
      simp only [bind, Except.bind, htake]
      by_cases hfull : (page.offer config request limit
          (page.fresh request chunk.startRow batch)).full = true
      · -- The page is full within this batch.
        refine ⟨_, by rw [if_pos hfull]; rfl, ?_⟩
        rw [Fill.fill_append_of_ne _ (by simpa [PageRows.offer] using hfull)]
        rfl
      · rw [if_neg hfull]
        have htaken : fill config.codec.rowLength (limit - page.rows.length)
            (request.maxBytes - page.rowBytes) (page.fresh request chunk.startRow batch) =
            page.fresh request chunk.startRow batch := by
          simpa [PageRows.offer] using hfull
        obtain ⟨last, hlastPage, hlastRows⟩ :=
          ih (PageAt.next hroom hbytes htaken (by omega)) hrange hrestRows
        rw [PageRows.offer_of_all htaken]
        refine ⟨last, hlastPage, ?_⟩
        have hpending : request.offset + (page.rows ++ page.fresh request chunk.startRow
            batch).length - chunk.endRowExclusive = 0 := by
          rw [List.length_append]
          omega
        rw [hlastRows, Fill.fill_append_of_eq _ htaken, PageRows.pending, hpending,
          List.drop_zero, List.length_append, Nat.sub_add_eq, Nat.sub_add_eq, List.append_assoc]
    · obtain ⟨last, hlastPage, hlastRows⟩ :=
        ih (hat.skip hend hvalid.nonempty hlimit hkept) hrange hrestRows
      rw [List.filter_cons_of_neg (by simpa using hkept)]
      exact ⟨last, hlastPage, by rw [hlastRows, hat.fill_skip hend hkept]⟩

/-! ## Reading a page -/

/-- Both limits of a request are admitted. -/
structure PageRequest.Admitted (request : PageRequest) : Prop where
  rows : 0 < request.maxRows ∧ request.maxRows ≤ maxResultPageRows
  bytes : minResultPageBytes ≤ request.maxBytes ∧ request.maxBytes ≤ maxResultPageBytes

theorem validatePageRequest_eq_ok_iff {result : Unit} :
    validatePageRequest request = .ok result ↔ request.Admitted := by
  simp only [validatePageRequest, Outcome.bind_eq_ok, Outcome.rejectIf_eq_ok, exists_const]
  constructor
  · rintro ⟨hrows, hbytes⟩
    exact ⟨by omega, by omega⟩
  · rintro ⟨hrows, hbytes⟩
    exact ⟨by omega, by omega⟩

/-- A completed result with its file at the committed length. -/
structure Holds (config : StoreConfig) (store : ResultStore) (result : StoredResult)
    (schema : Wire.QueryStarted) (batches : List Wire.RowBatch) : Prop where
  found : store.loadStoredResult result.id = some result
  version : result.formatVersion = resultFormatVersion
  complete : result.state = .complete
  rows : result.rowCount ≤ i64Max
  file : ∃ file, store.findFile result.id = some file ∧
    file.bytes.length = result.committedLength ∧
    BytesHold config file.bytes result (store.loadAllChunks result.id) schema batches

/-- No row takes more bytes alone than in its batch. -/
def RowsWithin (codec : Wire.Codec) (batches : List Wire.RowBatch) : Prop :=
  ∀ batch ∈ batches, ∀ row ∈ batch.rows, codec.rowLength row ≤ codec.batchLength batch

/-- The rows of the page that a request asks for. -/
def pageRows (config : StoreConfig) (request : PageRequest) (rows : List Wire.JdbcRow) :
    List Wire.JdbcRow :=
  fill config.codec.rowLength request.maxRows request.maxBytes (rows.drop request.offset)

/-- The page that a request asks for. -/
def StoredResult.requestedPage (config : StoreConfig) (result : StoredResult) (schema : Wire.QueryStarted)
    (rows : List Wire.JdbcRow) (request : PageRequest) : ResultPage :=
  { metadata :=
      { id := result.id
        rowCount := result.rowCount
        byteCount := result.committedLength
        truncatedByMaxRows := result.truncatedByMaxRows
        truncatedByMaxResultBytes := result.truncatedByMaxResultBytes
        createdAtMs := result.createdAtMs
        expiresAtMs := result.expiresAtMs }
    schema
    offset := request.offset
    rows := pageRows config request rows
    hasMore := decide (request.offset + (pageRows config request rows).length < result.rowCount) }

theorem pageRows_of_le (hoffset : rows.length ≤ request.offset) :
    pageRows config request rows = [] := by
  unfold pageRows
  rw [List.drop_of_length_le hoffset, Fill.fill_nil]

theorem rowLength_le_of_mem (hwithin : RowsWithin config.codec batches)
    (hvalid : ∀ batch ∈ batches, config.codec.batchLength batch ≤ Wire.maxBatchBytes)
    (hadmitted : request.Admitted) {row : Wire.JdbcRow} (hrow : row ∈ rowsOf batches) :
    config.codec.rowLength row ≤ request.maxBytes := by
  obtain ⟨batch, hbatch, hrow⟩ := List.mem_flatMap.mp hrow
  calc config.codec.rowLength row
      ≤ config.codec.batchLength batch := hwithin batch hbatch row hrow
    _ ≤ minResultPageBytes := hvalid batch hbatch
    _ ≤ request.maxBytes := hadmitted.bytes.1

theorem pageRows_ne_nil (hadmitted : request.Admitted)
    (hrows : ∀ row ∈ rows, config.codec.rowLength row ≤ request.maxBytes)
    (hoffset : request.offset < rows.length) : pageRows config request rows ≠ [] := by
  unfold pageRows
  rw [List.drop_eq_getElem_cons hoffset]
  exact Fill.fill_ne_nil hadmitted.rows.1 (hrows _ (List.getElem_mem hoffset))

/-- Reading the rows of a page from the chunks that overlap it. -/
theorem readPageRows_eq_ok (hholds : ChunksHold config bytes id columns 0 offset 0 chunks batches
      endOffset endRow) (hadmitted : request.Admitted) (hrange : endRow ≤ i64Max)
    (hrows : ∀ row ∈ rowsOf batches, config.codec.rowLength row ≤ request.maxBytes)
    (hoffset : request.offset < endRow)
    (hlimit : limit = min request.maxRows (endRow - request.offset)) :
    readPageRows config bytes id columns request (request.offset + limit)
        (chunks.filter fun chunk => decide (chunk.startRow < request.offset + limit) &&
          decide (request.offset < chunk.endRowExclusive)) =
      .ok (pageRows config request (rowsOf batches)) := by
  have hcount := hholds.endRow_eq
  rw [Nat.zero_add] at hcount
  have hu64 : i64Max < u64Max := by decide
  have hbytes : request.maxBytes < u64Max :=
    Nat.lt_of_le_of_lt hadmitted.bytes.2 (by decide)
  have hpositive : 0 < limit := by
    have := hadmitted.rows.1
    omega
  have hmaxRows : limit ≤ request.maxRows := by omega
  obtain ⟨last, htaken, hlast⟩ := takeChunks_filter hholds
    (.before (Nat.zero_le _) rfl rfl) hpositive hmaxRows hbytes (by omega) hrows
  have hpage : last.rows = pageRows config request (rowsOf batches) := by
    have hrest : ((rowsOf batches).drop request.offset).length = endRow - request.offset := by
      rw [List.length_drop, hcount]
    rw [hlast]
    unfold PageRows.pending pageRows
    simp only [List.nil_append, List.length_nil, Nat.sub_zero, Nat.add_zero]
    rw [hlimit, ← hrest, Fill.fill_min_length]
  simp only [readPageRows, Outcome.bind_eq_ok, Outcome.rejectIf_eq_ok, Outcome.pure_eq_ok,
    exists_const]
  refine ⟨?_, last, htaken, hpage⟩
  -- Without a chunk the page would be empty.
  intro hnone
  rw [hnone] at htaken
  obtain rfl := Except.ok.inj htaken
  exact pageRows_ne_nil hadmitted hrows (by omega) hpage.symm

/-- A page of a result that the store holds is what the request asks for. -/
theorem Holds.readResultPageAt_eq {store : ResultStore} {result : StoredResult}
    {schema : Wire.QueryStarted} {timestampMs : Int}
    (hholds : Holds config store result schema batches) (hwithin : RowsWithin config.codec batches)
    (hlive : timestampMs < result.expiresAtMs) (hadmitted : request.Admitted) :
    readResultPageAt config store result.id request timestampMs =
      .ok (result.requestedPage config schema (rowsOf batches) request) := by
  obtain ⟨file, hfile, hlength, hbytes⟩ := hholds.file
  have hcount := hbytes.readsChunks.endRow_eq
  rw [Nat.zero_add] at hcount
  have hfileId : file.id = result.id := (Rows.find_mem hfile).2
  have hrows : ∀ row ∈ rowsOf batches, config.codec.rowLength row ≤ request.maxBytes := by
    refine fun row => rowLength_le_of_mem hwithin ?_ hadmitted
    intro batch hbatch
    obtain ⟨_, hvalid⟩ := hbytes.readsChunks.valid_of_mem hbatch
    exact hvalid.bytes
  simp only [readResultPageAt, Outcome.bind_eq_ok, Outcome.rejectIf_eq_ok, Outcome.orThrow_eq_ok,
    validatePageRequest_eq_ok_iff, ResultStore.openResultFile, ensureExactFileLength,
    StoredResult.metadata, Outcome.pure_eq_ok, exists_const]
  refine ⟨hadmitted, result, ?_, not_not.mpr hholds.version, file, hfile, not_not.mpr hlength,
    schema, hbytes.readsSchema, _, ⟨not_not.mpr hholds.complete, rfl⟩, ?_⟩
  · simp [hholds.found, Option.filter, hholds.complete, hlive]
  · by_cases hoffset : request.offset ≥ result.rowCount
    · rw [if_pos hoffset, Outcome.pure_eq_ok]
      have hnone : pageRows config request (rowsOf batches) = [] :=
        pageRows_of_le (hcount ▸ hoffset)
      unfold StoredResult.requestedPage
      simp only [hnone, List.length_nil, Nat.add_zero]
      simp [Nat.not_lt.mpr hoffset]
    · have hbelow : request.offset < result.rowCount := Nat.not_le.mp hoffset
      have hu64 : i64Max < u64Max := by decide
      have hrange := hholds.rows
      have hend : min (min (request.offset + request.maxRows) u64Max) result.rowCount =
          request.offset + min request.maxRows (result.rowCount - request.offset) := by
        omega
      rw [if_neg hoffset]
      simp only [readRows, hend, ResultStore.loadPageChunks, toSqlI64, Outcome.bind_eq_ok,
        Outcome.rejectIf_eq_ok, Outcome.pure_eq_ok, exists_const]
      refine ⟨_, ⟨by omega, by omega, rfl⟩, _,
        readPageRows_eq_ok hbytes.readsChunks hadmitted hrange hrows hbelow rfl,
        pageRows_ne_nil hadmitted hrows (by omega), ?_⟩
      unfold StoredResult.requestedPage
      congr 1
      apply decide_eq_decide.mpr
      omega

end Chat2DB.Results
