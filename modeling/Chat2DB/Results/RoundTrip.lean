import Chat2DB.Results.Runs

/-! # Reading back what was written

A finished result is read page by page. Each page is the longest piece of the
written rows that its limits allow, and never empty before the end, so that a
reader who goes on behind the last row it got has read everything in the end.
-/

namespace Chat2DB.Results

variable {config : StoreConfig} {store : ResultStore} {result : StoredResult}
  {schema : Wire.QueryStarted} {batches : List Wire.RowBatch} {request : PageRequest}

/-! ## One page -/

/-- A page at an offset of some rows: a piece of them, as long as the limits allow. -/
structure PageOf (codec : Wire.Codec) (rows : List Wire.JdbcRow) (request : PageRequest)
    (page : ResultPage) : Prop where
  offset : page.offset = request.offset
  slice : page.rows = (rows.drop request.offset).take page.rows.length
  fits : Fill.Fits codec.rowLength request.maxRows request.maxBytes (rows.drop request.offset)
    page.rows.length
  largest : ∀ count, Fill.Fits codec.rowLength request.maxRows request.maxBytes
    (rows.drop request.offset) count → count ≤ page.rows.length
  more : page.hasMore = true ↔ request.offset + page.rows.length < rows.length

theorem Holds.rowCount_eq (hholds : Holds config store result schema batches) :
    result.rowCount = (rowsOf batches).length := by
  obtain ⟨file, -, -, hbytes⟩ := hholds.file
  have hcount := hbytes.readsChunks.endRow_eq
  rw [Nat.zero_add] at hcount
  exact hcount

theorem Holds.pageOf (hholds : Holds config store result schema batches) (request : PageRequest) :
    PageOf config.codec (rowsOf batches) request
      (result.requestedPage config schema (rowsOf batches) request) := by
  refine ⟨rfl, ?_, ?_, ?_, ?_⟩
  · exact Fill.fill_eq_take
  · exact Fill.fits_length_fill _ _ _
  · exact fun count hfits => hfits.le_length_fill
  · rw [← hholds.rowCount_eq]
    exact decide_eq_true_iff

theorem Holds.rowLength_le (hholds : Holds config store result schema batches)
    (hwithin : RowsWithin config.codec batches)
    (hadmitted : request.Admitted) {row : Wire.JdbcRow} (hrow : row ∈ rowsOf batches) :
    config.codec.rowLength row ≤ request.maxBytes := by
  obtain ⟨file, -, -, hbytes⟩ := hholds.file
  refine rowLength_le_of_mem hwithin ?_ hadmitted hrow
  intro batch hbatch
  obtain ⟨_, hvalid⟩ := hbytes.readsChunks.valid_of_mem hbatch
  exact hvalid.bytes

theorem Holds.page_pos (hholds : Holds config store result schema batches)
    (hwithin : RowsWithin config.codec batches) {page : ResultPage}
    (hadmitted : request.Admitted) (hoffset : request.offset < (rowsOf batches).length)
    (hpage : PageOf config.codec (rowsOf batches) request page) : 0 < page.rows.length := by
  have hrow := hholds.rowLength_le hwithin hadmitted (List.getElem_mem hoffset)
  apply hpage.largest 1
  rw [List.drop_eq_getElem_cons hoffset]
  refine { number := hadmitted.rows.1, available := ?_, bytes := ?_ }
  · exact Nat.succ_le_succ (Nat.zero_le _)
  · rw [List.take_succ_cons, List.take_zero, Fill.total_cons, Fill.total_nil, Nat.add_zero]
    exact hrow

theorem PageOf.append_rest {codec : Wire.Codec} {rows : List Wire.JdbcRow}
    {page : ResultPage} (hpage : PageOf codec rows request page) :
    page.rows ++ rows.drop (request.offset + page.rows.length) = rows.drop request.offset :=
  calc page.rows ++ rows.drop (request.offset + page.rows.length)
      = (rows.drop request.offset).take page.rows.length ++
          (rows.drop request.offset).drop page.rows.length := by
        rw [← hpage.slice, List.drop_drop]
    _ = rows.drop request.offset := List.take_append_drop _ _

/-! ## All pages -/

structure PageLimits where
  maxRows : Nat
  maxBytes : Nat
deriving DecidableEq

def PageLimits.at (limits : PageLimits) (offset : Nat) : PageRequest :=
  { offset, maxRows := limits.maxRows, maxBytes := limits.maxBytes }

/-- Read on behind the rows that were returned until a page says that there is no more. The limits
and the clock may differ from page to page; `none` means that the fuel ran out. -/
def readPages (config : StoreConfig) (store : ResultStore) (id : ResultId)
    (limits : Nat → PageLimits) (clock : Nat → Int) :
    Nat → Nat → Nat → Option (Except ResultError (List Wire.JdbcRow))
  | 0, _, _ => none
  | fuel + 1, turn, offset =>
    match readResultPageAt config store id ((limits turn).at offset) (clock turn) with
    | .error error => some (.error error)
    | .ok page =>
      if page.hasMore then
        (readPages config store id limits clock fuel (turn + 1)
          (offset + page.rows.length)).map (Except.map (page.rows ++ ·))
      else
        some (.ok page.rows)

/-- Every page brings the reader on, so that as many turns as there are rows left are enough. -/
theorem Holds.readPages_eq (hholds : Holds config store result schema batches)
    (hwithin : RowsWithin config.codec batches) {limits : Nat → PageLimits} {clock : Nat → Int}
    (hadmitted : ∀ turn offset, ((limits turn).at offset).Admitted)
    (hlive : ∀ turn, clock turn < result.expiresAtMs) {fuel turn offset : Nat}
    (hoffset : offset ≤ (rowsOf batches).length) (hfuel : 0 < fuel)
    (henough : (rowsOf batches).length ≤ offset + fuel) :
    readPages config store result.id limits clock fuel turn offset =
      some (.ok ((rowsOf batches).drop offset)) := by
  induction fuel generalizing turn offset with
  | zero => exact absurd hfuel (Nat.lt_irrefl 0)
  | succ fuel ih =>
    have hread := hholds.readResultPageAt_eq hwithin (hlive turn) (hadmitted turn offset)
    have hpage := hholds.pageOf ((limits turn).at offset)
    generalize result.requestedPage config schema (rowsOf batches) ((limits turn).at offset) =
      page at hread hpage
    have hrest : page.rows ++ (rowsOf batches).drop (offset + page.rows.length) =
        (rowsOf batches).drop offset := hpage.append_rest
    have hmore : page.hasMore = true ↔ offset + page.rows.length < (rowsOf batches).length :=
      hpage.more
    unfold readPages
    rw [hread]
    simp only
    by_cases hnext : page.hasMore = true
    · have hend := hmore.mp hnext
      have hbelow : offset < (rowsOf batches).length := by omega
      have hpositive := hholds.page_pos hwithin (hadmitted turn offset) hbelow hpage
      rw [if_pos hnext, ih (Nat.le_of_lt hend) (by omega) (by omega), Option.map_some,
        Except.map, hrest]
    · have hend := mt hmore.mpr hnext
      rw [List.drop_of_length_le (Nat.not_lt.mp hend), List.append_nil] at hrest
      rw [if_neg hnext, hrest]

/-! ## Finished results -/

variable {actions : List StoreAction} {state : StoreState} {id : ResultId} {written : Written}

theorem holds_of_finished (hrun : StoreState.afterActions config actions = some state)
    (hlawful : ∀ action ∈ actions, action.Lawful config.codec)
    (hopened : state.session.opened = true)
    (hwritten : Rows.find Written.id id state.session.history = some written)
    (hfinished : written.completion ≠ none)
    (hclock : ∀ action ∈ actions, ∀ timestampMs ∈ action.clock,
      timestampMs < written.expiresAtMs) :
    ∃ result, result.id = id ∧ result.expiresAtMs = written.expiresAtMs ∧
      Holds config state.store result written.schema written.batches ∧
      RowsWithin config.codec written.batches := by
  obtain ⟨hconsistent, hpresent⟩ := afterActions_consistent hrun hlawful
  obtain ⟨result, hresult, rfl, hcomplete⟩ := hpresent id written hwritten hfinished hclock
  obtain ⟨known, hknown, hexpires, hholds⟩ :=
    (hconsistent.settled hopened).holds hresult hcomplete
  obtain rfl : known = written := Option.some.inj (hknown.symm.trans hwritten)
  exact ⟨result, rfl, hexpires, hholds, hconsistent.rows _ known hwritten⟩

/-- What a writer accepted and finished is read back: every page is the longest piece that its
limits allow, not empty before the end, and reading on from page to page returns every row once. -/
theorem finished_result_reads_back (hrun : StoreState.afterActions config actions = some state)
    (hlawful : ∀ action ∈ actions, action.Lawful config.codec)
    (hopened : state.session.opened = true)
    (hwritten : Rows.find Written.id id state.session.history = some written)
    (hfinished : written.completion ≠ none)
    (hclock : ∀ action ∈ actions, ∀ timestampMs ∈ action.clock,
      timestampMs < written.expiresAtMs) :
    (∀ request timestampMs, request.Admitted → timestampMs < written.expiresAtMs →
      request.offset < (rowsOf written.batches).length →
      ∃ page, readResultPageAt config state.store id request timestampMs = .ok page ∧
        0 < page.rows.length ∧ page.schema = written.schema ∧
        page.metadata.rowCount = (rowsOf written.batches).length ∧
        PageOf config.codec (rowsOf written.batches) request page) ∧
      ∀ limits clock fuel, (∀ turn offset, (PageLimits.at (limits turn) offset).Admitted) →
        (∀ turn : Nat, clock turn < written.expiresAtMs) → 0 < fuel →
        (rowsOf written.batches).length ≤ fuel →
        readPages config state.store id limits clock fuel 0 0 =
          some (.ok (rowsOf written.batches)) := by
  obtain ⟨result, rfl, hexpires, hholds, hwithin⟩ :=
    holds_of_finished hrun hlawful hopened hwritten hfinished hclock
  constructor
  · intro request timestampMs hadmitted hlive hoffset
    have hpage := hholds.pageOf request
    refine ⟨_, hholds.readResultPageAt_eq hwithin (hexpires ▸ hlive) hadmitted, ?_, rfl,
      hholds.rowCount_eq, hpage⟩
    exact hholds.page_pos hwithin hadmitted hoffset hpage
  · intro limits clock fuel hadmitted hlive hfuel henough
    have hread : readPages config state.store result.id limits clock fuel 0 0 =
        some (.ok ((rowsOf written.batches).drop 0)) := by
      refine hholds.readPages_eq hwithin hadmitted ?_ (Nat.zero_le _) hfuel ?_
      · exact fun turn => hexpires ▸ hlive turn
      · rw [Nat.zero_add]
        exact henough
    exact hread

/-! ### A small result -/

def smallColumn : Wire.JdbcColumn :=
  { ordinal := 1, label := "n", name := "n", jdbcType := 0, jdbcTypeName := "", valueType := 7,
    nullability := 0, precision := none, scale := none, displaySize := none, signed := none,
    catalogName := none, schemaName := none, tableName := none }

def smallSchema : Wire.QueryStarted := { columns := [smallColumn] }

def smallRow (text : String) : Wire.JdbcRow := { values := [{ value := some (.text text) }] }

def smallBatch : Wire.RowBatch :=
  { startRowOffset := 0, rows := [smallRow "x", smallRow "y"] }

def smallCompletion : Wire.QueryCompleted :=
  { rowCount := 2, truncatedByMaxRows := false, truncatedByMaxResultBytes := false }

def smallSchemaBytes : List UInt8 := [10, 10, 8, 1, 18, 1, 110, 26, 1, 110, 48, 7]

def smallBatchBytes : List UInt8 := [18, 5, 10, 3, 66, 1, 120, 18, 5, 10, 3, 66, 1, 121]

/-- The protobuf encoding of the messages of the small result, and of the empty ones. -/
def smallCodec : Wire.Codec where
  encodeSchema schema := if schema = smallSchema then smallSchemaBytes else []
  decodeSchema bytes :=
    if bytes = smallSchemaBytes then some smallSchema
    else if bytes = [] then some { columns := [] }
    else none
  encodeBatch batch := if batch = smallBatch then smallBatchBytes else []
  decodeBatch bytes :=
    if bytes = smallBatchBytes then some smallBatch
    else if bytes = [] then some { startRowOffset := 0, rows := [] }
    else none
  encodeRow row :=
    if row = smallRow "x" then [10, 3, 66, 1, 120]
    else if row = smallRow "y" then [10, 3, 66, 1, 121]
    else []

/-- The SHA-256 digests of the two frames of the small result. -/
def smallHash : Sha256 where
  digest bytes :=
    if bytes = frameOf smallSchemaBytes then
      [254, 25, 124, 90, 123, 150, 249, 90, 87, 70, 93, 114, 26, 52, 115, 190,
        132, 196, 165, 36, 52, 3, 45, 107, 232, 252, 37, 48, 173, 44, 205, 94]
    else if bytes = frameOf smallBatchBytes then
      [6, 219, 34, 72, 74, 94, 191, 112, 201, 208, 113, 55, 225, 54, 178, 73,
        164, 135, 255, 23, 130, 224, 109, 20, 38, 248, 76, 134, 19, 191, 222, 130]
    else
      List.replicate 32 0
  length_digest bytes := by
    split
    · rfl
    · split
      · rfl
      · simp

def smallConfig : StoreConfig where
  codec := smallCodec
  hash := smallHash
  maxRetainedBytes := 2 ^ 30
  limited := by decide

/-- A process writes the small result and finishes it. -/
def smallActions : List StoreAction :=
  [.operate (.openStore 0), .operate (.begin 1 smallSchema 60000000000 0 0),
    .operate (.append 1 smallBatch 10), .operate (.finish 1 smallCompletion)]

def smallWritten : Written :=
  { id := 1, schema := smallSchema, batches := [smallBatch], createdAtMs := 0, expiresAtMs := 60000,
    completion := some smallCompletion }

def smallLimits : PageLimits := { maxRows := 1, maxBytes := 2 ^ 23 }

theorem finished_result_reads_back_small :
    ∃ state, StoreState.afterActions smallConfig smallActions = some state ∧
      readPages smallConfig state.store 1 (fun _ => smallLimits) (fun _ => 20) 2 0 0 =
        some (.ok [smallRow "x", smallRow "y"]) := by
  obtain ⟨state, hrun, hopened, hwritten⟩ : ∃ state,
      StoreState.afterActions smallConfig smallActions = some state ∧
        state.session.opened = true ∧
        Rows.find Written.id 1 state.session.history = some smallWritten :=
    ⟨_, rfl, rfl, rfl⟩
  have hlimits : (smallLimits.at 0).Admitted := ⟨by decide, by decide⟩
  have hread := finished_result_reads_back hrun (by decide) hopened hwritten (by decide) (by decide)
  refine ⟨state, hrun, hread.2 _ _ 2 ?_ ?_ (by decide) (by decide)⟩
  · exact fun turn offset => ⟨hlimits.rows, hlimits.bytes⟩
  · exact fun _ => by decide

end Chat2DB.Results
