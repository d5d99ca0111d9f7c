import Chat2DB.Agent.InspectionAnswers

/-! # Paging through a result

A caller asks on from the offset behind the last answer. Where every row of the
result fits into an answer, it is given every row once. Where a row does not
fit, it asks for this row again and again.
-/

namespace Chat2DB.Agent.Inspection

open Contract (FloatText ResultColumn ResultRow uuidText)
open JsonBytes
open Outcome
open Results (Holds RowsWithin StoreConfig StoredResult rowsOf)
open Storage (AgentResultHandle)

variable {config : StoreConfig} {floats : FloatText} {owner : Owner} {handle : AgentResultHandle}
  {result : StoredResult} {schema : Wire.QueryStarted} {batches : List Wire.RowBatch}
  {world : InspectionWorld} {offset maxRows : Nat} {columns : List ResultColumn}
  {contents : List ResultRow} {handleId : String} {count total : Nat}

/-! ## Asking on -/

variable {worlds : Nat → InspectionWorld} {limits : Nat → Nat} {fuel turn : Nat}

/-- The answers give the rows from an offset on, each fits, and only the one with the last row says
that there are no more. -/
structure GivesFrom (contents : List ResultRow) (answers : List ResultInspection) : Prop where
  rows : answers.flatMap ResultInspection.rows = contents
  previewable : ∀ inspection ∈ answers, inspection.Previewable
  last : ∀ before inspection after, answers = before ++ inspection :: after →
    (inspection.hasMore = false ↔
      (before ++ [inspection]).flatMap ResultInspection.rows = contents)

theorem GivesFrom.single {inspection : ResultInspection} (hrows : inspection.rows = contents)
    (hmore : inspection.hasMore = false) (hpreview : inspection.Previewable) :
    GivesFrom contents [inspection] := by
  refine ⟨by simp [hrows], by simpa using hpreview, ?_⟩
  intro before other after hsplit
  cases before with
  | nil =>
    obtain ⟨rfl, -⟩ := List.cons.inj hsplit
    simp [hmore, hrows]
  | cons first before =>
    obtain ⟨-, hrest⟩ := List.cons.inj hsplit
    exact absurd hrest (by simp)

theorem GivesFrom.cons {inspection : ResultInspection} {answers : List ResultInspection}
    (hmore : inspection.hasMore = true) (hcontents : contents ≠ [])
    (hpreview : inspection.Previewable) (hgives : GivesFrom contents answers) :
    GivesFrom (inspection.rows ++ contents) (inspection :: answers) := by
  refine ⟨by rw [List.flatMap_cons, hgives.rows], ?_, ?_⟩
  · intro other hother
    rcases List.mem_cons.mp hother with rfl | hother
    · exact hpreview
    · exact hgives.previewable other hother
  · intro before other after hsplit
    cases before with
    | nil =>
      obtain ⟨rfl, -⟩ := List.cons.inj hsplit
      simp [hmore, hcontents]
    | cons first before =>
      obtain ⟨rfl, hrest⟩ := List.cons.inj hsplit
      rw [List.cons_append, List.flatMap_cons, List.append_cancel_left_eq]
      exact hgives.last before other after hrest

theorem isBlank_uuidText (id : BitVec 128) : Storage.isBlank (uuidText id) = false := by
  have hfirst : Contract.hexDigit (id.toNat / 16 ^ 31 % 16) ∈ (uuidText id).toList := by
    unfold uuidText
    rw [String.toList_ofList]
    exact List.mem_flatMap.mpr ⟨0, by decide, by simp⟩
  have hdigit : ∀ nibble < 16, Storage.isWhitespace (Contract.hexDigit nibble) = false := by
    decide
  unfold Storage.isBlank
  rw [List.all_eq_false]
  exact ⟨_, hfirst, by simp [hdigit _ (Nat.mod_lt _ (by decide))]⟩

section Runs

variable {draw : BitVec 128}
  (hserves : ∀ turn, Serves config owner handle result schema batches (worlds turn))
  (hwithin : RowsWithin config.codec batches) (hid : handle.id = uuidText draw)
  (hshows : Shows floats schema batches columns contents)
  (hlimits : ∀ turn, AdmissibleRows (limits turn))
include hserves hwithin hid hshows hlimits

theorem call_eq (turn : Nat) (hoffset : offset < contents.length) :
    inspectResult config floats owner (worlds turn)
      { handleId := handle.id, offset := some (toString offset), maxRows := some (limits turn) } =
      answer config floats handle.id result schema (rowsOf batches) offset (limits turn) := by
  rw [hshows.length_eq] at hoffset
  have hrange := (hserves turn).length_rows_le
  exact (hserves turn).inspectResult_eq hwithin (hid ▸ isBlank_uuidText draw) (hlimits turn)
    (by omega)

/-- Every call takes the caller on, so that as many calls as there are rows left are enough. -/
theorem inspectAll_gives
    (hfits : ∀ offset row, contents[offset]? = some row → ∀ maxRows, AdmissibleRows maxRows →
      (rowAnswer handle.id columns row offset
        (pageLength config (rowsOf batches) offset maxRows) (rowsOf batches).length).Previewable)
    (hoffset : offset < contents.length) (henough : contents.length ≤ offset + fuel) :
    ∃ answers, inspectAll config floats owner worlds handle.id limits fuel turn
        (toString offset) = some (.ok answers) ∧
      GivesFrom (contents.drop offset) answers := by
  induction fuel generalizing turn offset with
  | zero => omega
  | succ fuel ih =>
    have hrow := List.getElem?_eq_getElem hoffset
    obtain ⟨kept, inspection, hkept, -, hend, hanswer, hrows, hnext, hmore, hpreview⟩ :=
      answer_of_fits (hserves turn) hwithin hshows (hlimits turn) hrow
        (hfits _ _ hrow _ (hlimits turn))
    unfold inspectAll
    rw [call_eq hserves hwithin hid hshows hlimits turn hoffset, hanswer]
    dsimp only
    have hsplit : inspection.rows ++ contents.drop (offset + kept) = contents.drop offset := by
      rw [hrows, ← List.drop_drop, List.take_append_drop]
    by_cases hrest : inspection.hasMore = true
    · have hbelow := hmore.mp hrest
      obtain ⟨answers, hanswers, hgives⟩ := @ih (offset + kept) (turn + 1) hbelow (by omega)
      refine ⟨inspection :: answers, ?_, ?_⟩
      · rw [if_pos hrest, hnext, hanswers]
        rfl
      · rw [← hsplit]
        refine GivesFrom.cons hrest ?_ hpreview hgives
        exact List.length_pos_iff.mp (by rw [List.length_drop]; omega)
    · have hall : contents.length ≤ offset + kept := Nat.not_lt.mp (mt hmore.mpr hrest)
      rw [List.drop_of_length_le hall, List.append_nil] at hsplit
      refine ⟨[inspection], by rw [if_neg hrest], ?_⟩
      exact GivesFrom.single hsplit (Bool.not_eq_true _ ▸ hrest) hpreview

theorem fits_of_inspectAll {row : ResultRow} (hrow : contents[offset]? = some row)
    (hsame : ∀ later, turn ≤ later → limits later = maxRows) {answers : List ResultInspection}
    (hend : inspectAll config floats owner worlds handle.id limits fuel turn (toString offset) =
      some (.ok answers)) :
    (rowAnswer handle.id columns row offset
      (pageLength config (rowsOf batches) offset maxRows) (rowsOf batches).length).Previewable := by
  obtain ⟨hoffset, -⟩ := List.getElem?_eq_some_iff.mp hrow
  by_contra hfits
  induction fuel generalizing turn answers with
  | zero => cases hend
  | succ fuel ih =>
    have hlimit : limits turn = maxRows := hsame turn (Nat.le_refl turn)
    unfold inspectAll at hend
    rw [call_eq hserves hwithin hid hshows hlimits turn hoffset, hlimit] at hend
    obtain ⟨inspection, hanswer, -, hnext, hmore⟩ := answer_of_not_fits (hserves turn) hwithin
      hshows (hlimit ▸ hlimits turn) hrow hfits (hid ▸ (Contract.textBytes_uuidText draw).le)
    -- The next call asks the same again.
    simp only [hanswer, hmore, if_true, hnext] at hend
    obtain ⟨rest, hrest, hmap⟩ := Option.map_eq_some_iff.mp hend
    cases rest with
    | error error => simp [Except.map] at hmap
    | ok rest => exact ih (fun later hlater => hsame later (by omega)) hrest

/-- A caller who asks for one row at a time comes to every row that it can be given. -/
theorem inspectAll_reaches
    (hfits : ∀ earlier row, earlier < offset → contents[earlier]? = some row →
      (rowAnswer handle.id columns row earlier
        (pageLength config (rowsOf batches) earlier 1) (rowsOf batches).length).Previewable)
    (hones : ∀ earlier, earlier < offset → limits earlier = 1) (hoffset : offset < contents.length)
    (hend : ∃ fuel answers, inspectAll config floats owner worlds handle.id limits fuel 0
      (toString 0) = some (.ok answers)) :
    ∃ fuel answers, inspectAll config floats owner worlds handle.id limits fuel offset
      (toString offset) = some (.ok answers) := by
  induction offset with
  | zero => exact hend
  | succ offset ih =>
    obtain ⟨fuel, answers, hanswers⟩ := ih
      (fun earlier row hearlier => hfits earlier row (by omega))
      (fun earlier hearlier => hones earlier (by omega)) (by omega)
    have hbelow : offset < contents.length := by omega
    have hrow := List.getElem?_eq_getElem hbelow
    have hone := hones offset (Nat.lt_succ_self offset)
    obtain ⟨kept, inspection, hkept, hkeptOne, -, hanswer, -, hnext, hmore, -⟩ :=
      answer_of_fits (hserves offset) hwithin hshows (hone ▸ hlimits offset) hrow
        (hfits offset _ (Nat.lt_succ_self offset) hrow)
    obtain rfl : kept = 1 := by omega
    cases fuel with
    | zero => cases hanswers
    | succ fuel =>
      unfold inspectAll at hanswers
      rw [call_eq hserves hwithin hid hshows hlimits offset hbelow, hone, hanswer] at hanswers
      simp only [hmore.mpr hoffset, if_true, hnext] at hanswers
      obtain ⟨rest, hrest, hmap⟩ := Option.map_eq_some_iff.mp hanswers
      cases rest with
      | error error => simp [Except.map] at hmap
      | ok rest => exact ⟨fuel, rest, hrest⟩

end Runs

/-- Asking on from the first row comes to an end and gives these rows. -/
def PagesThrough (config : StoreConfig) (floats : FloatText) (owner : Owner)
    (worlds : Nat → InspectionWorld) (handleId : String) (limits : Nat → Nat)
    (contents : List ResultRow) : Prop :=
  ∃ fuel answers, inspectAll config floats owner worlds handleId limits fuel 0 "0" =
      some (.ok answers) ∧ GivesFrom contents answers

/-- The types and values of a result are known, and each row fits with all the columns into an
answer, whatever page it comes first on. -/
def EachRowFits (config : StoreConfig) (floats : FloatText) (handleId : String)
    (schema : Wire.QueryStarted) (batches : List Wire.RowBatch) : Prop :=
  ∃ columns contents, Shows floats schema batches columns contents ∧
    ∀ offset row, contents[offset]? = some row → ∀ maxRows, AdmissibleRows maxRows →
      (rowAnswer handleId columns row offset (pageLength config (rowsOf batches) offset maxRows)
        (rowsOf batches).length).Previewable

theorem columns_of_answer {inspection : ResultInspection}
    (hanswer : answer config floats handleId result schema (rowsOf batches) offset maxRows =
      .ok inspection) : ∃ columns, schema.columns.mapM Contract.resultColumn = .ok columns := by
  simp only [answer, Outcome.bind_eq_ok, Outcome.mapError_eq_ok, Contract.resultPage] at hanswer
  obtain ⟨-, ⟨columns, hcolumns, -⟩, -⟩ := hanswer
  exact ⟨columns, hcolumns⟩

theorem Serves.firstCall_eq {draw : BitVec 128}
    (hserves : Serves config owner handle result schema batches world)
    (hwithin : RowsWithin config.codec batches) (hid : handle.id = uuidText draw)
    (hrows : AdmissibleRows maxRows) :
    inspectResult config floats owner world
      { handleId := handle.id, offset := some "0", maxRows := some maxRows } =
      answer config floats handle.id result schema (rowsOf batches) 0 maxRows := by
  have hblank : Storage.isBlank handle.id = false := by
    rw [hid, isBlank_uuidText]
  have hfirst : toString 0 = "0" := rfl
  rw [← hserves.inspectResult_eq hwithin hblank hrows (Nat.zero_le _), hfirst]

/-- A caller who asks on from the first row, for any numbers of rows, is given every row of the
result once and then comes to an end, exactly when each row fits into an answer. -/
theorem inspection_pages_iff {draw : BitVec 128}
    (hserves : ∀ turn, Serves config owner handle result schema batches (worlds turn))
    (hwithin : RowsWithin config.codec batches) (hid : handle.id = uuidText draw) :
    (∃ contents, (rowsOf batches).mapM (Contract.resultRow floats) = .ok contents ∧
        ∀ limits, (∀ turn, AdmissibleRows (limits turn)) →
          PagesThrough config floats owner worlds handle.id limits contents) ↔
      EachRowFits config floats handle.id schema batches := by
  have hone : AdmissibleRows 1 := ⟨by decide, by decide⟩
  constructor
  · rintro ⟨contents, hcontents, hpages⟩
    have hends : ∀ limits, (∀ turn, AdmissibleRows (limits turn)) →
        ∃ fuel answers, inspectAll config floats owner worlds handle.id limits fuel 0
          (toString 0) = some (.ok answers) := by
      intro limits hlimits
      obtain ⟨fuel, answers, hanswers, -⟩ := hpages limits hlimits
      exact ⟨fuel, answers, hanswers⟩
    obtain ⟨columns, hcolumns⟩ : ∃ columns,
        schema.columns.mapM Contract.resultColumn = .ok columns := by
      obtain ⟨fuel, answers, hanswers, -⟩ := hpages (fun _ => 1) (fun _ => hone)
      cases fuel with
      | zero => cases hanswers
      | succ fuel =>
        unfold inspectAll at hanswers
        rw [(hserves 0).firstCall_eq hwithin hid hone] at hanswers
        cases hanswer : answer config floats handle.id result schema (rowsOf batches) 0 1 with
        | error error => simp [hanswer] at hanswers
        | ok inspection => exact columns_of_answer hanswer
    have hshows : Shows floats schema batches columns contents := ⟨hcolumns, hcontents⟩
    -- First the rows that are asked for one by one, then any number of rows from any row on.
    have hsingle : ∀ offset row, contents[offset]? = some row →
        (rowAnswer handle.id columns row offset (pageLength config (rowsOf batches) offset 1)
          (rowsOf batches).length).Previewable := by
      intro offset
      induction offset using Nat.strong_induction_on with
      | _ offset ih =>
        intro row hrow
        obtain ⟨hoffset, -⟩ := List.getElem?_eq_some_iff.mp hrow
        obtain ⟨fuel, answers, hanswers⟩ := inspectAll_reaches hserves hwithin hid hshows
          (fun _ => hone) (fun earlier row hearlier => ih earlier hearlier row)
          (fun _ _ => rfl) hoffset (hends _ fun _ => hone)
        exact fits_of_inspectAll hserves hwithin hid hshows (fun _ => hone) hrow
          (fun _ _ => rfl) hanswers
    refine ⟨columns, contents, hshows, fun offset row hrow maxRows hrows => ?_⟩
    obtain ⟨hoffset, -⟩ := List.getElem?_eq_some_iff.mp hrow
    have hlimits : ∀ turn, AdmissibleRows (if turn < offset then 1 else maxRows) := by
      intro turn
      split
      · exact hone
      · exact hrows
    obtain ⟨fuel, answers, hanswers⟩ := inspectAll_reaches hserves hwithin hid hshows hlimits
      (fun earlier row _ => hsingle earlier row) (fun _ hearlier => if_pos hearlier) hoffset
      (hends _ hlimits)
    exact fits_of_inspectAll hserves hwithin hid hshows hlimits hrow
      (fun later hlater => if_neg (Nat.not_lt.mpr hlater)) hanswers
  · rintro ⟨columns, contents, hshows, hfits⟩
    refine ⟨contents, hshows.rows, fun limits hlimits => ?_⟩
    by_cases hempty : contents = []
    · obtain ⟨inspection, hanswer, hrows, hmore, hpreview⟩ := answer_of_empty (hserves 0).holds
        hshows hempty (hid ▸ (Contract.textBytes_uuidText draw).le) (Nat.zero_le _)
      refine ⟨1, [inspection], ?_, GivesFrom.single (hrows.trans hempty.symm) hmore hpreview⟩
      unfold inspectAll
      rw [(hserves 0).firstCall_eq hwithin hid (hlimits 0), hanswer]
      simp only [hmore, Bool.false_eq_true, if_false]
    · exact ⟨contents.length, inspectAll_gives hserves hwithin hid hshows hlimits hfits
        (List.length_pos_iff.mpr hempty) (by omega)⟩

/-! ## Results of one batch -/

section OneBatch

variable (config : StoreConfig) (schemaBytes batchBytes : List UInt8) (rowCount : Nat)

/-- A finished result whose file holds a schema and one batch. -/
def oneBatchResult : StoredResult :=
  { id := 1
    formatVersion := Results.resultFormatVersion
    state := .complete
    schemaFrameLength := (Results.frameOf schemaBytes).length
    schemaSha256 := config.hash.digest (Results.frameOf schemaBytes)
    committedLength := (Results.frameOf schemaBytes).length + (Results.frameOf batchBytes).length
    rowCount
    truncatedByMaxRows := false
    truncatedByMaxResultBytes := false
    createdAtMs := 0
    expiresAtMs := 60000 }

def oneBatchChunk : Results.ChunkIndex :=
  { ordinal := 0
    fileOffset := (Results.frameOf schemaBytes).length
    frameLength := (Results.frameOf batchBytes).length
    startRow := 0
    endRowExclusive := rowCount
    rowCount
    sha256 := config.hash.digest (Results.frameOf batchBytes) }

def oneBatchStore : Results.ResultStore :=
  { results := [oneBatchResult config schemaBytes batchBytes rowCount]
    chunks := [{ resultId := 1, index := oneBatchChunk config schemaBytes batchBytes rowCount }]
    files :=
      [{ id := 1
         bytes := Results.frameOf schemaBytes ++ Results.frameOf batchBytes
         synced := 0
         linked := true }] }

def oneBatchHandle : AgentResultHandle :=
  { id := uuidText 7, sessionId := "session", runId := "run", resultId := uuidText 1
    createdAtMs := 10, expiresAtMs := 60000 }

def oneBatchOwner : Owner := { sessionId := "session", runId := "run" }

def oneBatchWorld : InspectionWorld :=
  { env := { clock := .ok 20, uuid := fun _ => "" }
    db := { Storage.AgentDb.empty with resultHandles := [oneBatchHandle] }
    store := oneBatchStore config schemaBytes batchBytes rowCount
    timestampMs := 20 }

variable {config schemaBytes batchBytes rowCount} {batch : Wire.RowBatch}

theorem holds_oneBatchStore
    (hschemaBytes : 0 < schemaBytes.length ∧ schemaBytes.length ≤ Wire.maxFrameBytes)
    (hbatchBytes : 0 < batchBytes.length ∧ batchBytes.length ≤ Wire.maxBatchBytes)
    (hschema : config.codec.decodeSchema schemaBytes = some schema)
    (hcolumns : schema.columns.length ≤ Wire.maxColumns)
    (hbatch : config.codec.decodeBatch batchBytes = some batch)
    (hvalid : Results.ValidBatch config.codec schema.columns.length 0 batch)
    (hcount : batch.rows.length = rowCount) :
    Holds config (oneBatchStore config schemaBytes batchBytes rowCount)
      (oneBatchResult config schemaBytes batchBytes rowCount) schema [batch] := by
  have hframes : Wire.maxFrameBytes < 2 ^ 32 ∧ Wire.maxBatchBytes < 2 ^ 32 := by decide
  have hrowCount : rowCount ≤ Wire.maxBatchRows := hcount ▸ hvalid.rows
  refine
    { found := by simp [Results.ResultStore.loadStoredResult, Rows.find, oneBatchStore]
      version := rfl
      complete := rfl
      rows := Nat.le_trans hrowCount (by decide)
      file := ⟨_, rfl, by simp [oneBatchResult], ?_, ?_⟩ }
  · have hread := @Results.readIndexedFrame_frameOf _ config.hash config.codec.decodeSchema
      schemaBytes [] (Results.frameOf batchBytes) schema 1 Wire.maxFrameBytes hschemaBytes.1
      hschemaBytes.2 (by omega) hschema
    simp only [Results.readSchema, Outcome.bind_eq_ok, Outcome.pure_eq_ok,
      Outcome.mapError_eq_ok]
    refine ⟨schema, hread, (), ?_, rfl⟩
    simp [Results.validateSchema, Outcome.rejectIf_eq_ok, Nat.not_lt.mpr hcolumns]
  · have hread := @Results.readIndexedFrame_frameOf _ config.hash config.codec.decodeBatch
      batchBytes (Results.frameOf schemaBytes) [] batch 1 Wire.maxBatchBytes hbatchBytes.1
      hbatchBytes.2 (by omega) hbatch
    rw [List.append_nil] at hread
    have hchunks : (oneBatchStore config schemaBytes batchBytes rowCount).loadAllChunks 1 =
        [oneBatchChunk config schemaBytes batchBytes rowCount] := by
      simp [Results.ResultStore.loadAllChunks, oneBatchStore]
    have hchunk : Results.readChunk config (Results.frameOf schemaBytes ++ Results.frameOf batchBytes)
        1 schema.columns.length (oneBatchChunk config schemaBytes batchBytes rowCount) = .ok batch :=
      Results.readChunk_eq_ok_iff.mpr ⟨hread, hvalid, hcount, by simp [oneBatchChunk, hcount]⟩
    exact hchunks ▸ Results.ChunksHold.cons hchunk .nil

theorem serves_oneBatchWorld
    (hholds : Holds config (oneBatchStore config schemaBytes batchBytes rowCount)
      (oneBatchResult config schemaBytes batchBytes rowCount) schema batches) :
    Serves config oneBatchOwner oneBatchHandle
      (oneBatchResult config schemaBytes batchBytes rowCount) schema batches
      (oneBatchWorld config schemaBytes batchBytes rowCount) where
  handleFound := by simp [Rows.find, oneBatchWorld]
  owned := ⟨rfl, rfl⟩
  live := ⟨20, rfl, by decide, by simp [oneBatchResult]⟩
  resultFound := by
    simp [InspectionWorld.loadStoredResult, oneBatchWorld, oneBatchStore, oneBatchHandle,
      oneBatchResult]
  holds := hholds
  resultLive := by simp [oneBatchWorld, oneBatchResult]

end OneBatch

/-! ### Two short rows -/

theorem smallBatch_within : RowsWithin Results.smallCodec [Results.smallBatch] := by
  unfold RowsWithin
  decide

def smallWorld : InspectionWorld :=
  oneBatchWorld Results.smallConfig Results.smallSchemaBytes Results.smallBatchBytes 2

theorem serves_smallWorld : Serves Results.smallConfig oneBatchOwner oneBatchHandle
    (oneBatchResult Results.smallConfig Results.smallSchemaBytes Results.smallBatchBytes 2)
    Results.smallSchema [Results.smallBatch] smallWorld := by
  apply serves_oneBatchWorld
  exact holds_oneBatchStore (by decide) (by decide) rfl (by decide) rfl
    ⟨rfl, by decide, by decide, by decide, by decide⟩ rfl

/-- How numbers are printed does not matter to a result of texts. -/
def noFloats : FloatText := { float32 := fun _ => "", float64 := fun _ => "" }

def shownColumn : ResultColumn :=
  { ordinal := 1, label := "n", name := "n", jdbcType := 0, jdbcTypeName := "", valueType := .text,
    nullability := .unknown, precision := none, scale := none, displaySize := none, signed := none,
    catalogName := none, schemaName := none, tableName := none }

def shownRow (text : String) : ResultRow := { values := [.text text] }

theorem shows_smallBatch : Shows noFloats Results.smallSchema [Results.smallBatch] [shownColumn]
    [shownRow "x", shownRow "y"] where
  columns := rfl
  rows := rfl

theorem jsonBytes_shownRow (text : String) : (shownRow text).jsonBytes = 37 + textBytes text := by
  have hnames : textBytes "values" = 8 ∧ textBytes "type" = 6 ∧ textBytes "text" = 6 ∧
      textBytes "value" = 7 := by decide +kernel
  obtain ⟨hvalues, htype, htext, hvalue⟩ := hnames
  simp only [ResultRow.jsonBytes, shownRow, Contract.JdbcValue.jsonBytes,
    Contract.JdbcValue.members, objectBytes, arrayBytes, List.map_cons, List.map_nil, List.sum_cons,
    List.sum_nil, List.length_cons, List.length_nil, hvalues, htype, htext, hvalue]
  omega

theorem arrayBytes_shownRow (text : String) :
    arrayBytes ([shownRow text].map ResultRow.jsonBytes) = 39 + textBytes text := by
  simp only [arrayBytes, List.map_cons, List.map_nil, List.sum_cons, List.sum_nil,
    List.length_cons, List.length_nil, jsonBytes_shownRow]
  omega

theorem previewable_rowAnswer {text : String} (htext : textBytes text ≤ 100)
    (hrange : offset + count ≤ Storage.u64Max) :
    (rowAnswer oneBatchHandle.id [shownColumn] (shownRow text) offset count total).Previewable := by
  have hhandle : textBytes oneBatchHandle.id = 38 := Contract.textBytes_uuidText 7
  have hoffset := textBytes_toString_u64 (Nat.le_trans (Nat.le_add_right offset count) hrange)
  have hnext := textBytes_toString_u64 hrange
  have hcolumns : arrayBytes ([shownColumn].map Contract.columnBytes) ≤ 200 := by decide +kernel
  have hflag : ∀ flag, boolBytes flag ≤ 5 := by decide
  have hmore := hflag (decide (offset + count < total))
  have hfalse := hflag false
  have hlimit : modelPreviewBytes = 49152 := rfl
  unfold ResultInspection.Previewable
  rw [ResultInspection.serializedBytes_eq]
  simp only [rowAnswer, arrayBytes_shownRow]
  omega

theorem not_previewable_rowAnswer {text : String} (htext : 49154 ≤ textBytes text) :
    ¬ (rowAnswer handleId columns (shownRow text) offset count total).Previewable := by
  have hlimit : modelPreviewBytes = 49152 := rfl
  unfold ResultInspection.Previewable
  rw [ResultInspection.serializedBytes_eq]
  simp only [rowAnswer, arrayBytes_shownRow]
  omega

theorem smallRows_fit : EachRowFits Results.smallConfig noFloats oneBatchHandle.id
    Results.smallSchema [Results.smallBatch] := by
  refine ⟨_, _, shows_smallBatch, fun offset row hrow maxRows hrows => ?_⟩
  obtain ⟨hoffset, -⟩ := List.getElem?_eq_some_iff.mp hrow
  obtain ⟨-, -, hend⟩ := serves_smallWorld.pageLength_bounds smallBatch_within hrows hoffset
  have hrange := Nat.le_trans hend serves_smallWorld.length_rows_le
  rcases List.mem_pair.mp (List.mem_of_getElem? hrow) with rfl | rfl
  · exact previewable_rowAnswer (by decide +kernel) hrange
  · exact previewable_rowAnswer (by decide +kernel) hrange

/-- Reading the two rows of a small result gives them for any numbers of rows. -/
theorem smallResult_pages :
    ∃ contents, (rowsOf [Results.smallBatch]).mapM (Contract.resultRow noFloats) = .ok contents ∧
      ∀ limits, (∀ turn, AdmissibleRows (limits turn)) →
        PagesThrough Results.smallConfig noFloats oneBatchOwner (fun _ => smallWorld)
          oneBatchHandle.id limits contents :=
  (inspection_pages_iff (fun _ => serves_smallWorld) smallBatch_within rfl).mpr smallRows_fit

/-! ### A row that is too long -/

@[irreducible] def wideText : String := String.ofList (List.replicate 49152 'a')

def wideRow : Wire.JdbcRow := { values := [{ value := some (.text wideText) }] }

def wideBatch : Wire.RowBatch := { startRowOffset := 0, rows := [wideRow] }

@[irreducible] def wideRowBytes : List UInt8 :=
  [10, 132, 128, 3, 66, 128, 128, 3] ++ List.replicate 49152 97

def wideBatchBytes : List UInt8 := [18, 136, 128, 3] ++ wideRowBytes

/-- The protobuf encoding of the messages of a result whose only row is one long text. -/
def wideCodec : Wire.Codec where
  encodeSchema schema := if schema = Results.smallSchema then Results.smallSchemaBytes else []
  decodeSchema bytes :=
    if bytes = Results.smallSchemaBytes then some Results.smallSchema
    else if bytes = [] then some { columns := [] }
    else none
  encodeBatch batch := if batch = wideBatch then wideBatchBytes else []
  decodeBatch bytes :=
    if bytes = wideBatchBytes then some wideBatch
    else if bytes = [] then some { startRowOffset := 0, rows := [] }
    else none
  encodeRow row := if row = wideRow then wideRowBytes else []

/-- The SHA-256 digests of its two frames. -/
def wideHash : Results.Sha256 where
  digest bytes :=
    if bytes = Results.frameOf wideBatchBytes then
      [63, 4, 249, 86, 153, 52, 17, 41, 154, 27, 94, 181, 254, 131, 228, 213,
        212, 95, 68, 76, 92, 195, 164, 177, 119, 143, 4, 97, 87, 40, 229, 139]
    else Results.smallHash.digest bytes
  length_digest bytes := by
    split
    · rfl
    · exact Results.smallHash.length_digest bytes

theorem limited_wideConfig : 0 < 2 ^ 30 ∧ 2 ^ 30 ≤ Storage.u64Max := by decide

def wideConfig : StoreConfig where
  codec := wideCodec
  hash := wideHash
  maxRetainedBytes := 2 ^ 30
  limited := limited_wideConfig

def wideResult : StoredResult :=
  oneBatchResult wideConfig Results.smallSchemaBytes wideBatchBytes 1

def wideWorld : InspectionWorld :=
  oneBatchWorld wideConfig Results.smallSchemaBytes wideBatchBytes 1

theorem length_wideRowBytes : wideRowBytes.length = 49160 := by
  rw [wideRowBytes, List.length_append, List.length_replicate]
  rfl

theorem length_wideBatchBytes : wideBatchBytes.length = 49164 := by
  rw [wideBatchBytes, List.length_append, length_wideRowBytes]
  rfl

theorem rowLength_wideRow : wideCodec.rowLength wideRow = 49160 := by
  unfold Wire.Codec.rowLength wideCodec
  dsimp only
  rw [if_pos rfl, length_wideRowBytes]

theorem batchLength_wideBatch : wideCodec.batchLength wideBatch = 49164 := by
  unfold Wire.Codec.batchLength wideCodec
  dsimp only
  rw [if_pos rfl, length_wideBatchBytes]

theorem decodeBatch_wideBatchBytes : wideCodec.decodeBatch wideBatchBytes = some wideBatch := by
  unfold wideCodec
  dsimp only
  rw [if_pos rfl]

theorem wideBatch_within : RowsWithin wideCodec [wideBatch] := by
  intro batch hbatch row hrow
  obtain rfl := List.mem_singleton.mp hbatch
  obtain rfl : row = wideRow := List.mem_singleton.mp hrow
  rw [rowLength_wideRow, batchLength_wideBatch]
  decide

theorem serves_wideWorld : Serves wideConfig oneBatchOwner oneBatchHandle wideResult
    Results.smallSchema [wideBatch] wideWorld := by
  have hlength : 0 < wideBatchBytes.length ∧ wideBatchBytes.length ≤ Wire.maxBatchBytes := by
    rw [length_wideBatchBytes]
    decide
  have hvalid : Results.ValidBatch wideConfig.codec Results.smallSchema.columns.length 0 wideBatch :=
    { start := rfl
      nonempty := List.cons_ne_nil _ _
      rows := by decide
      bytes := by
        have hbatch : wideConfig.codec.batchLength wideBatch = 49164 := batchLength_wideBatch
        rw [hbatch]
        decide
      widths := by
        intro row hrow
        obtain rfl : row = wideRow := List.mem_singleton.mp hrow
        rfl }
  exact serves_oneBatchWorld (holds_oneBatchStore (by decide) hlength rfl (by decide)
    decodeBatch_wideBatchBytes hvalid rfl)

theorem shows_wideBatch : Shows noFloats Results.smallSchema [wideBatch] [shownColumn]
    [shownRow wideText] where
  columns := rfl
  rows := rfl

theorem textBytes_replicate (count : Nat) :
    textBytes (String.ofList (List.replicate count 'a')) = count + 2 := by
  rw [textBytes_of_single, List.length_replicate]
  intro c hc
  rw [List.eq_of_mem_replicate hc]
  decide

theorem textBytes_wideText : textBytes wideText = 49154 := by
  unfold wideText
  rw [textBytes_replicate]

theorem wideRow_not_fits : ¬ (rowAnswer oneBatchHandle.id [shownColumn]
    (shownRow wideText) 0 count total).Previewable :=
  not_previewable_rowAnswer textBytes_wideText.ge

/-- Asked for the first row of a result with a row of 48 KiB, the tool answers with no rows and the
same offset, says that there are more, and asking on never ends. -/
theorem wideRow_repeats :
    (∃ inspection, inspectResult wideConfig noFloats oneBatchOwner wideWorld
        { handleId := oneBatchHandle.id, offset := some "0", maxRows := some 1 } = .ok inspection ∧
      inspection.rows = [] ∧ inspection.nextOffset = "0" ∧ inspection.hasMore = true) ∧
    ¬ ∃ contents, (rowsOf [wideBatch]).mapM (Contract.resultRow noFloats) = .ok contents ∧
      ∀ limits, (∀ turn, AdmissibleRows (limits turn)) →
        PagesThrough wideConfig noFloats oneBatchOwner (fun _ => wideWorld) oneBatchHandle.id limits
          contents := by
  have hone : AdmissibleRows 1 := ⟨by decide, by decide⟩
  have hrow : [shownRow wideText][0]? = some (shownRow wideText) := rfl
  constructor
  · rw [serves_wideWorld.firstCall_eq wideBatch_within rfl hone]
    exact answer_of_not_fits serves_wideWorld wideBatch_within shows_wideBatch hone hrow
      wideRow_not_fits (Contract.textBytes_uuidText 7).le
  · rintro ⟨contents, hcontents, hpages⟩
    obtain ⟨fuel, answers, hanswers, -⟩ := hpages (fun _ => 1) (fun _ => hone)
    exact wideRow_not_fits (fits_of_inspectAll (fun _ => serves_wideWorld) wideBatch_within rfl
      shows_wideBatch (fun _ => hone) hrow (fun _ _ => rfl) hanswers)

end Chat2DB.Agent.Inspection
