import Chat2DB.Agent.ResultInspection

/-! # What an answer keeps of a page

An answer keeps a row as soon as the first row of its page fits with all the
columns. Where it does not fit, the answer has no rows and points back at its
own offset. In any case the answer is short enough for the model.
-/

namespace Chat2DB.Agent.Inspection

open Contract (FloatText ResultColumn ResultPage ResultRow parseUnsigned uuidText)
open JsonBytes
open Outcome
open Results (Holds RowsWithin StoreConfig StoredResult rowsOf pageRows)
open Storage (AgentResultHandle)

variable {row : ResultRow}

/-! ## Lengths of answers -/

namespace ResultInspection

theorem serializedBytes_eq (inspection : ResultInspection) :
    inspection.serializedBytes =
      104 + textBytes inspection.handleId + textBytes inspection.offset +
        textBytes inspection.nextOffset +
        arrayBytes (inspection.columns.map Contract.columnBytes) +
        boolBytes inspection.columnsTruncated +
        arrayBytes (inspection.rows.map ResultRow.jsonBytes) +
        boolBytes inspection.rowsTruncated + boolBytes inspection.hasMore := by
  have hnames : textBytes "handleId" = 10 ∧ textBytes "offset" = 8 ∧ textBytes "nextOffset" = 12 ∧
      textBytes "columns" = 9 ∧ textBytes "columnsTruncated" = 18 ∧ textBytes "rows" = 6 ∧
      textBytes "rowsTruncated" = 15 ∧ textBytes "hasMore" = 9 := by decide +kernel
  obtain ⟨hhandleId, hoffset, hnextOffset, hcolumns, hcut, hrows, hrowsCut, hmore⟩ := hnames
  unfold serializedBytes objectBytes
  rw [arrayBytes]
  simp only [List.map_cons, List.map_nil, List.sum_cons, List.sum_nil, List.length_cons,
    List.length_nil, hhandleId, hoffset, hnextOffset, hcolumns, hcut, hrows, hrowsCut, hmore]
  omega

theorem Previewable.take {inspection : ResultInspection} (hfits : inspection.Previewable)
    (count : Nat) : Previewable { inspection with rows := inspection.rows.take count } := by
  have hrows : arrayBytes ((inspection.rows.take count).map ResultRow.jsonBytes) ≤
      arrayBytes (inspection.rows.map ResultRow.jsonBytes) := by
    rw [List.map_take]
    exact arrayBytes_take_le _ _
  unfold Previewable at hfits ⊢
  rw [serializedBytes_eq] at hfits ⊢
  dsimp only
  omega

theorem Previewable.cut {inspection : ResultInspection} (hfits : inspection.Previewable)
    (hcolumnsTruncated : inspection.columnsTruncated = false)
    (hrowsTruncated : inspection.rowsTruncated = false) {cut : Bool} {nextOffset : String}
    (hnext : textBytes nextOffset ≤ textBytes inspection.nextOffset) :
    Previewable { inspection with
      nextOffset, rowsTruncated := cut, hasMore := inspection.hasMore || cut } := by
  have hflag : boolBytes cut ≤ boolBytes false := by cases cut <;> decide
  have hmore : boolBytes (inspection.hasMore || cut) ≤ boolBytes inspection.hasMore := by
    cases inspection.hasMore <;> cases cut <;> decide
  unfold Previewable at hfits ⊢
  rw [serializedBytes_eq] at hfits ⊢
  rw [hcolumnsTruncated, hrowsTruncated] at hfits
  dsimp only
  rw [hcolumnsTruncated]
  omega

end ResultInspection

theorem textBytes_toString_u64 {number : Nat} (hnumber : number ≤ Storage.u64Max) :
    textBytes (toString number) ≤ 22 := by
  have hlength : (Nat.toDigits 10 number).length ≤ 20 :=
    (Nat.length_toDigits_le_iff (by decide) (by decide)).mpr
      (Nat.lt_of_le_of_lt hnumber (by decide))
  rw [textBytes_toString]
  exact Nat.add_le_add_right hlength 2

theorem textBytes_behind (offset count : Nat) : textBytes (behind offset count) ≤ 22 :=
  textBytes_toString_u64 (Nat.min_le_right _ _)

theorem behind_eq {offset count : Nat} (hrange : offset + count ≤ Storage.u64Max) :
    behind offset count = toString (offset + count) := by
  rw [behind, Nat.min_eq_left hrange]

theorem textBytes_behind_mono {offset kept count : Nat} (hkept : kept ≤ count) :
    textBytes (behind offset kept) ≤ textBytes (behind offset count) := by
  apply textBytes_toString_mono
  omega

/-! ## What an answer keeps of a page -/

section Bounded

variable {handleId : String} {page : ResultPage} {offset : Nat}

/-- The answer that holds the first row of a page only fits with all its columns. -/
def FirstRowFits (handleId : String) (page : ResultPage) : Prop :=
  ResultInspection.Previewable
    { wholeInspection handleId page with rows := page.rows.take 1 }

/-- A page with all its columns and the rows that are kept of it. -/
def keptInspection (handleId : String) (page : ResultPage) (kept : Nat) : ResultInspection :=
  { wholeInspection handleId page with
    rows := page.rows.take kept
    nextOffset := behind ((parseUnsigned Storage.u64Max page.offset).getD 0) kept
    rowsTruncated := decide (kept < page.rows.length)
    hasMore := page.hasMore || decide (kept < page.rows.length) }

theorem boundedInspection_of_fits (hne : page.rows ≠ []) (hfits : FirstRowFits handleId page) :
    ∃ kept, 0 < kept ∧ kept ≤ page.rows.length ∧
      boundedInspection handleId page = keptInspection handleId page kept ∧
      (keptInspection handleId page kept).Previewable := by
  have hstays := @Fill.trim_ne_nil _ (fun rows => ResultInspection.Previewable
    { wholeInspection handleId page with rows }) _ _ hne hfits
  obtain ⟨kept, hkept, hrows, hpreview⟩ := @Fill.trim_eq_take _ (fun rows =>
    ResultInspection.Previewable { wholeInspection handleId page with rows }) _ page.rows
  have hpositive : kept ≠ 0 := by
    rintro rfl
    exact hstays (by rw [hrows, List.take_zero])
  have hshort := hpreview hpositive
  have hlength : (page.rows.take kept).length = kept := by
    rw [List.length_take, Nat.min_eq_left hkept]
  have hcolumns : Fill.trim (fun columns => ResultInspection.Previewable
      { wholeInspection handleId page with rows := page.rows.take kept, columns }) page.columns =
      page.columns := Fill.trim_of_fits hshort
  refine ⟨kept, Nat.pos_of_ne_zero hpositive, hkept, ?_, ?_⟩
  · unfold boundedInspection
    simp only [hrows, hcolumns, hlength, Nat.lt_irrefl, decide_false]
    rfl
  · exact hshort.cut rfl rfl (textBytes_behind_mono hkept)

theorem boundedInspection_of_not_fits (hne : page.rows ≠ [])
    (hoffset : parseUnsigned Storage.u64Max page.offset = some offset)
    (hrange : offset ≤ Storage.u64Max) (hfits : ¬ FirstRowFits handleId page) :
    (boundedInspection handleId page).rows = [] ∧
      (boundedInspection handleId page).nextOffset = toString offset ∧
      (boundedInspection handleId page).hasMore = true := by
  have hrows : Fill.trim (fun rows => ResultInspection.Previewable
      { wholeInspection handleId page with rows }) page.rows = [] :=
    Fill.trim_eq_nil (fun _ hlonger => hlonger.take 1) hfits
  have hpositive : 0 < page.rows.length := List.length_pos_iff.mpr hne
  unfold boundedInspection
  simp only [hrows, hoffset, Option.getD_some, List.length_nil, hpositive, decide_true,
    Bool.or_true, true_and, and_true]
  exact behind_eq hrange

/-- An answer without rows fits, since its columns are cut off as well. -/
theorem boundedInspection_of_nil (hrows : Fill.trim (fun rows => ResultInspection.Previewable
      { wholeInspection handleId page with rows }) page.rows = [])
    (hhandle : textBytes handleId ≤ 38) (hoffset : textBytes page.offset ≤ 22) :
    (boundedInspection handleId page).Previewable := by
  obtain ⟨kept, -, hcolumns, hpreview⟩ := @Fill.trim_eq_take _ (fun columns =>
    ResultInspection.Previewable { wholeInspection handleId page with rows := [], columns })
    _ page.columns
  have hflag : ∀ flag, boolBytes flag ≤ boolBytes false := by decide
  have hcut := hflag (decide ((page.columns.take kept).length < page.columns.length))
  have hrowsCut := hflag (decide (0 < page.rows.length))
  have hmore : boolBytes (page.hasMore || decide (0 < page.rows.length)) ≤
      boolBytes page.hasMore := by
    cases page.hasMore
    · exact hflag _
    · exact Nat.le_refl _
  have hfalse := hflag page.hasMore
  have hnext := textBytes_behind ((parseUnsigned Storage.u64Max page.offset).getD 0) 0
  have hnextMono := @textBytes_behind_mono ((parseUnsigned Storage.u64Max page.offset).getD 0) _ _
    (Nat.zero_le page.rows.length)
  have hempties : arrayBytes ([] : List Nat) = 2 ∧ boolBytes false = 5 := by decide
  have hlimit : modelPreviewBytes = 49152 := rfl
  unfold boundedInspection
  simp only [hrows, hcolumns, List.length_nil]
  unfold ResultInspection.Previewable
  rw [ResultInspection.serializedBytes_eq]
  by_cases hnone : kept = 0
  · -- Nothing but the handle, two offsets and three flags is left.
    subst hnone
    simp only [wholeInspection, List.take_zero, List.map_nil, List.length_nil] at hcut ⊢
    omega
  · have hfits := hpreview hnone
    unfold ResultInspection.Previewable at hfits
    rw [ResultInspection.serializedBytes_eq] at hfits
    simp only [wholeInspection, List.map_nil] at hfits ⊢
    omega

theorem boundedInspection_of_empty (hempty : page.rows = []) :
    Fill.trim (fun rows => ResultInspection.Previewable
        { wholeInspection handleId page with rows }) page.rows = [] ∧
      (boundedInspection handleId page).rows = [] ∧
      (boundedInspection handleId page).hasMore = page.hasMore := by
  have hrows : Fill.trim (fun rows => ResultInspection.Previewable
      { wholeInspection handleId page with rows }) page.rows = [] := by
    rw [hempty]
    rfl
  refine ⟨hrows, hrows, ?_⟩
  unfold boundedInspection
  simp only [hempty, List.length_nil, Nat.not_lt_zero, decide_false, Bool.or_false]

theorem previewable_boundedInspection (hhandle : textBytes handleId ≤ 38)
    (hoffset : textBytes page.offset ≤ 22) : (boundedInspection handleId page).Previewable := by
  by_cases hempty : page.rows = []
  · exact boundedInspection_of_nil (boundedInspection_of_empty hempty).1 hhandle hoffset
  · by_cases hfits : FirstRowFits handleId page
    · obtain ⟨kept, -, -, hbounded, hpreview⟩ := boundedInspection_of_fits hempty hfits
      rw [hbounded]
      exact hpreview
    · refine boundedInspection_of_nil ?_ hhandle hoffset
      exact Fill.trim_eq_nil (fun _ hlonger => hlonger.take 1) hfits

end Bounded

/-! ## One call of the tool -/

variable {config : StoreConfig} {floats : FloatText} {owner : Owner} {handle : AgentResultHandle}
  {result : StoredResult} {schema : Wire.QueryStarted} {batches : List Wire.RowBatch}
  {world : InspectionWorld} {offset maxRows : Nat}

/-- The tool finds the handle of its run and the result behind it, both alive. -/
structure Serves (config : StoreConfig) (owner : Owner) (handle : AgentResultHandle)
    (result : StoredResult) (schema : Wire.QueryStarted) (batches : List Wire.RowBatch)
    (world : InspectionWorld) : Prop where
  handleFound : Rows.find AgentResultHandle.id handle.id world.db.resultHandles = some handle
  owned : handle.sessionId = owner.sessionId ∧ handle.runId = owner.runId
  live : ∃ timestamp, world.env.clock = .ok timestamp ∧ timestamp < handle.expiresAtMs ∧
    timestamp < result.expiresAtMs
  resultFound : world.loadStoredResult handle.resultId = some result
  holds : Holds config world.store result schema batches
  resultLive : world.timestampMs < result.expiresAtMs

def pageRequest (offset maxRows : Nat) : Results.PageRequest :=
  { offset, maxRows, maxBytes := Results.maxResultPageBytes }

def AdmissibleRows (maxRows : Nat) : Prop :=
  0 < maxRows ∧ maxRows ≤ maxInspectionRows

theorem AdmissibleRows.admitted (hrows : AdmissibleRows maxRows) (offset : Nat) :
    (pageRequest offset maxRows).Admitted := by
  have hbytes : Results.minResultPageBytes ≤ Results.maxResultPageBytes := by decide
  refine ⟨⟨hrows.1, Nat.le_trans hrows.2 ?_⟩, hbytes, Nat.le_refl _⟩
  decide

/-- What the tool answers about a stored result. -/
def answer (config : StoreConfig) (floats : FloatText) (handleId : String) (result : StoredResult)
    (schema : Wire.QueryStarted) (rows : List Wire.JdbcRow) (offset maxRows : Nat) :
    Except ToolExecutionError ResultInspection := do
  let page ← (Contract.resultPage floats
    (result.requestedPage config schema rows (pageRequest offset maxRows))).mapError toolFailure
  let inspection := boundedInspection handleId page
  rejectIf (inspection.serializedBytes > maxToolOutputContentBytes) internalToolError
  pure inspection

theorem Serves.resolve (hserves : Serves config owner handle result schema batches world) :
    (Storage.transact (Storage.resolveAgentResultHandle world.env world.retainedResults handle.id
      owner.sessionId owner.runId) world.db).1 = .ok handle := by
  obtain ⟨timestamp, hclock, hhandle, hresult⟩ := hserves.live
  have hfound := hserves.resultFound
  have hlive : (Storage.liveResult world.retainedResults handle.resultId timestamp).isNone ≠ true := by
    obtain ⟨hmem, hid⟩ : result ∈ world.store.results ∧ uuidText result.id = handle.resultId := by
      refine ⟨List.mem_of_find?_eq_some hfound, ?_⟩
      simpa using List.find?_some hfound
    unfold Storage.liveResult
    rw [ne_eq, Option.isNone_iff_eq_none, List.find?_eq_none]
    intro hnone
    have hdead := hnone _ (List.mem_map_of_mem hmem)
    simp only [hid, hserves.holds.complete, hresult] at hdead
    simp at hdead
  unfold Storage.transact Storage.resolveAgentResultHandle
  simp only [hclock, hserves.handleFound, hserves.owned, Option.filter_some, Outcome.orThrow,
    decide_true, Bool.and_self, if_true, bind, Except.bind]
  rw [if_neg (by rintro (hexpired | hdead); exacts [absurd hhandle (by omega), hlive hdead])]
  rfl

/-- A call answers about the stored result, whatever else the tables hold. -/
theorem Serves.inspectResult_eq (hserves : Serves config owner handle result schema batches world)
    (hwithin : RowsWithin config.codec batches) (hid : Storage.isBlank handle.id = false)
    (hrows : AdmissibleRows maxRows) (hoffset : offset ≤ Storage.u64Max) :
    inspectResult config floats owner world
      { handleId := handle.id, offset := some (toString offset), maxRows := some maxRows } =
      answer config floats handle.id result schema (rowsOf batches) offset maxRows := by
  have hread := hserves.holds.readResultPageAt_eq hwithin hserves.resultLive
    (hrows.admitted offset)
  have hmaxRows : maxRows ≤ Contract.u32Max :=
    Nat.le_trans hrows.2 (by decide)
  have hbytes : Results.maxResultPageBytes ≤ Storage.u64Max := by decide
  have hpage : resultPage config floats world handle.resultId
      { offset := toString offset
        maxRows := toString maxRows
        maxBytes := toString Results.maxResultPageBytes } =
      Contract.resultPage floats
        (result.requestedPage config schema (rowsOf batches) (pageRequest offset maxRows)) := by
    unfold resultPage Contract.parseU64 Contract.parseU32 readResultPage
    rw [Contract.parseUnsigned_toString hoffset, Contract.parseUnsigned_toString hmaxRows,
      Contract.parseUnsigned_toString hbytes, hserves.resultFound]
    unfold pageRequest at hread ⊢
    simp only [Outcome.orThrow, bind, Except.bind, hread, Except.mapError]
  unfold inspectResult answer
  have hnotBlank : ¬ Storage.isBlank handle.id = true := by simp [hid]
  have hin : ¬ (maxRows = 0 ∨ maxRows > maxInspectionRows) := by
    have := hrows.1
    have := hrows.2
    omega
  simp only [Option.getD_some, Outcome.rejectIf, if_neg hnotBlank, if_neg hin,
    Contract.parseUnsigned_toString hoffset, Outcome.orThrow, hserves.resolve, hpage,
    Except.mapError, bind, Except.bind]

/-! ## Answers about a shown result -/

/-- The columns and rows of a result as clients see them. -/
structure Shows (floats : FloatText) (schema : Wire.QueryStarted) (batches : List Wire.RowBatch)
    (columns : List ResultColumn) (contents : List ResultRow) : Prop where
  columns : schema.columns.mapM Contract.resultColumn = .ok columns
  rows : (rowsOf batches).mapM (Contract.resultRow floats) = .ok contents

/-- The number of rows of the page behind a call. -/
def pageLength (config : StoreConfig) (rows : List Wire.JdbcRow) (offset maxRows : Nat) : Nat :=
  (pageRows config (pageRequest offset maxRows) rows).length

/-- The answer with one row of a page of some rows, and the flags that it is measured with. -/
def rowAnswer (handleId : String) (columns : List ResultColumn) (row : ResultRow)
    (offset count total : Nat) : ResultInspection :=
  { handleId
    offset := toString offset
    nextOffset := toString (offset + count)
    columns
    columnsTruncated := false
    rows := [row]
    rowsTruncated := false
    hasMore := decide (offset + count < total) }

variable {columns : List ResultColumn} {contents : List ResultRow} {handleId : String}

theorem Shows.length_eq (hshows : Shows floats schema batches columns contents) :
    contents.length = (rowsOf batches).length :=
  (Outcome.forall₂_of_mapM hshows.rows).length_eq.symm

/-- The page behind a call as clients see it. -/
def shownPage (config : StoreConfig) (result : StoredResult) (schema : Wire.QueryStarted)
    (rows : List Wire.JdbcRow) (columns : List ResultColumn) (contents : List ResultRow)
    (offset maxRows : Nat) : ResultPage :=
  { metadata := Contract.resultMetadata
      (result.requestedPage config schema rows (pageRequest offset maxRows)).metadata
    columns
    offset := toString offset
    rows := (contents.drop offset).take (pageLength config rows offset maxRows)
    hasMore := decide (offset + pageLength config rows offset maxRows < result.rowCount) }

theorem Shows.resultPage_eq (hshows : Shows floats schema batches columns contents) :
    Contract.resultPage floats
        (result.requestedPage config schema (rowsOf batches) (pageRequest offset maxRows)) =
      .ok (shownPage config result schema (rowsOf batches) columns contents offset maxRows) := by
  have hslice : pageRows config (pageRequest offset maxRows) (rowsOf batches) =
      ((rowsOf batches).drop offset).take (pageLength config (rowsOf batches) offset maxRows) :=
    Fill.fill_eq_take
  have hrows : (pageRows config (pageRequest offset maxRows) (rowsOf batches)).mapM
      (Contract.resultRow floats) =
      .ok ((contents.drop offset).take (pageLength config (rowsOf batches) offset maxRows)) := by
    rw [hslice]
    apply Outcome.mapM_of_forall₂
    exact List.forall₂_take _ (List.forall₂_drop _ (Outcome.forall₂_of_mapM hshows.rows))
  unfold Contract.resultPage
  simp only [Results.StoredResult.requestedPage, hshows.columns, hrows, bind, Except.bind]
  rfl

theorem Shows.answer_eq (hshows : Shows floats schema batches columns contents)
    (hhandle : textBytes handleId ≤ 38) (hoffset : offset ≤ Storage.u64Max) :
    answer config floats handleId result schema (rowsOf batches) offset maxRows =
        .ok (boundedInspection handleId
          (shownPage config result schema (rowsOf batches) columns contents offset maxRows)) ∧
      (boundedInspection handleId (shownPage config result schema (rowsOf batches) columns contents
        offset maxRows)).Previewable := by
  have hpreview := @previewable_boundedInspection handleId (shownPage config result schema
    (rowsOf batches) columns contents offset maxRows) hhandle (textBytes_toString_u64 hoffset)
  have hshort : ¬ (boundedInspection handleId (shownPage config result schema (rowsOf batches)
      columns contents offset maxRows)).serializedBytes > maxToolOutputContentBytes :=
    Nat.not_lt.mpr (Nat.le_trans hpreview (by decide))
  refine ⟨?_, hpreview⟩
  unfold answer
  rw [hshows.resultPage_eq]
  simp only [Except.mapError, bind, Except.bind, Outcome.rejectIf, if_neg hshort]
  rfl

theorem Serves.pageLength_bounds
    (hserves : Serves config owner handle result schema batches world)
    (hwithin : RowsWithin config.codec batches) (hrows : AdmissibleRows maxRows)
    (hoffset : offset < (rowsOf batches).length) :
    0 < pageLength config (rowsOf batches) offset maxRows ∧
      pageLength config (rowsOf batches) offset maxRows ≤ maxRows ∧
      offset + pageLength config (rowsOf batches) offset maxRows ≤ (rowsOf batches).length := by
  have hpage := hserves.holds.pageOf (pageRequest offset maxRows)
  have hadmitted := hrows.admitted offset
  refine ⟨hserves.holds.page_pos hwithin hadmitted hoffset hpage, hpage.fits.number, ?_⟩
  have havailable : pageLength config (rowsOf batches) offset maxRows ≤
      ((rowsOf batches).drop offset).length := hpage.fits.available
  rw [List.length_drop] at havailable
  omega

theorem Serves.length_rows_le
    (hserves : Serves config owner handle result schema batches world) :
    (rowsOf batches).length ≤ Storage.u64Max := by
  rw [← hserves.holds.rowCount_eq]
  exact Nat.le_trans hserves.holds.rows (by decide)

section Answers

variable (hserves : Serves config owner handle result schema batches world)
  (hwithin : RowsWithin config.codec batches)
  (hshows : Shows floats schema batches columns contents) (hrows : AdmissibleRows maxRows)
include hserves hwithin hshows hrows

theorem rows_shownPage (hoffset : offset < contents.length) :
    (shownPage config result schema (rowsOf batches) columns contents offset maxRows).rows.length =
      pageLength config (rowsOf batches) offset maxRows := by
  rw [hshows.length_eq] at hoffset
  obtain ⟨-, -, hend⟩ := hserves.pageLength_bounds hwithin hrows hoffset
  unfold shownPage
  rw [List.length_take, List.length_drop, hshows.length_eq]
  omega

theorem firstRowFits_iff (hrow : contents[offset]? = some row) :
    FirstRowFits handleId
        (shownPage config result schema (rowsOf batches) columns contents offset maxRows) ↔
      (rowAnswer handleId columns row offset (pageLength config (rowsOf batches) offset maxRows)
        (rowsOf batches).length).Previewable := by
  obtain ⟨hoffset, hget⟩ := List.getElem?_eq_some_iff.mp hrow
  have hlength := rows_shownPage hserves hwithin hshows hrows hoffset
  have hbounds := hserves.pageLength_bounds hwithin hrows (hshows.length_eq ▸ hoffset)
  have hrange := hserves.length_rows_le
  have hparse : parseUnsigned Storage.u64Max (toString offset) = some offset :=
    Contract.parseUnsigned_toString (by omega)
  have hfirst : (shownPage config result schema (rowsOf batches) columns contents offset
      maxRows).rows.take 1 = [row] := by
    unfold shownPage
    rw [List.take_take, Nat.min_eq_left hbounds.1, List.drop_eq_getElem_cons hoffset, hget]
    rfl
  unfold FirstRowFits
  rw [hfirst]
  unfold wholeInspection
  rw [hlength]
  unfold shownPage rowAnswer
  simp only [hparse, Option.getD_some, hserves.holds.rowCount_eq]
  rw [behind_eq (by omega)]

/-- Where the first row of the page fits, the answer has a front of the rows from its offset on,
and says that there are more exactly when it does not reach the end. -/
theorem answer_of_fits (hrow : contents[offset]? = some row)
    (hfits : (rowAnswer handleId columns row offset
      (pageLength config (rowsOf batches) offset maxRows) (rowsOf batches).length).Previewable) :
    ∃ kept inspection, 0 < kept ∧ kept ≤ maxRows ∧ offset + kept ≤ contents.length ∧
      answer config floats handleId result schema (rowsOf batches) offset maxRows =
        .ok inspection ∧
      inspection.rows = (contents.drop offset).take kept ∧
      inspection.nextOffset = toString (offset + kept) ∧
      (inspection.hasMore = true ↔ offset + kept < contents.length) ∧
      inspection.Previewable := by
  obtain ⟨hoffset, -⟩ := List.getElem?_eq_some_iff.mp hrow
  have hlength := rows_shownPage hserves hwithin hshows hrows hoffset
  have htotal := hshows.length_eq
  obtain ⟨hpositive, hmaxRows, hend⟩ :=
    hserves.pageLength_bounds hwithin hrows (htotal ▸ hoffset)
  have hrange := hserves.length_rows_le
  have hparse : parseUnsigned Storage.u64Max (toString offset) = some offset :=
    Contract.parseUnsigned_toString (by omega)
  have hne : (shownPage config result schema (rowsOf batches) columns contents offset
      maxRows).rows ≠ [] := List.length_pos_iff.mp (by omega)
  obtain ⟨kept, hkept, hkeptLength, hbounded, hpreview⟩ := boundedInspection_of_fits hne
    ((firstRowFits_iff hserves hwithin hshows hrows hrow).mpr hfits)
  rw [hlength] at hkeptLength
  refine ⟨kept, keptInspection handleId (shownPage config result schema (rowsOf batches) columns
    contents offset maxRows) kept, hkept, Nat.le_trans hkeptLength hmaxRows, by omega, ?_, ?_, ?_,
    ?_, hpreview⟩
  · have hshort : ¬ (keptInspection handleId (shownPage config result schema (rowsOf batches)
        columns contents offset maxRows) kept).serializedBytes > maxToolOutputContentBytes :=
      Nat.not_lt.mpr (Nat.le_trans hpreview (by decide))
    unfold answer
    rw [hshows.resultPage_eq]
    simp only [Except.mapError, bind, Except.bind, hbounded, Outcome.rejectIf, if_neg hshort]
    rfl
  · unfold keptInspection shownPage
    rw [List.take_take, Nat.min_eq_left hkeptLength]
  · unfold keptInspection
    have hoffsetText : (shownPage config result schema (rowsOf batches) columns contents offset
        maxRows).offset = toString offset := rfl
    simp only [hoffsetText, hparse, Option.getD_some]
    exact behind_eq (by omega)
  · have hmore : (keptInspection handleId (shownPage config result schema (rowsOf batches) columns
        contents offset maxRows) kept).hasMore =
        (decide (offset + pageLength config (rowsOf batches) offset maxRows < result.rowCount) ||
          decide (kept < pageLength config (rowsOf batches) offset maxRows)) := by
      unfold keptInspection
      dsimp only
      rw [hlength]
      rfl
    rw [hmore, Bool.or_eq_true, decide_eq_true_iff, decide_eq_true_iff, htotal,
      hserves.holds.rowCount_eq]
    omega

theorem answer_of_not_fits (hrow : contents[offset]? = some row)
    (hfits : ¬ (rowAnswer handleId columns row offset
      (pageLength config (rowsOf batches) offset maxRows) (rowsOf batches).length).Previewable)
    (hhandle : textBytes handleId ≤ 38) :
    ∃ inspection, answer config floats handleId result schema (rowsOf batches) offset maxRows =
        .ok inspection ∧
      inspection.rows = [] ∧ inspection.nextOffset = toString offset ∧
      inspection.hasMore = true := by
  obtain ⟨hoffset, -⟩ := List.getElem?_eq_some_iff.mp hrow
  have hlength := rows_shownPage hserves hwithin hshows hrows hoffset
  have htotal := hshows.length_eq
  have hbounds := hserves.pageLength_bounds hwithin hrows (htotal ▸ hoffset)
  have hrange := hserves.length_rows_le
  have hne : (shownPage config result schema (rowsOf batches) columns contents offset
      maxRows).rows ≠ [] := List.length_pos_iff.mp (by omega)
  refine ⟨_, (hshows.answer_eq hhandle (by omega)).1, ?_⟩
  apply boundedInspection_of_not_fits hne (Contract.parseUnsigned_toString (by omega)) (by omega)
  rw [firstRowFits_iff hserves hwithin hshows hrows hrow]
  exact hfits

end Answers

theorem answer_of_empty (hholds : Holds config world.store result schema batches)
    (hshows : Shows floats schema batches columns contents) (hempty : contents = [])
    (hhandle : textBytes handleId ≤ 38) (hoffset : offset ≤ Storage.u64Max) :
    ∃ inspection, answer config floats handleId result schema (rowsOf batches) offset maxRows =
        .ok inspection ∧
      inspection.rows = [] ∧ inspection.hasMore = false ∧ inspection.Previewable := by
  have hcount : result.rowCount = 0 := by
    rw [hholds.rowCount_eq, ← hshows.length_eq, hempty, List.length_nil]
  have hnone : (shownPage config result schema (rowsOf batches) columns contents offset
      maxRows).rows = [] := by
    unfold shownPage
    rw [hempty, List.drop_nil, List.take_nil]
  obtain ⟨-, hrows, hmore⟩ := boundedInspection_of_empty hnone
  obtain ⟨hanswer, hpreview⟩ := hshows.answer_eq hhandle hoffset
  refine ⟨_, hanswer, hrows, ?_, hpreview⟩
  · rw [hmore]
    unfold shownPage
    simp only [hcount, Nat.not_lt_zero, decide_false]

end Chat2DB.Agent.Inspection
