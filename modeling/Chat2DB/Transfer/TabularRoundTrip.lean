import Chat2DB.Transfer.Tabular

/-! # Tables read back

Cells are read as what they were written from. A table is read back from a file that is not
refused for its size, from a CSV file if it has not too many cells, and from a spreadsheet
unless a column has a name that is enveloped as a cell would be.
-/

namespace Chat2DB.Transfer

open Outcome
open Sql (AppError)

variable {width : Nat} {rows : List (List TabularValue)} {columns : List (List Char)}
  {file : TabularFile} {values : List TabularValue} {grid : List (List (List Char))}
  {format : TransferFileFormat}

/-! ## Cells -/

theorem fromUtf8_utf8Bytes (text : List Char) : fromUtf8 (utf8Bytes text) = some text := by
  have hdecode : (utf8Bytes text).toByteArray.utf8Decode? = some text.toArray :=
    List.utf8Decode?_utf8Encode
  rw [fromUtf8, hdecode, Option.map_some, List.toList_toArray]

theorem stripPrefix_append (before rest : List Char) :
    stripPrefix before (before ++ rest) = some rest := by
  have hprefix : before.isPrefixOf (before ++ rest) = true :=
    List.isPrefixOf_iff_prefix.2 (List.prefix_append before rest)
  rw [stripPrefix, if_pos hprefix, List.drop_left]

theorem stripPrefix_eq_none {before value : List Char} (hbefore : cellEncodingPrefix <+: before)
    (hvalue : ¬ cellEncodingPrefix.isPrefixOf value = true) : stripPrefix before value = none := by
  apply if_neg
  intro hprefix
  exact hvalue (List.isPrefixOf_iff_prefix.2
    (hbefore.trans (List.isPrefixOf_iff_prefix.1 hprefix)))

/-- What is written for a value is read as it. -/
theorem decode_encode (value : TabularValue) :
    decodeTabularValue (encodeTabularValue value) .chat2dbV1 = .ok value := by
  rw [decodeTabularValue, if_neg (by decide)]
  cases value with
  | null => exact if_pos rfl
  | bytes value =>
    have hne : bytesEncodingPrefix ++ Base64.encodeUrl value ≠ nullEncoding := by
      intro h
      have hcut := congrArg (List.take bytesEncodingPrefix.length) h
      rw [List.take_left] at hcut
      exact absurd hcut (by decide)
    rw [encodeTabularValue, if_neg hne, stripPrefix_append]
    dsimp only
    rw [Base64.decodeUrl_encodeUrl]
    rfl
  | text value =>
    rw [encodeTabularValue]
    by_cases hreserved : cellEncodingPrefix.isPrefixOf value = true
    · have hne : textEncodingPrefix ++ Base64.encodeUrl (utf8Bytes value) ≠ nullEncoding := by
        intro h
        have hcut := congrArg (List.take textEncodingPrefix.length) h
        rw [List.take_left] at hcut
        exact absurd hcut (by decide)
      have hbytes : stripPrefix bytesEncodingPrefix
          (textEncodingPrefix ++ Base64.encodeUrl (utf8Bytes value)) = none := by
        apply if_neg
        intro hprefix
        have htake := List.prefix_iff_eq_take.1 (List.isPrefixOf_iff_prefix.1 hprefix)
        have hshort := congrArg (List.take textEncodingPrefix.length) htake
        rw [List.take_take, Nat.min_eq_left (by decide), List.take_left] at hshort
        exact absurd hshort (by decide)
      rw [if_pos hreserved, if_neg hne, hbytes]
      dsimp only
      rw [stripPrefix_append]
      dsimp only
      rw [Base64.decodeUrl_encodeUrl]
      show orThrow ((fromUtf8 (utf8Bytes value)).map _) _ = _
      rw [fromUtf8_utf8Bytes]
      rfl
    · have hne : value ≠ nullEncoding := by
        rintro rfl
        exact hreserved (by decide)
      rw [if_neg hreserved, if_neg hne, stripPrefix_eq_none (by decide) hreserved]
      dsimp only
      rw [stripPrefix_eq_none (by decide) hreserved]
      exact if_neg hreserved

theorem length_le_utf8Bytes (text : List Char) : text.length ≤ (utf8Bytes text).length := by
  induction text with
  | nil => exact Nat.le_refl 0
  | cons c text ih =>
    have hsize := c.utf8Size_pos
    have hcons : utf8Bytes (c :: text) = String.utf8EncodeChar c ++ utf8Bytes text := rfl
    rw [hcons, List.length_append, List.length_cons, String.length_utf8EncodeChar]
    omega

/-- Two values are never written as one text. -/
theorem encode_injective {first second : TabularValue}
    (h : encodeTabularValue first = encodeTabularValue second) : first = second := by
  have hfirst := decode_encode first
  rw [h, decode_encode] at hfirst
  exact (Except.ok.inj hfirst).symm

/-- A text is written as it is unless it looks encoded. -/
theorem encode_text_eq_self_iff (value : List Char) :
    encodeTabularValue (.text value) = value ↔ ¬ cellEncodingPrefix.isPrefixOf value = true := by
  rw [encodeTabularValue]
  split
  next hreserved =>
    refine ⟨fun h => ?_, fun h => absurd hreserved h⟩
    have hlength := congrArg List.length h
    have hbytes := length_le_utf8Bytes value
    have hencoded := Base64.length_le_encodeUrl (utf8Bytes value)
    have hprefix : 0 < textEncodingPrefix.length := by decide
    rw [List.length_append] at hlength
    omega
  next hreserved => exact ⟨fun _ => hreserved, fun _ => rfl⟩

/-! ## CSV files -/

theorem enforceCellSize_eq_ok {value : List Char} :
    enforceCellSize value = .ok () ↔ Text.utf8Length value ≤ maxCellBytes := by
  rw [enforceCellSize, rejectIf_eq_ok, Nat.not_lt]

theorem enforceCellBudget_eq_ok {cells : Nat} :
    enforceCellBudget cells = .ok () ↔ cells ≤ maxTabularCells := by
  rw [enforceCellBudget, rejectIf_eq_ok, Nat.not_lt]

/-- A row that a sink takes: one value for each column, none of them too large. -/
def Fits (width : Nat) (row : List TabularValue) : Prop :=
  row.length = width ∧ ∀ value ∈ row, Text.utf8Length (encodeTabularValue value) ≤ maxCellBytes

theorem validateExportRow_eq_ok {row : List TabularValue} :
    validateExportRow (some width) row = .ok () ↔ Fits width row := by
  rw [validateExportRow, bind_eq_ok]
  simp only [rejectIf_eq_ok, not_not, Option.some.injEq]
  constructor
  · rintro ⟨⟨⟩, hwidth, hsizes⟩
    exact ⟨hwidth.symm, fun value hvalue => enforceCellSize_eq_ok.1 (forM_eq_ok.1 hsizes value hvalue)⟩
  · rintro ⟨hwidth, hsizes⟩
    exact ⟨(), hwidth.symm,
      forM_eq_ok.2 fun value hvalue => enforceCellSize_eq_ok.2 (hsizes value hvalue)⟩

/-- The records of a file are its rows, each encoded. -/
theorem foldlM_writeRow {rows : List (List TabularValue)} {sink last : CsvSink} {width : Nat}
    (hcolumns : sink.columns = some width)
    (hwrite : rows.foldlM CsvSink.writeRow sink = .ok last) :
    last.records = sink.records ++ rows.map (·.map encodeTabularValue) ∧
      ∀ row ∈ rows, Fits width row := by
  induction rows generalizing sink with
  | nil =>
    obtain rfl := (pure_eq_ok _ _).1 hwrite
    simp
  | cons row rows ih =>
    rw [List.foldlM_cons] at hwrite
    obtain ⟨next, hrow, hrest⟩ := (bind_eq_ok _ _ _).1 hwrite
    obtain ⟨⟨⟩, hfits, hnext⟩ := (bind_eq_ok _ _ _).1 hrow
    rw [hcolumns] at hfits
    have hsame := (pure_eq_ok _ _).1 hnext
    have hnextColumns : next.columns = some width := by
      rw [← hsame]
      exact hcolumns
    obtain ⟨hrecords, hrows⟩ := ih hnextColumns hrest
    refine ⟨?_, List.forall_mem_cons.2 ⟨validateExportRow_eq_ok.1 hfits, hrows⟩⟩
    rw [hrecords, ← hsame, List.map_cons, List.append_assoc]
    rfl

/-- A value that fits into a cell is read back. -/
theorem readValue_encode {value : TabularValue}
    (hsize : Text.utf8Length (encodeTabularValue value) ≤ maxCellBytes) :
    readValue .chat2dbV1 (encodeTabularValue value) = .ok value := by
  rw [readValue, enforceCellSize_eq_ok.2 hsize, ok_bind, decode_encode]

/-- The rows are read as long as the cells are not too many. -/
theorem readRecords_iff {cells : Nat}
    (hcells : cells ≤ maxTabularCells) (hrows : ∀ row ∈ rows, Fits width row) :
    readRecords .chat2dbV1 width cells (rows.map (·.map encodeTabularValue)) = .ok rows ↔
      cells + rows.length * width ≤ maxTabularCells := by
  induction rows generalizing cells with
  | nil => simpa [readRecords] using hcells
  | cons row rows ih =>
    obtain ⟨⟨hwidth, hsizes⟩, hrest⟩ := List.forall_mem_cons.1 hrows
    have hlength : (row.map encodeTabularValue).length = width := by
      rw [List.length_map, hwidth]
    have hvalues : (row.map encodeTabularValue).mapM (readValue .chat2dbV1) = .ok row := by
      apply mapM_of_forall₂
      rw [List.forall₂_map_left_iff, List.forall₂_same]
      exact fun value hvalue => readValue_encode (hsizes value hvalue)
    have hcount : (row :: rows).length * width = width + rows.length * width := by
      rw [List.length_cons]
      ring
    rw [List.map_cons, readRecords, hlength, (rejectIf_eq_ok _ _ ()).2 (by simp), ok_bind,
      bind_eq_ok, hcount, ← Nat.add_assoc]
    constructor
    · rintro ⟨⟨⟩, hbudget, hread⟩
      rw [hvalues, ok_bind] at hread
      obtain ⟨later, hlater, hsame⟩ := (bind_eq_ok _ _ _).1 hread
      rw [pure_eq_ok, List.cons.injEq] at hsame
      rw [hsame.2] at hlater
      exact (ih (enforceCellBudget_eq_ok.1 hbudget) hrest).1 hlater
    · intro hfits
      have hbudget : cells + width ≤ maxTabularCells := by omega
      refine ⟨(), enforceCellBudget_eq_ok.2 hbudget, ?_⟩
      rw [hvalues, ok_bind, (ih hbudget hrest).2 hfits]
      rfl

/-- Rows as wide as the header pass the check. -/
theorem validateRowWidths_ok (hrows : ∀ row ∈ rows, Fits columns.length row) :
    validateRowWidths (some columns) rows = .ok () := by
  have hwidths : ¬ (rows.any fun row => row.length ≠ columns.length) = true := by
    simp only [List.any_eq_true, decide_eq_true_eq, not_exists, not_and, not_not]
    exact fun row hrow => (hrows row hrow).1
  exact (rejectIf_eq_ok _ _ ()).2 hwidths

/-- What a sink took of the columns and the rows. -/
structure Taken (columns : List (List Char)) (rows : List (List TabularValue)) : Prop where
  nonempty : columns ≠ []
  columns_le : columns.length ≤ maxTabularColumns
  rows_fit : ∀ row ∈ rows, Fits columns.length row

theorem validateExportColumns_ok (h : validateExportColumns columns = .ok ()) :
    columns ≠ [] ∧ columns.length ≤ maxTabularColumns := by
  obtain ⟨⟨⟩, hwidth, -⟩ := (bind_eq_ok _ _ _).1 h
  have hnot := (rejectIf_eq_ok _ _ ()).1 hwidth
  rw [not_or, Nat.not_lt] at hnot
  exact hnot

/-- The file that is written for a table. -/
theorem writeTable_csv (hwrite : writeTable .csv true columns rows = .ok file) :
    file = .csv (columns :: rows.map (·.map encodeTabularValue)) ∧ Taken columns rows := by
  obtain ⟨sink, hheader, hwrite⟩ := (bind_eq_ok _ _ _).1 hwrite
  obtain ⟨last, hrows, hfile⟩ := (bind_eq_ok _ _ _).1 hwrite
  obtain ⟨⟨⟩, hcolumns, hsink⟩ := (bind_eq_ok _ _ _).1 hheader
  obtain rfl := (pure_eq_ok _ _).1 hsink
  obtain ⟨hrecords, hfits⟩ := @foldlM_writeRow rows _ last columns.length rfl hrows
  obtain ⟨hne, hle⟩ := validateExportColumns_ok hcolumns
  refine ⟨?_, hne, hle, hfits⟩
  rw [← (pure_eq_ok _ _).1 hfile, hrecords]
  rfl

/-- A CSV file is read back exactly if its cells are within the budget. -/
theorem readCsv_iff (hvalid : validateColumns (some columns) = .ok ())
    (htaken : Taken columns rows) :
    readCsv (columns :: rows.map (·.map encodeTabularValue)) true .chat2dbV1 =
        .ok { columns := some columns, rows } ↔
      (rows.length + 1) * columns.length ≤ maxTabularCells := by
  have hcells : columns.length ≤ maxTabularCells := htaken.columns_le.trans (by decide)
  have hsum : (rows.length + 1) * columns.length =
      columns.length + rows.length * columns.length := by ring
  rw [hsum, ← readRecords_iff hcells htaken.rows_fit, readCsv]
  simp only [if_true, List.headD_cons, List.tail_cons, Option.map_some, Option.getD_some]
  rw [hvalid, ok_bind]
  constructor
  · intro h
    obtain ⟨read, hread, h⟩ := (bind_eq_ok _ _ _).1 h
    obtain ⟨⟨⟩, -, h⟩ := (bind_eq_ok _ _ _).1 h
    have hsame := congrArg ImportedTable.rows ((pure_eq_ok _ _).1 h)
    dsimp only at hsame
    rwa [hsame] at hread
  · intro hread
    rw [hread, ok_bind, validateRowWidths_ok htaken.rows_fit]
    rfl

/-! ## Spreadsheets -/

/-- The sheet with these rows, each of the given width. -/
def Sheet.ofGrid (width : Nat) (grid : List (List (List Char))) : Sheet where
  cells := fun row column => (grid[row]?).bind (·[column]?)
  rows := grid.length
  columns := if grid = [] then 0 else width

/-- What writing a row changes in a sheet. -/
theorem setRow_ok {row column : Nat} {sheet result : Sheet}
    (h : setRow row column sheet values = .ok result) :
    (∀ r c, result.cells r c =
        if r = row ∧ column ≤ c then
          ((values.map encodeTabularValue)[c - column]?).or (sheet.cells r c)
        else sheet.cells r c) ∧
      (values ≠ [] → result.rows = max sheet.rows (row + 1) ∧
        result.columns = max sheet.columns (column + values.length)) := by
  induction values generalizing column sheet with
  | nil =>
    obtain rfl := Except.ok.inj h
    simp
  | cons value rest ih =>
    obtain ⟨⟨⟩, -, hrest⟩ := (bind_eq_ok _ _ _).1 h
    obtain ⟨hcells, hsize⟩ := ih hrest
    refine ⟨fun r c => ?_, fun _ => ?_⟩
    · rw [hcells r c]
      by_cases hrow : r = row
      · subst hrow
        rcases Nat.lt_trichotomy c column with hc | hc | hc
        · rw [if_neg (by omega), if_neg (by omega)]
          simp [Sheet.set, Function.update_of_ne (Nat.ne_of_lt hc)]
        · subst hc
          simp [Sheet.set]
        · have hplace : c - column = c - (column + 1) + 1 := by omega
          have hother : (sheet.set r column (encodeTabularValue value)).cells r c =
              sheet.cells r c := by
            simp [Sheet.set, Function.update_of_ne (Nat.ne_of_gt hc)]
          rw [if_pos ⟨rfl, by omega⟩, if_pos ⟨rfl, by omega⟩, hplace, hother]
          rfl
      · rw [if_neg (fun h => hrow h.1), if_neg (fun h => hrow h.1)]
        simp [Sheet.set, Function.update_of_ne hrow]
    · by_cases hnone : rest = []
      · subst hnone
        obtain rfl := Except.ok.inj hrest
        exact ⟨rfl, rfl⟩
      · obtain ⟨hrows, hcolumns⟩ := hsize hnone
        rw [hrows, hcolumns, List.length_cons]
        simp only [Sheet.set]
        omega

/-- A row below a grid makes the grid with one row more. -/
theorem setRow_ofGrid {sheet : Sheet} (hne : values ≠ []) (hwidth : values.length = width)
    (h : setRow grid.length 0 (.ofGrid width grid) values = .ok sheet) :
    sheet = .ofGrid width (grid ++ [values.map encodeTabularValue]) := by
  obtain ⟨hcells, hsize⟩ := setRow_ok h
  obtain ⟨hrows, hcolumns⟩ := hsize hne
  ext1
  · funext row column
    rw [hcells row column]
    by_cases hrow : row = grid.length
    · subst hrow
      simp [Sheet.ofGrid]
    · rw [if_neg fun h => hrow h.1]
      rcases Nat.lt_or_gt_of_ne hrow with hlt | hgt
      · simp [Sheet.ofGrid, List.getElem?_append_left hlt]
      · simp [Sheet.ofGrid, List.getElem?_append_right (Nat.le_of_lt hgt),
          List.getElem?_eq_none (Nat.le_of_lt hgt),
          List.getElem?_eq_none (l := [values.map encodeTabularValue])
            (i := row - grid.length) (by simp; omega)]
  · rw [hrows]
    simp [Sheet.ofGrid]
  · rw [hcolumns, hwidth]
    simp only [Sheet.ofGrid, List.append_eq_nil_iff, List.cons_ne_self, and_false, if_false]
    split <;> omega

/-- A sink with these rows behind it. -/
structure SpreadsheetSink.Holds (sink : SpreadsheetSink) (width : Nat)
    (grid : List (List (List Char))) : Prop where
  sheet_eq : sink.sheet = .ofGrid width grid
  nextRow_eq : sink.nextRow = grid.length
  columns_eq : sink.columns = width
  cells_eq : sink.cells = grid.length * width
  cells_le : sink.cells ≤ maxTabularCells

theorem SpreadsheetSink.Holds.writeValues {sink next : SpreadsheetSink}
    (hsink : sink.Holds width grid) (hne : values ≠ []) (hwidth : values.length = width)
    (hwrite : sink.writeValues values = .ok next) :
    next.Holds width (grid ++ [values.map encodeTabularValue]) := by
  obtain ⟨⟨⟩, hbudget, hwrite⟩ := (bind_eq_ok _ _ _).1 hwrite
  obtain ⟨sheet, hset, hnext⟩ := (bind_eq_ok _ _ _).1 hwrite
  rw [hsink.sheet_eq, hsink.nextRow_eq] at hset
  obtain rfl := (pure_eq_ok _ _).1 hnext
  constructor
  · exact setRow_ofGrid hne hwidth hset
  · simp [hsink.nextRow_eq]
  · exact hsink.columns_eq
  · simp only [hsink.cells_eq, hwidth, List.length_append, List.length_singleton]
    ring
  · exact enforceCellBudget_eq_ok.1 hbudget

/-- The sheet holds the rows that were written. -/
theorem SpreadsheetSink.Holds.foldlM_writeRow {sink last : SpreadsheetSink} {width : Nat}
    {grid : List (List (List Char))} {rows : List (List TabularValue)}
    (hsink : sink.Holds width grid) (hpos : 0 < width)
    (hwrite : rows.foldlM SpreadsheetSink.writeRow sink = .ok last) :
    last.Holds width (grid ++ rows.map (·.map encodeTabularValue)) ∧
      ∀ row ∈ rows, Fits width row := by
  induction rows generalizing sink grid with
  | nil =>
    obtain rfl := (pure_eq_ok _ _).1 hwrite
    simpa using hsink
  | cons row rows ih =>
    rw [List.foldlM_cons] at hwrite
    obtain ⟨next, hrow, hrest⟩ := (bind_eq_ok _ _ _).1 hwrite
    obtain ⟨⟨⟩, hvalid, hvalues⟩ := (bind_eq_ok _ _ _).1 hrow
    rw [hsink.columns_eq, validateExportRow_eq_ok] at hvalid
    have hne : row ≠ [] := by
      rw [← List.length_pos_iff, hvalid.1]
      exact hpos
    obtain ⟨hlast, hrows⟩ := ih (hsink.writeValues hne hvalid.1 hvalues) hrest
    rw [List.append_assoc] at hlast
    exact ⟨hlast, List.forall_mem_cons.2 ⟨hvalid, hrows⟩⟩

/-- The rows of a file with a header, which is written as a row of texts. -/
def writtenGrid (columns : List (List Char)) (rows : List (List TabularValue)) :
    List (List (List Char)) :=
  columns.map (fun column => encodeTabularValue (.text column)) ::
    rows.map (·.map encodeTabularValue)

/-- The sheet that is written for a table. -/
theorem writeSpreadsheet_ok (hformat : format = .xls ∨ format = .xlsx)
    (hwrite : writeTable format true columns rows = .ok file) :
    file = .spreadsheet (.ofGrid columns.length (writtenGrid columns rows)) ∧
      Taken columns rows ∧ (rows.length + 1) * columns.length ≤ maxTabularCells := by
  have hsteps : ∃ sink last, SpreadsheetSink.writeHeader
        { sheet := .empty, containsHeader := true, nextRow := 0, columns := 0, cells := 0 }
        columns = .ok sink ∧
      rows.foldlM SpreadsheetSink.writeRow sink = .ok last ∧ file = .spreadsheet last.sheet := by
    rcases hformat with rfl | rfl <;>
    · obtain ⟨sink, hheader, hwrite⟩ := (bind_eq_ok _ _ _).1 hwrite
      obtain ⟨last, hrows, hfile⟩ := (bind_eq_ok _ _ _).1 hwrite
      exact ⟨sink, last, hheader, hrows, ((pure_eq_ok _ _).1 hfile).symm⟩
  obtain ⟨sink, last, hheader, hrows, rfl⟩ := hsteps
  obtain ⟨⟨⟩, hcolumns, hvalues⟩ := (bind_eq_ok _ _ _).1 hheader
  obtain ⟨hne, hle⟩ := validateExportColumns_ok hcolumns
  have hstart : SpreadsheetSink.Holds
      { sheet := .empty, containsHeader := true, nextRow := 0, columns := columns.length, cells := 0 }
      columns.length [] := ⟨rfl, rfl, rfl, (Nat.zero_mul _).symm, Nat.zero_le _⟩
  have hsink := hstart.writeValues (by simpa using hne) (List.length_map _) hvalues
  obtain ⟨hlast, hfits⟩ := hsink.foldlM_writeRow (List.length_pos_iff.2 hne) hrows
  rw [List.map_map] at hlast
  have hcells := hlast.cells_le
  rw [hlast.cells_eq, List.nil_append, List.length_append, List.length_map] at hcells
  refine ⟨?_, ⟨hne, hle, hfits⟩, ?_⟩
  · rw [hlast.sheet_eq]
    rfl
  · rw [Nat.add_comm rows.length]
    exact hcells

theorem range_map_getElem (columns : List (List Char)) :
    (List.range columns.length).map (fun column => (columns[column]?).getD []) = columns := by
  apply List.ext_getElem
  · simp
  · intro place hplace hcolumn
    simp [List.getElem?_eq_getElem hcolumn]

/-- The cells of a row are read back. -/
theorem readCells_ok {place : Nat}
    {row : List TabularValue} (hrow : grid[place]? = some (row.map encodeTabularValue))
    (hfits : Fits width row) :
    (List.range width).mapM (readCell .chat2dbV1 (.ofGrid width grid) place) = .ok row := by
  rw [← hfits.1, List.range_eq_range']
  apply mapM_range'_of_getElem
  intro column hcolumn
  have hcell : (Sheet.ofGrid row.length grid).cells place (0 + column) =
      some (encodeTabularValue (row.get ⟨column, hcolumn⟩)) := by
    simp [Sheet.ofGrid, hrow, List.getElem?_eq_getElem hcolumn]
  rw [readCell, hcell]
  exact readValue_encode (hfits.2 _ (List.get_mem row _))

theorem readRows_ok (hfits : ∀ row ∈ rows, Fits columns.length row) :
    (List.range' 1 rows.length).mapM (fun place => (List.range columns.length).mapM
      (readCell .chat2dbV1 (.ofGrid columns.length (writtenGrid columns rows)) place)) = .ok rows := by
  apply mapM_range'_of_getElem
  intro place hplace
  apply readCells_ok
  · rw [writtenGrid, Nat.add_comm, List.getElem?_cons_succ, List.getElem?_map,
      List.getElem?_eq_getElem hplace]
    rfl
  · exact hfits _ (List.get_mem rows _)

theorem readHeader_eq (columns : List (List Char)) (rows : List (List TabularValue)) :
    (List.range columns.length).map (fun column =>
        ((Sheet.ofGrid columns.length (writtenGrid columns rows)).cells 0 column).getD []) =
      columns.map fun column => encodeTabularValue (.text column) := by
  have hrange := range_map_getElem (columns.map fun column => encodeTabularValue (.text column))
  rw [List.length_map] at hrange
  exact hrange

theorem map_encode_eq_self_iff :
    columns.map (fun column => encodeTabularValue (.text column)) = columns ↔
      ∀ column ∈ columns, ¬ cellEncodingPrefix.isPrefixOf column = true := by
  induction columns with
  | nil => simp
  | cons column columns ih =>
    rw [List.map_cons, List.cons.injEq, ih, encode_text_eq_self_iff, List.forall_mem_cons]

/-- A sheet is read back exactly if its archive passes and no column looks encoded. -/
theorem readSpreadsheet_iff {archive : Except AppError Unit}
    (hvalid : validateColumns (some columns) = .ok ()) (htaken : Taken columns rows)
    (hcells : (rows.length + 1) * columns.length ≤ maxTabularCells) :
    readSpreadsheet archive (.ofGrid columns.length (writtenGrid columns rows)) format true
        .chat2dbV1 = .ok { columns := some columns, rows } ↔
      (format = .xlsx → archive = .ok ()) ∧
        ∀ column ∈ columns, ¬ cellEncodingPrefix.isPrefixOf column = true := by
  have hsheetRows : (Sheet.ofGrid columns.length (writtenGrid columns rows)).rows =
      rows.length + 1 := by
    simp [Sheet.ofGrid, writtenGrid]
  have hsheetColumns : (Sheet.ofGrid columns.length (writtenGrid columns rows)).columns =
      columns.length := rfl
  have hwide : ¬ (columns.length = 0 ∨ maxTabularColumns < columns.length) := by
    rw [List.length_eq_zero_iff, not_or, Nat.not_lt]
    exact ⟨htaken.nonempty, htaken.columns_le⟩
  rw [← map_encode_eq_self_iff, readSpreadsheet, hsheetRows, hsheetColumns]
  simp only [if_true]
  rw [readHeader_eq, Nat.add_sub_cancel, readRows_ok htaken.rows_fit, (rejectIf_eq_ok _ _ ()).2 hwide,
    enforceCellBudget_eq_ok.2 hcells]
  simp only [ok_bind]
  constructor
  · intro h
    obtain ⟨⟨⟩, harchive, h⟩ := (bind_eq_ok _ _ _).1 h
    obtain ⟨⟨⟩, -, h⟩ := (bind_eq_ok _ _ _).1 h
    obtain ⟨⟨⟩, -, h⟩ := (bind_eq_ok _ _ _).1 h
    have hsame := congrArg ImportedTable.columns ((pure_eq_ok _ _).1 h)
    refine ⟨fun hformat => ?_, Option.some.inj hsame⟩
    rwa [if_pos hformat] at harchive
  · rintro ⟨harchive, hnames⟩
    have hchecked : (if format = .xlsx then archive else .ok ()) = .ok () := by
      split
      next hformat => exact harchive hformat
      next => rfl
    rw [hchecked, ok_bind, hnames, hvalid, ok_bind, validateRowWidths_ok htaken.rows_fit]
    rfl

/-! ## Round trip -/

/-- A file as the sink leaves it at the path of the export, where `length` is the number of
bytes that the library of its format writes. -/
def writtenFile (length : TabularFile → Nat) (file : TabularFile) : FileMetadata where
  isSymlink := false
  isFile := true
  len := length file

/-- Of the checks of an import, only the one for the size can refuse a written file. -/
theorem validateImportFile_written {length : TabularFile → Nat} {size : Nat} :
    validateImportFile (some (writtenFile length file)) = .ok size ↔
      length file ≤ maxImportFileBytes ∧ length file = size := by
  have hregular : ¬ ((writtenFile length file).isSymlink = true ∨
      ¬ (writtenFile length file).isFile = true) := by
    simp [writtenFile]
  rw [validateImportFile, orThrow, ok_bind, (rejectIf_eq_ok _ _ ()).2 hregular, ok_bind, bind_eq_ok]
  simp only [rejectIf_eq_ok, Nat.not_lt, pure_eq_ok]
  exact exists_const _

/-- The file that the sink of a format writes for columns and rows. -/
def fileOf (columns : List (List Char)) (rows : List (List TabularValue)) :
    TransferFileFormat → TabularFile
  | .csv => .csv (columns :: rows.map (·.map encodeTabularValue))
  | .xls | .xlsx | .sql => .spreadsheet (.ofGrid columns.length (writtenGrid columns rows))

/-- The import has a limit of bytes for every file, and of cells for a CSV file; it checks
compressed files and does not open the envelope of a header. -/
structure ReadableAs (archive : Sheet → Except AppError Unit) (length : TabularFile → Nat)
    (columns : List (List Char)) (rows : List (List TabularValue))
    (format : TransferFileFormat) : Prop where
  length_le : length (fileOf columns rows format) ≤ maxImportFileBytes
  cells_le : format = .csv → (rows.length + 1) * columns.length ≤ maxTabularCells
  archive_ok : format = .xlsx →
    archive (.ofGrid columns.length (writtenGrid columns rows)) = .ok ()
  names_plain : format ≠ .csv →
    ∀ column ∈ columns, ¬ cellEncodingPrefix.isPrefixOf column = true

/-- A written file is read as what it holds, if its size allows that. -/
theorem readTabularFile_written {archive : Sheet → Except AppError Unit}
    {length : TabularFile → Nat}
    {header : Bool} {encoding : TabularImportEncoding} {table : ImportedTable} :
    readTabularFile archive (some (writtenFile length file)) file format header encoding =
        .ok table ↔
      length file ≤ maxImportFileBytes ∧
        readTable archive file format header encoding = .ok table := by
  rw [readTabularFile, bind_eq_ok]
  simp only [validateImportFile_written]
  constructor
  · rintro ⟨_, ⟨hsize, -⟩, hread⟩
    exact ⟨hsize, hread⟩
  · rintro ⟨hsize, hread⟩
    exact ⟨_, ⟨hsize, rfl⟩, hread⟩

/-- A file that was written for columns and rows is read as them if and only if it is
readable, while every value is read as itself and from no other cell. -/
theorem readTabularFile_writeTable_iff (archive : Sheet → Except AppError Unit)
    (length : TabularFile → Nat) {format : TransferFileFormat} {columns : List (List Char)}
    {rows : List (List TabularValue)} {file : TabularFile}
    (hvalid : validateColumns (some columns) = .ok ())
    (hwrite : writeTable format true columns rows = .ok file) :
    (readTabularFile archive (some (writtenFile length file)) file format true .chat2dbV1 =
          .ok { columns := some columns, rows } ↔
        ReadableAs archive length columns rows format) ∧
      (∀ value, decodeTabularValue (encodeTabularValue value) .chat2dbV1 = .ok value) ∧
      Function.Injective encodeTabularValue := by
  refine ⟨?_, decode_encode, fun _ _ => encode_injective⟩
  rw [readTabularFile_written]
  cases format with
  | csv =>
    obtain ⟨rfl, htaken⟩ := writeTable_csv hwrite
    rw [readTable, if_neg (by decide), readCsv_iff hvalid htaken]
    constructor
    · rintro ⟨hsize, hcells⟩
      exact ⟨hsize, fun _ => hcells, nofun, fun h => absurd rfl h⟩
    · intro hreadable
      exact ⟨hreadable.length_le, hreadable.cells_le rfl⟩
  | xls =>
    obtain ⟨rfl, htaken, hcells⟩ := writeSpreadsheet_ok (.inl rfl) hwrite
    rw [readTable, if_neg (by decide), readSpreadsheet_iff hvalid htaken hcells]
    constructor
    · rintro ⟨hsize, -, hnames⟩
      exact ⟨hsize, nofun, nofun, fun _ => hnames⟩
    · intro hreadable
      exact ⟨hreadable.length_le, nofun, hreadable.names_plain (by decide)⟩
  | xlsx =>
    obtain ⟨rfl, htaken, hcells⟩ := writeSpreadsheet_ok (.inr rfl) hwrite
    rw [readTable, if_neg (by decide), readSpreadsheet_iff hvalid htaken hcells]
    constructor
    · rintro ⟨hsize, harchive, hnames⟩
      exact ⟨hsize, nofun, harchive, fun _ => hnames⟩
    · intro hreadable
      exact ⟨hreadable.length_le, hreadable.archive_ok, hreadable.names_plain (by decide)⟩
  | sql =>
    rw [writeTable] at hwrite
    cases hwrite

theorem nullRow_readBack :
    (readTabularFile (fun _ => .ok ())
        (some { isSymlink := false, isFile := true, len := 40 })
        (.csv ["id".toList :: ["note".toList], [nullEncoding, "".toList]]) .csv true .chat2dbV1 =
          .ok { columns := some ["id".toList, "note".toList], rows := [[.null, .text []]] } ↔
        ReadableAs (fun _ => .ok ()) (fun _ => 40) ["id".toList, "note".toList]
          [[.null, .text []]] .csv) ∧
      (∀ value, decodeTabularValue (encodeTabularValue value) .chat2dbV1 = .ok value) ∧
      Function.Injective encodeTabularValue :=
  readTabularFile_writeTable_iff _ (fun _ => 40) (by decide) rfl

/-- The column of a spreadsheet gets the name it was enveloped in. -/
theorem reservedColumn_renamed :
    ∃ file, validateColumns (some ["__CHAT2DB_TRANSFER_V1__:x".toList]) = .ok () ∧
      writeTable .xls true ["__CHAT2DB_TRANSFER_V1__:x".toList] [] = .ok file ∧
      readTabularFile (fun _ => .ok ())
          (some { isSymlink := false, isFile := true, len := 1536 }) file .xls true .chat2dbV1 =
        .ok { columns := some ["__CHAT2DB_TRANSFER_V1__:TEXT:X19DSEFUMkRCX1RSQU5TRkVSX1YxX186eA".toList],
              rows := [] } :=
  ⟨_, by decide, rfl, by decide +kernel⟩

end Chat2DB.Transfer
