import Chat2DB.Base.Outcome
import Chat2DB.MySql.ResultGrid

/-! # What the statements of a result grid say

Whatever the cells and the names contain, MySQL reads a statement of a result grid as the
change that was asked for: the table, the columns and the values are those of the grid.
-/

namespace Chat2DB.MySql.Ddl


variable {quoted text statement : List Char} {escapes : Bool} {headers : List MysqlResultGridHeader}
  {row : GridRow} {table : MysqlQualifiedName}

/-! ## Parts -/

theorem quoteIdentifier_ok {identifier : List Char} (h : quoteIdentifier identifier = .ok quoted) :
    quoted = quoteName (Text.trim identifier) ∧ Text.trim identifier ≠ [] ∧
      ∀ c ∈ Text.trim identifier, isControl c = false := by
  unfold quoteIdentifier at h
  dsimp only at h
  split_ifs at h with hempty hlong hcontrol
  refine ⟨(Except.ok.inj h).symm, hempty, ?_⟩
  simpa using hcontrol

theorem reads_quoteIdentifier {identifier : List Char}
    (h : quoteIdentifier identifier = .ok quoted) :
    Reads escapes quoted [.name (Text.trim identifier)] := by
  obtain ⟨rfl, hname, -⟩ := quoteIdentifier_ok h
  exact reads_quoteName hname

/-- The names that a table is called by, its namespace first. -/
def MysqlQualifiedName.path (name : MysqlQualifiedName) : List (List Char) :=
  (name.namespaceName.toList ++ [name.name]).map Text.trim

theorem MysqlQualifiedName.path_ne_nil (name : MysqlQualifiedName) : name.path ≠ [] := by
  simp [MysqlQualifiedName.path]

theorem reads_quoteQualifiedName {name : MysqlQualifiedName}
    (h : quoteQualifiedName name = .ok quoted) : Reads escapes quoted (pathTokens name.path) := by
  unfold quoteQualifiedName at h
  split_ifs at h
  obtain ⟨object, hobject, h⟩ := (Outcome.bind_eq_ok _ _ _).mp h
  obtain ⟨rfl, hne, -⟩ := quoteIdentifier_ok hobject
  unfold MysqlQualifiedName.path
  cases hspace : name.namespaceName with
  | none =>
    rw [hspace] at h
    cases h
    have hreads : Reads escapes _ (pathTokens [Text.trim name.name]) :=
      reads_path (by simpa using hne.symm)
    simpa using hreads
  | some space =>
    rw [hspace] at h
    obtain ⟨quotedSpace, hquoted, h⟩ := (Outcome.bind_eq_ok _ _ _).mp h
    obtain ⟨rfl, hnonempty, -⟩ := quoteIdentifier_ok hquoted
    cases h
    have hreads : Reads escapes _ (pathTokens [Text.trim space, Text.trim name.name]) :=
      reads_path (by simp [hne.symm, hnonempty.symm])
    simpa using hreads

/-! ## Cells -/

theorem reads_null : Reads escapes "NULL".toList [keywordToken "NULL"] :=
  reads_of_after (.word "NULL".toList) (by cases escapes <;> decide) rfl (by simp)

theorem reads_default : Reads escapes "DEFAULT".toList [keywordToken "DEFAULT"] :=
  reads_of_after (.word "DEFAULT".toList) (by cases escapes <;> decide) rfl (by simp)

/-- The value of a cell, of which none is `NULL`. -/
def gridValue (header : MysqlResultGridHeader) : Option (List Char) → SqlValue
  | none => .null
  | some value => cellValue (resultGridTypeName header) value

/-- What a column is to be given. -/
def assignedValue (cell : GridCell) : Assigned :=
  if cell.2 = some resultDefaultPlaceholder then .default else .value (gridValue cell.1 cell.2)

theorem serializeMysqlValue_ok {header : MysqlResultGridHeader} {value : Option (List Char)}
    {literal : List Char} (h : serializeMysqlValue header value = .ok literal) :
    ∃ list, Reads true literal list ∧ readLiteral list = some (gridValue header value) := by
  unfold serializeMysqlValue at h
  cases value with
  | none =>
    cases h
    exact ⟨_, reads_null, by simp [readLiteral, keywordToken, gridValue]⟩
  | some value =>
    dsimp only at h
    split_ifs at h
    split at h
    next typed hliteral =>
      cases h
      exact serializeTypedLiteral_ok hliteral
    next => cases h

theorem serializeAssignmentValue_ok (cell : GridCell) {literal : List Char}
    (h : serializeAssignmentValue cell.1 cell.2 = .ok literal) :
    ∃ list, Reads true literal list ∧ readAssigned list = some (assignedValue cell) := by
  unfold serializeAssignmentValue at h
  unfold assignedValue
  split_ifs at h ⊢ with hdefault
  · cases h
    exact ⟨_, reads_default, by simp [readAssigned]⟩
  · obtain ⟨list, hreads, hliteral⟩ := serializeMysqlValue_ok h
    refine ⟨list, hreads, ?_⟩
    have hplain : list ≠ [keywordToken "DEFAULT"] := by
      rintro rfl
      simp [readLiteral, keywordToken] at hliteral
    rw [readAssigned, if_neg hplain, hliteral]
    rfl

/-- The columns that are to be written, with their values. -/
def assignedColumns (cells : List GridCell) : List (List Char × Assigned) :=
  (cells.filter fun cell => !isGeneratedPlaceholder cell.2).map fun cell =>
    (Text.trim cell.1.name, assignedValue cell)

theorem assignedCells_ok {cells : List GridCell} {written : List (List Char × List Char)}
    (h : assignedCells cells = .ok written) :
    ∃ items : List (List Char × List Token), List.Forall₂ (fun cell item => Reads true cell.1 [.name item.1] ∧
        Reads true cell.2 item.2) written items ∧
      List.Forall₂ (fun item value => item.1 = value.1 ∧ readAssigned item.2 = some value.2) items
        (assignedColumns cells) := by
  induction cells generalizing written with
  | nil =>
    cases h
    exact ⟨[], .nil, .nil⟩
  | cons cell cells ih =>
    obtain ⟨header, value⟩ := cell
    rw [assignedCells] at h
    by_cases hgenerated : isGeneratedPlaceholder value = true
    · rw [if_pos hgenerated] at h
      split_ifs at h
      obtain ⟨items, hwritten, hitems⟩ := ih h
      refine ⟨items, hwritten, ?_⟩
      rwa [assignedColumns, List.filter_cons_of_neg (by simp [hgenerated])]
    · rw [if_neg hgenerated] at h
      obtain ⟨column, hcolumn, h⟩ := (Outcome.bind_eq_ok _ _ _).mp h
      obtain ⟨literal, hliteral, h⟩ := (Outcome.bind_eq_ok _ _ _).mp h
      obtain ⟨later, hlater, h⟩ := (Outcome.bind_eq_ok _ _ _).mp h
      cases h
      obtain ⟨items, hwritten, hitems⟩ := ih hlater
      obtain ⟨list, hreads, hvalue⟩ := serializeAssignmentValue_ok (header, value) hliteral
      refine ⟨(Text.trim header.name, list) :: items,
        .cons ⟨reads_quoteIdentifier hcolumn, hreads⟩ hwritten, ?_⟩
      rw [assignedColumns, List.filter_cons_of_pos (by simp [hgenerated])]
      exact .cons ⟨rfl, hvalue⟩ hitems

/-! ## Rows that are looked for -/

/-- What the row has to be in a column. -/
def identifyingCondition (cell : GridCell) : Condition :=
  match cell.2 with
  | none => .isNull (Text.trim cell.1.name)
  | some value => .equal (Text.trim cell.1.name) (gridValue cell.1 (some value))

theorem exists_between {α β γ δ : Type} {R : α → β → Prop} {P : β → γ → Prop} {Q : γ → δ → Prop}
    {meaning : α → δ} {sources : List α} {texts : List β} (h : List.Forall₂ R sources texts)
    (hone : ∀ source text, R source text → ∃ list, P text list ∧ Q list (meaning source)) :
    ∃ lists, List.Forall₂ P texts lists ∧ List.Forall₂ Q lists (sources.map meaning) := by
  induction h with
  | nil => exact ⟨[], .nil, .nil⟩
  | @cons source text sources texts hfirst _ ih =>
    obtain ⟨list, hreads, hmeans⟩ := hone source text hfirst
    obtain ⟨lists, hlists, hrest⟩ := ih
    exact ⟨list :: lists, .cons hreads hlists, .cons hmeans hrest⟩

theorem joint_is : Joint escapes " IS ".toList [keywordToken "IS"] :=
  ⟨rfl, by cases escapes <;> decide⟩

theorem joint_equal : Joint escapes " = ".toList [.symbol '='] :=
  ⟨rfl, by cases escapes <;> decide⟩

theorem reads_isNull {column : List Char} {name : List Char}
    (hcolumn : Reads escapes column [.name name]) :
    Reads escapes (column ++ " IS NULL".toList)
      [.name name, keywordToken "IS", keywordToken "NULL"] := by
  have hsplit : column ++ " IS NULL".toList = column ++ " IS ".toList ++ "NULL".toList := by simp
  rw [hsplit]
  exact hcolumn.join joint_is reads_null

theorem wherePredicate_ok {cell : GridCell} (h : wherePredicate cell = .ok text) :
    ∃ list, Reads true text list ∧ ReadsCondition list (identifyingCondition cell) := by
  unfold wherePredicate at h
  unfold identifyingCondition
  obtain ⟨-, -, h⟩ := (Outcome.bind_eq_ok _ _ _).mp h
  obtain ⟨column, hcolumn, h⟩ := (Outcome.bind_eq_ok _ _ _).mp h
  have hname : Reads true column [.name (Text.trim cell.1.name)] := reads_quoteIdentifier hcolumn
  cases hvalue : cell.2 with
  | none =>
    rw [hvalue] at h
    cases h
    exact ⟨_, reads_isNull hname, readsCondition_isNull _⟩
  | some value =>
    rw [hvalue] at h
    obtain ⟨literal, hliteral, h⟩ := (Outcome.bind_eq_ok _ _ _).mp h
    cases h
    obtain ⟨list, hreads, hread⟩ := serializeMysqlValue_ok hliteral
    exact ⟨_, hname.join joint_equal hreads, readsCondition_equal _ hread⟩

theorem joint_and : Joint escapes " AND ".toList [keywordToken "AND"] :=
  ⟨rfl, by cases escapes <;> decide⟩

/-- The numeral that limits a statement to one row. -/
def intendedLimit (usesPrimaryKey : Bool) : Option (List Char) :=
  if usesPrimaryKey then none else some "1".toList

theorem Reads.limit {list : List Token} (hreads : Reads escapes text list) (usesPrimaryKey : Bool) :
    Reads escapes (text ++ limitOne usesPrimaryKey)
      (list ++ limitTokens (intendedLimit usesPrimaryKey)) := by
  cases usesPrimaryKey with
  | true => simpa [limitOne, intendedLimit, limitTokens] using hreads
  | false =>
    have hsplit : text ++ limitOne false = text ++ " LIMIT ".toList ++ "1".toList := by
      simp [limitOne]
    have hjoint : Joint escapes " LIMIT ".toList [keywordToken "LIMIT"] :=
      ⟨rfl, by cases escapes <;> decide⟩
    have hone : Reads escapes "1".toList [.number "1".toList] :=
      reads_of_after (.number "1".toList) (by cases escapes <;> decide) rfl (by simp)
    rw [hsplit]
    simpa [limitTokens, intendedLimit] using hreads.join hjoint hone

theorem identifyingCells_ne_nil (hheaders : 2 ≤ headers.length)
    (hrow : row.length = headers.length) :
    identifyingCells headers row ≠ [] := by
  obtain ⟨number, header, headers, rfl⟩ : ∃ a b rest, headers = a :: b :: rest := by
    match headers, hheaders with
    | a :: b :: rest, _ => exact ⟨a, b, rest, rfl⟩
  obtain ⟨first, value, row, rfl⟩ : ∃ a b rest, row = a :: b :: rest := by
    match row, hrow with
    | a :: b :: rest, _ => exact ⟨a, b, rest, rfl⟩
  have hlength : row.length = headers.length := by simpa using hrow
  unfold identifyingCells gridCells
  split_ifs with hprimary
  · obtain ⟨key, hkey, hisKey⟩ := List.any_eq_true.mp hprimary
    intro hnone
    rw [List.filter_eq_nil_iff] at hnone
    have hmem : key ∈ ((header :: headers).zip (value :: row)).map Prod.fst := by
      rw [List.map_fst_zip (by simp [hlength])]
      exact hkey
    obtain ⟨cell, hcell, rfl⟩ := List.mem_map.mp hmem
    exact hnone cell hcell hisKey
  · simp

theorem buildResultGridWhere_ok {usesPrimaryKey : Bool}
    (h : buildResultGridWhere headers row = .ok (text, usesPrimaryKey)) :
    ∃ lists, Reads true text ([keywordToken "AND"].intercalate lists) ∧
      List.Forall₂ ReadsCondition lists
        ((identifyingCells headers row).map identifyingCondition) ∧
      usesPrimaryKey = headers.tail.any MysqlResultGridHeader.primaryKey := by
  obtain ⟨predicates, hpredicates, h⟩ := (Outcome.bind_eq_ok _ _ _).mp h
  cases h
  obtain ⟨lists, htexts, hconditions⟩ := exists_between (Outcome.forall₂_of_mapM hpredicates)
    fun cell text => wherePredicate_ok
  exact ⟨lists, Reads.intercalate joint_and htexts, hconditions, rfl⟩

/-! ## Statements -/

def intendedInsert (table : MysqlQualifiedName) (cells : List GridCell) : Statement :=
  .insert table.path ((assignedColumns cells).map Prod.fst) [(assignedColumns cells).map Prod.snd]

def intendedUpdate (table : MysqlQualifiedName) (headers : List MysqlResultGridHeader)
    (changed : List GridCell) (oldRow : GridRow) : Statement :=
  .update table.path (assignedColumns changed)
    [(identifyingCells headers oldRow).map identifyingCondition]
    (intendedLimit (headers.tail.any MysqlResultGridHeader.primaryKey))

def intendedDelete (table : MysqlQualifiedName) (headers : List MysqlResultGridHeader)
    (oldRow : GridRow) : Statement :=
  .delete table.path [(identifyingCells headers oldRow).map identifyingCondition]
    (intendedLimit (headers.tail.any MysqlResultGridHeader.primaryKey))

/-- The change that the operation asks for. -/
def intendedStatement (table : MysqlQualifiedName) (headers : List MysqlResultGridHeader)
    (operation : MysqlResultGridOperation) : Statement :=
  match operation.operationType with
  | .create => intendedInsert table (gridCells headers operation.dataList)
  | .update => intendedUpdate table headers
      (changedCells headers operation.dataList operation.oldDataList) operation.oldDataList
  | .delete => intendedDelete table headers operation.oldDataList

theorem readStatement_of_reads {list : List Token}
    {statement : Statement} (hreads : Reads escapes text list)
    (hparse : parseStatement list = some statement) :
    readStatement escapes text = some statement := by
  rw [readStatement, hreads.tokens_eq, Option.bind_some, hparse]

theorem lead_insert : Lexed.start.after escapes "INSERT INTO ".toList =
    ⟨.between, [keywordToken "INSERT", keywordToken "INTO"]⟩ := by
  cases escapes <;> decide

theorem joint_comma : Joint escapes ", ".toList [.symbol ','] :=
  ⟨rfl, by cases escapes <;> decide⟩

theorem joint_open : Joint escapes " (".toList [.symbol '('] :=
  ⟨rfl, by cases escapes <;> decide⟩

theorem joint_close : Joint escapes ")".toList [.symbol ')'] :=
  ⟨rfl, by cases escapes <;> decide⟩

theorem joint_values : Joint escapes ") VALUES (".toList
    [.symbol ')', keywordToken "VALUES", .symbol '('] :=
  ⟨rfl, by cases escapes <;> decide⟩

theorem reads_insert {table columns values : List Char}
    {path : List (List Char)} {names : List (List Char)} {row : List (List Token)}
    (htable : Reads escapes table (pathTokens path))
    (hcolumns : Reads escapes columns (commas (names.map fun name => [.name name])))
    (hvalues : Reads escapes values (commas row)) :
    Reads escapes ("INSERT INTO ".toList ++ table ++ " (".toList ++ columns ++
      ") VALUES (".toList ++ values ++ ")".toList) (insertTokens path names [row]) := by
  have hreads := ((((Reads.lead lead_insert htable).join joint_open hcolumns).join joint_values
    hvalues).append_joint joint_close)
  simpa [insertTokens, commas, rowTokens] using hreads

theorem buildResultGridInsert_ok (htable : Reads true quoted (pathTokens table.path))
    (h : buildResultGridInsert quoted headers row = .ok statement) :
    readStatement true statement = some (intendedInsert table (gridCells headers row)) := by
  obtain ⟨written, hwritten, h⟩ := (Outcome.bind_eq_ok _ _ _).mp h
  obtain ⟨items, hreads, hitems⟩ := assignedCells_ok hwritten
  have hcolumns : Reads true (joinComma (written.map Prod.fst))
      (commas ((items.map Prod.fst).map fun name => [.name name])) := by
    apply Reads.intercalate joint_comma
    rw [List.map_map, List.forall₂_map_left_iff, List.forall₂_map_right_iff]
    exact hreads.imp fun _ _ hboth => hboth.1
  have hvalues : Reads true (joinComma (written.map Prod.snd)) (commas (items.map Prod.snd)) := by
    apply Reads.intercalate joint_comma
    rw [List.forall₂_map_left_iff, List.forall₂_map_right_iff]
    exact hreads.imp fun _ _ hboth => hboth.2
  have hstatement : statement = "INSERT INTO ".toList ++ quoted ++ " (".toList ++
      joinComma (written.map Prod.fst) ++ ") VALUES (".toList ++
      joinComma (written.map Prod.snd) ++ ")".toList := by
    split_ifs at h with hnone
    · subst hnone
      rw [← Except.ok.inj h]
      simp [joinComma]
    · exact (Except.ok.inj h).symm
  have hnames : items.map Prod.fst =
      (assignedColumns (gridCells headers row)).map Prod.fst := by
    rw [← List.forall₂_eq_eq_eq, List.forall₂_map_left_iff, List.forall₂_map_right_iff]
    exact hitems.imp fun _ _ hboth => hboth.1
  have hassigned : ReadsAssigned (items.map Prod.snd)
      ((assignedColumns (gridCells headers row)).map Prod.snd) := by
    rw [ReadsAssigned, List.forall₂_map_left_iff, List.forall₂_map_right_iff]
    exact hitems.imp fun _ _ hboth => hboth.2
  rw [hstatement, intendedInsert, ← hnames]
  exact readStatement_of_reads (reads_insert htable hcolumns hvalues)
    (parse_insertTokens table.path_ne_nil (by simp) (.cons hassigned .nil))

theorem lead_update : Lexed.start.after escapes "UPDATE ".toList =
    ⟨.between, [keywordToken "UPDATE"]⟩ := by
  cases escapes <;> decide

theorem lead_delete : Lexed.start.after escapes "DELETE FROM ".toList =
    ⟨.between, [keywordToken "DELETE", keywordToken "FROM"]⟩ := by
  cases escapes <;> decide

theorem joint_set : Joint escapes " SET ".toList [keywordToken "SET"] :=
  ⟨rfl, by cases escapes <;> decide⟩

theorem joint_where : Joint escapes " WHERE ".toList [keywordToken "WHERE"] :=
  ⟨rfl, by cases escapes <;> decide⟩

theorem reads_assignment {cell : List Char × List Char}
    {item : List Char × List Token} (hcolumn : Reads escapes cell.1 [.name item.1])
    (hliteral : Reads escapes cell.2 item.2) :
    Reads escapes (assignmentText cell) (assignmentTokens item) :=
  hcolumn.join joint_equal hliteral

theorem buildResultGridUpdate_ok {oldRow : GridRow}
    (htable : Reads true quoted (pathTokens table.path))
    (hheaders : 2 ≤ headers.length) (hrow : oldRow.length = headers.length)
    (h : buildResultGridUpdate quoted headers row oldRow = .ok statement) :
    readStatement true statement =
      some (intendedUpdate table headers (changedCells headers row oldRow) oldRow) := by
  obtain ⟨written, hwritten, h⟩ := (Outcome.bind_eq_ok _ _ _).mp h
  split_ifs at h
  obtain ⟨⟨whereClause, usesPrimaryKey⟩, hwhere, h⟩ := (Outcome.bind_eq_ok _ _ _).mp h
  cases h
  obtain ⟨items, hreads, hitems⟩ := assignedCells_ok hwritten
  obtain ⟨lists, htext, hconditions, rfl⟩ := buildResultGridWhere_ok hwhere
  have hassignments : Reads true (joinComma (written.map assignmentText))
      (commas (items.map assignmentTokens)) := by
    apply Reads.intercalate joint_comma
    rw [List.forall₂_map_left_iff, List.forall₂_map_right_iff]
    exact hreads.imp fun _ _ hboth => reads_assignment hboth.1 hboth.2
  have hall := Reads.limit (((Reads.lead lead_update htable).join joint_set hassignments).join
    joint_where htext) (headers.tail.any MysqlResultGridHeader.primaryKey)
  have hsome : lists ≠ [] := by
    rintro rfl
    cases hnone : (identifyingCells headers oldRow).map identifyingCondition with
    | nil => exact identifyingCells_ne_nil hheaders hrow (List.map_eq_nil_iff.mp hnone)
    | cons => rw [hnone] at hconditions; cases hconditions
  apply readStatement_of_reads _ (parse_updateTokens _ table.path_ne_nil hitems hsome hconditions)
  simpa [updateTokens] using hall

theorem buildResultGridDelete_ok {oldRow : GridRow}
    (htable : Reads true quoted (pathTokens table.path))
    (hheaders : 2 ≤ headers.length) (hrow : oldRow.length = headers.length)
    (h : buildResultGridDelete quoted headers oldRow = .ok statement) :
    readStatement true statement = some (intendedDelete table headers oldRow) := by
  obtain ⟨⟨whereClause, usesPrimaryKey⟩, hwhere, h⟩ := (Outcome.bind_eq_ok _ _ _).mp h
  cases h
  obtain ⟨lists, htext, hconditions, rfl⟩ := buildResultGridWhere_ok hwhere
  have hall := Reads.limit ((Reads.lead lead_delete htable).join joint_where htext)
    (headers.tail.any MysqlResultGridHeader.primaryKey)
  have hsome : lists ≠ [] := by
    rintro rfl
    cases hnone : (identifyingCells headers oldRow).map identifyingCondition with
    | nil => exact identifyingCells_ne_nil hheaders hrow (List.map_eq_nil_iff.mp hnone)
    | cons => rw [hnone] at hconditions; cases hconditions
  apply readStatement_of_reads _ (parse_deleteTokens _ table.path_ne_nil hsome hconditions)
  simpa [deleteTokens] using hall

theorem requireRowLength_ok {label : String} {expected : Nat} {result : Unit}
    (h : requireRowLength label row expected = .ok result) : row.length = expected := by
  unfold requireRowLength at h
  split_ifs at h with hlength
  exact not_not.mp hlength

theorem lengths_of_validate {operation : MysqlResultGridOperation} {result : Unit}
    (h : validateResultGrid table headers operation = .ok result) :
    2 ≤ headers.length ∧
      (operation.operationType ≠ .create → operation.oldDataList.length = headers.length) := by
  obtain ⟨_, -, h⟩ := (Outcome.bind_eq_ok _ _ _).mp h
  split_ifs at h with hheaders
  obtain ⟨_, -, h⟩ := (Outcome.bind_eq_ok _ _ _).mp h
  obtain ⟨_, -, h⟩ := (Outcome.bind_eq_ok _ _ _).mp h
  obtain ⟨_, -, h⟩ := (Outcome.bind_eq_ok _ _ _).mp h
  refine ⟨by omega, fun htype => ?_⟩
  cases hoperation : operation.operationType with
  | create => exact absurd hoperation htype
  | update =>
    rw [hoperation] at h
    obtain ⟨_, -, hold⟩ := (Outcome.bind_eq_ok _ _ _).mp h
    exact requireRowLength_ok hold
  | delete =>
    rw [hoperation] at h
    obtain ⟨_, hold, -⟩ := (Outcome.bind_eq_ok _ _ _).mp h
    exact requireRowLength_ok hold

theorem readStatement_build {operation : MysqlResultGridOperation}
    (h : buildMysqlResultGridSql table headers operation = .ok statement) :
    readStatement true statement = some (intendedStatement table headers operation) := by
  obtain ⟨_, hvalid, h⟩ := (Outcome.bind_eq_ok _ _ _).mp h
  obtain ⟨quoted, hquoted, h⟩ := (Outcome.bind_eq_ok _ _ _).mp h
  have htable : Reads true quoted (pathTokens table.path) := reads_quoteQualifiedName hquoted
  obtain ⟨hheaders, hlengths⟩ := lengths_of_validate hvalid
  unfold intendedStatement
  cases htype : operation.operationType with
  | create =>
    rw [htype] at h
    exact buildResultGridInsert_ok htable h
  | update =>
    rw [htype] at h
    exact buildResultGridUpdate_ok htable hheaders (hlengths (by simp [htype])) h
  | delete =>
    rw [htype] at h
    exact buildResultGridDelete_ok htable hheaders (hlengths (by simp [htype])) h

end Chat2DB.MySql.Ddl
