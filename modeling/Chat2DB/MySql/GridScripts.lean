import Chat2DB.MySql.GridStatements
import Chat2DB.MySql.Splitting
import Chat2DB.MySql.TokenMarks

/-! # Scripts of a result grid

Each statement stands on a line of its own and has no line break in it, so that no line of
the script is a directive. The script is cut again into the statements that it was made of.
-/

namespace Chat2DB.MySql.Ddl

open Marking (Marked NoStop Lexer)

variable {text quoted value literal statement lead rest : List Char} {c : Char}
  {parts statements : List (List Char)} {headers : List MysqlResultGridHeader} {row : GridRow}

/-! ## Lines -/

/-- Text on one line, of which the last character is no blank. -/
structure Solid (text : List Char) : Prop where
  line : '\n' ∉ text
  last : ∃ c ∈ text.getLast?, Text.blank c = false

theorem Solid.ne_nil (h : Solid text) : text ≠ [] := by
  obtain ⟨c, hc, -⟩ := h.last
  rintro rfl
  cases hc

theorem Solid.append {first second : List Char} (hfirst : '\n' ∉ first) (hsecond : Solid second) :
    Solid (first ++ second) := by
  constructor
  · simp [hfirst, hsecond.line]
  · obtain ⟨c, hc, hblank⟩ := hsecond.last
    exact ⟨c, by rw [List.getLast?_append_of_ne_nil _ hsecond.ne_nil]; exact hc, hblank⟩

theorem Solid.concat (htext : '\n' ∉ text) (hblank : Text.blank c = false) :
    Solid (text ++ [c]) := by
  apply Solid.append htext
  constructor
  · intro hmem
    rw [← List.mem_singleton.mp hmem] at hblank
    exact absurd hblank (by decide)
  · exact ⟨c, rfl, hblank⟩

theorem Solid.of_chars (hsome : text ≠ []) (hblank : ∀ c ∈ text, Text.blank c = false) :
    Solid text := by
  constructor
  · intro hmem
    exact absurd (hblank _ hmem) (by decide)
  · exact ⟨text.getLast hsome, List.getLast?_eq_getLast_of_ne_nil hsome,
      hblank _ (List.getLast_mem hsome)⟩

theorem Solid.of_all (hsome : text ≠ []) (hblank : text.all (fun c => !Text.blank c) = true) :
    Solid text :=
  Solid.of_chars hsome fun c hc => by simpa using List.all_eq_true.mp hblank c hc

theorem line_intercalate {between : List Char}
    (hbetween : '\n' ∉ between) (hparts : ∀ part ∈ parts, '\n' ∉ part) :
    '\n' ∉ between.intercalate parts := by
  intro hmem
  rcases mem_intercalate hmem with hmem | ⟨part, hpart, hmem⟩
  · exact hbetween hmem
  · exact hparts part hpart hmem

theorem Solid.intercalate {between : List Char} (hsome : parts ≠ [])
    (hbetween : '\n' ∉ between) (hparts : ∀ part ∈ parts, Solid part) :
    Solid (between.intercalate parts) := by
  induction parts with
  | nil => exact absurd rfl hsome
  | cons part parts ih =>
    cases parts with
    | nil => simpa using hparts part List.mem_cons_self
    | cons next parts =>
      rw [List.intercalate_cons_cons]
      apply Solid.append
      · simp [(hparts part List.mem_cons_self).line, hbetween]
      · exact ih (by simp) fun other hother => hparts other (List.mem_cons_of_mem _ hother)

/-! ## Literals and names on one line -/

theorem blank_of_isDigit (hc : c.isDigit = true) : Text.blank c = false := by
  have hbounds : 48 ≤ c.toNat ∧ c.toNat ≤ 57 := by
    simpa [Char.isDigit, UInt32.le_iff_toNat_le, ← Char.toNat_val] using hc
  simp [Text.blank]
  omega

theorem solid_quoteName {name : List Char} (hname : ∀ c ∈ name, isControl c = false) :
    Solid (quoteName name) := by
  apply Solid.concat _ (by decide)
  intro hmem
  rw [List.mem_cons, List.mem_flatMap] at hmem
  rcases hmem with hmem | ⟨c, hc, hmem⟩
  · exact absurd hmem (by decide)
  · have hline : c ≠ '\n' := by
      rintro rfl
      exact absurd (hname _ hc) (by decide)
    split_ifs at hmem with htick
    · rw [List.mem_pair, or_self] at hmem
      exact absurd hmem (by decide)
    · exact hline (List.mem_singleton.mp hmem).symm

theorem solid_quoteIdentifier {identifier : List Char}
    (h : quoteIdentifier identifier = .ok quoted) : Solid quoted := by
  obtain ⟨rfl, -, hcontrol⟩ := quoteIdentifier_ok h
  exact solid_quoteName hcontrol

theorem solid_quoteMysqlString (value : List Char) : Solid (quoteMysqlString value) := by
  apply Solid.concat _ (by decide)
  intro hmem
  rw [List.mem_cons, List.mem_flatMap] at hmem
  rcases hmem with hmem | ⟨c, -, hmem⟩
  · exact absurd hmem (by decide)
  · rcases eq_or_ne c '\n' with rfl | hline
    · exact absurd hmem (by decide)
    · unfold escapedChar at hmem
      split_ifs at hmem <;> simp_all [hline.symm]

theorem solid_hexText (bytes : List UInt8) :
    Solid ("X'".toList ++ bytes.flatMap hexByte ++ ['\'']) := by
  have hdigit : ∀ digit < 16, hexChar digit ≠ '\n' := by decide
  apply Solid.concat _ (by decide)
  intro hmem
  rw [List.mem_append, List.mem_flatMap] at hmem
  rcases hmem with hmem | ⟨byte, -, hmem⟩
  · exact absurd hmem (by decide)
  · rw [hexByte, List.mem_pair] at hmem
    rcases hmem with hmem | hmem
    · exact hdigit _ (by have := byte.toNat_lt; omega) hmem.symm
    · exact hdigit _ (by omega) hmem.symm

theorem mantissa_chars {mantissa : List Char} (h : isMantissa mantissa = true) :
    ∀ c ∈ mantissa, Text.blank c = false := by
  obtain ⟨whole, fraction, hwhole, hfraction, hcases⟩ := isMantissa_cases h
  rw [List.all_eq_true] at hwhole hfraction
  intro c hc
  rcases hcases with ⟨rfl, -⟩ | ⟨rfl, -⟩
  · exact blank_of_isDigit (hwhole c hc)
  · rw [List.mem_append, List.mem_cons] at hc
    rcases hc with hc | rfl | hc
    · exact blank_of_isDigit (hwhole c hc)
    · decide
    · exact blank_of_isDigit (hfraction c hc)

theorem signed_chars (h : ∀ c ∈ withoutSign value, Text.blank c = false) :
    ∀ c ∈ value, Text.blank c = false := by
  intro c hc
  rcases exists_sign value with hplain | ⟨sign, hsign, hsigned⟩
  · rw [hplain] at hc
    exact h c hc
  · rw [hsigned, List.mem_cons] at hc
    rcases hc with rfl | hc
    · rcases hsign with rfl | rfl <;> decide
    · exact h c hc

theorem isIntegerLiteral_chars (h : isIntegerLiteral value = true) :
    ∀ c ∈ value, Text.blank c = false := by
  simp only [isIntegerLiteral, Bool.and_eq_true, List.all_eq_true] at h
  exact signed_chars fun c hc => blank_of_isDigit (h.2 c hc)

theorem solid_numeral {allowExponent : Bool} (h : isDecimalLiteral value allowExponent = true) :
    Solid value := by
  have hsome : withoutSign value ≠ [] := by
    obtain ⟨-, -, -, -, c, rest, hhead, -⟩ := @after_numeral true _ _ h
    simp [hhead]
  apply Solid.of_chars
  · rintro rfl
    exact hsome rfl
  · apply signed_chars
    unfold isDecimalLiteral at h
    dsimp only at h
    split_ifs at h with hexponent
    · simp only [Bool.and_eq_true] at h hexponent
      obtain ⟨mark, hmark, hsplit⟩ := exists_mark hexponent.2
      rw [hsplit]
      intro c hc
      rw [List.mem_append, List.mem_cons] at hc
      rcases hc with hc | rfl | hc
      · exact mantissa_chars h.2 c hc
      · rw [isExponentMark, Bool.or_eq_true, decide_eq_true_eq, decide_eq_true_eq] at hmark
        rcases hmark with rfl | rfl <;> decide
      · exact isIntegerLiteral_chars h.1.2 c hc
    · simp only [Bool.and_eq_true] at h
      exact mantissa_chars h.2

theorem solid_serializeTypedLiteral {typeName : List Char}
    (h : serializeTypedLiteral typeName value = .ok literal) : Solid literal := by
  unfold serializeTypedLiteral at h
  extract_lets baseType trimmed unsigned at h
  split_ifs at h with hinteger hdecimal hfloat hbool htrue hfalse hbinary
  · obtain ⟨hvalid, rfl⟩ := serializeNumber_ok h
    exact solid_numeral (isDecimalLiteral_of_integer hvalid)
  · obtain ⟨hvalid, rfl⟩ := serializeNumber_ok h
    exact solid_numeral hvalid
  · obtain ⟨hvalid, rfl⟩ := serializeNumber_ok h
    exact solid_numeral hvalid
  · rw [← Except.ok.inj h]
    exact Solid.of_all (by decide) (by decide)
  · rw [← Except.ok.inj h]
    exact Solid.of_all (by decide) (by decide)
  · split at h
    · cases h
    · rw [← Except.ok.inj h]
      exact solid_hexText _
  · rw [← Except.ok.inj h]
    exact solid_quoteMysqlString value

theorem solid_serializeMysqlValue {header : MysqlResultGridHeader} {value : Option (List Char)}
    (h : serializeMysqlValue header value = .ok literal) : Solid literal := by
  unfold serializeMysqlValue at h
  cases value with
  | none =>
    rw [← Except.ok.inj h]
    exact Solid.of_all (by decide) (by decide)
  | some value =>
    dsimp only at h
    split_ifs at h
    split at h
    next typed hliteral =>
      rw [← Except.ok.inj h]
      exact solid_serializeTypedLiteral hliteral
    next => cases h

theorem solid_serializeAssignmentValue {header : MysqlResultGridHeader} {value : Option (List Char)}
    (h : serializeAssignmentValue header value = .ok literal) : Solid literal := by
  unfold serializeAssignmentValue at h
  split_ifs at h
  · rw [← Except.ok.inj h]
    exact Solid.of_all (by decide) (by decide)
  · exact solid_serializeMysqlValue h

/-! ## Statements on one line -/

theorem solid_quoteQualifiedName {name : MysqlQualifiedName}
    (h : quoteQualifiedName name = .ok quoted) : Solid quoted := by
  unfold quoteQualifiedName at h
  split_ifs at h
  obtain ⟨object, hobject, h⟩ := (Outcome.bind_eq_ok _ _ _).mp h
  cases hspace : name.namespaceName with
  | none =>
    rw [hspace] at h
    rw [← Except.ok.inj h]
    exact solid_quoteIdentifier hobject
  | some space =>
    rw [hspace] at h
    obtain ⟨quotedSpace, hquoted, h⟩ := (Outcome.bind_eq_ok _ _ _).mp h
    rw [← Except.ok.inj h, List.append_cons]
    apply Solid.append _ (solid_quoteIdentifier hobject)
    simp [(solid_quoteIdentifier hquoted).line]

theorem solid_assignedCells {cells : List GridCell} {written : List (List Char × List Char)}
    (h : assignedCells cells = .ok written) : ∀ item ∈ written, Solid item.1 ∧ Solid item.2 := by
  induction cells generalizing written with
  | nil =>
    rw [← Except.ok.inj h]
    simp
  | cons cell cells ih =>
    obtain ⟨header, value⟩ := cell
    rw [assignedCells] at h
    split_ifs at h
    · exact ih h
    · obtain ⟨column, hcolumn, h⟩ := (Outcome.bind_eq_ok _ _ _).mp h
      obtain ⟨literal, hliteral, h⟩ := (Outcome.bind_eq_ok _ _ _).mp h
      obtain ⟨later, hlater, h⟩ := (Outcome.bind_eq_ok _ _ _).mp h
      rw [← Except.ok.inj h]
      intro item hitem
      rcases List.mem_cons.mp hitem with rfl | hitem
      · exact ⟨solid_quoteIdentifier hcolumn, solid_serializeAssignmentValue hliteral⟩
      · exact ih hlater item hitem

theorem solid_wherePredicate {cell : GridCell} (h : wherePredicate cell = .ok text) :
    Solid text := by
  obtain ⟨_, -, h⟩ := (Outcome.bind_eq_ok _ _ _).mp h
  obtain ⟨column, hcolumn, h⟩ := (Outcome.bind_eq_ok _ _ _).mp h
  have hline := (solid_quoteIdentifier hcolumn).line
  cases hvalue : cell.2 with
  | none =>
    rw [hvalue] at h
    rw [← Except.ok.inj h]
    have hsplit : column ++ " IS NULL".toList = column ++ " IS ".toList ++ "NULL".toList := by simp
    rw [hsplit]
    exact Solid.append (by simp [hline]) (Solid.of_all (by decide) (by decide))
  | some value =>
    rw [hvalue] at h
    obtain ⟨literal, hliteral, h⟩ := (Outcome.bind_eq_ok _ _ _).mp h
    rw [← Except.ok.inj h]
    exact Solid.append (by simp [hline]) (solid_serializeMysqlValue hliteral)

theorem Solid.limit (h : Solid text) (usesPrimaryKey : Bool) :
    Solid (text ++ limitOne usesPrimaryKey) := by
  cases usesPrimaryKey with
  | true => simpa [limitOne] using h
  | false =>
    have hsplit : text ++ limitOne false = text ++ " LIMIT ".toList ++ "1".toList := by
      simp [limitOne]
    rw [hsplit]
    exact Solid.append (by simp [h.line]) (Solid.of_all (by decide) (by decide))

theorem solid_buildResultGridWhere {usesPrimaryKey : Bool} (hheaders : 2 ≤ headers.length)
    (hrow : row.length = headers.length)
    (h : buildResultGridWhere headers row = .ok (text, usesPrimaryKey)) : Solid text := by
  obtain ⟨predicates, hpredicates, h⟩ := (Outcome.bind_eq_ok _ _ _).mp h
  have htext : " AND ".toList.intercalate predicates = text := (Prod.mk.inj (Except.ok.inj h)).1
  have hbuilt := Outcome.forall₂_of_mapM hpredicates
  rw [← htext]
  apply Solid.intercalate _ (by decide)
  · intro part hpart
    obtain ⟨cell, -, hcell⟩ := exists_of_forall₂ hbuilt.flip hpart
    exact solid_wherePredicate hcell
  · rintro rfl
    cases hnone : identifyingCells headers row with
    | nil => exact identifyingCells_ne_nil hheaders hrow hnone
    | cons => rw [hnone] at hbuilt; cases hbuilt

theorem line_joinComma (hparts : ∀ part ∈ parts, Solid part) :
    '\n' ∉ joinComma parts :=
  line_intercalate (by decide) fun part hpart => (hparts part hpart).line

/-- What a statement begins with. -/
def verbs : List (List Char) := ["INSERT INTO ", "UPDATE ", "DELETE FROM "].map String.toList

/-- A statement that can stand on a line of a script. -/
structure StandsAlone (statement : List Char) : Prop where
  solid : Solid statement
  verb : ∃ verb ∈ verbs, verb <+: statement

theorem standsAlone_insert (htable : Solid quoted)
    (h : buildResultGridInsert quoted headers row = .ok statement) : StandsAlone statement := by
  obtain ⟨written, hwritten, h⟩ := (Outcome.bind_eq_ok _ _ _).mp h
  have hparts := solid_assignedCells hwritten
  have hnames : '\n' ∉ joinComma (written.map Prod.fst) :=
    line_joinComma (by simpa using fun a b hmem => (hparts (a, b) hmem).1)
  have hvalues : '\n' ∉ joinComma (written.map Prod.snd) :=
    line_joinComma (by simpa using fun a b hmem => (hparts (b, a) hmem).2)
  split_ifs at h with hnone
  · rw [← Except.ok.inj h]
    refine ⟨?_, "INSERT INTO ".toList, by simp [verbs], ?_⟩
    · have hsplit : "INSERT INTO ".toList ++ quoted ++ " () VALUES ()".toList =
          "INSERT INTO ".toList ++ quoted ++ " () VALUES (".toList ++ [')'] := by simp
      rw [hsplit]
      exact Solid.concat (by simp [htable.line]) (by decide)
    · simp
  · rw [← Except.ok.inj h]
    refine ⟨?_, "INSERT INTO ".toList, by simp [verbs], ?_⟩
    · exact Solid.concat (by simp [htable.line, hnames, hvalues]) (by decide)
    · simp [List.append_assoc]

theorem standsAlone_update
    {oldRow : GridRow} (htable : Solid quoted) (hheaders : 2 ≤ headers.length)
    (hrow : oldRow.length = headers.length)
    (h : buildResultGridUpdate quoted headers row oldRow = .ok statement) :
    StandsAlone statement := by
  obtain ⟨written, hwritten, h⟩ := (Outcome.bind_eq_ok _ _ _).mp h
  split_ifs at h
  obtain ⟨⟨whereClause, usesPrimaryKey⟩, hwhere, h⟩ := (Outcome.bind_eq_ok _ _ _).mp h
  rw [← Except.ok.inj h]
  have hassignments : '\n' ∉ joinComma (written.map assignmentText) := by
    apply line_joinComma
    intro part hpart
    obtain ⟨item, hitem, rfl⟩ := List.mem_map.mp hpart
    obtain ⟨hcolumn, hliteral⟩ := solid_assignedCells hwritten item hitem
    exact Solid.append (by simp [hcolumn.line]) hliteral
  refine ⟨?_, "UPDATE ".toList, by simp [verbs], by simp [List.append_assoc]⟩
  apply Solid.limit
  exact Solid.append (by simp [htable.line, hassignments])
    (solid_buildResultGridWhere hheaders hrow hwhere)

theorem standsAlone_delete
    {oldRow : GridRow} (htable : Solid quoted) (hheaders : 2 ≤ headers.length)
    (hrow : oldRow.length = headers.length)
    (h : buildResultGridDelete quoted headers oldRow = .ok statement) :
    StandsAlone statement := by
  obtain ⟨⟨whereClause, usesPrimaryKey⟩, hwhere, h⟩ := (Outcome.bind_eq_ok _ _ _).mp h
  rw [← Except.ok.inj h]
  refine ⟨?_, "DELETE FROM ".toList, by simp [verbs], by simp [List.append_assoc]⟩
  apply Solid.limit
  exact Solid.append (by simp [htable.line]) (solid_buildResultGridWhere hheaders hrow hwhere)

theorem standsAlone_statement {table : MysqlQualifiedName} {operation : MysqlResultGridOperation}
    (h : buildMysqlResultGridSql table headers operation = .ok statement) :
    StandsAlone statement := by
  obtain ⟨_, hvalid, h⟩ := (Outcome.bind_eq_ok _ _ _).mp h
  obtain ⟨quoted, hquoted, h⟩ := (Outcome.bind_eq_ok _ _ _).mp h
  have htable := solid_quoteQualifiedName hquoted
  obtain ⟨hheaders, hlengths⟩ := lengths_of_validate hvalid
  cases htype : operation.operationType with
  | create =>
    rw [htype] at h
    exact standsAlone_insert htable h
  | update =>
    rw [htype] at h
    exact standsAlone_update htable hheaders (hlengths (by simp [htype])) h
  | delete =>
    rw [htype] at h
    exact standsAlone_delete htable hheaders (hlengths (by simp [htype])) h

/-! ## Cutting the script -/

theorem StandsAlone.head (h : StandsAlone statement) :
    ∃ c ∈ statement.head?, Text.blank c = false := by
  obtain ⟨verb, hverb, rest, rfl⟩ := h.verb
  simp only [verbs, List.map_cons, List.map_nil, List.mem_cons, List.not_mem_nil, or_false] at hverb
  rcases hverb with rfl | rfl | rfl
  · exact ⟨'I', by simp, by decide⟩
  · exact ⟨'U', by simp, by decide⟩
  · exact ⟨'D', by simp, by decide⟩

theorem StandsAlone.trim (h : StandsAlone statement) :
    Text.trim statement = statement := by
  obtain ⟨first, hfirst, hblank⟩ := h.head
  obtain ⟨last, hlast, hsolid⟩ := h.solid.last
  apply Text.trim_eq_self
  · intro c hc
    rw [hfirst] at hc
    rwa [← Option.some.inj hc]
  · intro c hc
    rw [hlast] at hc
    rwa [← Option.some.inj hc]

theorem push_statement (hlead : lead = [] ∨ lead = ['\n']) (h : StandsAlone statement) :
    Marking.push (lead ++ statement) = [statement] := by
  have htrim : Text.trim (lead ++ statement) = statement := by
    rcases hlead with rfl | rfl
    · exact h.trim
    · have hline : Text.trim ('\n' :: statement) = Text.trim statement := rfl
      rw [List.singleton_append, hline, h.trim]
  rw [Marking.push, htrim, if_neg h.solid.ne_nil]

def scriptOf (statements : List (List Char)) : List Char :=
  ";\n".toList.intercalate statements ++ ";".toList

/-- A statement on a line of its own is read back from the script. -/
theorem readFrom_line {later : Marked}
    (hlead : lead = [] ∨ lead = ['\n']) (h : StandsAlone statement)
    (htokens : (tokens true statement).isSome)
    (hlater : mysql.lexer.readFrom .text rest = some later) :
    ∃ marked, mysql.lexer.readFrom .text (lead ++ (statement ++ ';' :: rest)) = some marked ∧
      Marking.statements marked = statement :: Marking.statements later := by
  have hends : EndsHere (';' :: rest) := fun c hc => (Option.some.inj hc).symm
  obtain ⟨marked, htext, hstop, hread⟩ := readFrom_statement htokens hends
  have hcut : mysql.lexer.readFrom .text (';' :: rest) = some ((';', .stop) :: later) := by
    rw [Lexer.readFrom_cons]
    show (mysql.lexer.readFrom .text rest).map _ = _
    rw [hlater]
    rfl
  rw [hcut] at hread
  have hlone : ∀ front : Marked, NoStop front → Marking.text front = lead →
      Marking.statements (front ++ marked ++ (';', .stop) :: later) =
        statement :: Marking.statements later := by
    intro front hfront hlines
    have hplain : NoStop (front ++ marked) := by
      intro item hitem
      exact (List.mem_append.mp hitem).elim (hfront item) (hstop item)
    rw [Marking.statements_append_stop]
    have hone : Marking.statements (front ++ marked) = [statement] := by
      have hjoined : Marking.text (front ++ marked) = lead ++ statement := by
        simp only [Marking.text, List.map_append] at hlines htext ⊢
        rw [hlines, htext]
      simp [Marking.statements, Marking.segments_of_noStop hplain, hjoined,
        push_statement hlead h]
    rw [hone]
    rfl
  rcases hlead with rfl | rfl
  · exact ⟨_, hread, hlone [] (by simp [NoStop]) rfl⟩
  · refine ⟨('\n', .code) :: (marked ++ (';', .stop) :: later), ?_, ?_⟩
    · rw [List.singleton_append, Lexer.readFrom_cons]
      show (mysql.lexer.readFrom .text _).map _ = _
      rw [hread]
      rfl
    · exact hlone [('\n', .code)] (by simp [NoStop]) rfl

theorem readFrom_script (hlead : lead = [] ∨ lead = ['\n']) (hsome : statements ≠ [])
    (h : ∀ statement ∈ statements, StandsAlone statement ∧ (tokens true statement).isSome) :
    ∃ marked, mysql.lexer.readFrom .text (lead ++ scriptOf statements) = some marked ∧
      Marking.statements marked = statements := by
  induction statements generalizing lead with
  | nil => exact absurd rfl hsome
  | cons statement statements ih =>
    obtain ⟨halone, htokens⟩ := h statement List.mem_cons_self
    cases statements with
    | nil =>
      have hend : mysql.lexer.readFrom .text [] = some [] := rfl
      obtain ⟨marked, hread, hmarked⟩ := readFrom_line hlead halone htokens hend
      exact ⟨marked, by simpa [scriptOf] using hread, hmarked⟩
    | cons next statements =>
      obtain ⟨later, hlater, hrest⟩ := ih (.inr rfl) (by simp)
        fun other hother => h other (List.mem_cons_of_mem _ hother)
      obtain ⟨marked, hread, hmarked⟩ := readFrom_line hlead halone htokens hlater
      refine ⟨marked, ?_, by rw [hmarked, hrest]⟩
      rw [← hread, scriptOf, List.intercalate_cons_cons]
      simp [scriptOf]

/-! ## No directives -/

theorem trim_cons_four {a b c d : Char} (ha : Text.blank a = false) (hd : Text.blank d = false)
    (rest : List Char) : ∃ later, Text.trim (a :: b :: c :: d :: rest) = a :: b :: c :: d :: later := by
  have hfront : (a :: b :: c :: d :: rest).dropWhile Text.blank = a :: b :: c :: d :: rest := by
    simp [ha]
  have hback : (a :: b :: c :: d :: rest).reverse = rest.reverse ++ [d, c, b, a] := by simp
  rw [Text.trim, hfront, List.rdropWhile, hback, List.dropWhile_append]
  split_ifs
  · exact ⟨[], by simp [hd]⟩
  · exact ⟨(rest.reverse.dropWhile Text.blank).reverse, by simp⟩

theorem directive_absent {a b d : Char} (ha : Text.blank a = false)
    (hd : Text.blank d = false) (hline : '\n' ∉ [a, b, c, d])
    (hletters : [a, b, c, d].map Char.toLower ≠ "deli".toList) :
    directive (a :: b :: c :: d :: rest) = .absent := by
  simp only [List.mem_cons, List.not_mem_nil, or_false, not_or] at hline
  obtain ⟨later, htrim⟩ := @trim_cons_four a b c d ha hd (rest.takeWhile fun c => c ≠ '\n')
  have htake : (a :: b :: c :: d :: rest).takeWhile (fun c => c ≠ '\n') =
      a :: b :: c :: d :: rest.takeWhile fun c => c ≠ '\n' := by
    simp [Ne.symm hline.1, Ne.symm hline.2.1, Ne.symm hline.2.2.1, Ne.symm hline.2.2.2]
  unfold directive
  extract_lets line name
  rw [if_neg]
  rintro ⟨hword, -⟩
  have hstart : line = a :: b :: c :: d :: later := by
    show Text.trim _ = _
    rw [htake, htrim]
  have hkeyword : ((a :: b :: c :: d :: later).take 9).map Char.toLower =
      ['d', 'e', 'l', 'i', 'm', 'i', 't', 'e', 'r'] := hstart ▸ hword
  simp only [List.take_succ_cons, List.map_cons, List.cons.injEq] at hkeyword
  obtain ⟨h1, h2, h3, h4, -⟩ := hkeyword
  apply hletters
  simp [h1, h2, h3, h4]

theorem StandsAlone.directive (h : StandsAlone statement) (hstatement : statement <+: rest) :
    directive rest = .absent := by
  obtain ⟨verb, hverb, hprefix⟩ := h.verb
  obtain ⟨later, rfl⟩ := hprefix.trans hstatement
  simp only [verbs, List.map_cons, List.map_nil, List.mem_cons, List.not_mem_nil, or_false] at hverb
  rcases hverb with rfl | rfl | rfl
  all_goals exact directive_absent (by decide) (by decide) (by decide) (by decide)

theorem prefix_scriptOf (statement : List Char) (statements : List (List Char)) :
    statement <+: scriptOf (statement :: statements) := by
  cases statements with
  | nil => simp [scriptOf]
  | cons next statements => simp [scriptOf, List.intercalate_cons_cons]

/-- The lines of a script are its statements. -/
theorem exists_statement_of_line {before : List Char}
    (h : ∀ statement ∈ statements, '\n' ∉ statement)
    (hscript : scriptOf statements = before ++ rest) (hbefore : before.getLast? = some '\n') :
    ∃ statement ∈ statements, statement <+: rest := by
  have hmem : '\n' ∈ before := List.mem_of_getLast? hbefore
  induction statements generalizing before with
  | nil =>
    have hin : '\n' ∈ scriptOf [] := by
      rw [hscript]
      exact List.mem_append_left _ hmem
    exact absurd hin (by decide)
  | cons statement statements ih =>
    have hline := h statement List.mem_cons_self
    cases statements with
    | nil =>
      have hin : '\n' ∈ scriptOf [statement] := by
        rw [hscript]
        exact List.mem_append_left _ hmem
      simp [scriptOf, hline] at hin
    | cons next statements =>
      have hsplit : scriptOf (statement :: next :: statements) =
          statement ++ [';', '\n'] ++ scriptOf (next :: statements) := by
        simp [scriptOf, List.intercalate_cons_cons]
      have hnext : ∃ other ∈ next :: statements, other <+: scriptOf (next :: statements) :=
        ⟨next, List.mem_cons_self, prefix_scriptOf next statements⟩
      have hlater : ∃ other ∈ next :: statements, other <+: rest := by
        rw [hsplit] at hscript
        -- the line break is the one behind this statement, or a later one
        rcases List.append_eq_append_iff.mp hscript with ⟨more, hfront, hback⟩ | ⟨more, hfront, hback⟩
        · by_cases hmore : more = []
          · rw [hmore, List.nil_append] at hback
            exact hback ▸ hnext
          · have hlast : more.getLast? = some '\n' := by
              rwa [hfront, List.getLast?_append_of_ne_nil _ hmore] at hbefore
            exact ih (fun other hother => h other (List.mem_cons_of_mem _ hother)) hback hlast
              (List.mem_of_getLast? hlast)
        · have hmore : more = [] := by
            by_contra hmore
            have hdrop := congrArg List.dropLast hfront
            rw [List.dropLast_append_of_ne_nil hmore] at hdrop
            have hin : '\n' ∈ (statement ++ [';', '\n']).dropLast := by
              rw [hdrop]
              exact List.mem_append_left _ hmem
            rw [List.dropLast_append_of_ne_nil (by simp)] at hin
            simp [hline] at hin
          rw [hmore, List.nil_append] at hback
          exact hback ▸ hnext
      obtain ⟨other, hother, hprefix⟩ := hlater
      exact ⟨other, List.mem_cons_of_mem _ hother, hprefix⟩

theorem noDirectiveLine_script (hsome : statements ≠ [])
    (h : ∀ statement ∈ statements, StandsAlone statement) :
    NoDirectiveLine (scriptOf statements) := by
  intro before rest hscript hline
  rcases hline with rfl | hline
  · obtain ⟨statement, later, rfl⟩ := List.exists_cons_of_ne_nil hsome
    rw [List.nil_append] at hscript
    exact (h statement List.mem_cons_self).directive (hscript ▸ prefix_scriptOf statement later)
  · obtain ⟨statement, hmem, hprefix⟩ :=
      exists_statement_of_line (fun statement hmem => (h statement hmem).solid.line) hscript hline
    exact (h statement hmem).directive hprefix

/-- A script of up to a thousand operations is cut into the statements of the operations, and
each of them is read as the change that was asked for. -/
theorem buildMysqlResultGridScript_reads_back (table : MysqlQualifiedName)
    (headers : List MysqlResultGridHeader) (operations : List MysqlResultGridOperation)
    (script : List Char) (hcount : operations.length ≤ maxConsoleStatements)
    (h : buildMysqlResultGridScript table headers operations = .ok script) :
    ∃ statements, operations.mapM (buildMysqlResultGridSql table headers) = .ok statements ∧
      splitMysqlScript script = .ok statements ∧
      List.Forall₂ (fun operation statement =>
        readStatement true statement = some (intendedStatement table headers operation))
        operations statements := by
  unfold buildMysqlResultGridScript at h
  split_ifs at h with hnone
  obtain ⟨statements, hstatements, h⟩ := (Outcome.bind_eq_ok _ _ _).mp h
  have hbuilt := Outcome.forall₂_of_mapM hstatements
  have hlength : operations.length = statements.length := hbuilt.length_eq
  have hreads : List.Forall₂ (fun operation statement =>
      readStatement true statement = some (intendedStatement table headers operation))
      operations statements := hbuilt.imp fun _ _ hone => readStatement_build hone
  have hall : ∀ statement ∈ statements,
      StandsAlone statement ∧ (tokens true statement).isSome := by
    intro statement hstatement
    obtain ⟨operation, -, hone⟩ := exists_of_forall₂ hbuilt.flip hstatement
    refine ⟨standsAlone_statement hone, ?_⟩
    obtain ⟨list, hlist, -⟩ := Option.bind_eq_some_iff.mp (readStatement_build hone)
    rw [hlist]
    rfl
  have hsome : statements ≠ [] := by
    rintro rfl
    exact hnone (List.length_eq_zero_iff.mp hlength)
  obtain ⟨marked, hread, hmarked⟩ := readFrom_script (.inl rfl) hsome hall
  have hscript : script = scriptOf statements := (Except.ok.inj h).symm
  have hroom : (Marking.statements marked).length ≤ maxConsoleStatements := by
    rw [hmarked, ← hlength]
    exact hcount
  have hsplit := splitMysqlScript_of_read
    (noDirectiveLine_script hsome fun statement hmem => (hall statement hmem).1) hread hroom
  rw [hmarked] at hsplit
  exact ⟨statements, hstatements, hscript ▸ hsplit, hreads⟩

def notesTable : MysqlQualifiedName :=
  { databaseName := none, schemaName := none, name := "notes".toList }

def notesHeaders : List MysqlResultGridHeader :=
  [{ name := "row".toList, columnType := [], dataType := [], primaryKey := false,
     autoIncrement := false },
   { name := "id".toList, columnType := "bigint unsigned".toList, dataType := [],
     primaryKey := true, autoIncrement := true },
   { name := "note".toList, columnType := "varchar(80)".toList, dataType := [],
     primaryKey := false, autoIncrement := false }]

/-- A note that ends a line with a semicolon, and begins the next one with a directive. -/
def notesUpdate : MysqlResultGridOperation :=
  { operationType := .update
    dataList := [none, some "7".toList, some "it's;\nDELIMITER $".toList]
    oldDataList := [none, some "7".toList, none] }

def notesDelete : MysqlResultGridOperation :=
  { operationType := .delete, dataList := [], oldDataList := [none, some "8".toList, none] }

def notesScript : List Char :=
  "UPDATE `notes` SET `note` = 'it''s;\\nDELIMITER $' WHERE `id` = 7;\n".toList ++
    "DELETE FROM `notes` WHERE `id` = 8;".toList

theorem notesScript_reads_back :
    ∃ statements, [notesUpdate, notesDelete].mapM
        (buildMysqlResultGridSql notesTable notesHeaders) = .ok statements ∧
      splitMysqlScript notesScript = .ok statements ∧
      List.Forall₂ (fun operation statement =>
        readStatement true statement = some (intendedStatement notesTable notesHeaders operation))
        [notesUpdate, notesDelete] statements :=
  buildMysqlResultGridScript_reads_back notesTable notesHeaders [notesUpdate, notesDelete]
    notesScript (by decide) (by rfl)

end Chat2DB.MySql.Ddl
