import Chat2DB.MySql.Values

/-! # Statements that change rows

The tokens of an INSERT, an UPDATE or a DELETE as a statement: its table, the columns with
the values that they are given, and the rows that it is about as a disjunction of
conjunctions. Anything else is not parsed.
-/

namespace Chat2DB.MySql

variable {lists : List (List Token)} {list : List Token} {token : Token} {path : List (List Char)}
  {conditions : List Condition} {rows : List (List (List Token))}

inductive Condition where
  | isNull (column : List Char)
  | equal (column : List Char) (value : SqlValue)
  | like (column : List Char) (pattern : SqlValue)
  | oneOf (column : List Char) (values : List SqlValue)
deriving DecidableEq

/-- Conjunctions, of which one has to hold. -/
abbrev Predicate := List (List Condition)

inductive Assigned where
  | value (value : SqlValue)
  | default
deriving DecidableEq

inductive Statement where
  | insert (path columns : List (List Char)) (rows : List (List Assigned))
  | update (path : List (List Char)) (assignments : List (List Char × Assigned))
      (predicate : Predicate) (limit : Option (List Char))
  | delete (path : List (List Char)) (predicate : Predicate) (limit : Option (List Char))
deriving DecidableEq

/-! ## Parsing -/

local instance lawfulToken : LawfulBEq Token := inferInstance

def keywordToken (word : String) : Token := .word word.toList

/-- What stands before the first of these tokens, and what stands behind it. -/
def cutAt (token : Token) : List Token → Option (List Token × List Token)
  | [] => none
  | next :: rest =>
    if next = token then some ([], rest)
    else (cutAt token rest).map fun cut => (next :: cut.1, cut.2)

def expect (token : Token) : List Token → Option (List Token)
  | [] => none
  | next :: rest => if next = token then some rest else none

def readName : List Token → Option (List Char)
  | [.name text] => some text
  | _ => none

def parsePath (list : List Token) : Option (List (List Char)) :=
  (list.splitOn (.symbol '.')).mapM readName

/-- The items between the commas. -/
def parseItems {α : Type} (read : List Token → Option α) (list : List Token) : Option (List α) :=
  if list = [] then some [] else (list.splitOn (.symbol ',')).mapM read

def readAssigned (list : List Token) : Option Assigned :=
  if list = [keywordToken "DEFAULT"] then some .default
  else (readLiteral list).map .value

def parseAssignment : List Token → Option (List Char × Assigned)
  | .name column :: .symbol '=' :: list => (readAssigned list).map fun value => (column, value)
  | _ => none

/-- What a list of tokens has between its parentheses. -/
def inParentheses : List Token → Option (List Token)
  | .symbol '(' :: rest => if rest.getLast? = some (.symbol ')') then some rest.dropLast else none
  | _ => none

def parseCondition : List Token → Option Condition
  | .name column :: .symbol '=' :: list => (readLiteral list).map (.equal column)
  | .name column :: .word word :: list =>
    if word = "LIKE".toList then (readLiteral list).map (.like column)
    else if word = "IS".toList ∧ list = [keywordToken "NULL"] then some (.isNull column)
    else if word = "IN".toList then
      ((inParentheses list).bind (parseItems readLiteral)).map (.oneOf column)
    else none
  | _ => none

def parseConjunction (list : List Token) : Option (List Condition) :=
  (((inParentheses list).getD list).splitOn (keywordToken "AND")).mapM parseCondition

def parsePredicate (list : List Token) : Option Predicate :=
  (list.splitOn (keywordToken "OR")).mapM parseConjunction

/-- A row, with the comma in front of it. -/
def parseRow : List Token → Option (List Assigned)
  | .symbol ',' :: .symbol '(' :: list => parseItems readAssigned list
  | _ => none

def parseRows (list : List Token) : Option (List (List Assigned)) :=
  let pieces := (Token.symbol ',' :: list).splitOn (.symbol ')')
  if pieces.getLast? = some [] then pieces.dropLast.mapM parseRow else none

/-- The rows that the statement is about, and how many of them it may change. -/
def parseSelection (list : List Token) : Option (Predicate × Option (List Char)) :=
  match cutAt (keywordToken "LIMIT") list with
  | none => (parsePredicate list).map fun predicate => (predicate, none)
  | some (predicate, [.number limit]) =>
    (parsePredicate predicate).map fun predicate => (predicate, some limit)
  | some _ => none

def parseInsert (list : List Token) : Option Statement := do
  let rest ← expect (keywordToken "INTO") list
  let (path, rest) ← cutAt (.symbol '(') rest
  let (columns, rest) ← cutAt (.symbol ')') rest
  let rest ← expect (keywordToken "VALUES") rest
  let path ← parsePath path
  let columns ← parseItems readName columns
  let rows ← parseRows rest
  return .insert path columns rows

def parseUpdate (list : List Token) : Option Statement := do
  let (path, rest) ← cutAt (keywordToken "SET") list
  let (assignments, rest) ← cutAt (keywordToken "WHERE") rest
  let path ← parsePath path
  let assignments ← parseItems parseAssignment assignments
  let (predicate, limit) ← parseSelection rest
  return .update path assignments predicate limit

def parseDelete (list : List Token) : Option Statement := do
  let rest ← expect (keywordToken "FROM") list
  let (path, rest) ← cutAt (keywordToken "WHERE") rest
  let path ← parsePath path
  let (predicate, limit) ← parseSelection rest
  return .delete path predicate limit

def parseStatement : List Token → Option Statement
  | .word verb :: rest =>
    if verb = "INSERT".toList then parseInsert rest
    else if verb = "UPDATE".toList then parseUpdate rest
    else if verb = "DELETE".toList then parseDelete rest
    else none
  | _ => none

/-- The statement that a server reads, in whose SQL mode a backslash escapes or does not. -/
def readStatement (escapes : Bool) (text : List Char) : Option Statement :=
  (tokens escapes text).bind parseStatement

/-! ## Lists of items -/

theorem mapM_of_forall₂ {α β : Type} {read : α → Option β} {lists : List α} {values : List β}
    (h : List.Forall₂ (fun list value => read list = some value) lists values) :
    lists.mapM read = some values := by
  induction h with
  | nil => rfl
  | cons hfirst _ ih => simp [List.mapM_cons, hfirst, ih]

theorem exists_of_forall₂ {α β : Type} {R : α → β → Prop} {lists : List α} {values : List β}
    (h : List.Forall₂ R lists values) {list : α} (hlist : list ∈ lists) :
    ∃ value ∈ values, R list value := by
  induction h with
  | nil => cases hlist
  | @cons first value lists values hfirst _ ih =>
    rcases List.mem_cons.mp hlist with rfl | hlist
    · exact ⟨value, List.mem_cons_self, hfirst⟩
    · obtain ⟨later, hlater, hreads⟩ := ih hlist
      exact ⟨later, List.mem_cons_of_mem _ hlater, hreads⟩

theorem mapM_intercalate {β : Type} {read : List Token → Option β} {separator : Token}
    {values : List β} (hsome : lists ≠ []) (hplain : ∀ list ∈ lists, separator ∉ list)
    (h : List.Forall₂ (fun list value => read list = some value) lists values) :
    (([separator].intercalate lists).splitOn separator).mapM read = some values := by
  rw [List.splitOn_intercalate separator hplain hsome, mapM_of_forall₂ h]

theorem intercalate_ne_nil {separator : List Token} (hsome : lists ≠ []) (hnil : [] ∉ lists) :
    separator.intercalate lists ≠ [] := by
  cases lists with
  | nil => exact absurd rfl hsome
  | cons first rest =>
    have hfirst : first ≠ [] := fun h => hnil (h ▸ List.mem_cons_self)
    cases rest with
    | nil => simpa using hfirst
    | cons next rest =>
      rw [List.intercalate_cons_cons]
      simp [hfirst]

theorem parseItems_intercalate {β : Type} {read : List Token → Option β}
    {values : List β} (hplain : ∀ list ∈ lists, .symbol ',' ∉ list)
    (hnil : [] ∉ lists) (h : List.Forall₂ (fun list value => read list = some value) lists values) :
    parseItems read ([Token.symbol ','].intercalate lists) = some values := by
  unfold parseItems
  by_cases hsome : lists = []
  · subst hsome
    cases h
    rfl
  · rw [if_neg (intercalate_ne_nil hsome hnil), mapM_intercalate hsome hplain h]

theorem mem_intercalate {α : Type} {separator : List α} {lists : List (List α)} {token : α}
    (h : token ∈ separator.intercalate lists) :
    token ∈ separator ∨ ∃ list ∈ lists, token ∈ list := by
  induction lists with
  | nil => cases h
  | cons first rest ih =>
    cases rest with
    | nil => exact .inr ⟨first, List.mem_cons_self, by simpa using h⟩
    | cons next rest =>
      rw [List.intercalate_cons_cons, List.mem_append, List.mem_append] at h
      rcases h with (h | h) | h
      · exact .inr ⟨first, List.mem_cons_self, h⟩
      · exact .inl h
      · exact (ih h).imp id fun ⟨list, hlist, hmem⟩ => ⟨list, List.mem_cons_of_mem _ hlist, hmem⟩

theorem cutAt_append {first : List Token} (hfirst : token ∉ first) (rest : List Token) :
    cutAt token (first ++ token :: rest) = some (first, rest) := by
  induction first with
  | nil => simp [cutAt]
  | cons next first ih =>
    rw [List.mem_cons, not_or] at hfirst
    rw [List.cons_append, cutAt, if_neg (Ne.symm hfirst.1), ih hfirst.2]
    rfl

theorem cutAt_eq_none (hlist : token ∉ list) :
    cutAt token list = none := by
  induction list with
  | nil => rfl
  | cons next list ih =>
    rw [List.mem_cons, not_or] at hlist
    rw [cutAt, if_neg (Ne.symm hlist.1), ih hlist.2]
    rfl

/-! ## Literals and names -/

local instance lawfulWord : LawfulBEq (List Char) := inferInstance

/-- Whether a literal may have the token in it. -/
def inLiteral : Token → Bool
  | .symbol c => c = '+' || c = '-'
  | .word word => word ∈ ["NULL", "TRUE", "FALSE", "DEFAULT"].map String.toList
  | .name _ => false
  | .text _ | .bytes _ | .bits _ | .number _ => true

theorem inLiteral_of_readLiteral {value : SqlValue} (h : readLiteral list = some value) :
    list ≠ [] ∧ ∀ token ∈ list, inLiteral token = true := by
  unfold readLiteral at h
  split at h
  · split_ifs at h with hnull htrue hfalse
    all_goals simp_all [inLiteral]
  all_goals simp_all [inLiteral]

theorem inLiteral_of_readAssigned {value : Assigned} (h : readAssigned list = some value) :
    list ≠ [] ∧ ∀ token ∈ list, inLiteral token = true := by
  unfold readAssigned at h
  split_ifs at h with hdefault
  · rw [hdefault]
    simp [inLiteral, keywordToken]
  · obtain ⟨content, hcontent, -⟩ := Option.map_eq_some_iff.mp h
    exact inLiteral_of_readLiteral hcontent

theorem not_mem_of_inLiteral (h : ∀ token ∈ list, inLiteral token = true)
    (htoken : inLiteral token = false) : token ∉ list := by
  intro hmem
  rw [h token hmem] at htoken
  cases htoken

theorem parsePath_pathTokens (hpath : path ≠ []) :
    parsePath (pathTokens path) = some path := by
  apply mapM_intercalate (by simpa using hpath)
  · simp
  · rw [List.forall₂_map_left_iff]
    exact List.forall₂_same.mpr fun name _ => rfl

theorem not_mem_pathTokens (hdot : token ≠ .symbol '.') (hname : ∀ text, token ≠ .name text) :
    token ∉ pathTokens path := by
  intro hmem
  rcases mem_intercalate hmem with hmem | ⟨list, hlist, hmem⟩
  · exact hdot (List.mem_singleton.mp hmem)
  · obtain ⟨name, -, rfl⟩ := List.mem_map.mp hlist
    exact hname name (List.mem_singleton.mp hmem)

/-! ## Conditions -/

/-- Whether the token ends a condition, or joins it to another. -/
def joinsConditions (token : Token) : Bool :=
  token ∈ ["AND", "OR", "LIMIT"].map keywordToken

/-- The tokens are those of one condition. -/
structure ReadsCondition (list : List Token) (condition : Condition) : Prop where
  parse : parseCondition list = some condition
  head : ∃ column rest, list = .name column :: rest
  plain : ∀ token ∈ list, joinsConditions token = false

theorem joins_of_inLiteral (h : inLiteral token = true) :
    joinsConditions token = false := by
  by_contra hjoins
  simp only [Bool.not_eq_false, joinsConditions, List.map_cons, List.map_nil, List.mem_cons,
    List.not_mem_nil, or_false, decide_eq_true_eq] at hjoins
  rcases hjoins with rfl | rfl | rfl <;> exact absurd h (by decide)

theorem readsCondition_isNull (column : List Char) :
    ReadsCondition [.name column, keywordToken "IS", keywordToken "NULL"] (.isNull column) where
  parse := by simp [parseCondition, keywordToken]
  head := ⟨column, _, rfl⟩
  plain := by simp [joinsConditions, keywordToken]

theorem readsCondition_equal (column : List Char) {value : SqlValue}
    (h : readLiteral list = some value) :
    ReadsCondition (.name column :: .symbol '=' :: list) (.equal column value) where
  parse := by simp [parseCondition, h]
  head := ⟨column, _, rfl⟩
  plain := by
    intro token htoken
    rw [List.mem_cons, List.mem_cons] at htoken
    rcases htoken with rfl | rfl | htoken
    · rfl
    · rfl
    · exact joins_of_inLiteral ((inLiteral_of_readLiteral h).2 token htoken)

theorem parseConjunction_intercalate
    (hsome : lists ≠ []) (h : List.Forall₂ ReadsCondition lists conditions) :
    (([keywordToken "AND"].intercalate lists).splitOn (keywordToken "AND")).mapM parseCondition =
      some conditions := by
  apply mapM_intercalate hsome
  · intro list hlist hmem
    obtain ⟨condition, -, hreads⟩ := exists_of_forall₂ h hlist
    exact absurd (hreads.plain _ hmem) (by decide)
  · exact h.imp fun _ _ hreads => hreads.parse

theorem head_intercalate (hsome : lists ≠ []) (h : List.Forall₂ ReadsCondition lists conditions) :
    ∃ column rest, [keywordToken "AND"].intercalate lists = .name column :: rest := by
  cases h with
  | nil => exact absurd rfl hsome
  | @cons list condition lists conditions hfirst hrest =>
    obtain ⟨column, rest, rfl⟩ := hfirst.head
    cases hrest with
    | nil => exact ⟨column, rest, by simp⟩
    | cons hnext hrest => exact ⟨column, _, by rw [List.intercalate_cons_cons]; rfl⟩

theorem parseConjunction_and (hsome : lists ≠ [])
    (h : List.Forall₂ ReadsCondition lists conditions) :
    parseConjunction ([keywordToken "AND"].intercalate lists) = some conditions := by
  obtain ⟨column, rest, hhead⟩ := head_intercalate hsome h
  have hbare : inParentheses ([keywordToken "AND"].intercalate lists) = none := by
    rw [hhead]
    rfl
  rw [parseConjunction, hbare, Option.getD_none, parseConjunction_intercalate hsome h]

theorem parsePredicate_or {predicate : Predicate}
    (hsome : lists ≠ []) (hplain : ∀ list ∈ lists, keywordToken "OR" ∉ list)
    (h : List.Forall₂ (fun list conditions => parseConjunction list = some conditions) lists
      predicate) :
    parsePredicate ([keywordToken "OR"].intercalate lists) = some predicate :=
  mapM_intercalate hsome hplain h

theorem parsePredicate_single
    (hplain : keywordToken "OR" ∉ list) (h : parseConjunction list = some conditions) :
    parsePredicate list = some [conditions] := by
  have hone := parsePredicate_or (List.cons_ne_nil list [])
    (by simpa using hplain) (.cons h .nil)
  rwa [List.intercalate_singleton] at hone

/-! ## Whole statements -/

theorem not_mem_conjunction (h : List.Forall₂ ReadsCondition lists conditions) :
    keywordToken "LIMIT" ∉ [keywordToken "AND"].intercalate lists ∧
      keywordToken "OR" ∉ [keywordToken "AND"].intercalate lists := by
  have hplain : ∀ list ∈ lists, ∀ token ∈ list, joinsConditions token = false := by
    intro list hlist
    obtain ⟨condition, -, hreads⟩ := exists_of_forall₂ h hlist
    exact hreads.plain
  constructor
  all_goals
    intro hmem
    rcases mem_intercalate hmem with hmem | ⟨list, hlist, hmem⟩
    · exact absurd (List.mem_singleton.mp hmem) (by decide)
    · exact absurd (hplain list hlist _ hmem) (by decide)

def limitTokens : Option (List Char) → List Token
  | none => []
  | some limit => [keywordToken "LIMIT", .number limit]

theorem parseSelection_and (hsome : lists ≠ []) (h : List.Forall₂ ReadsCondition lists conditions)
    (limit : Option (List Char)) :
    parseSelection ([keywordToken "AND"].intercalate lists ++ limitTokens limit) =
      some ([conditions], limit) := by
  have hpredicate := parsePredicate_single (not_mem_conjunction h).2 (parseConjunction_and hsome h)
  unfold parseSelection
  cases limit with
  | none =>
    rw [limitTokens, List.append_nil, cutAt_eq_none (not_mem_conjunction h).1, hpredicate]
    rfl
  | some limit =>
    rw [limitTokens, cutAt_append (not_mem_conjunction h).1]
    dsimp only
    rw [hpredicate]
    rfl

def commas (lists : List (List Token)) : List Token := [Token.symbol ','].intercalate lists

def rowTokens (row : List (List Token)) : List Token :=
  .symbol '(' :: (commas row ++ [.symbol ')'])

def insertTokens (path columns : List (List Char)) (rows : List (List (List Token))) : List Token :=
  keywordToken "INSERT" :: keywordToken "INTO" :: (pathTokens path ++ .symbol '(' ::
    (commas (columns.map fun column => [.name column]) ++ .symbol ')' :: keywordToken "VALUES" ::
      commas (rows.map rowTokens)))

def assignmentTokens (assignment : List Char × List Token) : List Token :=
  .name assignment.1 :: .symbol '=' :: assignment.2

def updateTokens (path : List (List Char)) (assignments : List (List Char × List Token))
    (conditions : List (List Token)) (limit : Option (List Char)) : List Token :=
  keywordToken "UPDATE" :: (pathTokens path ++ keywordToken "SET" ::
    (commas (assignments.map assignmentTokens) ++ keywordToken "WHERE" ::
      ([keywordToken "AND"].intercalate conditions ++ limitTokens limit)))

def deleteTokens (path : List (List Char)) (conditions : List (List Token))
    (limit : Option (List Char)) : List Token :=
  keywordToken "DELETE" :: keywordToken "FROM" :: (pathTokens path ++ keywordToken "WHERE" ::
    ([keywordToken "AND"].intercalate conditions ++ limitTokens limit))

theorem comma_commas_rows (hsome : rows ≠ []) :
    .symbol ',' :: commas (rows.map rowTokens) =
      [Token.symbol ')'].intercalate
        ((rows.map fun row => .symbol ',' :: .symbol '(' :: commas row) ++ [[]]) := by
  induction rows with
  | nil => exact absurd rfl hsome
  | cons row rows ih =>
    cases rows with
    | nil => simp [commas, rowTokens, List.intercalate_cons_cons]
    | cons next rows =>
      have hrest := ih (by simp)
      simp only [commas, List.map_cons, List.cons_append] at hrest ⊢
      rw [List.intercalate_cons_cons, List.intercalate_cons_cons, ← hrest]
      simp [rowTokens, commas]

theorem not_mem_commas (hcomma : token ≠ .symbol ',') (hlists : ∀ list ∈ lists, token ∉ list) :
    token ∉ commas lists := by
  intro hmem
  rcases mem_intercalate hmem with hmem | ⟨list, hlist, hmem⟩
  · exact hcomma (List.mem_singleton.mp hmem)
  · exact hlists list hlist hmem

/-- The lists are read as these values, one after another. -/
abbrev ReadsAssigned (lists : List (List Token)) (values : List Assigned) : Prop :=
  List.Forall₂ (fun list value => readAssigned list = some value) lists values

theorem ReadsAssigned.inLiteral {values : List Assigned}
    (h : ReadsAssigned lists values) (hlist : list ∈ lists) :
    list ≠ [] ∧ ∀ token ∈ list, inLiteral token = true := by
  obtain ⟨value, -, hvalue⟩ := exists_of_forall₂ h hlist
  exact inLiteral_of_readAssigned hvalue

theorem ReadsAssigned.parseItems {values : List Assigned} (h : ReadsAssigned lists values) :
    parseItems readAssigned (commas lists) = some values := by
  apply parseItems_intercalate _ _ h
  · exact fun list hlist => not_mem_of_inLiteral (h.inLiteral hlist).2 rfl
  · exact fun hnil => (h.inLiteral hnil).1 rfl

theorem parseRows_commas {values : List (List Assigned)}
    (hsome : rows ≠ []) (h : List.Forall₂ ReadsAssigned rows values) :
    parseRows (commas (rows.map rowTokens)) = some values := by
  have hplain : ∀ list ∈ (rows.map fun row => .symbol ',' :: .symbol '(' :: commas row) ++ [[]],
      Token.symbol ')' ∉ list := by
    intro list hlist
    rw [List.mem_append, List.mem_singleton] at hlist
    rcases hlist with hlist | rfl
    · obtain ⟨row, hrow, rfl⟩ := List.mem_map.mp hlist
      obtain ⟨value, -, hvalue⟩ := exists_of_forall₂ h hrow
      have hrest : Token.symbol ')' ∉ commas row :=
        not_mem_commas (by simp) fun list hlist =>
          not_mem_of_inLiteral (ReadsAssigned.inLiteral hvalue hlist).2 rfl
      simp [hrest]
    · simp
  unfold parseRows
  rw [comma_commas_rows hsome, List.splitOn_intercalate _ hplain (by simp)]
  simp only [List.getLast?_append, List.getLast?_singleton, Option.some_or, if_true,
    List.dropLast_concat]
  apply mapM_of_forall₂
  rw [List.forall₂_map_left_iff]
  exact h.imp fun row values hrow => ReadsAssigned.parseItems hrow

theorem parse_insertTokens {columns : List (List Char)}
    {values : List (List Assigned)} (hpath : path ≠ []) (hrows : rows ≠ [])
    (h : List.Forall₂ ReadsAssigned rows values) :
    parseStatement (insertTokens path columns rows) = some (.insert path columns values) := by
  have hopen : Token.symbol '(' ∉ pathTokens path := not_mem_pathTokens (by simp) (by simp)
  have hclose : Token.symbol ')' ∉ commas (columns.map fun column => [Token.name column]) :=
    not_mem_commas (by simp) (by simp)
  have hcolumns : parseItems readName (commas (columns.map fun column => [Token.name column])) =
      some columns := by
    apply parseItems_intercalate (by simp) (by simp)
    rw [List.forall₂_map_left_iff]
    exact List.forall₂_same.mpr fun column _ => rfl
  simp [insertTokens, parseStatement, keywordToken, parseInsert, expect, cutAt_append hopen,
    cutAt_append hclose, parsePath_pathTokens hpath, hcolumns, parseRows_commas hrows h]

/-- The tokens of an update are parsed as its parts. -/
theorem parse_updateTokens {assignments : List (List Char × List Token)}
    {values : List (List Char × Assigned)} (limit : Option (List Char)) (hpath : path ≠ [])
    (hvalues : List.Forall₂ (fun assignment value => assignment.1 = value.1 ∧
      readAssigned assignment.2 = some value.2) assignments values)
    (hsome : lists ≠ []) (h : List.Forall₂ ReadsCondition lists conditions) :
    parseStatement (updateTokens path assignments lists limit) =
      some (.update path values [conditions] limit) := by
  have hset : keywordToken "SET" ∉ pathTokens path :=
    not_mem_pathTokens (by simp [keywordToken]) (by simp [keywordToken])
  have hplain : ∀ list ∈ assignments.map assignmentTokens,
      keywordToken "WHERE" ∉ list ∧ Token.symbol ',' ∉ list := by
    intro list hlist
    obtain ⟨assignment, hassignment, rfl⟩ := List.mem_map.mp hlist
    obtain ⟨value, -, -, hvalue⟩ := exists_of_forall₂ hvalues hassignment
    have hliteral := (inLiteral_of_readAssigned hvalue).2
    have hwhere : keywordToken "WHERE" ∉ assignment.2 := not_mem_of_inLiteral hliteral (by decide)
    have hcomma : Token.symbol ',' ∉ assignment.2 := not_mem_of_inLiteral hliteral rfl
    refine ⟨?_, by simp [assignmentTokens, hcomma]⟩
    rw [assignmentTokens, List.mem_cons, List.mem_cons, not_or, not_or]
    exact ⟨by simp [keywordToken], by simp [keywordToken], hwhere⟩
  have hitems : parseItems parseAssignment (commas (assignments.map assignmentTokens)) =
      some values := by
    apply parseItems_intercalate (fun list hlist => (hplain list hlist).2)
    · simp [assignmentTokens]
    · rw [List.forall₂_map_left_iff]
      refine hvalues.imp fun assignment value hboth => ?_
      simp [assignmentTokens, parseAssignment, hboth.1, hboth.2]
  have hwhere : keywordToken "WHERE" ∉ commas (assignments.map assignmentTokens) :=
    not_mem_commas (by simp [keywordToken]) fun list hlist => (hplain list hlist).1
  have hverb : ∀ rest, parseStatement (keywordToken "UPDATE" :: rest) = parseUpdate rest := by
    intro rest
    simp [parseStatement, keywordToken]
  rw [updateTokens, hverb, parseUpdate]
  simp [cutAt_append hset, cutAt_append hwhere, parsePath_pathTokens hpath, hitems,
    parseSelection_and hsome h limit]

theorem parse_deleteTokens (limit : Option (List Char)) (hpath : path ≠ [])
    (hsome : lists ≠ []) (h : List.Forall₂ ReadsCondition lists conditions) :
    parseStatement (deleteTokens path lists limit) = some (.delete path [conditions] limit) := by
  have hwhere : keywordToken "WHERE" ∉ pathTokens path :=
    not_mem_pathTokens (by simp [keywordToken]) (by simp [keywordToken])
  have hverb : ∀ rest, parseStatement (keywordToken "DELETE" :: rest) = parseDelete rest := by
    intro rest
    simp [parseStatement, keywordToken]
  rw [deleteTokens, hverb, parseDelete]
  simp [expect, cutAt_append hwhere, parsePath_pathTokens hpath, parseSelection_and hsome h limit]

end Chat2DB.MySql
