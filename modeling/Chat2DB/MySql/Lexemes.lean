import Chat2DB.MySql.Scripts

/-! # Words of MySQL statements

The policy for reads does not parse a statement. It collects the words that are in no
quoted item and in no comment, and looks at the first of them and at a few phrases.
-/

namespace Chat2DB.MySql

open Sql (AppError)
open Utf8

inductive SqlToken where
  | word (text : List Char)
  | semicolon
deriving DecidableEq

structure SqlLexemes where
  tokens : List SqlToken
  executableComment : Bool
deriving DecidableEq

def invalidSqlLexeme (detail : String) : AppError :=
  .invalid "invalid_query_request" ("MySQL SQL contains an " ++ detail)

/-! ## The scanner -/

def skipLineComment (rest : List Cell) : List Cell :=
  rest.dropWhile fun cell => !(cell.ch = '\r' || cell.ch = '\n')

/-- What follows the end of a block comment, if it has one. -/
def skipBlockComment : List Cell → Option (List Cell)
  | [] => none
  | cell :: rest =>
    if cell.ch = '*' && rest[0]?.any (fun next => next.ch = '/') then some (rest.drop 1)
    else skipBlockComment rest

/-- What follows the end of a quoted item, if it has one. -/
def skipQuotedValue (quote : Char) : List Cell → Option (List Cell)
  | [] => none
  | cell :: rest =>
    if cell.ch = '\\' then skipQuotedValue quote (rest.drop 1)
    else if cell.ch = quote then
      if rest[0]?.any (fun next => next.ch = quote) then skipQuotedValue quote (rest.drop 1)
      else some rest
    else skipQuotedValue quote rest
termination_by rest => rest.length
decreasing_by
  all_goals simp only [List.length_drop, List.length_cons]
  all_goals omega

theorem skipBlockComment_length {rest later : List Cell}
    (hskip : skipBlockComment rest = some later) : later.length ≤ rest.length := by
  fun_induction skipBlockComment rest with
  | case1 => cases hskip
  | case2 cell rest =>
    cases hskip
    simp only [List.length_drop, List.length_cons]
    omega
  | case3 cell rest hclosing ih =>
    have := ih hskip
    simp only [List.length_cons]
    omega

theorem skipQuotedValue_length {quote : Char} {rest later : List Cell}
    (hskip : skipQuotedValue quote rest = some later) : later.length ≤ rest.length := by
  fun_induction skipQuotedValue quote rest with
  | case1 => cases hskip
  | case2 _ _ _ ih | case3 _ _ _ _ _ ih =>
    have := ih hskip
    simp only [List.length_drop, List.length_cons] at this ⊢
    omega
  | case4 cell rest =>
    cases hskip
    simp only [List.length_cons]
    omega
  | case5 cell rest hescape hquote ih =>
    have := ih hskip
    simp only [List.length_cons]
    omega

def wordStart (c : Char) : Bool := c.isAlpha || c = '_'

def wordPart (c : Char) : Bool := c.isAlphanum || c = '_' || c = '$'

/-- A comment that the server executes. -/
def executableOpening (rest : List Cell) : Bool :=
  rest[1]?.any (fun cell => cell.ch = '!') ||
    (rest[1]?.any (fun cell => cell.ch = 'm' || cell.ch = 'M') &&
      rest[2]?.any (fun cell => cell.ch = '!'))

def lexemeLoop (tokens : List SqlToken) (executableComment : Bool) :
    List Cell → Except Failure SqlLexemes
  | [] => .ok { tokens, executableComment }
  | cell :: rest =>
    if asciiWhitespace cell.ch then lexemeLoop tokens executableComment rest
    else if cell.ch = '#' then
      have := (List.dropWhile_suffix (fun cell => !(cell.ch = '\r' || cell.ch = '\n'))
        (l := rest)).length_le
      lexemeLoop tokens executableComment (skipLineComment rest)
    else if cell.ch = '-' && rest[0]?.any (fun next => next.ch = '-') &&
        rest[1]?.all (fun next => asciiWhitespace next.ch) then
      have := (List.dropWhile_suffix (fun cell => !(cell.ch = '\r' || cell.ch = '\n'))
        (l := rest)).length_le
      lexemeLoop tokens executableComment (skipLineComment rest)
    else if cell.ch = '/' && rest[0]?.any (fun next => next.ch = '*') then
      match hskip : skipBlockComment (rest.drop 1) with
      | none => .error (.error (invalidSqlLexeme "unterminated block comment"))
      | some later =>
        have := skipBlockComment_length hskip
        lexemeLoop tokens (executableComment || executableOpening rest) later
    else if cell.ch = '\'' || cell.ch = '"' || cell.ch = backtick then
      match hskip : skipQuotedValue cell.ch rest with
      | none => .error (.error (invalidSqlLexeme "unterminated quoted value"))
      | some later =>
        have := skipQuotedValue_length hskip
        lexemeLoop tokens executableComment later
    else if cell.ch = ';' then lexemeLoop (tokens ++ [.semicolon]) executableComment rest
    else if wordStart cell.ch then
      let word := rest.takeWhile fun next => wordPart next.ch
      let later := rest.dropWhile fun next => wordPart next.ch
      have := (List.dropWhile_suffix (fun next : Cell => wordPart next.ch) (l := rest)).length_le
      match slice (cell :: word) later with
      | none => .error .panic
      | some text =>
        lexemeLoop (tokens ++ [.word (text.map Char.toUpper)]) executableComment later
    else lexemeLoop tokens executableComment rest
termination_by rest => rest.length
decreasing_by
  all_goals simp_all only [skipLineComment, List.length_drop, List.length_cons]
  all_goals omega

def sqlLexemes (sql : List Char) : Except Failure SqlLexemes := lexemeLoop [] false (cells sql)

/-! ## The policies -/

def SqlToken.toWord : SqlToken → Option (List Char)
  | .word text => some text
  | .semicolon => none

@[simp] theorem SqlToken.toWord_word (text : List Char) : (SqlToken.word text).toWord = some text :=
  rfl

@[simp] theorem SqlToken.toWord_semicolon : SqlToken.semicolon.toWord = none := rfl

def readPolicyTokens (sql : List Char) (code message : String) :
    Except Failure (List SqlToken) :=
  match sqlLexemes sql with
  | .error failure => .error failure
  | .ok lexemes =>
    if lexemes.executableComment then .error (.error (.invalid code message))
    else .ok lexemes.tokens

/-- The words of the phrase come one after the other. -/
def containsPhrase (phrase : List String) (words : List (List Char)) : Bool :=
  words.tails.any fun rest => (phrase.map String.toList).isPrefixOf rest

/-- Reads that lock rows or write files of the server. -/
def forbiddenRead (words : List (List Char)) : Bool :=
  containsPhrase ["INTO", "OUTFILE"] words || containsPhrase ["INTO", "DUMPFILE"] words ||
    containsPhrase ["FOR", "UPDATE"] words ||
    containsPhrase ["LOCK", "IN", "SHARE", "MODE"] words

def unsupportedQuery (message : String) : Failure :=
  .error (.invalid "mysql_native_query_unsupported" message)

def validateReadSql (sql : List Char) : Except Failure Unit :=
  match readPolicyTokens sql "mysql_native_query_unsupported"
      "Native MySQL read queries do not accept executable comments" with
  | .error failure => .error failure
  | .ok tokens =>
    if tokens.head? ≠ some (.word "SELECT".toList) then
      .error (unsupportedQuery
        "Native MySQL currently supports single SELECT statements that begin with SELECT")
    else if tokens.idxOf .semicolon < tokens.length ∧
        (tokens.idxOf .semicolon + 1 ≠ tokens.length ∨
          .semicolon ∈ tokens.take (tokens.idxOf .semicolon)) then
      .error (unsupportedQuery "Native MySQL accepts exactly one SELECT statement")
    else if forbiddenRead (tokens.filterMap SqlToken.toWord) then
      .error (unsupportedQuery
        "Native MySQL does not accept locking or server-file SELECT variants")
    else .ok ()

def readHeads : List (List String) :=
  [["SHOW"], ["DESCRIBE"], ["DESC"], ["EXPLAIN"], ["USE"], ["COMMIT"], ["ROLLBACK"],
    ["START", "TRANSACTION", "READ", "ONLY"]]

/-- The words begin with the ones of a head. -/
def beginsWith (words : List (List Char)) (head : List String) : Bool :=
  (head.map String.toList).isPrefixOf words

def datasourceReadOnly : Failure :=
  .error { kind := .conflict, code := "datasource_read_only",
           message := "The datasource connection is configured as read-only" }

def validateReadOnlyStatement (statement : List Char) : Except Failure Unit :=
  match readPolicyTokens statement "datasource_read_only"
      "Read-only datasource connections do not accept executable comments" with
  | .error failure => .error failure
  | .ok tokens =>
    let words := tokens.filterMap SqlToken.toWord
    let allowed :=
      if beginsWith words ["SELECT"] then (validateReadSql statement).isOk
      else readHeads.any (beginsWith words)
    if allowed then .ok () else .error datasourceReadOnly

def validateReadOnlyConsole : List (List Char) → Except Failure Unit
  | [] => .ok ()
  | statement :: rest =>
    match validateReadOnlyStatement statement with
    | .error failure => .error failure
    | .ok () => validateReadOnlyConsole rest

/-! ## Texts that are sent -/

def maxIdentifierBytes : Nat := 256

def quoteName (value : List Char) : List Char :=
  backtick :: (value.flatMap fun c => if c = backtick then [backtick, backtick] else [c]) ++
    [backtick]

/-- An identifier in backticks, where a backtick is doubled. -/
def quoteIdentifier (code field : String) (value : List Char) : Except Failure (List Char) :=
  if Text.trim value = [] ∨ maxIdentifierBytes < Text.utf8Length value ∨ Char.ofNat 0 ∈ value then
    .error (.error (.invalid code (field ++ " is invalid")))
  else .ok (quoteName value)

/-- The statement of a table preview. -/
def tablePreviewSql (databaseName tableName : List Char) (rowLimit : Nat) :
    Except Failure (List Char) :=
  match quoteIdentifier "invalid_table_preview_request" "databaseName" databaseName with
  | .error failure => .error failure
  | .ok database =>
    match quoteIdentifier "invalid_table_preview_request" "tableName" tableName with
    | .error failure => .error failure
    | .ok table =>
      .ok ("SELECT * FROM ".toList ++ database ++ ['.'] ++ table ++ " LIMIT ".toList ++
        (Nat.repr rowLimit).toList)

def maxConsolePageSize : Nat := 100000

structure NativeConsoleRequest where
  datasourceId : List Char
  databaseName : List Char
  sql : List Char
  single : Bool
  explain : Bool
  pageNo : Nat
  pageSize : Nat
  pageSizeAll : Bool
  resultSetId : Option Nat

def invalidConsoleRequest (message : String) : Failure :=
  .error (.invalid "invalid_mysql_console_request" message)

/-- The offset of the page and its end. -/
def validateConsoleRequest (request : NativeConsoleRequest) : Except Failure (Nat × Nat) :=
  if Text.trim request.datasourceId = [] then
    .error (invalidConsoleRequest "dataSourceId cannot be empty")
  else if Text.trim request.sql = [] then .error (invalidConsoleRequest "sql cannot be empty")
  else if Sql.maxSqlBytes < Text.utf8Length request.sql then
    .error (.error { kind := .resourceExhausted, code := "mysql_console_script_too_large",
                     message := "MySQL Console scripts are limited to 1048576 bytes" })
  else
    match (if Text.trim request.databaseName = [] then .ok []
        else quoteIdentifier "invalid_mysql_console_request" "databaseName"
          request.databaseName) with
    | .error failure => .error failure
    | .ok _ =>
      if request.pageNo = 0 ∨ request.pageSize = 0 ∨ maxConsolePageSize < request.pageSize then
        .error (invalidConsoleRequest
          "pageNo must be positive and pageSize must be between 1 and 100000")
      else if request.resultSetId = some 0 then
        .error (invalidConsoleRequest "resultSetId must be a positive one-based integer")
      else if request.pageSizeAll then .ok (0, maxConsolePageSize)
      else
        .ok ((request.pageNo - 1) * request.pageSize,
          (request.pageNo - 1) * request.pageSize + request.pageSize)

def prepareConsoleStatements (request : NativeConsoleRequest) :
    Except Failure (List (List Char) × Nat × Nat) :=
  match validateConsoleRequest request with
  | .error failure => .error failure
  | .ok (pageOffset, pageEnd) =>
    match (if request.single then .ok [Text.trim request.sql]
        else splitMysqlScript request.sql) with
    | .error failure => .error failure
    | .ok statements =>
      if statements = [] then
        .error (invalidConsoleRequest "sql must contain at least one MySQL statement")
      else
        .ok (if request.explain then statements.map ("EXPLAIN ".toList ++ ·) else statements,
          pageOffset, pageEnd)

/-- The texts that go to the server when the datasource is marked read-only. -/
def readOnlyConsoleTexts (request : NativeConsoleRequest) : Except Failure (List (List Char)) :=
  match prepareConsoleStatements request with
  | .error failure => .error failure
  | .ok (statements, _) =>
    match validateReadOnlyConsole statements with
    | .error failure => .error failure
    | .ok () =>
      if Text.trim request.databaseName = [] then .ok statements
      else
        match quoteIdentifier "invalid_mysql_console_request" "databaseName"
            request.databaseName with
        | .error failure => .error failure
        | .ok database => .ok (("USE ".toList ++ database) :: statements)

end Chat2DB.MySql
