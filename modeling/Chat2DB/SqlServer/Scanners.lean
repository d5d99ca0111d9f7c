import Chat2DB.Base.Marking
import Chat2DB.Sql.AppError

/-! # Scanners of SQL Server scripts

The splitter cuts a script into statements, and the lexeme scanner collects the
words of one statement. Both are loops over the characters that hand the quoted
items and the comments to loops of their own. Below them stands how T-SQL itself
reads a script.
-/

namespace Chat2DB.SqlServer

open Sql (AppError)

variable {chars rest : List Char}

/-! ## The splitter -/

/-- The characters up to the closing one, which stands for itself when doubled, and
what follows it. -/
def copyQuotedChars (closing : Char) (output : List Char) :
    List Char → Except AppError (List Char × List Char)
  | [] => .error (.invalid "invalid_sqlserver_console_request"
      "The SQL Server script contains an unterminated quoted value")
  | ch :: chars =>
    if ch = closing then
      match chars with
      | next :: rest =>
        if next = closing then copyQuotedChars closing (output ++ [ch, closing]) rest
        else .ok (output ++ [ch], next :: rest)
      | [] => .ok (output ++ [ch], [])
    else copyQuotedChars closing (output ++ [ch]) chars

/-- A line comment with its newline, and what follows it. -/
def copyLine (output : List Char) : List Char → List Char × List Char
  | [] => (output, [])
  | next :: chars =>
    if next = '\n' then (output ++ [next], chars) else copyLine (output ++ [next]) chars

/-- A block comment after its opening, unless it is not closed. -/
def copyBlock (previous : Char) (output : List Char) :
    List Char → Option (List Char × List Char)
  | [] => none
  | next :: chars =>
    if previous = '*' ∧ next = '/' then some (output ++ [next], chars)
    else copyBlock next (output ++ [next]) chars

theorem copyQuotedChars_length {closing : Char} {output current : List Char}
    (hcopy : copyQuotedChars closing output chars = .ok (current, rest)) :
    rest.length ≤ chars.length := by
  fun_induction copyQuotedChars closing output chars with
  | case1 => cases hcopy
  | case2 output rest ih =>
    have := ih hcopy
    simp only [List.length_cons]
    omega
  | case3 | case4 =>
    obtain ⟨-, rfl⟩ := Prod.mk.inj (Except.ok.inj hcopy)
    simp
  | case5 output ch chars hch ih =>
    have := ih hcopy
    simp only [List.length_cons]
    omega

theorem copyLine_length (output chars : List Char) :
    (copyLine output chars).2.length ≤ chars.length := by
  fun_induction copyLine output chars with
  | case1 | case2 => simp
  | case3 output next chars hnext ih =>
    simp only [List.length_cons]
    omega

theorem copyBlock_length {previous : Char} {output current : List Char}
    (hcopy : copyBlock previous output chars = some (current, rest)) :
    rest.length ≤ chars.length := by
  fun_induction copyBlock previous output chars with
  | case1 => cases hcopy
  | case2 =>
    obtain ⟨-, rfl⟩ := Prod.mk.inj (Option.some.inj hcopy)
    simp
  | case3 previous output next chars hnext ih =>
    have := ih hcopy
    simp only [List.length_cons]
    omega

def pushStatement (statements : List (List Char)) (current : List Char) : List (List Char) :=
  let statement := Text.trim current
  if statement = [] then statements else statements ++ [statement]

def splitLoop (statements : List (List Char)) (current : List Char) :
    List Char → Except AppError (List (List Char))
  | [] => .ok (pushStatement statements current)
  | ch :: chars =>
    if ch = '\'' ∨ ch = '"' then
      match hcopy : copyQuotedChars ch (current ++ [ch]) chars with
      | .error error => .error error
      | .ok (current, rest) =>
        have := copyQuotedChars_length hcopy
        splitLoop statements current rest
    else if ch = '[' then
      match hcopy : copyQuotedChars ']' (current ++ [ch]) chars with
      | .error error => .error error
      | .ok (current, rest) =>
        have := copyQuotedChars_length hcopy
        splitLoop statements current rest
    else if ch = '-' ∧ chars.head? = some '-' then
      have := copyLine_length (current ++ ['-', '-']) chars.tail
      let copied := copyLine (current ++ ['-', '-']) chars.tail
      splitLoop statements copied.1 copied.2
    else if ch = '/' ∧ chars.head? = some '*' then
      match hcopy : copyBlock (Char.ofNat 0) (current ++ ['/', '*']) chars.tail with
      | none => .error (.invalid "invalid_sqlserver_console_request"
          "The SQL Server script contains an unterminated comment")
      | some (current, rest) =>
        have := copyBlock_length hcopy
        splitLoop statements current rest
    else if ch = ';' then splitLoop (pushStatement statements current) [] chars
    else splitLoop statements (current ++ [ch]) chars
termination_by chars => chars.length
decreasing_by
  all_goals simp_all [List.length_tail]
  all_goals omega

def splitSqlserverScript (script : List Char) : Except AppError (List (List Char)) :=
  splitLoop [] [] script

def validateSingleStatement (sql : List Char) : Except AppError (List Char) :=
  if Sql.maxSqlBytes < Text.utf8Length sql ∨ Text.trim sql = [] then
    .error (.invalid "invalid_database_write"
      "SQL must be non-empty and within the configured size limit")
  else
    match splitSqlserverScript sql with
    | .error error => .error error
    | .ok [statement] => .ok statement
    | .ok _ => .error (.invalid "invalid_database_write"
        "Exactly one SQL Server statement is required")

/-! ## The lexeme scanner -/

def skipQuotedChars (closing : Char) : List Char → List Char
  | [] => []
  | ch :: chars =>
    if ch = closing then
      match chars with
      | next :: rest => if next = closing then skipQuotedChars closing rest else next :: rest
      | [] => []
    else skipQuotedChars closing chars

def skipLine : List Char → List Char
  | [] => []
  | next :: chars => if next = '\n' then chars else skipLine chars

def skipBlock (previous : Char) : List Char → Option (List Char)
  | [] => none
  | next :: chars =>
    if previous = '*' ∧ next = '/' then some chars else skipBlock next chars

theorem skipQuotedChars_length (closing : Char) (chars : List Char) :
    (skipQuotedChars closing chars).length ≤ chars.length := by
  fun_induction skipQuotedChars closing chars with
  | case1 => simp
  | case2 rest ih =>
    simp only [List.length_cons]
    omega
  | case3 | case4 => simp
  | case5 ch chars hch ih =>
    simp only [List.length_cons]
    omega

theorem skipLine_length (chars : List Char) : (skipLine chars).length ≤ chars.length := by
  fun_induction skipLine chars with
  | case1 | case2 => simp
  | case3 next chars hnext ih =>
    simp only [List.length_cons]
    omega

theorem skipBlock_length {previous : Char} (hskip : skipBlock previous chars = some rest) :
    rest.length ≤ chars.length := by
  fun_induction skipBlock previous chars with
  | case1 => cases hskip
  | case2 =>
    cases hskip
    simp
  | case3 previous next chars hnext ih =>
    have := ih hskip
    simp only [List.length_cons]
    omega

structure SqlLexemes where
  words : List (List Char)
deriving DecidableEq

def pushWord (words : List (List Char)) (word : List Char) : List (List Char) :=
  if word = [] then words else words ++ [word]

/-- The words, and how many separators there were. -/
def lexemeLoop (words : List (List Char)) (word : List Char) (statementTerminators : Nat) :
    List Char → Except AppError (List (List Char) × Nat)
  | [] => .ok (pushWord words word, statementTerminators)
  | ch :: chars =>
    if ch.isAlphanum ∨ ch = '_' then
      lexemeLoop words (word ++ [ch.toUpper]) statementTerminators chars
    else if ch = '\'' ∨ ch = '"' then
      have := skipQuotedChars_length ch chars
      lexemeLoop (pushWord words word) [] statementTerminators (skipQuotedChars ch chars)
    else if ch = '[' then
      have := skipQuotedChars_length ']' chars
      lexemeLoop (pushWord words word) [] statementTerminators (skipQuotedChars ']' chars)
    else if ch = '-' ∧ chars.head? = some '-' then
      have := skipLine_length chars.tail
      lexemeLoop (pushWord words word) [] statementTerminators (skipLine chars.tail)
    else if ch = '/' ∧ chars.head? = some '*' then
      match hskip : skipBlock (Char.ofNat 0) chars.tail with
      | none => .error (.invalid "sqlserver_native_query_unsupported"
          "The SQL Server statement contains an unterminated comment")
      | some rest =>
        have := skipBlock_length hskip
        lexemeLoop (pushWord words word) [] statementTerminators rest
    else if ch = ';' then lexemeLoop (pushWord words word) [] (statementTerminators + 1) chars
    else lexemeLoop (pushWord words word) [] statementTerminators chars
termination_by chars => chars.length
decreasing_by
  all_goals simp_all [List.length_tail]
  all_goals omega

def sqlLexemes (sql : List Char) : Except AppError SqlLexemes :=
  if Text.trim sql = [] then .error (.invalid "invalid_query_request" "SQL cannot be empty")
  else
    match lexemeLoop [] [] 0 sql with
    | .error error => .error error
    | .ok (words, statementTerminators) =>
      if 1 < statementTerminators then
        .error (.invalid "sqlserver_native_query_unsupported"
          "Native SQL Server accepts exactly one statement")
      else .ok { words }

/-! ## T-SQL -/

/-- What ends at a closing character: a string, an identifier in quotes or one in
brackets. -/
inductive Quote where
  | single
  | double
  | bracket
deriving DecidableEq

def Quote.closing : Quote → Char
  | .single => '\''
  | .double => '"'
  | .bracket => ']'

/-- Where a reader of T-SQL is. In a block comment it knows how many comments are
open around the innermost one, and the character before. -/
inductive LexState where
  | text
  | quoted (quote : Quote)
  | doubled (quote : Quote)
  | line
  | slash
  | block (depth : Nat) (previous : Char)
deriving DecidableEq

open Marking (Mark Lexer)

def textStep (c : Char) (rest : List Char) : LexState × Mark :=
  if c = '\'' then (.quoted .single, .quoted)
  else if c = '"' then (.quoted .double, .quoted)
  else if c = '[' then (.quoted .bracket, .quoted)
  else if c = '-' ∧ rest.head? = some '-' then (.line, .comment)
  else if c = '/' ∧ rest.head? = some '*' then (.slash, .comment)
  else if c = ';' then (.text, .stop)
  else (.text, .code)

def quotedStep (quote : Quote) (c : Char) (rest : List Char) : LexState × Mark :=
  if c = quote.closing then
    (if rest.head? = some quote.closing then .doubled quote else .text, .quoted)
  else (.quoted quote, .quoted)

def blockStep (nesting : Bool) (depth : Nat) (previous c : Char) : LexState × Mark :=
  if previous = '*' ∧ c = '/' then
    (match depth with
      | 0 => .text
      | outer + 1 => .block outer (Char.ofNat 0), .comment)
  else if nesting ∧ previous = '/' ∧ c = '*' then (.block (depth + 1) (Char.ofNat 0), .comment)
  else (.block depth c, .comment)

/-- Comments nest in T-SQL. Without nesting a comment ends at the first closing. -/
def lexer (nesting : Bool) : Lexer LexState where
  start := .text
  step := fun state c rest =>
    match state with
    | .text => textStep c rest
    | .quoted quote => quotedStep quote c rest
    | .doubled quote => (.quoted quote, .quoted)
    | .line => (if c = '\n' then .text else .line, .comment)
    | .slash => (.block 0 (Char.ofNat 0), .comment)
    | .block depth previous => blockStep nesting depth previous c
  complete := fun state => state = .text ∨ state = .line

def tsql : Lexer LexState := lexer true

/-- The character opens a comment inside of a comment. -/
def opensComment : LexState → Char → Bool
  | .block _ previous, c => previous = '/' && c = '*'
  | _, _ => false

/-- A comment is opened inside of a comment, as T-SQL reads the script. -/
def opensWithin : LexState → List Char → Bool
  | _, [] => false
  | state, c :: rest => opensComment state c || opensWithin (tsql.step state c rest).1 rest

end Chat2DB.SqlServer
