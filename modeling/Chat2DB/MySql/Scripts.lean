import Chat2DB.Base.Utf8
import Chat2DB.Sql.AppError

/-! # Scripts of the MySQL console

The splitter walks over the bytes of a script. It knows whether it is in a quoted
item or a comment, and what it has passed since the last delimiter. A line with a
DELIMITER directive is for the client and changes the delimiter.
-/

namespace Chat2DB.MySql

open Sql (AppError)
open Utf8

variable {cell : Cell} {rest later : List Cell}

/-- Slicing a text within a character stops the program. -/
inductive Failure where
  | panic
  | error (error : AppError)
deriving DecidableEq

def maxConsoleStatements : Nat := 1000

def backtick : Char := Char.ofNat 0x60

def invalidConsoleScript (detail : String) : AppError :=
  .invalid "invalid_mysql_console_script" ("The MySQL Console script contains an " ++ detail)

def malformedDirective : AppError :=
  invalidConsoleScript "DELIMITER must name one non-whitespace token of at most 16 bytes"

def tooManyStatements : AppError :=
  { kind := .resourceExhausted, code := "mysql_console_too_many_statements",
    message := "MySQL Console scripts are limited to 1000 statements" }

inductive ScriptState where
  | normal
  | singleQuote
  | doubleQuote
  | backtick
  | lineComment
  | blockComment
deriving DecidableEq

/-- A token that ends a statement. -/
structure Delimiter where
  token : List Char
  nonempty : token ≠ []
deriving DecidableEq

structure Splitter where
  delimiter : Delimiter
  statements : List (List Char)
  state : ScriptState
  /-- The bytes since the last delimiter. -/
  segment : List Cell
  atLineStart : Bool

/-! ## Directives -/

def keyword : List Char := "delimiter".toList

/-- What stands after the keyword of a trimmed line, if it begins with the keyword. -/
def afterKeyword (line : List Cell) : Except Failure (Option (List Char)) :=
  if line.length < keyword.length then .ok none
  else
    match slice (line.take keyword.length) (line.drop keyword.length) with
    | none => .ok none
    | some word =>
      if word.map Char.toLower ≠ keyword ||
          (line.drop keyword.length).head?.any (fun cell => !asciiWhitespace cell.ch) then
        .ok none
      else
        match slice (line.drop keyword.length) [] with
        | none => .error .panic
        | some text => .ok (some (Text.trim text))

/-- The delimiter that a line names, and what follows the line. -/
def delimiterDirective (script : List Cell) : Except Failure (Option (Delimiter × List Cell)) :=
  let lineEnd := script.dropWhile fun cell => cell.ch ≠ '\n'
  match slice (script.takeWhile fun cell => cell.ch ≠ '\n') lineEnd with
  | none => .error .panic
  | some line =>
    match afterKeyword (cells (Text.trim line)) with
    | .error failure => .error failure
    | .ok none => .ok none
    | .ok (some token) =>
      if h : token = [] ∨ 16 < (cells token).length ∨
          (cells token).any (fun cell => asciiWhitespace cell.ch) then
        .error (.error malformedDirective)
      else .ok (some (⟨token, fun htoken => h (.inl htoken)⟩, lineEnd.drop 1))

/-! ## The loop -/

def isMysqlDashComment (rest : List Cell) : Bool :=
  rest[0]?.any (fun cell => cell.ch = '-') &&
    rest[1]?.all fun cell => asciiWhitespace cell.ch || asciiControl cell.ch

def pushMysqlStatement (statements : List (List Char)) (statement : List Char) :
    Except Failure (List (List Char)) :=
  let statement := Text.trim statement
  if statement = [] then .ok statements
  else if maxConsoleStatements ≤ statements.length then .error (.error tooManyStatements)
  else .ok (statements ++ [statement])

/-- Passes over some bytes. -/
def Splitter.pass (splitter : Splitter) (count : Nat) (rest : List Cell) : Splitter × List Cell :=
  ({ splitter with segment := splitter.segment ++ rest.take count }, rest.drop count)

/-- Outside quotes and comments, where the delimiter does not begin. -/
def scanNormal (splitter : Splitter) (cell : Cell) (rest : List Cell) : Splitter × List Cell :=
  if cell.ch = '\'' then { splitter with state := .singleQuote }.pass 1 (cell :: rest)
  else if cell.ch = '"' then { splitter with state := .doubleQuote }.pass 1 (cell :: rest)
  else if cell.ch = backtick then { splitter with state := .backtick }.pass 1 (cell :: rest)
  else if cell.ch = '#' then { splitter with state := .lineComment }.pass 1 (cell :: rest)
  else if cell.ch = '-' && isMysqlDashComment rest then
    { splitter with state := .lineComment }.pass 2 (cell :: rest)
  else if cell.ch = '/' && rest[0]?.any (fun next => next.ch = '*') then
    { splitter with state := .blockComment }.pass 2 (cell :: rest)
  else if cell.ch = '\n' then { splitter with atLineStart := true }.pass 1 (cell :: rest)
  else if asciiWhitespace cell.ch && splitter.atLineStart then splitter.pass 1 (cell :: rest)
  else { splitter with atLineStart := false }.pass 1 (cell :: rest)

def scanQuoted (splitter : Splitter) (quote : Char) (cell : Cell) (rest : List Cell) :
    Splitter × List Cell :=
  if cell.ch = '\\' && splitter.state ≠ .backtick then splitter.pass 2 (cell :: rest)
  else if cell.ch = quote then
    if rest[0]?.any (fun next => next.ch = quote) then splitter.pass 2 (cell :: rest)
    else { splitter with state := .normal }.pass 1 (cell :: rest)
  else splitter.pass 1 (cell :: rest)

def scanLineComment (splitter : Splitter) (cell : Cell) (rest : List Cell) : Splitter × List Cell :=
  if cell.ch = '\n' then
    { splitter with state := .normal, atLineStart := true }.pass 1 (cell :: rest)
  else splitter.pass 1 (cell :: rest)

def scanBlockComment (splitter : Splitter) (cell : Cell) (rest : List Cell) :
    Splitter × List Cell :=
  if cell.ch = '\n' then { splitter with atLineStart := true }.pass 1 (cell :: rest)
  else if cell.ch = '*' && rest[0]?.any (fun next => next.ch = '/') then
    { splitter with state := .normal }.pass 2 (cell :: rest)
  else splitter.pass 1 (cell :: rest)

def scan (splitter : Splitter) (cell : Cell) (rest : List Cell) :
    Except Failure (Splitter × List Cell) :=
  match splitter.state with
  | .normal =>
    if startsWith (cell :: rest) splitter.delimiter.token then
      match slice splitter.segment (cell :: rest) with
      | none => .error .panic
      | some statement =>
        match pushMysqlStatement splitter.statements statement with
        | .error failure => .error failure
        | .ok statements =>
          .ok ({ splitter with statements, segment := [], atLineStart := false },
            (cell :: rest).drop (cells splitter.delimiter.token).length)
    else .ok (scanNormal splitter cell rest)
  | .singleQuote => .ok (scanQuoted splitter '\'' cell rest)
  | .doubleQuote => .ok (scanQuoted splitter '"' cell rest)
  | .backtick => .ok (scanQuoted splitter backtick cell rest)
  | .lineComment => .ok (scanLineComment splitter cell rest)
  | .blockComment => .ok (scanBlockComment splitter cell rest)

/-- Whether the loop looks for a directive. -/
def Splitter.expectsDirective (splitter : Splitter) : Bool :=
  splitter.state = .normal && splitter.atLineStart &&
    splitter.segment.all fun cell => asciiWhitespace cell.ch

def advance (splitter : Splitter) (cell : Cell) (rest : List Cell) :
    Except Failure (Splitter × List Cell) :=
  if splitter.expectsDirective then
    match delimiterDirective (cell :: rest) with
    | .error failure => .error failure
    | .ok (some (delimiter, later)) =>
      .ok ({ splitter with delimiter, segment := [], atLineStart := true }, later)
    | .ok none => scan splitter cell rest
  else scan splitter cell rest

theorem delimiterDirective_length {delimiter : Delimiter}
    (hdirective : delimiterDirective (cell :: rest) = .ok (some (delimiter, later))) :
    later.length < (cell :: rest).length := by
  unfold delimiterDirective at hdirective
  dsimp only at hdirective
  split at hdirective
  · cases hdirective
  · split at hdirective
    · cases hdirective
    · cases hdirective
    · split at hdirective
      · cases hdirective
      · obtain ⟨-, rfl⟩ := Prod.mk.inj (Option.some.inj (Except.ok.inj hdirective))
        have hle := (List.dropWhile_suffix (fun cell : Cell => decide (cell.ch ≠ '\n'))
          (l := cell :: rest)).length_le
        simp only [List.length_drop, List.length_cons] at hle ⊢
        omega

theorem pass_length (splitter : Splitter) (count : Nat) (cell : Cell) (rest : List Cell) :
    (splitter.pass (count + 1) (cell :: rest)).2.length < (cell :: rest).length := by
  simp only [Splitter.pass, List.length_drop, List.length_cons]
  omega

theorem scan_length {splitter next : Splitter}
    (hscan : scan splitter cell rest = .ok (next, later)) :
    later.length < (cell :: rest).length := by
  have htoken : 0 < (cells splitter.delimiter.token).length := by
    have hne := splitter.delimiter.nonempty
    cases htoken : splitter.delimiter.token with
    | nil => exact absurd htoken hne
    | cons c token => simp [cells_cons]
  have hpass : ∀ {moved : Splitter × List Cell}, moved.2.length < (cell :: rest).length →
      (Except.ok moved : Except Failure _) = .ok (next, later) →
      later.length < (cell :: rest).length := by
    intro moved hmoved heq
    rwa [Except.ok.inj heq] at hmoved
  unfold scan at hscan
  split at hscan
  · split at hscan
    · split at hscan
      · cases hscan
      · split at hscan
        · cases hscan
        · obtain ⟨-, rfl⟩ := Prod.mk.inj (Except.ok.inj hscan)
          simp only [List.length_drop, List.length_cons]
          omega
    · apply hpass _ hscan
      unfold scanNormal
      split_ifs <;> exact pass_length _ _ _ _
  all_goals
    apply hpass _ hscan
    simp only [scanQuoted, scanLineComment, scanBlockComment]
    split_ifs <;> exact pass_length _ _ _ _

theorem advance_length {splitter next : Splitter}
    (hadvance : advance splitter cell rest = .ok (next, later)) :
    later.length < (cell :: rest).length := by
  unfold advance at hadvance
  split at hadvance
  · split at hadvance
    · cases hadvance
    · rename_i delimiter later' hdirective
      obtain ⟨-, rfl⟩ := Prod.mk.inj (Except.ok.inj hadvance)
      exact delimiterDirective_length hdirective
    · exact scan_length hadvance
  · exact scan_length hadvance

def splitLoop (splitter : Splitter) : List Cell → Except Failure Splitter
  | [] => .ok splitter
  | cell :: rest =>
    match hadvance : advance splitter cell rest with
    | .error failure => .error failure
    | .ok (next, later) =>
      have := advance_length hadvance
      splitLoop next later
termination_by rest => rest.length
decreasing_by exact advance_length hadvance

def finish (splitter : Splitter) : Except Failure (List (List Char)) :=
  match splitter.state with
  | .normal | .lineComment =>
    match slice splitter.segment [] with
    | none => .error .panic
    | some statement => pushMysqlStatement splitter.statements statement
  | .singleQuote => .error (.error (invalidConsoleScript "unterminated string literal"))
  | .doubleQuote => .error (.error (invalidConsoleScript "unterminated quoted string literal"))
  | .backtick => .error (.error (invalidConsoleScript "unterminated quoted identifier"))
  | .blockComment => .error (.error (invalidConsoleScript "unterminated block comment"))

def semicolon : Delimiter := { token := [';'], nonempty := by simp }

def Splitter.initial : Splitter :=
  { delimiter := semicolon, statements := [], state := .normal, segment := [],
    atLineStart := true }

def splitMysqlScript (script : List Char) : Except Failure (List (List Char)) :=
  match splitLoop .initial (cells script) with
  | .error failure => .error failure
  | .ok splitter => finish splitter

end Chat2DB.MySql
