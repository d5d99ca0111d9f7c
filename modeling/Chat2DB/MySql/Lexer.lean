import Chat2DB.Base.Marking
import Chat2DB.MySql.Scripts

/-! # How MySQL reads a script

Strings and identifiers are quoted, and a quote within them is doubled. A backslash
escapes the next character, but not in an identifier. A comment goes to the end of
its line or to its closing. The client cuts the script at its delimiter and takes
the lines with directives out, as long as no statement has begun.
-/

namespace Chat2DB.MySql

open Marking (Mark Lexer)
open Utf8 (asciiWhitespace asciiControl)

/-! ## Quotes and comments -/

/-- In what readers of MySQL may differ: the quotes in which a backslash escapes, the
characters that end a line comment, and those that may follow two dashes. -/
structure Rules where
  escapes : Char → Bool
  endsLine : Char → Bool
  afterDashes : Char → Bool

def mysql : Rules where
  escapes := fun quote => quote ≠ backtick
  endsLine := fun c => c = '\n'
  afterDashes := fun c => asciiWhitespace c || asciiControl c

inductive Mode where
  | text
  | quoted (quote : Char)
  | escaped (quote : Char)
  | doubled (quote : Char)
  | line
  | opening
  | block
  | closing
deriving DecidableEq

def isQuote (c : Char) : Bool := c = '\'' || c = '"' || c = backtick

def Rules.dashes (rules : Rules) (rest : List Char) : Bool :=
  rest[0]? = some '-' && rest[1]?.all rules.afterDashes

def Rules.textStep (rules : Rules) (c : Char) (rest : List Char) : Mode × Mark :=
  if isQuote c then (.quoted c, .quoted)
  else if c = '#' then (.line, .comment)
  else if c = '-' ∧ rules.dashes rest then (.line, .comment)
  else if c = '/' ∧ rest[0]? = some '*' then (.opening, .comment)
  else (.text, .code)

def Rules.quotedStep (rules : Rules) (quote c : Char) (rest : List Char) : Mode :=
  if c = '\\' ∧ rules.escapes quote then .escaped quote
  else if c = quote then if rest[0]? = some quote then .doubled quote else .text
  else .quoted quote

def Rules.step (rules : Rules) : Mode → Char → List Char → Mode × Mark
  | .text, c, rest => rules.textStep c rest
  | .quoted quote, c, rest => (rules.quotedStep quote c rest, .quoted)
  | .escaped quote, _, _ | .doubled quote, _, _ => (.quoted quote, .quoted)
  | .line, c, _ => (if rules.endsLine c then .text else .line, .comment)
  | .opening, _, _ => (.block, .comment)
  | .block, c, rest => (if c = '*' ∧ rest[0]? = some '/' then .closing else .block, .comment)
  | .closing, _, _ => (.text, .comment)

def Mode.complete (mode : Mode) : Bool := mode = .text || mode = .line

/-- The reader of statements that semicolons separate. -/
def Rules.lexer (rules : Rules) : Lexer Mode where
  start := .text
  step := fun mode c rest =>
    if mode = .text ∧ c = ';' then (.text, .stop) else rules.step mode c rest
  complete := Mode.complete

/-! ## Directives and delimiters -/

inductive Directive where
  | absent
  | malformed
  | sets (delimiter : Delimiter) (later : List Char)

/-- What the line says that begins here. -/
def directive (text : List Char) : Directive :=
  let line := Text.trim (text.takeWhile fun c => c ≠ '\n')
  let name := line.drop keyword.length
  if (line.take keyword.length).map Char.toLower = keyword ∧ name.head?.all asciiWhitespace then
    let token := Text.trim name
    if h : token = [] ∨ 16 < Text.utf8Length token ∨ token.any asciiWhitespace then .malformed
    else .sets ⟨token, fun htoken => h (.inl htoken)⟩ ((text.dropWhile fun c => c ≠ '\n').drop 1)
  else .absent

/-- What has come since the last delimiter: ASCII blanks only, also other blanks or
comments, or a part of a statement. -/
inductive Pending where
  | plain
  | bare
  | token
deriving DecidableEq

/-- Something that is not a part of a statement. -/
def Pending.bared : Pending → Pending
  | .token => .token
  | _ => .bare

def Pending.after (pending : Pending) (c : Char) : Mark → Pending
  | .stop => .plain
  | .comment => pending.bared
  | .quoted => .token
  | .code =>
    if asciiWhitespace c then pending else if Text.blank c then pending.bared else .token

/-- Either the client reads, or it passes over the rest of a delimiter or of a line
with a directive, or it has met a malformed directive. -/
inductive Place where
  | reading (mode : Mode)
  | passing (left : Nat)
  | malformed
deriving DecidableEq

def Place.pass : Nat → Place
  | 0 => .reading .text
  | left + 1 => .passing left

structure Client where
  delimiter : Delimiter
  place : Place
  lineStart : Bool
  pending : Pending

namespace Client

/-- Whether a directive may come now. -/
def expectsDirective (client : Client) : Bool :=
  client.place = .reading .text && client.lineStart && client.pending ≠ .token

def read (client : Client) (mode : Mode) (c : Char) (rest : List Char) : Client × Mark :=
  if mode = .text ∧ client.delimiter.token <+: c :: rest then
    ({ client with
        place := .pass (client.delimiter.token.length - 1), lineStart := false, pending := .plain },
      .stop)
  else
    let next := mysql.step mode c rest
    ({ client with
        place := .reading next.1, lineStart := c = '\n', pending := client.pending.after c next.2 },
      next.2)

def step (client : Client) (c : Char) (rest : List Char) : Client × Mark :=
  match client.place with
  | .malformed => (client, .stop)
  | .passing left => ({ client with place := .pass left }, .stop)
  | .reading mode =>
    if client.expectsDirective then
      match directive (c :: rest) with
      | .malformed => ({ client with place := .malformed }, .stop)
      | .sets delimiter later =>
        ({ delimiter, place := .pass (rest.length - later.length), lineStart := true,
           pending := .plain }, .stop)
      | .absent => client.read mode c rest
    else client.read mode c rest

def complete (client : Client) : Bool :=
  match client.place with
  | .reading mode => mode.complete
  | _ => false

def initial : Client :=
  { delimiter := semicolon, place := .reading .text, lineStart := true, pending := .plain }

def lexer : Lexer Client where
  start := initial
  step := step
  complete := complete

/-- The line that begins here, if it has a directive that the client takes. -/
def directiveHere (client : Client) (text : List Char) : List (Client × List Char) :=
  match client.expectsDirective, directive text with
  | true, .malformed | true, .sets _ _ => [(client, text)]
  | _, _ => []

/-- The lines with directives that the client comes to before there are too many
statements, with some characters and some statements there already. -/
def directives : Client → List Char → Nat → List Char → List (Client × List Char)
  | _, _, _, [] => []
  | client, current, count, c :: rest =>
    let next := client.step c rest
    client.directiveHere (c :: rest) ++
      if next.2 = .stop then
        if count + (Marking.push current).length ≤ maxConsoleStatements then
          directives next.1 [] (count + (Marking.push current).length) rest
        else []
      else directives next.1 (current ++ [c]) count rest

end Client

/-- The statements of a script, unless it ends too early, has a malformed directive or
has too many statements. -/
def clientStatements (script : List Char) : Option (List (List Char)) :=
  match Client.lexer.read script with
  | none => none
  | some marked =>
    if (Marking.statements marked).length ≤ maxConsoleStatements then
      some (Marking.statements marked)
    else none

end Chat2DB.MySql
