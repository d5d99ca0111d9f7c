import Chat2DB.Base.Decimal

/-! # PostgreSQL's array input

The rules by which the server reads an array literal: the tokens of the text,
the levels of braces that they open and close, and the bounds in front. White
space, including the vertical tab, is skipped around elements that are not
quoted. Size limits of the server are no part of the rules.
-/

namespace Chat2DB.Postgres

open Decimal

structure PostgresArrayDimension where
  length : Nat
  lowerBound : Int
deriving DecidableEq

/-- An element: null, or its text. -/
abbrev ArrayValue := Option (List Char)

def isArraySpace (c : Char) : Bool :=
  c = ' ' ∨ c = '\t' ∨ c = '\n' ∨ c = '\r' ∨ c = '\x0b' ∨ c = '\x0c'

def isNullText (text : List Char) : Bool :=
  text.map Char.toLower = ['n', 'u', 'l', 'l']

/-! ## Tokens -/

inductive ArrayToken where
  | levelStart
  | levelEnd
  | delimiter
  | element (value : ArrayValue)
deriving DecidableEq

inductive LexMode where
  | between
  | plain (kept spaces : List Char) (escaped : Bool)
  | plainEscape (kept : List Char)
  | quoted (text : List Char)
  | quotedEscape (text : List Char)
deriving DecidableEq

structure Lexing where
  mode : LexMode
  tokens : List ArrayToken
deriving DecidableEq

/-- An element without quotes, null when it spells so without an escape. -/
def plainElement (kept : List Char) (escaped : Bool) : ArrayToken :=
  .element (if escaped = false ∧ isNullText kept = true then none else some kept)

/-- A character of structure ends what stands before it. -/
def lexStructure (tokens : List ArrayToken) (c : Char) : Option Lexing :=
  if c = '}' then some ⟨.between, tokens ++ [.levelEnd]⟩
  else if c = ',' then some ⟨.between, tokens ++ [.delimiter]⟩
  else none

def lexStep (lexing : Lexing) (c : Char) : Option Lexing :=
  match lexing.mode with
  | .between =>
    if isArraySpace c = true then some lexing
    else if c = '{' then some ⟨.between, lexing.tokens ++ [.levelStart]⟩
    else if c = '}' ∨ c = ',' then lexStructure lexing.tokens c
    else if c = '"' then some ⟨.quoted [], lexing.tokens⟩
    else if c = '\\' then some ⟨.plainEscape [], lexing.tokens⟩
    else some ⟨.plain [c] [] false, lexing.tokens⟩
  | .plain kept spaces escaped =>
    if c = '}' ∨ c = ',' then lexStructure (lexing.tokens ++ [plainElement kept escaped]) c
    else if c = '{' ∨ c = '"' then none
    else if c = '\\' then some ⟨.plainEscape (kept ++ spaces), lexing.tokens⟩
    else if isArraySpace c = true then some ⟨.plain kept (spaces ++ [c]) escaped, lexing.tokens⟩
    else some ⟨.plain (kept ++ spaces ++ [c]) [] escaped, lexing.tokens⟩
  | .plainEscape kept => some ⟨.plain (kept ++ [c]) [] true, lexing.tokens⟩
  | .quoted text =>
    if c = '"' then some ⟨.between, lexing.tokens ++ [.element (some text)]⟩
    else if c = '\\' then some ⟨.quotedEscape text, lexing.tokens⟩
    else some ⟨.quoted (text ++ [c]), lexing.tokens⟩
  | .quotedEscape text => some ⟨.quoted (text ++ [c]), lexing.tokens⟩

def lexAll (lexing : Lexing) (text : List Char) : Option Lexing :=
  text.foldlM lexStep lexing

def arrayTokens (text : List Char) : Option (List ArrayToken) := do
  let lexing ← lexAll ⟨.between, []⟩ text
  if lexing.mode = .between then some lexing.tokens else none

/-! ## Levels of braces -/

structure ArrayReading where
  /-- The elements counted so far in every open level, innermost first. -/
  counts : List Nat
  /-- The size of every level, once one of its arrays has been closed. -/
  sizes : List (Option Nat)
  /-- Whether the number of levels is settled. -/
  frozen : Bool
  expectDelimiter : Bool
  values : List ArrayValue
deriving DecidableEq

/-- One more element in the innermost open level. -/
def countElement : List Nat → List Nat
  | [] => []
  | count :: outer => (count + 1) :: outer

def ArrayReading.step (reading : ArrayReading) (token : ArrayToken) : Option ArrayReading :=
  match token with
  | .levelStart =>
    if reading.expectDelimiter = true then none
    else if reading.counts.length < reading.sizes.length then
      some { reading with counts := 0 :: reading.counts }
    else if reading.frozen = true then none
    else some { reading with
      counts := 0 :: reading.counts
      sizes := reading.sizes ++ [none] }
  | .levelEnd =>
    match reading.counts with
    | [] => none
    | count :: outer =>
      if 0 < count ∧ reading.expectDelimiter = false then none
      else match reading.sizes[outer.length]? with
        | none => none
        | some size =>
          if size = none ∨ size = some count then
            some { reading with
              counts := countElement outer
              sizes := reading.sizes.set outer.length (some count)
              expectDelimiter := true }
          else none
  | .delimiter =>
    if reading.expectDelimiter = true ∧ reading.counts ≠ [] then
      some { reading with expectDelimiter := false }
    else none
  | .element value =>
    if reading.expectDelimiter = true ∨ reading.counts = [] ∨
        reading.counts.length ≠ reading.sizes.length then none
    else some { reading with
      counts := countElement reading.counts
      frozen := true
      expectDelimiter := true
      values := reading.values ++ [value] }

def ArrayReading.run (reading : ArrayReading) (tokens : List ArrayToken) : Option ArrayReading :=
  tokens.foldlM ArrayReading.step reading

/-- The sizes and elements of a literal whose levels are all closed again. -/
def ArrayReading.finish (reading : ArrayReading) : Option (List Nat × List ArrayValue) :=
  if reading.counts = [] ∧ reading.expectDelimiter = true then
    (reading.sizes.mapM id).map fun sizes => (sizes, reading.values)
  else none

/-! ## Bounds and literals -/

/-- The bounds in front of a literal, as many of them as `fuel` allows for. -/
def readBounds : Nat → List Char → Option (List PostgresArrayDimension × List Char)
  | 0, _ => none
  | fuel + 1, text =>
    match text.dropWhile isArraySpace with
    | '[' :: rest => do
      let (first, rest) ← readInt rest
      let (lower, upper, rest) ← match rest with
        | ':' :: rest => (readInt rest).map fun read => (first, read.1, read.2)
        | rest => some (1, first, rest)
      let rest ← expectChar ']' rest
      let (others, rest) ← readBounds fuel rest
      if upper < lower then none
      else some ({ length := (upper - lower + 1).toNat, lowerBound := lower } :: others, rest)
    | rest => some ([], rest)

/-- The sizes of the levels and the elements, with the sizes that bounds have settled. -/
def readLevels (sizes : List (Option Nat)) (frozen : Bool) (text : List Char) :
    Option (List Nat × List ArrayValue) := do
  let tokens ← arrayTokens text
  let reading ← ArrayReading.run ⟨[], sizes, frozen, false, []⟩ tokens
  reading.finish

/-- What an array literal denotes. An array without elements has no dimension. -/
def readArray (text : List Char) : Option (List PostgresArrayDimension × List ArrayValue) := do
  let (bounds, rest) ← readBounds (text.length + 1) text
  if bounds = [] then
    let (sizes, values) ← readLevels [] false rest
    if values = [] then return ([], [])
    else return (sizes.map fun size => { length := size, lowerBound := 1 }, values)
  else
    let rest ← expectChar '=' (rest.dropWhile isArraySpace)
    let (_, values) ← readLevels (bounds.map fun dimension => some dimension.length) true rest
    if values = [] then return ([], [])
    else return (bounds, values)

end Chat2DB.Postgres
