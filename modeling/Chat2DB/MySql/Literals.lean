import Chat2DB.Base.Base64
import Chat2DB.Base.Decimal
import Chat2DB.MySql.Lexemes
import Chat2DB.MySql.Tokens

/-! # Names and literals in generated SQL

Names are trimmed and put in backticks. What a cell is written as depends on the type of
its column: numbers as they are, booleans as words, binary data as hexadecimal digits, and
everything else as a string with escapes.
-/

namespace Chat2DB.MySql.Ddl

open Sql (AppError)

/-! ## Failures -/

def invalidGrid (message : String) : AppError := .invalid "invalid_mysql_result_grid" message

def invalidDdl (message : String) : AppError := .invalid "invalid_mysql_ddl" message

def displayed (error : AppError) : String := error.code ++ ": " ++ error.message

/-! ## Names -/

def maxIdentifierChars : Nat := 64

/-- The characters of the Unicode category `Cc`. -/
def isControl (c : Char) : Bool := c.toNat < 32 || (127 ≤ c.toNat && c.toNat < 160)

def quoteIdentifier (identifier : List Char) : Except AppError (List Char) :=
  let identifier := Text.trim identifier
  if identifier = [] then .error (invalidDdl "MySQL identifiers cannot be empty")
  else if maxIdentifierChars < identifier.length then
    .error (invalidDdl "MySQL identifiers cannot exceed 64 characters")
  else if identifier.any isControl then
    .error (invalidDdl "MySQL identifiers cannot contain control characters")
  else .ok (quoteName identifier)

structure MysqlQualifiedName where
  databaseName : Option (List Char)
  schemaName : Option (List Char)
  name : List Char
deriving DecidableEq

def nonEmptyOption (value : Option (List Char)) : Option (List Char) :=
  value.filter fun text => Text.trim text ≠ []

/-- The namespace of a table, of which both options are names. -/
def MysqlQualifiedName.namespaceName (name : MysqlQualifiedName) : Option (List Char) :=
  (nonEmptyOption name.databaseName).or (nonEmptyOption name.schemaName)

def MysqlQualifiedName.ambiguous (name : MysqlQualifiedName) : Bool :=
  match nonEmptyOption name.databaseName, nonEmptyOption name.schemaName with
  | some database, some schema => database ≠ schema
  | _, _ => false

def quoteQualifiedName (name : MysqlQualifiedName) : Except AppError (List Char) :=
  if name.ambiguous then
    .error (invalidDdl "MySQL databaseName and schemaName must identify the same namespace")
  else do
    let object ← quoteIdentifier name.name
    match name.namespaceName with
    | none => .ok object
    | some space =>
      let space ← quoteIdentifier space
      .ok (space ++ '.' :: object)

/-! ## Types -/

def splitWhitespace (text : List Char) : List (List Char) :=
  (text.splitOnP Text.blank).filter fun piece => piece ≠ []

def normalizeTypeName (typeName : List Char) : List Char :=
  ([' '].intercalate (splitWhitespace typeName)).map Char.toUpper

def baseTypeName (typeName : List Char) : List Char :=
  typeName.takeWhile fun c => c ≠ '(' && c ≠ ' '

local instance lawfulTypeName : LawfulBEq (List Char) := inferInstance

def isIntegerType (typeName : List Char) : Bool :=
  typeName ∈ ["TINYINT", "SMALLINT", "MEDIUMINT", "INT", "INTEGER", "BIGINT"].map String.toList

def isBinaryType (typeName : List Char) : Bool :=
  typeName ∈ ["BINARY", "VARBINARY", "TINYBLOB", "BLOB", "MEDIUMBLOB", "LONGBLOB"].map
    String.toList

/-! ## Literals -/

def withoutSign : List Char → List Char
  | '+' :: rest | '-' :: rest => rest
  | text => text

def isIntegerLiteral (value : List Char) : Bool :=
  withoutSign value ≠ [] && (withoutSign value).all Char.isDigit

/-- The digits before the point, and those after it when there is one. -/
def isMantissa (mantissa : List Char) : Bool :=
  match mantissa.splitOn '.' with
  | [whole] => whole.all Char.isDigit && whole ≠ []
  | [whole, fraction] =>
    whole.all Char.isDigit && fraction.all Char.isDigit && (whole ≠ [] || fraction ≠ [])
  | _ => false

def isExponentMark (c : Char) : Bool := c = 'e' || c = 'E'

def isDecimalLiteral (value : List Char) (allowExponent : Bool) : Bool :=
  let value := withoutSign value
  if allowExponent && value.any isExponentMark then
    let mantissa := value.takeWhile fun c => !isExponentMark c
    value ≠ [] && isIntegerLiteral (value.drop (mantissa.length + 1)) && isMantissa mantissa
  else value ≠ [] && isMantissa value

/-- Bytes as the strict engine reads them: the text is the encoding of the bytes. -/
def decodeStandard (text : List Char) : Option (List UInt8) :=
  (Base64.decode text).filter fun bytes => Base64.encode bytes = text

def hexChar (digit : Nat) : Char :=
  if digit < 10 then Char.ofNat ('0'.toNat + digit) else Char.ofNat ('A'.toNat + (digit - 10))

def hexByte (byte : UInt8) : List Char := [hexChar (byte.toNat / 16), hexChar (byte.toNat % 16)]

def escapedChar (c : Char) : List Char :=
  if c = Char.ofNat 0 then ['\\', '0']
  else if c = '\n' then ['\\', 'n']
  else if c = '\r' then ['\\', 'r']
  else if c = '\t' then ['\\', 't']
  else if c = Char.ofNat 0x08 then ['\\', 'b']
  else if c = Char.ofNat 0x1A then ['\\', 'Z']
  else if c = '\\' then ['\\', '\\']
  else if c = '\'' then ['\'', '\'']
  else [c]

def quoteMysqlString (value : List Char) : List Char :=
  '\'' :: value.flatMap escapedChar ++ ['\'']

def serializeNumber (valid unsigned : Bool) (expected : String) (trimmed : List Char) :
    Except AppError (List Char) :=
  if !valid then .error (invalidDdl expected)
  else if unsigned && trimmed.head? = some '-' then
    .error (invalidDdl "Unsigned columns cannot contain negative values")
  else .ok trimmed

def serializeTypedLiteral (typeName value : List Char) : Except AppError (List Char) :=
  let baseType := baseTypeName typeName
  let trimmed := Text.trim value
  let unsigned := decide ("UNSIGNED".toList <:+: typeName)
  if isIntegerType baseType || baseType = "BIT".toList then
    serializeNumber (isIntegerLiteral trimmed) (unsigned || baseType = "BIT".toList)
      "Expected an integer literal" trimmed
  else if baseType ∈ ["DECIMAL".toList, "NUMERIC".toList] then
    serializeNumber (isDecimalLiteral trimmed false) unsigned "Expected a decimal literal" trimmed
  else if baseType ∈ ["FLOAT".toList, "DOUBLE".toList, "REAL".toList] then
    serializeNumber (isDecimalLiteral trimmed true) unsigned "Expected a finite numeric literal"
      trimmed
  else if baseType ∈ ["BOOL".toList, "BOOLEAN".toList] then
    if trimmed.map Char.toLower ∈ ["true".toList, "1".toList] then .ok "TRUE".toList
    else if trimmed.map Char.toLower ∈ ["false".toList, "0".toList] then .ok "FALSE".toList
    else .error (invalidDdl "Expected a boolean literal")
  else if isBinaryType baseType then
    match decodeStandard value with
    | none => .error (invalidDdl "Expected a Base64-encoded binary value")
    | some bytes => .ok ("X'".toList ++ bytes.flatMap hexByte ++ ['\''])
  else .ok (quoteMysqlString value)

end Chat2DB.MySql.Ddl
