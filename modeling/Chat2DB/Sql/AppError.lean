import Chat2DB.Base.Text

/-! # Failures of the SQL consoles -/

namespace Chat2DB.Sql

inductive AppErrorKind where
  | invalidRequest
  | notFound
  | conflict
  | resourceExhausted
  | unavailable
  | internal
deriving DecidableEq

structure AppError where
  kind : AppErrorKind
  code : String
  message : String
deriving DecidableEq

def AppError.invalid (code message : String) : AppError :=
  { kind := .invalidRequest, code, message }

def AppError.internal : AppError :=
  { kind := .internal, code := "internal_error", message := "The operation could not be completed" }

def maxSqlBytes : Nat := 1048576

end Chat2DB.Sql
