import Chat2DB.Sql.AppError
import Chat2DB.Wire.Messages
import Chat2DB.Base.Outcome

/-! # Reading PostgreSQL's binary fields

Integers of two, four and eight bytes in network order, the cursor that takes
them off a payload, and the limit on a decoded scalar.
-/

namespace Chat2DB.Postgres

open Chat2DB.Sql

variable {width : Nat} {raw : List UInt8}

def resultDecodeError : AppError where
  kind := .unavailable
  code := "postgres_result_decode_failed"
  message := "A PostgreSQL result value could not be decoded safely"

def postgresScalarTooLarge (byteCount : Nat) : AppError where
  kind := .resourceExhausted
  code := "postgres_scalar_too_large"
  message :=
    s!"A PostgreSQL scalar contains {byteCount} bytes; the limit is {Wire.maxScalarBytes} bytes"

def ensurePostgresScalarSize (byteCount : Nat) : Except AppError Unit :=
  Outcome.rejectIf (Wire.maxScalarBytes < byteCount) (postgresScalarTooLarge byteCount)

/-- The number that bytes in network order denote. -/
def bigEndian (raw : List UInt8) : Nat :=
  raw.foldl (fun number byte => number * 256 + byte.toNat) 0

/-- The two's complement reading of a number of `width` bytes. -/
def signed (width : Nat) (number : Nat) : Int :=
  if number < 2 ^ (8 * width - 1) then number else (number : Int) - 2 ^ (8 * width)

/-- A slice of exactly `width` bytes as an unsigned number. -/
def readUnsigned (width : Nat) (raw : List UInt8) : Except AppError Nat :=
  if raw.length = width then .ok (bigEndian raw) else .error resultDecodeError

def readSigned (width : Nat) (raw : List UInt8) : Except AppError Int := do
  return signed width (← readUnsigned width raw)

def readI16 (raw : List UInt8) : Except AppError Int :=
  readSigned 2 raw

def readU16 (raw : List UInt8) : Except AppError Nat :=
  readUnsigned 2 raw

def readI32 (raw : List UInt8) : Except AppError Int :=
  readSigned 4 raw

def readU32 (raw : List UInt8) : Except AppError Nat :=
  readUnsigned 4 raw

def readI64 (raw : List UInt8) : Except AppError Int :=
  readSigned 8 raw

/-- `head` and the bytes behind it, or a failure when there are too few. -/
def takeBytes (raw : List UInt8) (length : Nat) : Except AppError (List UInt8 × List UInt8) :=
  if length ≤ raw.length then .ok (raw.take length, raw.drop length)
  else .error resultDecodeError

def takeI32 (raw : List UInt8) : Except AppError (Int × List UInt8) := do
  let (head, tail) ← takeBytes raw 4
  return (← readI32 head, tail)

def takeU32 (raw : List UInt8) : Except AppError (Nat × List UInt8) := do
  let (head, tail) ← takeBytes raw 4
  return (← readU32 head, tail)

theorem readUnsigned_eq_ok {number : Nat} :
    readUnsigned width raw = .ok number ↔ raw.length = width ∧ bigEndian raw = number := by
  unfold readUnsigned
  split <;> simp_all

theorem readUnsigned_of_length (h : raw.length = width) :
    readUnsigned width raw = .ok (bigEndian raw) :=
  readUnsigned_eq_ok.2 ⟨h, rfl⟩

theorem readSigned_of_length (h : raw.length = width) :
    readSigned width raw = .ok (signed width (bigEndian raw)) := by
  rw [readSigned, readUnsigned_of_length h]
  rfl

theorem bigEndian_concat (raw : List UInt8) (byte : UInt8) :
    bigEndian (raw ++ [byte]) = bigEndian raw * 256 + byte.toNat := by
  rw [bigEndian, List.foldl_append]
  rfl

theorem bigEndian_lt (raw : List UInt8) : bigEndian raw < 2 ^ (8 * raw.length) := by
  induction raw using List.reverseRecOn with
  | nil => simp [bigEndian]
  | append_singleton raw byte ih =>
    have hbyte := byte.toNat_lt
    rw [bigEndian_concat, List.length_append, List.length_singleton, Nat.mul_add, pow_add]
    omega

theorem bigEndian_injective {left right : List UInt8} (hlength : left.length = right.length)
    (h : bigEndian left = bigEndian right) : left = right := by
  induction left using List.reverseRecOn generalizing right with
  | nil => exact (List.length_eq_zero_iff.1 hlength.symm).symm
  | append_singleton left byte ih =>
    cases right using List.reverseRecOn with
    | nil => simp at hlength
    | append_singleton right other =>
      rw [bigEndian_concat, bigEndian_concat] at h
      have hbyte := byte.toNat_lt
      have hother := other.toNat_lt
      have hsame : left = right := by
        apply ih
        · simpa using hlength
        · omega
      have hlast : byte = other := by
        apply UInt8.toNat_inj.1
        rw [hsame] at h
        omega
      rw [hsame, hlast]

theorem signed_injective {left right : Nat} (hwidth : 0 < width)
    (hleft : left < 2 ^ (8 * width)) (hright : right < 2 ^ (8 * width))
    (h : signed width left = signed width right) : left = right := by
  have hpow : 2 ^ (8 * width) = 2 * 2 ^ (8 * width - 1) := by
    rw [← pow_succ']
    congr 1
    omega
  have hcast : ((2 : Int) ^ (8 * width)) = ((2 ^ (8 * width) : Nat) : Int) := by
    push_cast
    rfl
  unfold signed at h
  rw [hcast] at h
  split at h <;> split at h <;> omega

end Chat2DB.Postgres
