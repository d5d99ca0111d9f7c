import Chat2DB.Storage.AgentTypes
import Chat2DB.Wire.Messages

/-! # Frames of a result file

A result file is a schema frame followed by one frame for each batch of rows. A
frame is the encoded message behind its length in four bytes. The index keeps
the place, the length and the hash of every frame, and reading checks them all.
-/

namespace Chat2DB.Results

open Outcome (rejectIf orThrow)
open Storage (i64Max)

variable {maximum offset frameLength : Nat} {bytes expectedHash : List UInt8} {hash : Sha256}
  {id : ResultId}

/-- Results are named by a version 4 UUID, which also names their file. -/
abbrev ResultId := BitVec 128

def resultFormatVersion : Int := 1

def framePrefixBytes : Nat := 4

/-- The storage failures that the result store reports. `sqlite` stands for a violated
constraint and `fileExists` for a file that was to be created. -/
inductive ResultError where
  | sqlite
  | fileExists (id : ResultId)
  | invalidResult (reason : String)
  | numericRange (label : String)
  | quotaExceeded (requested available : Nat)
  | resultNotFound (id : ResultId)
  | unsupportedResultFormat (id : ResultId) (found supported : Int)
  | corruptResult (id : ResultId) (reason : String)
  | outcomeUnknown (operation : String) (id : ResultId)
deriving DecidableEq

def corrupt (id : ResultId) (reason : String) : ResultError := .corruptResult id reason

/-- Binding a `u64` parameter; the bound value is the number itself. -/
def toSqlI64 (value : Nat) (label : String) : Except ResultError Unit :=
  rejectIf (value > i64Max) (.numericRange label)

/-- A hash function with values of 32 bytes. -/
structure Sha256 where
  digest : List UInt8 → List UInt8
  length_digest : ∀ bytes, (digest bytes).length = 32

/-! ## Length prefixes -/

/-- `u32::to_be_bytes` -/
def toBeBytes (value : Nat) : List UInt8 :=
  [UInt8.ofNat (value / 2 ^ 24), UInt8.ofNat (value / 2 ^ 16), UInt8.ofNat (value / 2 ^ 8),
    UInt8.ofNat value]

/-- `u32::from_be_bytes` -/
def fromBeBytes (bytes : List UInt8) : Nat :=
  bytes.foldl (fun value byte => value * 256 + byte.toNat) 0

@[simp] theorem length_toBeBytes (value : Nat) : (toBeBytes value).length = framePrefixBytes := rfl

theorem fromBeBytes_toBeBytes {value : Nat} (hvalue : value < 2 ^ 32) :
    fromBeBytes (toBeBytes value) = value := by
  simp only [fromBeBytes, toBeBytes, List.foldl_cons, List.foldl_nil, UInt8.toNat_ofNat']
  omega

/-! ## Frames -/

/-- The frame around an encoded message. -/
def frameOf (payload : List UInt8) : List UInt8 := toBeBytes payload.length ++ payload

def encodeFrame (payload : List UInt8) (maximum : Nat) : Except ResultError (List UInt8) := do
  rejectIf (payload.length = 0 ∨ payload.length > maximum)
    (.invalidResult "protobuf payload is empty or exceeds its frame limit")
  rejectIf (payload.length ≥ 2 ^ 32) (.numericRange "protobuf payload length")
  pure (frameOf payload)

/-- The bytes of a file from an offset on, as many as were asked for. -/
def readExact (bytes : List UInt8) (offset length : Nat) : Option (List UInt8) :=
  if offset + length ≤ bytes.length then some ((bytes.drop offset).take length) else none

/-- Read the message at a place of a file, checked against its index entry. -/
def readIndexedFrame {μ : Type} (hash : Sha256) (decode : List UInt8 → Option μ)
    (bytes : List UInt8) (id : ResultId) (offset frameLength : Nat) (expectedHash : List UInt8)
    (maximumPayload : Nat) : Except ResultError μ := do
  rejectIf (frameLength ≤ framePrefixBytes ∨ frameLength > framePrefixBytes + maximumPayload ∨
    expectedHash.length ≠ 32) (corrupt id "indexed frame metadata is invalid")
  let frame ← orThrow (readExact bytes offset frameLength)
    (corrupt id "indexed frame is truncated")
  rejectIf (hash.digest frame ≠ expectedHash) (corrupt id "indexed frame hash mismatch")
  let payloadLength := fromBeBytes (frame.take framePrefixBytes)
  rejectIf (payloadLength ≠ frameLength - framePrefixBytes ∨ payloadLength > maximumPayload)
    (corrupt id "indexed frame length prefix is invalid")
  orThrow (decode (frame.drop framePrefixBytes))
    (corrupt id "indexed protobuf payload cannot be decoded")

@[simp] theorem length_frameOf (payload : List UInt8) :
    (frameOf payload).length = framePrefixBytes + payload.length := by
  simp [frameOf]

theorem encodeFrame_eq_ok_iff {payload frame : List UInt8} :
    encodeFrame payload maximum = .ok frame ↔
      0 < payload.length ∧ payload.length ≤ maximum ∧ payload.length < 2 ^ 32 ∧
        frame = frameOf payload := by
  simp only [encodeFrame, Outcome.bind_eq_ok, Outcome.rejectIf_eq_ok, Outcome.pure_eq_ok,
    exists_const]
  constructor
  · rintro ⟨hbounds, hrange, rfl⟩
    exact ⟨by omega, by omega, by omega, rfl⟩
  · rintro ⟨hpositive, hmaximum, hrange, rfl⟩
    exact ⟨by omega, by omega, rfl⟩

theorem readExact_take {length bound : Nat}
    (hbound : offset + length ≤ bound) (hbytes : bound ≤ bytes.length) :
    readExact (bytes.take bound) offset length = readExact bytes offset length := by
  unfold readExact
  rw [List.length_take, Nat.min_eq_left hbytes, if_pos hbound,
    if_pos (Nat.le_trans hbound hbytes), List.drop_take, List.take_take,
    Nat.min_eq_left (by omega)]

theorem readExact_append (before data after : List UInt8) :
    readExact (before ++ data ++ after) before.length data.length = some data := by
  unfold readExact
  rw [if_pos (by simp), List.append_assoc, List.drop_left, List.take_left]

theorem readIndexedFrame_frameOf {μ : Type} {hash : Sha256} {decode : List UInt8 → Option μ}
    {payload before after : List UInt8} {message : μ} {id : ResultId} {maximum : Nat}
    (hpositive : 0 < payload.length) (hmaximum : payload.length ≤ maximum)
    (hrange : payload.length < 2 ^ 32) (hdecode : decode payload = some message) :
    readIndexedFrame hash decode (before ++ frameOf payload ++ after) id before.length
      (frameOf payload).length (hash.digest (frameOf payload)) maximum = .ok message := by
  have hfront : (frameOf payload).take framePrefixBytes = toBeBytes payload.length := by
    unfold frameOf
    rw [← length_toBeBytes payload.length, List.take_left]
  have hrest : (frameOf payload).drop framePrefixBytes = payload := by
    unfold frameOf
    rw [← length_toBeBytes payload.length, List.drop_left]
  simp only [readIndexedFrame, Outcome.bind_eq_ok, Outcome.rejectIf_eq_ok, Outcome.orThrow_eq_ok,
    exists_const, readExact_append, Option.some.injEq]
  refine ⟨?_, frameOf payload, rfl, ?_, ?_, ?_⟩
  · rw [hash.length_digest, length_frameOf]
    omega
  · simp
  · rw [hfront, fromBeBytes_toBeBytes hrange, length_frameOf]
    omega
  · rw [hrest]
    exact hdecode

theorem readIndexedFrame_take {μ : Type} {decode : List UInt8 → Option μ} {bound : Nat}
    (hbound : offset + frameLength ≤ bound) (hbytes : bound ≤ bytes.length) :
    readIndexedFrame hash decode (bytes.take bound) id offset frameLength expectedHash maximum =
      readIndexedFrame hash decode bytes id offset frameLength expectedHash maximum := by
  unfold readIndexedFrame
  rw [readExact_take hbound hbytes]

theorem readIndexedFrame_bound {μ : Type} {decode : List UInt8 → Option μ} {message : μ}
    (hread : readIndexedFrame hash decode bytes id offset frameLength expectedHash maximum =
      .ok message) : offset + frameLength ≤ bytes.length := by
  simp only [readIndexedFrame, Outcome.bind_eq_ok, Outcome.orThrow_eq_ok] at hread
  obtain ⟨_, -, frame, hframe, -⟩ := hread
  unfold readExact at hframe
  split at hframe
  · assumption
  · cases hframe

theorem readIndexedFrame_frameLength {μ : Type} {decode : List UInt8 → Option μ} {message : μ}
    (hread : readIndexedFrame hash decode bytes id offset frameLength expectedHash maximum =
      .ok message) : framePrefixBytes < frameLength := by
  simp only [readIndexedFrame, Outcome.bind_eq_ok, Outcome.rejectIf_eq_ok] at hread
  obtain ⟨-, hmetadata, -⟩ := hread
  omega

theorem readIndexedFrame_error {μ : Type} {decode : List UInt8 → Option μ} {error : ResultError}
    (hread : readIndexedFrame hash decode bytes id offset frameLength expectedHash maximum =
      .error error) : ∃ reason, error = corrupt id reason := by
  by_contra hother
  rw [not_exists] at hother
  refine absurd hread ?_
  refine Outcome.bind_ne_error (Outcome.rejectIf_ne_error (Ne.symm (hother _))) fun _ => ?_
  refine Outcome.bind_ne_error (Outcome.orThrow_ne_error (Ne.symm (hother _))) fun frame => ?_
  refine Outcome.bind_ne_error (Outcome.rejectIf_ne_error (Ne.symm (hother _))) fun _ => ?_
  refine Outcome.bind_ne_error (Outcome.rejectIf_ne_error (Ne.symm (hother _))) fun _ => ?_
  exact Outcome.orThrow_ne_error (Ne.symm (hother _))

end Chat2DB.Results
