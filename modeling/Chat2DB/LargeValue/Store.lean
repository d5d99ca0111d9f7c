import Chat2DB.Base.Base64
import Chat2DB.Base.Rows
import Chat2DB.Base.Utf8

/-! # Large values

Values of a console result that are too large to be sent whole are retained for their
owner, who reads them in chunks. The store is bounded: the oldest values go first.
-/

namespace Chat2DB.LargeValue

def u64Max : Nat := 2 ^ 64 - 1

def saturatingAdd (first second : Nat) : Nat := min (first + second) u64Max

structure LargeValueStoreConfig where
  previewBytes : Nat
  maxChunkSize : Nat
  maxValueBytes : Nat
  maxTotalBytes : Nat
  maxEntries : Nat
  ttl : Nat
  maxValueBytes_le : maxValueBytes ≤ u64Max
  maxTotalBytes_le : maxTotalBytes ≤ u64Max

inductive LargeValueType where
  | text
  | binary
deriving DecidableEq

inductive LargeValueEncoding where
  | utf8
  | base64
deriving DecidableEq

structure LargeValueChunk where
  value : List Char
  offset : Nat
  nextOffset : Nat
  eof : Bool
  sizeBytes : Nat
  sizeChars : Option Nat
  encoding : LargeValueEncoding
  contentType : String
  displayMode : LargeValueType
deriving DecidableEq

inductive LargeValueError where
  | invalidOwner
  | invalidToken
  | notFound
  | expired
  | ownerMismatch
  | invalidLimit
  | invalidRange (offset length : Nat)
  | capacityExceeded (requestedBytes maxValueBytes maxTotalBytes maxEntries : Nat)
deriving DecidableEq

/-! ## Values -/

inductive StoredValue where
  | text (value : List Char)
  | binary (value : List UInt8)
deriving DecidableEq

/-- What a value is sent with, before it has a token. -/
structure PreviewParts where
  value : List Char
  valueType : LargeValueType
  sizeBytes : Nat
  sizeChars : Option Nat
  loadedBytes : Nat
  loadedChars : Option Nat
  truncated : Bool
  encoding : LargeValueEncoding
deriving DecidableEq

/-- The last place up to `stop` at which the text may be cut. -/
def floorBoundary (cells : List Utf8.Cell) : Nat → Nat
  | 0 => 0
  | stop + 1 =>
    if Utf8.boundary (cells.drop (stop + 1)) then stop + 1 else floorBoundary cells stop

namespace StoredValue

def sizeBytes : StoredValue → Nat
  | text value => Text.utf8Length value
  | binary value => value.length

def sizeChars : StoredValue → Option Nat
  | text value => some value.length
  | binary _ => none

/-- There is no preview when the slice of the text cuts a character, which panics. -/
def preview (maxBytes : Nat) : StoredValue → Option PreviewParts
  | text value => do
    let cells := Utf8.cells value
    let stop := floorBoundary cells (min cells.length maxBytes)
    let shown ← Utf8.slice (cells.take stop) (cells.drop stop)
    return {
      value := shown
      valueType := .text
      sizeBytes := cells.length
      sizeChars := some value.length
      loadedBytes := stop
      loadedChars := some shown.length
      truncated := stop < cells.length
      encoding := .utf8 }
  | binary value =>
    let included := min value.length maxBytes
    some {
      value := Base64.encode (value.take included)
      valueType := .binary
      sizeBytes := value.length
      sizeChars := none
      loadedBytes := included
      loadedChars := none
      truncated := included < value.length
      encoding := .base64 }

end StoredValue

/-- The loop of `text_chunk`: the characters that are included, and how many they are. -/
def includeChars (limit included : Nat) : List Char → List Char × Nat
  | [] => ([], included)
  | c :: rest =>
    if included = limit then ([], included)
    else
      let (taken, count) := includeChars limit (included + 1) rest
      (c :: taken, count)

def textChunk (value : List Char) (offset limit sizeBytes : Nat) (sizeChars : Option Nat) :
    Except LargeValueError LargeValueChunk :=
  let length := sizeChars.getD value.length
  if offset > length then .error (.invalidRange offset length)
  else if offset ≠ length ∧ value.length ≤ offset then .error (.invalidRange offset length)
  else
    let tail := if offset = length then [] else value.drop offset
    let (shown, included) := includeChars limit 0 tail
    .ok {
      value := shown
      offset := offset
      nextOffset := offset + included
      eof := offset + included = length
      sizeBytes := sizeBytes
      sizeChars := some length
      encoding := .utf8
      contentType := "text/plain"
      displayMode := .text }

def byteChunk (value : List UInt8) (offset limit sizeBytes : Nat) (sizeChars : Option Nat)
    (displayMode : LargeValueType) (contentType : String) :
    Except LargeValueError LargeValueChunk :=
  if offset > value.length then .error (.invalidRange offset value.length)
  else
    let stop := min (saturatingAdd offset limit) value.length
    .ok {
      value := Base64.encode ((value.drop offset).take (stop - offset))
      offset := offset
      nextOffset := stop
      eof := stop = value.length
      sizeBytes := sizeBytes
      sizeChars := sizeChars
      encoding := .base64
      contentType := contentType
      displayMode := displayMode }

def binaryChunk (value : List UInt8) (offset limit sizeBytes : Nat) :
    Except LargeValueError LargeValueChunk :=
  byteChunk value offset limit sizeBytes none .binary "application/octet-stream"

namespace StoredValue

def chunk (value : StoredValue) (offset limit sizeBytes : Nat) (sizeChars : Option Nat) :
    Except LargeValueError LargeValueChunk :=
  match value with
  | text value => textChunk value offset limit sizeBytes sizeChars
  | binary value => binaryChunk value offset limit sizeBytes

/-- The bytes of a text. -/
def bytes : StoredValue → List UInt8
  | text value => (Utf8.cells value).map Utf8.Cell.byte
  | binary value => value

def encodedChunk (value : StoredValue) (offset limit sizeBytes : Nat) (sizeChars : Option Nat) :
    Except LargeValueError LargeValueChunk :=
  match value with
  | text _ => byteChunk value.bytes offset limit sizeBytes sizeChars .text "text/plain"
  | binary value => binaryChunk value offset limit sizeBytes

end StoredValue

/-! ## The store -/

variable {Uuid : Type} [DecidableEq Uuid]

structure StoredEntry (Uuid : Type) where
  token : Uuid
  ownerId : List Char
  value : StoredValue
  sizeBytes : Nat
  sizeChars : Option Nat
  expiresAt : Nat

/-- The entries are a map by token. -/
structure StoreState (Uuid : Type) where
  entries : List (StoredEntry Uuid)
  order : List Uuid
  totalBytes : Nat

namespace StoreState

def empty : StoreState Uuid := { entries := [], order := [], totalBytes := 0 }

def find (state : StoreState Uuid) (token : Uuid) : Option (StoredEntry Uuid) :=
  Rows.find StoredEntry.token token state.entries

/-- Takes an entry out of the map, with its bytes out of the total. -/
def take (state : StoreState Uuid) (token : Uuid) : StoreState Uuid :=
  match state.find token with
  | none => state
  | some entry =>
    { state with
      entries := state.entries.filter fun other => other.token ≠ token
      totalBytes := state.totalBytes - entry.sizeBytes }

def remove (state : StoreState Uuid) (token : Uuid) : StoreState Uuid :=
  match state.find token with
  | none => state
  | some _ =>
    let taken := state.take token
    { taken with order := taken.order.filter fun queued => queued ≠ token }

/-- The first token of the queue that is in the map; without one the queue is empty. -/
def evictOldest (state : StoreState Uuid) : List Uuid → Bool × StoreState Uuid
  | [] => (false, { state with order := [] })
  | token :: order =>
    match state.find token with
    | some _ => (true, { state.take token with order := order })
    | none => evictOldest state order

def cleanupExpired (state : StoreState Uuid) (now : Nat) : StoreState Uuid :=
  let expired := (state.entries.filter fun entry => entry.expiresAt ≤ now).map StoredEntry.token
  let taken := expired.foldl take state
  { taken with order := taken.order.filter fun token => (taken.find token).isSome }

/-- The entries of an owner. -/
def removeOwner (state : StoreState Uuid) (ownerId : List Char) (now : Nat) : StoreState Uuid :=
  let cleaned := state.cleanupExpired now
  let tokens :=
    (cleaned.entries.filter fun entry => entry.ownerId = ownerId).map StoredEntry.token
  tokens.foldl remove cleaned

/-- There is no room for a value of this size. -/
def full (config : LargeValueStoreConfig) (state : StoreState Uuid) (sizeBytes : Nat) : Bool :=
  decide (config.maxEntries ≤ state.entries.length) ||
    decide (config.maxTotalBytes < saturatingAdd state.totalBytes sizeBytes)

/-- The loop of `retain`, which ends with the queue: each turn but the last takes a token. -/
def makeRoom (config : LargeValueStoreConfig) (sizeBytes : Nat) :
    Nat → StoreState Uuid → StoreState Uuid
  | 0, state => state
  | turns + 1, state =>
    if state.full config sizeBytes then
      match state.evictOldest state.order with
      | (true, next) => makeRoom config sizeBytes turns next
      | (false, next) => next
    else state

end StoreState

def validateOwner (ownerId : List Char) : Except LargeValueError Unit :=
  if Text.trim ownerId = [] then .error .invalidOwner else .ok ()

def capacityError (config : LargeValueStoreConfig) (requestedBytes : Nat) : LargeValueError :=
  .capacityExceeded requestedBytes config.maxValueBytes config.maxTotalBytes config.maxEntries

/-- How `retain` answers: with a preview, and with a token if the value was retained. -/
structure Retained (Uuid : Type) where
  preview : PreviewParts
  token : Option Uuid

/-- `draws` are the tokens that are drawn: the first one that is not in the map is taken. -/
def retain (config : LargeValueStoreConfig) (state : StoreState Uuid) (ownerId : List Char)
    (value : StoredValue) (now : Nat) (draws : List Uuid) :
    Option (Except LargeValueError (Retained Uuid) × StoreState Uuid) :=
  match validateOwner ownerId with
  | .error error => some (.error error, state)
  | .ok () => do
    let preview ← value.preview config.previewBytes
    if !preview.truncated then return (.ok ⟨preview, none⟩, state)
    let sizeBytes := value.sizeBytes
    if config.maxValueBytes < sizeBytes ∨ config.maxTotalBytes < sizeBytes ∨
        config.maxEntries = 0 then
      return (.error (capacityError config sizeBytes), state)
    let cleaned := state.cleanupExpired now
    let roomy := cleaned.makeRoom config sizeBytes (cleaned.order.length + 1)
    if roomy.full config sizeBytes then
      return (.error (capacityError config sizeBytes), roomy)
    let fresh ← draws.find? fun token => (roomy.find token).isNone
    let entry : StoredEntry Uuid :=
      { token := fresh
        ownerId := ownerId
        value := value
        sizeBytes := sizeBytes
        sizeChars := value.sizeChars
        expiresAt := now + config.ttl }
    return (.ok ⟨preview, some fresh⟩,
      { entries := roomy.entries ++ [entry]
        order := roomy.order ++ [fresh]
        totalBytes := saturatingAdd roomy.totalBytes sizeBytes })

/-- A token that does not parse is `none`. -/
def readChunkInner (config : LargeValueStoreConfig) (state : StoreState Uuid)
    (ownerId : List Char) (token : Option Uuid) (offset limit now : Nat) (encoded : Bool) :
    Except LargeValueError LargeValueChunk × StoreState Uuid :=
  match validateOwner ownerId with
  | .error error => (.error error, state)
  | .ok () =>
    if limit = 0 ∨ config.maxChunkSize = 0 then (.error .invalidLimit, state)
    else
      match token with
      | none => (.error .invalidToken, state)
      | some token =>
        if (state.find token).any fun entry => entry.expiresAt ≤ now then
          (.error .expired, state.remove token)
        else
          let cleaned := state.cleanupExpired now
          match cleaned.find token with
          | none => (.error .notFound, cleaned)
          | some entry =>
            if entry.ownerId ≠ ownerId then (.error .ownerMismatch, cleaned)
            else
              let limit := min limit config.maxChunkSize
              (if encoded then
                  entry.value.encodedChunk offset limit entry.sizeBytes entry.sizeChars
                else entry.value.chunk offset limit entry.sizeBytes entry.sizeChars,
                cleaned)

def removeToken (state : StoreState Uuid) (ownerId : List Char) (token : Option Uuid)
    (now : Nat) : Except LargeValueError Unit × StoreState Uuid :=
  match validateOwner ownerId with
  | .error error => (.error error, state)
  | .ok () =>
    match token with
    | none => (.error .invalidToken, state)
    | some token =>
      match state.find token with
      | none => (.error .notFound, state)
      | some entry =>
        if entry.expiresAt ≤ now then (.error .expired, state.remove token)
        else if entry.ownerId ≠ ownerId then (.error .ownerMismatch, state)
        else (.ok (), state.remove token)

end Chat2DB.LargeValue
