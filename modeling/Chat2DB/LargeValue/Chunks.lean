import Chat2DB.Base.Pieces
import Chat2DB.LargeValue.Retention

/-! # Reading large values

Text is read by characters and binary values by bytes. Either way a chunk is a piece of the
value, so reading on from where the last chunk ended comes to the end, with the value.
-/

namespace Chat2DB.LargeValue

open Pieces (IsPiece)

variable {Uuid : Type} [DecidableEq Uuid]

/-! ## Chunks are pieces -/

theorem includeChars_eq (limit : Nat) {included : Nat} (text : List Char)
    (hincluded : included ≤ limit) :
    includeChars limit included text =
      (text.take (limit - included), included + min (limit - included) text.length) := by
  induction text generalizing included with
  | nil => simp [includeChars]
  | cons c text ih =>
    unfold includeChars
    by_cases hlimit : included = limit
    · simp [hlimit]
    · have hroom : limit - included = limit - (included + 1) + 1 := by omega
      rw [if_neg hlimit, ih (by omega), hroom, List.take_succ_cons, List.length_cons]
      simp only [Prod.mk.injEq, true_and]
      omega

/-- A chunk of a text is the piece of it that was asked for, in characters. -/
theorem textChunk_isPiece (value : List Char) {offset : Nat} (limit sizeBytes : Nat)
    (hoffset : offset ≤ value.length) :
    ∃ chunk, textChunk value offset limit sizeBytes (some value.length) = .ok chunk ∧
      IsPiece value offset limit chunk.value chunk.nextOffset chunk.eof := by
  have htail : (if offset = value.length then [] else value.drop offset) = value.drop offset := by
    by_cases hend : offset = value.length
    · rw [if_pos hend, hend, List.drop_length]
    · rw [if_neg hend]
  have hcheck : ¬ (offset ≠ value.length ∧ value.length ≤ offset) := by omega
  unfold textChunk
  simp only [Option.getD_some, Nat.not_lt.mpr hoffset, if_false, hcheck, htail,
    includeChars_eq limit _ (Nat.zero_le limit)]
  refine ⟨_, rfl, ?_, ?_, ?_⟩
  · rfl
  · simp [List.length_take]
  · simp

/-- A chunk of bytes is the piece of them that was asked for. -/
theorem byteChunk_isPiece (value : List UInt8) {offset : Nat} (limit sizeBytes : Nat)
    (sizeChars : Option Nat) (displayMode : LargeValueType) (contentType : String)
    (hoffset : offset ≤ value.length) (hlength : value.length ≤ u64Max) :
    ∃ chunk piece,
      byteChunk value offset limit sizeBytes sizeChars displayMode contentType = .ok chunk ∧
      Base64.decode chunk.value = some piece ∧
      IsPiece value offset limit piece chunk.nextOffset chunk.eof := by
  have hstop : min (saturatingAdd offset limit) value.length =
      offset + min limit (value.length - offset) := by
    unfold saturatingAdd
    omega
  have htake : (value.drop offset).take (offset + min limit (value.length - offset) - offset) =
      (value.drop offset).take limit := by
    rw [Nat.add_sub_cancel_left, ← List.length_drop, List.take_eq_take_min]
    simp
  unfold byteChunk
  rw [if_neg (by omega)]
  simp only [hstop, htake]
  refine ⟨_, _, rfl, Base64.decode_encode _, ?_, ?_, ?_⟩
  · rfl
  · simp [List.length_take, List.length_drop]
  · simp

/-! ## Reading on -/

/-- What a reader asks for, and when. -/
structure ReadRequest where
  limit : Nat
  now : Nat

/-- Reads from the offset on, until a chunk is the last one. There is no result when a read
fails, or when the reads run out before the end. -/
def readAll (config : LargeValueStoreConfig) (ownerId : List Char) (token : Uuid)
    (encoded : Bool) (requests : Nat → ReadRequest) :
    Nat → Nat → StoreState Uuid → Nat → Option (List LargeValueChunk)
  | 0, _, _, _ => none
  | reads + 1, index, state, offset =>
    let request := requests index
    match readChunkInner config state ownerId (some token) offset request.limit request.now
      encoded with
    | (.error _, _) => none
    | (.ok chunk, next) =>
      if chunk.eof then some [chunk]
      else
        (readAll config ownerId token encoded requests reads (index + 1) next
          chunk.nextOffset).map (chunk :: ·)

/-- The chunk that a read of an entry takes. -/
def StoredEntry.chunk (entry : StoredEntry Uuid) (encoded : Bool) (offset limit : Nat) :
    Except LargeValueError LargeValueChunk :=
  if encoded then entry.value.encodedChunk offset limit entry.sizeBytes entry.sizeChars
  else entry.value.chunk offset limit entry.sizeBytes entry.sizeChars

/-- A live value is read by its owner. -/
theorem readChunkInner_of_find {config : LargeValueStoreConfig} {state : StoreState Uuid}
    {token : Uuid} {entry : StoredEntry Uuid} {request : ReadRequest} (haligned : state.Aligned)
    (hfind : state.find token = some entry) (howner : validateOwner entry.ownerId = .ok ())
    (hlimit : 1 ≤ request.limit) (hchunk : 0 < config.maxChunkSize)
    (hnow : request.now < entry.expiresAt) (offset : Nat) (encoded : Bool) :
    ∃ next, readChunkInner config state entry.ownerId (some token) offset request.limit
        request.now encoded =
        (entry.chunk encoded offset (min request.limit config.maxChunkSize), next) ∧
      next.Aligned ∧ next.find token = some entry := by
  have hcleaned : (state.cleanupExpired request.now).Aligned := by
    rw [haligned.cleanupExpired_eq]
    exact haligned.restrict _
  have hstays : (state.cleanupExpired request.now).find token = some entry := by
    rw [haligned.cleanupExpired_eq]
    exact haligned.find_restrict hfind (decide_eq_true hnow)
  refine ⟨state.cleanupExpired request.now, ?_, hcleaned, hstays⟩
  have hlimits : ¬ (request.limit = 0 ∨ config.maxChunkSize = 0) := by omega
  have hlive : ¬ entry.expiresAt ≤ request.now := Nat.not_le_of_lt hnow
  unfold readChunkInner
  simp only [howner, hlimits, hfind, hlive, hstays, StoredEntry.chunk, if_false, Option.any_some,
    decide_false, Bool.false_eq_true, ne_eq, not_true_eq_false]

omit [DecidableEq Uuid] in
theorem encodedChunk_isPiece (entry : StoredEntry Uuid) {offset limit : Nat}
    (hoffset : offset ≤ entry.value.bytes.length) (hlength : entry.value.bytes.length ≤ u64Max) :
    ∃ chunk piece, entry.chunk true offset limit = .ok chunk ∧
      Base64.decode chunk.value = some piece ∧
      IsPiece entry.value.bytes offset limit piece chunk.nextOffset chunk.eof := by
  unfold StoredEntry.chunk StoredValue.encodedChunk
  rw [if_pos rfl]
  cases hvalue : entry.value with
  | text | binary =>
    rw [hvalue] at hoffset hlength
    exact byteChunk_isPiece _ _ _ _ _ _ hoffset hlength

section Reading

variable {α : Type} (units : List α) (content : LargeValueChunk → Option (List α))

/-- The chunks hold the rest of the units, each at most as many as were asked for, and only
the last one says so. -/
structure Covers (requests : Nat → ReadRequest) (index offset : Nat)
    (chunks : List LargeValueChunk) : Prop where
  pieces : ∃ pieces : List (List α), chunks.map content = pieces.map some ∧ pieces.flatten = units.drop offset
  limits : ∀ place chunk, chunks[place]? = some chunk →
    ∀ piece, content chunk = some piece → piece.length ≤ (requests (index + place)).limit
  last : ∃ front chunk, chunks = front ++ [chunk] ∧ chunk.eof = true ∧
    ∀ other ∈ front, other.eof = false

variable {units content}

theorem covers_last {requests : Nat → ReadRequest} {index offset limit : Nat}
    {chunk : LargeValueChunk} {piece : List α} (hlimit : limit ≤ (requests index).limit)
    (hcontent : content chunk = some piece)
    (hpiece : IsPiece units offset limit piece chunk.nextOffset true) (heof : chunk.eof = true) :
    Covers units content requests index offset [chunk] where
  pieces := ⟨[piece], by simp [hcontent], by simp [hpiece.eq_drop]⟩
  limits := by
    intro place other hother read hread
    cases place with
    | zero =>
      obtain rfl : chunk = other := by simpa using hother
      rw [hcontent, Option.some.injEq] at hread
      rw [← hread]
      exact hpiece.length_le.trans hlimit
    | succ place => simp at hother
  last := ⟨[], chunk, rfl, heof, by simp⟩

/-- A piece in front of the pieces that cover the rest. -/
theorem Covers.cons {requests : Nat → ReadRequest} {index offset limit : Nat}
    {chunk : LargeValueChunk} {chunks : List LargeValueChunk} {piece : List α}
    (hcovers : Covers units content requests (index + 1) chunk.nextOffset chunks)
    (hlimit : limit ≤ (requests index).limit) (hcontent : content chunk = some piece)
    (hpiece : IsPiece units offset limit piece chunk.nextOffset false)
    (heof : chunk.eof = false) :
    Covers units content requests index offset (chunk :: chunks) where
  pieces := by
    obtain ⟨pieces, hchunks, hflatten⟩ := hcovers.pieces
    refine ⟨piece :: pieces, by simp [hcontent, hchunks], ?_⟩
    rw [List.flatten_cons, hflatten, hpiece.append_drop]
  limits := by
    intro place other hother read hread
    cases place with
    | zero =>
      obtain rfl : chunk = other := by simpa using hother
      rw [hcontent, Option.some.injEq] at hread
      rw [← hread]
      exact hpiece.length_le.trans hlimit
    | succ place =>
      rw [List.getElem?_cons_succ] at hother
      have hlength := hcovers.limits place other hother read hread
      rw [Nat.add_right_comm, Nat.add_assoc] at hlength
      exact hlength
  last := by
    obtain ⟨front, last, rfl, hlast, hfront⟩ := hcovers.last
    refine ⟨chunk :: front, last, rfl, hlast, ?_⟩
    intro other hother
    rcases List.mem_cons.mp hother with rfl | hother
    · exact heof
    · exact hfront other hother

/-- Reading gets on with every chunk, so it comes to the end. -/
theorem readAll_covers {config : LargeValueStoreConfig} {token : Uuid} {entry : StoredEntry Uuid}
    {encoded : Bool} {requests : Nat → ReadRequest}
    (howner : validateOwner entry.ownerId = .ok ()) (hchunk : 0 < config.maxChunkSize)
    (hlimits : ∀ index, 1 ≤ (requests index).limit)
    (htimes : ∀ index, (requests index).now < entry.expiresAt)
    (hpieces : ∀ offset limit, offset ≤ units.length → 1 ≤ limit →
      ∃ chunk piece, entry.chunk encoded offset limit = .ok chunk ∧
        content chunk = some piece ∧
        IsPiece units offset limit piece chunk.nextOffset chunk.eof)
    {reads index offset : Nat} {state : StoreState Uuid} (haligned : state.Aligned)
    (hfind : state.find token = some entry) (hoffset : offset ≤ units.length)
    (hreads : units.length - offset < reads) :
    ∃ chunks, readAll config entry.ownerId token encoded requests reads index state offset =
        some chunks ∧
      Covers units content requests index offset chunks := by
  induction reads generalizing index offset state with
  | zero => exact absurd hreads (Nat.not_lt_zero _)
  | succ reads ih =>
    obtain ⟨next, hread, hnext, hstays⟩ := readChunkInner_of_find haligned hfind howner
      (hlimits index) hchunk (htimes index) offset encoded
    have hlimit : 1 ≤ min (requests index).limit config.maxChunkSize := by
      have hone := hlimits index
      omega
    obtain ⟨chunk, piece, htaken, hcontent, hpiece⟩ := hpieces offset _ hoffset hlimit
    unfold readAll
    simp only [hread, htaken]
    cases heof : chunk.eof with
    | true =>
      rw [heof] at hpiece
      exact ⟨[chunk], rfl, covers_last (Nat.min_le_left _ _) hcontent hpiece heof⟩
    | false =>
      rw [heof] at hpiece
      have hprogress := hpiece.lt_next hoffset hlimit
      have hbounded := hpiece.next_le hoffset
      have hfewer : units.length - chunk.nextOffset < reads := by omega
      obtain ⟨chunks, hrest, hcovers⟩ := @ih (index + 1) _ _ hnext hstays hbounded hfewer
      refine ⟨chunk :: chunks, ?_, hcovers.cons (Nat.min_le_left _ _) hcontent hpiece heof⟩
      simp [hrest]

end Reading

/-! ## Previews -/

theorem floorBoundary_le (cells : List Utf8.Cell) (stop : Nat) :
    floorBoundary cells stop ≤ stop := by
  induction stop with
  | zero => exact le_rfl
  | succ stop ih =>
    unfold floorBoundary
    split
    · exact le_rfl
    · exact ih.trans (Nat.le_succ stop)

/-- The cut is between two characters. -/
theorem boundary_floorBoundary (text : List Char) (stop : Nat) :
    Utf8.boundary ((Utf8.cells text).drop (floorBoundary (Utf8.cells text) stop)) = true := by
  induction stop with
  | zero => exact Utf8.boundary_cells text
  | succ stop ih =>
    unfold floorBoundary
    split
    case isTrue hboundary => exact hboundary
    case isFalse => exact ih

/-- The preview of a text is a prefix of it, cut between characters. -/
theorem preview_text (text : List Char) (maxBytes : Nat) :
    ∃ parts, (StoredValue.text text).preview maxBytes = some parts ∧ parts.value <+: text ∧
      parts.loadedBytes = Text.utf8Length parts.value ∧ parts.loadedBytes ≤ maxBytes := by
  have hboundary := boundary_floorBoundary text (min (Utf8.cells text).length maxBytes)
  have hle := floorBoundary_le (Utf8.cells text) (min (Utf8.cells text).length maxBytes)
  obtain ⟨first, rest, hsplit, htake, hdrop⟩ := Utf8.exists_of_boundary hboundary
  have hslice : Utf8.slice
      ((Utf8.cells text).take
        (floorBoundary (Utf8.cells text) (min (Utf8.cells text).length maxBytes)))
      ((Utf8.cells text).drop
        (floorBoundary (Utf8.cells text) (min (Utf8.cells text).length maxBytes))) =
      some first := by
    rw [htake, hdrop, Utf8.slice_cells]
  have hlength := congrArg List.length htake
  rw [List.length_take, Utf8.length_cells first] at hlength
  unfold StoredValue.preview
  simp only [hslice]
  refine ⟨_, rfl, ?_, ?_, ?_⟩
  · exact ⟨rest, hsplit.symm⟩
  · simp only
    omega
  · simp only
    omega

/-! ## The value that was retained -/

/-- Reading a retained value from its beginning, and its preview. -/
structure ReadsBack (config : LargeValueStoreConfig) (state : StoreState Uuid) (token : Uuid)
    (entry : StoredEntry Uuid) (requests : Nat → ReadRequest) : Prop where
  /-- A text comes by its characters. -/
  text : ∀ text, entry.value = .text text →
    ∃ reads chunks,
      readAll config entry.ownerId token false requests reads 0 state 0 = some chunks ∧
      Covers text (fun chunk => some chunk.value) requests 0 0 chunks
  /-- A binary value comes by its bytes. -/
  binary : ∀ bytes, entry.value = .binary bytes →
    ∃ reads chunks,
      readAll config entry.ownerId token false requests reads 0 state 0 = some chunks ∧
      Covers bytes (fun chunk => Base64.decode chunk.value) requests 0 0 chunks
  /-- So does either when it is read encoded. -/
  encoded : ∃ reads chunks,
    readAll config entry.ownerId token true requests reads 0 state 0 = some chunks ∧
    Covers entry.value.bytes (fun chunk => Base64.decode chunk.value) requests 0 0 chunks
  preview : ∀ text, entry.value = .text text →
    ∃ parts, entry.value.preview config.previewBytes = some parts ∧ parts.value <+: text ∧
      parts.loadedBytes = Text.utf8Length parts.value ∧ parts.loadedBytes ≤ config.previewBytes

theorem StoredValue.length_bytes (value : StoredValue) : value.bytes.length = value.sizeBytes := by
  cases value with
  | text value => simp [StoredValue.bytes, StoredValue.sizeBytes, Utf8.length_cells]
  | binary value => rfl

/-- A retained value reads back, whatever is asked for at a time. -/
theorem storeAfter_readsBack {config : LargeValueStoreConfig} {calls : List (StoreCall Uuid)}
    {store : LargeValueStore Uuid} {token : Uuid} {entry : StoredEntry Uuid}
    (hrun : storeAfter config calls = some store) (hfind : store.state.find token = some entry)
    (hchunk : 0 < config.maxChunkSize) (requests : Nat → ReadRequest)
    (hlimits : ∀ index, 1 ≤ (requests index).limit)
    (htimes : ∀ index, (requests index).now < entry.expiresAt) :
    ReadsBack config store.state token entry requests := by
  have hsound := storeAfter_sound hrun
  have hmem := (StoreState.mem_of_find hfind).1
  have howner := hsound.owners entry hmem
  obtain ⟨hbytes, hchars, hsize⟩ := hsound.sizes entry hmem
  have hfits : entry.value.bytes.length ≤ u64Max := by
    rw [StoredValue.length_bytes, ← hbytes]
    exact hsize.trans config.maxValueBytes_le
  refine ⟨?_, ?_, ?_, ?_⟩
  · intro text htext
    have hlength : entry.sizeChars = some text.length := by
      rw [hchars, htext]
      rfl
    refine ⟨text.length + 1, readAll_covers howner hchunk hlimits htimes ?_
      hsound.toAligned hfind (Nat.zero_le _) (by omega)⟩
    intro offset limit hoffset _
    obtain ⟨chunk, htaken, hpiece⟩ :=
      textChunk_isPiece text limit entry.sizeBytes hoffset
    refine ⟨chunk, chunk.value, ?_, rfl, hpiece⟩
    simpa [StoredEntry.chunk, StoredValue.chunk, htext, hlength] using htaken
  · intro bytes hvalue
    rw [hvalue] at hfits
    refine ⟨bytes.length + 1, readAll_covers howner hchunk hlimits htimes ?_
      hsound.toAligned hfind (Nat.zero_le _) (by omega)⟩
    intro offset limit hoffset _
    obtain ⟨chunk, piece, htaken, hdecode, hpiece⟩ := byteChunk_isPiece bytes limit
      entry.sizeBytes none .binary "application/octet-stream" hoffset hfits
    refine ⟨chunk, piece, ?_, hdecode, hpiece⟩
    simpa [StoredEntry.chunk, StoredValue.chunk, binaryChunk, hvalue] using htaken
  · refine ⟨entry.value.bytes.length + 1, readAll_covers howner hchunk hlimits htimes ?_
      hsound.toAligned hfind (Nat.zero_le _) (by omega)⟩
    intro offset limit hoffset _
    exact encodedChunk_isPiece entry hoffset hfits
  · intro text htext
    rw [htext]
    exact preview_text text config.previewBytes

/-- Four bytes, with a character of two of them across the end of the preview. -/
def accentedCalls : List (StoreCall Nat) := [.retain "a".toList (.text "aéb".toList) 0 [7]]

theorem accentedCalls_readsBack :
    ∃ store entry, storeAfter smallConfig accentedCalls = some store ∧
      store.state.find 7 = some entry ∧
      ReadsBack smallConfig store.state 7 entry (fun _ => ⟨1, 5⟩) := by
  refine ⟨_, _, rfl, rfl, ?_⟩
  have hrun : storeAfter smallConfig accentedCalls = some _ := rfl
  exact storeAfter_readsBack hrun rfl (by decide) _ (fun _ => le_rfl)
    (fun _ => by decide)

end Chat2DB.LargeValue
