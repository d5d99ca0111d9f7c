import Chat2DB.Postgres.Reading
import Chat2DB.Postgres.ArrayInput
import Chat2DB.Base.Text

/-! # Decoding PostgreSQL arrays

The decoder reads the shape and the elements off a binary payload and renders
them as an array literal. A literal that was rendered is the text of its shape
and elements, level by level.
-/

namespace Chat2DB.Postgres

open Chat2DB.Sql Outcome Decimal

variable {cursor rest : List UInt8} {shape : List PostgresArrayDimension} {values : List ArrayValue}
  {output : List Char}

def maxConsolePageSize : Nat := 100000

def postgresArrayMaxDimensions : Nat := 6

/-! ## The payload -/

/-- A length or count that is not negative. -/
def takeUsize (cursor : List UInt8) : Except AppError (Nat × List UInt8) := do
  let (number, cursor) ← takeI32 cursor
  rejectIf (number < 0) resultDecodeError
  return (number.toNat, cursor)

/-- The dimensions of a payload, with the number of elements that they multiply to. -/
def takeShape : Nat → Nat → List UInt8 →
    Except AppError (List PostgresArrayDimension × Nat × List UInt8)
  | 0, valueCount, cursor => return ([], valueCount, cursor)
  | dimensions + 1, valueCount, cursor => do
    let (length, cursor) ← takeUsize cursor
    let (lowerBound, cursor) ← takeI32 cursor
    rejectIf (2 ^ 64 ≤ valueCount * length) resultDecodeError
    let (shape, valueCount, cursor) ← takeShape dimensions (valueCount * length) cursor
    return ({ length, lowerBound } :: shape, valueCount, cursor)

/-- The elements of a payload, each one decoded and displayed by `decodeElement`. -/
def takeValues (decodeElement : List UInt8 → Except AppError (List Char)) :
    Nat → List UInt8 → Except AppError (List ArrayValue × List UInt8)
  | 0, cursor => return ([], cursor)
  | count + 1, cursor => do
    let (length, cursor) ← takeI32 cursor
    if length = -1 then
      let (values, cursor) ← takeValues decodeElement count cursor
      return (none :: values, cursor)
    else
      rejectIf (length < -1) resultDecodeError
      let (bytes, cursor) ← takeBytes cursor length.toNat
      let value ← decodeElement bytes
      let (values, cursor) ← takeValues decodeElement count cursor
      return (some value :: values, cursor)

/-- The shape and the elements that a payload holds. -/
def readPostgresArray (elementOid : Nat)
    (decodeElement : List UInt8 → Except AppError (List Char)) (raw : List UInt8) :
    Except AppError (List PostgresArrayDimension × List ArrayValue) := do
  let (dimensions, cursor) ← takeUsize raw
  let (_, cursor) ← takeI32 cursor
  let (oid, cursor) ← takeU32 cursor
  rejectIf (oid ≠ elementOid ∨ postgresArrayMaxDimensions < dimensions) resultDecodeError
  let (shape, product, cursor) ← takeShape dimensions 1 cursor
  let valueCount := if dimensions = 0 then 0 else product
  rejectIf (maxConsolePageSize * Wire.maxColumns < valueCount)
    { kind := .resourceExhausted
      code := "postgres_array_too_large"
      message := "The PostgreSQL array exceeds the display element limit" }
  rejectIf (cursor.length / 4 < valueCount) resultDecodeError
  let (values, cursor) ← takeValues decodeElement valueCount cursor
  rejectIf (cursor ≠ []) resultDecodeError
  return (shape, values)

/-! ## The literal -/

def pushPostgresArrayText (output value : List Char) : Except AppError (List Char) := do
  rejectIf (Wire.maxScalarBytes < Text.utf8Length output + Text.utf8Length value)
    (postgresScalarTooLarge (Text.utf8Length output + Text.utf8Length value))
  return output ++ value

def isAsciiWhitespace (c : Char) : Bool :=
  c = ' ' ∨ c = '\t' ∨ c = '\n' ∨ c = '\x0c' ∨ c = '\r'

/-- Whether an element is rendered in quotes. -/
def needsQuote (value : List Char) : Bool :=
  value = [] ∨ isNullText value = true ∨
    value.any (fun c => c = ',' ∨ c = '{' ∨ c = '}' ∨ c = '"' ∨ c = '\\' ∨
      isAsciiWhitespace c = true) = true

def pushPostgresArrayElement (output value : List Char) : Except AppError (List Char) := do
  if needsQuote value = false then pushPostgresArrayText output value
  else
    let output ← pushPostgresArrayText output ['"']
    let output ← value.foldlM (fun output character => do
      let output ← (if character = '"' ∨ character = '\\' then pushPostgresArrayText output ['\\']
        else pure output)
      pushPostgresArrayText output [character]) output
    pushPostgresArrayText output ['"']

/-- The text so far, and the number of elements that it has taken. -/
abbrev ArrayRendering := List Char × Nat

def renderPostgresArrayDimension (values : List ArrayValue) :
    List PostgresArrayDimension → ArrayRendering → Except AppError ArrayRendering
  | [], _ => .error resultDecodeError
  | dimension :: shape, (output, valueIndex) => do
    let output ← pushPostgresArrayText output ['{']
    let (output, valueIndex) ← (List.range dimension.length).foldlM
      (fun (rendering : ArrayRendering) index => do
        let output ← (if 0 < index then pushPostgresArrayText rendering.1 [',']
          else pure rendering.1)
        if shape = [] then
          match ← orThrow values[rendering.2]? resultDecodeError with
          | none => return (← pushPostgresArrayText output "NULL".toList, rendering.2 + 1)
          | some value => return (← pushPostgresArrayElement output value, rendering.2 + 1)
        else renderPostgresArrayDimension values shape (output, rendering.2))
      (output, valueIndex)
    return (← pushPostgresArrayText output ['}'], valueIndex)

/-- The last index of a dimension, when it fits the type of a bound. -/
def upperBound (dimension : PostgresArrayDimension) : Except AppError Int := do
  if dimension.length = 0 then return max (dimension.lowerBound - 1) (-2147483648)
  else
    rejectIf (2147483647 < dimension.length - 1) resultDecodeError
    rejectIf (2147483647 < dimension.lowerBound + (dimension.length - 1 : Nat)) resultDecodeError
    return dimension.lowerBound + (dimension.length - 1 : Nat)

def renderPostgresArray (shape : List PostgresArrayDimension) (values : List ArrayValue) :
    Except AppError (List Char) := do
  if shape = [] then
    rejectIf (values ≠ []) resultDecodeError
    return ['{', '}']
  else
    let output ← (if ∃ dimension ∈ shape, dimension.lowerBound ≠ 1 then do
        let output ← shape.foldlM (fun output dimension => do
          let upper ← upperBound dimension
          pushPostgresArrayText output
            ('[' :: (intText dimension.lowerBound ++ ':' :: (intText upper ++ [']'])))) []
        pushPostgresArrayText output ['=']
      else pure [])
    let (output, valueIndex) ← renderPostgresArrayDimension values shape (output, 0)
    rejectIf (valueIndex ≠ values.length) resultDecodeError
    return output

def decodePostgresArray (elementOid : Nat)
    (decodeElement : List UInt8 → Except AppError (List Char)) (raw : List UInt8) :
    Except AppError (List Char) := do
  let (shape, values) ← readPostgresArray elementOid decodeElement raw
  renderPostgresArray shape values

/-! ## The layout of a payload -/

/-- Four bytes that hold a number in network order. -/
def Field32 (bytes : List UInt8) (number : Int) : Prop :=
  bytes.length = 4 ∧ signed 4 (bigEndian bytes) = number

def DimensionBytes (bytes : List UInt8) (dimension : PostgresArrayDimension) : Prop :=
  ∃ length lowerBound, bytes = length ++ lowerBound ∧ Field32 length dimension.length ∧
    Field32 lowerBound dimension.lowerBound

/-- A length of minus one for null, or the length of a text's bytes and these. -/
def ValueBytes (decodeElement : List UInt8 → Except AppError (List Char)) (bytes : List UInt8) :
    ArrayValue → Prop
  | none => Field32 bytes (-1)
  | some text => ∃ length content, bytes = length ++ content ∧
      Field32 length content.length ∧ decodeElement content = .ok text

/-- A payload holds the number of dimensions, flags, the type of the elements,
the dimensions, and the elements in order. -/
def ArrayPayload (decodeElement : List UInt8 → Except AppError (List Char)) (raw : List UInt8)
    (shape : List PostgresArrayDimension) (values : List ArrayValue) : Prop :=
  ∃ count flags elementType dimensions elements,
    raw = count ++ flags ++ elementType ++ dimensions.flatten ++ elements.flatten ∧
    Field32 count shape.length ∧ flags.length = 4 ∧ elementType.length = 4 ∧
    List.Forall₂ DimensionBytes dimensions shape ∧
    List.Forall₂ (ValueBytes decodeElement) elements values

theorem takeBytes_ok {raw head tail : List UInt8} {length : Nat}
    (h : takeBytes raw length = .ok (head, tail)) : raw = head ++ tail ∧ head.length = length := by
  rw [takeBytes] at h
  split_ifs at h with hlength
  · obtain ⟨rfl, rfl⟩ := Prod.mk.inj (Except.ok.inj h)
    exact ⟨(List.take_append_drop length raw).symm, List.length_take_of_le hlength⟩

theorem takeI32_ok {number : Int} (h : takeI32 cursor = .ok (number, rest)) :
    ∃ bytes, cursor = bytes ++ rest ∧ Field32 bytes number := by
  obtain ⟨⟨head, tail⟩, htake, h⟩ := (bind_eq_ok _ _ _).1 h
  obtain ⟨value, hread, h⟩ := (bind_eq_ok _ _ _).1 h
  obtain ⟨rfl, rfl⟩ := Prod.mk.inj ((pure_eq_ok _ _).1 h)
  obtain ⟨unsigned, hunsigned, hsigned⟩ := (bind_eq_ok _ _ _).1 hread
  obtain ⟨hlength, rfl⟩ := readUnsigned_eq_ok.1 hunsigned
  exact ⟨head, (takeBytes_ok htake).1, hlength, (pure_eq_ok _ _).1 hsigned⟩

theorem takeUsize_ok {number : Nat} (h : takeUsize cursor = .ok (number, rest)) :
    ∃ bytes, cursor = bytes ++ rest ∧ Field32 bytes number := by
  obtain ⟨⟨signed, tail⟩, htake, h⟩ := (bind_eq_ok _ _ _).1 h
  obtain ⟨_, hnegative, h⟩ := (bind_eq_ok _ _ _).1 h
  obtain ⟨rfl, rfl⟩ := Prod.mk.inj ((pure_eq_ok _ _).1 h)
  obtain ⟨bytes, hcursor, hfield⟩ := takeI32_ok htake
  have hnatural := (rejectIf_eq_ok _ _ _).1 hnegative
  rw [← Int.toNat_of_nonneg (by omega : 0 ≤ signed)] at hfield
  exact ⟨bytes, hcursor, hfield⟩

theorem takeShape_ok {dimensions valueCount product : Nat}
    (h : takeShape dimensions valueCount cursor = .ok (shape, product, rest)) :
    shape.length = dimensions ∧
      ∃ bytes, cursor = bytes.flatten ++ rest ∧ List.Forall₂ DimensionBytes bytes shape := by
  induction dimensions generalizing valueCount cursor shape with
  | zero =>
    obtain ⟨rfl, hrest⟩ := Prod.mk.inj ((pure_eq_ok _ _).1 h)
    obtain ⟨-, rfl⟩ := Prod.mk.inj hrest
    exact ⟨rfl, [], rfl, List.Forall₂.nil⟩
  | succ dimensions ih =>
    obtain ⟨⟨length, afterLength⟩, hlength, h⟩ := (bind_eq_ok _ _ _).1 h
    obtain ⟨⟨lowerBound, afterBound⟩, hbound, h⟩ := (bind_eq_ok _ _ _).1 h
    obtain ⟨_, _, h⟩ := (bind_eq_ok _ _ _).1 h
    obtain ⟨⟨others, total, last⟩, hothers, h⟩ := (bind_eq_ok _ _ _).1 h
    obtain ⟨rfl, hrest⟩ := Prod.mk.inj ((pure_eq_ok _ _).1 h)
    obtain ⟨rfl, rfl⟩ := Prod.mk.inj hrest
    obtain ⟨lengthBytes, rfl, hlengthField⟩ := takeUsize_ok hlength
    obtain ⟨boundBytes, rfl, hboundField⟩ := takeI32_ok hbound
    obtain ⟨hcount, bytes, rfl, hbytes⟩ := ih hothers
    refine ⟨by rw [List.length_cons, hcount], (lengthBytes ++ boundBytes) :: bytes, by simp, ?_⟩
    exact List.Forall₂.cons ⟨_, _, rfl, hlengthField, hboundField⟩ hbytes

theorem takeValues_ok {decodeElement : List UInt8 → Except AppError (List Char)} {count : Nat}
    (h : takeValues decodeElement count cursor = .ok (values, rest)) :
    ∃ bytes, cursor = bytes.flatten ++ rest ∧
      List.Forall₂ (ValueBytes decodeElement) bytes values := by
  induction count generalizing cursor values with
  | zero =>
    obtain ⟨rfl, rfl⟩ := Prod.mk.inj ((pure_eq_ok _ _).1 h)
    exact ⟨[], rfl, List.Forall₂.nil⟩
  | succ count ih =>
    obtain ⟨⟨length, afterLength⟩, hlength, hnext⟩ := (bind_eq_ok _ _ _).1 h
    obtain ⟨lengthBytes, rfl, hfield⟩ := takeI32_ok hlength
    dsimp only at hnext
    split_ifs at hnext with hnull
    · obtain ⟨⟨others, last⟩, hothers, hpure⟩ := (bind_eq_ok _ _ _).1 hnext
      obtain ⟨rfl, rfl⟩ := Prod.mk.inj ((pure_eq_ok _ _).1 hpure)
      obtain ⟨bytes, rfl, hbytes⟩ := ih hothers
      rw [hnull] at hfield
      refine ⟨lengthBytes :: bytes, by simp, ?_⟩
      exact List.Forall₂.cons hfield hbytes
    · obtain ⟨_, hshort, h⟩ := (bind_eq_ok _ _ _).1 hnext
      obtain ⟨⟨content, afterContent⟩, hcontent, h⟩ := (bind_eq_ok _ _ _).1 h
      obtain ⟨text, htext, h⟩ := (bind_eq_ok _ _ _).1 h
      obtain ⟨⟨others, last⟩, hothers, h⟩ := (bind_eq_ok _ _ _).1 h
      obtain ⟨rfl, rfl⟩ := Prod.mk.inj ((pure_eq_ok _ _).1 h)
      obtain ⟨rfl, hcontentLength⟩ := takeBytes_ok hcontent
      obtain ⟨bytes, rfl, hbytes⟩ := ih hothers
      have hnatural := (rejectIf_eq_ok _ _ _).1 hshort
      have hlengthIs : (content.length : Int) = length := by omega
      rw [← hlengthIs] at hfield
      refine ⟨(lengthBytes ++ content) :: bytes, by simp, ?_⟩
      exact List.Forall₂.cons ⟨_, _, rfl, hfield, htext⟩ hbytes

/-- What is read off a payload is what its layout says. -/
theorem readPostgresArray_ok {elementOid : Nat}
    {decodeElement : List UInt8 → Except AppError (List Char)} {raw : List UInt8}
    (h : readPostgresArray elementOid decodeElement raw = .ok (shape, values)) :
    ArrayPayload decodeElement raw shape values := by
  obtain ⟨⟨dimensions, afterCount⟩, hcount, h⟩ := (bind_eq_ok _ _ _).1 h
  obtain ⟨⟨flags, afterFlags⟩, hflags, h⟩ := (bind_eq_ok _ _ _).1 h
  obtain ⟨⟨oid, afterOid⟩, hoid, h⟩ := (bind_eq_ok _ _ _).1 h
  obtain ⟨_, _, h⟩ := (bind_eq_ok _ _ _).1 h
  obtain ⟨⟨found, product, afterShape⟩, hshape, h⟩ := (bind_eq_ok _ _ _).1 h
  obtain ⟨_, _, h⟩ := (bind_eq_ok _ _ _).1 h
  obtain ⟨_, _, h⟩ := (bind_eq_ok _ _ _).1 h
  obtain ⟨⟨read, last⟩, hvalues, h⟩ := (bind_eq_ok _ _ _).1 h
  obtain ⟨_, hlast, h⟩ := (bind_eq_ok _ _ _).1 h
  obtain ⟨rfl, rfl⟩ := Prod.mk.inj ((pure_eq_ok _ _).1 h)
  obtain rfl : last = [] := by simpa using (rejectIf_eq_ok _ _ _).1 hlast
  obtain ⟨countBytes, rfl, hcountField⟩ := takeUsize_ok hcount
  obtain ⟨flagBytes, rfl, hflagField⟩ := takeI32_ok hflags
  obtain ⟨⟨oidBytes, afterOid⟩, htakeOid, hoid⟩ := (bind_eq_ok _ _ _).1 hoid
  obtain ⟨_, _, hoid⟩ := (bind_eq_ok _ _ _).1 hoid
  obtain ⟨-, rfl⟩ := Prod.mk.inj ((pure_eq_ok _ _).1 hoid)
  obtain ⟨rfl, hoidLength⟩ := takeBytes_ok htakeOid
  obtain ⟨rfl, shapeBytes, rfl, hshapeBytes⟩ := takeShape_ok hshape
  obtain ⟨valueBytes, rfl, hvalueBytes⟩ := takeValues_ok hvalues
  exact ⟨countBytes, flagBytes, oidBytes, shapeBytes, valueBytes, by simp, hcountField,
    hflagField.1, hoidLength, hshapeBytes, hvalueBytes⟩

/-! ## The rendered text -/

def escapeCharacter (c : Char) : List Char :=
  if c = '"' ∨ c = '\\' then ['\\', c] else [c]

def elementText (value : List Char) : List Char :=
  if needsQuote value = false then value
  else '"' :: (value.flatMap escapeCharacter ++ ['"'])

def valueText : ArrayValue → List Char
  | none => ['N', 'U', 'L', 'L']
  | some value => elementText value

/-- The elements of the array at `index` of a level whose arrays hold `size` each. -/
def chunk {α : Type} (values : List α) (size index : Nat) : List α :=
  (values.drop (index * size)).take size

/-- What stands at every index of a level, with `delimiter` in front of all but the first. -/
def delimited {α : Type} (delimiter : α) (length : Nat) (item : Nat → List α) : List α :=
  (List.range length).flatMap fun index => (if 0 < index then [delimiter] else []) ++ item index

def blockText : List Nat → List ArrayValue → List Char
  | [], values => values.flatMap valueText
  | length :: lengths, values =>
    '{' :: (delimited ',' length (fun index =>
      blockText lengths (chunk values lengths.prod index)) ++ ['}'])

theorem delimited_succ {α : Type} (delimiter : α) (length : Nat) (item : Nat → List α) :
    delimited delimiter (length + 1) item = delimited delimiter length item ++
      ((if 0 < length then [delimiter] else []) ++ item length) := by
  rw [delimited, List.range_succ, List.flatMap_append, List.flatMap_singleton]
  rfl

theorem pushPostgresArrayText_ok {value result : List Char}
    (h : pushPostgresArrayText output value = .ok result) : result = output ++ value := by
  obtain ⟨_, _, hpure⟩ := (bind_eq_ok _ _ _).1 h
  exact ((pure_eq_ok _ _).1 hpure).symm

theorem pushCharacters_ok {output value result : List Char}
    (h : value.foldlM (fun output character => do
      let output ← (if character = '"' ∨ character = '\\' then pushPostgresArrayText output ['\\']
        else pure output)
      pushPostgresArrayText output [character]) output = .ok result) :
    result = output ++ value.flatMap escapeCharacter := by
  induction value generalizing output with
  | nil => simpa using ((pure_eq_ok _ _).1 h).symm
  | cons c value ih =>
    rw [List.foldlM_cons] at h
    obtain ⟨next, hnext, h⟩ := (bind_eq_ok _ _ _).1 h
    obtain ⟨escaped, hescaped, hpush⟩ := (bind_eq_ok _ _ _).1 hnext
    have hone : next = output ++ escapeCharacter c := by
      rw [pushPostgresArrayText_ok hpush, escapeCharacter]
      split_ifs at hescaped ⊢ with hspecial
      · rw [pushPostgresArrayText_ok hescaped]
        simp
      · rw [(pure_eq_ok _ _).1 hescaped]
    rw [ih h, hone, List.flatMap_cons, List.append_assoc]

theorem pushPostgresArrayElement_ok {value result : List Char}
    (h : pushPostgresArrayElement output value = .ok result) :
    result = output ++ elementText value := by
  rw [pushPostgresArrayElement] at h
  rw [elementText]
  split_ifs at h ⊢ with hquote
  · exact pushPostgresArrayText_ok h
  · obtain ⟨opened, hopened, h⟩ := (bind_eq_ok _ _ _).1 h
    obtain ⟨written, hwritten, h⟩ := (bind_eq_ok _ _ _).1 h
    rw [pushPostgresArrayText_ok h, pushCharacters_ok hwritten, pushPostgresArrayText_ok hopened]
    simp

theorem foldlM_range_invariant {ε α : Type} (holds : Nat → α → Prop)
    {step : α → Nat → Except ε α}
    (hstep : ∀ index state next, holds index state → step state index = .ok next →
      holds (index + 1) next)
    (length : Nat) {state result : α} (hstart : holds 0 state)
    (h : (List.range length).foldlM step state = .ok result) : holds length result := by
  induction length generalizing result with
  | zero => rwa [← (pure_eq_ok _ _).1 h]
  | succ length ih =>
    rw [List.range_succ, List.foldlM_append] at h
    obtain ⟨before, hbefore, hlast⟩ := (bind_eq_ok _ _ _).1 h
    rw [List.foldlM_cons] at hlast
    obtain ⟨after, hafter, hend⟩ := (bind_eq_ok _ _ _).1 hlast
    rw [← (pure_eq_ok _ _).1 hend]
    exact hstep _ _ _ (ih hbefore) hafter

theorem chunk_drop_take {α : Type} (values : List α) (start size : Nat) {index length : Nat}
    (h : index < length) :
    chunk ((values.drop start).take (length * size)) size index =
      (values.drop (start + index * size)).take size := by
  have hinside : index * size + size ≤ length * size := by
    calc index * size + size = (index + 1) * size := by ring
      _ ≤ length * size := Nat.mul_le_mul_right _ h
  rw [chunk, List.drop_take, List.take_take, List.drop_drop,
    Nat.min_eq_left (by omega)]

/-- A level that was rendered is the text of the elements that it took. -/
theorem renderPostgresArrayDimension_ok {valueIndex : Nat} {result : ArrayRendering}
    (h : renderPostgresArrayDimension values shape (output, valueIndex) = .ok result) :
    result = (output ++ blockText (shape.map (·.length))
      ((values.drop valueIndex).take (shape.map (·.length)).prod),
      valueIndex + (shape.map (·.length)).prod) := by
  induction shape generalizing output valueIndex result with
  | nil => cases h
  | cons dimension shape ih =>
    rw [renderPostgresArrayDimension] at h
    obtain ⟨opened, hopened, h⟩ := (bind_eq_ok _ _ _).1 h
    obtain ⟨⟨written, taken⟩, hloop, h⟩ := (bind_eq_ok _ _ _).1 h
    obtain ⟨closed, hclosed, hpure⟩ := (bind_eq_ok _ _ _).1 h
    -- The loop has written the arrays in front of its index and taken their elements.
    have hwritten := foldlM_range_invariant (fun index (rendering : ArrayRendering) =>
      rendering = (opened ++ delimited ',' index (fun index =>
        blockText (shape.map (·.length))
          ((values.drop (valueIndex + index * (shape.map (·.length)).prod)).take
            (shape.map (·.length)).prod)),
        valueIndex + index * (shape.map (·.length)).prod)) ?_ dimension.length
      (by simp [delimited]) hloop
    · obtain ⟨hwritten, htaken⟩ := Prod.mk.inj hwritten
      have hchunks : delimited ',' dimension.length (fun index =>
            blockText (shape.map (·.length))
              ((values.drop (valueIndex + index * (shape.map (·.length)).prod)).take
                (shape.map (·.length)).prod)) =
          delimited ',' dimension.length (fun index =>
            blockText (shape.map (·.length))
              (chunk ((values.drop valueIndex).take
                (dimension.length * (shape.map (·.length)).prod))
                (shape.map (·.length)).prod index)) := by
        rw [delimited, delimited]
        apply List.flatMap_congr
        intro index hindex
        rw [chunk_drop_take _ _ _ (List.mem_range.1 hindex)]
      rw [← (pure_eq_ok _ _).1 hpure, pushPostgresArrayText_ok hclosed, hwritten, htaken,
        pushPostgresArrayText_ok hopened, List.map_cons, List.prod_cons, blockText, hchunks]
      simp
    · intro index rendering next hrendering hnext
      obtain ⟨separated, hseparated, hnext⟩ := (bind_eq_ok _ _ _).1 hnext
      have hcomma : separated =
          rendering.1 ++ if 0 < index then [','] else [] := by
        split_ifs at hseparated ⊢
        · exact pushPostgresArrayText_ok hseparated
        · simpa using ((pure_eq_ok _ _).1 hseparated).symm
      have htaken : rendering.2 = valueIndex + index * (shape.map (·.length)).prod := by
        rw [hrendering]
      have hnextIndex : valueIndex + (index + 1) * (shape.map (·.length)).prod =
          rendering.2 + (shape.map (·.length)).prod := by
        rw [htaken]
        ring
      have hitem : next = (separated ++ blockText (shape.map (·.length))
          ((values.drop rendering.2).take (shape.map (·.length)).prod),
          rendering.2 + (shape.map (·.length)).prod) := by
        split_ifs at hnext with hleaf
        · obtain ⟨value, hvalue, hnext⟩ := (bind_eq_ok _ _ _).1 hnext
          have hfirst : (values.drop rendering.2).take 1 = [value] := by
            have hget := (orThrow_eq_ok _ _ _).1 hvalue
            rw [List.getElem?_eq_some_iff] at hget
            obtain ⟨hless, hget⟩ := hget
            rw [List.drop_eq_getElem_cons hless, hget]
            rfl
          rw [hleaf, List.map_nil, List.prod_nil, hfirst, blockText, List.flatMap_singleton]
          cases value with
          | none =>
            obtain ⟨pushed, hpushed, hend⟩ := (bind_eq_ok _ _ _).1 hnext
            rw [← (pure_eq_ok _ _).1 hend, pushPostgresArrayText_ok hpushed]
            rfl
          | some value =>
            obtain ⟨pushed, hpushed, hend⟩ := (bind_eq_ok _ _ _).1 hnext
            rw [← (pure_eq_ok _ _).1 hend, pushPostgresArrayElement_ok hpushed]
            rfl
        · exact ih hnext
      rw [hitem, hcomma, hnextIndex, delimited_succ, htaken, hrendering]
      simp

/-- The bounds of a dimension that is not empty. -/
def boundText (dimension : PostgresArrayDimension) : List Char :=
  '[' :: (intText dimension.lowerBound ++
    ':' :: (intText (dimension.lowerBound + (dimension.length - 1 : Nat)) ++ [']']))

/-- The bounds in front of a literal, when one of them is not the usual one. -/
def boundsText (shape : List PostgresArrayDimension) : List Char :=
  if ∃ dimension ∈ shape, dimension.lowerBound ≠ 1 then shape.flatMap boundText ++ ['='] else []

theorem upperBound_ok {dimension : PostgresArrayDimension} (hlength : 1 ≤ dimension.length)
    {upper : Int} (h : upperBound dimension = .ok upper) :
    upper = dimension.lowerBound + (dimension.length - 1 : Nat) := by
  rw [upperBound, if_neg (by omega)] at h
  obtain ⟨_, _, h⟩ := (bind_eq_ok _ _ _).1 h
  obtain ⟨_, _, h⟩ := (bind_eq_ok _ _ _).1 h
  exact ((pure_eq_ok _ _).1 h).symm

theorem pushBounds_ok {shape : List PostgresArrayDimension}
    (hlengths : ∀ dimension ∈ shape, 1 ≤ dimension.length) {output result : List Char}
    (h : shape.foldlM (fun output dimension => do
      let upper ← upperBound dimension
      pushPostgresArrayText output
        ('[' :: (intText dimension.lowerBound ++ ':' :: (intText upper ++ [']'])))) output =
      .ok result) : result = output ++ shape.flatMap boundText := by
  induction shape generalizing output with
  | nil => simpa using ((pure_eq_ok _ _).1 h).symm
  | cons dimension shape ih =>
    rw [List.foldlM_cons] at h
    obtain ⟨next, hnext, h⟩ := (bind_eq_ok _ _ _).1 h
    obtain ⟨upper, hupper, hpush⟩ := (bind_eq_ok _ _ _).1 hnext
    have hrest := ih (fun other hother => hlengths other (List.mem_cons_of_mem _ hother)) h
    rw [hrest, pushPostgresArrayText_ok hpush,
      upperBound_ok (hlengths dimension List.mem_cons_self) hupper, List.flatMap_cons,
      List.append_assoc]
    rfl

theorem renderPostgresArray_ok
    (hne : shape ≠ []) (hlengths : ∀ dimension ∈ shape, 1 ≤ dimension.length) {text : List Char}
    (h : renderPostgresArray shape values = .ok text) :
    values.length = (shape.map (·.length)).prod ∧
      text = boundsText shape ++ blockText (shape.map (·.length)) values := by
  rw [renderPostgresArray, if_neg hne] at h
  obtain ⟨output, houtput, h⟩ := (bind_eq_ok _ _ _).1 h
  obtain ⟨⟨written, taken⟩, hwritten, h⟩ := (bind_eq_ok _ _ _).1 h
  obtain ⟨_, hcount, hpure⟩ := (bind_eq_ok _ _ _).1 h
  have hbounds : output = boundsText shape := by
    rw [boundsText]
    split_ifs at houtput ⊢ with hunusual
    · obtain ⟨pushed, hpushed, hequals⟩ := (bind_eq_ok _ _ _).1 houtput
      rw [pushPostgresArrayText_ok hequals, pushBounds_ok hlengths hpushed, List.nil_append]
    · exact ((pure_eq_ok _ _).1 houtput).symm
  obtain ⟨hblock, htaken⟩ := Prod.mk.inj (renderPostgresArrayDimension_ok hwritten)
  have hall : taken = values.length := by
    simpa using (rejectIf_eq_ok _ _ _).1 hcount
  rw [Nat.zero_add, hall] at htaken
  refine ⟨htaken, ?_⟩
  rw [← (pure_eq_ok _ _).1 hpure, hblock, hbounds, List.drop_zero, ← htaken, List.take_length]

end Chat2DB.Postgres
