import Chat2DB.SqlServer.Agreement
import Chat2DB.SqlServer.Decimals
import Chat2DB.Wire.Messages

/-! # Positional parameters of SQL Server

A query with question marks is sent with the markers `@P1`, `@P2` and so on, and the
values are bound in the order of their positions. Below the source stands what the
rewriting has to do with a text, as a reader of the text marks it.
-/

namespace Chat2DB.SqlServer

open Marking Outcome
open Sql (AppError)

variable {c : Char} {mark : Mark} {output chars : List Char}

def maxParameters : Nat := 32768

inductive DatabaseValue where
  | null
  | boolean (value : Bool)
  | signedInteger (value : Int64)
  | unsignedInteger (value : UInt64)
  | float32 (bits : UInt32)
  | float64 (bits : UInt64)
  | decimal (value : List Char)
  | text (value : List Char)
  | binary (value : List UInt8)
  | date (value : List Char)
  | time (value : List Char)
  | timestamp (value : List Char)
  | timestampWithTimeZone (value : List Char)
  | json (value : List Char)
  | uuid (value : List Char)
deriving DecidableEq

structure QueryParameter where
  position : Nat
  value : DatabaseValue
deriving DecidableEq

/-- The calendar and UUID texts that the libraries read. -/
structure Readers (Date Time DateTime Zoned Uuid : Type) where
  date : List Char → Option Date
  time : List Char → Option Time
  dateTime : List Char → List Char → Option DateTime
  rfc3339 : List Char → Option Zoned
  uuid : List Char → Option Uuid

/-- What the driver is given for one marker. -/
inductive Bound (Date Time DateTime Zoned Uuid : Type) where
  | string (value : Option (List Char))
  | bit (value : Bool)
  | bigint (value : Int64)
  | real (bits : UInt32)
  | float (bits : UInt64)
  | numeric (value : Numeric)
  | binary (value : List UInt8)
  | date (value : Date)
  | time (value : Time)
  | dateTime (value : DateTime)
  | dateTimeOffset (value : Zoned)
  | guid (value : Uuid)

structure Query (Date Time DateTime Zoned Uuid : Type) where
  sql : List Char
  params : List (Bound Date Time DateTime Zoned Uuid)

variable {Date Time DateTime Zoned Uuid : Type}

/-! ## The values -/

def invalidTemporalParameter (label : String) : AppError :=
  .invalid "invalid_query_parameter" s!"The SQL Server {label} parameter is invalid"

def unsignedTooLarge : AppError :=
  .invalid "invalid_query_parameter"
    "SQL Server does not support unsigned integers larger than BIGINT"

def invalidUuid : AppError :=
  .invalid "invalid_query_parameter" "The SQL Server UUID parameter is invalid"

def parseTimestamp (readers : Readers Date Time DateTime Zoned Uuid) (value : List Char) :
    Except AppError DateTime :=
  orThrow (["%Y-%m-%dT%H:%M:%S%.f", "%Y-%m-%d %H:%M:%S%.f"].findSome? fun format =>
      readers.dateTime format.toList value)
    (invalidTemporalParameter "timestamp")

/-- The size of a value that is sent as text or bytes. -/
def DatabaseValue.length : DatabaseValue → Nat
  | .decimal value | .text value | .date value | .time value | .timestamp value
  | .timestampWithTimeZone value | .json value | .uuid value => Text.utf8Length value
  | .binary value => value.length
  | _ => 0

/-- What a value is bound as. -/
def bindValue (readers : Readers Date Time DateTime Zoned Uuid) :
    DatabaseValue → Except AppError (Bound Date Time DateTime Zoned Uuid)
  | .null => .ok (.string none)
  | .boolean value => .ok (.bit value)
  | .signedInteger value => .ok (.bigint value)
  | .unsignedInteger value =>
    if value.toNat < 2 ^ 63 then .ok (.bigint (Int64.ofNat value.toNat))
    else .error unsignedTooLarge
  | .float32 bits => .ok (.real bits)
  | .float64 bits => .ok (.float bits)
  | .decimal value => (parseDecimal value).map .numeric
  | .text value | .json value => .ok (.string (some value))
  | .binary value => .ok (.binary value)
  | .date value => (orThrow (readers.date value) (invalidTemporalParameter "date")).map .date
  | .time value => (orThrow (readers.time value) (invalidTemporalParameter "time")).map .time
  | .timestamp value => (parseTimestamp readers value).map .dateTime
  | .timestampWithTimeZone value =>
    (orThrow (readers.rfc3339 value)
      (invalidTemporalParameter "timestamp with time zone")).map .dateTimeOffset
  | .uuid value => (orThrow (readers.uuid value) invalidUuid).map .guid

def validateParameter (readers : Readers Date Time DateTime Zoned Uuid) (value : DatabaseValue) :
    Except AppError Unit :=
  if Wire.maxScalarBytes < value.length then
    .error (.invalid "invalid_query_parameter"
      s!"A SQL Server parameter exceeds {Wire.maxScalarBytes} bytes")
  else
    match value with
    | .unsignedInteger value =>
      if 2 ^ 63 ≤ value.toNat then .error unsignedTooLarge else .ok ()
    | .decimal value => (parseDecimal value).map fun _ => ()
    | .date value =>
      (orThrow (readers.date value) (invalidTemporalParameter "date")).map fun _ => ()
    | .time value =>
      (orThrow (readers.time value) (invalidTemporalParameter "time")).map fun _ => ()
    | .timestamp value => (parseTimestamp readers value).map fun _ => ()
    | .timestampWithTimeZone value =>
      (orThrow (readers.rfc3339 value)
        (invalidTemporalParameter "timestamp with time zone")).map fun _ => ()
    | .uuid value => (orThrow (readers.uuid value) invalidUuid).map fun _ => ()
    | _ => .ok ()

/-! ## The order -/

/-- The parameters from the one at `index` on stand where their positions say. -/
def checkPositions (readers : Readers Date Time DateTime Zoned Uuid) (index : Nat) :
    List QueryParameter → Except AppError Unit
  | [] => .ok ()
  | parameter :: rest =>
    if 2 ^ 32 ≤ index + 1 then .error .internal
    else if parameter.position ≠ index + 1 then
      .error (.invalid "invalid_query_parameter"
        "SQL Server parameter positions must be unique and contiguous from 1")
    else do
      validateParameter readers parameter.value
      checkPositions readers (index + 1) rest

/-- The order of equal positions does not matter: they are refused. -/
def orderedParameters (readers : Readers Date Time DateTime Zoned Uuid)
    (parameters : List QueryParameter) : Except AppError (List DatabaseValue) :=
  if maxParameters < parameters.length then
    .error (.invalid "invalid_query_parameter_count"
      s!"SQL Server queries accept at most {maxParameters} parameters")
  else do
    let ordered := parameters.mergeSort fun first second => first.position ≤ second.position
    checkPositions readers 0 ordered
    return ordered.map QueryParameter.value

/-! ## The text -/

/-- What follows the opening of a quoted item, to its end or to that of the text. -/
def copyQuoted (closing : Char) (output : List Char) : List Char → List Char × List Char
  | [] => (output, [])
  | ch :: chars =>
    if ch = closing then
      match chars with
      | next :: rest =>
        if next = closing then copyQuoted closing (output ++ [ch, closing]) rest
        else (output ++ [ch], next :: rest)
      | [] => (output ++ [ch], [])
    else copyQuoted closing (output ++ [ch]) chars

/-- What follows the opening of a block comment, to its end or to that of the text. -/
def copyComment (previous : Char) (output : List Char) : List Char → List Char × List Char
  | [] => (output, [])
  | next :: chars =>
    if previous = '*' ∧ next = '/' then (output ++ [next], chars)
    else copyComment next (output ++ [next]) chars

theorem copyQuoted_length (closing : Char) (output chars : List Char) :
    (copyQuoted closing output chars).2.length ≤ chars.length := by
  fun_induction copyQuoted closing output chars with
  | case1 => simp
  | case2 output rest ih =>
    simp only [List.length_cons]
    omega
  | case3 | case4 => simp
  | case5 output ch chars hch ih =>
    simp only [List.length_cons]
    omega

theorem copyComment_length (previous : Char) (output chars : List Char) :
    (copyComment previous output chars).2.length ≤ chars.length := by
  fun_induction copyComment previous output chars with
  | case1 | case2 => simp
  | case3 previous output next chars hnext ih =>
    simp only [List.length_cons]
    omega

def marker (number : Nat) : List Char :=
  '@' :: 'P' :: Nat.toDigits 10 number

def closingOf (opening : Char) : Char :=
  if opening = '[' then ']' else opening

def rewriteLoop (output : List Char) (replaced : Nat) : List Char → List Char × Nat
  | [] => (output, replaced)
  | ch :: chars =>
    if ch = '\'' ∨ ch = '"' ∨ ch = '[' then
      have := copyQuoted_length (closingOf ch) (output ++ [ch]) chars
      rewriteLoop (copyQuoted (closingOf ch) (output ++ [ch]) chars).1 replaced
        (copyQuoted (closingOf ch) (output ++ [ch]) chars).2
    else if ch = '-' ∧ chars.head? = some '-' then
      have := copyLine_length (output ++ ['-', '-']) chars.tail
      rewriteLoop (copyLine (output ++ ['-', '-']) chars.tail).1 replaced
        (copyLine (output ++ ['-', '-']) chars.tail).2
    else if ch = '/' ∧ chars.head? = some '*' then
      have := copyComment_length (Char.ofNat 0) (output ++ ['/', '*']) chars.tail
      rewriteLoop (copyComment (Char.ofNat 0) (output ++ ['/', '*']) chars.tail).1 replaced
        (copyComment (Char.ofNat 0) (output ++ ['/', '*']) chars.tail).2
    else if ch = '?' then rewriteLoop (output ++ marker (replaced + 1)) (replaced + 1) chars
    else rewriteLoop (output ++ [ch]) replaced chars
termination_by chars => chars.length
decreasing_by
  all_goals simp only [List.length_cons, List.length_tail] at *
  all_goals omega

def rewritePositionalParameters (sql : List Char) (parameterCount : Nat) :
    Except AppError (List Char) :=
  let rewritten := rewriteLoop [] 0 sql
  if rewritten.2 ≠ 0 ∧ rewritten.2 ≠ parameterCount then
    .error (.invalid "invalid_query_parameter_count"
      s!"The SQL Server statement has {rewritten.2} positional markers but {parameterCount} parameters were supplied")
  else .ok rewritten.1

def bindQuery (readers : Readers Date Time DateTime Zoned Uuid) (sql : List Char)
    (parameters : List QueryParameter) :
    Except AppError (Query Date Time DateTime Zoned Uuid) := do
  let ordered ← orderedParameters readers parameters
  let sql ← rewritePositionalParameters sql ordered.length
  let params ← ordered.mapM (bindValue readers)
  return { sql, params }

/-! ## What the rewriting has to do -/

/-- A question mark outside of strings, identifiers and comments. -/
def isMarker (item : Char × Mark) : Bool :=
  item.1 = '?' && item.2 = .code

def markers (marked : Marked) : Nat := marked.countP isMarker

/-- The text with its markers numbered on from those before it. -/
def numbered (replaced : Nat) : Marked → List Char
  | [] => []
  | item :: rest =>
    if isMarker item then marker (replaced + 1) ++ numbered (replaced + 1) rest
    else item.1 :: numbered replaced rest

/-- What a query has to be for a text with its parameters, as T-SQL reads the text. -/
structure Binds (readers : Readers Date Time DateTime Zoned Uuid) (sql : List Char)
    (parameters : List QueryParameter) (query : Query Date Time DateTime Zoned Uuid) : Prop where
  positions : (parameters.map QueryParameter.position).Perm (List.range' 1 parameters.length)
  count : markers (tsql.marks .text sql) = 0 ∨
    markers (tsql.marks .text sql) = parameters.length
  sql : query.sql = numbered 0 (tsql.marks .text sql)
  length : query.params.length = parameters.length
  bound : ∀ parameter ∈ parameters, ∃ bound, bindValue readers parameter.value = .ok bound ∧
    query.params[parameter.position - 1]? = some bound

/-- The same question marks are markers whether block comments nest or end at the first
closing. -/
def MarkersAgree (sql : List Char) : Prop :=
  (flat.marks .text sql).map isMarker = (tsql.marks .text sql).map isMarker

instance (sql : List Char) : Decidable (MarkersAgree sql) :=
  inferInstanceAs (Decidable (_ = _))

/-! ## The loops -/

theorem marks_cons {lexer : Lexer LexState} {state : LexState} {rest : List Char} :
    lexer.marks state (c :: rest) =
      (c, (lexer.step state c rest).2) :: lexer.marks (lexer.step state c rest).1 rest := rfl

/-- A loop copied a part of the characters, which is read under one mark. -/
def Copied (mark : Mark) (state : LexState) (output chars : List Char)
    (result : List Char × List Char) : Prop :=
  ∃ copied, result.1 = output ++ copied ∧
    flat.marks state chars = markAll mark copied ++ flat.marks .text result.2

theorem Copied.cons {mark : Mark} {state next : LexState} {c : Char} {output chars : List Char}
    {result : List Char × List Char} (hstep : flat.step state c chars = (next, mark))
    (hcopied : Copied mark next (output ++ [c]) chars result) :
    Copied mark state output (c :: chars) result := by
  obtain ⟨copied, hresult, hmarks⟩ := hcopied
  refine ⟨c :: copied, by simp [hresult], ?_⟩
  rw [marks_cons, hstep, hmarks]
  rfl

theorem Copied.last {state : LexState} (hstep : flat.step state c chars = (.text, mark)) :
    Copied mark state output (c :: chars) (output ++ [c], chars) := by
  refine ⟨[c], rfl, ?_⟩
  rw [marks_cons, hstep]
  rfl

theorem Copied.nil (mark : Mark) (state : LexState) (output : List Char) :
    Copied mark state output [] (output, []) :=
  ⟨[], by simp, rfl⟩

theorem copyQuoted_copied (quote : Quote) (output chars : List Char) :
    Copied .quoted (.quoted quote) output chars (copyQuoted quote.closing output chars) := by
  generalize hclosing : quote.closing = closing
  fun_induction copyQuoted closing output chars with
  | case1 => exact .nil _ _ _
  | case2 output rest ih =>
    have hstep : flat.step (.quoted quote) closing (closing :: rest) =
        (.doubled quote, .quoted) := by
      simp [flat, lexer, quotedStep, hclosing]
    refine Copied.cons hstep (.cons rfl ?_)
    rw [List.append_assoc]
    exact ih
  | case3 output next rest hnext =>
    apply Copied.last
    simp [flat, lexer, quotedStep, hclosing, hnext]
  | case4 output =>
    apply Copied.last
    simp [flat, lexer, quotedStep, hclosing]
  | case5 output ch chars hch ih =>
    apply Copied.cons _ ih
    simp [flat, lexer, quotedStep, hclosing, hch]

theorem copyLine_copied (output chars : List Char) :
    Copied .comment .line output chars (copyLine output chars) := by
  fun_induction copyLine output chars with
  | case1 => exact .nil _ _ _
  | case2 output chars => exact .last (by simp [flat, lexer])
  | case3 output next chars hnext ih =>
    exact .cons (by simp [flat, lexer, hnext]) ih

theorem copyComment_copied (previous : Char) (output chars : List Char) :
    Copied .comment (.block 0 previous) output chars (copyComment previous output chars) := by
  fun_induction copyComment previous output chars with
  | case1 => exact .nil _ _ _
  | case2 previous output next chars hclosed =>
    exact .last (by simp [flat, lexer, blockStep, hclosed])
  | case3 previous output next chars hopen ih =>
    exact .cons (by simp [flat, lexer, blockStep, hopen]) ih

theorem numbered_markAll (hmark : mark ≠ .code) (replaced : Nat) (part : List Char)
    (rest : Marked) :
    numbered replaced (markAll mark part ++ rest) = part ++ numbered replaced rest ∧
      markers (markAll mark part ++ rest) = markers rest := by
  induction part with
  | nil => exact ⟨rfl, rfl⟩
  | cons c part ih =>
    have hnot : isMarker (c, mark) = false := by simp [isMarker, hmark]
    have hcons : markAll mark (c :: part) ++ rest = (c, mark) :: (markAll mark part ++ rest) := rfl
    constructor
    · rw [hcons, numbered, hnot, if_neg Bool.false_ne_true, ih.1, List.cons_append]
    · rw [hcons, markers, List.countP_cons_of_neg (by simp [hnot])]
      exact ih.2

theorem Copied.rewritten {result : List Char × List Char}
    (hmark : mark ≠ .code) (hcopied : Copied mark .text output chars result) (replaced : Nat) :
    result.1 ++ numbered replaced (flat.marks .text result.2) =
        output ++ numbered replaced (flat.marks .text chars) ∧
      markers (flat.marks .text result.2) = markers (flat.marks .text chars) := by
  obtain ⟨copied, hresult, hmarks⟩ := hcopied
  obtain ⟨htext, hcount⟩ := numbered_markAll hmark replaced copied (flat.marks .text result.2)
  rw [hmarks, htext, hcount, hresult, List.append_assoc]
  exact ⟨rfl, rfl⟩

theorem rewriteLoop_of_copied {replaced : Nat}
    {result : List Char × List Char} (hmark : mark ≠ .code)
    (hcopied : Copied mark .text output chars result)
    (hrest : rewriteLoop result.1 replaced result.2 =
      (result.1 ++ numbered replaced (flat.marks .text result.2),
        replaced + markers (flat.marks .text result.2))) :
    rewriteLoop result.1 replaced result.2 =
      (output ++ numbered replaced (flat.marks .text chars),
        replaced + markers (flat.marks .text chars)) := by
  obtain ⟨htext, hcount⟩ := hcopied.rewritten hmark replaced
  rw [hrest, htext, hcount]

theorem exists_item (chars : List Char) (hquote : c = '\'' ∨ c = '"' ∨ c = '[') :
    ∃ quote : Quote, quote.closing = closingOf c ∧
      flat.step .text c chars = (.quoted quote, .quoted) := by
  rcases hquote with rfl | rfl | rfl
  · exact ⟨.single, rfl, by simp [flat, lexer, textStep]⟩
  · exact ⟨.double, rfl, by simp [flat, lexer, textStep]⟩
  · exact ⟨.bracket, rfl, step_bracket chars⟩

/-- The rewriting numbers the markers of the text as the scanner reads it. -/
theorem rewriteLoop_eq (output : List Char) (replaced : Nat) (chars : List Char) :
    rewriteLoop output replaced chars =
      (output ++ numbered replaced (flat.marks .text chars),
        replaced + markers (flat.marks .text chars)) := by
  -- only the fifth case, a question mark in code, counts a parameter
  fun_induction rewriteLoop output replaced chars with
  | case1 output replaced => simp [Lexer.marks, numbered, markers]
  | case2 output replaced ch chars hquote hless ih =>
    obtain ⟨quote, hclosing, hstep⟩ := exists_item chars hquote
    have hmark : Mark.quoted ≠ .code := by decide
    apply rewriteLoop_of_copied hmark _ ih
    rw [← hclosing]
    exact .cons hstep (copyQuoted_copied quote (output ++ [ch]) chars)
  | case3 output replaced ch chars hquote hdash hless ih =>
    obtain ⟨rfl, hnext⟩ := hdash
    obtain ⟨tail, rfl⟩ := exists_tail hnext
    have hmark : Mark.comment ≠ .code := by decide
    have hopen : flat.step .text '-' ('-' :: tail) = (.line, .comment) := by
      simp [flat, lexer, textStep]
    have hsecond : flat.step .line '-' tail = (.line, .comment) := by
      simp [flat, lexer]
    apply rewriteLoop_of_copied hmark _ ih
    refine .cons hopen (.cons hsecond ?_)
    simpa using copyLine_copied (output ++ ['-', '-']) tail
  | case4 output replaced ch chars hquote hdash hslash hless ih =>
    obtain ⟨rfl, hnext⟩ := hslash
    obtain ⟨tail, rfl⟩ := exists_tail hnext
    have hmark : Mark.comment ≠ .code := by decide
    have hopen : flat.step .text '/' ('*' :: tail) = (.slash, .comment) := by
      simp [flat, lexer, textStep]
    have hsecond : flat.step .slash '*' tail = (.block 0 (Char.ofNat 0), .comment) := rfl
    apply rewriteLoop_of_copied hmark _ ih
    refine .cons hopen (.cons hsecond ?_)
    simpa using copyComment_copied (Char.ofNat 0) (output ++ ['/', '*']) tail
  | case5 output replaced chars hquote hdash hslash ih =>
    have hstep : flat.step .text '?' chars = (.text, .code) :=
      step_plain (by decide) (by decide) (by simp) (by simp) (by decide)
    have hmarker : isMarker ('?', .code) = true := rfl
    have hcount (rest : Marked) : markers (('?', .code) :: rest) = markers rest + 1 :=
      List.countP_cons_of_pos hmarker
    rw [ih, marks_cons, hstep]
    dsimp only
    rw [numbered, if_pos hmarker, hcount, List.append_assoc, Nat.add_assoc, Nat.add_comm 1]
  | case6 output replaced ch chars hquote hdash hslash hmarker ih =>
    have hnot : ∀ mark, isMarker (ch, mark) = false := by simp [isMarker, hmarker]
    have hstep : (flat.step .text ch chars).1 = .text := by
      by_cases hstop : ch = ';'
      · rw [hstop]
        rfl
      · rw [not_or, not_or] at hquote
        rw [step_plain (not_or.2 ⟨hquote.1, hquote.2.1⟩) hquote.2.2 hdash hslash hstop]
    rw [ih, marks_cons, hstep]
    simp [numbered, markers, hnot]

theorem rewritePositionalParameters_eq_ok_iff {sql rewritten : List Char} {parameterCount : Nat} :
    rewritePositionalParameters sql parameterCount = .ok rewritten ↔
      (markers (flat.marks .text sql) = 0 ∨ markers (flat.marks .text sql) = parameterCount) ∧
        rewritten = numbered 0 (flat.marks .text sql) := by
  rw [rewritePositionalParameters, rewriteLoop_eq]
  simp only [List.nil_append, Nat.zero_add]
  split_ifs with hcount
  · simp only [false_iff]
    omega
  · simp only [Except.ok.injEq, @eq_comm _ rewritten]
    constructor
    · intro h
      exact ⟨by omega, h⟩
    · exact And.right

/-! ## The binding -/

theorem checkPositions_ok {readers : Readers Date Time DateTime Zoned Uuid} {index : Nat}
    {ordered : List QueryParameter} (hcheck : checkPositions readers index ordered = .ok ()) :
    ordered.map QueryParameter.position = List.range' (index + 1) ordered.length := by
  induction ordered generalizing index with
  | nil => rfl
  | cons parameter rest ih =>
    rw [checkPositions] at hcheck
    split_ifs at hcheck with hfits hposition
    obtain ⟨-, -, hrest⟩ := (bind_eq_ok _ _ _).1 hcheck
    rw [List.map_cons, ih hrest, not_not.1 hposition, List.length_cons, List.range'_succ]

theorem orderedParameters_ok {readers : Readers Date Time DateTime Zoned Uuid}
    {parameters : List QueryParameter} {values : List DatabaseValue}
    (hordered : orderedParameters readers parameters = .ok values) :
    ∃ ordered : List QueryParameter, ordered.Perm parameters ∧ values = ordered.map QueryParameter.value ∧
      ordered.map QueryParameter.position = List.range' 1 parameters.length := by
  rw [orderedParameters] at hordered
  split_ifs at hordered
  obtain ⟨⟨⟩, hcheck, hvalues⟩ := (bind_eq_ok _ _ _).1 hordered
  have hperm := List.mergeSort_perm parameters fun first second => first.position ≤ second.position
  refine ⟨_, hperm, ((pure_eq_ok _ _).1 hvalues).symm, ?_⟩
  rw [checkPositions_ok hcheck, hperm.length_eq]

/-- The numbered text tells which question marks were markers. -/
theorem isMarker_of_numbered {first second : Marked} (replaced : Nat)
    (htext : text first = text second)
    (hnumbered : numbered replaced first = numbered replaced second) :
    first.map isMarker = second.map isMarker := by
  induction first generalizing second replaced with
  | nil =>
    have hnil : second = [] := by simpa [text] using htext.symm
    rw [hnil]
  | cons item first ih =>
    cases second with
    | nil => simp [text] at htext
    | cons other second =>
      obtain ⟨hchar, hrest⟩ := List.cons.inj htext
      have hquestion {item : Char × Mark} (hmarker : isMarker item = true) : item.1 = '?' := by
        simp only [isMarker, Bool.and_eq_true, decide_eq_true_eq] at hmarker
        exact hmarker.1
      rw [numbered, numbered] at hnumbered
      cases hfirst : isMarker item <;> cases hsecond : isMarker other <;>
        rw [hfirst, hsecond] at hnumbered
      · simp only [Bool.false_eq_true, if_false] at hnumbered
        rw [List.map_cons, List.map_cons, hfirst, hsecond,
          ih replaced hrest (List.cons.inj hnumbered).2]
      · -- one text goes on with the question mark, the other one with its number
        have hhead : item.1 = '@' := (List.cons.inj hnumbered).1
        rw [hchar, hquestion hsecond] at hhead
        exact absurd hhead (by decide)
      · have hhead : '@' = other.1 := (List.cons.inj hnumbered).1
        rw [← hchar, hquestion hfirst] at hhead
        exact absurd hhead (by decide)
      · simp only [if_true] at hnumbered
        rw [List.map_cons, List.map_cons, hfirst, hsecond,
          ih (replaced + 1) hrest (List.append_cancel_left hnumbered)]

theorem text_marks (lexer : Lexer LexState) (state : LexState) (chars : List Char) :
    text (lexer.marks state chars) = chars := by
  induction chars generalizing state with
  | nil => rfl
  | cons c rest ih => exact congrArg (c :: ·) (ih _)

theorem numbered_congr {first second : Marked} (replaced : Nat)
    (htext : text first = text second) (hmarkers : first.map isMarker = second.map isMarker) :
    numbered replaced first = numbered replaced second := by
  induction first generalizing second replaced with
  | nil =>
    have hnil : second = [] := by simpa [text] using htext.symm
    rw [hnil]
  | cons item first ih =>
    cases second with
    | nil => simp [text] at htext
    | cons other second =>
      obtain ⟨hchar, hrest⟩ := List.cons.inj htext
      obtain ⟨hmarker, hlater⟩ := List.cons.inj hmarkers
      rw [numbered, numbered, hmarker, hchar, ih replaced hrest hlater,
        ih (replaced + 1) hrest hlater]

theorem markers_eq_count (marked : Marked) : markers marked = (marked.map isMarker).count true := by
  rw [markers, List.count, List.countP_map]
  congr 1
  ext item
  simp

theorem exists_bound {readers : Readers Date Time DateTime Zoned Uuid}
    {parameters ordered : List QueryParameter} {params : List (Bound Date Time DateTime Zoned Uuid)}
    (hperm : ordered.Perm parameters)
    (hpositions : ordered.map QueryParameter.position = List.range' 1 parameters.length)
    (hbound : List.Forall₂ (fun parameter bound => bindValue readers parameter = .ok bound)
      (ordered.map QueryParameter.value) params)
    {parameter : QueryParameter} (hparameter : parameter ∈ parameters) :
    ∃ bound, bindValue readers parameter.value = .ok bound ∧
      params[parameter.position - 1]? = some bound := by
  obtain ⟨index, hindex, rfl⟩ := List.getElem_of_mem (hperm.mem_iff.2 hparameter)
  have hposition : ordered[index].position = index + 1 := by
    have hget := congrArg (·[index]?) hpositions
    simp only [List.getElem?_map, List.getElem?_eq_getElem hindex, Option.map_some] at hget
    rw [List.getElem?_range' (by rwa [← hperm.length_eq])] at hget
    rw [Option.some.inj hget]
    omega
  have hlength := hbound.length_eq
  rw [List.length_map] at hlength
  have hparams : index < params.length := by omega
  refine ⟨params[index], ?_, ?_⟩
  · have hget := hbound.get (by rwa [List.length_map]) hparams
    simpa using hget
  · rw [hposition, Nat.add_sub_cancel, List.getElem?_eq_getElem hparams]

/-- The values are bound to the question marks in their order, as T-SQL reads the text,
exactly if the nesting of comments changes no question mark. -/
theorem bindQuery_binds_iff (readers : Readers Date Time DateTime Zoned Uuid) (sql : List Char)
    (parameters : List QueryParameter) (query : Query Date Time DateTime Zoned Uuid)
    (hbind : bindQuery readers sql parameters = .ok query) :
    Binds readers sql parameters query ↔ MarkersAgree sql := by
  obtain ⟨values, hvalues, hbind⟩ := (bind_eq_ok _ _ _).1 hbind
  obtain ⟨rewritten, hrewritten, hbind⟩ := (bind_eq_ok _ _ _).1 hbind
  obtain ⟨params, hparams, hbind⟩ := (bind_eq_ok _ _ _).1 hbind
  obtain rfl := (pure_eq_ok _ _).1 hbind
  obtain ⟨ordered, hperm, rfl, hpositions⟩ := orderedParameters_ok hvalues
  rw [rewritePositionalParameters_eq_ok_iff, List.length_map, hperm.length_eq] at hrewritten
  obtain ⟨hcount, rfl⟩ := hrewritten
  have hbound := forall₂_of_mapM hparams
  have htext : text (flat.marks .text sql) = text (tsql.marks .text sql) := by
    rw [text_marks, text_marks]
  constructor
  · intro hbinds
    exact isMarker_of_numbered 0 htext hbinds.sql
  · intro hagree
    refine ⟨?_, ?_, numbered_congr 0 htext hagree, ?_,
      fun _ hparameter => exists_bound hperm hpositions hbound hparameter⟩
    · rw [← hpositions]
      exact (hperm.map _).symm
    · rwa [markers_eq_count, ← hagree, ← markers_eq_count]
    · rw [← hbound.length_eq, List.length_map, hperm.length_eq]

/-- Libraries that read no calendar and no UUID text. -/
def noReaders : Readers Unit Unit Unit Unit Unit where
  date := fun _ => none
  time := fun _ => none
  dateTime := fun _ _ => none
  rfc3339 := fun _ => none
  uuid := fun _ => none

def twoParameters : List QueryParameter :=
  [{ position := 2, value := .text ['b'] }, { position := 1, value := .text ['a'] }]

theorem orderedParameters_two :
    orderedParameters noReaders twoParameters = .ok [.text ['a'], .text ['b']] := by
  have hsort : twoParameters.mergeSort (fun first second => first.position ≤ second.position) =
      twoParameters.reverse := by
    simp [twoParameters, List.mergeSort, List.MergeSort.Internal.splitInTwo]
  rw [orderedParameters, if_neg (by decide), hsort]
  rfl

theorem bindQuery_two {sql rewritten : List Char}
    (hrewrite : rewritePositionalParameters sql 2 = .ok rewritten) :
    bindQuery noReaders sql twoParameters =
      .ok { sql := rewritten, params := [.string (some ['a']), .string (some ['b'])] } := by
  rw [bindQuery, orderedParameters_two, ok_bind]
  change (rewritePositionalParameters sql 2 >>= _) = _
  rw [hrewrite]
  rfl

/-- Two parameters in the other order, and a question mark in a comment. -/
theorem swappedParameters_bind :
    Binds noReaders "SELECT ?/*?*/, [?], ?".toList twoParameters
      { sql := "SELECT @P1/*?*/, [?], @P2".toList,
        params := [.string (some ['a']), .string (some ['b'])] } := by
  have hrewrite : rewritePositionalParameters "SELECT ?/*?*/, [?], ?".toList 2 =
      .ok "SELECT @P1/*?*/, [?], @P2".toList :=
    rewritePositionalParameters_eq_ok_iff.2 (by decide +kernel)
  exact (bindQuery_binds_iff _ _ _ _ (bindQuery_two hrewrite)).2 (by decide +kernel)

/-- A question mark in the outer one of two comments takes the first parameter. -/
theorem nestedComment_binds :
    rewritePositionalParameters "SELECT /*/**/?*/ ?".toList 2 =
        .ok "SELECT /*/**/@P1*/ @P2".toList ∧
      ∀ query, bindQuery noReaders "SELECT /*/**/?*/ ?".toList twoParameters = .ok query →
        ¬ Binds noReaders "SELECT /*/**/?*/ ?".toList twoParameters query := by
  have hrewrite : rewritePositionalParameters "SELECT /*/**/?*/ ?".toList 2 =
      .ok "SELECT /*/**/@P1*/ @P2".toList :=
    rewritePositionalParameters_eq_ok_iff.2 (by decide +kernel)
  refine ⟨hrewrite, ?_⟩
  intro query hquery hbinds
  rw [bindQuery_two hrewrite] at hquery
  rw [← Except.ok.inj hquery] at hbinds
  exact absurd hbinds.count (by decide +kernel)

end Chat2DB.SqlServer
