import Chat2DB.Postgres.Reading
import Chat2DB.Base.Decimal

/-! # Decoding PostgreSQL dates and times

The decoders of dates, times, timestamps and times with a zone, over the
calendar crate that they call, and a reader of the texts. Every text reads back
as its payload, except that the seconds of a zone are not printed.
-/

namespace Chat2DB.Postgres

open Chat2DB.Sql Outcome Decimal

variable {rest : List Char} {width : Nat} {raw : List UInt8} {chrono : Chrono}

/-! ## Calendar dates -/

structure Date where
  year : Int
  month : Nat
  day : Nat
deriving DecidableEq

structure DateTime where
  date : Date
  hour : Nat
  minute : Nat
  second : Nat
  microsecond : Nat
deriving DecidableEq

def isLeapYear (year : Int) : Prop :=
  year % 4 = 0 ∧ (year % 100 ≠ 0 ∨ year % 400 = 0)

instance (year : Int) : Decidable (isLeapYear year) :=
  inferInstanceAs (Decidable (_ ∧ _))

def monthLength (year : Int) (month : Nat) : Nat :=
  if month = 2 then if isLeapYear year then 29 else 28
  else if month = 4 ∨ month = 6 ∨ month = 9 ∨ month = 11 then 30
  else 31

def Date.Valid (date : Date) : Prop :=
  1 ≤ date.month ∧ date.month ≤ 12 ∧ 1 ≤ date.day ∧ date.day ≤ monthLength date.year date.month

instance (date : Date) : Decidable date.Valid :=
  inferInstanceAs (Decidable (_ ∧ _))

/-- Days of the proleptic Gregorian calendar before a date, counted from the year one. -/
def Date.dayNumber (date : Date) : Int :=
  365 * (date.year - 1) + (date.year - 1) / 4 - (date.year - 1) / 100 + (date.year - 1) / 400 +
    ((List.range (date.month - 1)).map fun month => monthLength date.year (month + 1)).sum +
    (date.day - 1)

def postgresEpoch : Date where
  year := 2000
  month := 1
  day := 1

def Date.daysSinceEpoch (date : Date) : Int :=
  date.dayNumber - postgresEpoch.dayNumber

def DateTime.Valid (value : DateTime) : Prop :=
  value.date.Valid ∧ value.hour < 24 ∧ value.minute < 60 ∧ value.second < 60 ∧
    value.microsecond < 1000000

instance (value : DateTime) : Decidable value.Valid :=
  inferInstanceAs (Decidable (_ ∧ _))

/-- Microseconds of a clock reading since midnight. -/
def clockMicroseconds (hour minute second microsecond : Nat) : Nat :=
  ((hour * 60 + minute) * 60 + second) * 1000000 + microsecond

def DateTime.microsecondsSinceEpoch (value : DateTime) : Int :=
  value.date.daysSinceEpoch * 86400000000 +
    clockMicroseconds value.hour value.minute value.second value.microsecond

/-- A year with four digits at least, and a sign when it has no four-digit form. -/
def yearText (year : Int) : List Char :=
  if 0 ≤ year ∧ year ≤ 9999 then padded 4 year.toNat
  else (if year < 0 then '-' else '+') :: padded 4 year.natAbs

def Date.text (date : Date) : List Char :=
  yearText date.year ++ '-' :: (padded 2 date.month ++ '-' :: padded 2 date.day)

def clockText (hour minute second : Nat) : List Char :=
  padded 2 hour ++ ':' :: (padded 2 minute ++ ':' :: padded 2 second)

def DateTime.text (value : DateTime) : List Char :=
  value.date.text ++ 'T' :: (clockText value.hour value.minute value.second ++
    '.' :: padded 6 value.microsecond)

/-- What the decoders call of the calendar crate. -/
structure Chrono where
  /-- The epoch with days added, when the result is in range. -/
  addDays : Int → Option Date
  /-- Midnight of the epoch with microseconds added, when the result is in range. -/
  addMicroseconds : Int → Option DateTime
  /-- The format `%Y-%m-%d`. -/
  formatDate : Date → List Char
  /-- The format `%Y-%m-%dT%H:%M:%S%.6f`. -/
  formatDateTime : DateTime → List Char

/-- The documented behaviour of the calendar crate. -/
structure Chrono.Lawful (chrono : Chrono) : Prop where
  addDays_sound : ∀ days date, chrono.addDays days = some date →
    date.Valid ∧ date.daysSinceEpoch = days
  addMicroseconds_sound : ∀ micros value, chrono.addMicroseconds micros = some value →
    value.Valid ∧ value.microsecondsSinceEpoch = micros
  formatDate_eq : ∀ date : Date, date.Valid → chrono.formatDate date = date.text
  formatDateTime_eq : ∀ value : DateTime, value.Valid → chrono.formatDateTime value = value.text

/-! ## The decoders -/

def decodePostgresDate (chrono : Chrono) (raw : List UInt8) : Except AppError (List Char) := do
  let days ← readI32 raw
  if days = 2147483647 then return "infinity".toList
  else if days = -2147483648 then return "-infinity".toList
  else orThrow ((chrono.addDays days).map chrono.formatDate) resultDecodeError

def formatTimeMicros (micros : Int) : Except AppError (List Char) :=
  if ¬ (0 ≤ micros ∧ micros ≤ 86400000000) then .error resultDecodeError
  else if micros = 86400000000 then .ok "24:00:00".toList
  else
    let hours := micros / 3600000000
    let minutes := (micros / 60000000) % 60
    let seconds := (micros / 1000000) % 60
    let fraction := micros % 1000000
    if fraction = 0 then .ok (clockText hours.toNat minutes.toNat seconds.toNat)
    else .ok (clockText hours.toNat minutes.toNat seconds.toNat ++
      '.' :: padded 6 fraction.toNat)

def decodePostgresTime (raw : List UInt8) : Except AppError (List Char) := do
  formatTimeMicros (← readI64 raw)

def decodePostgresTimestamp (chrono : Chrono) (raw : List UInt8) :
    Except AppError (List Char) := do
  let micros ← readI64 raw
  if micros = 9223372036854775807 then return "infinity".toList
  else if micros = -9223372036854775808 then return "-infinity".toList
  else orThrow ((chrono.addMicroseconds micros).map chrono.formatDateTime) resultDecodeError

def decodePostgresTimetz (raw : List UInt8) : Except AppError (List Char) := do
  let (head, zone) ← takeBytes raw 8
  let time ← formatTimeMicros (← readI64 head)
  let secondsWest ← readI32 zone
  rejectIf (secondsWest = -2147483648) resultDecodeError
  let secondsEast := -secondsWest
  let sign := if secondsEast < 0 then '-' else '+'
  let absolute := secondsEast.natAbs
  return time ++ sign :: (padded 2 (absolute / 3600) ++
    ':' :: padded 2 (absolute % 3600 / 60))

/-- The binary formats of dates and times. -/
inductive TemporalFormat where
  | date
  | time
  | timestamp
  | timetz
deriving DecidableEq

def decodeTemporal (chrono : Chrono) :
    TemporalFormat → List UInt8 → Except AppError (List Char)
  | .date => decodePostgresDate chrono
  | .time => decodePostgresTime
  | .timestamp => decodePostgresTimestamp chrono
  | .timetz => decodePostgresTimetz

/-! ## What payloads and texts denote -/

inductive TemporalValue where
  | infinity
  | negativeInfinity
  | date (days : Int)
  | time (microseconds : Int)
  | timestamp (microseconds : Int)
  | timetz (microseconds secondsEast : Int)
deriving DecidableEq

/-- A number whose greatest and least values stand for the infinities. -/
def extendedValue (width : Nat) (finite : Int → TemporalValue) (number : Int) : TemporalValue :=
  if number = 2 ^ (8 * width - 1) - 1 then .infinity
  else if number = -2 ^ (8 * width - 1) then .negativeInfinity
  else finite number

def payloadValue (format : TemporalFormat) (raw : List UInt8) : TemporalValue :=
  match format with
  | .date => extendedValue 4 .date (signed 4 (bigEndian raw))
  | .time => .time (signed 8 (bigEndian raw))
  | .timestamp => extendedValue 8 .timestamp (signed 8 (bigEndian raw))
  | .timetz => .timetz (signed 8 (bigEndian (raw.take 8))) (-signed 4 (bigEndian (raw.drop 8)))

def readDate (text : List Char) : Option (Date × List Char) := do
  let (negative, text) := readSign text
  let (year, text) ← readNumber text
  let (month, text) ← readNumber (← expectChar '-' text)
  let (day, text) ← readNumber (← expectChar '-' text)
  return ({ year := if negative then -year else year, month, day }, text)

/-- A fraction of a second in microseconds, zero when there is none. -/
def readFraction : List Char → Option (Nat × List Char)
  | '.' :: rest => some (value (scaled 6 (rest.takeWhile Char.isDigit)),
      rest.dropWhile Char.isDigit)
  | text => some (0, text)

def readClock (text : List Char) : Option (Nat × List Char) := do
  let (hour, text) ← readNumber text
  let (minute, text) ← readNumber (← expectChar ':' text)
  let (second, text) ← readNumber (← expectChar ':' text)
  let (microsecond, text) ← readFraction text
  return (clockMicroseconds hour minute second microsecond, text)

/-- An offset east of Greenwich in seconds: a sign, hours, minutes, and seconds when given. -/
def readZone : List Char → Option (Int × List Char)
  | [] => none
  | sign :: text => do
    let (hours, text) ← readNumber text
    let (minutes, text) ← readNumber (← expectChar ':' text)
    let (seconds, text) := ((expectChar ':' text).bind readNumber).getD (0, text)
    let offset : Int := (hours * 60 + minutes) * 60 + seconds
    if sign = '-' then return (-offset, text)
    else if sign = '+' then return (offset, text)
    else none

/-- A value that the whole text was read for. -/
def wholeText {α : Type} (found : Option (α × List Char)) : Option α :=
  found.bind fun read => if read.2 = [] then some read.1 else none

/-- A text of finite values, or the name of an infinity. -/
def readExtended (text : List Char) (finite : Option TemporalValue) : Option TemporalValue :=
  if text = "infinity".toList then some .infinity
  else if text = "-infinity".toList then some .negativeInfinity
  else finite

def readDateTime (text : List Char) : Option (Int × List Char) := do
  let (date, text) ← readDate text
  let (clock, text) ← readClock (← expectChar 'T' text)
  return (date.daysSinceEpoch * 86400000000 + clock, text)

def readClockZone (text : List Char) : Option ((Int × Int) × List Char) := do
  let (clock, text) ← readClock text
  let (offset, text) ← readZone text
  return ((clock, offset), text)

/-- The value that a text denotes in a format. -/
def readTemporal (format : TemporalFormat) (text : List Char) : Option TemporalValue :=
  match format with
  | .date => readExtended text ((wholeText (readDate text)).map fun date =>
    .date date.daysSinceEpoch)
  | .time => (wholeText (readClock text)).map fun micros => .time micros
  | .timestamp => readExtended text ((wholeText (readDateTime text)).map .timestamp)
  | .timetz => (wholeText (readClockZone text)).map fun read => .timetz read.1 read.2

/-- The text denotes exactly what the payload says. -/
def Denotes (format : TemporalFormat) (raw : List UInt8) (text : List Char) : Prop :=
  readTemporal format text = some (payloadValue format raw)

/-- A zone, where the format has one, is a whole number of minutes. -/
def WholeMinutes (format : TemporalFormat) (raw : List UInt8) : Prop :=
  format = .timetz → signed 4 (bigEndian (raw.drop 8)) % 60 = 0

/-! ## Printed fields read back -/

theorem readSign_yearText (year : Int) (rest : List Char) :
    readSign (yearText year ++ rest) =
      (decide (year < 0), padded 4 year.natAbs ++ rest) := by
  by_cases hfour : 0 ≤ year ∧ year ≤ 9999
  · have hnatural : year.toNat = year.natAbs := by omega
    rw [yearText, if_pos hfour, readSign_padded, hnatural, decide_eq_false (by omega)]
  · by_cases hnegative : year < 0
    · rw [yearText, if_neg hfour, if_pos hnegative, decide_eq_true hnegative]
      rfl
    · rw [yearText, if_neg hfour, if_neg hnegative, decide_eq_false hnegative]
      rfl

theorem readDate_text (date : Date) (hrest : NoDigitAhead rest) :
    readDate (date.text ++ rest) = some (date, rest) := by
  have hdash : ∀ tail, NoDigitAhead ('-' :: tail) := noDigitAhead_cons (by decide)
  have hyear : (if date.year < 0 then -(date.year.natAbs : Int) else (date.year.natAbs : Int)) =
      date.year := by
    split_ifs <;> omega
  have htext : date.text ++ rest = yearText date.year ++
      '-' :: (padded 2 date.month ++ '-' :: (padded 2 date.day ++ rest)) := by
    simp [Date.text]
  rw [htext, readDate, readSign_yearText]
  simp only [Option.bind_eq_bind, Option.bind_some, expectChar_self,
    readNumber_padded _ _ (hdash _), readNumber_padded 2 _ hrest, decide_eq_true_eq, hyear]
  rfl

theorem readClock_text (hour minute second : Nat) (hrest : NoDigitAhead rest) :
    readClock (clockText hour minute second ++ rest) =
      (readFraction rest).bind fun read =>
        some (clockMicroseconds hour minute second read.1, read.2) := by
  have hcolon : ∀ tail, NoDigitAhead (':' :: tail) := noDigitAhead_cons (by decide)
  have htext : clockText hour minute second ++ rest = padded 2 hour ++
      ':' :: (padded 2 minute ++ ':' :: (padded 2 second ++ rest)) := by
    simp [clockText]
  rw [htext, readClock]
  simp only [Option.bind_eq_bind, Option.bind_some, expectChar_self,
    readNumber_padded 2 _ (hcolon _), readNumber_padded 2 _ hrest]
  rfl

theorem readFraction_padded {microsecond : Nat} (h : microsecond < 1000000)
    (hrest : NoDigitAhead rest) :
    readFraction ('.' :: (padded 6 microsecond ++ rest)) = some (microsecond, rest) := by
  obtain ⟨htake, hdrop⟩ := takeWhile_digits (allDigits_padded 6 microsecond) hrest
  have hlength : (padded 6 microsecond).length = 6 :=
    length_padded (by decide) (by omega)
  rw [readFraction, htake, hdrop, value_scaled (allDigits_padded _ _),
    value_padded, hlength, Nat.mul_div_cancel _ (by decide)]

/-- Nothing of a clock reading continues in what follows. -/
def EndsClock (rest : List Char) : Prop :=
  NoDigitAhead rest ∧ readFraction rest = some (0, rest)

theorem readClock_formatTimeMicros {micros : Int} {text : List Char}
    (h : formatTimeMicros micros = .ok text) (hrest : EndsClock rest) :
    ∃ clock : Nat, readClock (text ++ rest) = some (clock, rest) ∧ (clock : Int) = micros := by
  rw [formatTimeMicros] at h
  extract_lets hours minutes seconds fraction at h
  split_ifs at h with hrange hmidnight hwhole
  · have htext : text = clockText 24 0 0 := by
      rw [← Except.ok.inj h]
      decide
    refine ⟨clockMicroseconds 24 0 0 0, ?_, ?_⟩
    · rw [htext, readClock_text _ _ _ hrest.1, hrest.2]
      rfl
    · rw [hmidnight]
      rfl
  · refine ⟨clockMicroseconds hours.toNat minutes.toNat seconds.toNat 0, ?_, ?_⟩
    · rw [← Except.ok.inj h, readClock_text _ _ _ hrest.1, hrest.2]
      rfl
    · simp only [clockMicroseconds]
      omega
  · refine ⟨clockMicroseconds hours.toNat minutes.toNat seconds.toNat fraction.toNat, ?_, ?_⟩
    · rw [← Except.ok.inj h, List.append_assoc, List.cons_append,
        readClock_text _ _ _ (noDigitAhead_cons (by decide) _),
        readFraction_padded (by omega) hrest.1]
      rfl
    · simp only [clockMicroseconds]
      omega

theorem readZone_text (negative : Prop) [Decidable negative] (absolute : Nat) :
    readZone ((if negative then '-' else '+') :: (padded 2 (absolute / 3600) ++
        ':' :: padded 2 (absolute % 3600 / 60))) =
      some (if negative then -((absolute / 60 * 60 : Nat) : Int)
        else ((absolute / 60 * 60 : Nat) : Int), []) := by
  have hcolon : ∀ tail, NoDigitAhead (':' :: tail) := noDigitAhead_cons (by decide)
  have hlast := readNumber_padded 2 (absolute % 3600 / 60) noDigitAhead_nil
  rw [List.append_nil] at hlast
  have hnone : expectChar ':' [] = none := rfl
  have hoffset : (((absolute / 3600 : Nat) : Int) * 60 + ((absolute % 3600 / 60 : Nat) : Int)) * 60 +
      ((0 : Nat) : Int) = ((absolute / 60 * 60 : Nat) : Int) := by
    omega
  simp only [readZone, Option.bind_eq_bind, Option.bind_some, readNumber_padded 2 _ (hcolon _),
    expectChar_self, hlast, hnone, Option.bind_none, Option.getD_none, hoffset]
  by_cases hnegative : negative <;> simp [hnegative]

/-! ## Texts denote their payloads -/

theorem endsClock_nil : EndsClock [] :=
  ⟨noDigitAhead_nil, rfl⟩

theorem readI_eq_ok {number : Int} (h : readSigned width raw = .ok number) :
    raw.length = width ∧ signed width (bigEndian raw) = number := by
  obtain ⟨unsigned, hread, hsigned⟩ := (bind_eq_ok _ _ _).1 h
  obtain ⟨hlength, rfl⟩ := readUnsigned_eq_ok.1 hread
  exact ⟨hlength, (pure_eq_ok _ _).1 hsigned⟩

theorem wholeText_some {α : Type} (value : α) : wholeText (some (value, [])) = some value :=
  rfl

theorem readExtended_of_digit {text : List Char} {c : Char} (hc : c ∈ text)
    (hdigit : c.isDigit = true) (finite : Option TemporalValue) :
    readExtended text finite = finite := by
  have hinfinity : ∀ d ∈ "infinity".toList, d.isDigit = false := by simp
  have hnegative : ∀ d ∈ "-infinity".toList, d.isDigit = false := by simp
  rw [readExtended, if_neg, if_neg]
  · rintro rfl
    rw [hnegative c hc] at hdigit
    cases hdigit
  · rintro rfl
    rw [hinfinity c hc] at hdigit
    cases hdigit

theorem exists_digit_date (date : Date) : ∃ c ∈ date.text, c.isDigit = true := by
  obtain ⟨c, tail, hpadded⟩ := List.exists_cons_of_ne_nil (padded_ne_nil 2 date.day)
  have hmem : c ∈ padded 2 date.day := by rw [hpadded]; exact List.mem_cons_self
  refine ⟨c, ?_, allDigits_padded _ _ c hmem⟩
  simp [Date.text, hmem]

theorem denotes_date (hchrono : chrono.Lawful)
    {text : List Char} (h : decodePostgresDate chrono raw = .ok text) :
    Denotes .date raw text := by
  obtain ⟨days, hread, hnext⟩ := (bind_eq_ok _ _ _).1 h
  obtain ⟨-, hdays⟩ := readI_eq_ok hread
  rw [Denotes, readTemporal, payloadValue, hdays]
  split_ifs at hnext with hmax hmin
  · rw [← (pure_eq_ok _ _).1 hnext, hmax]
    rfl
  · rw [← (pure_eq_ok _ _).1 hnext, hmin]
    decide
  · obtain ⟨date, hdate, rfl⟩ := Option.map_eq_some_iff.1 ((orThrow_eq_ok _ _ _).1 hnext)
    obtain ⟨hvalid, hsame⟩ := hchrono.addDays_sound days date hdate
    obtain ⟨c, hc, hdigit⟩ := exists_digit_date date
    have hread := readDate_text date noDigitAhead_nil
    rw [List.append_nil] at hread
    rw [hchrono.formatDate_eq date hvalid, readExtended_of_digit hc hdigit, hread, wholeText_some,
      extendedValue, if_neg (by simpa using hmax), if_neg (by simpa using hmin), ← hsame]
    rfl

theorem denotes_time {text : List Char} (h : decodePostgresTime raw = .ok text) :
    Denotes .time raw text := by
  obtain ⟨micros, hread, hformat⟩ := (bind_eq_ok _ _ _).1 h
  obtain ⟨-, hmicros⟩ := readI_eq_ok hread
  obtain ⟨clock, hclock, hsame⟩ := readClock_formatTimeMicros hformat endsClock_nil
  rw [List.append_nil] at hclock
  rw [Denotes, readTemporal, payloadValue, hmicros, hclock, wholeText_some, ← hsame]
  rfl

theorem readDateTime_text {value : DateTime} (h : value.Valid) :
    readDateTime value.text = some (value.microsecondsSinceEpoch, []) := by
  have hsplit : value.text = value.date.text ++
      'T' :: (clockText value.hour value.minute value.second ++
        '.' :: (padded 6 value.microsecond ++ [])) := by
    simp [DateTime.text]
  rw [hsplit, readDateTime, readDate_text _ (noDigitAhead_cons (by decide) _)]
  simp only [Option.bind_eq_bind, Option.bind_some, expectChar_self]
  rw [readClock_text _ _ _ (noDigitAhead_cons (by decide) _),
    readFraction_padded h.2.2.2.2 noDigitAhead_nil]
  rfl

theorem denotes_timestamp (hchrono : chrono.Lawful)
    {text : List Char} (h : decodePostgresTimestamp chrono raw = .ok text) :
    Denotes .timestamp raw text := by
  obtain ⟨micros, hread, hnext⟩ := (bind_eq_ok _ _ _).1 h
  obtain ⟨-, hmicros⟩ := readI_eq_ok hread
  rw [Denotes, readTemporal, payloadValue, hmicros]
  split_ifs at hnext with hmax hmin
  · rw [← (pure_eq_ok _ _).1 hnext, hmax]
    rfl
  · rw [← (pure_eq_ok _ _).1 hnext, hmin]
    decide
  · obtain ⟨value, hvalue, rfl⟩ := Option.map_eq_some_iff.1 ((orThrow_eq_ok _ _ _).1 hnext)
    obtain ⟨hvalid, hsame⟩ := hchrono.addMicroseconds_sound micros value hvalue
    obtain ⟨c, hc, hdigit⟩ := exists_digit_date value.date
    have hmem : c ∈ value.text := List.mem_append_left _ hc
    rw [hchrono.formatDateTime_eq value hvalid, readExtended_of_digit hmem hdigit,
      readDateTime_text hvalid, wholeText_some, extendedValue, if_neg (by simpa using hmax),
      if_neg (by simpa using hmin), ← hsame]
    rfl

/-- An offset without its seconds. -/
def withoutSeconds (offset : Int) : Int :=
  if offset < 0 then -((offset.natAbs / 60 * 60 : Nat) : Int)
  else ((offset.natAbs / 60 * 60 : Nat) : Int)

theorem withoutSeconds_eq_iff (offset : Int) : withoutSeconds offset = offset ↔ offset % 60 = 0 := by
  rw [withoutSeconds]
  split_ifs <;> omega

/-- The zone reads back without its seconds. -/
theorem readTemporal_timetz {text : List Char} (h : decodePostgresTimetz raw = .ok text) :
    readTemporal .timetz text = some (.timetz (signed 8 (bigEndian (raw.take 8)))
      (withoutSeconds (-signed 4 (bigEndian (raw.drop 8))))) := by
  rw [decodePostgresTimetz, takeBytes] at h
  split_ifs at h with hlength
  · simp only [ok_bind, bind_eq_ok] at h
    obtain ⟨micros, hmicros, time, htime, west, hwest, _, _, hpure⟩ := h
    obtain ⟨-, hmicros⟩ := readI_eq_ok hmicros
    obtain ⟨-, hwest⟩ := readI_eq_ok hwest
    have hends : ∀ tail, EndsClock ((if -west < 0 then '-' else '+') :: tail) := by
      intro tail
      by_cases hnegative : -west < 0
      · rw [if_pos hnegative]
        exact ⟨noDigitAhead_cons (by decide) _, rfl⟩
      · rw [if_neg hnegative]
        exact ⟨noDigitAhead_cons (by decide) _, rfl⟩
    obtain ⟨clock, hclock, hsame⟩ := readClock_formatTimeMicros htime
      (hends (padded 2 ((-west).natAbs / 3600) ++
        ':' :: padded 2 ((-west).natAbs % 3600 / 60)))
    rw [hmicros, hwest, ← (pure_eq_ok _ _).1 hpure, readTemporal, readClockZone, hclock,
      ← hsame, withoutSeconds]
    simp only [Option.bind_eq_bind, Option.bind_some, readZone_text]
    rfl
  · cases h

theorem denotes_timetz_iff {text : List Char} (h : decodePostgresTimetz raw = .ok text) :
    Denotes .timetz raw text ↔ signed 4 (bigEndian (raw.drop 8)) % 60 = 0 := by
  rw [Denotes, readTemporal_timetz h, payloadValue, Option.some.injEq,
    TemporalValue.timetz.injEq, withoutSeconds_eq_iff]
  omega

theorem denotes_iff (hchrono : chrono.Lawful) {format : TemporalFormat}
    {text : List Char} (h : decodeTemporal chrono format raw = .ok text) :
    Denotes format raw text ↔ WholeMinutes format raw := by
  cases format with
  | date => simp [WholeMinutes, denotes_date hchrono h]
  | time => simp [WholeMinutes, denotes_time h]
  | timestamp => simp [WholeMinutes, denotes_timestamp hchrono h]
  | timetz => simp [WholeMinutes, denotes_timetz_iff h]

theorem extendedValue_injective {finite : Int → TemporalValue} (hfinite : Function.Injective finite)
    (hinfinity : ∀ number, finite number ≠ .infinity ∧ finite number ≠ .negativeInfinity)
    {number other : Int} (h : extendedValue width finite number = extendedValue width finite other) :
    number = other := by
  unfold extendedValue at h
  split_ifs at h with hmax hotherMax hotherMin hmin hotherMax hotherMin hotherMax hotherMin
  · rw [hmax, hotherMax]
  · exact absurd h.symm (hinfinity other).1
  · rw [hmin, hotherMin]
  · exact absurd h.symm (hinfinity other).2
  · exact absurd h (hinfinity number).1
  · exact absurd h (hinfinity number).2
  · exact hfinite h

theorem signed_bigEndian_injective (hwidth : 0 < width) {other : List UInt8}
    (hraw : raw.length = width) (hother : other.length = width)
    (h : signed width (bigEndian raw) = signed width (bigEndian other)) : raw = other := by
  apply bigEndian_injective (hraw.trans hother.symm)
  apply signed_injective hwidth _ _ h
  · rw [← hraw]
    exact bigEndian_lt raw
  · rw [← hother]
    exact bigEndian_lt other

theorem length_timetz {text : List Char} (h : decodePostgresTimetz raw = .ok text) :
    8 ≤ raw.length ∧ (raw.drop 8).length = 4 := by
  rw [decodePostgresTimetz, takeBytes] at h
  split_ifs at h with hlength
  · simp only [ok_bind, bind_eq_ok] at h
    obtain ⟨_, _, _, _, west, hwest, _⟩ := h
    exact ⟨hlength, (readI_eq_ok hwest).1⟩
  · cases h

/-- Payloads of one format that decode and say the same are the same. -/
theorem payloadValue_injective {format : TemporalFormat}
    {other : List UInt8} {text otherText : List Char}
    (h : decodeTemporal chrono format raw = .ok text)
    (hother : decodeTemporal chrono format other = .ok otherText)
    (hsame : payloadValue format raw = payloadValue format other) : raw = other := by
  cases format with
  | date =>
    obtain ⟨_, hread, _⟩ := (bind_eq_ok _ _ _).1 h
    obtain ⟨_, hreadOther, _⟩ := (bind_eq_ok _ _ _).1 hother
    apply signed_bigEndian_injective (by decide) (readI_eq_ok hread).1 (readI_eq_ok hreadOther).1
    apply extendedValue_injective _ _ hsame
    · intro days others hdays
      exact TemporalValue.date.inj hdays
    · simp
  | time =>
    obtain ⟨_, hread, _⟩ := (bind_eq_ok _ _ _).1 h
    obtain ⟨_, hreadOther, _⟩ := (bind_eq_ok _ _ _).1 hother
    exact signed_bigEndian_injective (by decide) (readI_eq_ok hread).1
      (readI_eq_ok hreadOther).1 (TemporalValue.time.inj hsame)
  | timestamp =>
    obtain ⟨_, hread, _⟩ := (bind_eq_ok _ _ _).1 h
    obtain ⟨_, hreadOther, _⟩ := (bind_eq_ok _ _ _).1 hother
    apply signed_bigEndian_injective (by decide) (readI_eq_ok hread).1 (readI_eq_ok hreadOther).1
    apply extendedValue_injective _ _ hsame
    · intro micros others hmicros
      exact TemporalValue.timestamp.inj hmicros
    · simp
  | timetz =>
    obtain ⟨hlength, hzone⟩ := length_timetz h
    obtain ⟨hlengthOther, hzoneOther⟩ := length_timetz hother
    obtain ⟨htime, hoffset⟩ := TemporalValue.timetz.inj hsame
    have hhead : raw.take 8 = other.take 8 :=
      signed_bigEndian_injective (by decide) (List.length_take_of_le hlength)
        (List.length_take_of_le hlengthOther) htime
    have htail : raw.drop 8 = other.drop 8 :=
      signed_bigEndian_injective (by decide) hzone hzoneOther (Int.neg_inj.1 hoffset)
    rw [← List.take_append_drop 8 raw, hhead, htail, List.take_append_drop]

/-- Different payloads decode to different texts that denote them, exactly when
the seconds of no zone are lost. -/
theorem temporal_texts_faithful_iff {chrono : Chrono} (hchrono : chrono.Lawful)
    (format : TemporalFormat) {raw other : List UInt8} (hne : raw ≠ other)
    {text otherText : List Char} (h : decodeTemporal chrono format raw = .ok text)
    (hother : decodeTemporal chrono format other = .ok otherText) :
    (text ≠ otherText ∧ Denotes format raw text ∧ Denotes format other otherText) ↔
      WholeMinutes format raw ∧ WholeMinutes format other := by
  rw [denotes_iff hchrono h, denotes_iff hchrono hother]
  constructor
  · exact And.right
  · rintro ⟨hraw, hothers⟩
    refine ⟨?_, hraw, hothers⟩
    intro htext
    have hdenotes := (denotes_iff hchrono h).2 hraw
    have hdenotesOther := (denotes_iff hchrono hother).2 hothers
    rw [Denotes, htext, hdenotesOther, Option.some.injEq] at hdenotes
    exact hne (payloadValue_injective h hother hdenotes.symm)

/-- The date a number of days after the epoch, counted in eras of 400 years from March on. -/
def civilFromDays (days : Int) : Date :=
  let era := (days + 730425) / 146097
  let dayOfEra := (days + 730425) % 146097
  let yearOfEra := (dayOfEra - dayOfEra / 1460 + dayOfEra / 36524 - dayOfEra / 146096) / 365
  let dayOfYear := dayOfEra - (365 * yearOfEra + yearOfEra / 4 - yearOfEra / 100)
  let marchMonth := (5 * dayOfYear + 2) / 153
  let month := if marchMonth < 10 then marchMonth + 3 else marchMonth - 9
  { year := yearOfEra + era * 400 + if month ≤ 2 then 1 else 0
    month := month.toNat
    day := (dayOfYear - (153 * marchMonth + 2) / 5 + 1).toNat }

/-- A calendar that answers where the counted days confirm the date. -/
def civilChrono : Chrono where
  addDays days := if (civilFromDays days).Valid ∧ (civilFromDays days).daysSinceEpoch = days
    then some (civilFromDays days) else none
  addMicroseconds micros :=
    let days := micros / 86400000000
    let clock := (micros % 86400000000).toNat
    if (civilFromDays days).Valid ∧ (civilFromDays days).daysSinceEpoch = days
    then some {
      date := civilFromDays days
      hour := clock / 3600000000
      minute := clock / 60000000 % 60
      second := clock / 1000000 % 60
      microsecond := clock % 1000000 }
    else none
  formatDate := Date.text
  formatDateTime := DateTime.text

theorem civilChrono_lawful : civilChrono.Lawful where
  addDays_sound := by
    intro days date h
    simp only [civilChrono] at h
    split_ifs at h with hconfirmed
    rw [← Option.some.inj h]
    exact hconfirmed
  addMicroseconds_sound := by
    intro micros value h
    simp only [civilChrono] at h
    split_ifs at h with hconfirmed
    rw [← Option.some.inj h]
    refine ⟨⟨hconfirmed.1, ?_⟩, ?_⟩
    · dsimp only
      omega
    · simp only [DateTime.microsecondsSinceEpoch, hconfirmed.2, clockMicroseconds]
      omega
  formatDate_eq := fun _ _ => rfl
  formatDateTime_eq := fun _ _ => rfl

theorem temporal_texts_faithful_leap_day :
    ("2000-02-29".toList ≠ "2000-03-01".toList ∧ Denotes .date [0, 0, 0, 59] "2000-02-29".toList ∧
      Denotes .date [0, 0, 0, 60] "2000-03-01".toList) ↔
      WholeMinutes .date [0, 0, 0, 59] ∧ WholeMinutes .date [0, 0, 0, 60] :=
  temporal_texts_faithful_iff civilChrono_lawful .date (by decide) (by decide +kernel)
    (by decide +kernel)

/-- Half a minute east of Greenwich prints as Greenwich. -/
theorem temporal_zone_seconds_lost :
    decodeTemporal civilChrono .timetz [0, 0, 0, 0, 0, 0, 0, 0, 0xFF, 0xFF, 0xFF, 0xE2] =
        .ok "00:00:00+00:00".toList ∧
      decodeTemporal civilChrono .timetz [0, 0, 0, 0, 0, 0, 0, 0, 0, 0, 0, 0] =
        .ok "00:00:00+00:00".toList ∧
      ¬ Denotes .timetz [0, 0, 0, 0, 0, 0, 0, 0, 0xFF, 0xFF, 0xFF, 0xE2]
        "00:00:00+00:00".toList := by
  have hdecode : decodePostgresTimetz [0, 0, 0, 0, 0, 0, 0, 0, 0xFF, 0xFF, 0xFF, 0xE2] =
      .ok "00:00:00+00:00".toList := by decide +kernel
  refine ⟨hdecode, by decide +kernel, ?_⟩
  rw [denotes_timetz_iff hdecode]
  decide +kernel

end Chat2DB.Postgres
