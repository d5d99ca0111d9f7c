import Chat2DB.Base.Decimal
import Chat2DB.Sql.AppError

/-! # Decimals of SQL Server

A decimal parameter is read from its text into the driver's unscaled value and
scale, and a value of the server is printed from them. What a text denotes is
stated apart from both: a sign or none, then digits with at most one point.
-/

namespace Chat2DB.SqlServer

open Decimal
open Sql (AppError)

variable {whole fraction : List Char} {numeric : Numeric} {sign : Sign}

/-- The driver's value: an unscaled `i128` and the number of digits behind the point. -/
structure Numeric where
  value : Int
  scale : Nat
deriving DecidableEq

/-! ## The source -/

/-- What stands before the first point and what stands behind it. -/
def splitPoint (unsigned : List Char) : List Char × List Char :=
  (unsigned.takeWhile (· ≠ '.'), (unsigned.dropWhile (· ≠ '.')).tail)

/-- `str::parse::<i128>` on digits, which fails where the number does not fit. -/
def parseI128 (digits : List Char) : Option Int :=
  if value digits < 2 ^ 127 then some (value digits) else none

def invalidDecimal : AppError :=
  .invalid "invalid_query_parameter" "The SQL Server decimal parameter is invalid"

/-- The digits before and behind the point as a numeric. -/
def parseParts (negative : Bool) (whole fraction : List Char) : Except AppError Numeric :=
  if (whole.isEmpty ∧ fraction.isEmpty) ∨ ¬ whole.all Char.isDigit ∨ ¬ fraction.all Char.isDigit ∨
      38 ≤ fraction.length then
    .error invalidDecimal
  else if 38 < (whole ++ fraction).length then
    .error (.invalid "invalid_query_parameter"
      "SQL Server decimal parameters cannot exceed 38 digits")
  else
    match parseI128 (whole ++ fraction) with
    | none => .error invalidDecimal
    | some integer =>
      -- `u8::try_from` of the number of fraction digits
      if fraction.length < 2 ^ 8 then
        .ok { value := if negative then -integer else integer, scale := fraction.length }
      else .error .internal

/-- A minus sign is taken off the front, and then a plus sign. -/
def parseDecimal (value : List Char) : Except AppError Numeric :=
  let signed := ((expectChar '-' value).map (true, ·)).getD (false, value)
  let unsigned := (expectChar '+' signed.2).getD signed.2
  parseParts signed.1 (splitPoint unsigned).1 (splitPoint unsigned).2

def formatNumeric (numeric : Numeric) : List Char :=
  if numeric.scale = 0 then intText numeric.value
  else
    let digits := Nat.toDigits 10 numeric.value.natAbs
    let padded :=
      if digits.length ≤ numeric.scale then
        List.replicate (numeric.scale + 1 - digits.length) '0' ++ digits
      else digits
    let split := padded.length - numeric.scale
    (if numeric.value < 0 then ['-'] else []) ++ padded.take split ++ '.' :: padded.drop split

/-! ## What a text denotes -/

inductive Sign where
  | none
  | plus
  | minus
deriving DecidableEq

def Sign.text : Sign → List Char
  | .none => []
  | .plus => ['+']
  | .minus => ['-']

def Sign.apply : Sign → ℚ → ℚ
  | .minus, number => -number
  | _, number => number

/-- A sign or none, then digits with at most one point among them. -/
structure Spells (text : List Char) (sign : Sign) (whole fraction : List Char) : Prop where
  whole_digits : AllDigits whole
  fraction_digits : AllDigits fraction
  nonempty : whole ++ fraction ≠ []
  text_eq : text = sign.text ++ whole ++ '.' :: fraction ∨ text = sign.text ++ whole ∧ fraction = []

/-- The rational number that a spelling denotes. -/
def denoted (sign : Sign) (whole fraction : List Char) : ℚ :=
  sign.apply (value whole + value fraction / 10 ^ fraction.length)

/-- The numeric is what the text denotes, with the fraction digits as written. -/
def Denotes (text : List Char) (numeric : Numeric) : Prop :=
  ∃ sign whole fraction, Spells text sign whole fraction ∧ numeric.scale = fraction.length ∧
    (numeric.value : ℚ) / 10 ^ numeric.scale = denoted sign whole fraction

/-- A text is read as what it denotes, within the integers of the program and within what
the driver's constructor asserts. -/
structure Exact (text : List Char) (numeric : Numeric) : Prop where
  denotes : Denotes text numeric
  fits : numeric.value.natAbs < 2 ^ 127
  scale_lt : numeric.scale < 38

/-! ## Reading the parts -/

theorem ten_pow_lt : 10 ^ 38 < 2 ^ 127 := by
  norm_num

def signed (negative : Bool) (magnitude : Nat) : Int :=
  if negative then -magnitude else magnitude

/-- The parts are read as digits of one number, which always fits. -/
theorem parseParts_eq_ok_iff {negative : Bool} :
    parseParts negative whole fraction = .ok numeric ↔
      (whole ++ fraction ≠ [] ∧ AllDigits whole ∧ AllDigits fraction ∧ fraction.length < 38 ∧
        (whole ++ fraction).length ≤ 38) ∧
      numeric = { value := signed negative (value (whole ++ fraction)), scale := fraction.length } := by
  have hdigits (text : List Char) : text.all Char.isDigit = true ↔ AllDigits text :=
    List.all_eq_true
  rw [parseParts]
  split
  next hparts =>
    constructor
    · intro h
      cases h
    · rintro ⟨⟨hne, hwhole, hfraction, hscale, -⟩, -⟩
      rcases hparts with ⟨hwholeNil, hfractionNil⟩ | hnot | hnot | hlong
      · rw [List.isEmpty_iff.1 hwholeNil, List.isEmpty_iff.1 hfractionNil] at hne
        exact absurd rfl hne
      · exact absurd ((hdigits whole).2 hwhole) hnot
      · exact absurd ((hdigits fraction).2 hfraction) hnot
      · omega
  next hparts =>
    simp only [not_or, not_not, hdigits, List.isEmpty_iff] at hparts
    obtain ⟨hne, hwhole, hfraction, hscale⟩ := hparts
    split
    next hlength =>
      constructor
      · intro h
        cases h
      · rintro ⟨⟨-, -, -, -, hfits⟩, -⟩
        omega
    next hlength =>
      have hless : value (whole ++ fraction) < 2 ^ 127 := by
        have hbound := value_lt ((allDigits_append _ _).2 ⟨hwhole, hfraction⟩)
        have hpow : 10 ^ (whole ++ fraction).length ≤ 10 ^ 38 :=
          Nat.pow_le_pow_right (by decide) (by omega)
        exact (hbound.trans_le hpow).trans ten_pow_lt
      have hbyte : fraction.length < 2 ^ 8 := by omega
      rw [parseI128, if_pos hless]
      dsimp only
      rw [if_pos hbyte]
      constructor
      · intro h
        refine ⟨⟨?_, hwhole, hfraction, by omega, by omega⟩, ?_⟩
        · simpa using hne
        · rw [← Except.ok.inj h, signed]
      · rintro ⟨-, rfl⟩
        rw [signed]

theorem splitPoint_append (hwhole : AllDigits whole) (fraction : List Char) :
    splitPoint (whole ++ '.' :: fraction) = (whole, fraction) := by
  have hno : ∀ c ∈ whole, decide (c ≠ '.') = true := by
    intro c hc
    apply decide_eq_true
    rintro rfl
    exact absurd (hwhole _ hc) (by decide)
  rw [splitPoint, List.takeWhile_append_of_pos hno, List.dropWhile_append_of_pos hno]
  simp

theorem splitPoint_digits (hwhole : AllDigits whole) :
    splitPoint whole = (whole, []) := by
  have hno : ∀ c ∈ whole, decide (c ≠ '.') = true := by
    intro c hc
    apply decide_eq_true
    rintro rfl
    exact absurd (hwhole _ hc) (by decide)
  rw [splitPoint, List.takeWhile_eq_self_iff.2 hno, List.dropWhile_eq_nil_iff.2 hno]
  rfl

theorem eq_of_splitPoint (unsigned : List Char) :
    unsigned = (splitPoint unsigned).1 ++ '.' :: (splitPoint unsigned).2 ∨
      unsigned = (splitPoint unsigned).1 ∧ (splitPoint unsigned).2 = [] := by
  induction unsigned with
  | nil => exact Or.inr ⟨rfl, rfl⟩
  | cons c unsigned ih =>
    by_cases hpoint : c = '.'
    · left
      rw [hpoint]
      simp [splitPoint]
    · have hcons : splitPoint (c :: unsigned) =
          (c :: (splitPoint unsigned).1, (splitPoint unsigned).2) := by
        simp [splitPoint, hpoint]
      rw [hcons]
      rcases ih with ih | ⟨ih, hnil⟩
      · left
        rw [List.cons_append, ← ih]
      · right
        exact ⟨by rw [← ih], hnil⟩

/-! ## Signs -/

theorem parseDecimal_sign (sign : Sign) {rest : List Char}
    (hplus : sign ≠ .plus → rest.head? ≠ some '+') (hminus : sign = .none → rest.head? ≠ some '-') :
    parseDecimal (sign.text ++ rest) =
      parseParts (sign = .minus) (splitPoint rest).1 (splitPoint rest).2 := by
  have hkeep {c : Char} (hc : rest.head? ≠ some c) : expectChar c rest = none := by
    cases rest with
    | nil => rfl
    | cons first rest =>
      apply if_neg
      rintro rfl
      exact hc rfl
  cases sign with
  | none => simp [parseDecimal, Sign.text, hkeep (hplus (by decide)), hkeep (hminus rfl)]
  | plus => simp [parseDecimal, Sign.text, expectChar]
  | minus => simp [parseDecimal, Sign.text, expectChar_self, hkeep (hplus (by decide))]

theorem exists_sign {text : List Char} (hdoubled : ¬ ['-', '+'] <+: text) :
    ∃ sign rest, text = Sign.text sign ++ rest ∧ (sign ≠ .plus → rest.head? ≠ some '+') ∧
      (sign = .none → rest.head? ≠ some '-') := by
  by_cases hminus : text.head? = some '-'
  · obtain ⟨rest, rfl⟩ := List.head?_eq_some_iff.1 hminus
    refine ⟨.minus, rest, rfl, fun _ hplus => hdoubled ?_, fun h => by cases h⟩
    obtain ⟨rest, rfl⟩ := List.head?_eq_some_iff.1 hplus
    exact ⟨rest, rfl⟩
  · by_cases hplus : text.head? = some '+'
    · obtain ⟨rest, rfl⟩ := List.head?_eq_some_iff.1 hplus
      exact ⟨.plus, rest, rfl, fun h => absurd rfl h, fun h => by cases h⟩
    · exact ⟨.none, text, rfl, fun _ => hplus, fun _ => hminus⟩

theorem head?_digits {tail : List Char} {c : Char} (hwhole : AllDigits whole)
    (hc : c.isDigit = false) (htail : tail.head? ≠ some c) : (whole ++ tail).head? ≠ some c := by
  cases whole with
  | nil => exact htail
  | cons first whole =>
    intro hhead
    have hfirst : first = c := Option.some.inj hhead
    rw [← hfirst, hwhole first List.mem_cons_self] at hc
    exact absurd hc (by decide)

theorem Spells.exists_rest {text : List Char} (hspells : Spells text sign whole fraction) :
    ∃ rest, text = sign.text ++ rest ∧ rest.head? ≠ some '+' ∧ rest.head? ≠ some '-' ∧
      splitPoint rest = (whole, fraction) := by
  have hwhole := hspells.whole_digits
  rcases hspells.text_eq with htext | ⟨htext, rfl⟩
  · refine ⟨whole ++ '.' :: fraction, by rw [htext, List.append_assoc], ?_, ?_,
      splitPoint_append hwhole fraction⟩
    · exact head?_digits hwhole (by decide) (by simp)
    · exact head?_digits hwhole (by decide) (by simp)
  · rw [← List.append_nil whole] at htext
    refine ⟨whole ++ [], htext, ?_, ?_, by rw [List.append_nil, splitPoint_digits hwhole]⟩
    · exact head?_digits hwhole (by decide) (by simp)
    · exact head?_digits hwhole (by decide) (by simp)

theorem Spells.not_doubled {text : List Char} (hspells : Spells text sign whole fraction) :
    ¬ ['-', '+'] <+: text := by
  obtain ⟨rest, rfl, hplus, hminus, -⟩ := hspells.exists_rest
  rintro ⟨tail, htail⟩
  cases sign with
  | none =>
    apply hminus
    rw [Sign.text, List.nil_append] at htail
    rw [← htail]
    rfl
  | plus => simp [Sign.text] at htail
  | minus =>
    apply hplus
    have hrest : '+' :: tail = rest := (List.cons.inj htail).2
    rw [← hrest]
    rfl

/-! ## Reading what is printed, and what is read -/

theorem value_parts (sign : Sign) (whole fraction : List Char) :
    (signed (sign = .minus) (value (whole ++ fraction)) : ℚ) / 10 ^ fraction.length =
      denoted sign whole fraction := by
  have hvalue : (value (whole ++ fraction) : ℚ) / 10 ^ fraction.length =
      value whole + value fraction / 10 ^ fraction.length := by
    rw [value_append]
    push_cast
    field_simp
  cases sign <;> simp only [signed, denoted, Sign.apply, ← hvalue] <;> simp [neg_div]

theorem exact_of_parse {text : List Char} (hdoubled : ¬ ['-', '+'] <+: text)
    (hread : parseDecimal text = .ok numeric) : Exact text numeric := by
  obtain ⟨sign, rest, rfl, hplus, hminus⟩ := exists_sign hdoubled
  rw [parseDecimal_sign sign hplus hminus] at hread
  obtain ⟨⟨hne, hwhole, hfraction, hscale, hlength⟩, rfl⟩ := parseParts_eq_ok_iff.1 hread
  refine ⟨⟨sign, _, _, ⟨hwhole, hfraction, hne, ?_⟩, rfl, value_parts sign _ _⟩, ?_, hscale⟩
  · rcases eq_of_splitPoint rest with hrest | ⟨hrest, hnil⟩
    · left
      conv_lhs => rw [hrest]
      rw [List.append_assoc]
    · right
      exact ⟨by rw [← hrest], hnil⟩
  · have hbound := value_lt ((allDigits_append _ _).2 ⟨hwhole, hfraction⟩)
    have hpow : 10 ^ ((splitPoint rest).1 ++ (splitPoint rest).2).length ≤ 10 ^ 38 :=
      Nat.pow_le_pow_right (by decide) hlength
    have hless := (hbound.trans_le hpow).trans ten_pow_lt
    dsimp only [signed]
    split <;> omega

theorem parseDecimal_spells {text : List Char}
    (hspells : Spells text sign whole fraction) (hscale : fraction.length < 38)
    (hlength : (whole ++ fraction).length ≤ 38) :
    parseDecimal text = .ok
      { value := signed (sign = .minus) (value (whole ++ fraction)), scale := fraction.length } := by
  obtain ⟨rest, rfl, hplus, hminus, hsplit⟩ := hspells.exists_rest
  rw [parseDecimal_sign sign (fun _ => hplus) (fun _ => hminus), hsplit]
  exact parseParts_eq_ok_iff.2 ⟨⟨hspells.nonempty, hspells.whole_digits, hspells.fraction_digits,
    hscale, hlength⟩, rfl⟩

def signOf (number : Int) : Sign :=
  if number < 0 then .minus else .none

theorem signed_signOf (number : Int) : signed (signOf number = .minus) number.natAbs = number := by
  rw [signOf]
  split
  · simp only [signed, decide_true, if_true]
    omega
  · simp only [signed, reduceCtorEq, decide_false, Bool.false_eq_true, if_false]
    omega

theorem formatNumeric_eq (hscale : numeric.scale ≠ 0) :
    formatNumeric numeric =
      let digits := padded (numeric.scale + 1) numeric.value.natAbs
      (signOf numeric.value).text ++ digits.take (digits.length - numeric.scale) ++
        '.' :: digits.drop (digits.length - numeric.scale) := by
  have hpadded : (if (Nat.toDigits 10 numeric.value.natAbs).length ≤ numeric.scale then
        List.replicate (numeric.scale + 1 - (Nat.toDigits 10 numeric.value.natAbs).length) '0' ++
          Nat.toDigits 10 numeric.value.natAbs
      else Nat.toDigits 10 numeric.value.natAbs) =
        padded (numeric.scale + 1) numeric.value.natAbs := by
    rw [padded]
    split
    · rfl
    · rw [Nat.sub_eq_zero_of_le (by omega), List.replicate_zero, List.nil_append]
  have hsign : (if numeric.value < 0 then ['-'] else []) = (signOf numeric.value).text := by
    rw [signOf]
    split <;> rfl
  rw [formatNumeric, if_neg hscale]
  dsimp only
  rw [hpadded, hsign]

theorem length_padded_le {width number limit : Nat} (hwidth : width ≤ limit) (hlimit : 0 < limit)
    (hnumber : number < 10 ^ limit) : (padded width number).length ≤ limit := by
  have hdigits : (Nat.toDigits 10 number).length ≤ limit :=
    (Nat.length_toDigits_le_iff (by decide) hlimit).2 hnumber
  rw [padded, List.length_append, List.length_replicate]
  omega

/-- A number that is written is read back. -/
theorem parseDecimal_formatNumeric (hscale : numeric.scale < 38)
    (hvalue : numeric.value.natAbs < 10 ^ 38) :
    parseDecimal (formatNumeric numeric) = .ok numeric := by
  by_cases hzero : numeric.scale = 0
  · have hspells : Spells (formatNumeric numeric) (signOf numeric.value)
        (padded 0 numeric.value.natAbs) [] := by
      refine ⟨allDigits_padded _ _, allDigits_nil, ?_, Or.inr ⟨?_, rfl⟩⟩
      · rw [List.append_nil]
        exact padded_ne_nil _ _
      · rw [formatNumeric, if_pos hzero, intText, padded_zero, signOf]
        split <;> rfl
    rw [parseDecimal_spells hspells (by simp) (by
      rw [List.append_nil]
      exact length_padded_le (by omega) (by omega) hvalue)]
    rw [List.append_nil, value_padded, signed_signOf, List.length_nil, ← hzero]
  · have hlength : (padded (numeric.scale + 1) numeric.value.natAbs).length ≤ 38 :=
      length_padded_le (by omega) (by omega) hvalue
    have hlong : numeric.scale < (padded (numeric.scale + 1) numeric.value.natAbs).length := by
      rw [padded, List.length_append, List.length_replicate]
      omega
    have hformat := formatNumeric_eq hzero
    have hpadded := allDigits_padded (numeric.scale + 1) numeric.value.natAbs
    have hprinted := value_padded (numeric.scale + 1) numeric.value.natAbs
    have hne := padded_ne_nil (numeric.scale + 1) numeric.value.natAbs
    dsimp only at hformat
    generalize padded (numeric.scale + 1) numeric.value.natAbs = digits at *
    have hjoined := List.take_append_drop (digits.length - numeric.scale) digits
    have hfraction : (digits.drop (digits.length - numeric.scale)).length = numeric.scale := by
      rw [List.length_drop]
      omega
    have hspells : Spells (formatNumeric numeric) (signOf numeric.value)
        (digits.take (digits.length - numeric.scale))
        (digits.drop (digits.length - numeric.scale)) := by
      refine ⟨allDigits_take hpadded _, fun c hc => hpadded c (List.mem_of_mem_drop hc), ?_,
        Or.inl hformat⟩
      rwa [hjoined]
    rw [parseDecimal_spells hspells (by rwa [hfraction]) (by rwa [hjoined]), hjoined, hprinted,
      signed_signOf, hfraction]

/-- A printed decimal is read back as it was, and a text that is read denotes what it is
read as unless a plus sign stands behind a minus sign in front of it. -/
theorem parseDecimal_exact (numeric read : Numeric) (text : List Char) :
    (numeric.scale < 38 → numeric.value.natAbs < 10 ^ 38 →
      parseDecimal (formatNumeric numeric) = .ok numeric) ∧
    (parseDecimal text = .ok read → (Exact text read ↔ ¬ ['-', '+'] <+: text)) := by
  refine ⟨parseDecimal_formatNumeric, fun hread => ⟨?_, fun hdoubled => ?_⟩⟩
  · rintro ⟨⟨sign, whole, fraction, hspells, -⟩, -, -⟩
    exact hspells.not_doubled
  · exact exact_of_parse hdoubled hread

theorem negativeFraction_exact :
    parseDecimal (formatNumeric { value := -5, scale := 2 }) = .ok { value := -5, scale := 2 } ∧
    Exact "-0.05".toList { value := -5, scale := 2 } := by
  have hlaw := parseDecimal_exact { value := -5, scale := 2 } { value := -5, scale := 2 }
    "-0.05".toList
  have hread : parseDecimal "-0.05".toList = .ok { value := -5, scale := 2 } := by
    decide +kernel
  exact ⟨hlaw.1 (by decide) (by decide), (hlaw.2 hread).2 (by decide +kernel)⟩

/-- A minus sign with a plus sign behind it is read as a minus sign. -/
theorem doubledSign_read :
    parseDecimal "-+5".toList = .ok { value := -5, scale := 0 } ∧
    ¬ Exact "-+5".toList { value := -5, scale := 0 } := by
  refine ⟨by decide +kernel, ?_⟩
  rintro ⟨⟨sign, whole, fraction, hspells, -⟩, -, -⟩
  exact hspells.not_doubled ⟨['5'], rfl⟩

end Chat2DB.SqlServer
