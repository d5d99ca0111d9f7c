import Chat2DB.Postgres.Reading
import Chat2DB.Base.Decimal

/-! # Decoding PostgreSQL numerics

A numeric payload holds groups of four decimal digits around a point that the
weight places. The text is exactly the number cut to its display scale, with
one exception: a negative payload whose digits all disappear keeps its minus
sign when the weight asks for more than one integer group.
-/

namespace Chat2DB.Postgres

open Chat2DB.Sql Outcome

variable {digits : List Nat} {raw : List UInt8}

/-- The pairs of bytes in front, without a last odd byte. -/
def asChunks : List UInt8 → List (List UInt8)
  | first :: second :: rest => [first, second] :: asChunks rest
  | _ => []

/-- The digits in front of the point, as many groups as the weight asks for. -/
def integerText (integerGroups : Nat) (digits : List Nat) : List Char :=
  if integerGroups = 0 then ['0']
  else (List.range integerGroups).flatMap fun group =>
    if group = 0 then Nat.toDigits 10 (digits.getD group 0)
    else Decimal.padded 4 (digits.getD group 0)

/-- The digits behind the point, brought to the display scale. -/
def fractionText (weight : Int) (scale : Nat) (digits : List Nat) : List Char :=
  if 0 < scale then
    let leadingGroups := (-weight - 1).toNat
    let start := if 0 ≤ weight then (weight + 1).toNat else 0
    Decimal.scaled scale ((List.replicate leadingGroups ['0', '0', '0', '0']).flatten ++
      (digits.drop start).flatMap (Decimal.padded 4))
  else []

def numericText (weight : Int) (sign scale : Nat) (digits : List Nat) : List Char :=
  let integer := integerText (weight + 1).toNat digits
  let fraction := fractionText weight scale digits
  let negative := sign = 0x4000 ∧ (integer ≠ ['0'] ∨ fraction.any (· ≠ '0') = true)
  let trimmed := integer.dropWhile (· = '0')
  let normalizedInteger := if trimmed = [] then ['0'] else trimmed
  (if negative then ['-'] else []) ++ normalizedInteger ++
    (if scale = 0 then [] else '.' :: fraction)

def decodePostgresNumeric (raw : List UInt8) : Except AppError (List Char) := do
  rejectIf (raw.length < 8 ∨ raw.length % 2 ≠ 0) resultDecodeError
  let digitCount ← readI16 (raw.take 2)
  rejectIf (digitCount < 0) resultDecodeError
  let weight ← readI16 ((raw.drop 2).take 2)
  let sign ← readU16 ((raw.drop 4).take 2)
  let scale ← readU16 ((raw.drop 6).take 2)
  rejectIf (raw.length ≠ 8 + digitCount.toNat * 2) resultDecodeError
  if sign = 0xC000 then return "NaN".toList
  else if sign = 0xD000 then return "Infinity".toList
  else if sign = 0xF000 then return "-Infinity".toList
  else
    rejectIf (sign ≠ 0x0000 ∧ sign ≠ 0x4000) resultDecodeError
    ensurePostgresScalarSize (max (weight + 1).toNat 1 * 4 + scale + 2)
    let digits ← (asChunks (raw.drop 8)).mapM readU16
    rejectIf (∃ digit ∈ digits, 9999 < digit) resultDecodeError
    return numericText weight sign scale digits

/-! ## What a payload says -/

/-- The two bytes from `position` on as an unsigned number. -/
def word (raw : List UInt8) (position : Nat) : Nat :=
  bigEndian ((raw.drop position).take 2)

def digitCountOf (raw : List UInt8) : Int :=
  signed 2 (word raw 0)

def weightOf (raw : List UInt8) : Int :=
  signed 2 (word raw 2)

def signOf (raw : List UInt8) : Nat :=
  word raw 4

def scaleOf (raw : List UInt8) : Nat :=
  word raw 6

/-- The base-10000 digits, most significant first. -/
def digitsOf (raw : List UInt8) : List Nat :=
  (List.range ((raw.length - 8) / 2)).map fun index => word raw (8 + 2 * index)

/-- The payload is as long as its header and the digits that it announces. -/
def ConsistentLength (raw : List UInt8) : Prop :=
  8 ≤ raw.length ∧ (raw.length : Int) = 8 + 2 * digitCountOf raw

def FiniteSign (raw : List UInt8) : Prop :=
  signOf raw = 0x0000 ∨ signOf raw = 0x4000

def SpecialSign (raw : List UInt8) : Prop :=
  signOf raw = 0xC000 ∨ signOf raw = 0xD000 ∨ signOf raw = 0xF000

/-- A finite number: a consistent length, a finite sign and digits below 10000. -/
def FiniteNumeric (raw : List UInt8) : Prop :=
  ConsistentLength raw ∧ FiniteSign raw ∧ ∀ digit ∈ digitsOf raw, digit < 10000

/-- The length contradicts the count, the sign is unknown, or a finite number
holds a digit that is none. -/
def InconsistentNumeric (raw : List UInt8) : Prop :=
  ¬ ConsistentLength raw ∨ (¬ FiniteSign raw ∧ ¬ SpecialSign raw) ∨
    (FiniteSign raw ∧ ∃ digit ∈ digitsOf raw, 10000 ≤ digit)

/-- The sum of digit `i` times 10000 to the power `weight - i`. -/
def magnitude (weight : Int) (digits : List Nat) : ℚ :=
  ∑ i ∈ Finset.range digits.length, (digits.getD i 0 : ℚ) * 10000 ^ (weight - i)

/-- The magnitude in units of the display scale, rounded toward zero. -/
def unitsOf (raw : List UInt8) : Nat :=
  ⌊magnitude (weightOf raw) (digitsOf raw) * 10 ^ scaleOf raw⌋₊

/-- A number of units of `10 ^ -scale` in decimal: no zero in front of another
integer digit, `scale` fraction digits, a minus sign only before a number that is not zero. -/
def decimalText (negative : Bool) (scale units : Nat) : List Char :=
  (if negative = true ∧ units ≠ 0 then ['-'] else []) ++ Nat.toDigits 10 (units / 10 ^ scale) ++
    (if scale = 0 then [] else '.' :: Decimal.padded scale (units % 10 ^ scale))

def exactText (raw : List UInt8) : List Char :=
  decimalText (signOf raw = 0x4000) (scaleOf raw) (unitsOf raw)

/-- A finite number decodes to its exact text, unless that exceeds the scalar
limit, and an inconsistent payload is rejected. -/
def DecodesExactly (raw : List UInt8) : Prop :=
  (FiniteNumeric raw → decodePostgresNumeric raw = .ok (exactText raw) ∨
    (Wire.maxScalarBytes < (exactText raw).length ∧
      ∃ error, decodePostgresNumeric raw = .error error)) ∧
  (InconsistentNumeric raw → ∃ error, decodePostgresNumeric raw = .error error)

/-- A negative number below one unit of its scale, with more than one integer group. -/
def PaddedNegativeZero (raw : List UInt8) : Prop :=
  FiniteNumeric raw ∧ signOf raw = 0x4000 ∧ 1 ≤ weightOf raw ∧
    magnitude (weightOf raw) (digitsOf raw) * 10 ^ scaleOf raw < 1

/-! ## Groups of four digits -/

/-- The number that base-10000 digits denote. -/
def groupsValue (digits : List Nat) : Nat :=
  digits.foldl (fun number digit => number * 10000 + digit) 0

theorem groupsValue_concat (digits : List Nat) (digit : Nat) :
    groupsValue (digits ++ [digit]) = groupsValue digits * 10000 + digit := by
  rw [groupsValue, List.foldl_append]
  rfl

theorem groupsValue_append (left right : List Nat) :
    groupsValue (left ++ right) = groupsValue left * 10000 ^ right.length + groupsValue right := by
  induction right using List.reverseRecOn with
  | nil => simp [groupsValue]
  | append_singleton right digit ih =>
    rw [← List.append_assoc, groupsValue_concat, ih, groupsValue_concat, List.length_append,
      List.length_singleton]
    ring

def paddedGroups (digits : List Nat) : List Char :=
  digits.flatMap (Decimal.padded 4)

theorem allDigits_paddedGroups (digits : List Nat) : Decimal.AllDigits (paddedGroups digits) := by
  intro c hc
  obtain ⟨digit, _, hmem⟩ := List.mem_flatMap.1 hc
  exact Decimal.allDigits_padded 4 digit c hmem

theorem length_paddedGroups (h : ∀ digit ∈ digits, digit < 10000) :
    (paddedGroups digits).length = 4 * digits.length := by
  induction digits with
  | nil => rfl
  | cons digit digits ih =>
    have hfirst : (Decimal.padded 4 digit).length = 4 :=
      Decimal.length_padded (by decide) (h digit (by simp))
    have hrest := ih fun other hother => h other (List.mem_cons_of_mem _ hother)
    rw [paddedGroups, List.flatMap_cons, List.length_append, hfirst, List.length_cons]
    rw [paddedGroups] at hrest
    omega

theorem value_paddedGroups (h : ∀ digit ∈ digits, digit < 10000) :
    Decimal.value (paddedGroups digits) = groupsValue digits := by
  induction digits using List.reverseRecOn with
  | nil => rfl
  | append_singleton digits digit ih =>
    have hlast : (Decimal.padded 4 digit).length = 4 :=
      Decimal.length_padded (by decide) (h digit (by simp))
    have hrest := ih fun other hother => h other (List.mem_append_left _ hother)
    rw [paddedGroups] at hrest
    rw [paddedGroups, List.flatMap_append, List.flatMap_singleton, Decimal.value_append, hrest,
      hlast, Decimal.value_padded, groupsValue_concat]
    norm_num

theorem allDigits_integerText (integerGroups : Nat) (digits : List Nat) :
    Decimal.AllDigits (integerText integerGroups digits) := by
  intro c hc
  rw [integerText] at hc
  split_ifs at hc with hzero
  · simp at hc
    simp [hc]
  · obtain ⟨group, _, hmem⟩ := List.mem_flatMap.1 hc
    split_ifs at hmem
    · exact Decimal.allDigits_toDigits _ c hmem
    · exact Decimal.allDigits_padded 4 _ c hmem

/-- The groups in front of the point, with zeros for those that the payload leaves out. -/
def wholeGroups (integerGroups : Nat) (digits : List Nat) : List Nat :=
  (List.range integerGroups).map fun group => digits.getD group 0

theorem length_wholeGroups (integerGroups : Nat) (digits : List Nat) :
    (wholeGroups integerGroups digits).length = integerGroups := by
  simp [wholeGroups]

theorem wholeGroups_eq (integerGroups : Nat) (digits : List Nat) :
    wholeGroups integerGroups digits =
      digits.take integerGroups ++ List.replicate (integerGroups - digits.length) 0 := by
  apply List.ext_getElem?
  intro group
  by_cases hgroup : group < integerGroups
  · by_cases hinside : group < digits.length
    · rw [List.getElem?_append_left (by simp; omega)]
      simp [wholeGroups, hgroup, hinside]
    · rw [List.getElem?_append_right (by simp; omega),
        List.getElem?_replicate_of_lt (by simp; omega)]
      simp [wholeGroups, hgroup, hinside]
  · rw [List.getElem?_eq_none (by simp [wholeGroups]; omega),
      List.getElem?_eq_none (by simp; omega)]

theorem wholeGroups_succ (integerGroups : Nat) (digits : List Nat) :
    wholeGroups (integerGroups + 1) digits =
      digits.getD 0 0 :: (List.range integerGroups).map fun group => digits.getD (group + 1) 0 := by
  rw [wholeGroups, List.range_succ_eq_map, List.map_cons, List.map_map]
  rfl

theorem integerText_succ (integerGroups : Nat) (digits : List Nat) :
    integerText (integerGroups + 1) digits = Nat.toDigits 10 (digits.getD 0 0) ++
      paddedGroups ((List.range integerGroups).map fun group => digits.getD (group + 1) 0) := by
  rw [integerText, if_neg (Nat.succ_ne_zero _), List.range_succ_eq_map, List.flatMap_cons,
    paddedGroups, List.flatMap_map, List.flatMap_map]
  rfl

theorem mem_wholeGroups_lt (h : ∀ digit ∈ digits, digit < 10000)
    (integerGroups : Nat) {digit : Nat} (hdigit : digit ∈ wholeGroups integerGroups digits) :
    digit < 10000 := by
  obtain ⟨group, _, rfl⟩ := List.mem_map.1 hdigit
  by_cases hgroup : group < digits.length
  · rw [List.getD_eq_getElem _ _ hgroup]
    exact h _ (List.getElem_mem hgroup)
  · rw [List.getD_eq_default _ _ (by omega)]
    decide

theorem value_integerText (h : ∀ digit ∈ digits, digit < 10000) (integerGroups : Nat) :
    Decimal.value (integerText integerGroups digits) =
      groupsValue (wholeGroups integerGroups digits) := by
  cases integerGroups with
  | zero => rfl
  | succ integerGroups =>
    have hrest : ∀ digit ∈ (List.range integerGroups).map fun group => digits.getD (group + 1) 0,
        digit < 10000 := by
      intro digit hdigit
      apply mem_wholeGroups_lt h (integerGroups + 1)
      rw [wholeGroups_succ]
      exact List.mem_cons_of_mem _ hdigit
    have hgroups : ∀ (first : Nat) (rest : List Nat),
        groupsValue (first :: rest) = first * 10000 ^ rest.length + groupsValue rest := by
      intro first rest
      rw [← List.singleton_append, groupsValue_append]
      simp [groupsValue]
    rw [integerText_succ, wholeGroups_succ, Decimal.value_append, Decimal.value_toDigits,
      length_paddedGroups hrest, value_paddedGroups hrest, hgroups, pow_mul]
    norm_num

theorem integerText_of_le_one {integerGroups : Nat} (h : integerGroups ≤ 1) (digits : List Nat) :
    integerText integerGroups digits =
      Nat.toDigits 10 (groupsValue (wholeGroups integerGroups digits)) := by
  obtain rfl | rfl : integerGroups = 0 ∨ integerGroups = 1 := by omega
  · simp [integerText, wholeGroups, groupsValue]
  · rw [integerText_succ, wholeGroups_succ]
    simp [paddedGroups, groupsValue]

theorem integerText_ne_zero {integerGroups : Nat} (h : 2 ≤ integerGroups)
    (hdigits : ∀ digit ∈ digits, digit < 10000) : integerText integerGroups digits ≠ ['0'] := by
  obtain ⟨others, rfl⟩ : ∃ others, integerGroups = others + 1 + 1 :=
    ⟨integerGroups - 2, by omega⟩
  intro hzero
  have hlength := congrArg List.length hzero
  have hfirst := Nat.length_toDigits_pos (b := 10) (n := digits.getD 0 0)
  rw [integerText_succ, List.length_append, length_paddedGroups, List.length_map,
    List.length_range, List.length_singleton] at hlength
  · omega
  · intro digit hdigit
    apply mem_wholeGroups_lt hdigits (others + 1 + 1)
    rw [wholeGroups_succ]
    exact List.mem_cons_of_mem _ hdigit

/-- The groups behind the point, with the zero groups that a negative weight puts in front. -/
def fractionGroups (weight : Int) (digits : List Nat) : List Nat :=
  if 0 ≤ weight then digits.drop (weight + 1).toNat
  else List.replicate (-weight - 1).toNat 0 ++ digits

theorem mem_fractionGroups_lt (h : ∀ digit ∈ digits, digit < 10000)
    {weight : Int} {digit : Nat} (hdigit : digit ∈ fractionGroups weight digits) :
    digit < 10000 := by
  rw [fractionGroups] at hdigit
  split_ifs at hdigit with hweight
  · exact h digit (List.mem_of_mem_drop hdigit)
  · rcases List.mem_append.1 hdigit with hzero | hmem
    · rw [List.eq_of_mem_replicate hzero]
      decide
    · exact h digit hmem

theorem fractionText_eq {scale : Nat} (hscale : 0 < scale) (weight : Int) (digits : List Nat) :
    fractionText weight scale digits =
      Decimal.scaled scale (paddedGroups (fractionGroups weight digits)) := by
  have hzeros : ∀ count, (List.replicate count ['0', '0', '0', '0']).flatten =
      paddedGroups (List.replicate count 0) := by
    intro count
    rw [paddedGroups, List.flatMap_def, List.map_replicate]
    rfl
  rw [fractionText, if_pos hscale, fractionGroups]
  split_ifs with hweight
  · rw [show (-weight - 1).toNat = 0 by omega]
    rfl
  · simp only [hzeros, paddedGroups, List.flatMap_append, List.drop_zero]

/-! ## The exact number -/

theorem magnitude_nil (weight : Int) : magnitude weight [] = 0 := by
  simp [magnitude]

theorem magnitude_cons (weight : Int) (digit : Nat) (digits : List Nat) :
    magnitude weight (digit :: digits) = digit * 10000 ^ weight + magnitude (weight - 1) digits := by
  rw [magnitude, List.length_cons, Finset.sum_range_succ', add_comm, magnitude]
  congr 1
  · simp
  · apply Finset.sum_congr rfl
    intro i _
    rw [List.getD_cons_succ]
    congr 2
    push_cast
    ring

theorem magnitude_append (weight : Int) (left right : List Nat) :
    magnitude weight (left ++ right) =
      magnitude weight left + magnitude (weight - left.length) right := by
  induction left generalizing weight with
  | nil => simp [magnitude_nil]
  | cons digit left ih =>
    rw [List.cons_append, magnitude_cons, magnitude_cons, ih, add_assoc]
    congr 3
    rw [List.length_cons]
    push_cast
    ring

theorem magnitude_replicate_zero (weight : Int) (count : Nat) :
    magnitude weight (List.replicate count 0) = 0 := by
  induction count generalizing weight with
  | zero => exact magnitude_nil weight
  | succ count ih =>
    rw [List.replicate_succ, magnitude_cons, ih]
    simp

theorem magnitude_eq (weight : Int) (digits : List Nat) :
    magnitude weight digits = groupsValue digits * 10000 ^ (weight + 1 - digits.length) := by
  induction digits using List.reverseRecOn with
  | nil => simp [magnitude_nil, groupsValue]
  | append_singleton digits digit ih =>
    have hpow : (10000 : ℚ) ^ (weight + 1 - digits.length) =
        10000 * 10000 ^ (weight - digits.length) := by
      rw [← zpow_one_add₀ (by norm_num)]
      congr 1
      ring
    have hlast : weight + 1 - ((digits ++ [digit]).length : Int) = weight - digits.length := by
      rw [List.length_append, List.length_singleton]
      push_cast
      ring
    rw [magnitude_append, ih, magnitude_cons, magnitude_nil, groupsValue_concat, hlast, hpow]
    push_cast
    ring

/-- The groups before the point and those behind it make up the number. -/
theorem magnitude_split (weight : Int) (digits : List Nat) :
    magnitude weight digits = groupsValue (wholeGroups (weight + 1).toNat digits) +
      groupsValue (fractionGroups weight digits) /
        10000 ^ (fractionGroups weight digits).length := by
  have hfraction : ∀ groups : List Nat,
      magnitude (-1) groups = groupsValue groups / 10000 ^ groups.length := by
    intro groups
    rw [magnitude_eq, neg_add_cancel, zero_sub, zpow_neg, zpow_natCast, div_eq_mul_inv]
  by_cases hweight : 0 ≤ weight
  · have hgroups : fractionGroups weight digits = digits.drop (weight + 1).toNat := by
      rw [fractionGroups, if_pos hweight]
    have hwhole : (groupsValue (wholeGroups (weight + 1).toNat digits) : ℚ) =
        magnitude weight (digits.take (weight + 1).toNat) := by
      have hexponent : weight + 1 - ((weight + 1).toNat : Int) = 0 := by omega
      have hvalue := magnitude_eq weight (wholeGroups (weight + 1).toNat digits)
      rw [length_wholeGroups, hexponent, zpow_zero, mul_one] at hvalue
      rw [← hvalue, wholeGroups_eq, magnitude_append, magnitude_replicate_zero, add_zero]
    have hrest : magnitude (weight - (digits.take (weight + 1).toNat).length)
        (digits.drop (weight + 1).toNat) = magnitude (-1) (digits.drop (weight + 1).toNat) := by
      by_cases hlength : (weight + 1).toNat ≤ digits.length
      · rw [List.length_take, Nat.min_eq_left hlength]
        congr 1
        omega
      · rw [List.drop_of_length_le (by omega), magnitude_nil, magnitude_nil]
    rw [hwhole, hgroups, ← hfraction, ← hrest, ← magnitude_append, List.take_append_drop]
  · have hgroups : fractionGroups weight digits =
        List.replicate (-weight - 1).toNat 0 ++ digits := by
      rw [fractionGroups, if_neg hweight]
    have hnone : (weight + 1).toNat = 0 := by omega
    have hshift : (-1 : Int) - ((List.replicate (-weight - 1).toNat 0 : List Nat).length : Int) =
        weight := by
      rw [List.length_replicate]
      omega
    rw [← hfraction, hgroups, magnitude_append, magnitude_replicate_zero, hshift, hnone]
    simp [wholeGroups, groupsValue]

theorem floor_units (whole part length scale : Nat) :
    ⌊((whole : ℚ) + part / 10 ^ length) * 10 ^ scale⌋₊ =
      whole * 10 ^ scale + part * 10 ^ scale / 10 ^ length := by
  have hquotient : ((whole : ℚ) + part / 10 ^ length) * 10 ^ scale =
      ((whole * 10 ^ length + part) * 10 ^ scale : Nat) / (10 ^ length : Nat) := by
    push_cast
    field_simp
  rw [hquotient, Nat.floor_div_eq_div, Nat.add_mul, Nat.mul_right_comm, Nat.mul_comm (whole * _),
    Nat.mul_add_div (by positivity)]

/-- The text of a number is that of its units, shifted by the scale. -/
theorem numericText_eq (h : ∀ digit ∈ digits, digit < 10000) (weight : Int) (sign scale : Nat) :
    let units := ⌊magnitude weight digits * 10 ^ scale⌋₊
    numericText weight sign scale digits =
      (if sign = 0x4000 ∧ (1 ≤ weight ∨ units ≠ 0) then ['-'] else []) ++
        Nat.toDigits 10 (units / 10 ^ scale) ++
        (if scale = 0 then [] else '.' :: Decimal.padded scale (units % 10 ^ scale)) := by
  intro units
  have hwhole := value_integerText h (weight + 1).toNat
  have hunits : units = groupsValue (wholeGroups (weight + 1).toNat digits) * 10 ^ scale +
      Decimal.value (Decimal.scaled scale (paddedGroups (fractionGroups weight digits))) := by
    rw [Decimal.value_scaled (allDigits_paddedGroups _),
      value_paddedGroups fun digit => mem_fractionGroups_lt h,
      length_paddedGroups fun digit => mem_fractionGroups_lt h, ← floor_units]
    simp only [units]
    rw [magnitude_split, pow_mul]
    norm_num
  have hdigits := Decimal.allDigits_scaled
    (allDigits_paddedGroups (fractionGroups weight digits)) scale
  have hsmall := Decimal.value_lt hdigits
  rw [Decimal.length_scaled] at hsmall
  have hdiv : units / 10 ^ scale = groupsValue (wholeGroups (weight + 1).toNat digits) := by
    rw [hunits, Nat.mul_comm, Nat.mul_add_div (by positivity), Nat.div_eq_of_lt hsmall,
      Nat.add_zero]
  have hmod : units % 10 ^ scale =
      Decimal.value (Decimal.scaled scale (paddedGroups (fractionGroups weight digits))) := by
    rw [hunits, Nat.mul_comm, Nat.mul_add_mod, Nat.mod_eq_of_lt hsmall]
  have hfraction : fractionText weight scale digits =
      if scale = 0 then [] else Decimal.padded scale (units % 10 ^ scale) := by
    split_ifs with hscale
    · rw [fractionText, if_neg (by omega)]
    · have hpadded := Decimal.eq_padded hdigits (by
        rw [← List.length_pos_iff, Decimal.length_scaled]
        omega)
      rw [Decimal.length_scaled, ← hmod] at hpadded
      rw [fractionText_eq (by omega), hpadded]
  have hvisible : (fractionText weight scale digits).any (· ≠ '0') = true ↔
      units % 10 ^ scale ≠ 0 := by
    simp only [List.any_eq_true, decide_eq_true_eq]
    by_cases hscale : scale = 0
    · simp [fractionText, hscale, Nat.mod_one]
    · rw [fractionText_eq (by omega), hmod, Ne, Decimal.value_eq_zero_iff hdigits]
      push Not
      rfl
  -- the sign is decided on the printed digits, not on the number
  have hnegative : (integerText (weight + 1).toNat digits ≠ ['0'] ∨
      (fractionText weight scale digits).any (· ≠ '0') = true) ↔ (1 ≤ weight ∨ units ≠ 0) := by
    have hparts : units = 0 ↔ units / 10 ^ scale = 0 ∧ units % 10 ^ scale = 0 := by
      constructor
      · intro hzero
        simp [hzero]
      · rintro ⟨hquotient, hremainder⟩
        rw [← Nat.div_add_mod units (10 ^ scale), hquotient, hremainder]
        simp
    rw [hvisible]
    by_cases hweight : 1 ≤ weight
    · have hpadded : integerText (weight + 1).toNat digits ≠ ['0'] :=
        integerText_ne_zero (by omega) h
      simp [hweight, hpadded]
    · have hinteger : integerText (weight + 1).toNat digits = ['0'] ↔ units / 10 ^ scale = 0 := by
        rw [integerText_of_le_one (by omega), ← hdiv]
        constructor
        · intro hzero
          have hvalue := congrArg Decimal.value hzero
          rwa [Decimal.value_toDigits] at hvalue
        · intro hzero
          rw [hzero, Nat.toDigits_zero]
      rw [Ne, hinteger, Ne, Ne, hparts]
      tauto
  have hnormalized := Decimal.trimmed_eq_toDigits
    (allDigits_integerText (weight + 1).toNat digits)
  rw [hwhole, ← hdiv] at hnormalized
  simp only [numericText, hnormalized, hnegative]
  rw [hfraction]
  by_cases hscale : scale = 0 <;> simp [hscale]

theorem numericText_exact_iff (h : ∀ digit ∈ digits, digit < 10000)
    (weight : Int) (sign scale : Nat) :
    numericText weight sign scale digits =
        decimalText (sign = 0x4000) scale ⌊magnitude weight digits * 10 ^ scale⌋₊ ↔
      ¬ (sign = 0x4000 ∧ 1 ≤ weight ∧ magnitude weight digits * 10 ^ scale < 1) := by
  have hunits : ⌊magnitude weight digits * 10 ^ scale⌋₊ = 0 ↔
      magnitude weight digits * 10 ^ scale < 1 := Nat.floor_eq_zero
  rw [← hunits, numericText_eq h, decimalText, List.append_left_inj, List.append_left_inj]
  by_cases hsign : sign = 0x4000 <;> by_cases hweight : 1 ≤ weight <;>
    by_cases hzero : ⌊magnitude weight digits * 10 ^ scale⌋₊ = 0 <;>
    simp [hsign, hweight, hzero]

/-! ## The decoder -/

theorem word_lt (raw : List UInt8) (position : Nat) : word raw position < 65536 := by
  have hless := bigEndian_lt ((raw.drop position).take 2)
  have hlength : ((raw.drop position).take 2).length ≤ 2 := by
    rw [List.length_take]
    omega
  calc word raw position < 2 ^ (8 * ((raw.drop position).take 2).length) := hless
    _ ≤ 2 ^ (8 * 2) := Nat.pow_le_pow_right (by decide) (by omega)
    _ = 65536 := by decide

theorem readU16_word {position : Nat} (h : position + 2 ≤ raw.length) :
    readU16 ((raw.drop position).take 2) = .ok (word raw position) := by
  apply readUnsigned_of_length
  rw [List.length_take, List.length_drop]
  omega

theorem readI16_word {position : Nat} (h : position + 2 ≤ raw.length) :
    readI16 ((raw.drop position).take 2) = .ok (signed 2 (word raw position)) := by
  apply readSigned_of_length
  rw [List.length_take, List.length_drop]
  omega

theorem mapM_asChunks (h : raw.length % 2 = 0) :
    (asChunks raw).mapM readU16 =
      .ok ((List.range (raw.length / 2)).map fun index => word raw (2 * index)) := by
  induction raw using asChunks.induct with
  | case1 first second rest ih =>
    have hrest : rest.length % 2 = 0 := by
      rw [List.length_cons, List.length_cons] at h
      omega
    have hhalf : (first :: second :: rest).length / 2 = rest.length / 2 + 1 := by
      rw [List.length_cons, List.length_cons]
      omega
    have hfirst : readU16 [first, second] = .ok (word (first :: second :: rest) 0) := rfl
    rw [asChunks, List.mapM_cons, hfirst, ok_bind, ih hrest, ok_bind, hhalf,
      List.range_succ_eq_map, List.map_cons, List.map_map]
    rfl
  | case2 raw hshort =>
    have hnil : raw = [] := by
      rcases raw with _ | ⟨first, _ | ⟨second, rest⟩⟩
      · rfl
      · simp at h
      · exact absurd rfl (hshort first second rest)
    rw [hnil]
    rfl

theorem mapM_digits (hlength : 8 ≤ raw.length) (h : raw.length % 2 = 0) :
    (asChunks (raw.drop 8)).mapM readU16 = .ok (digitsOf raw) := by
  rw [mapM_asChunks (by rw [List.length_drop]; omega), List.length_drop, digitsOf]
  congr 2
  funext index
  rw [word, word, List.drop_drop]

theorem decodePostgresNumeric_of_header (hlength : 8 ≤ raw.length) (heven : raw.length % 2 = 0) :
    decodePostgresNumeric raw = (do
      rejectIf (digitCountOf raw < 0) resultDecodeError
      rejectIf (raw.length ≠ 8 + (digitCountOf raw).toNat * 2) resultDecodeError
      if signOf raw = 0xC000 then return "NaN".toList
      else if signOf raw = 0xD000 then return "Infinity".toList
      else if signOf raw = 0xF000 then return "-Infinity".toList
      else
        rejectIf (signOf raw ≠ 0x0000 ∧ signOf raw ≠ 0x4000) resultDecodeError
        ensurePostgresScalarSize (max (weightOf raw + 1).toNat 1 * 4 + scaleOf raw + 2)
        rejectIf (∃ digit ∈ digitsOf raw, 9999 < digit) resultDecodeError
        return numericText (weightOf raw) (signOf raw) (scaleOf raw) (digitsOf raw)) := by
  have hcount : readI16 ((raw.drop 0).take 2) = .ok (digitCountOf raw) := readI16_word (by omega)
  rw [List.drop_zero] at hcount
  have hnot : ¬ (raw.length < 8 ∨ raw.length % 2 ≠ 0) := by omega
  rw [decodePostgresNumeric, rejectIf, if_neg hnot, ok_bind, hcount,
    readI16_word (by omega), readU16_word (by omega), readU16_word (by omega),
    mapM_digits hlength heven]
  rfl

theorem decodePostgresNumeric_of_finite (hlength : ConsistentLength raw) (hsign : FiniteSign raw) :
    decodePostgresNumeric raw = (do
      rejectIf (∃ digit ∈ digitsOf raw, 9999 < digit) resultDecodeError
      return numericText (weightOf raw) (signOf raw) (scaleOf raw) (digitsOf raw)) := by
  obtain ⟨hheader, hcount⟩ := hlength
  have hsize : ¬ Wire.maxScalarBytes <
      max (weightOf raw + 1).toNat 1 * 4 + scaleOf raw + 2 := by
    have hweight := word_lt raw 2
    have hscale := word_lt raw 6
    have hbound : weightOf raw < 65536 := by
      rw [weightOf, signed]
      split_ifs <;> omega
    rw [Wire.maxScalarBytes, scaleOf]
    omega
  have hknown : ¬ (signOf raw ≠ 0x0000 ∧ signOf raw ≠ 0x4000) := by
    rcases hsign with h | h <;> simp [h]
  have hspecial : signOf raw ≠ 0xC000 ∧ signOf raw ≠ 0xD000 ∧ signOf raw ≠ 0xF000 := by
    rcases hsign with h | h <;> simp [h]
  rw [decodePostgresNumeric_of_header hheader (by omega), rejectIf, if_neg (by omega), ok_bind,
    rejectIf, if_neg (by omega), ok_bind, if_neg hspecial.1, if_neg hspecial.2.1,
    if_neg hspecial.2.2, rejectIf, if_neg hknown, ok_bind, ensurePostgresScalarSize, rejectIf,
    if_neg hsize, ok_bind]

theorem decodePostgresNumeric_of_finiteNumeric (h : FiniteNumeric raw) :
    decodePostgresNumeric raw =
      .ok (numericText (weightOf raw) (signOf raw) (scaleOf raw) (digitsOf raw)) := by
  obtain ⟨hlength, hsign, hdigits⟩ := h
  have hsmall : ¬ ∃ digit ∈ digitsOf raw, 9999 < digit := by
    rintro ⟨digit, hmem, hlarge⟩
    have hless := hdigits digit hmem
    omega
  rw [decodePostgresNumeric_of_finite hlength hsign, rejectIf, if_neg hsmall]
  rfl

theorem decodePostgresNumeric_of_inconsistent (h : InconsistentNumeric raw) :
    decodePostgresNumeric raw = .error resultDecodeError := by
  by_cases hheader : raw.length < 8 ∨ raw.length % 2 ≠ 0
  · rw [decodePostgresNumeric, rejectIf, if_pos hheader]
    rfl
  rw [decodePostgresNumeric_of_header (by omega) (by omega)]
  by_cases hnegative : digitCountOf raw < 0
  · rw [rejectIf, if_pos hnegative]
    rfl
  rw [rejectIf, if_neg hnegative, ok_bind]
  by_cases hcount : raw.length ≠ 8 + (digitCountOf raw).toNat * 2
  · rw [rejectIf, if_pos hcount]
    rfl
  have hlength : ConsistentLength raw := ⟨by omega, by omega⟩
  rcases h with h | ⟨hfinite, hspecial⟩ | ⟨hsign, digit, hmem, hlarge⟩
  · exact absurd hlength h
  · rw [FiniteSign, not_or] at hfinite
    rw [SpecialSign, not_or, not_or] at hspecial
    rw [rejectIf, if_neg hcount, ok_bind, if_neg hspecial.1, if_neg hspecial.2.1,
      if_neg hspecial.2.2, rejectIf, if_pos hfinite]
    rfl
  · have hdecode := decodePostgresNumeric_of_finite hlength hsign
    rw [decodePostgresNumeric_of_header (by omega) (by omega), rejectIf, if_neg hnegative,
      ok_bind] at hdecode
    have hbad : ∃ digit ∈ digitsOf raw, 9999 < digit := ⟨digit, hmem, hlarge⟩
    rw [hdecode, rejectIf, if_pos hbad]
    rfl

/-- Every payload is decoded exactly, except a negative one that is cut to zero
behind more than one integer group. -/
theorem decodePostgresNumeric_exact_iff (raw : List UInt8) :
    DecodesExactly raw ↔ ¬ PaddedNegativeZero raw := by
  constructor
  · rintro ⟨hexact, _⟩ ⟨hfinite, hzero⟩
    rcases hexact hfinite with htext | ⟨_, error, herror⟩
    · rw [decodePostgresNumeric_of_finiteNumeric hfinite] at htext
      have hsame := Except.ok.inj htext
      exact (numericText_exact_iff hfinite.2.2 _ _ _).1 hsame hzero
    · rw [decodePostgresNumeric_of_finiteNumeric hfinite] at herror
      cases herror
  · intro hcondition
    refine ⟨fun hfinite => Or.inl ?_, fun h => ⟨_, decodePostgresNumeric_of_inconsistent h⟩⟩
    have hexact := (numericText_exact_iff hfinite.2.2 (weightOf raw) (signOf raw)
      (scaleOf raw)).2 fun hzero => hcondition ⟨hfinite, hzero⟩
    rw [decodePostgresNumeric_of_finiteNumeric hfinite, hexact]
    rfl

/-- No digits, weight one and a negative sign print as `-0`. -/
theorem decodePostgresNumeric_negative_zero :
    ¬ DecodesExactly [0, 0, 0, 1, 0x40, 0, 0, 0] := by
  intro hexact
  have hfinite : FiniteNumeric [0, 0, 0, 1, 0x40, 0, 0, 0] :=
    ⟨⟨by decide, by decide⟩, Or.inr (by decide), by decide⟩
  have hdecode : decodePostgresNumeric [0, 0, 0, 1, 0x40, 0, 0, 0] = .ok ['-', '0'] := by
    rw [decodePostgresNumeric_of_finiteNumeric hfinite]
    decide +kernel
  have hunits : unitsOf [0, 0, 0, 1, 0x40, 0, 0, 0] = 0 := by
    rw [unitsOf, show digitsOf [0, 0, 0, 1, 0x40, 0, 0, 0] = [] by decide, magnitude_nil]
    simp
  have htext : exactText [0, 0, 0, 1, 0x40, 0, 0, 0] = ['0'] := by
    rw [exactText, hunits]
    decide
  rcases hexact.1 hfinite with h | ⟨_, error, herror⟩
  · rw [hdecode, htext] at h
    cases h
  · rw [hdecode] at herror
    cases herror

end Chat2DB.Postgres
