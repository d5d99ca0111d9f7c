import Mathlib

/-! # Decimal digit strings

Strings of ASCII digits, the number that one denotes, numbers printed with and
without leading zeros, and the number that remains when digits are cut off.
A digit string is determined by its length and its value.
-/

namespace Decimal

/-- The number that a string of digits denotes. -/
abbrev value (text : List Char) : Nat :=
  Nat.ofDigitChars 10 text 0

def AllDigits (text : List Char) : Prop :=
  ∀ c ∈ text, c.isDigit = true

/-- A number printed with at least `width` digits, zeros in front. -/
def padded (width number : Nat) : List Char :=
  List.replicate (width - (Nat.toDigits 10 number).length) '0' ++ Nat.toDigits 10 number

theorem allDigits_nil : AllDigits [] := by
  simp [AllDigits]

theorem allDigits_append (left right : List Char) :
    AllDigits (left ++ right) ↔ AllDigits left ∧ AllDigits right := by
  simp only [AllDigits, List.mem_append]
  constructor
  · intro h
    exact ⟨fun c hc => h c (Or.inl hc), fun c hc => h c (Or.inr hc)⟩
  · rintro ⟨hleft, hright⟩ c (hc | hc)
    · exact hleft c hc
    · exact hright c hc

theorem allDigits_replicate_zero (count : Nat) : AllDigits (List.replicate count '0') := by
  intro c hc
  rw [List.eq_of_mem_replicate hc]
  decide

theorem allDigits_toDigits (number : Nat) : AllDigits (Nat.toDigits 10 number) :=
  fun _ hc => Nat.isDigit_of_mem_toDigits (by decide) (by decide) hc

theorem allDigits_padded (width number : Nat) : AllDigits (padded width number) :=
  (allDigits_append _ _).2 ⟨allDigits_replicate_zero _, allDigits_toDigits _⟩

theorem allDigits_take {text : List Char} (h : AllDigits text) (count : Nat) :
    AllDigits (text.take count) :=
  fun c hc => h c (List.mem_of_mem_take hc)

theorem AllDigits.digit {c : Char} (h : c.isDigit = true) :
    c.toNat - '0'.toNat < 10 ∧ c = (c.toNat - '0'.toNat).digitChar := by
  have hbounds : 48 ≤ c.toNat ∧ c.toNat ≤ 57 := by
    simpa [Char.isDigit, UInt32.le_iff_toNat_le, ← Char.toNat_val] using h
  have hsmall : c.toNat - '0'.toNat < 10 := by
    have hzero : '0'.toNat = 48 := rfl
    omega
  refine ⟨hsmall, ?_⟩
  apply Char.toNat_inj.1
  have hzero : '0'.toNat = 48 := rfl
  rw [Nat.toNat_digitChar_of_lt_ten hsmall]
  omega

/-! ## Values -/

theorem value_append (left right : List Char) :
    value (left ++ right) = value left * 10 ^ right.length + value right := by
  rw [value, Nat.ofDigitChars_append, Nat.ofDigitChars_eq_ofDigitChars_zero]
  ring

theorem value_toDigits (number : Nat) : value (Nat.toDigits 10 number) = number :=
  Nat.ofDigitChars_ten_toDigits

theorem value_replicate_zero (count : Nat) : value (List.replicate count '0') = 0 := by
  rw [value, Nat.ofDigitChars_replicate_zero, Nat.mul_zero]

theorem value_padded (width number : Nat) : value (padded width number) = number := by
  rw [padded, value_append, value_replicate_zero, value_toDigits, Nat.zero_mul, Nat.zero_add]

theorem value_concat (text : List Char) (c : Char) :
    value (text ++ [c]) = value text * 10 + (c.toNat - '0'.toNat) := by
  rw [value_append]
  simp [value, Nat.ofDigitChars_cons]

theorem value_lt {text : List Char} (h : AllDigits text) : value text < 10 ^ text.length := by
  induction text using List.reverseRecOn with
  | nil => simp [value]
  | append_singleton text c ih =>
    obtain ⟨htext, hc⟩ := (allDigits_append _ _).1 h
    have hdigit := (AllDigits.digit (hc c (by simp))).1
    have hless := ih htext
    rw [value_concat, List.length_append, List.length_singleton, pow_succ]
    omega

/-- Two digit strings of one length and one value are the same. -/
theorem eq_of_value_eq {left right : List Char} (hleft : AllDigits left)
    (hright : AllDigits right) (hlength : left.length = right.length)
    (hvalue : value left = value right) : left = right := by
  induction left using List.reverseRecOn generalizing right with
  | nil => exact (List.length_eq_zero_iff.1 hlength.symm).symm
  | append_singleton left c ih =>
    cases right using List.reverseRecOn with
    | nil => simp at hlength
    | append_singleton right d =>
      obtain ⟨hleft, hc⟩ := (allDigits_append _ _).1 hleft
      obtain ⟨hright, hd⟩ := (allDigits_append _ _).1 hright
      obtain ⟨hcSmall, hcChar⟩ := AllDigits.digit (hc c (by simp))
      obtain ⟨hdSmall, hdChar⟩ := AllDigits.digit (hd d (by simp))
      rw [value_concat, value_concat] at hvalue
      have hsame : left = right := by
        apply ih hleft hright
        · simpa using hlength
        · omega
      have hlast : c.toNat - '0'.toNat = d.toNat - '0'.toNat := by
        rw [hsame] at hvalue
        omega
      rw [hsame, hcChar, hdChar, hlast]

theorem value_eq_zero_iff {text : List Char} (h : AllDigits text) :
    value text = 0 ↔ ∀ c ∈ text, c = '0' := by
  constructor
  · intro hzero
    have hsame : text = List.replicate text.length '0' := by
      apply eq_of_value_eq h (allDigits_replicate_zero _) (by simp)
      rw [hzero, value_replicate_zero]
    intro c hc
    rw [hsame] at hc
    exact List.eq_of_mem_replicate hc
  · intro hall
    rw [List.eq_replicate_iff.2 ⟨rfl, hall⟩, value_replicate_zero]

/-! ## Printed numbers -/

theorem length_padded {width number : Nat} (hwidth : 0 < width) (h : number < 10 ^ width) :
    (padded width number).length = width := by
  have hlength : (Nat.toDigits 10 number).length ≤ width :=
    (Nat.length_toDigits_le_iff (by decide) hwidth).2 h
  rw [padded, List.length_append, List.length_replicate]
  omega

/-- A digit string prints its value at its length. -/
theorem eq_padded {text : List Char} (h : AllDigits text) (hne : text ≠ []) :
    text = padded text.length (value text) := by
  apply eq_of_value_eq h (allDigits_padded _ _)
  · exact (length_padded (List.length_pos_iff.2 hne) (value_lt h)).symm
  · rw [value_padded]

theorem dropWhile_zero_append (text : List Char) :
    ∃ count, text = List.replicate count '0' ++ text.dropWhile (· = '0') := by
  induction text with
  | nil => exact ⟨0, rfl⟩
  | cons c text ih =>
    by_cases hc : c = '0'
    · obtain ⟨count, hcount⟩ := ih
      refine ⟨count + 1, ?_⟩
      rw [List.dropWhile_cons_of_pos (by simpa using hc), List.replicate_succ, List.cons_append,
        ← hcount, hc]
    · exact ⟨0, by rw [List.dropWhile_cons_of_neg (by simpa using hc)]; rfl⟩

/-- Without zeros in front a digit string is the shortest that denotes its value. -/
theorem eq_toDigits {text : List Char} (h : AllDigits text) (hne : text ≠ [])
    (hhead : text.head? ≠ some '0') : text = Nat.toDigits 10 (value text) := by
  induction text using List.reverseRecOn with
  | nil => exact absurd rfl hne
  | append_singleton text c ih =>
    obtain ⟨htext, hc⟩ := (allDigits_append _ _).1 h
    obtain ⟨hsmall, hchar⟩ := AllDigits.digit (hc c (by simp))
    rw [value_concat]
    by_cases hnil : text = []
    · rw [hnil, value, Nat.ofDigitChars_nil, Nat.zero_mul, Nat.zero_add,
        Nat.toDigits_of_lt_base hsmall, ← hchar]
      rfl
    · have hfirst : text.head? ≠ some '0' := by
        rwa [List.head?_append_of_ne_nil _ hnil] at hhead
      have hpositive : 0 < value text := by
        apply Nat.pos_of_ne_zero
        intro hzero
        apply hfirst
        rw [List.head?_eq_some_head hnil,
          (value_eq_zero_iff htext).1 hzero _ (List.head_mem hnil)]
      rw [Nat.mul_comm, ← Nat.toDigits_append_toDigits (by decide) hpositive hsmall,
        ← ih htext hnil hfirst, Nat.toDigits_of_lt_base hsmall, ← hchar]

/-- Cutting the zeros in front prints the value, and a zero is left for zero. -/
theorem trimmed_eq_toDigits {text : List Char} (h : AllDigits text) :
    (if text.dropWhile (· = '0') = [] then ['0'] else text.dropWhile (· = '0')) =
      Nat.toDigits 10 (value text) := by
  obtain ⟨count, hcount⟩ := dropWhile_zero_append text
  have hrest : AllDigits (text.dropWhile (· = '0')) :=
    fun c hc => h c ((List.dropWhile_suffix _).subset hc)
  have hvalue : value text = value (text.dropWhile (· = '0')) := by
    conv_lhs => rw [hcount, value_append, value_replicate_zero, Nat.zero_mul, Nat.zero_add]
  by_cases hnil : text.dropWhile (· = '0') = []
  · rw [if_pos hnil, hvalue, hnil]
    rfl
  · rw [if_neg hnil, hvalue]
    apply eq_toDigits hrest hnil
    intro hhead
    have hfirst := List.head?_dropWhile_not (fun c => decide (c = '0')) text
    rw [hhead] at hfirst
    simp at hfirst

/-! ## Cutting a fraction to a scale -/

/-- A fraction's digits behind the point, brought to exactly `scale` of them. -/
def scaled (scale : Nat) (text : List Char) : List Char :=
  (text ++ List.replicate (scale - text.length) '0').take scale

theorem length_scaled (scale : Nat) (text : List Char) : (scaled scale text).length = scale := by
  rw [scaled, List.length_take, List.length_append, List.length_replicate]
  omega

theorem allDigits_scaled {text : List Char} (h : AllDigits text) (scale : Nat) :
    AllDigits (scaled scale text) :=
  allDigits_take ((allDigits_append _ _).2 ⟨h, allDigits_replicate_zero _⟩) scale

theorem value_take {text : List Char} (h : AllDigits text) (count : Nat) :
    value (text.take count) = value text / 10 ^ (text.length - count) := by
  have hdrop : value (text.drop count) < 10 ^ (text.length - count) := by
    have hless : value (text.drop count) < 10 ^ (text.drop count).length :=
      value_lt fun c hc => h c (List.mem_of_mem_drop hc)
    rwa [List.length_drop] at hless
  have hsplit : value text =
      value (text.take count) * 10 ^ (text.length - count) + value (text.drop count) := by
    have happend := value_append (text.take count) (text.drop count)
    rwa [List.take_append_drop, List.length_drop] at happend
  rw [hsplit, Nat.mul_comm, Nat.mul_add_div (by positivity), Nat.div_eq_of_lt hdrop,
    Nat.add_zero]

/-- The scaled digits denote the fraction in units of the scale, rounded toward zero. -/
theorem value_scaled {text : List Char} (h : AllDigits text) (scale : Nat) :
    value (scaled scale text) = value text * 10 ^ scale / 10 ^ text.length := by
  by_cases hlength : text.length ≤ scale
  · have htake : scaled scale text = text ++ List.replicate (scale - text.length) '0' := by
      rw [scaled]
      apply List.take_of_length_le
      rw [List.length_append, List.length_replicate]
      omega
    have hpow : 10 ^ scale = 10 ^ (scale - text.length) * 10 ^ text.length := by
      rw [← pow_add]
      congr 1
      omega
    rw [htake, value_append, value_replicate_zero, List.length_replicate, Nat.add_zero, hpow,
      ← Nat.mul_assoc, Nat.mul_div_cancel _ (by positivity)]
  · have hpow : 10 ^ text.length = 10 ^ (text.length - scale) * 10 ^ scale := by
      rw [← pow_add]
      congr 1
      omega
    have htake : scaled scale text = text.take scale := by
      rw [scaled, Nat.sub_eq_zero_of_le (by omega), List.replicate_zero, List.append_nil]
    rw [htake, value_take h, hpow, Nat.mul_div_mul_right _ _ (by positivity)]

/-! ## Reading numbers -/

/-- The digits in front as a number, with what stands behind them. -/
def readNumber (text : List Char) : Option (Nat × List Char) :=
  if text.takeWhile Char.isDigit = [] then none
  else some (value (text.takeWhile Char.isDigit), text.dropWhile Char.isDigit)

def expectChar (c : Char) : List Char → Option (List Char)
  | [] => none
  | first :: rest => if first = c then some rest else none

/-- Whether a minus sign stands in front, with what stands behind the sign. -/
def readSign : List Char → Bool × List Char
  | '-' :: rest => (true, rest)
  | '+' :: rest => (false, rest)
  | text => (false, text)

/-- What follows does not continue a number. -/
def NoDigitAhead (rest : List Char) : Prop :=
  ∀ c ∈ rest.head?, c.isDigit = false

theorem noDigitAhead_nil : NoDigitAhead [] := by
  simp [NoDigitAhead]

theorem noDigitAhead_cons {c : Char} (h : c.isDigit = false) (rest : List Char) :
    NoDigitAhead (c :: rest) := by
  simpa [NoDigitAhead] using h

theorem takeWhile_digits {text rest : List Char} (htext : AllDigits text)
    (hrest : NoDigitAhead rest) :
    (text ++ rest).takeWhile Char.isDigit = text ∧ (text ++ rest).dropWhile Char.isDigit = rest := by
  rw [List.takeWhile_append_of_pos htext, List.dropWhile_append_of_pos htext]
  cases rest with
  | nil => simp
  | cons c rest =>
    have hc : c.isDigit = false := hrest c rfl
    simp [hc]

theorem padded_ne_nil (width number : Nat) : padded width number ≠ [] := by
  rw [padded]
  exact List.append_ne_nil_of_right_ne_nil _ Nat.toDigits_ne_nil

theorem readNumber_padded (width number : Nat) {rest : List Char} (hrest : NoDigitAhead rest) :
    readNumber (padded width number ++ rest) = some (number, rest) := by
  obtain ⟨htake, hdrop⟩ := takeWhile_digits (allDigits_padded width number) hrest
  rw [readNumber, htake, hdrop, if_neg (padded_ne_nil width number), value_padded]

theorem expectChar_self (c : Char) (rest : List Char) : expectChar c (c :: rest) = some rest :=
  if_pos rfl

/-- A printed number does not begin with a sign. -/
theorem readSign_padded (width number : Nat) (rest : List Char) :
    readSign (padded width number ++ rest) =
      (false, padded width number ++ rest) := by
  obtain ⟨c, tail, hpadded⟩ := List.exists_cons_of_ne_nil (padded_ne_nil width number)
  have hdigit : c.isDigit = true :=
    allDigits_padded width number c (by rw [hpadded]; exact List.mem_cons_self)
  rw [hpadded, List.cons_append]
  unfold readSign
  split
  · rename_i hcons
    rw [(List.cons.inj hcons).1] at hdigit
    exact absurd hdigit (by decide)
  · rename_i hcons
    rw [(List.cons.inj hcons).1] at hdigit
    exact absurd hdigit (by decide)
  · rfl

/-- A number with a minus sign when it is negative. -/
def intText (number : Int) : List Char :=
  if number < 0 then '-' :: Nat.toDigits 10 number.natAbs else Nat.toDigits 10 number.natAbs

/-- A number with a sign or without one. -/
def readInt (text : List Char) : Option (Int × List Char) :=
  (readNumber (readSign text).2).map fun read =>
    (if (readSign text).1 = true then -(read.1 : Int) else (read.1 : Int), read.2)

theorem padded_zero (number : Nat) : padded 0 number = Nat.toDigits 10 number := by
  simp [padded]

theorem readInt_intText (number : Int) {rest : List Char} (hrest : NoDigitAhead rest) :
    readInt (intText number ++ rest) = some (number, rest) := by
  have hread := readNumber_padded 0 number.natAbs hrest
  have hunsigned := readSign_padded 0 number.natAbs rest
  rw [padded_zero] at hread hunsigned
  by_cases hnegative : number < 0
  · have hsign : readSign (intText number ++ rest) =
        (true, Nat.toDigits 10 number.natAbs ++ rest) := by
      rw [intText, if_pos hnegative]
      rfl
    rw [readInt, hsign, hread, Option.map_some, if_pos rfl]
    congr 2
    omega
  · rw [intText, if_neg hnegative, readInt, hunsigned, hread, Option.map_some, if_neg Bool.false_ne_true]
    congr 2
    omega

end Decimal
