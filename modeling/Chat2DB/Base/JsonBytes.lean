import Mathlib

/-! # Lengths of JSON texts

How many bytes a JSON text without blanks takes, for a writer that escapes the
quotation mark, the backslash and the control characters only. Arrays and
objects that have more members are longer.
-/

namespace JsonBytes

/-- The bytes of a character within a string. Five control characters have short escapes. -/
def charBytes (c : Char) : Nat :=
  if c = '"' ∨ c = '\\' ∨ c = '\n' ∨ c = '\r' ∨ c = '\t' ∨ c.toNat = 8 ∨ c.toNat = 12 then 2
  else if c.toNat < 32 then 6
  else c.utf8Size

def textBytes (text : String) : Nat :=
  2 + (text.toList.map charBytes).sum

def boolBytes (value : Bool) : Nat :=
  if value then 4 else 5

def numberBytes (value : Int) : Nat :=
  (toString value).length

/-- An array, by the lengths of its items: brackets around them and commas between them. -/
def arrayBytes (items : List Nat) : Nat :=
  2 + items.sum + (items.length - 1)

/-- An object, by the names and the lengths of its members. -/
def objectBytes (members : List (String × Nat)) : Nat :=
  arrayBytes (members.map fun member => textBytes member.1 + 1 + member.2)

/-! ## Comparing lengths -/

theorem arrayBytes_append_le (front rest : List Nat) :
    arrayBytes front ≤ arrayBytes (front ++ rest) := by
  unfold arrayBytes
  rw [List.sum_append, List.length_append]
  omega

theorem arrayBytes_take_le (count : Nat) (items : List Nat) :
    arrayBytes (items.take count) ≤ arrayBytes items := by
  conv_rhs => rw [← List.take_append_drop count items]
  exact arrayBytes_append_le _ _

/-! ## Plain texts -/

/-- A text of characters of one byte takes its quotation marks more. -/
theorem textBytes_of_single {text : List Char} (hsingle : ∀ c ∈ text, charBytes c = 1) :
    textBytes (String.ofList text) = text.length + 2 := by
  have hsum : (text.map charBytes).sum = text.length := by
    rw [List.map_congr_left hsingle, List.map_const', List.sum_replicate_nat, Nat.mul_one]
  rw [textBytes, String.toList_ofList, hsum, Nat.add_comm]

theorem charBytes_of_isDigit {c : Char} (hc : c.isDigit = true) : charBytes c = 1 := by
  have hbounds : 48 ≤ c.toNat ∧ c.toNat ≤ 57 := by
    simpa [Char.isDigit, UInt32.le_iff_toNat_le, ← Char.toNat_val] using hc
  have hne : ∀ other : Char, other.toNat < 48 ∨ 57 < other.toNat → c ≠ other := by
    rintro other hother rfl
    omega
  unfold charBytes
  rw [if_neg, if_neg (by omega)]
  · apply Char.utf8Size_eq_one_iff.mpr
    simp only [UInt32.le_iff_toNat_le, Char.toNat_val]
    exact Nat.le_trans hbounds.2 (by decide)
  · have hquote := hne '"' (by decide)
    have hslash := hne '\\' (by decide)
    have hline := hne '\n' (by decide)
    have hreturn := hne '\r' (by decide)
    have htab := hne '\t' (by decide)
    simp only [hquote, hslash, hline, hreturn, htab, false_or]
    omega

theorem textBytes_toString (number : Nat) :
    textBytes (toString number) = (Nat.toDigits 10 number).length + 2 := by
  rw [Nat.toString_eq_ofList_toDigits]
  exact textBytes_of_single fun c hc =>
    charBytes_of_isDigit (Nat.isDigit_of_mem_toDigits (by decide) (by decide) hc)

/-- A smaller number is not longer. -/
theorem length_toDigits_mono {smaller larger : Nat} (hle : smaller ≤ larger) :
    (Nat.toDigits 10 smaller).length ≤ (Nat.toDigits 10 larger).length := by
  have hpositive : 0 < (Nat.toDigits 10 larger).length := Nat.length_toDigits_pos
  apply (Nat.length_toDigits_le_iff (by decide) hpositive).mpr
  have hbound := (Nat.length_toDigits_le_iff (n := larger) (by decide) hpositive).mp (Nat.le_refl _)
  exact Nat.lt_of_le_of_lt hle hbound

theorem textBytes_toString_mono {smaller larger : Nat} (hle : smaller ≤ larger) :
    textBytes (toString smaller) ≤ textBytes (toString larger) := by
  rw [textBytes_toString, textBytes_toString]
  exact Nat.add_le_add_right (length_toDigits_mono hle) 2

end JsonBytes
