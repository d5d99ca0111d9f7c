import Mathlib

/-! # Text

Text is a list of characters. Blank are the characters that Unicode calls white
space, and trimming takes them from both ends.
-/

namespace Text

/-- The characters with the Unicode property `White_Space`. -/
def blank (c : Char) : Bool :=
  let code := c.toNat
  (9 ≤ code && code ≤ 13) || code = 32 || code = 0x85 || code = 0xA0 || code = 0x1680 ||
    (0x2000 ≤ code && code ≤ 0x200A) || code = 0x2028 || code = 0x2029 || code = 0x202F ||
    code = 0x205F || code = 0x3000

def trim (text : List Char) : List Char := (text.dropWhile blank).rdropWhile blank

/-- Text that neither begins nor ends with a blank. -/
theorem trim_eq_self {text : List Char} (hhead : ∀ c ∈ text.head?, blank c = false)
    (hlast : ∀ c ∈ text.getLast?, blank c = false) : trim text = text := by
  have hfront : text.dropWhile blank = text := by
    cases text with
    | nil => rfl
    | cons c text => simp [hhead c rfl]
  rw [trim, hfront, List.rdropWhile_eq_self_iff]
  intro hsome
  rw [hlast _ (List.getLast?_eq_getLast_of_ne_nil hsome)]
  exact Bool.false_ne_true

/-- The bytes that the text takes in UTF-8. -/
def utf8Length (text : List Char) : Nat := (text.map Char.utf8Size).sum

/-- The text between blanks, and the blanks around it. -/
theorem exists_trim (text : List Char) :
    ∃ before after, text = before ++ trim text ++ after ∧ (∀ c ∈ before, blank c = true) ∧
      ∀ c ∈ after, blank c = true := by
  refine ⟨text.takeWhile blank, (text.dropWhile blank).rtakeWhile blank, ?_, ?_, ?_⟩
  · rw [trim, List.append_assoc, List.rdropWhile_append_rtakeWhile,
      List.takeWhile_append_dropWhile]
  · intro c hc
    exact List.mem_takeWhile_imp hc
  · intro c hc
    exact List.mem_rtakeWhile_imp hc

theorem trim_eq_nil_iff {text : List Char} : trim text = [] ↔ ∀ c ∈ text, blank c = true := by
  unfold trim
  rw [List.rdropWhile_eq_nil_iff]
  constructor
  · intro hblank c hc
    rw [← List.takeWhile_append_dropWhile (p := blank) (l := text)] at hc
    rcases List.mem_append.mp hc with hc | hc
    · exact List.mem_takeWhile_imp hc
    · exact hblank c hc
  · intro hblank c hc
    exact hblank c ((List.dropWhile_suffix blank).subset hc)

/-- Trimming takes blanks only. -/
theorem filter_trim (text : List Char) :
    (trim text).filter (fun c => !blank c) = text.filter fun c => !blank c := by
  obtain ⟨before, after, hsplit, hbefore, hafter⟩ := exists_trim text
  have hnone : ∀ {part : List Char}, (∀ c ∈ part, blank c = true) →
      part.filter (fun c => !blank c) = [] := by
    intro part hpart
    rw [List.filter_eq_nil_iff]
    intro c hc
    simp [hpart c hc]
  nth_rewrite 2 [hsplit]
  rw [List.filter_append, List.filter_append, hnone hbefore, hnone hafter, List.nil_append,
    List.append_nil]

/-- What is left by trimming is left by trimming again. -/
theorem trim_trim_ne_nil {text : List Char} (htrim : trim text ≠ []) : trim (trim text) ≠ [] := by
  intro hblank
  apply htrim
  rw [trim_eq_nil_iff] at hblank ⊢
  obtain ⟨before, after, hsplit, hbefore, hafter⟩ := exists_trim text
  intro c hc
  rw [hsplit, List.mem_append, List.mem_append] at hc
  rcases hc with (hc | hc) | hc
  · exact hbefore c hc
  · exact hblank c hc
  · exact hafter c hc

/-- Blanks around a text are taken with its own. -/
theorem trim_append {before text after : List Char} (hbefore : ∀ c ∈ before, blank c = true)
    (hafter : ∀ c ∈ after, blank c = true) : trim (before ++ text ++ after) = trim text := by
  unfold trim
  rw [List.append_assoc, List.dropWhile_append_of_pos hbefore, List.dropWhile_append]
  have hreverse : ∀ front : List Char,
      (front ++ after).rdropWhile blank = front.rdropWhile blank := by
    intro front
    rw [List.rdropWhile, List.reverse_append,
      List.dropWhile_append_of_pos (by simpa using hafter), List.rdropWhile]
  cases htext : text.dropWhile blank with
  | nil =>
    have hnone : after.dropWhile blank = [] := List.dropWhile_eq_nil_iff.mpr hafter
    simp [hnone]
  | cons c rest => simpa using hreverse (c :: rest)

theorem trim_trim (text : List Char) : trim (trim text) = trim text := by
  obtain ⟨before, after, hsplit, hbefore, hafter⟩ := exists_trim text
  conv_rhs => rw [hsplit, trim_append hbefore hafter]

/-- A text that is not blank, with the blanks around it. -/
theorem eq_of_trim_ne_nil {text : List Char} (htrim : trim text ≠ []) :
    text = text.takeWhile blank ++ (trim text ++ text.rtakeWhile blank) := by
  have hback : (text.dropWhile blank).rtakeWhile blank = text.rtakeWhile blank := by
    have hsplit : text = text.takeWhile blank ++ text.dropWhile blank :=
      List.takeWhile_append_dropWhile.symm
    conv_rhs => rw [hsplit]
    rw [List.rtakeWhile, List.rtakeWhile, List.reverse_append, List.takeWhile_append, if_neg]
    intro hlength
    apply htrim
    rw [trim, List.rdropWhile_eq_nil_iff]
    intro c hc
    have hall := (List.takeWhile_prefix blank).eq_of_length hlength
    have hmem := List.mem_reverse.mpr hc
    rw [← hall] at hmem
    exact List.mem_takeWhile_imp hmem
  rw [← hback, trim, List.rdropWhile_append_rtakeWhile, List.takeWhile_append_dropWhile]

/-- Texts between the same blanks are the same if they are without. -/
theorem eq_of_trim_eq {text other : List Char}
    (hfront : text.takeWhile blank = other.takeWhile blank)
    (hback : text.rtakeWhile blank = other.rtakeWhile blank) (htrim : trim text = trim other) :
    text = other := by
  by_cases hnone : trim text = []
  · have hblank : ∀ text : List Char, trim text = [] → text.takeWhile blank = text := by
      intro text htext
      exact List.takeWhile_eq_self_iff.mpr (trim_eq_nil_iff.mp htext)
    rw [← hblank text hnone, ← hblank other (htrim ▸ hnone), hfront]
  · have hsome : trim other ≠ [] := htrim ▸ hnone
    have hother := eq_of_trim_ne_nil hsome
    rw [← hfront, ← hback, ← htrim, ← eq_of_trim_ne_nil hnone] at hother
    exact hother.symm

end Text
