import Chat2DB.Base.Text

/-! # Text as bytes

A scanner that walks over the bytes of a text meets, between two ASCII characters,
bytes that mean nothing to it. A byte remembers here whether a character begins with
it, which decides where the text may be sliced.
-/

namespace Utf8

structure Cell where
  byte : UInt8
  /-- The character that begins with this byte. -/
  char : Option Char
deriving DecidableEq

/-- The character with the number of the byte, as a byte literal writes it. -/
def Cell.ch (cell : Cell) : Char := Char.ofNat cell.byte.toNat

/-- The bytes of a character after its first. -/
def tails (c : Char) : List Cell :=
  (String.utf8EncodeChar c).tail.map fun byte => { byte, char := none }

def lead (c : Char) : Cell := { byte := (String.utf8EncodeChar c).headD 0, char := some c }

def cells (text : List Char) : List Cell := text.flatMap fun c => lead c :: tails c

/-- Whether a character begins here, or the text ends. -/
def boundary : List Cell → Bool
  | [] => true
  | cell :: _ => cell.char.isSome

/-- The slice of a text that goes up to `after`, unless it cuts a character. -/
def slice (piece after : List Cell) : Option (List Char) :=
  if boundary (piece ++ after) && boundary after then some (piece.filterMap Cell.char) else none

def startsWith (rest : List Cell) (token : List Char) : Bool :=
  ((cells token).map Cell.byte).isPrefixOf (rest.map Cell.byte)

def ascii (c : Char) : Bool := c.toNat < 128

/-- The blanks of ASCII, among which the vertical tab is not. -/
def asciiWhitespace (c : Char) : Bool :=
  c = ' ' || c = '\t' || c = '\n' || c = Char.ofNat 0x0C || c = '\r'

def asciiControl (c : Char) : Bool := c.toNat < 32 || c.toNat = 127

theorem ascii_of_asciiWhitespace {c : Char} (hc : asciiWhitespace c = true) : ascii c = true := by
  simp only [asciiWhitespace, Bool.or_eq_true, decide_eq_true_eq] at hc
  rcases hc with (((rfl | rfl) | rfl) | rfl) | rfl <;> rfl

theorem ascii_of_asciiControl {c : Char} (hc : asciiControl c = true) : ascii c = true := by
  simp only [asciiControl, ascii, Bool.or_eq_true, decide_eq_true_eq] at hc ⊢
  omega

/-! ## One character -/

@[simp] theorem cells_nil : cells [] = [] := rfl

theorem cells_cons (c : Char) (rest : List Char) :
    cells (c :: rest) = lead c :: (tails c ++ cells rest) := rfl

theorem cells_append (first rest : List Char) :
    cells (first ++ rest) = cells first ++ cells rest := List.flatMap_append

@[simp] theorem lead_char (c : Char) : (lead c).char = some c := rfl

theorem utf8EncodeChar_eq (c : Char) :
    String.utf8EncodeChar c = (lead c).byte :: (tails c).map Cell.byte := by
  unfold lead tails
  cases hbytes : String.utf8EncodeChar c with
  | nil => exact absurd hbytes String.utf8EncodeChar_ne_nil
  | cons byte rest => simp [Function.comp_def]

theorem tail_char {c : Char} {cell : Cell} (hcell : cell ∈ tails c) : cell.char = none := by
  unfold tails at hcell
  obtain ⟨byte, -, rfl⟩ := List.mem_map.mp hcell
  rfl

theorem encoding_of_ascii {c : Char} (hc : ascii c = true) :
    String.utf8EncodeChar c = [UInt8.ofNat c.toNat] := by
  have hle : c.val.toNat ≤ 0x7f := by
    have : c.toNat < 128 := by simpa [ascii] using hc
    exact Nat.le_of_lt_succ this
  unfold String.utf8EncodeChar
  simp only [hle, if_true]
  rfl

theorem tails_of_ascii {c : Char} (hc : ascii c = true) : tails c = [] := by
  simp [tails, encoding_of_ascii hc]

theorem cells_cons_of_ascii {c : Char} (hc : ascii c = true) (rest : List Char) :
    cells (c :: rest) = lead c :: cells rest := by
  rw [cells_cons, tails_of_ascii hc, List.nil_append]

/-- A byte that continues a character. -/
def Continues (byte : UInt8) : Prop := 0x80 ≤ byte.toNat ∧ byte.toNat < 0xC0

/-- The first byte of a character that is not ASCII, and the others. -/
theorem encoding_ranges {c : Char} (hc : ascii c = false) :
    0xC0 ≤ (lead c).byte.toNat ∧ ∀ cell ∈ tails c, Continues cell.byte := by
  have hlt : ¬c.val.toNat ≤ 0x7f := by
    have : ¬c.toNat < 128 := by simpa [ascii] using hc
    exact fun hle => this (Nat.lt_succ_of_le hle)
  unfold lead tails
  fun_cases String.utf8EncodeChar c
  · contradiction
  · constructor
    · simp
      omega
    · simp [Continues]
      omega
  · constructor
    · simp
      omega
    · simp [Continues]
      omega
  · constructor
    · simp
      omega
    · simp [Continues]
      omega

theorem toNat_ch (cell : Cell) : cell.ch.toNat = cell.byte.toNat := by
  have hbyte : cell.byte.toNat < 256 := cell.byte.toNat_lt
  have hvalid : cell.byte.toNat.isValidChar := Or.inl (by omega)
  unfold Cell.ch
  rw [Char.ofNat, dif_pos hvalid]
  rfl

/-- The byte of no ASCII character. -/
def Cell.high (cell : Cell) : Prop := ascii cell.ch = false

theorem ch_lead {c : Char} (hc : ascii c = true) : (lead c).ch = c := by
  have hlt : c.toNat < 128 := by simpa [ascii] using hc
  have hbyte : (lead c).byte = UInt8.ofNat c.toNat := by simp [lead, encoding_of_ascii hc]
  apply Char.toNat_inj.mp
  rw [toNat_ch, hbyte, UInt8.toNat_ofNat']
  omega

theorem high_lead {c : Char} (hc : ascii c = false) : (lead c).high := by
  have hrange := (encoding_ranges hc).1
  simp only [Cell.high, ascii, toNat_ch, decide_eq_false_iff_not]
  omega

theorem high_tail {c : Char} {cell : Cell} (hcell : cell ∈ tails c) : cell.high := by
  have hc : ascii c = false := by
    by_contra hascii
    rw [tails_of_ascii (by simpa using hascii)] at hcell
    cases hcell
  have hrange := ((encoding_ranges hc).2 cell hcell).1
  simp only [Cell.high, ascii, toNat_ch, decide_eq_false_iff_not]
  omega

/-- A byte is the one of an ASCII character only where that character stands. -/
theorem ch_lead_eq_iff {c d : Char} (hd : ascii d = true) : (lead c).ch = d ↔ c = d := by
  constructor
  · intro hch
    by_cases hc : ascii c = true
    · rwa [ch_lead hc] at hch
    · have hhigh := high_lead (by simpa using hc)
      rw [Cell.high, hch, hd] at hhigh
      cases hhigh
  · rintro rfl
    exact ch_lead hd

/-- A property of ASCII characters holds of a byte only where such a character stands. -/
theorem lead_of_ascii {p : Char → Bool} (hp : ∀ d, p d = true → ascii d = true) (c : Char) :
    p (lead c).ch = p c := by
  by_cases hc : ascii c = true
  · rw [ch_lead hc]
  · have hhigh := high_lead (by simpa using hc)
    rw [Bool.eq_false_iff.mpr fun htrue => hc (hp c htrue)]
    apply Bool.eq_false_iff.mpr
    intro htrue
    rw [Cell.high, hp _ htrue] at hhigh
    cases hhigh

theorem Cell.high.not {cell : Cell} (hhigh : cell.high) {p : Char → Bool}
    (hp : ∀ d, p d = true → ascii d = true) : p cell.ch = false := by
  apply Bool.eq_false_iff.mpr
  intro htrue
  rw [Cell.high, hp _ htrue] at hhigh
  cases hhigh

theorem Cell.high.ne {cell : Cell} (hhigh : cell.high) {d : Char} (hd : ascii d = true) :
    cell.ch ≠ d := by
  intro hch
  rw [Cell.high, hch, hd] at hhigh
  cases hhigh

/-! ## Slices -/

theorem boundary_cells (text : List Char) : boundary (cells text) = true := by
  cases text <;> rfl

theorem filterMap_cells (text : List Char) : (cells text).filterMap Cell.char = text := by
  induction text with
  | nil => rfl
  | cons c rest ih =>
    have htails : (tails c).filterMap Cell.char = [] := by
      rw [List.filterMap_eq_nil_iff]
      exact fun cell hcell => tail_char hcell
    rw [cells_cons, List.filterMap_cons, lead_char, List.filterMap_append, htails, ih]
    rfl

/-- Slices between characters are what they look like. -/
theorem slice_cells (piece after : List Char) : slice (cells piece) (cells after) = some piece := by
  unfold slice
  rw [← cells_append, boundary_cells, boundary_cells, filterMap_cells]
  rfl

theorem boundary_tail {c : Char} {cell : Cell} (hcell : cell ∈ tails c) (rest : List Cell) :
    boundary (cell :: rest) = false := by
  simp [boundary, tail_char hcell]

/-- Bytes up to a boundary are those of a part of the text. -/
theorem exists_of_boundary {text : List Char} {count : Nat}
    (hboundary : boundary ((cells text).drop count) = true) :
    ∃ first rest, text = first ++ rest ∧ (cells text).take count = cells first ∧
      (cells text).drop count = cells rest := by
  induction text generalizing count with
  | nil => exact ⟨[], [], rfl, by simp, by simp⟩
  | cons c text ih =>
    cases count with
    | zero => exact ⟨[], c :: text, rfl, rfl, rfl⟩
    | succ count =>
      rw [cells_cons, List.drop_succ_cons] at hboundary
      by_cases hcount : count < (tails c).length
      · exfalso
        rw [List.drop_append_of_le_length hcount.le, List.drop_eq_getElem_cons hcount,
          List.cons_append, boundary_tail (List.getElem_mem hcount)] at hboundary
        cases hboundary
      · obtain ⟨more, rfl⟩ := Nat.exists_eq_add_of_le (Nat.le_of_not_lt hcount)
        rw [List.drop_append] at hboundary
        simp only [List.drop_eq_nil_of_le (Nat.le_add_right _ more), List.nil_append,
          Nat.add_sub_cancel_left] at hboundary
        obtain ⟨first, rest, rfl, htake, hdrop⟩ := ih hboundary
        refine ⟨c :: first, rest, rfl, ?_, ?_⟩
        · rw [cells_cons, List.take_succ_cons, List.take_append, List.take_of_length_le
            (Nat.le_add_right _ more), Nat.add_sub_cancel_left, htake, cells_cons]
        · rw [cells_cons, List.drop_succ_cons, List.drop_append, List.drop_eq_nil_of_le
            (Nat.le_add_right _ more), Nat.add_sub_cancel_left, hdrop, List.nil_append]

theorem length_charCells (c : Char) : (lead c :: tails c).length = c.utf8Size := by
  rw [← String.length_utf8EncodeChar, utf8EncodeChar_eq]
  simp

theorem length_cells (text : List Char) : (cells text).length = Text.utf8Length text := by
  induction text with
  | nil => rfl
  | cons c rest ih =>
    have hlength := length_charCells c
    simp only [List.length_cons] at hlength
    simp only [cells_cons, List.length_cons, List.length_append, ih, Text.utf8Length,
      List.map_cons, List.sum_cons]
    omega

theorem length_cells_of_ascii {text : List Char} (htext : ∀ c ∈ text, ascii c = true) :
    (cells text).length = text.length := by
  induction text with
  | nil => rfl
  | cons c rest ih =>
    rw [List.forall_mem_cons] at htext
    rw [cells_cons_of_ascii htext.1, List.length_cons, ih htext.2, List.length_cons]

theorem cells_injective {first second : List Char} (heq : cells first = cells second) :
    first = second := by
  rw [← filterMap_cells first, heq, filterMap_cells]

theorem any_cells {p : Char → Bool} (hp : ∀ d, p d = true → ascii d = true) (text : List Char) :
    (cells text).any (fun cell => p cell.ch) = text.any p := by
  induction text with
  | nil => rfl
  | cons c rest ih =>
    have htails : (tails c).any (fun cell => p cell.ch) = false := by
      rw [List.any_eq_false]
      intro cell hcell
      rw [(high_tail hcell).not hp]
      exact Bool.false_ne_true
    rw [cells_cons, List.any_cons, List.any_append, htails, ih, lead_of_ascii hp, List.any_cons]
    rfl

theorem all_cells {p : Char → Bool} (hp : ∀ d, p d = true → ascii d = true) (text : List Char) :
    (cells text).all (fun cell => p cell.ch) = text.all p := by
  induction text with
  | nil => rfl
  | cons c rest ih =>
    rw [cells_cons, List.all_cons, List.all_append, ih, lead_of_ascii hp, List.all_cons]
    by_cases hc : p c = true
    · rw [tails_of_ascii (hp c hc)]
      simp
    · simp [hc]

/-! ## Bytes that begin with a token -/

theorem bytes_cells (text : List Char) :
    (cells text).map Cell.byte = text.flatMap String.utf8EncodeChar := by
  induction text with
  | nil => rfl
  | cons c rest ih =>
    rw [cells_cons, List.flatMap_cons, ← ih, utf8EncodeChar_eq]
    simp

/-- Between characters the bytes begin with a token just where the text does. -/
theorem startsWith_cells {text token : List Char} :
    startsWith (cells text) token = true ↔ token <+: text := by
  unfold startsWith
  rw [List.isPrefixOf_iff_prefix]
  constructor
  · rintro ⟨rest, hrest⟩
    apply List.isPrefix_of_utf8Encode_append_eq_utf8Encode rest.toByteArray
    rw [bytes_cells, bytes_cells] at hrest
    simp only [List.utf8Encode, ← hrest, List.toByteArray_append]
  · rintro ⟨rest, rfl⟩
    rw [cells_append, List.map_append]
    exact List.prefix_append _ _

/-- No token begins within a character. -/
theorem startsWith_tail {c d : Char} {cell : Cell} (hcell : cell ∈ tails c) (rest : List Cell)
    (token : List Char) : startsWith (cell :: rest) (d :: token) = false := by
  have hc : ascii c = false := by
    by_contra hascii
    rw [tails_of_ascii (by simpa using hascii)] at hcell
    cases hcell
  have hrange := (encoding_ranges hc).2 cell hcell
  have hne : (lead d).byte ≠ cell.byte := by
    intro heq
    rw [← heq] at hrange
    by_cases hd : ascii d = true
    · have hlow : (lead d).byte.toNat < 128 := by
        have htoNat := toNat_ch (lead d)
        rw [ch_lead hd] at htoNat
        simp only [ascii, decide_eq_true_eq] at hd
        omega
      have := hrange.1
      omega
    · have := (encoding_ranges (by simpa using hd)).1
      have := hrange.2
      omega
  have hbeq : ((lead d).byte == cell.byte) = false := beq_eq_false_iff_ne.mpr hne
  simp [startsWith, cells_cons, List.isPrefixOf, hbeq]

theorem length_cells_append (first rest : List Char) :
    (cells (first ++ rest)).drop (cells first).length = cells rest := by
  rw [cells_append, List.drop_left]

/-! ## Lines -/

/-- Cutting at an ASCII character cuts the text at it. -/
theorem takeWhile_cells {p : Char → Bool} (hp : ∀ d, p d = false → ascii d = true)
    (text : List Char) : (cells text).takeWhile (fun cell => p cell.ch) = cells (text.takeWhile p) ∧
      (cells text).dropWhile (fun cell => p cell.ch) = cells (text.dropWhile p) := by
  induction text with
  | nil => exact ⟨rfl, rfl⟩
  | cons c rest ih =>
    have htails : ∀ cell ∈ tails c, p cell.ch = true := by
      intro cell hcell
      have hhigh := high_tail hcell
      by_contra hfalse
      rw [Cell.high, hp _ (by simpa using hfalse)] at hhigh
      cases hhigh
    have hlead : p (lead c).ch = p c := by
      have hnot := lead_of_ascii (p := fun d => !p d) (fun d hd => hp d (by simpa using hd)) c
      simpa using hnot
    rw [cells_cons, List.takeWhile_cons, List.takeWhile_cons, List.dropWhile_cons,
      List.dropWhile_cons, hlead]
    by_cases hc : p c = true
    · simp only [hc, if_true]
      rw [List.takeWhile_append_of_pos htails, List.dropWhile_append_of_pos htails, ih.1, ih.2]
      exact ⟨rfl, rfl⟩
    · simp only [hc]
      exact ⟨rfl, rfl⟩

/-- A run of ASCII characters is a run of bytes. -/
theorem takeWhile_cells_of {p : Char → Bool} (hp : ∀ d, p d = true → ascii d = true)
    (text : List Char) : (cells text).takeWhile (fun cell => p cell.ch) = cells (text.takeWhile p) ∧
      (cells text).dropWhile (fun cell => p cell.ch) = cells (text.dropWhile p) := by
  induction text with
  | nil => exact ⟨rfl, rfl⟩
  | cons c rest ih =>
    rw [cells_cons, List.takeWhile_cons, List.takeWhile_cons, List.dropWhile_cons,
      List.dropWhile_cons, lead_of_ascii hp]
    by_cases hc : p c = true
    · rw [if_pos hc, if_pos hc, if_pos hc, if_pos hc, tails_of_ascii (hp c hc), List.nil_append,
        ih.1, ih.2, cells_cons_of_ascii (hp c hc)]
      exact ⟨rfl, rfl⟩
    · simp only [hc]
      exact ⟨rfl, rfl⟩

end Utf8
