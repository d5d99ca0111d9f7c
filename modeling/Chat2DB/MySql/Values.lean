import Chat2DB.MySql.Literals

/-! # What literals denote

MySQL takes a literal for a number, a string or bytes. A literal that was written for a
cell is read as the value that the cell shows.
-/

namespace Chat2DB.MySql

variable {name mantissa value : List Char}

inductive SqlValue where
  | null
  | number (value : ℚ)
  | text (content : List Char)
  | bytes (content : List UInt8)
  | bits (content : List Bool)
deriving DecidableEq

/-- The number that digits with a sign in front of them denote. -/
def integerValue : List Char → ℤ
  | '-' :: digits => -(Decimal.value digits : ℤ)
  | '+' :: digits => Decimal.value digits
  | digits => Decimal.value digits

/-- The number that a numeral without a sign denotes. -/
def numeralValue (text : List Char) : ℚ :=
  let mantissa := text.takeWhile fun c => !Ddl.isExponentMark c
  let whole := mantissa.takeWhile fun c => c ≠ '.'
  let fraction := mantissa.drop (whole.length + 1)
  Decimal.value (whole ++ fraction) / 10 ^ fraction.length *
    10 ^ integerValue (text.drop (mantissa.length + 1))

def signedValue (text : List Char) : ℚ :=
  if text.head? = some '-' then -numeralValue (Ddl.withoutSign text)
  else numeralValue (Ddl.withoutSign text)

def readLiteral : List Token → Option SqlValue
  | [.word word] =>
    if word = "NULL".toList then some .null
    else if word = "TRUE".toList then some (.number 1)
    else if word = "FALSE".toList then some (.number 0)
    else none
  | [.text content] => some (.text content)
  | [.bytes content] => some (.bytes content)
  | [.bits content] => some (.bits content)
  | [.number text] => some (.number (numeralValue text))
  | [.symbol '-', .number text] => some (.number (-numeralValue text))
  | [.symbol '+', .number text] => some (.number (numeralValue text))
  | _ => none

/-! ## Names -/

section Reading

variable {escapes : Bool} {lexed : Lexed}

theorem after_quotedName (text name : List Char) (before : List Token) :
    Lexed.after escapes { reading := .name text, tokens := before }
        ((name.flatMap fun c => if c = backtick then [backtick, backtick] else [c]) ++ [backtick]) =
      { reading := .nameEnd (text ++ name), tokens := before } := by
  induction name generalizing text with
  | nil => simp [Lexed.after_cons, Lexed.after_nil, Lexed.step, continued]
  | cons c name ih =>
    rw [List.flatMap_cons, List.append_assoc, Lexed.after_append]
    have hfirst : Lexed.after escapes { reading := .name text, tokens := before }
        (if c = backtick then [backtick, backtick] else [c]) =
          { reading := .name (text ++ [c]), tokens := before } := by
      by_cases hc : c = backtick
      · simp [hc, Lexed.after_cons, Lexed.after_nil, Lexed.step, continued]
      · simp [hc, Lexed.after_cons, Lexed.after_nil, Lexed.step, continued]
    rw [hfirst, ih, List.append_assoc]
    rfl

theorem opened_backtick (before : List Token) :
    Lexed.opened before backtick = { reading := .name [], tokens := before } := by
  simp [Lexed.opened, show opening backtick = .name [] by decide, show isSymbol backtick = false by decide]

theorem after_quoteName (name : List Char) :
    Lexed.start.after escapes (quoteName name) = { reading := .nameEnd name, tokens := [] } := by
  have hopen : Lexed.start.step escapes backtick = Lexed.opened [] backtick := rfl
  rw [quoteName, List.cons_append, Lexed.after_cons, hopen, opened_backtick, after_quotedName,
    List.nil_append]

theorem reads_quoteName (hname : name ≠ []) :
    Reads escapes (quoteName name) [.name name] := by
  apply reads_of_after _ (after_quoteName name)
  · rw [completed, if_neg hname]
  · simp

def pathTokens (path : List (List Char)) : List Token :=
  [Token.symbol '.'].intercalate (path.map fun name => [.name name])

/-- The names of a path, of which each but the first follows a dot. -/
theorem ends_path {before : List Token} (hname : name ≠ [])
    {rest : List (List Char)} (hrest : [] ∉ rest) (hlexed : lexed = ⟨.nameEnd name, before⟩) :
    (lexed.after escapes (rest.flatMap fun next => '.' :: quoteName next)).Ends escapes
      (before ++ pathTokens (name :: rest)) := by
  induction rest generalizing lexed name before with
  | nil =>
    rw [hlexed]
    constructor
    · simp [Lexed.after_nil, completed, hname, pathTokens]
    · intro c hc
      have hdone : completed (.nameEnd name) = some [.name name] := by simp [completed, hname]
      exact continued_break hdone (by simp) hc
  | cons next rest ih =>
    have hnext : next ≠ [] := fun hnil => hrest (hnil ▸ List.mem_cons_self)
    have hdot : Lexed.step escapes ⟨.nameEnd name, before⟩ '.' = ⟨.qualifier name, before⟩ := by
      simp [Lexed.step, continued, show '.' ≠ backtick by decide]
    have hopen : Lexed.step escapes ⟨.qualifier name, before⟩ backtick =
        ⟨.name [], before ++ [.name name, .symbol '.']⟩ := by
      simp [Lexed.step, continued, completed, hname, opened_backtick]
    rw [List.flatMap_cons, List.cons_append, quoteName, List.cons_append, List.cons_append,
      Lexed.after_cons, Lexed.after_cons, hlexed, hdot, hopen, Lexed.after_append,
      after_quotedName]
    have htokens : before ++ pathTokens (name :: next :: rest) =
        before ++ [.name name, .symbol '.'] ++ pathTokens (next :: rest) := by
      simp [pathTokens, List.intercalate_cons_cons]
    rw [htokens]
    exact ih hnext (fun hmem => hrest (List.mem_cons_of_mem _ hmem)) rfl

theorem reads_path {rest : List (List Char)} (hpath : [] ∉ name :: rest) :
    Reads escapes (quoteName name ++ rest.flatMap fun next => '.' :: quoteName next)
      (pathTokens (name :: rest)) := by
  rw [List.mem_cons, not_or] at hpath
  unfold Reads
  rw [Lexed.after_append, ← List.nil_append (pathTokens _)]
  exact ends_path (Ne.symm hpath.1) hpath.2 (after_quoteName name)

/-! ## Strings -/

theorem after_written {write : Char → List Char} {content : List Char}
    (hwrite : ∀ c ∈ content, ∀ text, Lexed.after escapes ⟨.text text, []⟩ (write c) =
      ⟨.text (text ++ [c]), []⟩) (text : List Char) :
    Lexed.after escapes ⟨.text text, []⟩ (content.flatMap write) =
      ⟨.text (text ++ content), []⟩ := by
  induction content generalizing text with
  | nil => simp [Lexed.after_nil]
  | cons c content ih =>
    rw [List.flatMap_cons, Lexed.after_append, hwrite c List.mem_cons_self,
      ih (fun d hd => hwrite d (List.mem_cons_of_mem _ hd)), List.append_assoc]
    rfl

theorem reads_string {write : Char → List Char} {content : List Char}
    (hwrite : ∀ c ∈ content, ∀ text, Lexed.after escapes ⟨.text text, []⟩ (write c) =
      ⟨.text (text ++ [c]), []⟩) :
    Reads escapes ('\'' :: content.flatMap write ++ ['\'']) [.text content] := by
  have hopen : Lexed.start.step escapes '\'' = ⟨.text [], []⟩ := rfl
  apply reads_of_after (.textEnd content) _ rfl (by simp)
  rw [List.cons_append, Lexed.after_cons, hopen, Lexed.after_append, after_written hwrite]
  simp [Lexed.after_cons, Lexed.after_nil, Lexed.step, continued]

theorem reads_quoteMysqlString (content : List Char) :
    Reads true (Ddl.quoteMysqlString content) [.text content] := by
  apply reads_string
  intro c _ text
  unfold Ddl.escapedChar
  split_ifs with h0 hn hr ht hb hZ hslash hquote
  all_goals
    simp_all [Lexed.after_cons, Lexed.after_nil, Lexed.step, continued, unescaped]

/-! ## Bytes -/

def nibbles (byte : UInt8) : List Nat := [byte.toNat / 16, byte.toNat % 16]

theorem hexDigit_hexChar : ∀ digit < 16,
    hexDigit (Ddl.hexChar digit) = some digit ∧ Ddl.hexChar digit ≠ '\'' := by
  decide

theorem hexPairs_nibbles (content : List UInt8) :
    hexPairs (content.flatMap nibbles) = some content := by
  induction content with
  | nil => rfl
  | cons byte content ih =>
    have hbyte : byte.toNat / 16 * 16 + byte.toNat % 16 = byte.toNat := by omega
    rw [List.flatMap_cons, nibbles, List.cons_append, List.cons_append, List.nil_append,
      hexPairs, ih, hbyte, UInt8.ofNat_toNat]
    rfl

theorem after_hexBytes {reading : List Nat → Reading}
    (htakes : ∀ digits digit, digit < 16 →
      continued escapes (reading digits) (Ddl.hexChar digit) = some (reading (digits ++ [digit])))
    (content : List UInt8) (digits : List Nat) :
    Lexed.after escapes ⟨reading digits, []⟩ (content.flatMap Ddl.hexByte) =
      ⟨reading (digits ++ content.flatMap nibbles), []⟩ := by
  induction content generalizing digits with
  | nil => simp [Lexed.after_nil]
  | cons byte content ih =>
    have hhigh := htakes digits (byte.toNat / 16) (by have := byte.toNat_lt; omega)
    have hlow := htakes (digits ++ [byte.toNat / 16]) (byte.toNat % 16) (by omega)
    rw [List.flatMap_cons, Ddl.hexByte, List.cons_append, List.cons_append, List.nil_append,
      Lexed.after_cons, Lexed.after_cons]
    simp only [Lexed.step, hhigh, hlow]
    rw [ih]
    simp [nibbles]

theorem reads_hexText (content : List UInt8) :
    Reads escapes ("X'".toList ++ content.flatMap Ddl.hexByte ++ ['\'']) [.bytes content] := by
  have hopen : Lexed.start.after escapes "X'".toList = ⟨.hexText [], []⟩ := by
    simp [Lexed.after_cons, Lexed.after_nil, Lexed.step, Lexed.start, Lexed.opened, opening,
      isSymbol, isWordStart, continued, completed, prefixed, isWordChar]
  have htakes : ∀ digits digit, digit < 16 →
      continued escapes (.hexText digits) (Ddl.hexChar digit) =
        some (.hexText (digits ++ [digit])) := by
    intro digits digit hdigit
    obtain ⟨hread, hquote⟩ := hexDigit_hexChar digit hdigit
    simp [continued, hread, hquote]
  apply reads_of_after (.closed (.bytes content)) _ rfl (by simp)
  rw [Lexed.after_append, Lexed.after_append, hopen, after_hexBytes htakes, List.nil_append]
  simp [Lexed.after_cons, Lexed.after_nil, Lexed.step, continued, hexPairs_nibbles]

/-! ## Numbers -/

theorem opening_digit {c : Char} (hc : c.isDigit = true) :
    opening c = .number [c] ∧ isSymbol c = false ∧ c ≠ '-' := by
  have hstart : isWordStart c = false := by
    have hbounds : 48 ≤ c.toNat ∧ c.toNat ≤ 57 := by
      simpa [Char.isDigit, UInt32.le_iff_toNat_le, ← Char.toNat_val] using hc
    have hscore : c ≠ '_' := by rintro rfl; exact absurd hc (by decide)
    have hval : c.val.toNat = c.toNat := rfl
    simp [isWordStart, Char.isAlpha, Char.isUpper, Char.isLower, UInt32.le_iff_toNat_le, hscore]
    omega
  have hsymbol : isSymbol c = false := by
    by_contra hsymbol
    simp only [isSymbol, Bool.not_eq_false, Bool.or_eq_true, decide_eq_true_eq] at hsymbol
    rcases hsymbol with (((rfl | rfl) | rfl) | rfl) | rfl <;> exact absurd hc (by decide)
  have hspace : c ≠ ' ' := by rintro rfl; exact absurd hc (by decide)
  refine ⟨?_, hsymbol, by rintro rfl; exact absurd hc (by decide)⟩
  simp [opening, hspace, hsymbol, hstart, hc]

theorem after_digits {reading : List Char → Reading}
    (htakes : ∀ text c, c.isDigit = true →
      continued escapes (reading text) c = some (reading (text ++ [c])))
    {digits : List Char} (hdigits : digits.all Char.isDigit = true) (text : List Char) :
    Lexed.after escapes ⟨reading text, []⟩ digits = ⟨reading (text ++ digits), []⟩ := by
  induction digits generalizing text with
  | nil => simp [Lexed.after_nil]
  | cons c digits ih =>
    rw [List.all_cons, Bool.and_eq_true] at hdigits
    rw [Lexed.after_cons]
    simp only [Lexed.step, htakes text c hdigits.1]
    rw [ih hdigits.2, List.append_assoc]
    rfl

theorem number_takes (text : List Char) (c : Char) (hc : c.isDigit = true) :
    continued escapes (.number text) c = some (.number (text ++ [c])) := by
  simp [continued, hc]

theorem scaled_takes (text : List Char) (c : Char) (hc : c.isDigit = true) :
    continued escapes (.scaled text) c = some (.scaled (text ++ [c])) := by
  simp [continued, hc]

theorem after_firstDigit {c : Char} (hc : c.isDigit = true) :
    Lexed.start.step escapes c = ⟨.number [c], []⟩ := by
  obtain ⟨hopen, hsymbol, -⟩ := opening_digit hc
  simp [Lexed.step, Lexed.start, continued, completed, Lexed.opened, hopen, hsymbol]

theorem isMantissa_cases (h : Ddl.isMantissa mantissa = true) :
    ∃ whole fraction, whole.all Char.isDigit = true ∧ fraction.all Char.isDigit = true ∧
      ((mantissa = whole ∧ whole ≠ []) ∨
        (mantissa = whole ++ '.' :: fraction ∧ (whole ≠ [] ∨ fraction ≠ []))) := by
  have hjoin : ['.'].intercalate (mantissa.splitOn '.') = mantissa := List.intercalate_splitOn '.'
  unfold Ddl.isMantissa at h
  split at h
  case h_1 whole hsplit =>
    simp only [Bool.and_eq_true, decide_eq_true_eq] at h
    rw [hsplit] at hjoin
    exact ⟨whole, [], h.1, rfl, .inl ⟨by simpa using hjoin.symm, h.2⟩⟩
  case h_2 whole fraction hsplit =>
    simp only [Bool.and_eq_true, Bool.or_eq_true, decide_eq_true_eq] at h
    rw [hsplit, List.intercalate_cons_cons] at hjoin
    exact ⟨whole, fraction, h.1.1, h.1.2, .inr ⟨by simpa using hjoin.symm, h.2⟩⟩
  case h_3 => cases h

theorem after_mantissa (h : Ddl.isMantissa mantissa = true) :
    Lexed.start.after escapes mantissa = ⟨.number mantissa, []⟩ := by
  obtain ⟨whole, fraction, hwhole, hfraction, hcases⟩ := isMantissa_cases h
  have hdigits : whole ≠ [] → Lexed.start.after escapes whole = ⟨.number whole, []⟩ := by
    intro hne
    obtain ⟨c, rest, rfl⟩ := List.exists_cons_of_ne_nil hne
    rw [List.all_cons, Bool.and_eq_true] at hwhole
    rw [Lexed.after_cons, after_firstDigit hwhole.1, after_digits number_takes hwhole.2]
    rfl
  rcases hcases with ⟨rfl, hne⟩ | ⟨rfl, hne⟩
  · exact hdigits hne
  · have hdot : '.' ∉ whole := by
      intro hmem
      have hdigit := List.all_eq_true.mp hwhole _ hmem
      exact absurd hdigit (by decide)
    cases whole with
    | nil =>
      obtain ⟨c, rest, rfl⟩ := List.exists_cons_of_ne_nil (hne.resolve_left (by simp))
      rw [List.all_cons, Bool.and_eq_true] at hfraction
      have hopen : Lexed.start.step escapes '.' = ⟨.dot, []⟩ := rfl
      have hfirst : Lexed.step escapes ⟨.dot, []⟩ c = ⟨.number ['.', c], []⟩ := by
        simp [Lexed.step, continued, hfraction.1]
      rw [List.nil_append, Lexed.after_cons, Lexed.after_cons, hopen, hfirst,
        after_digits number_takes hfraction.2]
      rfl
    | cons c rest =>
      have hpoint : Lexed.step escapes ⟨.number (c :: rest), []⟩ '.' =
          ⟨.number (c :: rest ++ ['.']), []⟩ := by
        simp only [Lexed.step, continued, if_neg hdot]
        rfl
      rw [Lexed.after_append, hdigits (by simp), Lexed.after_cons, hpoint,
        after_digits number_takes hfraction, List.append_assoc]
      rfl

theorem isMantissa_head (h : Ddl.isMantissa mantissa = true) :
    ∃ c rest, mantissa = c :: rest ∧ c ≠ '-' := by
  obtain ⟨whole, fraction, hwhole, -, hcases⟩ := isMantissa_cases h
  cases whole with
  | cons c rest =>
    rw [List.all_cons, Bool.and_eq_true] at hwhole
    have hc := (opening_digit hwhole.1).2.2
    rcases hcases with ⟨rfl, -⟩ | ⟨rfl, -⟩
    · exact ⟨c, rest, rfl, hc⟩
    · exact ⟨c, rest ++ '.' :: fraction, rfl, hc⟩
  | nil =>
    rcases hcases with ⟨-, hne⟩ | ⟨rfl, -⟩
    · exact absurd rfl hne
    · exact ⟨'.', fraction, rfl, by decide⟩

theorem isMantissa_of_digits {digits : List Char} (hdigits : digits.all Char.isDigit = true)
    (hne : digits ≠ []) : Ddl.isMantissa digits = true := by
  have hsplit : digits.splitOn '.' = [digits] := by
    apply List.splitOnP_eq_singleton
    intro c hc
    have hdigit := List.all_eq_true.mp hdigits c hc
    by_contra hdot
    rw [Bool.not_eq_false, beq_iff_eq] at hdot
    rw [hdot] at hdigit
    exact absurd hdigit (by decide)
  simp [Ddl.isMantissa, hsplit, hdigits, hne]

theorem exists_sign (value : List Char) :
    value = Ddl.withoutSign value ∨ ∃ sign, (sign = '+' ∨ sign = '-') ∧
      value = sign :: Ddl.withoutSign value := by
  unfold Ddl.withoutSign
  split
  · exact .inr ⟨'+', .inl rfl, rfl⟩
  · exact .inr ⟨'-', .inr rfl, rfl⟩
  · exact .inl rfl

theorem after_exponent {exponent : List Char} {mark : Char}
    (hmark : Ddl.isExponentMark mark = true) (h : Ddl.isIntegerLiteral exponent = true) :
    Lexed.after escapes ⟨.number mantissa, []⟩ (mark :: exponent) =
      ⟨.scaled (mantissa ++ mark :: exponent), []⟩ := by
  simp only [Ddl.isIntegerLiteral, Bool.and_eq_true, decide_eq_true_eq] at h
  obtain ⟨hne, hdigits⟩ := h
  have hmarks : mark = 'e' ∨ mark = 'E' := by
    simpa [Ddl.isExponentMark] using hmark
  have hopen : Lexed.step escapes ⟨.number mantissa, []⟩ mark = ⟨.exponent (mantissa ++ [mark]), []⟩ := by
    rcases hmarks with rfl | rfl <;> simp [Lexed.step, continued]
  obtain ⟨c, rest, hbody⟩ := List.exists_cons_of_ne_nil hne
  rw [hbody, List.all_cons, Bool.and_eq_true] at hdigits
  have hbegins : ∀ text, Lexed.after escapes ⟨.exponent text, []⟩ (Ddl.withoutSign exponent) =
      ⟨.scaled (text ++ Ddl.withoutSign exponent), []⟩ := by
    intro text
    have hfirst : Lexed.step escapes ⟨.exponent text, []⟩ c = ⟨.scaled (text ++ [c]), []⟩ := by
      simp [Lexed.step, continued, hdigits.1]
    rw [hbody, Lexed.after_cons, hfirst, after_digits scaled_takes hdigits.2, List.append_assoc]
    rfl
  rw [Lexed.after_cons, hopen]
  rcases exists_sign exponent with hplain | ⟨sign, hsign, hsigned⟩
  · rw [hplain, hbegins, ← hplain, List.append_assoc]
    rfl
  · have hstep : Lexed.step escapes ⟨.exponent (mantissa ++ [mark]), []⟩ sign =
        ⟨.exponent (mantissa ++ [mark] ++ [sign]), []⟩ := by
      have hdigit : sign.isDigit = false := by rcases hsign with rfl | rfl <;> decide
      simp [Lexed.step, continued, hdigit, hsign, hmarks]
    have hjoined : mantissa ++ mark :: exponent =
        mantissa ++ [mark] ++ [sign] ++ Ddl.withoutSign exponent := by
      nth_rewrite 1 [hsigned]
      simp
    rw [hjoined, hsigned, Lexed.after_cons, hstep, ← hsigned, hbegins]

theorem exists_mark {text : List Char} (h : text.any Ddl.isExponentMark = true) :
    ∃ mark, Ddl.isExponentMark mark = true ∧
      text = (text.takeWhile fun c => !Ddl.isExponentMark c) ++
        mark :: text.drop ((text.takeWhile fun c => !Ddl.isExponentMark c).length + 1) := by
  induction text with
  | nil => cases h
  | cons c text ih =>
    by_cases hc : Ddl.isExponentMark c = true
    · exact ⟨c, hc, by simp [hc]⟩
    · obtain ⟨mark, hmark, hsplit⟩ := ih (by simpa [hc] using h)
      refine ⟨mark, hmark, ?_⟩
      simp only [List.takeWhile_cons, hc, Bool.not_false, if_true, List.length_cons,
        List.drop_succ_cons, List.cons_append]
      exact congrArg (c :: ·) hsplit

theorem after_numeral {value : List Char} {allowExponent : Bool}
    (h : Ddl.isDecimalLiteral value allowExponent = true) :
    ∃ reading, Lexed.start.after escapes (Ddl.withoutSign value) = ⟨reading, []⟩ ∧
      completed reading = some [.number (Ddl.withoutSign value)] ∧
      (∀ text, reading ≠ .qualifier text) ∧
      ∃ c rest, Ddl.withoutSign value = c :: rest ∧ c ≠ '-' := by
  unfold Ddl.isDecimalLiteral at h
  dsimp only at h
  split_ifs at h with hexponent
  · simp only [Bool.and_eq_true] at h hexponent
    obtain ⟨⟨-, hinteger⟩, hmantissa⟩ := h
    obtain ⟨mark, hmark, hsplit⟩ := exists_mark hexponent.2
    obtain ⟨c, rest, hhead, hc⟩ := isMantissa_head hmantissa
    refine ⟨.scaled (Ddl.withoutSign value), ?_, rfl, by simp, ?_⟩
    · rw [hsplit, Lexed.after_append, after_mantissa hmantissa, after_exponent hmark hinteger]
    · rw [hsplit, hhead]
      exact ⟨c, _, rfl, hc⟩
  · simp only [Bool.and_eq_true, decide_eq_true_eq] at h
    exact ⟨_, after_mantissa h.2, rfl, by simp, isMantissa_head h.2⟩

/-- A numeral with its sign is read as the number that it denotes. -/
theorem reads_number {allowExponent : Bool} (h : Ddl.isDecimalLiteral value allowExponent = true) :
    ∃ list, Reads escapes value list ∧ readLiteral list = some (.number (signedValue value)) := by
  obtain ⟨reading, hafter, hdone, hname, c, rest, hhead, hc⟩ := after_numeral h
  have hbody : Reads escapes (Ddl.withoutSign value) [.number (Ddl.withoutSign value)] :=
    reads_of_after reading hafter hdone hname
  rcases exists_sign value with hplain | ⟨sign, rfl | rfl, hsigned⟩
  · rw [← hplain] at hbody
    refine ⟨[.number value], hbody, ?_⟩
    have hminus : value.head? ≠ some '-' := by
      rw [hplain, hhead]
      simpa using hc
    rw [signedValue, if_neg hminus, ← hplain]
    rfl
  · have hplus : Joint escapes ['+'] [.symbol '+'] := ⟨rfl, rfl⟩
    refine ⟨[.symbol '+', .number (Ddl.withoutSign value)], ?_, ?_⟩
    · rw [hsigned]
      exact reads_nil.join hplus hbody
    · have hminus : value.head? ≠ some '-' := by
        rw [hsigned]
        simp
      rw [signedValue, if_neg hminus]
      rfl
  · refine ⟨[.symbol '-', .number (Ddl.withoutSign value)], ?_, ?_⟩
    · have hopen : Lexed.start.step escapes '-' = ⟨.minus, []⟩ := rfl
      have hfirst : Lexed.step escapes ⟨.minus, []⟩ c =
          (Lexed.start.step escapes c).preceded [.symbol '-'] := by
        simp [Lexed.step, continued, hc, completed, Lexed.opened, Lexed.preceded, Lexed.start]
      unfold Reads
      rw [hsigned, hhead, Lexed.after_cons, Lexed.after_cons, hopen, hfirst,
        Lexed.after_preceded, ← Lexed.after_cons, ← hhead]
      exact hbody.preceded [.symbol '-']
    · have hminus : value.head? = some '-' := by
        rw [hsigned]
        rfl
      rw [signedValue, if_pos hminus]
      rfl

/-! ## Cells -/

theorem reads_true : Reads escapes "TRUE".toList [.word "TRUE".toList] :=
  reads_of_after (.word "TRUE".toList) (by cases escapes <;> decide) rfl (by simp)

theorem reads_false : Reads escapes "FALSE".toList [.word "FALSE".toList] :=
  reads_of_after (.word "FALSE".toList) (by cases escapes <;> decide) rfl (by simp)

theorem isDecimalLiteral_of_integer (h : Ddl.isIntegerLiteral value = true) :
    Ddl.isDecimalLiteral value false = true := by
  simp only [Ddl.isIntegerLiteral, Bool.and_eq_true, decide_eq_true_eq] at h
  simp [Ddl.isDecimalLiteral, h.1, isMantissa_of_digits h.2 h.1]

local instance lawfulCellType : LawfulBEq (List Char) := inferInstance

/-- The value that a cell of a column with this type shows. -/
def cellValue (typeName value : List Char) : SqlValue :=
  let baseType := Ddl.baseTypeName typeName
  if Ddl.isIntegerType baseType || baseType ∈ ["BIT", "DECIMAL", "NUMERIC", "FLOAT", "DOUBLE",
      "REAL"].map String.toList then
    .number (signedValue (Text.trim value))
  else if baseType ∈ ["BOOL", "BOOLEAN"].map String.toList then
    .number (if (Text.trim value).map Char.toLower ∈ ["true".toList, "1".toList] then 1 else 0)
  else if Ddl.isBinaryType baseType then .bytes ((Ddl.decodeStandard value).getD [])
  else .text value

theorem serializeNumber_ok {valid unsigned : Bool} {expected : String}
    {trimmed literal : List Char}
    (h : Ddl.serializeNumber valid unsigned expected trimmed = .ok literal) :
    valid = true ∧ literal = trimmed := by
  unfold Ddl.serializeNumber at h
  split_ifs at h with hvalid hnegative
  · exact ⟨by simpa using hvalid, (Except.ok.inj h).symm⟩

/-- The literal of a cell is read as the value that the cell shows. -/
theorem serializeTypedLiteral_ok {typeName literal : List Char}
    (h : Ddl.serializeTypedLiteral typeName value = .ok literal) :
    ∃ list, Reads true literal list ∧ readLiteral list = some (cellValue typeName value) := by
  unfold Ddl.serializeTypedLiteral at h
  unfold cellValue
  extract_lets baseType trimmed unsigned at h
  extract_lets
  split_ifs at h with hinteger hdecimal hfloat hbool htrue hfalse hbinary
  · obtain ⟨hvalid, rfl⟩ := serializeNumber_ok h
    have hnumber : (Ddl.isIntegerType baseType || baseType ∈ ["BIT", "DECIMAL", "NUMERIC", "FLOAT",
        "DOUBLE", "REAL"].map String.toList) = true := by
      simp only [Bool.or_eq_true, decide_eq_true_eq] at hinteger ⊢
      exact hinteger.imp id fun hbit => by simp [hbit]
    rw [if_pos hnumber]
    exact reads_number (isDecimalLiteral_of_integer hvalid)
  · obtain ⟨hvalid, rfl⟩ := serializeNumber_ok h
    rw [if_pos (by rcases List.mem_pair.mp hdecimal with hbase | hbase <;> simp [hbase])]
    exact reads_number hvalid
  · obtain ⟨hvalid, rfl⟩ := serializeNumber_ok h
    rw [if_pos (by simp_all)]
    exact reads_number hvalid
  · rw [if_neg (by simp_all), if_pos (by simp_all), if_pos htrue]
    cases h
    exact ⟨[.word "TRUE".toList], reads_true, by simp [readLiteral]⟩
  · rw [if_neg (by simp_all), if_pos (by simp_all), if_neg htrue]
    cases h
    exact ⟨[.word "FALSE".toList], reads_false, by simp [readLiteral]⟩
  · rw [if_neg (by simp_all), if_neg (by simp_all), if_pos hbinary]
    split at h
    · cases h
    next content hcontent =>
      cases h
      refine ⟨[.bytes content], reads_hexText content, ?_⟩
      rw [hcontent]
      rfl
  · rw [if_neg (by simp_all), if_neg (by simp_all), if_neg hbinary]
    cases h
    exact ⟨[.text value], reads_quoteMysqlString value, rfl⟩

end Reading

end Chat2DB.MySql
