import Chat2DB.MySql.Lexemes
import Chat2DB.MySql.Turns

/-! # The scanner of words as a reader of MySQL

The scanner reads with rules of its own: a backslash escapes in identifiers too, a
carriage return ends a line comment, and two dashes begin a comment only before a
blank. With these rules it is a reader like MySQL's, and it finds the words that lie
outside quotes and comments.
-/

namespace Chat2DB.MySql

open Utf8
open Marking (Mark Marked Lexer)

variable {rules : Rules} {mode : Mode} {mark : Mark} {c : Char} {rest chars later : List Char}
  {cs : List Cell}

def lexemeRules : Rules where
  escapes := fun _ => true
  endsLine := fun c => c = '\r' || c = '\n'
  afterDashes := asciiWhitespace

/-! ## Words of a marked text -/

def flushWord (word : List Char) : List SqlToken :=
  if word = [] then [] else [.word (word.map Char.toUpper)]

/-- The words and the separators, with the beginning of a word there already. -/
def tokensFrom (word : List Char) : Marked → List SqlToken
  | [] => flushWord word
  | (c, mark) :: rest =>
    if mark = .code ∧ (if word = [] then wordStart c else wordPart c) then
      tokensFrom (word ++ [c]) rest
    else
      flushWord word ++ (if mark = .stop then [.semicolon] else []) ++ tokensFrom [] rest

def tokensOf (marked : Marked) : List SqlToken := tokensFrom [] marked

/-- A comment that the server executes begins here. -/
def executesHere (mode : Mode) (c : Char) (rest : List Char) : Bool :=
  mode = .text && c = '/' && rest[0]? = some '*' &&
    (rest[1]? = some '!' || ((rest[1]? = some 'm' || rest[1]? = some 'M') && rest[2]? = some '!'))

def executes (rules : Rules) : Mode → List Char → Bool
  | _, [] => false
  | mode, c :: rest =>
    executesHere mode c rest || executes rules (rules.lexer.step mode c rest).1 rest

/-- What a reader reports: the words, and whether a comment is executed. -/
def Rules.report (rules : Rules) (mode : Mode) (word text : List Char) :
    Option (List SqlToken × Bool) :=
  (rules.lexer.readFrom mode text).map fun marked =>
    (tokensFrom word marked, executes rules mode text)

/-- What comes first, in front of a report. -/
def addReport (tokens : List SqlToken) (executed : Bool) :
    Option (List SqlToken × Bool) → Option (List SqlToken × Bool) :=
  Option.map fun report => (tokens ++ report.1, executed || report.2)

theorem addReport_nil (report : Option (List SqlToken × Bool)) :
    addReport [] false report = report := by
  cases report <;> simp [addReport]

theorem addReport_addReport (first second : List SqlToken) (early late : Bool)
    (report : Option (List SqlToken × Bool)) :
    addReport first early (addReport second late report) =
      addReport (first ++ second) (early || late) report := by
  cases report <;> simp [addReport, Bool.or_assoc]

theorem report_nil (rules : Rules) (mode : Mode) (word : List Char) :
    rules.report mode word [] = if mode.complete then some (flushWord word, false) else none := by
  have hread : rules.lexer.readFrom mode [] = if mode.complete then some [] else none := rfl
  rw [Rules.report, hread]
  split_ifs <;> rfl

theorem report_word {rules : Rules} {mode : Mode} {word : List Char} {c : Char} {rest : List Char}
    (hmark : (rules.lexer.step mode c rest).2 = .code)
    (hword : (if word = [] then wordStart c else wordPart c) = true) :
    rules.report mode word (c :: rest) =
      addReport [] (executesHere mode c rest)
        (rules.report (rules.lexer.step mode c rest).1 (word ++ [c]) rest) := by
  unfold Rules.report addReport
  rw [Lexer.readFrom_cons, Option.map_map, Option.map_map]
  congr 1
  funext marked
  simp only [Function.comp_apply, List.nil_append, Prod.mk.injEq]
  exact ⟨if_pos ⟨hmark, hword⟩, rfl⟩

theorem report_end {rules : Rules} {mode : Mode} {word : List Char} {c : Char} {rest : List Char}
    (hend : ¬((rules.lexer.step mode c rest).2 = .code ∧
      (if word = [] then wordStart c else wordPart c) = true)) :
    rules.report mode word (c :: rest) =
      addReport (flushWord word ++ if (rules.lexer.step mode c rest).2 = .stop then [.semicolon]
          else []) (executesHere mode c rest)
        (rules.report (rules.lexer.step mode c rest).1 [] rest) := by
  unfold Rules.report addReport
  rw [Lexer.readFrom_cons, Option.map_map, Option.map_map]
  congr 1
  funext marked
  simp only [Function.comp_apply, Prod.mk.injEq]
  exact ⟨if_neg hend, rfl⟩

theorem report_other {next : Mode}
    (hstep : rules.lexer.step mode c rest = (next, mark)) (hstop : mark ≠ .stop)
    (hcode : mark = .code → wordStart c = false) (hhere : executesHere mode c rest = false) :
    rules.report mode [] (c :: rest) = rules.report next [] rest := by
  have hend : ¬((rules.lexer.step mode c rest).2 = .code ∧
      (if ([] : List Char) = [] then wordStart c else wordPart c) = true) := by
    rw [hstep]
    rintro ⟨hmark, hword⟩
    rw [if_pos rfl, hcode hmark] at hword
    cases hword
  rw [report_end hend, hstep, hhere, if_neg hstop]
  exact addReport_nil _

theorem executesHere_of_mode (hmode : mode ≠ .text) (c : Char) (rest : List Char) :
    executesHere mode c rest = false := by
  simp [executesHere, hmode]

theorem executesHere_of_ne (hc : c ≠ '/') (mode : Mode) (rest : List Char) :
    executesHere mode c rest = false := by
  simp [executesHere, hc]

theorem lexerStep_inside (hmode : mode ≠ .text) (c : Char) (rest : List Char) :
    rules.lexer.step mode c rest = rules.step mode c rest :=
  if_neg fun hboth => hmode hboth.1

theorem report_inside {next : Mode}
    (hmode : mode ≠ .text) (hstep : rules.step mode c rest = (next, mark))
    (hstop : mark ≠ .stop) (hcode : mark ≠ .code) :
    rules.report mode [] (c :: rest) = rules.report next [] rest := by
  apply report_other _ hstop fun hmark => absurd hmark hcode
  · exact executesHere_of_mode hmode c rest
  · rw [lexerStep_inside hmode, hstep]

/-! ## The scanner's own loops -/

theorem report_line (chars : List Char) :
    lexemeRules.report .line [] chars =
      lexemeRules.report .text [] (chars.dropWhile fun c => !(c = '\r' || c = '\n')) := by
  induction chars with
  | nil => rfl
  | cons c rest ih =>
    by_cases hend : c = '\r' ∨ c = '\n'
    · have hstep : lexemeRules.step .line c rest = (.text, .comment) := by
        rcases hend with rfl | rfl <;> rfl
      have hblank : lexemeRules.lexer.step .text c rest = (.text, .code) := by
        rcases hend with rfl | rfl <;> rfl
      have hword : wordStart c = false := by rcases hend with rfl | rfl <;> rfl
      have hslash : c ≠ '/' := by rcases hend with rfl | rfl <;> decide
      rw [List.dropWhile_cons_of_neg (by rcases hend with rfl | rfl <;> decide),
        report_inside (by simp) hstep (by simp) (by simp),
        report_other hblank (by simp) (fun _ => hword) (executesHere_of_ne hslash _ _)]
    · have hstep : lexemeRules.step .line c rest = (.line, .comment) := by
        simpa [Rules.step, lexemeRules] using hend
      rw [List.dropWhile_cons_of_pos (by simpa using hend), ← ih,
        report_inside (by simp) hstep (by simp) (by simp)]

theorem skipLineComment_cells (chars : List Char) :
    skipLineComment (cells chars) = cells (chars.dropWhile fun c => !(c = '\r' || c = '\n')) := by
  apply (takeWhile_cells (p := fun c => !(c = '\r' || c = '\n')) _ chars).2
  intro d hd
  simp only [Bool.not_eq_false', Bool.or_eq_true, decide_eq_true_eq] at hd
  rcases hd with rfl | rfl <;> rfl

theorem skipBlockComment_high (hcs : ∀ cell ∈ cs, cell.high) (rest : List Cell) :
    skipBlockComment (cs ++ rest) = skipBlockComment rest := by
  induction cs with
  | nil => rfl
  | cons cell cs ih =>
    rw [List.forall_mem_cons] at hcs
    rw [List.cons_append, skipBlockComment, ih hcs.2]
    simp [hcs.1.ne (d := '*') rfl]

/-- What a loop of the scanner leaves, a reader in this mode leaves. -/
def Leaves (skipped : Option (List Cell)) (mode : Mode) (chars : List Char) : Prop :=
  (skipped = none ∧ lexemeRules.report mode [] chars = none) ∨
    ∃ later, skipped = some (cells later) ∧ later.length ≤ chars.length ∧
      lexemeRules.report mode [] chars = lexemeRules.report .text [] later

theorem Leaves.cons {skipped : Option (List Cell)} {mode next : Mode} {mark : Mark} {c : Char}
    {rest : List Char} (hleaves : Leaves skipped next rest) (hmode : mode ≠ .text)
    (hstep : lexemeRules.step mode c rest = (next, mark)) (hstop : mark ≠ .stop)
    (hcode : mark ≠ .code) : Leaves skipped mode (c :: rest) := by
  unfold Leaves
  rw [report_inside hmode hstep hstop hcode]
  rcases hleaves with hnone | ⟨later, hskip, hlength, hreport⟩
  · exact .inl hnone
  · exact .inr ⟨later, hskip, hlength.trans (by simp), hreport⟩

theorem Leaves.last (hmode : mode ≠ .text) (hstep : lexemeRules.step mode c rest = (.text, mark))
    (hstop : mark ≠ .stop) (hcode : mark ≠ .code) :
    Leaves (some (cells rest)) mode (c :: rest) :=
  .inr ⟨rest, rfl, by simp, report_inside hmode hstep hstop hcode⟩

theorem skipBlockComment_cells (chars : List Char) :
    Leaves (skipBlockComment (cells chars)) .block chars := by
  induction chars with
  | nil => exact .inl ⟨rfl, rfl⟩
  | cons c rest ih =>
    by_cases hclosing : c = '*' ∧ rest[0]? = some '/'
    · obtain ⟨rfl, hnext⟩ := hclosing
      obtain ⟨d, more, rfl⟩ : ∃ d more, rest = d :: more :=
        List.exists_cons_of_ne_nil (by rintro rfl; cases hnext)
      obtain rfl : d = '/' := by simpa using hnext
      have hskip : skipBlockComment (cells ('*' :: '/' :: more)) = some (cells more) := by
        rw [cells_cons_of_ascii rfl, cells_cons_of_ascii rfl, skipBlockComment]
        simp [ch_lead (c := '*') rfl, ch_lead (c := '/') rfl]
      rw [hskip]
      have hsecond : Leaves (some (cells more)) .closing ('/' :: more) :=
        .last (by simp) rfl (by simp) (by simp)
      exact hsecond.cons (by simp) rfl (by simp) (by simp)
    · have hstep : lexemeRules.step .block c rest = (.block, .comment) := by
        simp only [Rules.step, if_neg hclosing]
      have hskip : skipBlockComment (cells (c :: rest)) = skipBlockComment (cells rest) := by
        rw [cells_cons, skipBlockComment, followed_cells rfl rfl]
        rw [if_neg (by simpa using hclosing),
          skipBlockComment_high fun cell hcell => high_tail hcell]
      rw [hskip]
      exact ih.cons (by simp) hstep (by simp) (by simp)

theorem skipQuotedValue_high {quote : Char} (hquote : ascii quote = true)
    (hcs : ∀ cell ∈ cs, cell.high) (rest : List Cell) :
    skipQuotedValue quote (cs ++ rest) = skipQuotedValue quote rest := by
  induction cs with
  | nil => rfl
  | cons cell cs ih =>
    rw [List.forall_mem_cons] at hcs
    rw [List.cons_append, skipQuotedValue, ih hcs.2]
    simp [hcs.1.ne (d := '\\') rfl, hcs.1.ne hquote]

/-- A quoted value is skipped to where the lexer leaves it. -/
theorem skipQuotedValue_cells {quote : Char} (hquote : ascii quote = true) (chars : List Char) :
    Leaves (skipQuotedValue quote (cells chars)) (.quoted quote) chars := by
  induction hlength : chars.length using Nat.strong_induction_on generalizing chars with
  | _ length ih =>
    cases chars with
    | nil => exact .inl ⟨by rw [cells_nil, skipQuotedValue], rfl⟩
    | cons c rest =>
      have hhigh : ∀ {d : Char}, ∀ cell ∈ tails d, cell.high := fun cell hcell => high_tail hcell
      rw [List.length_cons] at hlength
      by_cases hescape : c = '\\'
      · subst hescape
        have hstep : lexemeRules.step (.quoted quote) '\\' rest = (.escaped quote, .quoted) := rfl
        rw [cells_cons_of_ascii rfl, skipQuotedValue, if_pos (ch_lead rfl)]
        cases rest with
        | nil =>
          left
          refine ⟨by rw [cells_nil, List.drop_nil, skipQuotedValue], ?_⟩
          rw [report_inside (by simp) hstep (by simp) (by simp)]
          rfl
        | cons d more =>
          -- The escaped character may have more bytes.
          have hmore := ih more.length (by simp only [List.length_cons] at hlength; omega) more rfl
          have hsecond : Leaves (skipQuotedValue quote (cells more)) (.escaped quote) (d :: more) :=
            hmore.cons (by simp) rfl (by simp) (by simp)
          rw [cells_cons, List.drop_succ_cons, List.drop_zero, skipQuotedValue_high hquote hhigh]
          exact hsecond.cons (by simp) hstep (by simp) (by simp)
      · have hne : (lead c).ch ≠ '\\' := by rwa [Ne, ch_lead_eq_iff rfl]
        by_cases hc : c = quote
        · subst hc
          rw [cells_cons_of_ascii hquote, skipQuotedValue, if_neg hne, if_pos (ch_lead hquote),
            next_cells hquote]
          by_cases hdoubled : rest[0]? = some c
          · have hstep : lexemeRules.step (.quoted c) c rest = (.doubled c, .quoted) := by
              simp [Rules.step, Rules.quotedStep, hescape, hdoubled]
            obtain ⟨d, more, rfl⟩ : ∃ d more, rest = d :: more :=
              List.exists_cons_of_ne_nil (by rintro rfl; cases hdoubled)
            obtain rfl : d = c := by simpa using hdoubled
            have hmore := ih more.length (by simp only [List.length_cons] at hlength; omega) more rfl
            have hsecond : Leaves (skipQuotedValue d (cells more)) (.doubled d) (d :: more) :=
              hmore.cons (by simp) rfl (by simp) (by simp)
            rw [if_pos (by simp), cells_cons_of_ascii hquote]
            exact hsecond.cons (by simp) hstep (by simp) (by simp)
          · have hstep : lexemeRules.step (.quoted c) c rest = (.text, .quoted) := by
              simp [Rules.step, Rules.quotedStep, hescape, hdoubled]
            rw [if_neg (by simpa using hdoubled)]
            exact .last (by simp) hstep (by simp) (by simp)
        · have hstep : lexemeRules.step (.quoted quote) c rest = (.quoted quote, .quoted) := by
            simp [Rules.step, Rules.quotedStep, hescape, hc]
          have hclosing : (lead c).ch ≠ quote := by rwa [Ne, ch_lead_eq_iff hquote]
          rw [cells_cons, skipQuotedValue, if_neg hne, if_neg hclosing,
            skipQuotedValue_high hquote hhigh]
          exact (ih rest.length (by omega) rest rfl).cons (by simp) hstep (by simp) (by simp)

/-! ## Words -/

theorem wordPart_of_wordStart (hc : wordStart c = true) : wordPart c = true := by
  simp only [wordStart, wordPart, Char.isAlphanum, Bool.or_eq_true] at hc ⊢
  tauto

theorem ascii_of_wordPart (hc : wordPart c = true) : ascii c = true := by
  have hle : ∀ {n : Nat}, c.toNat ≤ n → n < 128 → ascii c = true := by
    intro n hn hlt
    simp only [ascii, decide_eq_true_eq]
    omega
  simp only [wordPart, Char.isAlphanum, Char.isAlpha, Bool.or_eq_true, decide_eq_true_eq] at hc
  rcases hc with ((((hupper | hlower) | hdigit) | rfl) | rfl)
  · simp only [Char.isUpper, decide_eq_true_eq] at hupper
    exact hle (n := 90) hupper.2 (by decide)
  · simp only [Char.isLower, Bool.and_eq_true, decide_eq_true_eq] at hlower
    exact hle (n := 122) hlower.2 (by decide)
  · simp only [Char.isDigit, Bool.and_eq_true, decide_eq_true_eq] at hdigit
    exact hle (n := 57) hdigit.2 (by decide)
  · rfl
  · rfl

theorem step_of_wordPart (rules : Rules) (rest : List Char) (hc : wordPart c = true) :
    rules.lexer.step .text c rest = (.text, .code) := by
  have hne : ∀ {d : Char}, wordPart d = false → c ≠ d := by
    rintro d hd rfl
    rw [hd] at hc
    cases hc
  have hquote : isQuote c = false := by
    simp [isQuote, hne (d := '\'') rfl, hne (d := '"') rfl, hne (d := backtick) rfl]
  simp [Rules.lexer, Rules.step, Rules.textStep, hquote, hne (d := ';') rfl, hne (d := '#') rfl,
    hne (d := '-') rfl, hne (d := '/') rfl]

theorem report_wordRest (rules : Rules) {word : List Char} (hword : word ≠ []) (chars : List Char) :
    rules.report .text word chars =
      addReport [.word ((word ++ chars.takeWhile wordPart).map Char.toUpper)] false
        (rules.report .text [] (chars.dropWhile wordPart)) := by
  induction chars generalizing word with
  | nil =>
    rw [List.takeWhile_nil, List.dropWhile_nil, report_nil, report_nil]
    simp [addReport, flushWord, hword, Mode.complete]
  | cons c rest ih =>
    by_cases hpart : wordPart c = true
    · have hstep := step_of_wordPart rules rest hpart
      have hslash : c ≠ '/' := by
        rintro rfl
        cases hpart
      rw [report_word (by rw [hstep]) (by rwa [if_neg hword]), hstep,
        executesHere_of_ne hslash, addReport_nil, ih (by simp),
        List.takeWhile_cons_of_pos hpart, List.dropWhile_cons_of_pos hpart, List.append_assoc]
      rfl
    · have hstart : ¬wordStart c = true := fun hstart => hpart (wordPart_of_wordStart hstart)
      rw [List.takeWhile_cons_of_neg hpart, List.dropWhile_cons_of_neg hpart,
        report_end (by rw [if_neg hword]; exact fun hboth => hpart hboth.2),
        report_end (by rw [if_pos rfl]; exact fun hboth => hstart hboth.2),
        addReport_addReport]
      simp [flushWord, hword]

/-! ## The loop -/

/-- The scanner finds what the reader with its rules reports. -/
def Scans (tokens : List SqlToken) (executableComment : Bool) (chars : List Char) : Prop :=
  match lexemeRules.report .text [] chars with
  | none => ∃ error, lexemeLoop tokens executableComment (cells chars) = .error (.error error)
  | some (later, executed) =>
    lexemeLoop tokens executableComment (cells chars) =
      .ok { tokens := tokens ++ later, executableComment := executableComment || executed }

theorem Scans.of_eq {tokens more : List SqlToken} {executableComment executed : Bool}
    (hloop : lexemeLoop tokens executableComment (cells chars) =
      lexemeLoop (tokens ++ more) (executableComment || executed) (cells later))
    (hreport : lexemeRules.report .text [] chars =
      addReport more executed (lexemeRules.report .text [] later))
    (hlater : Scans (tokens ++ more) (executableComment || executed) later) :
    Scans tokens executableComment chars := by
  unfold Scans at hlater ⊢
  rw [hreport, hloop]
  cases hrest : lexemeRules.report .text [] later with
  | none =>
    rw [hrest] at hlater
    exact hlater
  | some report =>
    rw [hrest] at hlater
    simpa [addReport, Bool.or_assoc] using hlater

theorem lexemeLoop_high {tokens : List SqlToken} {executableComment : Bool}
    (hcs : ∀ cell ∈ cs, cell.high) (rest : List Cell) :
    lexemeLoop tokens executableComment (cs ++ rest) = lexemeLoop tokens executableComment rest := by
  induction cs with
  | nil => rfl
  | cons cell cs ih =>
    rw [List.forall_mem_cons] at hcs
    have hhigh := hcs.1
    rw [List.cons_append, lexemeLoop, ih hcs.2]
    simp [hhigh.not (p := asciiWhitespace) (fun _ => ascii_of_asciiWhitespace),
      hhigh.not (p := wordStart) (fun _ hd => ascii_of_wordPart (wordPart_of_wordStart hd)),
      hhigh.ne (d := '#') rfl, hhigh.ne (d := '-') rfl, hhigh.ne (d := '/') rfl,
      hhigh.ne (d := '\'') rfl, hhigh.ne (d := '"') rfl, hhigh.ne (d := backtick) rfl,
      hhigh.ne (d := ';') rfl]

theorem lexemeDashes_cells (c : Char) (rest : List Char) :
    (decide ((lead c).ch = '-') && (tails c ++ cells rest)[0]?.any (fun next => next.ch = '-') &&
        (tails c ++ cells rest)[1]?.all fun next => asciiWhitespace next.ch) =
      decide (c = '-' ∧ lexemeRules.dashes rest = true) := by
  rw [followed_cells rfl rfl]
  by_cases hdash : c = '-' ∧ rest[0]? = some '-'
  · obtain ⟨rfl, hnext⟩ := hdash
    obtain ⟨d, more, rfl⟩ : ∃ d more, rest = d :: more :=
      List.exists_cons_of_ne_nil (by rintro rfl; cases hnext)
    obtain rfl : d = '-' := by simpa using hnext
    rw [tails_of_ascii rfl, List.nil_append, cells_cons_of_ascii rfl]
    cases more with
    | nil => rfl
    | cons d more =>
      have hblank := lead_of_ascii (p := asciiWhitespace) (fun _ => ascii_of_asciiWhitespace) d
      simp [Rules.dashes, lexemeRules, cells_cons, hblank]
  · have hnone : ¬(c = '-' ∧ lexemeRules.dashes rest = true) := by
      rintro ⟨hc, hdashes⟩
      apply hdash
      simp only [Rules.dashes, Bool.and_eq_true, decide_eq_true_eq] at hdashes
      exact ⟨hc, hdashes.1⟩
    simp [hdash, hnone]

theorem executableOpening_cells (more : List Char) :
    executableOpening (cells ('*' :: more)) = executesHere .text '/' ('*' :: more) := by
  rw [cells_cons_of_ascii rfl]
  unfold executableOpening executesHere
  cases more with
  | nil => rfl
  | cons d more =>
    by_cases hd : ascii d = true
    · rw [cells_cons_of_ascii hd]
      have hnext := next_cells (d := '!') rfl more
      simp [ch_lead hd, hnext]
    · have hhigh : (lead d).high := high_lead (by simpa using hd)
      have hne : ∀ {e : Char}, ascii e = true → d ≠ e := by
        rintro e he rfl
        exact hd he
      simp [cells_cons, hhigh.ne (d := '!') rfl, hhigh.ne (d := 'm') rfl,
        hhigh.ne (d := 'M') rfl, hne (e := '!') rfl, hne (e := 'm') rfl, hne (e := 'M') rfl]

theorem textStep_other (hquote : isQuote c = false)
    (hhash : c ≠ '#') (hdash : ¬(c = '-' ∧ rules.dashes rest = true))
    (hslash : ¬(c = '/' ∧ rest[0]? = some '*')) (hstop : c ≠ ';') :
    rules.lexer.step .text c rest = (.text, .code) := by
  simp only [Rules.lexer, Rules.step, Rules.textStep, hquote, hstop, and_false, if_false,
    if_neg hhash, if_neg hdash, if_neg hslash, Bool.false_eq_true]

theorem step_of_blank (rules : Rules) (rest : List Char) (hc : asciiWhitespace c = true) :
    rules.lexer.step .text c rest = (.text, .code) := by
  simp only [asciiWhitespace, Bool.or_eq_true, decide_eq_true_eq] at hc
  rcases hc with (((rfl | rfl) | rfl) | rfl) | rfl <;> rfl

theorem not_wordStart_of_blank (hc : asciiWhitespace c = true) :
    wordStart c = false := by
  simp only [asciiWhitespace, Bool.or_eq_true, decide_eq_true_eq] at hc
  rcases hc with (((rfl | rfl) | rfl) | rfl) | rfl <;> rfl

theorem ne_slash_of_blank (hc : asciiWhitespace c = true) : c ≠ '/' := by
  rintro rfl
  cases hc

/-- One turn of the loop at a character. -/
theorem lexemeLoop_cons (tokens : List SqlToken) (executableComment : Bool) (c : Char)
    (rest : List Char) :
    lexemeLoop tokens executableComment (cells (c :: rest)) =
      if asciiWhitespace c then lexemeLoop tokens executableComment (tails c ++ cells rest)
      else if c = '#' ∨ (c = '-' ∧ lexemeRules.dashes rest = true) then
        lexemeLoop tokens executableComment (skipLineComment (tails c ++ cells rest))
      else if c = '/' ∧ rest[0]? = some '*' then
        match skipBlockComment ((tails c ++ cells rest).drop 1) with
        | none => .error (.error (invalidSqlLexeme "unterminated block comment"))
        | some later =>
          lexemeLoop tokens (executableComment || executableOpening (tails c ++ cells rest)) later
      else if isQuote c then
        match skipQuotedValue c (tails c ++ cells rest) with
        | none => .error (.error (invalidSqlLexeme "unterminated quoted value"))
        | some later => lexemeLoop tokens executableComment later
      else if c = ';' then
        lexemeLoop (tokens ++ [.semicolon]) executableComment (tails c ++ cells rest)
      else if wordStart c then
        match slice (lead c :: (tails c ++ cells rest).takeWhile fun next => wordPart next.ch)
            ((tails c ++ cells rest).dropWhile fun next => wordPart next.ch) with
        | none => .error .panic
        | some text =>
          lexemeLoop (tokens ++ [.word (text.map Char.toUpper)]) executableComment
            ((tails c ++ cells rest).dropWhile fun next => wordPart next.ch)
      else lexemeLoop tokens executableComment (tails c ++ cells rest) := by
  have hblank := lead_of_ascii (p := asciiWhitespace) (fun _ => ascii_of_asciiWhitespace) c
  have hstart := lead_of_ascii (p := wordStart)
    (fun _ hd => ascii_of_wordPart (wordPart_of_wordStart hd)) c
  have hquote := lead_of_ascii (p := isQuote) (fun d hd => by
    simp only [isQuote, Bool.or_eq_true, decide_eq_true_eq] at hd
    rcases hd with (rfl | rfl) | rfl <;> rfl) c
  have hclosing : isQuote c = true → (lead c).ch = c := by
    intro hc
    apply ch_lead
    simp only [isQuote, Bool.or_eq_true, decide_eq_true_eq] at hc
    rcases hc with (rfl | rfl) | rfl <;> rfl
  rw [cells_cons, lexemeLoop, hblank, lexemeDashes_cells, followed_cells rfl rfl, hstart]
  unfold isQuote at hquote
  rw [hquote]
  simp only [ch_lead_eq_iff (d := '#') rfl, ch_lead_eq_iff (d := ';') rfl, decide_eq_true_eq]
  by_cases hws : asciiWhitespace c = true
  · rw [if_pos hws, if_pos hws]
  rw [if_neg hws, if_neg hws]
  by_cases hhash : c = '#'
  · rw [if_pos hhash, if_pos (.inl hhash)]
  rw [if_neg hhash]
  by_cases hdash : c = '-' ∧ lexemeRules.dashes rest = true
  · rw [if_pos hdash, if_pos (.inr hdash)]
  rw [if_neg hdash, if_neg (not_or.mpr ⟨hhash, hdash⟩)]
  by_cases hslash : c = '/' ∧ rest[0]? = some '*'
  · rw [if_pos hslash, if_pos hslash]
    split <;> split <;> simp_all
  rw [if_neg hslash, if_neg hslash]
  by_cases hc : isQuote c = true
  · rw [if_pos hc, if_pos (by simpa [isQuote] using hc), hclosing hc]
    split <;> split <;> simp_all
  rw [if_neg hc]
  exact if_neg (by simpa [isQuote] using hc)

variable {tokens : List SqlToken} {executableComment : Bool}

theorem Scans.of_same (hloop : lexemeLoop tokens executableComment (cells chars) =
      lexemeLoop tokens executableComment (cells later))
    (hreport : lexemeRules.report .text [] chars = lexemeRules.report .text [] later)
    (hlater : Scans tokens executableComment later) : Scans tokens executableComment chars := by
  unfold Scans
  rw [hloop, hreport]
  exact hlater

theorem Scans.of_token {token : SqlToken}
    (hloop : lexemeLoop tokens executableComment (cells chars) =
      lexemeLoop (tokens ++ [token]) executableComment (cells later))
    (hreport : lexemeRules.report .text [] chars =
      addReport [token] false (lexemeRules.report .text [] later))
    (hlater : Scans (tokens ++ [token]) executableComment later) :
    Scans tokens executableComment chars := by
  apply Scans.of_eq _ hreport
  · rwa [Bool.or_false]
  · rwa [Bool.or_false]

theorem Scans.of_leaves {skipped : Option (List Cell)} {mode : Mode} {chars text : List Char}
    {error : Sql.AppError} (executed : Bool)
    (hloop : lexemeLoop tokens executableComment (cells text) =
      match skipped with
      | none => .error (.error error)
      | some later => lexemeLoop tokens (executableComment || executed) later)
    (hleaves : Leaves skipped mode chars)
    (hreport : lexemeRules.report .text [] text =
      addReport [] executed (lexemeRules.report mode [] chars))
    (hlater : ∀ later : List Char, later.length ≤ chars.length →
      Scans tokens (executableComment || executed) later) :
    Scans tokens executableComment text := by
  rcases hleaves with ⟨rfl, hnone⟩ | ⟨later, rfl, hlength, hsome⟩
  · unfold Scans
    rw [hreport, hnone, hloop]
    exact ⟨error, rfl⟩
  · rw [hsome] at hreport
    apply Scans.of_eq _ hreport
    · rw [List.append_nil]
      exact hlater later hlength
    · rw [List.append_nil]
      exact hloop

theorem scans_word (hc : wordStart c = true)
    (hlater : ∀ tokens, Scans tokens executableComment (rest.dropWhile wordPart)) :
    Scans tokens executableComment (c :: rest) := by
  have hpart := wordPart_of_wordStart hc
  have hascii := ascii_of_wordPart hpart
  have hne : ∀ {d : Char}, wordPart d = false → c ≠ d := by
    rintro d hd rfl
    rw [hd] at hpart
    cases hpart
  have hblank : ¬asciiWhitespace c = true := by
    simp [asciiWhitespace, hne (d := ' ') rfl, hne (d := '\t') rfl, hne (d := '\n') rfl,
      hne (d := Char.ofNat 0x0C) rfl, hne (d := '\r') rfl]
  have hquote : ¬isQuote c = true := by
    simp [isQuote, hne (d := '\'') rfl, hne (d := '"') rfl, hne (d := backtick) rfl]
  have hstep := step_of_wordPart lexemeRules rest hpart
  obtain ⟨htake, hdrop⟩ := takeWhile_cells_of (p := wordPart) (fun d => ascii_of_wordPart) rest
  have hslice : slice (lead c :: cells (rest.takeWhile wordPart)) (cells (rest.dropWhile wordPart)) =
      some (c :: rest.takeWhile wordPart) := by
    rw [← cells_cons_of_ascii hascii, slice_cells]
  apply Scans.of_token _ _ (hlater _)
  · exact .word ((c :: rest.takeWhile wordPart).map Char.toUpper)
  · rw [lexemeLoop_cons, if_neg hblank,
      if_neg (by simp [hne (d := '#') rfl, hne (d := '-') rfl]),
      if_neg (by simp [hne (d := '/') rfl]), if_neg hquote, if_neg (hne rfl), if_pos hc,
      tails_of_ascii hascii, List.nil_append, htake, hdrop, hslice]
  · rw [report_word (by rw [hstep]) (by rwa [if_pos rfl]), hstep,
      executesHere_of_ne (hne rfl), addReport_nil, report_wordRest lexemeRules (by simp)]
    rfl

/-- The loop reports the words that the lexer marks. -/
theorem lexemeLoop_scans (tokens : List SqlToken) (executableComment : Bool) (chars : List Char) :
    Scans tokens executableComment chars := by
  induction hlength : chars.length using Nat.strong_induction_on generalizing tokens
    executableComment chars with
  | _ length ih =>
    cases chars with
    | nil =>
      unfold Scans
      rw [report_nil, cells_nil, lexemeLoop]
      simp [Mode.complete, flushWord]
    | cons c rest =>
      rw [List.length_cons] at hlength
      have hlater : ∀ (tokens : List SqlToken) (executableComment : Bool) (later : List Char),
          later.length ≤ rest.length → Scans tokens executableComment later := by
        intro tokens executableComment later hle
        exact ih later.length (by omega) tokens executableComment later rfl
      have hloop := lexemeLoop_cons tokens executableComment c rest
      -- the branches of the loop, in its order
      by_cases hws : asciiWhitespace c = true
      · rw [if_pos hws, tails_of_ascii (ascii_of_asciiWhitespace hws), List.nil_append] at hloop
        apply Scans.of_same hloop _ (hlater _ _ rest le_rfl)
        exact report_other (step_of_blank lexemeRules rest hws) (by simp)
          (fun _ => not_wordStart_of_blank hws)
          (executesHere_of_ne (ne_slash_of_blank hws) _ _)
      rw [if_neg hws] at hloop
      by_cases hline : c = '#' ∨ (c = '-' ∧ lexemeRules.dashes rest = true)
      · have hstep : lexemeRules.lexer.step .text c rest = (.line, .comment) := by
          rcases hline with rfl | ⟨rfl, hdashes⟩
          · rfl
          · have hquote : isQuote '-' = false := rfl
            simp [Rules.lexer, Rules.step, Rules.textStep, hquote, hdashes]
        have hascii : ascii c = true := by rcases hline with rfl | ⟨rfl, -⟩ <;> rfl
        have hslash : c ≠ '/' := by rcases hline with rfl | ⟨rfl, -⟩ <;> decide
        rw [if_pos hline, tails_of_ascii hascii, List.nil_append, skipLineComment_cells] at hloop
        apply Scans.of_same hloop _ (hlater _ _ _ (List.dropWhile_suffix _).length_le)
        rw [report_other hstep (by simp) (by simp) (executesHere_of_ne hslash _ _), report_line]
      rw [if_neg hline] at hloop
      by_cases hslash : c = '/' ∧ rest[0]? = some '*'
      · obtain ⟨rfl, hnext⟩ := hslash
        obtain ⟨d, more, rfl⟩ : ∃ d more, rest = d :: more :=
          List.exists_cons_of_ne_nil (by rintro rfl; cases hnext)
        obtain rfl : d = '*' := by simpa using hnext
        have hafter : (cells ('*' :: more)).drop 1 = cells more := by
          rw [cells_cons_of_ascii rfl]
          rfl
        rw [if_pos ⟨rfl, hnext⟩, tails_of_ascii rfl, List.nil_append, executableOpening_cells,
          hafter] at hloop
        apply Scans.of_leaves _ hloop (skipBlockComment_cells more)
        · have hstep : lexemeRules.lexer.step .text '/' ('*' :: more) = (.opening, .comment) := rfl
          have hopening : lexemeRules.step .opening '*' more = (.block, .comment) := rfl
          rw [report_end (by rw [hstep]; simp), hstep,
            report_inside (by simp) hopening (by simp) (by simp)]
          rfl
        · exact fun later hle => hlater _ _ later (by simp only [List.length_cons]; omega)
      rw [if_neg hslash] at hloop
      by_cases hquote : isQuote c = true
      · have hascii : ascii c = true := by
          simp only [isQuote, Bool.or_eq_true, decide_eq_true_eq] at hquote
          rcases hquote with (rfl | rfl) | rfl <;> rfl
        have hstep : lexemeRules.lexer.step .text c rest = (.quoted c, .quoted) := by
          simp only [isQuote, Bool.or_eq_true, decide_eq_true_eq] at hquote
          rcases hquote with (rfl | rfl) | rfl <;> rfl
        have hslash : c ≠ '/' := by
          rintro rfl
          cases hquote
        rw [if_pos hquote, tails_of_ascii hascii, List.nil_append] at hloop
        apply Scans.of_leaves false (by simpa only [Bool.or_false] using hloop)
          (skipQuotedValue_cells hascii rest)
        · rw [report_other hstep (by simp) (by simp) (executesHere_of_ne hslash _ _),
            addReport_nil]
        · exact fun later hle => hlater _ _ later hle
      rw [if_neg hquote] at hloop
      by_cases hstop : c = ';'
      · subst hstop
        have hstep : lexemeRules.lexer.step .text ';' rest = (.text, .stop) := rfl
        rw [if_pos rfl, tails_of_ascii rfl, List.nil_append] at hloop
        apply Scans.of_token hloop _ (hlater _ _ rest le_rfl)
        rw [report_end (by rw [hstep]; simp), hstep, executesHere_of_ne (by decide)]
        rfl
      rw [if_neg hstop] at hloop
      by_cases hstart : wordStart c = true
      · exact scans_word hstart fun tokens => hlater _ _ _ (List.dropWhile_suffix _).length_le
      rw [if_neg hstart, lexemeLoop_high fun cell hcell => high_tail hcell] at hloop
      rw [not_or] at hline
      have hstep : lexemeRules.lexer.step .text c rest = (.text, .code) :=
        textStep_other (by simpa using hquote) hline.1 hline.2 hslash hstop
      apply Scans.of_same hloop _ (hlater _ _ rest le_rfl)
      apply report_other hstep (by simp) fun _ => by simpa using hstart
      simp only [executesHere, Bool.and_eq_false_iff, decide_eq_false_iff_not]
      tauto

end Chat2DB.MySql
