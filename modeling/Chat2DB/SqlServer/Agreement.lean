import Chat2DB.SqlServer.Scanners

/-! # The SQL Server scanners and T-SQL

The splitter and the lexeme scanner read a script alike, as T-SQL does but for
comments inside of comments.
-/

namespace Chat2DB.SqlServer

open Marking
open Sql (AppError)

variable {state : LexState} {c d : Char} {chars script rest statement : List Char}

/-- How the scanners read a script: comments do not nest. -/
def flat : Lexer LexState := lexer false

/-- A part of the text under one mark. -/
def markAll (mark : Mark) (part : List Char) : Marked := part.map (·, mark)

theorem text_markAll (mark : Mark) (part : List Char) : text (markAll mark part) = part := by
  simp [text, markAll, Function.comp_def]

theorem noStop_markAll {mark : Mark} (hmark : mark ≠ .stop) (part : List Char) :
    NoStop (markAll mark part) := by
  intro item hitem
  obtain ⟨c, -, rfl⟩ := List.mem_map.mp hitem
  exact hmark

/-- What a loop over a quoted item or a comment did: it copied a part of the
characters, which the lexer reads under one mark. -/
structure Copies (mark : Mark) (state : LexState) (output chars current rest : List Char) : Prop where
  exists_copied : ∃ copied, current = output ++ copied ∧ chars = copied ++ rest ∧
    flat.readFrom state chars = (flat.readFrom .text rest).map (markAll mark copied ++ ·)

theorem Copies.cons {mark : Mark} {state next : LexState} {c : Char}
    {output chars current rest : List Char} (hstep : flat.step state c chars = (next, mark))
    (hcopies : Copies mark next (output ++ [c]) chars current rest) :
    Copies mark state output (c :: chars) current rest := by
  obtain ⟨copied, rfl, rfl, hread⟩ := hcopies.exists_copied
  refine ⟨c :: copied, by simp, rfl, ?_⟩
  rw [Lexer.readFrom_cons, hstep, hread, Option.map_map]
  rfl

theorem Copies.last {mark : Mark} {output : List Char}
    (hstep : flat.step state c chars = (.text, mark)) :
    Copies mark state output (c :: chars) (output ++ [c]) chars := by
  refine ⟨[c], rfl, rfl, ?_⟩
  rw [Lexer.readFrom_cons, hstep]
  rfl

theorem copyQuotedChars_cases (quote : Quote) (output chars : List Char) :
    (∃ current rest, copyQuotedChars quote.closing output chars = .ok (current, rest) ∧
        Copies .quoted (.quoted quote) output chars current rest) ∨
      ((∃ error, copyQuotedChars quote.closing output chars = .error error) ∧
        flat.readFrom (.quoted quote) chars = none) := by
  generalize hclosing : quote.closing = closing
  fun_induction copyQuotedChars closing output chars with
  | case1 => exact .inr ⟨⟨_, rfl⟩, rfl⟩
  | case2 output rest ih =>
    have hfirst : flat.step (.quoted quote) closing (closing :: rest) =
        (.doubled quote, .quoted) := by simp [flat, lexer, quotedStep, hclosing]
    have hsecond : flat.step (.doubled quote) closing rest = (.quoted quote, .quoted) := rfl
    rcases ih with ⟨current, after, hcopy, hcopies⟩ | ⟨herror, hread⟩
    · have htwo : output ++ [closing, closing] = output ++ [closing] ++ [closing] := by simp
      rw [htwo] at hcopies
      exact .inl ⟨current, after, hcopy, .cons hfirst (.cons hsecond hcopies)⟩
    · refine .inr ⟨herror, ?_⟩
      rw [Lexer.readFrom_cons, hfirst, Lexer.readFrom_cons, hsecond, hread]
      rfl
  | case3 output next rest hnext =>
    refine .inl ⟨_, _, rfl, .last ?_⟩
    simp [flat, lexer, quotedStep, hclosing, hnext]
  | case4 output =>
    refine .inl ⟨_, _, rfl, .last ?_⟩
    simp [flat, lexer, quotedStep, hclosing]
  | case5 output ch chars hch ih =>
    have hstep : flat.step (.quoted quote) ch chars = (.quoted quote, .quoted) := by
      simp [flat, lexer, quotedStep, hclosing, hch]
    rcases ih with ⟨current, after, hcopy, hcopies⟩ | ⟨herror, hread⟩
    · exact .inl ⟨current, after, hcopy, .cons hstep hcopies⟩
    · refine .inr ⟨herror, ?_⟩
      rw [Lexer.readFrom_cons, hstep, hread]
      rfl

theorem copyLine_copies (output chars : List Char) :
    Copies .comment .line output chars (copyLine output chars).1 (copyLine output chars).2 := by
  fun_induction copyLine output chars with
  | case1 output => exact ⟨[], by simp, rfl, rfl⟩
  | case2 output chars => exact .last (by simp [flat, lexer])
  | case3 output next chars hnext ih => exact .cons (by simp [flat, lexer, hnext]) ih

theorem copyBlock_cases (previous : Char) (output chars : List Char) :
    (∃ current rest, copyBlock previous output chars = some (current, rest) ∧
        Copies .comment (.block 0 previous) output chars current rest) ∨
      (copyBlock previous output chars = none ∧
        flat.readFrom (.block 0 previous) chars = none) := by
  fun_induction copyBlock previous output chars with
  | case1 => exact .inr ⟨rfl, rfl⟩
  | case2 previous output next chars hclose =>
    exact .inl ⟨_, _, rfl, .last (by simp [flat, lexer, blockStep, hclose])⟩
  | case3 previous output next chars hopen ih =>
    have hstep : flat.step (.block 0 previous) next chars = (.block 0 next, .comment) := by
      simp [flat, lexer, blockStep, hopen]
    rcases ih with ⟨current, after, hcopy, hcopies⟩ | ⟨hnone, hread⟩
    · exact .inl ⟨current, after, hcopy, .cons hstep hcopies⟩
    · refine .inr ⟨hnone, ?_⟩
      rw [Lexer.readFrom_cons, hstep, hread]
      rfl

theorem slash_cases (current chars : List Char) :
    (∃ next rest, copyBlock (Char.ofNat 0) (current ++ ['/', '*']) chars = some (next, rest) ∧
        Copies .comment .slash (current ++ ['/']) ('*' :: chars) next rest) ∨
      (copyBlock (Char.ofNat 0) (current ++ ['/', '*']) chars = none ∧
        flat.readFrom .slash ('*' :: chars) = none) := by
  have hstep : flat.step .slash '*' chars = (.block 0 (Char.ofNat 0), .comment) := rfl
  rcases copyBlock_cases (Char.ofNat 0) (current ++ ['/', '*']) chars with
    ⟨next, rest, hcopy, hcopies⟩ | ⟨hnone, hread⟩
  · refine .inl ⟨next, rest, hcopy, .cons hstep ?_⟩
    simpa using hcopies
  · refine .inr ⟨hnone, ?_⟩
    rw [Lexer.readFrom_cons, hstep, hread]
    rfl

theorem exists_tail (hnext : chars.head? = some d) :
    ∃ tail, chars = d :: tail := by
  cases chars with
  | nil => cases hnext
  | cons c tail => exact ⟨tail, by rw [Option.some.inj hnext]⟩

/-! ## The splitter -/

theorem pushStatement_eq (statements : List (List Char)) (current : List Char) :
    pushStatement statements current = statements ++ push current := by
  unfold pushStatement push
  dsimp only
  split_ifs <;> simp

/-- The splitter succeeds with the statements of what was read, or fails where
nothing can be read. -/
def Splits (statements : List (List Char)) (current chars : List Char) : Prop :=
  (∃ marked, flat.readFrom .text chars = some marked ∧
      splitLoop statements current chars = .ok (statements ++ collect current marked)) ∨
    ((∃ error, splitLoop statements current chars = .error error) ∧
      flat.readFrom .text chars = none)

theorem Splits.of_copies {statements : List (List Char)} {mark : Mark} {state : LexState} {c : Char}
    {current chars next rest : List Char} (hmark : mark ≠ .stop)
    (hloop : splitLoop statements current (c :: chars) = splitLoop statements next rest)
    (hstep : flat.step .text c chars = (state, mark))
    (hcopies : Copies mark state (current ++ [c]) chars next rest)
    (hsplits : Splits statements next rest) : Splits statements current (c :: chars) := by
  obtain ⟨copied, rfl, rfl, hread⟩ := hcopies.exists_copied
  have hfirst : flat.readFrom .text (c :: (copied ++ rest)) =
      (flat.readFrom .text rest).map (markAll mark (c :: copied) ++ ·) := by
    rw [Lexer.readFrom_cons, hstep, hread, Option.map_map]
    rfl
  unfold Splits
  rw [hloop, hfirst]
  rcases hsplits with ⟨marked, hmarked, hok⟩ | ⟨herror, hnone⟩
  · refine .inl ⟨_, by rw [hmarked]; rfl, ?_⟩
    rw [hok, collect_append _ (noStop_markAll hmark _), text_markAll]
    simp
  · exact .inr ⟨herror, by rw [hnone]; rfl⟩

theorem Splits.of_none {statements : List (List Char)} {mark : Mark} {state : LexState} {c : Char}
    {current chars : List Char} {error : AppError}
    (hloop : splitLoop statements current (c :: chars) = .error error)
    (hstep : flat.step .text c chars = (state, mark))
    (hread : flat.readFrom state chars = none) : Splits statements current (c :: chars) := by
  refine .inr ⟨⟨error, hloop⟩, ?_⟩
  rw [Lexer.readFrom_cons, hstep, hread]
  rfl

theorem copies_of_copyQuotedChars {quote : Quote} {output chars current rest : List Char}
    (hcopy : copyQuotedChars quote.closing output chars = .ok (current, rest)) :
    Copies .quoted (.quoted quote) output chars current rest := by
  rcases copyQuotedChars_cases quote output chars with ⟨_, _, hok, hcopies⟩ | ⟨⟨_, herror⟩, -⟩
  · rw [hcopy] at hok
    obtain ⟨rfl, rfl⟩ := Prod.mk.inj (Except.ok.inj hok)
    exact hcopies
  · rw [hcopy] at herror
    cases herror

theorem readFrom_of_copyQuotedChars {quote : Quote} {output chars : List Char} {error : AppError}
    (hcopy : copyQuotedChars quote.closing output chars = .error error) :
    flat.readFrom (.quoted quote) chars = none := by
  rcases copyQuotedChars_cases quote output chars with ⟨_, _, hok, -⟩ | ⟨-, hread⟩
  · rw [hcopy] at hok
    cases hok
  · exact hread

theorem exists_quote (chars : List Char) (hquote : c = '\'' ∨ c = '"') :
    ∃ quote : Quote, quote.closing = c ∧ flat.step .text c chars = (.quoted quote, .quoted) := by
  rcases hquote with rfl | rfl
  · exact ⟨.single, rfl, by simp [flat, lexer, textStep]⟩
  · exact ⟨.double, rfl, by simp [flat, lexer, textStep]⟩

theorem step_bracket (chars : List Char) :
    flat.step .text '[' chars = (.quoted .bracket, .quoted) := by
  simp [flat, lexer, textStep]

theorem step_plain (hquote : ¬ (c = '\'' ∨ c = '"'))
    (hbracket : c ≠ '[') (hdash : ¬ (c = '-' ∧ chars.head? = some '-'))
    (hslash : ¬ (c = '/' ∧ chars.head? = some '*')) (hstop : c ≠ ';') :
    flat.step .text c chars = (.text, .code) := by
  rw [not_or] at hquote
  show textStep c chars = (.text, .code)
  unfold textStep
  rw [if_neg hquote.1, if_neg hquote.2, if_neg hbracket, if_neg hdash, if_neg hslash, if_neg hstop]

theorem splitLoop_block (statements : List (List Char)) (current chars : List Char) :
    splitLoop statements current ('/' :: '*' :: chars) =
      match copyBlock (Char.ofNat 0) (current ++ ['/', '*']) chars with
      | none => .error (.invalid "invalid_sqlserver_console_request"
          "The SQL Server script contains an unterminated comment")
      | some (next, rest) => splitLoop statements next rest := by
  rw [splitLoop, if_neg (by simp), if_neg (by simp), if_neg (by simp), if_pos (by simp)]
  split
  · rename_i hnone
    rw [List.tail_cons] at hnone
    rw [hnone]
  · rename_i next rest hsome
    rw [List.tail_cons] at hsome
    rw [hsome]

/-- The loop splits where the lexer marks a stop. -/
theorem splitLoop_splits (statements : List (List Char)) (current chars : List Char) :
    Splits statements current chars := by
  -- quotes, brackets, comments, the semicolon and the rest, as the loop tries them
  fun_induction splitLoop statements current chars with
  | case1 statements current =>
    refine .inl ⟨[], rfl, ?_⟩
    rw [splitLoop, pushStatement_eq]
    rfl
  | case2 statements current ch chars hquote error hcopy =>
    obtain ⟨quote, rfl, hstep⟩ := exists_quote chars hquote
    apply Splits.of_none _ hstep (readFrom_of_copyQuotedChars hcopy)
    · exact error
    rw [splitLoop, if_pos hquote]
    split <;> simp_all
  | case3 statements current ch chars hquote next rest hcopy _ ih =>
    obtain ⟨quote, rfl, hstep⟩ := exists_quote chars hquote
    apply Splits.of_copies (by simp) _ hstep (copies_of_copyQuotedChars hcopy) ih
    rw [splitLoop, if_pos hquote]
    split <;> simp_all
  | case4 statements current chars error hquote hcopy =>
    apply Splits.of_none _ (step_bracket chars) (@readFrom_of_copyQuotedChars .bracket _ _ _ hcopy)
    · exact error
    rw [splitLoop, if_neg hquote, if_pos rfl]
    split <;> simp_all
  | case5 statements current chars next rest hquote hcopy _ ih =>
    apply Splits.of_copies (by simp) _ (step_bracket chars)
      (@copies_of_copyQuotedChars .bracket _ _ _ _ hcopy) ih
    rw [splitLoop, if_neg hquote, if_pos rfl]
    split <;> simp_all
  | case6 statements current ch chars hquote hbracket hdash _ copied ih =>
    obtain ⟨rfl, hnext⟩ := hdash
    obtain ⟨chars, rfl⟩ := exists_tail hnext
    have hcopies : Copies .comment .line (current ++ ['-']) ('-' :: chars) copied.1 copied.2 := by
      apply @Copies.cons _ _ .line
      · simp [flat, lexer]
      · simpa [copied] using copyLine_copies (current ++ ['-', '-']) chars
    apply Splits.of_copies (by simp) _ _ hcopies ih
    · rw [splitLoop]
      simp [copied]
    · simp [flat, lexer, textStep]
  | case7 statements current ch chars hquote hbracket hdash hslash hcopy =>
    obtain ⟨rfl, hnext⟩ := hslash
    obtain ⟨chars, rfl⟩ := exists_tail hnext
    rw [List.tail_cons] at hcopy
    rcases slash_cases current chars with ⟨_, _, hsome, -⟩ | ⟨-, hread⟩
    · cases hcopy.symm.trans hsome
    · apply Splits.of_none _ _ hread
      · exact .comment
      · exact .invalid "invalid_sqlserver_console_request"
          "The SQL Server script contains an unterminated comment"
      · rw [splitLoop_block, hcopy]
      · simp [flat, lexer, textStep]
  | case8 statements current ch chars hquote hbracket hdash hslash next rest hcopy _ ih =>
    obtain ⟨rfl, hnext⟩ := hslash
    obtain ⟨chars, rfl⟩ := exists_tail hnext
    rw [List.tail_cons] at hcopy
    rcases slash_cases current chars with ⟨_, _, hsome, hcopies⟩ | ⟨hnone, -⟩
    · obtain ⟨rfl, rfl⟩ := Prod.mk.inj (Option.some.inj (hcopy.symm.trans hsome))
      apply Splits.of_copies (by simp) _ _ hcopies ih
      · rw [splitLoop_block, hcopy]
      · simp [flat, lexer, textStep]
    · cases hcopy.symm.trans hnone
  | case9 statements current chars hquote hbracket hdash hslash ih =>
    have hloop : splitLoop statements current (';' :: chars) =
        splitLoop (pushStatement statements current) [] chars := by
      rw [splitLoop]
      simp
    have hread : flat.readFrom .text (';' :: chars) =
        (flat.readFrom .text chars).map ((';', .stop) :: ·) := by
      rw [Lexer.readFrom_cons]
      simp [flat, lexer, textStep]
    unfold Splits
    rw [hloop, hread]
    rcases ih with ⟨marked, hmarked, hok⟩ | ⟨herror, hnone⟩
    · refine .inl ⟨_, by rw [hmarked]; rfl, ?_⟩
      rw [hok, pushStatement_eq, collect, if_pos rfl, List.append_assoc]
    · exact .inr ⟨herror, by rw [hnone]; rfl⟩
  | case10 statements current ch chars hquote hbracket hdash hslash hstop ih =>
    have hstep := step_plain hquote hbracket hdash hslash hstop
    apply @Splits.of_copies _ .code _ _ _ _ _ _ (by simp) _ hstep ⟨[], by simp, rfl, _⟩ ih
    · rw [splitLoop]
      simp [hquote, hbracket, hdash, hslash, hstop]
    · simp [markAll]

theorem splitSqlserverScript_eq_ok_iff {list : List (List Char)} :
    splitSqlserverScript script = .ok list ↔
      ∃ marked, flat.read script = some marked ∧ list = statements marked := by
  unfold splitSqlserverScript Lexer.read
  rcases splitLoop_splits [] [] script with ⟨marked, hread, hok⟩ | ⟨⟨error, herror⟩, hnone⟩
  · rw [hok, List.nil_append, collect_nil]
    constructor
    · intro hlist
      exact ⟨marked, hread, (Except.ok.inj hlist).symm⟩
    · rintro ⟨other, hother, rfl⟩
      obtain rfl := Option.some.inj (hread.symm.trans hother)
      rfl
  · rw [herror]
    constructor
    · intro hlist
      cases hlist
    · rintro ⟨marked, hread, -⟩
      cases hnone.symm.trans hread

/-! ## The lexeme scanner -/

theorem skipQuotedChars_of_copy {closing : Char} {output current : List Char}
    (hcopy : copyQuotedChars closing output chars = .ok (current, rest)) :
    skipQuotedChars closing chars = rest := by
  fun_induction copyQuotedChars closing output chars with
  | case1 => cases hcopy
  | case2 output after ih =>
    simpa [skipQuotedChars] using ih hcopy
  | case3 output next after hnext =>
    obtain ⟨-, rfl⟩ := Prod.mk.inj (Except.ok.inj hcopy)
    simp [skipQuotedChars, hnext]
  | case4 output =>
    obtain ⟨-, rfl⟩ := Prod.mk.inj (Except.ok.inj hcopy)
    simp [skipQuotedChars]
  | case5 output ch after hch ih =>
    rw [skipQuotedChars.eq_def]
    simpa [hch] using ih hcopy

theorem skipLine_eq (output chars : List Char) : skipLine chars = (copyLine output chars).2 := by
  fun_induction copyLine output chars with
  | case1 => rfl
  | case2 output chars => simp [skipLine]
  | case3 output next chars hnext ih => rw [skipLine, if_neg hnext, ih]

theorem skipBlock_eq (previous : Char) (output chars : List Char) :
    skipBlock previous chars = (copyBlock previous output chars).map (·.2) := by
  fun_induction copyBlock previous output chars with
  | case1 => rfl
  | case2 previous output next chars hclose => rw [skipBlock, if_pos hclose]; rfl
  | case3 previous output next chars hopen ih => rw [skipBlock, if_neg hopen, ih]

/-- The number of separators. -/
def stops (marked : Marked) : Nat := marked.countP fun item => item.2 = .stop

theorem stops_append (first second : Marked) : stops (first ++ second) = stops first + stops second :=
  List.countP_append

theorem stops_eq_zero_iff {marked : Marked} : stops marked = 0 ↔ NoStop marked := by
  simp [stops, NoStop, List.countP_eq_zero]

/-- The scanner takes every text that can be read, and counts its separators. -/
def Scans (words : List (List Char)) (word : List Char) (statementTerminators : Nat)
    (chars : List Char) : Prop :=
  ∀ marked, flat.readFrom .text chars = some marked →
    ∃ found, lexemeLoop words word statementTerminators chars =
      .ok (found, statementTerminators + stops marked)

theorem Scans.of_copies {words later : List (List Char)} {word next : List Char}
    {statementTerminators : Nat} {mark : Mark} {state : LexState} {c : Char}
    {output chars current rest : List Char} (hmark : mark ≠ .stop)
    (hloop : lexemeLoop words word statementTerminators (c :: chars) =
      lexemeLoop later next statementTerminators rest)
    (hstep : flat.step .text c chars = (state, mark))
    (hcopies : Copies mark state output chars current rest)
    (hscans : Scans later next statementTerminators rest) :
    Scans words word statementTerminators (c :: chars) := by
  intro marked hread
  obtain ⟨copied, -, rfl, hcopied⟩ := hcopies.exists_copied
  rw [Lexer.readFrom_cons, hstep, hcopied, Option.map_map, Option.map_eq_some_iff] at hread
  obtain ⟨after, hafter, rfl⟩ := hread
  obtain ⟨found, hfound⟩ := hscans after hafter
  have hnone : stops (markAll mark (c :: copied)) = 0 :=
    stops_eq_zero_iff.mpr (noStop_markAll hmark _)
  refine ⟨found, ?_⟩
  rw [hloop, hfound]
  have hstops : stops (markAll mark (c :: copied) ++ after) = stops after := by
    rw [stops_append, hnone, Nat.zero_add]
  rw [← hstops]
  rfl

theorem Scans.of_none {words : List (List Char)} {word : List Char} {statementTerminators : Nat}
    {mark : Mark} {state : LexState} {c : Char} {chars : List Char}
    (hstep : flat.step .text c chars = (state, mark)) (hread : flat.readFrom state chars = none) :
    Scans words word statementTerminators (c :: chars) := by
  intro marked hmarked
  rw [Lexer.readFrom_cons, hstep, hread] at hmarked
  cases hmarked

theorem Scans.quoted {words later : List (List Char)} {word : List Char}
    {statementTerminators : Nat} {c : Char} {quote : Quote} {chars : List Char}
    (hloop : lexemeLoop words word statementTerminators (c :: chars) =
      lexemeLoop later [] statementTerminators (skipQuotedChars quote.closing chars))
    (hstep : flat.step .text c chars = (.quoted quote, .quoted))
    (hscans : Scans later [] statementTerminators (skipQuotedChars quote.closing chars)) :
    Scans words word statementTerminators (c :: chars) := by
  rcases copyQuotedChars_cases quote [] chars with ⟨current, rest, hcopy, hcopies⟩ | ⟨-, hread⟩
  · rw [skipQuotedChars_of_copy hcopy] at hloop hscans
    exact Scans.of_copies (by simp) hloop hstep hcopies hscans
  · exact Scans.of_none hstep hread

theorem Scans.plain {words later : List (List Char)} {word next : List Char}
    {statementTerminators : Nat} (hloop : lexemeLoop words word statementTerminators (c :: chars) =
      lexemeLoop later next statementTerminators chars)
    (hstep : flat.step .text c chars = (.text, .code))
    (hscans : Scans later next statementTerminators chars) :
    Scans words word statementTerminators (c :: chars) := by
  have hcopies : Copies .code .text [] chars [] chars := by
    refine ⟨[], rfl, rfl, ?_⟩
    simp [markAll]
  exact Scans.of_copies (by simp) hloop hstep hcopies hscans

theorem textStep_of_word (hword : c.isAlphanum ∨ c = '_') :
    textStep c rest = (.text, .code) := by
  have hother : ∀ special : Char, special.isAlphanum = false → special ≠ '_' → c ≠ special := by
    rintro special hspecial hunderscore rfl
    rcases hword with hword | hword
    · rw [hspecial] at hword
      cases hword
    · exact hunderscore hword
  unfold textStep
  rw [if_neg, if_neg, if_neg, if_neg, if_neg, if_neg]
  · exact hother ';' (by decide) (by decide)
  · exact fun h => hother '/' (by decide) (by decide) h.1
  · exact fun h => hother '-' (by decide) (by decide) h.1
  · exact hother '[' (by decide) (by decide)
  · exact hother '"' (by decide) (by decide)
  · exact hother '\'' (by decide) (by decide)

theorem lexemeLoop_block (words : List (List Char)) (word : List Char)
    (statementTerminators : Nat) (chars : List Char) :
    lexemeLoop words word statementTerminators ('/' :: '*' :: chars) =
      match skipBlock (Char.ofNat 0) chars with
      | none => .error (.invalid "sqlserver_native_query_unsupported"
          "The SQL Server statement contains an unterminated comment")
      | some rest => lexemeLoop (pushWord words word) [] statementTerminators rest := by
  rw [lexemeLoop, if_neg (by decide), if_neg (by simp), if_neg (by simp), if_neg (by simp),
    if_pos (by simp)]
  split
  · rename_i hnone
    rw [List.tail_cons] at hnone
    rw [hnone]
  · rename_i rest hsome
    rw [List.tail_cons] at hsome
    rw [hsome]

/-- The loop counts words and terminators as the lexer marks them. -/
theorem lexemeLoop_scans (words : List (List Char)) (word : List Char)
    (statementTerminators : Nat) (chars : List Char) :
    Scans words word statementTerminators chars := by
  fun_induction lexemeLoop words word statementTerminators chars with
  | case1 words word terminators =>
    intro marked hread
    obtain rfl := Option.some.inj hread
    exact ⟨_, by rw [lexemeLoop]; rfl⟩
  | case2 words word terminators ch chars hword ih =>
    apply Scans.plain _ (textStep_of_word hword) ih
    rw [lexemeLoop, if_pos hword]
  | case3 words word terminators ch chars hword hquote _ ih =>
    obtain ⟨quote, rfl, hstep⟩ := exists_quote chars hquote
    apply Scans.quoted _ hstep ih
    rw [lexemeLoop, if_neg hword, if_pos hquote]
  | case4 words word terminators chars _ hword hquote ih =>
    apply @Scans.quoted _ _ _ _ _ .bracket _ _ (step_bracket chars) ih
    rw [lexemeLoop, if_neg hword, if_neg hquote, if_pos rfl]
    rfl
  | case5 words word terminators ch chars hword hquote hbracket hdash _ ih =>
    obtain ⟨rfl, hnext⟩ := hdash
    obtain ⟨chars, rfl⟩ := exists_tail hnext
    rw [List.tail_cons, skipLine_eq []] at ih
    have hcopies : Copies .comment .line [] ('-' :: chars) _ _ :=
      @Copies.cons _ _ .line _ _ _ _ _ (by simp [flat, lexer]) (copyLine_copies ['-'] chars)
    apply Scans.of_copies (by simp) _ _ hcopies
    · rwa [← skipLine_eq, skipLine_eq []]
    · rw [lexemeLoop, if_neg hword, if_neg hquote, if_neg hbracket, if_pos ⟨rfl, rfl⟩,
        List.tail_cons, skipLine_eq ['-']]
    · simp [flat, lexer, textStep]
  | case6 words word terminators ch chars hword hquote hbracket hdash hslash hskip =>
    obtain ⟨rfl, hnext⟩ := hslash
    obtain ⟨chars, rfl⟩ := exists_tail hnext
    rw [List.tail_cons, skipBlock_eq _ ([] ++ ['/', '*']), Option.map_eq_none_iff] at hskip
    rcases slash_cases [] chars with ⟨_, _, hsome, -⟩ | ⟨-, hread⟩
    · cases hskip.symm.trans hsome
    · exact @Scans.of_none _ _ _ .comment _ _ _ (by simp [flat, lexer, textStep]) hread
  | case7 words word terminators ch chars hword hquote hbracket hdash hslash rest hskip _ ih =>
    obtain ⟨rfl, hnext⟩ := hslash
    obtain ⟨chars, rfl⟩ := exists_tail hnext
    rw [List.tail_cons] at hskip
    rcases slash_cases [] chars with ⟨current, after, hsome, hcopies⟩ | ⟨hnone, -⟩
    · have hrest : rest = after := by
        rw [skipBlock_eq _ ([] ++ ['/', '*']), hsome] at hskip
        exact (Option.some.inj hskip).symm
      subst hrest
      apply Scans.of_copies (by simp) _ _ hcopies ih
      · rw [lexemeLoop_block, hskip]
      · simp [flat, lexer, textStep]
    · rw [skipBlock_eq _ ([] ++ ['/', '*']), hnone] at hskip
      cases hskip
  | case8 words word terminators chars hword hquote hbracket hdash hslash ih =>
    intro marked hread
    have hstep : flat.step .text ';' chars = (.text, .stop) := by simp [flat, lexer, textStep]
    rw [Lexer.readFrom_cons, hstep, Option.map_eq_some_iff] at hread
    obtain ⟨after, hafter, rfl⟩ := hread
    obtain ⟨found, hfound⟩ := ih after hafter
    have hloop : lexemeLoop words word terminators (';' :: chars) =
        lexemeLoop (pushWord words word) [] (terminators + 1) chars := by
      rw [lexemeLoop]
      simp
    refine ⟨found, ?_⟩
    rw [hloop, hfound]
    have hstops : stops ((';', .stop) :: after) = 1 + stops after := by
      simp [stops, Nat.add_comm]
    rw [hstops, Nat.add_assoc]
  | case9 words word terminators ch chars hword hquote hbracket hdash hslash hstop ih =>
    apply Scans.plain _ (step_plain hquote hbracket hdash hslash hstop) ih
    rw [lexemeLoop]
    simp [hword, hquote, hbracket, hdash, hslash, hstop]

/-! ## Statements that are read again -/

theorem not_blank_of (hc : Text.blank c = false)
    (hd : d = ';' ∨ Text.blank d = true) (hne : c ≠ ';') : d ≠ c := by
  rintro rfl
  rcases hd with rfl | hd
  · exact hne rfl
  · rw [hc] at hd
    cases hd

theorem head?_append (rest later : List Char) (hd : d ≠ c) :
    (rest ++ d :: later).head? = some c ↔ rest.head? = some c := by
  cases rest with
  | nil => simpa using hd
  | cons first rest => simp

theorem ne_of_blank (hblank : Text.blank c = true) (hd : Text.blank d = false) :
    c ≠ d := by
  rintro rfl
  rw [hd] at hblank
  cases hblank

theorem lexer_cutting (nesting : Bool) : (lexer nesting).Cutting ';' where
  stop := by
    intro state c rest hstop
    cases state with
    | text =>
      simp only [lexer] at hstop ⊢
      unfold textStep at hstop ⊢
      split_ifs at hstop ⊢
      simp_all
    | quoted quote =>
      simp only [lexer, quotedStep] at hstop
      split_ifs at hstop
    | block depth previous =>
      simp only [lexer, blockStep] at hstop
      split_ifs at hstop
    | doubled | line | slash => cases hstop
  -- what stands behind a stop or a blank is not looked at
  blind := by
    intro state c rest d later hd
    have hdash := head?_append rest later
      (not_blank_of (c := '-') (by decide) hd (by decide))
    have hstar := head?_append rest later
      (not_blank_of (c := '*') (by decide) hd (by decide))
    have hquote : ∀ quote : Quote, (rest ++ d :: later).head? = some quote.closing ↔
        rest.head? = some quote.closing := by
      intro quote
      apply head?_append
      cases quote <;> exact not_blank_of (by decide) hd (by decide)
    cases state with
    | text => simp only [lexer, textStep, hdash, hstar]
    | quoted quote => simp only [lexer, quotedStep, hquote]
    | doubled | line | slash | block => rfl
  blank_start := by
    intro c rest hblank
    apply step_plain
    · exact not_or.mpr ⟨ne_of_blank hblank (by decide), ne_of_blank hblank (by decide)⟩
    · exact ne_of_blank hblank (by decide)
    · exact fun h => ne_of_blank hblank (by decide) h.1
    · exact fun h => ne_of_blank hblank (by decide) h.1
    · exact ne_of_blank hblank (by decide)
  blank_open := by
    intro state c rest hblank hopen
    cases state with
    | text | line => simp [lexer] at hopen
    | quoted quote =>
      have hclosing : c ≠ quote.closing := by
        apply ne_of_blank hblank
        cases quote <;> decide
      simp [lexer, quotedStep, hclosing]
    | doubled | slash => simp [lexer]
    | block depth previous =>
      have hslash : c ≠ '/' := ne_of_blank hblank (by decide)
      have hstar : c ≠ '*' := ne_of_blank hblank (by decide)
      simp [lexer, blockStep, hslash, hstar]

/-! ## T-SQL -/

theorem flat_depth {previous : Char} {depth : Nat}
    (hstate : ∀ depth previous, state = .block depth previous → depth = 0)
    (hblock : (flat.step state c rest).1 = .block depth previous) : depth = 0 := by
  cases state with
  | text =>
    simp only [flat, lexer, textStep] at hblock
    split_ifs at hblock
  | quoted quote =>
    simp only [flat, lexer, quotedStep] at hblock
    split_ifs at hblock
  | doubled quote => cases hblock
  | line =>
    simp only [flat, lexer] at hblock
    split_ifs at hblock
  | slash =>
    cases hblock
    rfl
  | block outer before =>
    obtain rfl := hstate outer before rfl
    simp only [flat, lexer, blockStep, Bool.false_eq_true, false_and, if_false] at hblock
    split_ifs at hblock
    cases hblock
    rfl

theorem tsql_readFrom (hstate : ∀ depth previous, state = .block depth previous → depth = 0)
    (hflat : opensWithin state chars = false) :
    tsql.readFrom state chars = flat.readFrom state chars := by
  induction chars generalizing state with
  | nil => rfl
  | cons c rest ih =>
    rw [opensWithin, Bool.or_eq_false_iff] at hflat
    obtain ⟨hopens, hrest⟩ := hflat
    have hstep : tsql.step state c rest = flat.step state c rest := by
      cases state with
      | block depth previous =>
        have hnot : ¬ (previous = '/' ∧ c = '*') := by simpa [opensComment] using hopens
        simp [tsql, flat, lexer, blockStep, hnot]
      | _ => rfl
    have hnext : ∀ depth previous, (tsql.step state c rest).1 = .block depth previous →
        depth = 0 := by
      intro depth previous hblock
      rw [hstep] at hblock
      exact flat_depth hstate hblock
    rw [Lexer.readFrom_cons, Lexer.readFrom_cons, ih hnext hrest, hstep]

theorem tsql_read (hflat : opensWithin .text script = false) :
    tsql.read script = flat.read script :=
  tsql_readFrom (fun _ _ h => by cases h) hflat

/-- A character of a token: it is neither blank nor in a comment, and separates
nothing. -/
def InToken (item : Char × Mark) : Prop :=
  Text.blank item.1 = false ∧ item.2 ≠ .comment ∧ item.2 ≠ .stop

/-- What the scanners have to do with a script. -/
structure Agrees (script : List Char) : Prop where
  /-- The statements are what T-SQL finds between the separators. -/
  splits : ∀ list, splitSqlserverScript script = .ok list →
    ∃ marked, tsql.read script = some marked ∧ list = statements marked
  /-- Only a script that T-SQL cannot read to its end is refused. -/
  fails : (∃ error, splitSqlserverScript script = .error error) ↔ tsql.read script = none
  /-- Each statement has words, and no separator in it. -/
  lexemes : ∀ list, splitSqlserverScript script = .ok list → ∀ statement ∈ list,
    ∃ words, lexemeLoop [] [] 0 statement = .ok (words, 0) ∧ sqlLexemes statement = .ok { words }
  /-- A single statement is one for T-SQL: it has no separator, and none stood
  between two tokens. -/
  single : ∀ statement, validateSingleStatement script = .ok statement →
    (∃ marked, tsql.read statement = some marked ∧ NoStop marked) ∧
      ∃ marked, tsql.read script = some marked ∧ ∀ before c after,
        marked = before ++ (c, .stop) :: after →
          ¬ ((∃ item ∈ before, InToken item) ∧ ∃ item ∈ after, InToken item)

theorem sqlLexemes_of_statement {list : List (List Char)}
    (hsplit : splitSqlserverScript script = .ok list) (hstatement : statement ∈ list) :
    ∃ words, lexemeLoop [] [] 0 statement = .ok (words, 0) ∧
      sqlLexemes statement = .ok { words } := by
  obtain ⟨marked, hread, rfl⟩ := splitSqlserverScript_eq_ok_iff.mp hsplit
  obtain ⟨middle, hmiddle, hnone, -⟩ :=
    (lexer_cutting false).read_of_mem_statements hread hstatement
  obtain ⟨words, hwords⟩ := lexemeLoop_scans [] [] 0 statement middle hmiddle
  rw [stops_eq_zero_iff.mpr hnone] at hwords
  obtain ⟨segment, -, rfl, hblank⟩ := mem_statements.mp hstatement
  refine ⟨words, hwords, ?_⟩
  unfold sqlLexemes
  rw [if_neg (Text.trim_trim_ne_nil hblank), hwords]
  rfl

theorem validateSingleStatement_ok {sql : List Char}
    (hvalid : validateSingleStatement sql = .ok statement) :
    splitSqlserverScript sql = .ok [statement] := by
  unfold validateSingleStatement at hvalid
  split_ifs at hvalid
  split at hvalid
  · cases hvalid
  · rename_i found hsplit
    rw [hsplit, Except.ok.inj hvalid]
  · cases hvalid

theorem not_between_tokens {marked before after : Marked}
    (hone : statements marked = [statement]) (hmarked : marked = before ++ (c, .stop) :: after) :
    ¬ ((∃ item ∈ before, InToken item) ∧ ∃ item ∈ after, InToken item) := by
  have hsome : ∀ part : Marked, (∃ item ∈ part, InToken item) → statements part ≠ [] := by
    rintro part ⟨item, hitem, hblank, -, hstop⟩ hnone
    rw [blank_of_statements_eq_nil hnone item hitem hstop] at hblank
    cases hblank
  rintro ⟨hbefore, hafter⟩
  rw [hmarked, statements_append_stop] at hone
  have hlength := congrArg List.length hone
  have hfirst := List.length_pos_iff.mpr (hsome before hbefore)
  have hsecond := List.length_pos_iff.mpr (hsome after hafter)
  rw [List.length_append, List.length_singleton] at hlength
  omega

/-- The scanners agree with T-SQL and with each other on every script in which no
comment is opened inside of a comment. -/
theorem agrees_of_flat {script : List Char} (hflat : opensWithin .text script = false) :
    Agrees script where
  splits := by
    intro list hsplit
    rw [tsql_read hflat]
    exact splitSqlserverScript_eq_ok_iff.mp hsplit
  fails := by
    rw [tsql_read hflat]
    constructor
    · rintro ⟨error, herror⟩
      by_contra hread
      obtain ⟨marked, hmarked⟩ := Option.ne_none_iff_exists'.mp hread
      have hok := splitSqlserverScript_eq_ok_iff.mpr ⟨marked, hmarked, rfl⟩
      rw [herror] at hok
      cases hok
    · intro hread
      cases hsplit : splitSqlserverScript script with
      | error error => exact ⟨error, rfl⟩
      | ok list =>
        obtain ⟨marked, hmarked, -⟩ := splitSqlserverScript_eq_ok_iff.mp hsplit
        cases hread.symm.trans hmarked
  lexemes := fun list hsplit statement hstatement => sqlLexemes_of_statement hsplit hstatement
  single := by
    intro statement hvalid
    obtain ⟨marked, hread, hone⟩ :=
      splitSqlserverScript_eq_ok_iff.mp (validateSingleStatement_ok hvalid)
    rw [← tsql_read hflat] at hread
    obtain ⟨middle, hmiddle, hnone, -⟩ := (lexer_cutting true).read_of_mem_statements hread
      (show statement ∈ Marking.statements marked by simp [← hone])
    refine ⟨⟨middle, hmiddle, hnone⟩, marked, hread, ?_⟩
    intro before c after hmarked
    exact not_between_tokens hone.symm hmarked

/-- A script with two statements and a comment. -/
theorem twoStatements_agree :
    opensWithin .text "SELECT 1 -- one;\n; DELETE FROM [a]]b] /* ; */".toList = false ∧
      Agrees "SELECT 1 -- one;\n; DELETE FROM [a]]b] /* ; */".toList :=
  ⟨by decide, agrees_of_flat (by decide)⟩

/-- T-SQL reads one comment and then a second statement; the splitter ends the
comment early and takes the rest for a string. -/
theorem nestedComment_disagrees :
    validateSingleStatement "/*/**/'*/;DROP TABLE t--'".toList =
        .ok "/*/**/'*/;DROP TABLE t--'".toList ∧
      ¬ Agrees "/*/**/'*/;DROP TABLE t--'".toList := by
  have hflat : (flat.read "/*/**/'*/;DROP TABLE t--'".toList).map statements =
      some ["/*/**/'*/;DROP TABLE t--'".toList] := by decide
  have htsql : (tsql.read "/*/**/'*/;DROP TABLE t--'".toList).map stops = some 1 := by decide
  obtain ⟨marked, hmarked, hone⟩ := Option.map_eq_some_iff.mp hflat
  have hsplit := splitSqlserverScript_eq_ok_iff.mpr ⟨marked, hmarked, hone.symm⟩
  have hvalid : validateSingleStatement "/*/**/'*/;DROP TABLE t--'".toList =
      .ok "/*/**/'*/;DROP TABLE t--'".toList := by
    unfold validateSingleStatement
    rw [if_neg (by decide), hsplit]
  refine ⟨hvalid, fun hagrees => ?_⟩
  obtain ⟨⟨read, hread, hnone⟩, -⟩ := hagrees.single _ hvalid
  rw [hread, Option.map_some, stops_eq_zero_iff.mpr hnone] at htsql
  cases htsql

end Chat2DB.SqlServer
