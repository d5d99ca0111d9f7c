import Chat2DB.MySql.Splitting
import Chat2DB.MySql.Words

/-! # The two lexers of the MySQL console

The splitter reads as MySQL does, the scanner of words with rules of its own. They
find the same words and the same statements where the rules do not differ.
-/

namespace Chat2DB.MySql

open Utf8
open Marking (Mark Marked Lexer)

variable {mode : Mode} {c d : Char} {rest script : List Char} {odd : Bool} {after : Marked}

/-! ## Where the rules do not differ -/

/-- A backslash in an identifier that is not itself behind such a backslash. -/
def unpaired (mode : Mode) (odd : Bool) (c : Char) : Bool :=
  mode = .quoted backtick && c = '\\' && !odd

/-- A backtick behind an odd number of backslashes, a carriage return with something
between it and the end of the line, or two dashes before a control character that is
no blank. -/
def hazard (mode : Mode) (odd : Bool) (c : Char) (rest : List Char) : Bool :=
  (odd && c = backtick) ||
    (mode = .line && c = '\r' && !(rest.takeWhile fun d => d ≠ '\n').all asciiWhitespace) ||
    (mode = .text && c = '-' && rest[0]? = some '-' &&
      rest[1]?.any fun d => asciiControl d && !asciiWhitespace d)

/-- MySQL reads the text without meeting anything on which the rules differ. -/
def clean : Mode → Bool → List Char → Bool
  | _, _, [] => true
  | mode, odd, c :: rest =>
    !hazard mode odd c rest &&
      clean (mysql.lexer.step mode c rest).1 (unpaired mode odd c) rest

/-- Where MySQL's reader and the scanner's are on the same text. -/
inductive Alike : Mode → Bool → Mode → List Char → Prop where
  | same (mode : Mode) (text : List Char) : Alike mode false mode text
  | escaped (text : List Char) : Alike (.quoted backtick) true (.escaped backtick) text
  | ended (text : List Char)
      (hblank : (text.takeWhile fun d => d ≠ '\n').all asciiWhitespace = true) :
      Alike .line false .text text

theorem report_step {first second : Rules} {mode' next next' : Mode} {mark : Mark}
    {word : List Char} (hfirst : first.lexer.step mode c rest = (next, mark))
    (hsecond : second.lexer.step mode' c rest = (next', mark))
    (hhere : executesHere mode c rest = executesHere mode' c rest)
    (hlater : ∀ word, word = [] ∨ mark = .code →
      first.report next word rest = second.report next' word rest) :
    first.report mode word (c :: rest) = second.report mode' word (c :: rest) := by
  by_cases hword : mark = .code ∧ (if word = [] then wordStart c else wordPart c) = true
  · rw [report_word (by rw [hfirst]; exact hword.1) hword.2,
      report_word (by rw [hsecond]; exact hword.1) hword.2, hfirst, hsecond, hhere,
      hlater _ (.inr hword.1)]
  · rw [report_end (by rw [hfirst]; exact hword), report_end (by rw [hsecond]; exact hword), hfirst,
      hsecond, hhere, hlater _ (.inl rfl)]

theorem dashes_eq (rest : List Char)
    (hcontrol : (rest[0]? = some '-' && rest[1]?.any fun d =>
      asciiControl d && !asciiWhitespace d) = false) :
    lexemeRules.dashes rest = mysql.dashes rest := by
  unfold Rules.dashes
  by_cases hdash : rest[0]? = some '-'
  · simp only [hdash, decide_true, Bool.true_and] at hcontrol ⊢
    cases hnext : rest[1]? with
    | none => rfl
    | some d =>
      rw [hnext] at hcontrol
      simp only [Option.any_some] at hcontrol
      simp only [Option.all_some, lexemeRules, mysql]
      cases hws : asciiWhitespace d <;> simp_all
  · simp [hdash]

theorem text_of_code {rules : Rules} (hcode : (rules.lexer.step mode c rest).2 = .code) :
    (rules.lexer.step mode c rest).1 = .text := by
  simp only [Rules.lexer] at hcode ⊢
  split_ifs at hcode ⊢ with hstop
  cases mode with
  | text =>
    simp only [Rules.step, Rules.textStep] at hcode ⊢
    split_ifs at hcode ⊢
    rfl
  | quoted | escaped | doubled | line | opening | block | closing => simp [Rules.step] at hcode

theorem textStep_eq (hdash : hazard .text false c rest = false) :
    lexemeRules.lexer.step .text c rest = mysql.lexer.step .text c rest := by
  simp only [Rules.lexer, Rules.step, Rules.textStep]
  by_cases hc : c = '-'
  · subst hc
    have hdashes := dashes_eq rest (by simpa [hazard] using hdash)
    rw [hdashes]
  · simp [hc]

theorem quotedStep_eq {quote : Char} (hescape : ¬(quote = backtick ∧ c = '\\')) :
    lexemeRules.lexer.step (.quoted quote) c rest = mysql.lexer.step (.quoted quote) c rest := by
  have hescapes : (c = '\\' ∧ lexemeRules.escapes quote = true) ↔
      (c = '\\' ∧ mysql.escapes quote = true) := by
    constructor
    · rintro ⟨hc, -⟩
      exact ⟨hc, by simpa [mysql] using fun hquote => hescape ⟨hquote, hc⟩⟩
    · exact fun hboth => ⟨hboth.1, rfl⟩
  simp only [Rules.lexer, Rules.step, Rules.quotedStep, hescapes]

/-- Both report the same. -/
theorem report_alike {other : Mode} {text word : List Char}
    (halike : Alike mode odd other text) (hclean : clean mode odd text = true)
    (hword : word = [] ∨ mode = .text) :
    mysql.report mode word text = lexemeRules.report other word text := by
  induction text generalizing mode other odd word with
  | nil =>
    rw [report_nil, report_nil]
    cases halike with
    | same => rfl
    | escaped => rfl
    | ended => rfl
  | cons c rest ih =>
    rw [clean, Bool.and_eq_true, Bool.not_eq_true'] at hclean
    obtain ⟨hsafe, hclean⟩ := hclean
    -- The same step from the same mode.
    have hsame : lexemeRules.lexer.step mode c rest = mysql.lexer.step mode c rest →
        unpaired mode odd c = false → other = mode →
        mysql.report mode word (c :: rest) = lexemeRules.report other word (c :: rest) := by
      rintro hstep hpaired rfl
      rw [hpaired] at hclean
      apply report_step rfl hstep rfl
      intro word hword
      apply ih (.same _ rest) hclean
      exact hword.imp_right text_of_code
    cases halike with
    | same =>
      cases mode with
      | text => exact hsame (textStep_eq hsafe) rfl rfl
      | quoted quote =>
        by_cases hescape : quote = backtick ∧ c = '\\'
        · obtain ⟨rfl, rfl⟩ := hescape
          have hfirst : mysql.lexer.step (.quoted backtick) '\\' rest =
              (.quoted backtick, .quoted) := rfl
          have hsecond : lexemeRules.lexer.step (.quoted backtick) '\\' rest =
              (.escaped backtick, .quoted) := rfl
          apply report_step hfirst hsecond rfl
          intro word hword
          exact ih (.escaped rest) hclean (.inl (by simpa using hword))
        · apply hsame (quotedStep_eq hescape) _ rfl
          simpa [unpaired] using fun hquote => fun hc => hescape ⟨hquote, hc⟩
      | line =>
        by_cases hreturn : c = '\r'
        · subst hreturn
          have hfirst : mysql.lexer.step .line '\r' rest = (.line, .comment) := rfl
          have hsecond : lexemeRules.lexer.step .line '\r' rest = (.text, .comment) := rfl
          apply report_step hfirst hsecond rfl
          intro word hword
          apply ih (.ended rest _) hclean
          · exact .inl (by simpa using hword)
          · simpa [hazard] using hsafe
        · apply hsame _ rfl rfl
          simp [Rules.lexer, Rules.step, lexemeRules, mysql, hreturn]
      | escaped | doubled | opening | block | closing => exact hsame rfl rfl rfl
    | escaped =>
      -- The character behind the backslash is not a backtick.
      have hc : c ≠ backtick := by
        rintro rfl
        cases hsafe
      have hfirst : mysql.lexer.step (.quoted backtick) c rest =
          (.quoted backtick, .quoted) := by
        simp [Rules.lexer, Rules.step, Rules.quotedStep, mysql, hc]
      have hsecond : lexemeRules.lexer.step (.escaped backtick) c rest =
          (.quoted backtick, .quoted) := rfl
      rw [hfirst] at hclean
      apply report_step hfirst hsecond rfl
      intro word hword
      have hpaired : unpaired (.quoted backtick) true c = false := by simp [unpaired]
      rw [hpaired] at hclean
      exact ih (.same _ rest) hclean (.inl (by simpa using hword))
    | ended _ hblank =>
      obtain rfl : word = [] := by simpa using hword
      by_cases hnewline : c = '\n'
      · subst hnewline
        have hfirst : mysql.step .line '\n' rest = (.text, .comment) := rfl
        have hsecond : lexemeRules.lexer.step .text '\n' rest = (.text, .code) := rfl
        rw [report_inside (by simp) hfirst (by simp) (by simp),
          report_other hsecond (by simp) (fun _ => rfl) rfl]
        exact ih (.same _ rest) hclean (.inl rfl)
      · rw [List.takeWhile_cons_of_pos (by simpa using hnewline), List.all_cons,
          Bool.and_eq_true] at hblank
        have hfirst : mysql.step .line c rest = (.line, .comment) := by
          simp [Rules.step, mysql, hnewline]
        have hsecond : lexemeRules.lexer.step .text c rest = (.text, .code) :=
          step_of_blank lexemeRules rest hblank.1
        have hstart := not_wordStart_of_blank hblank.1
        rw [report_inside (by simp) hfirst (by simp) (by simp),
          report_other hsecond (by simp) (fun _ => hstart)
            (executesHere_of_ne (ne_slash_of_blank hblank.1) _ _)]
        rw [lexerStep_inside (by simp), hfirst] at hclean
        exact ih (.ended rest hblank.2) hclean (.inl rfl)

/-! ## Statements on their own -/

/-- What a mode waits for comes next. -/
def Sane (mode : Mode) (text : List Char) : Prop :=
  match mode with
  | .quoted quote | .escaped quote => isQuote quote = true
  | .doubled quote => isQuote quote = true ∧ text[0]? = some quote
  | .opening => text[0]? = some '*'
  | .closing => text[0]? = some '/'
  | .text | .line | .block => True

/-- A mode is entered only where what it waits for comes next. -/
theorem Sane.step {mode : Mode} {c : Char} {rest : List Char} (hsane : Sane mode (c :: rest)) :
    Sane (mysql.lexer.step mode c rest).1 rest := by
  cases mode with
  | text =>
    simp only [Rules.lexer, Rules.step, Rules.textStep]
    split_ifs with hstop hquote hhash hdash hslash
    · trivial
    · exact hquote
    · trivial
    · trivial
    · exact hslash.2
    · trivial
  | quoted quote =>
    rw [lexerStep_inside (by simp)]
    simp only [Rules.step, Rules.quotedStep]
    split_ifs with hescape hclosing hdoubled
    · exact hsane
    · exact ⟨hsane, hdoubled⟩
    · trivial
    · exact hsane
  | escaped quote => exact hsane
  | doubled quote => exact hsane.1
  | line =>
    rw [lexerStep_inside (by simp)]
    simp only [Rules.step]
    split_ifs <;> trivial
  | opening => trivial
  | block =>
    rw [lexerStep_inside (by simp)]
    simp only [Rules.step]
    split_ifs with hclosing
    · exact hclosing.2
    · trivial
  | closing => trivial

theorem not_blank_of_isQuote (hc : isQuote c = true) : Text.blank c = false := by
  simp only [isQuote, Bool.or_eq_true, decide_eq_true_eq] at hc
  rcases hc with (rfl | rfl) | rfl <;> rfl

/-- A character at which statements are cut or trimmed. -/
def cuts (d : Char) : Prop := d = ';' ∨ Text.blank d = true

theorem cuts.ne {e : Char} (hd : cuts d) (he : Text.blank e = false) (hstop : e ≠ ';') :
    d ≠ e := by
  rintro rfl
  rcases hd with rfl | hblank
  · exact hstop rfl
  · rw [he] at hblank
    cases hblank

theorem next_append (rest later : List Char) {e : Char} (hne : d ≠ e) :
    (rest ++ d :: later)[0]? = some e ↔ rest[0]? = some e := by
  cases rest with
  | nil => simp [hne]
  | cons c rest => simp

/-- Only two dashes at the end are read in another way. -/
theorem step_append {later : List Char} (hd : cuts d)
    (hsane : ∀ quote, mode = .quoted quote → isQuote quote = true)
    (hdashes : ¬(mode = .text ∧ c = '-' ∧ rest = ['-'])) :
    mysql.lexer.step mode c (rest ++ d :: later) = mysql.lexer.step mode c rest := by
  cases mode with
  | text =>
    have hstar := next_append rest later (hd.ne (e := '*') rfl (by decide))
    have hdash : c = '-' → mysql.dashes (rest ++ d :: later) = mysql.dashes rest := by
      rintro rfl
      have hne := hd.ne (e := '-') rfl (by decide)
      cases rest with
      | nil => simp [Rules.dashes, hne]
      | cons e rest =>
        cases rest with
        | nil =>
          have he : e ≠ '-' := fun he => hdashes ⟨rfl, rfl, by rw [he]⟩
          simp [Rules.dashes, he]
        | cons f rest => rfl
    simp only [Rules.lexer, Rules.step, Rules.textStep, hstar]
    by_cases hc : c = '-'
    · rw [hdash hc]
    · simp [hc]
  | quoted quote =>
    have hquote := hsane quote rfl
    have hstop : quote ≠ ';' := by
      rintro rfl
      cases hquote
    have hnext := next_append rest later
      (hd.ne (not_blank_of_isQuote hquote) hstop)
    simp only [Rules.lexer, Rules.step, Rules.quotedStep, hnext]
  | block =>
    have hnext := next_append rest later (hd.ne (e := '/') rfl (by decide))
    simp only [Rules.lexer, Rules.step, hnext]
  | escaped | doubled | line | opening | closing => rfl

theorem hazard_append (tail : List Char) (hsafe : hazard mode odd c (rest ++ tail) = false) :
    hazard mode odd c rest = false := by
  simp only [hazard, Bool.or_eq_false_iff] at hsafe ⊢
  obtain ⟨⟨hodd, hreturn⟩, hdash⟩ := hsafe
  refine ⟨⟨hodd, ?_⟩, ?_⟩
  · simp only [Bool.and_eq_false_iff, Bool.not_eq_false'] at hreturn ⊢
    refine hreturn.imp_right fun hall => ?_
    rw [List.all_eq_true] at hall ⊢
    intro d hd
    apply hall d
    rw [List.takeWhile_append]
    split_ifs
    · exact List.mem_append_left _ ((List.takeWhile_prefix _).subset hd)
    · exact hd
  · cases rest with
    | nil => simp
    | cons e rest =>
      cases rest with
      | nil => simp
      | cons f rest => simpa using hdash

/-- What can follow a statement: blanks, and then the end or a separator. -/
def Trails (after : Marked) : Prop :=
  ∃ blanks last, after = blanks ++ last ∧ (∀ item ∈ blanks, Text.blank item.1 = true) ∧
    (last = [] ∨ ∃ later, last = (';', .stop) :: later)

theorem lexer_stop (hstop : (mysql.lexer.step mode c rest).2 = .stop) :
    mode = .text ∧ c = ';' ∧ mysql.lexer.step mode c rest = (.text, .stop) := by
  simp only [Rules.lexer] at hstop ⊢
  split_ifs at hstop ⊢ with hboth
  · exact ⟨hboth.1, hboth.2, rfl⟩
  · exact absurd hstop (step_ne_stop mode c rest)

theorem Trails.head {later : List Char} (htrails : Trails after)
    (htext : Marking.text after = d :: later) : cuts d := by
  obtain ⟨blanks, last, rfl, hblanks, hlast⟩ := htrails
  cases blanks with
  | nil =>
    rcases hlast with rfl | ⟨others, rfl⟩
    · cases htext
    · exact .inl (List.cons.inj htext).1.symm
  | cons item blanks =>
    have hd : item.1 = d := (List.cons.inj htext).1
    exact .inr (hd ▸ hblanks item List.mem_cons_self)

theorem complete_of_blank (hc : Text.blank c = true) (hsane : Sane mode (c :: rest))
    (hcomplete : (mysql.lexer.step mode c rest).1.complete = true) : mode.complete = true := by
  have hne : ∀ {d : Char}, Text.blank d = false → c ≠ d := by
    rintro d hd rfl
    rw [hd] at hc
    cases hc
  cases mode with
  | text | line => rfl
  | quoted quote =>
    rw [lexerStep_inside (by simp)] at hcomplete
    simp [Rules.step, Rules.quotedStep, hne (d := '\\') rfl,
      hne (not_blank_of_isQuote hsane), Mode.complete] at hcomplete
  | escaped | doubled | opening => cases hcomplete
  | block =>
    rw [lexerStep_inside (by simp)] at hcomplete
    simp [Rules.step, hne (d := '*') rfl, Mode.complete] at hcomplete
  | closing =>
    have hslash : c = '/' := by simpa [Sane] using hsane
    exact absurd hslash (hne rfl)

theorem Trails.complete (htrails : Trails after) (hsane : Sane mode (Marking.text after))
    (hread : mysql.lexer.readFrom mode (Marking.text after) = some after) :
    mode.complete = true := by
  obtain ⟨blanks, last, rfl, hblanks, hlast⟩ := htrails
  induction blanks generalizing mode with
  | nil =>
    rcases hlast with rfl | ⟨later, rfl⟩
    · by_contra hopen
      have hnone : mysql.lexer.readFrom mode [] = none := if_neg hopen
      rw [List.append_nil] at hread
      exact absurd (hnone.symm.trans hread) (by simp)
    · obtain ⟨hmark, -⟩ := Lexer.readFrom_text_cons hread
      obtain ⟨rfl, -, -⟩ := lexer_stop hmark
      rfl
  | cons item blanks ih =>
    rw [List.forall_mem_cons] at hblanks
    obtain ⟨-, hrest⟩ := Lexer.readFrom_text_cons hread
    exact complete_of_blank hblanks.1 hsane (ih hsane.step hrest hblanks.2)

/-- The beginning of a text can be read on its own. -/
theorem read_beginning {first : Marked} (htrails : Trails after)
    (hfirst : Marking.NoStop first) (hsane : Sane mode (Marking.text (first ++ after)))
    (hread : mysql.lexer.readFrom mode (Marking.text (first ++ after)) = some (first ++ after)) :
    (∃ alone, mysql.lexer.readFrom mode (Marking.text first) = some alone ∧
      Marking.NoStop alone) ∧
      ∀ odd, clean mode odd (Marking.text (first ++ after)) = true →
        clean mode odd (Marking.text first) = true := by
  induction first generalizing mode with
  | nil =>
    have hcomplete := htrails.complete hsane hread
    refine ⟨⟨[], ?_, by simp [Marking.NoStop]⟩, fun odd _ => rfl⟩
    exact if_pos hcomplete
  | cons item first ih =>
    obtain ⟨c, mark⟩ := item
    rw [Marking.NoStop, List.forall_mem_cons] at hfirst
    rw [List.cons_append] at hread hsane ⊢
    obtain ⟨hmark, hrest⟩ := Lexer.readFrom_text_cons hread
    have htext : Marking.text (first ++ after) = Marking.text first ++ Marking.text after :=
      List.map_append
    have hcons : ∀ marked : Marked, Marking.text ((c, mark) :: marked) =
        c :: Marking.text marked := fun _ => rfl
    have hnext : Sane (mysql.lexer.step mode c (Marking.text (first ++ after))).1
        (Marking.text (first ++ after)) := Sane.step hsane
    obtain ⟨⟨alone, halone, hnone⟩, hclean⟩ := ih hfirst.2 hnext hrest
    -- As long as the reader does not see the difference, it takes the same step.
    have hsame : mysql.lexer.step mode c (Marking.text (first ++ after)) =
        mysql.lexer.step mode c (Marking.text first) →
        (∃ alone, mysql.lexer.readFrom mode (Marking.text ((c, mark) :: first)) = some alone ∧
          Marking.NoStop alone) ∧
        ∀ odd, clean mode odd (Marking.text ((c, mark) :: (first ++ after))) = true →
          clean mode odd (Marking.text ((c, mark) :: first)) = true := by
      intro hstep
      rw [hstep] at hmark halone hclean
      constructor
      · refine ⟨(c, mark) :: alone, ?_, ?_⟩
        · rw [hcons, Lexer.readFrom_cons, halone, hmark]
          rfl
        · exact List.forall_mem_cons.mpr ⟨hfirst.1, hnone⟩
      · intro odd hall
        rw [hcons, clean, Bool.and_eq_true, Bool.not_eq_true'] at hall ⊢
        rw [hstep] at hall
        refine ⟨?_, hclean _ hall.2⟩
        rw [htext] at hall
        exact hazard_append _ hall.1
    cases hafter : Marking.text after with
    | nil =>
      apply hsame
      rw [htext, hafter, List.append_nil]
    | cons d later =>
      by_cases hdashes : mode = .text ∧ c = '-' ∧ Marking.text first = ['-']
      · -- Two dashes at the end of the text begin a comment.
        obtain ⟨rfl, rfl, hdash⟩ := hdashes
        rw [hcons, hdash]
        refine ⟨⟨[('-', .comment), ('-', .comment)], rfl, by simp [Marking.NoStop]⟩, ?_⟩
        intro odd _
        cases odd <;> rfl
      · apply hsame
        rw [htext, hafter]
        apply step_append (htrails.head hafter) _ hdashes
        rintro quote rfl
        exact hsane

theorem read_after_stop {earlier later : Marked}
    (hread : mysql.lexer.readFrom mode (Marking.text (earlier ++ (c, .stop) :: later)) =
      some (earlier ++ (c, .stop) :: later)) :
    mysql.lexer.readFrom .text (Marking.text later) = some later ∧
      (clean mode odd (Marking.text (earlier ++ (c, .stop) :: later)) = true →
        clean .text false (Marking.text later) = true) := by
  induction earlier generalizing mode odd with
  | nil =>
    obtain ⟨hmark, hrest⟩ := Lexer.readFrom_text_cons hread
    obtain ⟨rfl, -, hstep⟩ := lexer_stop hmark
    rw [hstep] at hrest
    refine ⟨hrest, fun hclean => ?_⟩
    have hcons : Marking.text ([] ++ (c, Mark.stop) :: later) = c :: Marking.text later := rfl
    rw [hcons, clean, Bool.and_eq_true] at hclean
    rw [hstep] at hclean
    exact hclean.2
  | cons item earlier ih =>
    obtain ⟨-, hrest⟩ := Lexer.readFrom_text_cons hread
    obtain ⟨hlater, hclean⟩ := @ih _ (unpaired mode odd item.1) hrest
    refine ⟨hlater, fun hall => hclean ?_⟩
    have hcons : Marking.text (item :: earlier ++ (c, Mark.stop) :: later) =
        item.1 :: Marking.text (earlier ++ (c, Mark.stop) :: later) := rfl
    rw [hcons, clean, Bool.and_eq_true] at hall
    exact hall.2

theorem separator_eq {earlier later : Marked}
    (hread : mysql.lexer.readFrom mode (Marking.text (earlier ++ (c, .stop) :: later)) =
      some (earlier ++ (c, .stop) :: later)) : c = ';' := by
  induction earlier generalizing mode with
  | nil =>
    obtain ⟨hmark, -⟩ := Lexer.readFrom_text_cons hread
    exact (lexer_stop hmark).2.1
  | cons item earlier ih => exact ih (Lexer.readFrom_text_cons hread).2

/-- Blanks in front can be left out. -/
theorem read_after_blanks {blanks rest : Marked}
    (hblanks : ∀ item ∈ blanks, Text.blank item.1 = true)
    (hread : mysql.lexer.readFrom .text (Marking.text (blanks ++ rest)) = some (blanks ++ rest)) :
    mysql.lexer.readFrom .text (Marking.text rest) = some rest ∧
      (clean .text false (Marking.text (blanks ++ rest)) = true →
        clean .text false (Marking.text rest) = true) := by
  induction blanks with
  | nil => exact ⟨hread, id⟩
  | cons item blanks ih =>
    rw [List.forall_mem_cons] at hblanks
    have hstep : mysql.lexer.step .text item.1 (Marking.text (blanks ++ rest)) =
        (.text, .code) := by
      have hne : ∀ {d : Char}, Text.blank d = false → item.1 ≠ d := by
        intro d hd heq
        rw [heq, hd] at hblanks
        cases hblanks.1
      have hquote : isQuote item.1 = false := by
        simp [isQuote, hne (d := '\'') rfl, hne (d := '"') rfl, hne (d := backtick) rfl]
      exact textStep_other hquote (hne rfl) (fun hboth => hne rfl hboth.1)
        (fun hboth => hne rfl hboth.1) (hne rfl)
    rw [List.cons_append] at hread
    obtain ⟨-, hrest⟩ := Lexer.readFrom_text_cons hread
    rw [hstep] at hrest
    obtain ⟨halone, hclean⟩ := ih hblanks.2 hrest
    refine ⟨halone, fun hall => hclean ?_⟩
    have hcons : Marking.text (item :: blanks ++ rest) =
        item.1 :: Marking.text (blanks ++ rest) := rfl
    rw [hcons, clean, Bool.and_eq_true, hstep] at hall
    exact hall.2

/-- A statement of a script can be read on its own. -/
theorem read_statement {statement : List Char} {marked : Marked}
    (hread : mysql.lexer.read script = some marked)
    (hstatement : statement ∈ Marking.statements marked) :
    (∃ alone, mysql.lexer.read statement = some alone ∧ Marking.NoStop alone) ∧
      (clean .text false script = true → clean .text false statement = true) := by
  have htext := Lexer.text_readFrom hread
  have hmarked : mysql.lexer.readFrom .text (Marking.text marked) = some marked := by
    rw [htext]
    exact hread
  obtain ⟨segment, hsegment, rfl, -⟩ := Marking.mem_statements.mp hstatement
  obtain ⟨before, middle, after, rfl, rfl, hmiddle, hbetween⟩ :=
    Marking.exists_of_mem_segments hsegment
  rw [← htext]
  rw [List.append_assoc] at hmarked ⊢
  -- What follows the last separator before the segment.
  have hrest : mysql.lexer.readFrom .text (Marking.text (middle ++ after)) =
        some (middle ++ after) ∧
      (clean .text false (Marking.text (before ++ (middle ++ after))) = true →
        clean .text false (Marking.text (middle ++ after)) = true) := by
    rcases hbetween.before with rfl | ⟨earlier, c, rfl⟩
    · exact ⟨hmarked, id⟩
    · rw [List.append_assoc] at hmarked ⊢
      exact read_after_stop hmarked
  -- The blanks around the statement.
  obtain ⟨before', after', hsplit, hbefore, hafter⟩ := Text.exists_trim (Marking.text middle)
  obtain ⟨first, others, rfl, hfirst, hothers⟩ := List.map_eq_append_iff.mp
    (show middle.map Prod.fst = before' ++ (Text.trim (Marking.text middle) ++ after') from
      hsplit.trans (List.append_assoc _ _ _))
  obtain ⟨core, last, rfl, hcore, hlast⟩ := List.map_eq_append_iff.mp hothers
  have hfirstBlank : ∀ item ∈ first, Text.blank item.1 = true := fun item hitem =>
    hbefore _ (hfirst ▸ List.mem_map_of_mem hitem)
  have hlastBlank : ∀ item ∈ last, Text.blank item.1 = true := fun item hitem =>
    hafter _ (hlast ▸ List.mem_map_of_mem hitem)
  have hregroup : first ++ (core ++ last) ++ after = first ++ (core ++ (last ++ after)) := by
    simp only [List.append_assoc]
  rw [hregroup] at hrest
  obtain ⟨hbody, hbodyClean⟩ := read_after_blanks hfirstBlank hrest.1
  have htrails : Trails (last ++ after) := by
    refine ⟨last, after, rfl, hlastBlank, ?_⟩
    rcases hbetween.after with rfl | ⟨c, later, rfl⟩
    · exact .inl rfl
    · have hstop : mysql.lexer.readFrom .text
          (Marking.text (core ++ last ++ (c, .stop) :: later)) =
            some (core ++ last ++ (c, .stop) :: later) := by
        rwa [List.append_assoc]
      exact .inr ⟨later, by rw [separator_eq hstop]⟩
  have hcoreNoStop : Marking.NoStop core := fun item hitem =>
    hmiddle item (List.mem_append_right _ (List.mem_append_left _ hitem))
  have hsane : Sane .text (Marking.text (core ++ (last ++ after))) := trivial
  obtain ⟨halone, hclean⟩ := read_beginning htrails hcoreNoStop hsane hbody
  have hcore' : Marking.text core = Text.trim (Marking.text (first ++ (core ++ last))) := hcore
  rw [hcore'] at halone hclean
  refine ⟨halone, fun hscript => hclean false (hbodyClean (hrest.2 ?_))⟩
  rwa [← hregroup]

/-! ## Agreement -/

/-- The lexers agree on a script. -/
structure LexersAgree (script : List Char) : Prop where
  /-- The scanner reads every statement without a separator and finds the words of MySQL. -/
  statements : NoDirectiveLine script → ∀ list, splitMysqlScript script = .ok list →
    ∀ statement ∈ list, ∃ marked lexemes, mysql.lexer.read statement = some marked ∧
      sqlLexemes statement = .ok lexemes ∧ .semicolon ∉ lexemes.tokens ∧
      lexemes.tokens.filterMap SqlToken.toWord = (tokensOf marked).filterMap SqlToken.toWord
  /-- What the scanner reads without a separator is one statement. -/
  single : NoDirectiveLine script → ∀ lexemes, sqlLexemes script = .ok lexemes →
    .semicolon ∉ lexemes.tokens → Text.trim script ≠ [] →
    splitMysqlScript script = .ok [Text.trim script]

theorem semicolon_mem_tokensFrom (word : List Char) (marked : Marked) :
    .semicolon ∈ tokensFrom word marked ↔ ∃ item ∈ marked, item.2 = .stop := by
  have hflush : ∀ word, SqlToken.semicolon ∉ flushWord word := by
    intro word
    unfold flushWord
    split_ifs <;> simp
  induction marked generalizing word with
  | nil => simp [tokensFrom, hflush]
  | cons item rest ih =>
    obtain ⟨c, mark⟩ := item
    by_cases hword : mark = .code ∧ (if word = [] then wordStart c else wordPart c) = true
    · rw [tokensFrom, if_pos hword]
      simp [ih, hword.1]
    · rw [tokensFrom, if_neg hword]
      by_cases hstop : mark = .stop
      · simp [hstop]
      · simp [ih, hflush, hstop]

theorem sqlLexemes_eq (sql : List Char) :
    match lexemeRules.report .text [] sql with
    | none => ∃ error, sqlLexemes sql = .error (.error error)
    | some (tokens, executed) =>
      sqlLexemes sql = .ok { tokens, executableComment := executed } := by
  have hscans := lexemeLoop_scans [] false sql
  unfold Scans at hscans
  cases hreport : lexemeRules.report .text [] sql with
  | none =>
    rw [hreport] at hscans
    exact hscans
  | some report =>
    obtain ⟨tokens, executed⟩ := report
    rw [hreport] at hscans
    simpa [sqlLexemes] using hscans

theorem sqlLexemes_of_clean {sql : List Char} (hclean : clean .text false sql = true) :
    match mysql.lexer.read sql with
    | none => ∃ error, sqlLexemes sql = .error (.error error)
    | some marked => sqlLexemes sql =
        .ok { tokens := tokensOf marked, executableComment := executes mysql .text sql } := by
  have hscans := sqlLexemes_eq sql
  rw [← report_alike (.same .text sql) hclean (.inl rfl), Rules.report] at hscans
  change match (mysql.lexer.readFrom .text sql) with
    | none => _
    | some _ => _
  cases hread : mysql.lexer.readFrom .text sql with
  | none | some =>
    rw [hread] at hscans
    exact hscans

/-- In a clean script the lexers see the same. -/
theorem agree_of_clean (hclean : clean .text false script = true) :
    LexersAgree script where
  statements := by
    intro hnone list hlist statement hstatement
    obtain ⟨marked, hread, rfl⟩ := (faithful_of_noDirectiveLine hnone).semicolons hnone list hlist
    obtain ⟨⟨alone, halone, hnoStop⟩, hcleanStatement⟩ := read_statement hread hstatement
    have hscans := sqlLexemes_of_clean (hcleanStatement hclean)
    rw [halone] at hscans
    refine ⟨alone, _, halone, hscans, ?_, rfl⟩
    rw [tokensOf, semicolon_mem_tokensFrom]
    rintro ⟨item, hitem, hstop⟩
    exact hnoStop item hitem hstop
  single := by
    intro hnone lexemes hlexemes hsemicolon htrim
    have hscans := sqlLexemes_of_clean hclean
    cases hread : mysql.lexer.read script with
    | none =>
      rw [hread] at hscans
      obtain ⟨error, herror⟩ := hscans
      rw [herror] at hlexemes
      cases hlexemes
    | some marked =>
      rw [hread] at hscans
      rw [hlexemes] at hscans
      obtain rfl := Except.ok.inj hscans
      have hnoStop : Marking.NoStop marked := by
        intro item hitem hstop
        exact hsemicolon ((semicolon_mem_tokensFrom [] marked).mpr ⟨item, hitem, hstop⟩)
      have hstatements : Marking.statements marked = [Text.trim script] := by
        simp [Marking.statements, Marking.segments_of_noStop hnoStop, Marking.push,
          Lexer.text_readFrom hread, htrim]
      have hsame : Client.lexer.readFrom .initial script = some marked :=
        ((undirected_initial script).readFrom hnone rfl).trans hread
      apply ((faithful_of_noDirectiveLine hnone).outcome _).mpr
      rw [clientStatements_eq_some_iff]
      refine ⟨?_, by simp [maxConsoleStatements]⟩
      rw [Client.report, hsame, Option.map_some, Marking.collect_nil, hstatements]

/-! ## Quoted identifiers -/

/-- A character in text that is neither part of a word nor the beginning of anything. -/
def idle (c : Char) : Bool :=
  !wordStart c && !isQuote c && c ≠ '#' && c ≠ '-' && c ≠ '/' && c ≠ ';'

theorem report_idle (hc : idle c = true) (rest : List Char) :
    mysql.report .text [] (c :: rest) = mysql.report .text [] rest := by
  simp only [idle, Bool.and_eq_true, Bool.not_eq_true', decide_eq_true_eq] at hc
  obtain ⟨⟨⟨⟨⟨hstart, hquote⟩, hhash⟩, hdash⟩, hslash⟩, hstop⟩ := hc
  apply report_other (textStep_other hquote hhash (fun h => hdash h.1) (fun h => hslash h.1) hstop)
  · simp
  · exact fun _ => hstart
  · exact executesHere_of_ne hslash _ _

theorem report_idles (text : List Char) (htext : text.all idle = true) (rest : List Char) :
    mysql.report .text [] (text ++ rest) = mysql.report .text [] rest := by
  induction text with
  | nil => rfl
  | cons c text ih =>
    rw [List.all_cons, Bool.and_eq_true] at htext
    rw [List.cons_append, report_idle htext.1, ih htext.2]

theorem report_wordThen (word : List Char) (hc : wordStart c = true)
    (hword : word.all wordPart = true) (hd : wordPart d = false) (rest : List Char) :
    mysql.report .text [] (c :: word ++ d :: rest) =
      addReport [.word ((c :: word).map Char.toUpper)] false
        (mysql.report .text [] (d :: rest)) := by
  have hpart := wordPart_of_wordStart hc
  have hslash : c ≠ '/' := by
    rintro rfl
    cases hc
  have htake : (word ++ d :: rest).takeWhile wordPart = word := by
    rw [List.takeWhile_append_of_pos (List.all_eq_true.mp hword),
      List.takeWhile_cons_of_neg (by simp [hd]), List.append_nil]
  have hdrop : (word ++ d :: rest).dropWhile wordPart = d :: rest := by
    rw [List.dropWhile_append_of_pos (List.all_eq_true.mp hword),
      List.dropWhile_cons_of_neg (by simp [hd])]
  have hstep := step_of_wordPart mysql (word ++ d :: rest) hpart
  rw [List.cons_append, report_word (by rw [hstep]) (by rwa [if_pos rfl]), hstep,
    executesHere_of_ne hslash, addReport_nil, report_wordRest mysql (by simp), List.nil_append,
    htake, hdrop]
  rfl

/-- Doubled backticks stay inside of the identifier. -/
theorem report_quotedName (value rest : List Char) (hrest : rest[0]? ≠ some backtick) :
    mysql.report (.quoted backtick) []
        ((value.flatMap fun c => if c = backtick then [backtick, backtick] else [c]) ++
          backtick :: rest) =
      mysql.report .text [] rest := by
  induction value with
  | nil =>
    have hstep : mysql.step (.quoted backtick) backtick rest = (.text, .quoted) := by
      have hslash : ¬(backtick = '\\' ∧ mysql.escapes backtick = true) := by decide
      simp only [Rules.step, Rules.quotedStep, if_neg hslash, if_true, if_neg hrest]
    exact report_inside (by simp) hstep (by simp) (by simp)
  | cons c value ih =>
    rw [List.flatMap_cons, List.append_assoc]
    by_cases hc : c = backtick
    · rw [if_pos hc]
      simp only [List.cons_append, List.nil_append]
      have hfirst : ∀ text, mysql.step (.quoted backtick) backtick (backtick :: text) =
          (.doubled backtick, .quoted) := fun _ => rfl
      have hsecond : ∀ text, mysql.step (.doubled backtick) backtick text =
          (.quoted backtick, .quoted) := fun _ => rfl
      rw [report_inside (by simp) (hfirst _) (by simp) (by simp),
        report_inside (by simp) (hsecond _) (by simp) (by simp), ih]
    · rw [if_neg hc]
      have hstep : ∀ text, mysql.step (.quoted backtick) c text =
          (.quoted backtick, .quoted) := by
        intro text
        simp [Rules.step, Rules.quotedStep, mysql, hc]
      rw [List.cons_append, List.nil_append,
        report_inside (by simp) (hstep _) (by simp) (by simp), ih]

theorem report_quoteName (value rest : List Char) (hrest : rest[0]? ≠ some backtick) :
    mysql.report .text [] (quoteName value ++ rest) = mysql.report .text [] rest := by
  have hopen : ∀ text, mysql.lexer.step .text backtick text = (.quoted backtick, .quoted) :=
    fun _ => rfl
  rw [quoteName, List.append_assoc, List.cons_append,
    report_other (hopen _) (by simp) (by simp) (executesHere_of_ne (by decide) _ _)]
  exact report_quotedName value rest hrest

theorem idle_of_isDigit (hc : c.isDigit = true) : idle c = true := by
  have hne : ∀ {d : Char}, d.isDigit = false → c ≠ d := by
    rintro d hd rfl
    rw [hc] at hd
    cases hd
  have halpha : c.isAlpha = false := by
    simp only [Char.isDigit, Bool.and_eq_true, decide_eq_true_eq] at hc
    have hle : c.val.toNat ≤ 57 := UInt32.le_iff_toNat_le.mp hc.2
    have hupper : 'A'.val.toNat = 65 := rfl
    have hlower : 'a'.val.toNat = 97 := rfl
    simp only [Char.isAlpha, Char.isUpper, Char.isLower, Bool.or_eq_false_iff,
      Bool.and_eq_false_iff, decide_eq_false_iff_not, ge_iff_le, UInt32.le_iff_toNat_le]
    omega
  simp [idle, wordStart, isQuote, halpha, hne (d := '_') rfl, hne (d := '\'') rfl,
    hne (d := '"') rfl, hne (d := backtick) rfl, hne (d := '#') rfl, hne (d := '-') rfl,
    hne (d := '/') rfl, hne (d := ';') rfl]

theorem report_repr (number : Nat) :
    mysql.report .text [] (Nat.repr number).toList = some ([], false) := by
  have hdigits : (Nat.repr number).toList.all idle = true := by
    rw [List.all_eq_true, Nat.toList_repr]
    intro c hc
    have hdigit := Nat.isDigit_of_mem_toDigits (by decide) (by decide) hc
    exact idle_of_isDigit hdigit
  have hreport := report_idles _ hdigits []
  rw [List.append_nil] at hreport
  rw [hreport, report_nil]
  rfl

/-- The words of a table preview. -/
def previewWords : List SqlToken :=
  [.word "SELECT".toList, .word "FROM".toList, .word "LIMIT".toList]

theorem report_selectFrom (rest : List Char) :
    mysql.report .text [] ("SELECT * FROM ".toList ++ rest) =
      addReport [.word "SELECT".toList] false
        (addReport [.word "FROM".toList] false (mysql.report .text [] rest)) := by
  have hselect := report_wordThen (c := 'S') (d := ' ') "ELECT".toList rfl rfl rfl
    ("* FROM ".toList ++ rest)
  have hfrom := report_wordThen (c := 'F') (d := ' ') "ROM".toList rfl rfl rfl rest
  have hstar := report_idles " * ".toList rfl ("FROM ".toList ++ rest)
  calc mysql.report .text [] ("SELECT * FROM ".toList ++ rest)
      = addReport [.word "SELECT".toList] false
          (mysql.report .text [] (" * ".toList ++ ("FROM ".toList ++ rest))) := hselect
    _ = addReport [.word "SELECT".toList] false
          (mysql.report .text [] ("FROM ".toList ++ rest)) := by rw [hstar]
    _ = addReport [.word "SELECT".toList] false (addReport [.word "FROM".toList] false
          (mysql.report .text [] (' ' :: rest))) := congrArg _ hfrom
    _ = _ := by rw [report_idle (c := ' ') rfl]

/-- MySQL finds the words of the template in a preview, whatever the names are. -/
theorem report_preview (databaseName tableName : List Char) (rowLimit : Nat) :
    mysql.report .text []
        ("SELECT * FROM ".toList ++ quoteName databaseName ++ ['.'] ++ quoteName tableName ++
          " LIMIT ".toList ++ (Nat.repr rowLimit).toList) =
      some (previewWords, false) := by
  have hlimit : mysql.report .text [] (" LIMIT ".toList ++ (Nat.repr rowLimit).toList) =
      some ([.word "LIMIT".toList], false) := by
    have hword := report_wordThen (c := 'L') (d := ' ') "IMIT".toList rfl rfl rfl
      (Nat.repr rowLimit).toList
    rw [report_idle (c := ' ') rfl, report_repr] at hword
    calc mysql.report .text [] (" LIMIT ".toList ++ (Nat.repr rowLimit).toList)
        = mysql.report .text [] ('L' :: "IMIT".toList ++ ' ' :: (Nat.repr rowLimit).toList) :=
          report_idle (c := ' ') rfl _
      _ = some ([.word "LIMIT".toList], false) := hword
  have hdot : ('.' : Char) ≠ backtick := by decide
  have hspace : (' ' : Char) ≠ backtick := by decide
  have htable : mysql.report .text []
      (quoteName databaseName ++ (['.'] ++ (quoteName tableName ++
        (" LIMIT ".toList ++ (Nat.repr rowLimit).toList)))) =
      some ([.word "LIMIT".toList], false) := by
    rw [report_quoteName databaseName _ fun h => hdot (Option.some.inj h), List.cons_append,
      List.nil_append, report_idle (c := '.') rfl,
      report_quoteName tableName _ fun h => hspace (Option.some.inj h), hlimit]
  have hselect := report_selectFrom (quoteName databaseName ++ (['.'] ++ (quoteName tableName ++
    (" LIMIT ".toList ++ (Nat.repr rowLimit).toList))))
  rw [htable] at hselect
  simp only [List.append_assoc]
  exact hselect

theorem validateReadSql_preview {databaseName tableName sql : List Char} {rowLimit : Nat}
    (hpreview : tablePreviewSql databaseName tableName rowLimit = .ok sql)
    (hclean : clean .text false sql = true) : validateReadSql sql = .ok () := by
  have hsql : sql = "SELECT * FROM ".toList ++ quoteName databaseName ++ ['.'] ++
      quoteName tableName ++ " LIMIT ".toList ++ (Nat.repr rowLimit).toList := by
    unfold tablePreviewSql quoteIdentifier at hpreview
    split_ifs at hpreview
    exact (Except.ok.inj hpreview).symm
  have hreport : lexemeRules.report .text [] sql = some (previewWords, false) := by
    rw [← report_alike (.same .text sql) hclean (.inl rfl), hsql, report_preview]
  have hscans := sqlLexemes_eq sql
  rw [hreport] at hscans
  unfold validateReadSql readPolicyTokens
  rw [hscans]
  decide

/-- The lexers agree on every text in which their rules do not differ, and a preview with
such a text is accepted. -/
theorem lexers_agree_of_clean (script databaseName tableName sql : List Char) (rowLimit : Nat) :
    (clean .text false script = true → LexersAgree script) ∧
      (tablePreviewSql databaseName tableName rowLimit = .ok sql → clean .text false sql = true →
        validateReadSql sql = .ok ()) := by
  constructor
  · intro hclean
    exact agree_of_clean hclean
  · intro hpreview hclean
    exact validateReadSql_preview hpreview hclean

theorem quotedScript_agrees :
    LexersAgree "SELECT `a` FROM t -- x\n; SELECT '\\';'".toList ∧
      validateReadSql "SELECT * FROM `shop`.`a``b` LIMIT 100".toList = .ok () := by
  obtain ⟨hagree, hpreview⟩ :=
    lexers_agree_of_clean "SELECT `a` FROM t -- x\n; SELECT '\\';'".toList "shop".toList
      "a`b".toList "SELECT * FROM `shop`.`a``b` LIMIT 100".toList 100
  constructor
  · exact hagree (by decide)
  · exact hpreview (by decide) (by decide)

theorem noDirectiveLine_of_oneLine (hline : '\n' ∉ script) (habsent : directive script = .absent) :
    NoDirectiveLine script := by
  rintro before rest rfl (rfl | hlast)
  · exact habsent
  · exact absurd (List.mem_append_left _ (List.mem_of_getLast? hlast)) hline

/-- A backslash at the end of a name hides the closing backtick from the scanner. -/
theorem backslashName_disagrees :
    ¬LexersAgree "SELECT `a\\`".toList ∧
      tablePreviewSql "shop".toList "a\\".toList 100 =
        .ok "SELECT * FROM `shop`.`a\\` LIMIT 100".toList ∧
      validateReadSql "SELECT * FROM `shop`.`a\\` LIMIT 100".toList ≠ .ok () := by
  refine ⟨?_, by decide, ?_⟩
  · intro hagree
    have hnone : NoDirectiveLine "SELECT `a\\`".toList :=
      noDirectiveLine_of_oneLine (by decide) rfl
    have hlist : splitMysqlScript "SELECT `a\\`".toList = .ok ["SELECT `a\\`".toList] :=
      ((faithful_of_noDirectiveLine hnone).outcome _).mpr (by decide)
    obtain ⟨marked, lexemes, -, hlexemes, -⟩ :=
      hagree.statements hnone _ hlist _ (List.mem_singleton_self _)
    have hscans := sqlLexemes_eq "SELECT `a\\`".toList
    have hreport : lexemeRules.report .text [] "SELECT `a\\`".toList = none := by decide
    rw [hreport, hlexemes] at hscans
    obtain ⟨error, herror⟩ := hscans
    cases herror
  · have hscans := sqlLexemes_eq "SELECT * FROM `shop`.`a\\` LIMIT 100".toList
    have hreport : lexemeRules.report .text []
        "SELECT * FROM `shop`.`a\\` LIMIT 100".toList = none := by decide
    rw [hreport] at hscans
    obtain ⟨error, herror⟩ := hscans
    unfold validateReadSql readPolicyTokens
    rw [herror]
    exact nofun

end Chat2DB.MySql
