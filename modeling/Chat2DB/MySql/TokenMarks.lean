import Chat2DB.MySql.Lexer
import Chat2DB.MySql.Tokens

/-! # Statements that are read are not cut

A statement whose tokens can be read has no comment and no semicolon outside of quotes, and
it does not end within quotes. The reader of scripts passes over it and is then where it
was before.
-/

namespace Chat2DB.MySql

open Marking (NoStop Lexer)

/-- The token is not in quotes. -/
def Outside : Reading → Prop
  | .between | .word _ | .minus | .dot | .number _ | .exponent _ | .scaled _ | .hexNumber _
  | .qualifier _ | .closed _ => True
  | .name _ | .nameEnd _ | .text _ | .escape _ | .textEnd _ | .hexText _ | .bitText _
  | .stuck => False

/-- The mode of the script reader, of which quotes that may be doubled need the rest. -/
def modeOf : Reading → List Char → Mode
  | .name _, _ => .quoted backtick
  | .nameEnd _, rest => if rest.head? = some backtick then .doubled backtick else .text
  | .text _, _ | .hexText _, _ | .bitText _, _ => .quoted '\''
  | .escape _, _ => .escaped '\''
  | .textEnd _, rest => if rest.head? = some '\'' then .doubled '\'' else .text
  | _, _ => .text

/-- The characters that mean nothing to the script reader. -/
def isPlain (c : Char) : Bool :=
  !isQuote c && c ≠ '#' && c ≠ '-' && c ≠ '/' && c ≠ ';'

/-- What one character does outside of quotes. -/
inductive Steps (c : Char) : Reading → Prop
  | name : c = backtick → Steps c (.name [])
  | quote {reading : Reading} : c = '\'' →
      reading = .text [] ∨ reading = .hexText [] ∨ reading = .bitText [] → Steps c reading
  | dash {reading : Reading} : c = '-' →
      reading = .minus ∨ (∃ text, reading = .exponent (text ++ [c])) → Steps c reading
  | plain {reading : Reading} : isPlain c = true → Outside reading → Steps c reading

theorem isPlain_of_isWordChar {c : Char} (hc : isWordChar c = true) : isPlain c = true := by
  by_contra hplain
  simp only [isPlain, isQuote, Bool.not_eq_true, Bool.and_eq_false_iff, Bool.not_eq_false',
    Bool.or_eq_true, decide_eq_true_eq, decide_eq_false_iff_not, not_not] at hplain
  rcases hplain with ((((( rfl | rfl) | rfl) | rfl) | rfl) | rfl) | rfl <;>
    exact absurd hc (by decide)

theorem isWordChar_of_isDigit {c : Char} (hc : c.isDigit = true) : isWordChar c = true := by
  simp [isWordChar, Char.isAlphanum, hc]

theorem opening_steps {c : Char} (hc : opening c ≠ .stuck) : Steps c (opening c) := by
  unfold opening at hc ⊢
  split_ifs at hc ⊢ with hblank hstart hdigit htick hquote hminus hdot
  · refine .plain ?_ trivial
    rcases hblank with rfl | hsymbol
    · decide
    · simp only [isSymbol, Bool.or_eq_true, decide_eq_true_eq] at hsymbol
      rcases hsymbol with (((rfl | rfl) | rfl) | rfl) | rfl <;> decide
  · refine .plain (isPlain_of_isWordChar ?_) trivial
    simp only [isWordStart, Bool.or_eq_true, decide_eq_true_eq] at hstart
    rcases hstart with hstart | rfl
    · simp [isWordChar, Char.isAlphanum, hstart]
    · decide
  · exact .plain (isPlain_of_isWordChar (isWordChar_of_isDigit hdigit)) trivial
  · exact .name htick
  · exact .quote hquote (.inl rfl)
  · exact .dash hminus (.inl rfl)
  · refine .plain ?_ trivial
    rw [hdot]
    decide
  · exact absurd rfl hc

theorem isWordChar_of_hexDigit {c : Char} {digit : Nat} (h : hexDigit c = some digit) :
    isWordChar c = true := by
  have hval : c.val.toNat = c.toNat := rfl
  unfold hexDigit at h
  split_ifs at h with hdigit hupper hlower
  · exact isWordChar_of_isDigit hdigit
  · have hbounds : 65 ≤ c.toNat ∧ c.toNat ≤ 70 := hupper
    have halpha : c.isUpper = true := by
      simp [Char.isUpper, UInt32.le_iff_toNat_le]
      omega
    simp [isWordChar, Char.isAlphanum, Char.isAlpha, halpha]
  · have hbounds : 97 ≤ c.toNat ∧ c.toNat ≤ 102 := hlower
    have halpha : c.isLower = true := by
      simp [Char.isLower, UInt32.le_iff_toNat_le]
      omega
    simp [isWordChar, Char.isAlphanum, Char.isAlpha, halpha]

theorem continued_steps {reading next : Reading} {c : Char} (houtside : Outside reading)
    (h : continued true reading c = some next) (hnext : next ≠ .stuck) : Steps c next := by
  have hword : isWordChar c = true → isPlain c = true := isPlain_of_isWordChar
  have hdigit : c.isDigit = true → isPlain c = true :=
    fun hc => hword (isWordChar_of_isDigit hc)
  have hdot : c = '.' → isPlain c = true := by
    rintro rfl
    decide
  cases reading with
  | between => cases h
  | closed token =>
    simp only [continued] at h
    split_ifs at h
    exact absurd (Option.some.inj h).symm hnext
  | word text =>
    simp only [continued] at h
    split_ifs at h with hc hquote hpoint
    · cases h
      exact .plain (hword hc) trivial
    · cases h
      unfold prefixed at hnext ⊢
      split_ifs at hnext ⊢
      · exact .quote hquote (.inr (.inl rfl))
      · exact .quote hquote (.inr (.inr rfl))
      · exact absurd rfl hnext
    · exact absurd (Option.some.inj h).symm hnext
  | minus =>
    simp only [continued] at h
    split_ifs at h
    exact absurd (Option.some.inj h).symm hnext
  | dot =>
    simp only [continued, Option.some.injEq] at h
    split_ifs at h with hc
    · rw [← h]
      exact .plain (hdigit hc) trivial
    · exact absurd h.symm hnext
  | number text =>
    simp only [continued] at h
    split_ifs at h with hc hpoint htwice he hx hrest
    · cases h
      exact .plain (hdigit hc) trivial
    · exact absurd (Option.some.inj h).symm hnext
    · cases h
      exact .plain (hdot hpoint) trivial
    · cases h
      refine .plain ?_ trivial
      rcases he with rfl | rfl <;> decide
    · cases h
      refine .plain ?_ trivial
      rw [hx.1]
      decide
    · exact absurd (Option.some.inj h).symm hnext
  | exponent text =>
    simp only [continued] at h
    split_ifs at h with hc hsign
    · cases h
      exact .plain (hdigit hc) trivial
    · cases h
      rcases hsign.1 with rfl | rfl
      · exact .plain (by decide) trivial
      · exact .dash rfl (.inr ⟨text, rfl⟩)
    · exact absurd (Option.some.inj h).symm hnext
  | scaled text =>
    simp only [continued] at h
    split_ifs at h with hc
    · cases h
      exact .plain (hdigit hc) trivial
    · exact absurd (Option.some.inj h).symm hnext
  | hexNumber digits =>
    simp only [continued] at h
    split at h
    next digit hc =>
      cases h
      exact .plain (hword (isWordChar_of_hexDigit hc)) trivial
    next =>
      split_ifs at h
      exact absurd (Option.some.inj h).symm hnext
  | qualifier text =>
    simp only [continued] at h
    split_ifs at h
    exact absurd (Option.some.inj h).symm hnext
  | name | nameEnd | text | escape | textEnd | hexText | bitText | stuck => cases houtside

/-! ## The modes follow the reader -/

/-- The reading after one more character. -/
def advanced (reading : Reading) (c : Char) : Reading :=
  match continued true reading c with
  | some next => next
  | none => if (completed reading).isSome then opening c else .stuck

theorem reading_step (lexed : Lexed) (c : Char) :
    (lexed.step true c).reading = advanced lexed.reading c := by
  unfold Lexed.step advanced
  cases continued true lexed.reading c with
  | some next => rfl
  | none => cases completed lexed.reading <;> rfl

def advancedBy (reading : Reading) (text : List Char) : Reading := text.foldl advanced reading

theorem reading_after (lexed : Lexed) (text : List Char) :
    (lexed.after true text).reading = advancedBy lexed.reading text := by
  induction text generalizing lexed with
  | nil => rfl
  | cons c text ih => rw [Lexed.after_cons, ih, reading_step]; rfl

theorem advancedBy_stuck (text : List Char) : advancedBy .stuck text = .stuck := by
  induction text with
  | nil => rfl
  | cons c text ih => exact ih

/-- The text that is to come leaves the reader at the end of a token. -/
def Finishes (reading : Reading) (text : List Char) : Prop :=
  (completed (advancedBy reading text)).isSome

theorem Finishes.ne_stuck {reading : Reading} {text : List Char} (h : Finishes reading text) :
    reading ≠ .stuck := by
  rintro rfl
  rw [Finishes, advancedBy_stuck] at h
  cases h

theorem Finishes.advance {reading : Reading} {c : Char} {text : List Char}
    (h : Finishes reading (c :: text)) : Finishes (advanced reading c) text := h

theorem modeOf_outside {reading : Reading} (h : Outside reading) (rest : List Char) :
    modeOf reading rest = .text := by
  cases reading <;> first | rfl | cases h

theorem advanced_steps {reading : Reading} {c : Char}
    (h : Outside reading ∨ continued true reading c = none) (hnext : advanced reading c ≠ .stuck) :
    Steps c (advanced reading c) := by
  unfold advanced at hnext ⊢
  cases hgoes : continued true reading c with
  | some next =>
    rw [hgoes] at hnext h
    exact continued_steps (h.resolve_right (by simp)) hgoes hnext
  | none =>
    rw [hgoes] at hnext
    dsimp only at hnext ⊢
    split_ifs at hnext ⊢
    · exact opening_steps hnext
    · exact absurd rfl hnext

/-- Where a statement may end: at the end of the text or in front of a semicolon. -/
def EndsHere (rest : List Char) : Prop := ∀ c ∈ rest.head?, c = ';'

variable {reading : Reading} {c : Char} {text rest : List Char}

theorem Finishes.head_ne (h : Finishes reading text) (hrest : EndsHere rest) {other : Char}
    (hother : other ≠ ';') (hstuck : advanced reading other = .stuck) :
    (text ++ rest).head? ≠ some other := by
  intro hhead
  cases text with
  | nil => exact hother (hrest other hhead)
  | cons first text =>
    obtain rfl := Option.some.inj hhead
    exact h.advance.ne_stuck hstuck

theorem textStep_steps {next : Reading} (hsteps : Steps c next) (h : Finishes next text)
    (hrest : EndsHere rest) :
    ∃ mark, mark ≠ .stop ∧
      mysql.lexer.step .text c (text ++ rest) = (modeOf next (text ++ rest), mark) := by
  cases hsteps with
  | name hc =>
    subst hc
    exact ⟨.quoted, by simp, rfl⟩
  | quote hc hnext =>
    subst hc
    refine ⟨.quoted, by simp, ?_⟩
    rcases hnext with rfl | rfl | rfl <;> rfl
  | dash hc hnext =>
    subst hc
    refine ⟨.code, by simp, ?_⟩
    have hmode : modeOf next (text ++ rest) = .text := by
      rcases hnext with rfl | ⟨before, rfl⟩ <;> rfl
    have hdash : (text ++ rest)[0]? ≠ some '-' := by
      rw [← List.head?_eq_getElem?]
      apply h.head_ne hrest (by decide)
      rcases hnext with rfl | ⟨before, rfl⟩
      · rfl
      · simp [advanced, continued]
    have hdashes : mysql.dashes (text ++ rest) = false := by
      simp [Rules.dashes, hdash]
    rw [hmode]
    simp [Rules.lexer, Rules.step, Rules.textStep, isQuote, hdashes, show '-' ≠ backtick by decide]
  | plain hc hnext =>
    refine ⟨.code, by simp, ?_⟩
    simp only [isPlain, Bool.and_eq_true, Bool.not_eq_true', decide_eq_true_eq] at hc
    obtain ⟨⟨⟨⟨hquote, hhash⟩, hminus⟩, hslash⟩, hsemicolon⟩ := hc
    rw [modeOf_outside hnext]
    simp [Rules.lexer, Rules.step, Rules.textStep, hquote, hhash, hminus, hslash, hsemicolon]

theorem lexerStep_backtick (c : Char) (rest : List Char) :
    mysql.lexer.step (.quoted backtick) c rest =
      (if c = backtick then if rest.head? = some backtick then .doubled backtick else .text
        else .quoted backtick, .quoted) := by
  have hescape : ¬(c = '\\' ∧ mysql.escapes backtick = true) := by
    rintro ⟨-, h⟩
    cases h
  simp only [Rules.lexer, reduceCtorEq, false_and, if_false, Rules.step, Rules.quotedStep,
    if_neg hescape, List.head?_eq_getElem?]

theorem lexerStep_quote (c : Char) (rest : List Char) :
    mysql.lexer.step (.quoted '\'') c rest =
      (if c = '\\' then .escaped '\''
        else if c = '\'' then if rest.head? = some '\'' then .doubled '\'' else .text
        else .quoted '\'', .quoted) := by
  have hescape : mysql.escapes '\'' = true := by decide
  simp only [Rules.lexer, reduceCtorEq, false_and, if_false, Rules.step, Rules.quotedStep, hescape,
    and_true, List.head?_eq_getElem?]

/-- One character of a statement, by both readers. -/
theorem lexerStep_modeOf (h : Finishes reading (c :: text)) (hrest : EndsHere rest) :
    ∃ mark, mark ≠ .stop ∧ mysql.lexer.step (modeOf reading (c :: text ++ rest)) c (text ++ rest) =
      (modeOf (advanced reading c) (text ++ rest), mark) := by
  have hnext := h.advance.ne_stuck
  have houtside : Outside reading → ∃ mark, mark ≠ .stop ∧
      mysql.lexer.step (modeOf reading (c :: text ++ rest)) c (text ++ rest) =
        (modeOf (advanced reading c) (text ++ rest), mark) := by
    intro hreading
    rw [modeOf_outside hreading]
    exact textStep_steps (advanced_steps (.inl hreading) hnext) h.advance hrest
  -- inside a literal the next character decides, outside of one nothing does
  cases reading with
  | between | word | minus | dot | number | exponent | scaled | hexNumber | qualifier | closed =>
    exact houtside trivial
  | stuck => exact absurd rfl h.ne_stuck
  | name name =>
    refine ⟨.quoted, by simp, ?_⟩
    rw [modeOf, lexerStep_backtick]
    by_cases hc : c = backtick
    · simp [hc, modeOf, advanced, continued]
    · simp [hc, modeOf, advanced, continued]
  | nameEnd name =>
    by_cases hc : c = backtick
    · refine ⟨.quoted, by simp, ?_⟩
      simp [hc, modeOf, advanced, continued, Rules.lexer, Rules.step]
    · have hmode : modeOf (.nameEnd name) (c :: text ++ rest) = .text := by
        simp [modeOf, hc]
      rw [hmode]
      by_cases hdot : c = '.'
      · have hqualifier : advanced (.nameEnd name) c = .qualifier name := by
          rw [hdot]
          rfl
        rw [hqualifier]
        refine textStep_steps (.plain ?_ trivial) (hqualifier ▸ h.advance) hrest
        rw [hdot]
        decide
      · have hstops : continued true (.nameEnd name) c = none := by
          simp [continued, hc, hdot]
        exact textStep_steps (advanced_steps (.inr hstops) hnext) h.advance hrest
  | text content =>
    refine ⟨.quoted, by simp, ?_⟩
    rw [modeOf, lexerStep_quote]
    by_cases hslash : c = '\\'
    · simp [hslash, modeOf, advanced, continued]
    · by_cases hquote : c = '\''
      · simp [hquote, modeOf, advanced, continued]
      · simp [hslash, hquote, modeOf, advanced, continued]
  | escape content => exact ⟨.quoted, by simp, rfl⟩
  | textEnd content =>
    by_cases hc : c = '\''
    · refine ⟨.quoted, by simp, ?_⟩
      simp [hc, modeOf, advanced, continued, Rules.lexer, Rules.step]
    · have hmode : modeOf (.textEnd content) (c :: text ++ rest) = .text := by
        simp [modeOf, hc]
      have hstops : continued true (.textEnd content) c = none := by
        simp [continued, hc]
      rw [hmode]
      exact textStep_steps (advanced_steps (.inr hstops) hnext) h.advance hrest
  | hexText digits =>
    refine ⟨.quoted, by simp, ?_⟩
    rw [modeOf, lexerStep_quote]
    have hclosed : ∀ token, advanced (.closed token) '\'' = .stuck := fun token => by
      simp [advanced, continued]
    by_cases hquote : c = '\''
    · cases hpairs : hexPairs digits with
      | none => exact absurd (by simp [advanced, continued, hquote, hpairs]) hnext
      | some content =>
        have hgoes : advanced (.hexText digits) c = .closed (.bytes content) := by
          simp [advanced, continued, hquote, hpairs]
        have hhead := (hgoes ▸ h.advance).head_ne hrest (by decide) (hclosed _)
        have houter : Outside (.closed (.bytes content)) := trivial
        rw [hgoes, modeOf_outside houter, hquote, if_neg (by decide), if_pos rfl, if_neg hhead]
    · have hslash : c ≠ '\\' := by
        rintro rfl
        exact hnext rfl
      cases hdigit : hexDigit c with
      | none => exact absurd (by simp [advanced, continued, hquote, hdigit]) hnext
      | some digit => simp [advanced, continued, hquote, hdigit, hslash, modeOf]
  | bitText content =>
    refine ⟨.quoted, by simp, ?_⟩
    rw [modeOf, lexerStep_quote]
    have hclosed : ∀ token, advanced (.closed token) '\'' = .stuck := fun token => by
      simp [advanced, continued]
    by_cases hquote : c = '\''
    · have hgoes : advanced (.bitText content) c = .closed (.bits content) := by
        simp [advanced, continued, hquote]
      have hhead := (hgoes ▸ h.advance).head_ne hrest (by decide) (hclosed _)
      have houter : Outside (.closed (.bits content)) := trivial
      rw [hgoes, modeOf_outside houter, hquote, if_neg (by decide), if_pos rfl, if_neg hhead]
    · by_cases hbit : c = '0' ∨ c = '1'
      · rcases hbit with rfl | rfl <;> rfl
      · rw [not_or] at hbit
        exact absurd (by simp [advanced, continued, hquote, hbit]) hnext

theorem modeOf_completed (h : (completed reading).isSome) (hrest : EndsHere rest) :
    modeOf reading rest = .text := by
  have hhead : ∀ quote, quote ≠ ';' → rest.head? ≠ some quote :=
    fun quote hquote hmem => hquote (hrest quote hmem)
  cases reading with
  | nameEnd name => rw [modeOf, if_neg (hhead backtick (by decide))]
  | textEnd content => rw [modeOf, if_neg (hhead '\'' (by decide))]
  | name | text | escape | hexText | bitText | stuck => cases h
  | between | word | minus | dot | number | exponent | scaled | hexNumber | qualifier | closed => rfl

theorem readFrom_modeOf (h : Finishes reading text) (hrest : EndsHere rest) :
    ∃ marked, Marking.text marked = text ∧ NoStop marked ∧
      mysql.lexer.readFrom (modeOf reading (text ++ rest)) (text ++ rest) =
        (mysql.lexer.readFrom .text rest).map (marked ++ ·) := by
  induction text generalizing reading with
  | nil =>
    refine ⟨[], rfl, by simp [NoStop], ?_⟩
    have hdone : (completed reading).isSome := h
    rw [List.nil_append, modeOf_completed hdone hrest]
    simp
  | cons c text ih =>
    obtain ⟨marked, rfl, hstop, hread⟩ := ih h.advance
    obtain ⟨mark, hmark, hstep⟩ := lexerStep_modeOf h hrest
    refine ⟨(c, mark) :: marked, rfl, ?_, ?_⟩
    · intro item hitem
      rcases List.mem_cons.mp hitem with rfl | hitem
      · exact hmark
      · exact hstop item hitem
    · rw [List.cons_append, Lexer.readFrom_cons, ← List.cons_append, hstep, hread, Option.map_map]
      rfl

theorem readFrom_statement (h : (tokens true text).isSome) (hrest : EndsHere rest) :
    ∃ marked, Marking.text marked = text ∧ NoStop marked ∧
      mysql.lexer.readFrom .text (text ++ rest) =
        (mysql.lexer.readFrom .text rest).map (marked ++ ·) := by
  have hfinishes : Finishes .between text := by
    unfold tokens at h
    rw [Option.isSome_map, reading_after] at h
    exact h
  exact readFrom_modeOf hfinishes hrest

end Chat2DB.MySql
