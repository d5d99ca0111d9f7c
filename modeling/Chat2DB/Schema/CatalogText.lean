import Chat2DB.Base.Text

/-! # Names in the text of a definition

MySQL shows a definition with its names between backticks. The schema difference reads
such texts for a keyword outside of quotes, for a name, and for the names that stand before
a dot.
-/

namespace Chat2DB.Schema

variable {text after : List Char}

def backtick : Char := Char.ofNat 0x60

/-- Text without regard to the case of ASCII letters. -/
def foldText (text : List Char) : List Char := text.map Char.toLower

def doubled (c : Char) : List Char := if c = backtick then [c, c] else [c]

/-- `quote_identifier`. -/
def quoteName (name : List Char) : List Char := backtick :: name.flatMap doubled ++ [backtick]

/-- The name that a backtick begins, and what follows its closing backtick. -/
def quotedRest : List Char → Option (List Char × List Char)
  | [] => none
  | [c] => if c = backtick then some ([], []) else none
  | c :: next :: rest =>
    if c ≠ backtick then
      (quotedRest (next :: rest)).map fun (name, after) => (c :: name, after)
    else if next = backtick then
      (quotedRest rest).map fun (name, after) => (backtick :: name, after)
    else some ([], next :: rest)

def parseQuotedIdentifier : List Char → Option (List Char × List Char)
  | [] => none
  | c :: rest => if c = backtick then quotedRest rest else none

def asciiWhitespace (c : Char) : Bool :=
  c = ' ' || c = '\t' || c = '\n' || c = '\r' || c = Char.ofNat 12

def skipAsciiWhitespace (text : List Char) : List Char := text.dropWhile asciiWhitespace

/-! ## Keywords -/

/-- Outside of quotes, inside of some, or before a character there that is passed over. -/
inductive Quoting where
  | plain
  | quoted (delimiter : Char)
  | skipping (delimiter : Char)
deriving DecidableEq

def isQuote (c : Char) : Bool := c = '\'' || c = '"' || c = backtick

def isWordChar (c : Char) : Bool := c.isAlphanum || c = '_'

def keywordAt (keyword : List Char) (previous : Option Char) (text : List Char) : Bool :=
  decide (foldText (text.take keyword.length) = foldText keyword) &&
    !previous.any isWordChar && !(text.drop keyword.length).head?.any isWordChar

/-- `find_unquoted_keyword`, with the text that follows the keyword. -/
def afterKeyword (keyword : List Char) : Quoting → Option Char → List Char → Option (List Char)
  | _, _, [] => none
  | .skipping delimiter, _, c :: rest => afterKeyword keyword (.quoted delimiter) (some c) rest
  | .quoted delimiter, _, c :: rest =>
    if c = '\\' ∧ delimiter ≠ backtick then
      afterKeyword keyword (.skipping delimiter) (some c) rest
    else if c = delimiter then
      if rest.head? = some delimiter then
        afterKeyword keyword (.skipping delimiter) (some c) rest
      else afterKeyword keyword .plain (some c) rest
    else afterKeyword keyword (.quoted delimiter) (some c) rest
  | .plain, previous, c :: rest =>
    if isQuote c then afterKeyword keyword (.quoted c) (some c) rest
    else if keywordAt keyword previous (c :: rest) then some ((c :: rest).drop keyword.length)
    else afterKeyword keyword .plain (some c) rest

def findUnquotedKeyword (text keyword : List Char) : Option (List Char) :=
  afterKeyword keyword .plain none text

/-- Text without quotes that does not run into the keyword, whatever follows. -/
def plainFor (keyword : List Char) : List Char → Bool
  | [] => true
  | c :: rest =>
    !isQuote c && !(foldText ((c :: rest).take keyword.length)).isPrefixOf (foldText keyword) &&
      plainFor keyword rest

theorem keywordAt_append {keyword rest : List Char} {previous : Option Char}
    (hother : ¬foldText (text.take keyword.length) <+: foldText keyword) :
    keywordAt keyword previous (text ++ rest) = false := by
  have hdiffers : foldText ((text ++ rest).take keyword.length) ≠ foldText keyword := by
    intro hsame
    apply hother
    rw [← hsame, List.take_append, foldText, foldText, List.map_append]
    exact List.prefix_append _ _
  simp [keywordAt, hdiffers]

theorem afterKeyword_plain {keyword rest : List Char} {previous : Option Char}
    (hplain : plainFor keyword text = true) :
    afterKeyword keyword .plain previous (text ++ rest) =
      afterKeyword keyword .plain (text.getLast?.or previous) rest := by
  induction text generalizing previous with
  | nil => rfl
  | cons c text ih =>
    simp only [plainFor, Bool.and_eq_true, Bool.not_eq_true'] at hplain
    obtain ⟨⟨hquote, hother⟩, hplain⟩ := hplain
    have hnone : keywordAt keyword previous (c :: (text ++ rest)) = false := by
      rw [← List.cons_append]
      apply keywordAt_append
      intro hsame
      rw [List.isPrefixOf_iff_prefix.mpr hsame] at hother
      cases hother
    rw [List.cons_append, afterKeyword, hquote, hnone]
    simp only [Bool.false_eq_true, if_false]
    rw [ih hplain, List.getLast?_cons]
    cases text.getLast? <;> rfl

theorem afterKeyword_found {keyword rest : List Char} {previous : Option Char} {next : Char}
    (hquote : keyword.head?.any isQuote = false) (hkeyword : keyword ≠ [])
    (hprevious : previous.any isWordChar = false) (hnext : isWordChar next = false) :
    afterKeyword keyword .plain previous (keyword ++ next :: rest) = some (next :: rest) := by
  cases keyword with
  | nil => exact absurd rfl hkeyword
  | cons c keyword =>
    have hfound : keywordAt (c :: keyword) previous (c :: keyword ++ next :: rest) = true := by
      rw [keywordAt, List.take_left, List.drop_left, hprevious]
      simp [hnext]
    have hdrop : (c :: keyword ++ next :: rest).drop (c :: keyword).length = next :: rest :=
      List.drop_left
    rw [List.cons_append] at hfound hdrop ⊢
    rw [afterKeyword, if_neg (by simpa using hquote), if_pos hfound, hdrop]

theorem head?_ne_backtick {rest : List Char} (htext : text.head?.any (· ≠ backtick) = true) :
    (text ++ rest).head? ≠ some backtick := by
  cases text with
  | nil => cases htext
  | cons c text => simpa using htext

/-! ## Names before a dot -/

/-- A name takes at least its closing quotation mark. -/
theorem quotedRest_consumes {name : List Char} (hparse : quotedRest text = some (name, after)) :
    after <:+ text ∧ after.length < text.length := by
  induction text using quotedRest.induct generalizing name with
  | case1 => cases hparse
  | case2 =>
    rw [quotedRest, if_pos rfl] at hparse
    obtain ⟨-, rfl⟩ := Prod.mk.inj (Option.some.inj hparse)
    exact ⟨List.nil_suffix, Nat.zero_lt_one⟩
  | case3 c hplain =>
    rw [quotedRest, if_neg hplain] at hparse
    cases hparse
  | case4 c next rest hplain ih =>
    rw [quotedRest, if_pos hplain, Option.map_eq_some_iff] at hparse
    obtain ⟨⟨inner, last⟩, hinner, hpair⟩ := hparse
    obtain ⟨-, rfl⟩ := Prod.mk.inj hpair
    exact ⟨(ih hinner).1.trans (List.suffix_cons _ _), Nat.lt_succ_of_lt (ih hinner).2⟩
  | case5 c rest hquote ih =>
    rw [quotedRest, if_neg hquote, if_pos rfl, Option.map_eq_some_iff] at hparse
    obtain ⟨⟨inner, last⟩, hinner, hpair⟩ := hparse
    obtain ⟨-, rfl⟩ := Prod.mk.inj hpair
    exact ⟨((ih hinner).1.trans (List.suffix_cons _ _)).trans (List.suffix_cons _ _),
      Nat.lt_succ_of_lt (Nat.lt_succ_of_lt (ih hinner).2)⟩
  | case6 c next rest hquote hnext =>
    rw [quotedRest, if_neg hquote, if_neg hnext] at hparse
    obtain ⟨-, rfl⟩ := Prod.mk.inj (Option.some.inj hparse)
    exact ⟨List.suffix_cons _ _, Nat.lt_succ_self _⟩

theorem length_quotedRest {name : List Char} (hparse : quotedRest text = some (name, after)) :
    after.length < text.length :=
  (quotedRest_consumes hparse).2

/-- The loop of `rewrite_qualified_catalog`: literals are copied to their end, of the other
names those are exchanged that are the source's and stand before a dot. -/
def rewriteCatalog (source target : List Char) (literal : Option (Char × Bool)) :
    List Char → List Char
  | [] => []
  | c :: rest =>
    match literal with
    | some (delimiter, true) => c :: rewriteCatalog source target (some (delimiter, false)) rest
    | some (delimiter, false) =>
      if c = '\\' ∨ c = delimiter ∧ rest.head? = some delimiter then
        c :: rewriteCatalog source target (some (delimiter, true)) rest
      else if c = delimiter then c :: rewriteCatalog source target none rest
      else c :: rewriteCatalog source target literal rest
    | none =>
      if c = '\'' ∨ c = '"' then c :: rewriteCatalog source target (some (c, false)) rest
      else if c ≠ backtick then c :: rewriteCatalog source target none rest
      else
        match hparse : quotedRest rest with
        | none => c :: rewriteCatalog source target none rest
        | some (name, after) =>
          have := length_quotedRest hparse
          (if foldText name = foldText source ∧
              (skipAsciiWhitespace after).head? = some '.' then quoteName target
            else (c :: rest).take ((c :: rest).length - after.length)) ++
            rewriteCatalog source target none after
termination_by text => text.length
decreasing_by
  all_goals
    simp only [List.length_cons]
    omega

def rewriteQualifiedCatalog (definition source target : List Char) : List Char :=
  if foldText source = foldText target then Text.trim definition
  else Text.trim (rewriteCatalog source target none definition)

/-! ## Quoted names -/

section Names

variable {name rest : List Char}

theorem quotedRest_cons {c : Char} (hplain : c ≠ backtick) :
    quotedRest (c :: rest) = (quotedRest rest).map fun (name, after) => (c :: name, after) := by
  cases rest with
  | nil => simp [quotedRest, hplain]
  | cons next rest => rw [quotedRest, if_pos hplain]

theorem quotedRest_doubled (hrest : rest.head? ≠ some backtick) :
    quotedRest (name.flatMap doubled ++ backtick :: rest) = some (name, rest) := by
  induction name with
  | nil =>
    cases rest with
    | nil => rfl
    | cons next rest =>
      have hnext : next ≠ backtick := fun heq => hrest (by rw [heq]; rfl)
      simp [quotedRest, hnext]
  | cons c name ih =>
    rw [List.flatMap_cons, List.append_assoc]
    by_cases hquote : c = backtick
    · subst hquote
      simp [doubled, quotedRest, ih]
    · rw [doubled, if_neg hquote, List.singleton_append, quotedRest_cons hquote, ih]
      rfl

theorem parseQuotedIdentifier_quoteName (hrest : rest.head? ≠ some backtick) :
    parseQuotedIdentifier (quoteName name ++ rest) = some (name, rest) := by
  have hquoted := @quotedRest_doubled name rest hrest
  simpa [parseQuotedIdentifier, quoteName] using hquoted

variable {keyword : List Char} {previous : Option Char}

theorem afterKeyword_doubled (hrest : rest.head? ≠ some backtick) :
    afterKeyword keyword (.quoted backtick) previous (name.flatMap doubled ++ backtick :: rest) =
      afterKeyword keyword .plain (some backtick) rest := by
  have hslash : backtick ≠ '\\' := by decide
  induction name generalizing previous with
  | nil =>
    rw [List.flatMap_nil, List.nil_append, afterKeyword]
    simp [hrest]
  | cons c name ih =>
    rw [List.flatMap_cons, List.append_assoc]
    by_cases hquote : c = backtick
    · subst hquote
      simp [doubled, afterKeyword, ih]
    · simp [doubled, afterKeyword, hquote, ih]

theorem afterKeyword_quoteName (hrest : rest.head? ≠ some backtick) :
    afterKeyword keyword .plain previous (quoteName name ++ rest) =
      afterKeyword keyword .plain (some backtick) rest := by
  have hquote : isQuote backtick = true := by decide
  rw [quoteName, List.append_assoc, List.cons_append, afterKeyword, if_pos hquote]
  exact afterKeyword_doubled hrest

variable {source target : List Char}

theorem rewriteCatalog_plain {text : List Char} (htext : text.any isQuote = false) :
    rewriteCatalog source target none (text ++ rest) = text ++ rewriteCatalog source target none rest := by
  induction text with
  | nil => rfl
  | cons c text ih =>
    rw [List.any_cons, Bool.or_eq_false_iff] at htext
    have hc := htext.1
    simp only [isQuote, Bool.or_eq_false_iff, decide_eq_false_iff_not] at hc
    rw [List.cons_append, rewriteCatalog]
    simp [hc, ih htext.2]

theorem head?_skip_ne_dot (htext : (skipAsciiWhitespace text).head?.any (· ≠ '.') = true) :
    (skipAsciiWhitespace (text ++ rest)).head? ≠ some '.' := by
  unfold skipAsciiWhitespace at htext ⊢
  rw [List.dropWhile_append]
  cases hskip : text.dropWhile asciiWhitespace with
  | nil =>
    rw [hskip] at htext
    cases htext
  | cons c skipped =>
    rw [hskip] at htext
    simpa using htext

theorem rewriteCatalog_named (hparse : quotedRest rest = some (name, after)) :
    rewriteCatalog source target none (backtick :: rest) =
      (if foldText name = foldText source ∧ (skipAsciiWhitespace after).head? = some '.' then
          quoteName target
        else (backtick :: rest).take ((backtick :: rest).length - after.length)) ++
        rewriteCatalog source target none after := by
  have hother : ¬(backtick = '\'' ∨ backtick = '"') := by decide
  rw [rewriteCatalog]
  simp only [if_neg hother, ne_eq, not_true_eq_false, if_false]
  split
  · rename_i hnone
    rw [hparse] at hnone
    cases hnone
  · rename_i other behind hsome
    rw [hparse] at hsome
    obtain ⟨rfl, rfl⟩ := Prod.mk.inj (Option.some.inj hsome)
    rfl

theorem rewriteCatalog_quoteName (hrest : rest.head? ≠ some backtick) :
    rewriteCatalog source target none (quoteName name ++ rest) =
      (if foldText name = foldText source ∧ (skipAsciiWhitespace rest).head? = some '.' then
          quoteName target else quoteName name) ++ rewriteCatalog source target none rest := by
  have hsplit : quoteName name ++ rest = backtick :: (name.flatMap doubled ++ backtick :: rest) := by
    simp [quoteName]
  have htoken : (quoteName name ++ rest).take ((quoteName name ++ rest).length - rest.length) =
      quoteName name := by simp
  rw [hsplit] at htoken ⊢
  rw [rewriteCatalog_named (quotedRest_doubled hrest), htoken]

end Names

end Chat2DB.Schema
