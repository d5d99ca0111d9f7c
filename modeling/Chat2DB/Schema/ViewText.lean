import Chat2DB.Schema.CatalogBytes

/-! # Retargeting the text of a view

A view is shown as text between names and literals. A name stands alone, or behind its
catalog as an object, or behind both as a column. The rewriting takes every name before a
dot for a catalog, so that the object of a column is taken for one as well.
-/

namespace Chat2DB.Schema

variable {name : List Char} {catalogName' objectName' : List Char → List Char}

/-! ## The canonical form -/

inductive ViewPiece where
  | plain (text : List Char)
  | literal (delimiter : Char) (body : List Char)
  | name (identifier : List Char)
  | object (catalog table : List Char)
  | column (catalog table field : List Char)
deriving DecidableEq

def ViewPiece.text : ViewPiece → List Char
  | .plain text => text
  | .literal delimiter body => delimiter :: (body ++ [delimiter])
  | .name identifier => quoteName identifier
  | .object catalog table => quoteName catalog ++ '.' :: quoteName table
  | .column catalog table field =>
    quoteName catalog ++ '.' :: (quoteName table ++ '.' :: quoteName field)

def viewText (pieces : List ViewPiece) : List Char := pieces.flatMap ViewPiece.text

/-- Escaped characters, doubled quotes and others. -/
def literalBody (delimiter : Char) : List Char → Bool
  | [] => true
  | [c] => c ≠ '\\' && c ≠ delimiter
  | c :: next :: rest =>
    if c = '\\' then literalBody delimiter rest
    else if c = delimiter then next = delimiter && literalBody delimiter rest
    else literalBody delimiter (next :: rest)

/-- Whether a piece ends where the text that follows it begins. -/
def ViewPiece.endsBefore (rest : List Char) : ViewPiece → Bool
  | .plain text => !text.any isQuote
  | .literal delimiter body =>
    (delimiter = '\'' || delimiter = '"') && literalBody delimiter body &&
      decide (rest.head? ≠ some delimiter)
  | .name _ | .object _ _ | .column _ _ _ =>
    decide (rest.head? ≠ some backtick) &&
      decide ((skipAsciiWhitespace rest).head? ≠ some '.')

/-- The pieces of a definition as MySQL shows it. -/
def canonicalForm : List ViewPiece → Bool
  | [] => true
  | piece :: rest => piece.endsBefore (viewText rest) && canonicalForm rest

/-- The names that stand first in a dotted name. -/
def qualifiers (pieces : List ViewPiece) : List (List Char) :=
  pieces.filterMap fun
    | .object catalog _ => some catalog
    | .column catalog _ _ => some catalog
    | _ => none

/-- The objects that stand before the name of a column. -/
def columnObjects (pieces : List ViewPiece) : List (List Char) :=
  pieces.filterMap fun
    | .column _ object _ => some object
    | _ => none

/-! ## Other names in their places -/

/-- The same piece with other catalogs and other objects of columns. -/
def ViewPiece.mapNames (catalogName objectName : List Char → List Char) : ViewPiece → ViewPiece
  | .object catalog table => .object (catalogName catalog) table
  | .column catalog table field => .column (catalogName catalog) (objectName table) field
  | piece => piece

/-- The catalog is exchanged where it is the source. -/
def exchanged (source target name : List Char) : List Char := if name = source then target else name

/-- The text with the qualifiers exchanged that are the source. -/
def retargetedView (source target : List Char) (pieces : List ViewPiece) : List ViewPiece :=
  pieces.map (ViewPiece.mapNames (exchanged source target) id)

section Names

variable {catalogName objectName : List Char → List Char}

theorem viewText_cons (piece : ViewPiece) (rest : List ViewPiece) :
    viewText (piece :: rest) = piece.text ++ viewText rest := List.flatMap_cons

theorem head?_dropWhile_map {passed : Char → Bool} (hpassed : passed backtick = false)
    (pieces : List ViewPiece) :
    ((viewText (pieces.map (ViewPiece.mapNames catalogName objectName))).dropWhile passed).head? =
      ((viewText pieces).dropWhile passed).head? := by
  induction pieces with
  | nil => rfl
  | cons piece rest ih =>
    have hsame : ∀ text : List Char,
        ((text ++ viewText (rest.map (ViewPiece.mapNames catalogName objectName))).dropWhile
            passed).head? = ((text ++ viewText rest).dropWhile passed).head? := by
      intro text
      rw [List.dropWhile_append, List.dropWhile_append]
      cases htext : text.dropWhile passed with
      | nil => exact ih
      | cons c more => rfl
    rw [List.map_cons, viewText_cons, viewText_cons]
    cases piece with
    | plain text => exact hsame text
    | literal delimiter body => exact hsame _
    | name identifier => exact hsame _
    | object catalog table => simp [ViewPiece.mapNames, ViewPiece.text, quoteName, hpassed]
    | column catalog table field => simp [ViewPiece.mapNames, ViewPiece.text, quoteName, hpassed]

theorem head?_map (pieces : List ViewPiece) :
    (viewText (pieces.map (ViewPiece.mapNames catalogName objectName))).head? =
      (viewText pieces).head? := by
  have hnothing : ∀ text : List Char, text.dropWhile (fun _ => false) = text := by
    intro text
    cases text <;> rfl
  have hhead := @head?_dropWhile_map catalogName objectName (fun _ => false) rfl pieces
  rw [hnothing, hnothing] at hhead
  exact hhead

theorem canonicalForm_map (pieces : List ViewPiece) :
    canonicalForm (pieces.map (ViewPiece.mapNames catalogName objectName)) =
      canonicalForm pieces := by
  induction pieces with
  | nil => rfl
  | cons piece rest ih =>
    have hhead := @head?_map catalogName objectName rest
    have hskip : (skipAsciiWhitespace (viewText (rest.map
        (ViewPiece.mapNames catalogName objectName)))).head? =
          (skipAsciiWhitespace (viewText rest)).head? := head?_dropWhile_map rfl rest
    rw [List.map_cons, canonicalForm, canonicalForm, ih]
    congr 1
    rw [Bool.eq_iff_iff]
    cases piece <;>
      simp only [ViewPiece.mapNames, ViewPiece.endsBefore, Bool.and_eq_true, decide_eq_true_eq,
        hhead, hskip]

end Names

/-! ## What the rewriting does -/

section Rewriting

variable {source target rest : List Char}

theorem rewriteCatalog_body {delimiter : Char} {body : List Char} (hslash : delimiter ≠ '\\')
    (hbody : literalBody delimiter body = true) (hrest : rest.head? ≠ some delimiter) :
    rewriteCatalog source target (some (delimiter, false)) (body ++ delimiter :: rest) =
      body ++ delimiter :: rewriteCatalog source target none rest := by
  induction body using literalBody.induct delimiter with
  | case1 => exact rewriteCatalog_close hslash hrest
  | case2 c =>
    simp only [literalBody, Bool.and_eq_true, decide_eq_true_eq] at hbody
    rw [List.singleton_append, rewriteCatalog_other hbody.1 hbody.2,
      rewriteCatalog_close hslash hrest]
    rfl
  | case3 next more ih =>
    rw [literalBody, if_pos rfl] at hbody
    rw [List.cons_append, List.cons_append, rewriteCatalog_skip (.inl rfl), ih hbody]
    rfl
  | case4 next more hother ih =>
    rw [literalBody, if_neg hother, if_pos rfl, Bool.and_eq_true, decide_eq_true_eq] at hbody
    rw [List.cons_append, List.cons_append, rewriteCatalog_skip (.inr ⟨rfl, hbody.1⟩), ih hbody.2]
    rfl
  | case5 c next more hother hplain ih =>
    rw [literalBody, if_neg hother, if_neg hplain] at hbody
    rw [List.cons_append, rewriteCatalog_other hother hplain, ih hbody]
    rfl

/-- The name that is written for one that stands before a dot. -/
def rewrittenName (source target name : List Char) : List Char :=
  if foldText name = foldText source then target else name

theorem rewriteCatalog_qualifier :
    rewriteCatalog source target none (quoteName name ++ '.' :: rest) =
      quoteName (rewrittenName source target name) ++
        '.' :: rewriteCatalog source target none rest := by
  have hdot : (skipAsciiWhitespace ('.' :: rest)).head? = some '.' := rfl
  have hplain : rewriteCatalog source target none ('.' :: rest) =
      '.' :: rewriteCatalog source target none rest :=
    @rewriteCatalog_plain rest source target ['.'] rfl
  have hnext : ('.' :: rest).head? ≠ some backtick := by
    intro heq
    exact absurd (Option.some.inj heq) (by decide)
  rw [rewriteCatalog_quoteName hnext, hplain, hdot, rewrittenName, apply_ite quoteName]
  simp

theorem rewriteCatalog_unqualified (hquote : rest.head? ≠ some backtick)
    (hdot : (skipAsciiWhitespace rest).head? ≠ some '.') :
    rewriteCatalog source target none (quoteName name ++ rest) =
      quoteName name ++ rewriteCatalog source target none rest := by
  rw [rewriteCatalog_quoteName hquote, if_neg fun hboth => hdot hboth.2]

/-- Every name before a dot is exchanged that is spelled like the source. -/
theorem rewriteCatalog_viewText {pieces : List ViewPiece} (hform : canonicalForm pieces = true) :
    rewriteCatalog source target none (viewText pieces) =
      viewText (pieces.map (ViewPiece.mapNames (rewrittenName source target)
        (rewrittenName source target))) := by
  induction pieces with
  | nil => simp [viewText, rewriteCatalog]
  | cons piece pieces ih =>
    rw [canonicalForm, Bool.and_eq_true] at hform
    obtain ⟨hends, hform⟩ := hform
    rw [List.map_cons, viewText_cons, viewText_cons, ← ih hform]
    cases piece with
    | plain text =>
      simp only [ViewPiece.endsBefore, Bool.not_eq_true'] at hends
      exact rewriteCatalog_plain hends
    | literal delimiter body =>
      simp only [ViewPiece.endsBefore, Bool.and_eq_true, Bool.or_eq_true,
        decide_eq_true_eq] at hends
      obtain ⟨⟨hquote, hbody⟩, hnext⟩ := hends
      have hslash : delimiter ≠ '\\' := by
        rcases hquote with rfl | rfl <;> decide
      have hrewrite := @rewriteCatalog_body source target _ delimiter body hslash hbody hnext
      simp only [ViewPiece.text, ViewPiece.mapNames, List.cons_append, List.append_assoc,
        List.nil_append]
      rw [rewriteCatalog_open hquote, hrewrite]
    | name identifier =>
      simp only [ViewPiece.endsBefore, Bool.and_eq_true, decide_eq_true_eq] at hends
      exact rewriteCatalog_unqualified hends.1 hends.2
    | object catalog table =>
      simp only [ViewPiece.endsBefore, Bool.and_eq_true, decide_eq_true_eq] at hends
      simp only [ViewPiece.text, ViewPiece.mapNames, List.cons_append, List.append_assoc]
      rw [rewriteCatalog_qualifier, rewriteCatalog_unqualified hends.1 hends.2]
    | column catalog table field =>
      simp only [ViewPiece.endsBefore, Bool.and_eq_true, decide_eq_true_eq] at hends
      simp only [ViewPiece.text, ViewPiece.mapNames, List.cons_append, List.append_assoc]
      rw [rewriteCatalog_qualifier, rewriteCatalog_qualifier,
        rewriteCatalog_unqualified hends.1 hends.2]

end Rewriting

/-! ## The names can be read off -/

theorem quoteName_append_inj {first second rest more : List Char}
    (hrest : rest.head? ≠ some backtick) (hmore : more.head? ≠ some backtick)
    (heq : quoteName first ++ rest = quoteName second ++ more) : first = second ∧ rest = more := by
  have hparse := @parseQuotedIdentifier_quoteName first rest hrest
  rw [heq, parseQuotedIdentifier_quoteName hmore] at hparse
  obtain ⟨hname, hafter⟩ := Prod.mk.inj (Option.some.inj hparse)
  exact ⟨hname.symm, hafter.symm⟩

theorem qualifier_append_inj {first second rest more : List Char}
    (heq : quoteName first ++ '.' :: rest = quoteName second ++ '.' :: more) :
    first = second ∧ rest = more := by
  have hdot : ∀ text : List Char, ('.' :: text).head? ≠ some backtick := by
    intro text heq
    exact absurd (Option.some.inj heq) (by decide)
  obtain ⟨hname, hrest⟩ := quoteName_append_inj (hdot rest) (hdot more) heq
  exact ⟨hname, List.tail_eq_of_cons_eq hrest⟩

/-- Definitions of the same form that read the same have the same names. -/
theorem mapNames_inj {catalogName objectName : List Char → List Char} {pieces : List ViewPiece}
    (heq : viewText (pieces.map (ViewPiece.mapNames catalogName objectName)) =
      viewText (pieces.map (ViewPiece.mapNames catalogName' objectName'))) :
    ∀ piece ∈ pieces, piece.mapNames catalogName objectName =
      piece.mapNames catalogName' objectName' := by
  induction pieces with
  | nil =>
    intro piece hpiece
    cases hpiece
  | cons piece rest ih =>
    rw [List.map_cons, List.map_cons, viewText_cons, viewText_cons] at heq
    have hpiece : piece.mapNames catalogName objectName =
          piece.mapNames catalogName' objectName' ∧
        viewText (rest.map (ViewPiece.mapNames catalogName objectName)) =
          viewText (rest.map (ViewPiece.mapNames catalogName' objectName')) := by
      cases piece with
      | plain text => exact ⟨rfl, List.append_cancel_left heq⟩
      | literal delimiter body => exact ⟨rfl, List.append_cancel_left heq⟩
      | name identifier => exact ⟨rfl, List.append_cancel_left heq⟩
      | object catalog table =>
        simp only [ViewPiece.text, ViewPiece.mapNames, List.cons_append,
          List.append_assoc] at heq ⊢
        obtain ⟨hcatalog, hrest⟩ := qualifier_append_inj heq
        exact ⟨by rw [hcatalog], List.append_cancel_left hrest⟩
      | column catalog table field =>
        simp only [ViewPiece.text, ViewPiece.mapNames, List.cons_append,
          List.append_assoc] at heq ⊢
        obtain ⟨hcatalog, hrest⟩ := qualifier_append_inj heq
        obtain ⟨htable, hrest⟩ := qualifier_append_inj hrest
        exact ⟨by rw [hcatalog, htable], List.append_cancel_left hrest⟩
    rw [List.forall_mem_cons]
    exact ⟨hpiece.1, ih hpiece.2⟩

theorem takeWhile_map {catalogName objectName : List Char → List Char} (pieces : List ViewPiece) :
    (viewText (pieces.map (ViewPiece.mapNames catalogName objectName))).takeWhile Text.blank =
      (viewText pieces).takeWhile Text.blank := by
  have hquote : Text.blank backtick = false := by decide
  induction pieces with
  | nil => rfl
  | cons piece rest ih =>
    have hsame : ∀ text : List Char,
        (text ++ viewText (rest.map (ViewPiece.mapNames catalogName objectName))).takeWhile
            Text.blank = (text ++ viewText rest).takeWhile Text.blank := by
      intro text
      rw [List.takeWhile_append, List.takeWhile_append, ih]
    rw [List.map_cons, viewText_cons, viewText_cons]
    cases piece with
    | plain text => exact hsame text
    | literal delimiter body => exact hsame _
    | name identifier => exact hsame _
    | object catalog table => simp [ViewPiece.mapNames, ViewPiece.text, quoteName, hquote]
    | column catalog table field => simp [ViewPiece.mapNames, ViewPiece.text, quoteName, hquote]

theorem rtakeWhile_map {catalogName objectName : List Char → List Char} (pieces : List ViewPiece) :
    (viewText (pieces.map (ViewPiece.mapNames catalogName objectName))).rtakeWhile Text.blank =
      (viewText pieces).rtakeWhile Text.blank := by
  have hquote : Text.blank backtick = false := by decide
  unfold List.rtakeWhile
  congr 1
  induction pieces using List.reverseRecOn with
  | nil => rfl
  | append_singleton rest piece ih =>
    have hsplit : ∀ (front : List ViewPiece) (last : ViewPiece),
        viewText (front ++ [last]) = viewText front ++ last.text := by
      intro front last
      simp [viewText]
    have hsame : ∀ text : List Char,
        (viewText (rest.map (ViewPiece.mapNames catalogName objectName)) ++ text).reverse.takeWhile
            Text.blank = (viewText rest ++ text).reverse.takeWhile Text.blank := by
      intro text
      rw [List.reverse_append, List.reverse_append, List.takeWhile_append, List.takeWhile_append, ih]
    rw [List.map_append, List.map_singleton, hsplit, hsplit]
    cases piece with
    | plain text => exact hsame text
    | literal delimiter body => exact hsame _
    | name identifier => exact hsame _
    | object catalog table => simp [ViewPiece.mapNames, ViewPiece.text, quoteName, hquote]
    | column catalog table field => simp [ViewPiece.mapNames, ViewPiece.text, quoteName, hquote]

/-! ## Blanks around a definition -/

section Blanks

variable {source target after : List Char}

theorem isQuote_of_blank {c : Char} (hc : Text.blank c = true) : isQuote c = false := by
  rw [← Bool.not_eq_true]
  intro hquote
  simp only [isQuote, Bool.or_eq_true, decide_eq_true_eq] at hquote
  rcases hquote with (rfl | rfl) | rfl <;> revert hc <;> decide

/-- Blanks behind a text do not change the name that it begins with. -/
theorem quotedRest_append (hafter : ∀ c ∈ after, Text.blank c = true) (text : List Char) :
    quotedRest (text ++ after) =
      (quotedRest text).map fun (name, rest) => (name, rest ++ after) := by
  have hplain : ∀ c ∈ after, c ≠ backtick := by
    rintro c hc rfl
    exact absurd (hafter _ hc) (by decide)
  have hnone : ∀ text : List Char, (∀ c ∈ text, c ≠ backtick) → quotedRest text = none := by
    intro text htext
    induction text with
    | nil => rfl
    | cons c rest ih =>
      rw [List.forall_mem_cons] at htext
      rw [quotedRest_cons htext.1, ih htext.2]
      rfl
  induction text using quotedRest.induct with
  | case1 => exact hnone after hplain
  | case2 =>
    cases after with
    | nil => rfl
    | cons next rest =>
      have hnext := hplain next List.mem_cons_self
      simp [quotedRest, hnext]
  | case3 c hc =>
    rw [List.singleton_append, quotedRest_cons hc, hnone after hplain, quotedRest, if_neg hc]
    rfl
  | case4 c next rest hc ih =>
    rw [List.cons_append, quotedRest_cons hc, ih, quotedRest, if_pos hc, Option.map_map,
      Option.map_map]
    rfl
  | case5 c rest hc ih =>
    rw [List.cons_append, List.cons_append, quotedRest, if_neg hc, if_pos rfl, ih, quotedRest,
      if_neg hc, if_pos rfl, Option.map_map, Option.map_map]
    rfl
  | case6 c next rest hc hnext =>
    rw [List.cons_append, List.cons_append, quotedRest, if_neg hc, if_neg hnext, quotedRest,
      if_neg hc, if_neg hnext]
    rfl

theorem head?_skip_append (hafter : ∀ c ∈ after, Text.blank c = true) (text : List Char) :
    (skipAsciiWhitespace (text ++ after)).head? = some '.' ↔
      (skipAsciiWhitespace text).head? = some '.' := by
  unfold skipAsciiWhitespace
  rw [List.dropWhile_append]
  cases text.dropWhile asciiWhitespace with
  | nil =>
    simp only [List.isEmpty_nil, if_true, List.head?_nil, reduceCtorEq, iff_false]
    intro hdot
    have hmem := (List.dropWhile_suffix asciiWhitespace).subset (List.mem_of_head? hdot)
    exact absurd (hafter '.' hmem) (by decide)
  | cons c rest => simp

theorem rewriteCatalog_blanks (hafter : ∀ c ∈ after, Text.blank c = true)
    {literal : Option (Char × Bool)} (hliteral : ∀ inside ∈ literal, isQuote inside.1 = true) :
    rewriteCatalog source target literal after = after := by
  induction after generalizing literal with
  | nil => rw [rewriteCatalog]
  | cons c rest ih =>
    rw [List.forall_mem_cons] at hafter
    have hslash : c ≠ '\\' := by
      rintro rfl
      exact absurd hafter.1 (by decide)
    have hquote := isQuote_of_blank hafter.1
    cases literal with
    | none =>
      have hplain := @rewriteCatalog_plain rest source target [c] (by simpa using hquote)
      rw [ih hafter.2 hliteral] at hplain
      exact hplain
    | some inside =>
      obtain ⟨delimiter, escaped⟩ := inside
      have hdelimiter : isQuote delimiter = true := hliteral _ rfl
      have hother : c ≠ delimiter := by
        rintro rfl
        rw [hquote] at hdelimiter
        cases hdelimiter
      have hrest : rewriteCatalog source target (some (delimiter, false)) rest = rest := by
        apply ih hafter.2
        rintro inside ⟨⟩
        exact hdelimiter
      cases escaped with
      | true => rw [rewriteCatalog, hrest]
      | false => rw [rewriteCatalog_other hslash hother, hrest]

/-- Blanks at the end stay what they are, also within a literal. -/
theorem rewriteCatalog_append (hafter : ∀ c ∈ after, Text.blank c = true)
    {literal : Option (Char × Bool)} (hliteral : ∀ inside ∈ literal, isQuote inside.1 = true)
    (text : List Char) :
    rewriteCatalog source target literal (text ++ after) =
      rewriteCatalog source target literal text ++ after := by
  -- strong induction: a quoted name takes several characters at once
  induction hlength : text.length using Nat.strong_induction_on generalizing literal text with
  | _ length ih =>
    cases text with
    | nil =>
      rw [List.nil_append, rewriteCatalog_blanks hafter hliteral, rewriteCatalog]
      rfl
    | cons c rest =>
      have hshorter : rest.length < length := by
        rw [← hlength]
        exact Nat.lt_succ_self _
      have hnone : ∀ inside ∈ (none : Option (Char × Bool)), isQuote inside.1 = true := by
        rintro inside ⟨⟩
      have hsome : ∀ delimiter escaped, isQuote delimiter = true →
          rewriteCatalog source target (some (delimiter, escaped)) (rest ++ after) =
            rewriteCatalog source target (some (delimiter, escaped)) rest ++ after := by
        intro delimiter escaped hdelimiter
        refine ih _ hshorter ?_ rest rfl
        rintro inside ⟨⟩
        exact hdelimiter
      rw [List.cons_append]
      cases literal with
      | some inside =>
        obtain ⟨delimiter, escaped⟩ := inside
        have hdelimiter : isQuote delimiter = true := hliteral _ rfl
        have hhead : (rest ++ after).head? = some delimiter ↔
            rest.head? = some delimiter := by
          cases rest with
          | cons next rest => rfl
          | nil =>
            refine iff_of_false (fun hsame => ?_) (by simp)
            have hblank := isQuote_of_blank (hafter _ (List.mem_of_head? hsame))
            rw [hdelimiter] at hblank
            cases hblank
        cases escaped with
        | true => rw [rewriteCatalog, rewriteCatalog, hsome _ _ hdelimiter, List.cons_append]
        | false =>
          rw [rewriteCatalog, rewriteCatalog]
          simp only [hhead]
          split_ifs
          · rw [hsome _ _ hdelimiter, List.cons_append]
          · rw [ih _ hshorter hnone rest rfl, List.cons_append]
          · rw [hsome _ _ hdelimiter, List.cons_append]
      | none =>
        by_cases hquote : c = '\'' ∨ c = '"'
        · have hdelimiter : isQuote c = true := by
            rcases hquote with rfl | rfl <;> rfl
          rw [rewriteCatalog_open hquote, rewriteCatalog_open hquote, hsome _ _ hdelimiter,
            List.cons_append]
        · by_cases htick : c = backtick
          · subst htick
            cases hparse : quotedRest rest with
            | none =>
              have hparse' : quotedRest (rest ++ after) = none := by
                rw [quotedRest_append hafter, hparse]
                rfl
              rw [rewriteCatalog_unnamed hparse, rewriteCatalog_unnamed hparse',
                ih _ hshorter hnone rest rfl, List.cons_append]
            | some found =>
              obtain ⟨name, behind⟩ := found
              have hparse' : quotedRest (rest ++ after) = some (name, behind ++ after) := by
                rw [quotedRest_append hafter, hparse]
                rfl
              have hbehind : behind.length < length :=
                (length_quotedRest hparse).trans hshorter
              have htoken : (backtick :: (rest ++ after)).take
                  ((backtick :: (rest ++ after)).length - (behind ++ after).length) =
                  (backtick :: rest).take ((backtick :: rest).length - behind.length) := by
                obtain ⟨token, rfl⟩ := (quotedRest_consumes hparse).1
                rw [List.append_assoc, ← List.cons_append, ← List.cons_append]
                simp only [List.length_append, Nat.add_sub_cancel, List.take_left']
              rw [rewriteCatalog_named hparse, rewriteCatalog_named hparse', htoken,
                ih _ hbehind hnone behind rfl, List.append_assoc]
              simp only [head?_skip_append hafter]
          · have hplain : isQuote c = false := by
              simpa [isQuote, not_or] using And.intro (not_or.mp hquote) htick
            have hboth : ∀ text, rewriteCatalog source target none (c :: text) =
                c :: rewriteCatalog source target none text := fun text =>
              @rewriteCatalog_plain text source target [c] (by simpa using hplain)
            rw [hboth, hboth, ih _ hshorter hnone rest rfl, List.cons_append]

theorem trim_rewriteCatalog_trim (text : List Char) :
    Text.trim (rewriteCatalog source target none (Text.trim text)) =
      Text.trim (rewriteCatalog source target none text) := by
  obtain ⟨before, after, hsplit, hbefore, hafter⟩ := Text.exists_trim text
  have hquotes : before.any isQuote = false := by
    rw [List.any_eq_false]
    intro c hc
    rw [isQuote_of_blank (hbefore c hc)]
    exact Bool.false_ne_true
  have hnone : ∀ inside ∈ (none : Option (Char × Bool)), isQuote inside.1 = true := by
    rintro inside ⟨⟩
  have hwhole : rewriteCatalog source target none text =
      before ++ rewriteCatalog source target none (Text.trim text) ++ after := by
    conv_lhs => rw [hsplit]
    rw [rewriteCatalog_append hafter hnone, rewriteCatalog_plain hquotes]
  rw [hwhole, Text.trim_append hbefore hafter]

end Blanks

/-! ## Retargeting -/

section Retargeting

variable {pieces : List ViewPiece} {source target : List Char}

theorem mapNames_eq_iff {catalogName objectName : List Char → List Char} :
    (∀ piece ∈ pieces, piece.mapNames catalogName objectName =
      piece.mapNames catalogName' objectName') ↔
      (∀ catalog ∈ qualifiers pieces, catalogName catalog = catalogName' catalog) ∧
        ∀ table ∈ columnObjects pieces, objectName table = objectName' table := by
  induction pieces with
  | nil => simp [qualifiers, columnObjects]
  | cons piece rest ih =>
    unfold qualifiers columnObjects at ih ⊢
    rw [List.forall_mem_cons, ih]
    cases piece with
    | plain text => simp [ViewPiece.mapNames]
    | literal delimiter body => simp [ViewPiece.mapNames]
    | name identifier => simp [ViewPiece.mapNames]
    | object catalog table => simp [ViewPiece.mapNames, and_assoc]
    | column catalog table field =>
      simp only [ViewPiece.mapNames, ViewPiece.column.injEq, and_true, List.filterMap_cons,
        List.forall_mem_cons]
      exact and_and_and_comm

theorem trim_viewText_eq_iff {catalogName objectName : List Char → List Char} :
    Text.trim (viewText (pieces.map (ViewPiece.mapNames catalogName objectName))) =
        Text.trim (viewText (pieces.map (ViewPiece.mapNames catalogName' objectName'))) ↔
      (∀ catalog ∈ qualifiers pieces, catalogName catalog = catalogName' catalog) ∧
        ∀ table ∈ columnObjects pieces, objectName table = objectName' table := by
  rw [← mapNames_eq_iff]
  constructor
  · intro htrim
    apply mapNames_inj
    apply Text.eq_of_trim_eq _ _ htrim
    · rw [takeWhile_map, takeWhile_map]
    · rw [rtakeWhile_map, rtakeWhile_map]
  · intro hnames
    rw [List.map_congr_left hnames]

theorem map_mapNames_id (pieces : List ViewPiece) :
    pieces.map (ViewPiece.mapNames id id) = pieces := by
  rw [List.map_congr_left (g := id), List.map_id]
  intro piece _
  cases piece <;> rfl

theorem map_mapNames_mapNames {first second first' second' : List Char → List Char} :
    (pieces.map (ViewPiece.mapNames first second)).map (ViewPiece.mapNames first' second') =
      pieces.map (ViewPiece.mapNames (first' ∘ first) (second' ∘ second)) := by
  rw [List.map_map]
  apply List.map_congr_left
  intro piece _
  cases piece <;> rfl

theorem rewrittenName_eq_self (hother : foldText source ≠ foldText target) :
    rewrittenName source target name = name ↔ foldText name ≠ foldText source := by
  unfold rewrittenName
  by_cases hname : foldText name = foldText source
  · rw [if_pos hname]
    refine iff_of_false (fun hsame => ?_) (fun hnot => hnot hname)
    rw [hsame] at hother
    exact hother hname.symm
  · rw [if_neg hname]
    exact iff_of_true rfl hname

theorem rewrittenName_eq_exchanged (hother : foldText source ≠ foldText target) :
    rewrittenName source target name = exchanged source target name ↔
      (foldText name = foldText source → name = source) := by
  by_cases hname : name = source
  · simp [hname, rewrittenName, exchanged]
  · rw [exchanged, if_neg hname, rewrittenName_eq_self hother]
    exact ⟨fun hnot hsame => absurd hsame hnot, fun hsame hfold => hname (hsame hfold)⟩

theorem rewrittenName_back (hother : foldText source ≠ foldText target)
    (hname : foldText name = foldText source → name = source) :
    rewrittenName target source (rewrittenName source target name) = name ↔
      foldText name ≠ foldText target := by
  by_cases hfold : foldText name = foldText source
  · have hback : rewrittenName target source (rewrittenName source target name) = source := by
      rw [rewrittenName, rewrittenName, if_pos hfold, if_pos rfl]
    refine iff_of_true (hback.trans (hname hfold).symm) ?_
    rw [hfold]
    exact hother
  · rw [(rewrittenName_eq_self hother).mpr hfold]
    exact rewrittenName_eq_self hother.symm

variable (pieces source target)

/-- What retargeting a definition is for. -/
structure Retargets : Prop where
  /-- The qualifiers that are the source are exchanged, and nothing else. -/
  exchanges : rewriteQualifiedCatalog (viewText pieces) source target =
    Text.trim (viewText (retargetedView source target pieces))
  /-- The bytes that are put together are text. -/
  valid : rewriteQualifiedCatalogBytes (viewText pieces) source target =
    some (rewriteQualifiedCatalog (viewText pieces) source target)
  restores : target ∉ qualifiers pieces →
    rewriteQualifiedCatalog (rewriteQualifiedCatalog (viewText pieces) source target) target source =
      Text.trim (viewText pieces)

/-- The definition has no name that the rewriting takes for another. -/
structure TellsNames : Prop where
  /-- A change of case only is no change. -/
  sameCase : foldText source = foldText target → source ∉ qualifiers pieces
  catalogs : foldText source ≠ foldText target → ∀ catalog ∈ qualifiers pieces,
    foldText catalog = foldText source → catalog = source
  objects : foldText source ≠ foldText target → ∀ table ∈ columnObjects pieces,
    foldText table ≠ foldText source
  targetCatalogs : foldText source ≠ foldText target → target ∉ qualifiers pieces →
    ∀ catalog ∈ qualifiers pieces, foldText catalog ≠ foldText target
  targetObjects : foldText source ≠ foldText target → target ∉ qualifiers pieces →
    ∀ table ∈ columnObjects pieces, foldText table ≠ foldText target

variable {pieces source target}

theorem exchanges_iff (hform : canonicalForm pieces = true)
    (hother : foldText source ≠ foldText target) :
    rewriteQualifiedCatalog (viewText pieces) source target =
        Text.trim (viewText (retargetedView source target pieces)) ↔
      (∀ catalog ∈ qualifiers pieces, foldText catalog = foldText source → catalog = source) ∧
        ∀ table ∈ columnObjects pieces, foldText table ≠ foldText source := by
  rw [rewriteQualifiedCatalog, if_neg hother, rewriteCatalog_viewText hform, retargetedView,
    trim_viewText_eq_iff]
  simp only [rewrittenName_eq_exchanged hother, id_eq, rewrittenName_eq_self hother]

theorem restores_iff (hform : canonicalForm pieces = true)
    (hother : foldText source ≠ foldText target)
    (hcatalogs : ∀ catalog ∈ qualifiers pieces, foldText catalog = foldText source →
      catalog = source)
    (hobjects : ∀ table ∈ columnObjects pieces, foldText table ≠ foldText source) :
    rewriteQualifiedCatalog (rewriteQualifiedCatalog (viewText pieces) source target) target source =
        Text.trim (viewText pieces) ↔
      (∀ catalog ∈ qualifiers pieces, foldText catalog ≠ foldText target) ∧
        ∀ table ∈ columnObjects pieces, foldText table ≠ foldText target := by
  have hform' := hform
  rw [← @canonicalForm_map (rewrittenName source target) (rewrittenName source target)] at hform'
  have hself : viewText pieces = viewText (pieces.map (ViewPiece.mapNames id id)) := by
    rw [map_mapNames_id]
  rw [rewriteQualifiedCatalog, if_neg hother.symm, rewriteQualifiedCatalog, if_neg hother,
    trim_rewriteCatalog_trim, rewriteCatalog_viewText hform, rewriteCatalog_viewText hform',
    map_mapNames_mapNames]
  rw [hself, trim_viewText_eq_iff]
  apply and_congr
  · refine forall₂_congr fun catalog hcatalog => ?_
    exact rewrittenName_back hother (hcatalogs catalog hcatalog)
  · refine forall₂_congr fun table htable => ?_
    exact rewrittenName_back hother fun hfold => absurd hfold (hobjects table htable)

/-- A definition is retargeted as it should be if and only if its names are told apart. -/
theorem rewriteQualifiedCatalog_retargets_iff (pieces : List ViewPiece) (source target : List Char)
    (hform : canonicalForm pieces = true) (hdifferent : source ≠ target) :
    Retargets pieces source target ↔ TellsNames pieces source target := by
  have hvalid := rewriteQualifiedCatalogBytes_eq (viewText pieces) source target
  by_cases hsame : foldText source = foldText target
  · have htrim : rewriteQualifiedCatalog (viewText pieces) source target =
        Text.trim (viewText (pieces.map (ViewPiece.mapNames id id))) := by
      rw [rewriteQualifiedCatalog, if_pos hsame, map_mapNames_id]
    have hexchanges : rewriteQualifiedCatalog (viewText pieces) source target =
        Text.trim (viewText (retargetedView source target pieces)) ↔
          source ∉ qualifiers pieces := by
      rw [htrim, retargetedView, trim_viewText_eq_iff]
      constructor
      · rintro ⟨hcatalogs, -⟩ hmem
        have hexchanged := hcatalogs source hmem
        rw [exchanged, if_pos rfl] at hexchanged
        exact hdifferent hexchanged
      · intro habsent
        refine ⟨fun catalog hcatalog => ?_, fun _ _ => rfl⟩
        have hne : catalog ≠ source := by
          rintro rfl
          exact habsent hcatalog
        rw [exchanged, if_neg hne]
        rfl
    constructor
    · intro hretargets
      exact ⟨fun _ => hexchanges.mp hretargets.exchanges, fun hother => absurd hsame hother,
        fun hother => absurd hsame hother, fun hother => absurd hsame hother,
        fun hother => absurd hsame hother⟩
    · intro htells
      refine ⟨hexchanges.mpr (htells.sameCase hsame), hvalid, fun _ => ?_⟩
      rw [htrim, map_mapNames_id, rewriteQualifiedCatalog, if_pos hsame.symm, Text.trim_trim]
  · have hexchanges := exchanges_iff hform hsame
    constructor
    · intro hretargets
      obtain ⟨hcatalogs, hobjects⟩ := hexchanges.mp hretargets.exchanges
      have hrestores := restores_iff hform hsame hcatalogs hobjects
      exact ⟨fun hfold => absurd hfold hsame, fun _ => hcatalogs, fun _ => hobjects,
        fun _ habsent => (hrestores.mp (hretargets.restores habsent)).1,
        fun _ habsent => (hrestores.mp (hretargets.restores habsent)).2⟩
    · intro htells
      have hcatalogs := htells.catalogs hsame
      have hobjects := htells.objects hsame
      refine ⟨hexchanges.mpr ⟨hcatalogs, hobjects⟩, hvalid, fun habsent => ?_⟩
      exact (restores_iff hform hsame hcatalogs hobjects).mpr
        ⟨htells.targetCatalogs hsame habsent, htells.targetObjects hsame habsent⟩

end Retargeting

/-! ## A table that is named like its database -/

/-- A column of the table and the table, each behind the database. -/
def shopView (table : String) : List ViewPiece :=
  [.plain "select ".toList, .column "shop".toList table.toList "id".toList, .plain " AS ".toList,
    .name "id".toList, .plain " from ".toList, .object "shop".toList table.toList]

/-- The table becomes one with the name of the other database. -/
theorem shopTable_mistaken : canonicalForm (shopView "shop") = true ∧
    ¬ Retargets (shopView "shop") "shop".toList "store".toList := by
  have hform : canonicalForm (shopView "shop") = true := by decide
  have hother : foldText "shop".toList ≠ foldText "store".toList := by decide
  refine ⟨hform, fun hretargets => ?_⟩
  obtain ⟨-, hobjects⟩ := (exchanges_iff hform hother).mp hretargets.exchanges
  exact hobjects "shop".toList List.mem_cons_self rfl

theorem itemsView_retargeted : canonicalForm (shopView "items") = true ∧
    Retargets (shopView "items") "shop".toList "store".toList := by
  have hform : canonicalForm (shopView "items") = true := by decide
  have hcatalogs : ∀ catalog ∈ qualifiers (shopView "items"), catalog = "shop".toList := by decide
  have hobjects : ∀ table ∈ columnObjects (shopView "items"), table = "items".toList := by decide
  refine ⟨hform, (rewriteQualifiedCatalog_retargets_iff _ _ _ hform (by decide)).mpr ?_⟩
  refine ⟨fun hsame => absurd hsame (by decide), fun _ catalog hcatalog _ => hcatalogs catalog hcatalog,
    fun _ table htable => ?_, fun _ _ catalog hcatalog => ?_, fun _ _ table htable => ?_⟩
  · rw [hobjects table htable]
    decide
  · rw [hcatalogs catalog hcatalog]
    decide
  · rw [hobjects table htable]
    decide

end Chat2DB.Schema
