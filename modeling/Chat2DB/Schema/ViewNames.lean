import Chat2DB.Schema.SchemaDiff

/-! # The objects that a definition names

A dotted name has a catalog, an object, and perhaps a column. The scanner for the objects
of a catalog takes any part for the catalog that is spelled like it and has a part behind
it, and goes on behind that one.
-/

namespace Chat2DB.Schema

variable {text : List Char}

/-! ## Dotted names -/

/-- The name behind a dot, if one stands there, and what follows it. -/
def nextPart (text : List Char) : Option (List Char × List Char) :=
  match skipAsciiWhitespace text with
  | '.' :: afterDot => parseQuotedIdentifier (skipAsciiWhitespace afterDot)
  | _ => none

/-- The next part stands behind blanks, a dot and blanks. -/
theorem exists_of_nextPart {name after : List Char} (hpart : nextPart text = some (name, after)) :
    ∃ before inner, text = before ++ backtick :: inner ∧ before.any isQuote = false ∧
      quotedRest inner = some (name, after) := by
  have hskip : ∀ text : List Char, ∃ before, text = before ++ skipAsciiWhitespace text ∧
      before.any isQuote = false := by
    intro text
    refine ⟨text.takeWhile asciiWhitespace, List.takeWhile_append_dropWhile.symm, ?_⟩
    rw [List.any_eq_false]
    intro c hc hquote
    have hblank := List.mem_takeWhile_imp hc
    simp only [isQuote, Bool.or_eq_true, decide_eq_true_eq] at hquote
    rcases hquote with (rfl | rfl) | rfl <;> revert hblank <;> decide
  unfold nextPart at hpart
  split at hpart
  next afterDot hdot =>
    obtain ⟨before, htext, hbefore⟩ := hskip text
    obtain ⟨between, hafter, hbetween⟩ := hskip afterDot
    cases hopen : skipAsciiWhitespace afterDot with
    | nil =>
      rw [hopen] at hpart
      cases hpart
    | cons quote inner =>
      rw [hopen, parseQuotedIdentifier] at hpart
      split_ifs at hpart with hquote
      refine ⟨before ++ '.' :: between, inner, ?_, ?_, hpart⟩
      · rw [← hquote, List.append_assoc, List.cons_append, ← hopen, ← hafter, ← hdot]
        exact htext
      · rw [List.any_append, List.any_cons, hbefore, hbetween]
        rfl
  next => cases hpart

theorem length_nextPart {name after : List Char} (hpart : nextPart text = some (name, after)) :
    after.length < text.length := by
  obtain ⟨before, inner, rfl, -, hname⟩ := exists_of_nextPart hpart
  have hlength := length_quotedRest hname
  rw [List.length_append, List.length_cons]
  omega

/-- The further parts of a dotted name, and what follows the last of them. -/
def dottedParts (text : List Char) : List (List Char) × List Char :=
  match hpart : nextPart text with
  | none => ([], text)
  | some (name, after) =>
    have := length_nextPart hpart
    (name :: (dottedParts after).1, (dottedParts after).2)
termination_by text.length

theorem dottedParts_none (hpart : nextPart text = none) :
    dottedParts text = ([], text) := by
  rw [dottedParts]
  split
  next => rfl
  next hsome =>
    rw [hpart] at hsome
    cases hsome

theorem dottedParts_some {name after : List Char} (hpart : nextPart text = some (name, after)) :
    dottedParts text = (name :: (dottedParts after).1, (dottedParts after).2) := by
  rw [dottedParts]
  split
  next hnone =>
    rw [hpart] at hnone
    cases hnone
  next found behind hsome =>
    rw [hpart] at hsome
    obtain ⟨rfl, rfl⟩ := Prod.mk.inj (Option.some.inj hsome)
    rfl

theorem length_dottedParts (text : List Char) : (dottedParts text).2.length ≤ text.length := by
  induction hlength : text.length using Nat.strong_induction_on generalizing text with
  | _ length ih =>
    cases hpart : nextPart text with
    | none => rw [dottedParts_none hpart, hlength]
    | some found =>
      obtain ⟨name, after⟩ := found
      have hafter := length_nextPart hpart
      have hrest := ih _ (hlength ▸ hafter) after rfl
      rw [dottedParts_some hpart]
      dsimp only
      omega

/-- The dotted names of a text, each with its parts. Literals are passed over. -/
def dottedNames (literal : Option (Char × Bool)) : List Char → List (List (List Char))
  | [] => []
  | c :: rest =>
    match literal with
    | some (delimiter, true) => dottedNames (some (delimiter, false)) rest
    | some (delimiter, false) =>
      if c = '\\' ∨ c = delimiter ∧ rest.head? = some delimiter then
        dottedNames (some (delimiter, true)) rest
      else if c = delimiter then dottedNames none rest
      else dottedNames literal rest
    | none =>
      if c = '\'' ∨ c = '"' then dottedNames (some (c, false)) rest
      else if c ≠ backtick then dottedNames none rest
      else
        match hname : quotedRest rest with
        | none => dottedNames none rest
        | some (name, after) =>
          have := length_quotedRest hname
          have := length_dottedParts after
          (name :: (dottedParts after).1) :: dottedNames none (dottedParts after).2
termination_by text => text.length
decreasing_by
  all_goals
    simp only [List.length_cons]
    omega

theorem dottedNames_named {rest name after : List Char}
    (hname : quotedRest rest = some (name, after)) :
    dottedNames none (backtick :: rest) =
      (name :: (dottedParts after).1) :: dottedNames none (dottedParts after).2 := by
  have hother : ¬(backtick = '\'' ∨ backtick = '"') := by decide
  rw [dottedNames]
  simp only [if_neg hother, ne_eq, not_true_eq_false, if_false]
  split
  next hnone =>
    rw [hname] at hnone
    cases hnone
  next found behind hsome =>
    rw [hname] at hsome
    obtain ⟨rfl, rfl⟩ := Prod.mk.inj (Option.some.inj hsome)
    rfl

/-- The object of a dotted name, if the catalog is the given one to a server with this value of
`lower_case_table_names`. -/
def ownObjects (lowerCaseTableNames : Nat) (catalog : List Char) :
    List (List Char) → List (List Char)
  | qualifier :: object :: _ =>
    if comparedName lowerCaseTableNames qualifier = comparedName lowerCaseTableNames catalog then
      [object]
    else []
  | _ => []

/-! ## The scanner -/

/-- What the scanner takes for objects of the catalog in a dotted name. -/
def spelledObjects (catalog : List Char) : List (List Char) → List (List Char)
  | part :: object :: rest =>
    if foldText part = foldText catalog then object :: spelledObjects catalog rest
    else spelledObjects catalog (object :: rest)
  | _ => []

/-- The scanner finds what a dotted name names in the catalog. -/
theorem spelled_of_own {lowerCaseTableNames : Nat} {catalog object : List Char}
    {dotted : List (List Char)} (hown : object ∈ ownObjects lowerCaseTableNames catalog dotted) :
    object ∈ spelledObjects catalog dotted := by
  rcases dotted with _ | ⟨qualifier, _ | ⟨named, rest⟩⟩
  · cases hown
  · cases hown
  · rw [ownObjects] at hown
    split at hown
    next hsame =>
      obtain rfl := List.mem_singleton.mp hown
      rw [spelledObjects, if_pos (foldText_of_comparedName hsame)]
      exact List.mem_cons_self
    next => cases hown

section Scanner

variable {catalog rest name after : List Char}

theorem qualifiedCatalogObjects_plain (htext : text.any isQuote = false) :
    qualifiedCatalogObjects catalog none (text ++ rest) =
      qualifiedCatalogObjects catalog none rest := by
  induction text with
  | nil => rfl
  | cons c text ih =>
    rw [List.any_cons, Bool.or_eq_false_iff] at htext
    have hc := htext.1
    simp only [isQuote, Bool.or_eq_false_iff, decide_eq_false_iff_not] at hc
    rw [List.cons_append, qualifiedCatalogObjects]
    simp [hc, ih htext.2]

theorem qualifiedCatalogObjects_unnamed (hname : quotedRest rest = none) :
    qualifiedCatalogObjects catalog none (backtick :: rest) =
      qualifiedCatalogObjects catalog none rest := by
  have hother : ¬(backtick = '\'' ∨ backtick = '"') := by decide
  rw [qualifiedCatalogObjects]
  simp only [if_neg hother, ne_eq, not_true_eq_false, if_false]
  split
  next => rfl
  next found hsome =>
    rw [hname] at hsome
    cases hsome

/-- The scanner at a name: it looks at the next part only if the name is the catalog's. -/
theorem qualifiedCatalogObjects_named (hname : quotedRest rest = some (name, after)) :
    qualifiedCatalogObjects catalog none (backtick :: rest) =
      match nextPart after with
      | some (object, behind) =>
        if foldText name = foldText catalog then
          object :: qualifiedCatalogObjects catalog none behind
        else qualifiedCatalogObjects catalog none after
      | none => qualifiedCatalogObjects catalog none after := by
  have hother : ¬(backtick = '\'' ∨ backtick = '"') := by decide
  rw [qualifiedCatalogObjects]
  simp only [if_neg hother, ne_eq, not_true_eq_false, if_false]
  split
  next hnone =>
    rw [hname] at hnone
    cases hnone
  next found behind hsome =>
    rw [hname] at hsome
    obtain ⟨rfl, rfl⟩ := Prod.mk.inj (Option.some.inj hsome)
    split
    next afterDot hdot =>
      have hpart : nextPart after = parseQuotedIdentifier (skipAsciiWhitespace afterDot) := by
        simp only [nextPart, hdot]
      rw [hpart]
      split
      next quote inner hopen =>
        rw [hopen, parseQuotedIdentifier]
        by_cases hquote : quote = backtick
        · by_cases hmatches : foldText name = foldText catalog
          · simp only [hquote, hmatches, and_self, if_true]
            split
            next object later hobject => rw [hobject]
            next hobject => rw [hobject]
          · simp only [hquote, hmatches, false_and, if_false, if_true]
            cases quotedRest inner <;> rfl
        · simp [hquote]
      next hopen => rw [hopen]; rfl
    next hnot =>
      have hpart : nextPart after = none := by
        unfold nextPart
        split
        next afterDot hdot => exact absurd hdot (hnot afterDot)
        next => rfl
      rw [hpart]

/-- The parts of one dotted name, whatever follows it. -/
theorem qualifiedCatalogObjects_dotted (hname : quotedRest rest = some (name, after)) :
    qualifiedCatalogObjects catalog none (backtick :: rest) =
      spelledObjects catalog (name :: (dottedParts after).1) ++
        qualifiedCatalogObjects catalog none (dottedParts after).2 := by
  induction hlength : rest.length using Nat.strong_induction_on generalizing rest name after with
  | _ length ih =>
    have hshorter := length_quotedRest hname
    -- further parts of a name are names themselves
    have hparts : ∀ text : List Char, text.length < length →
        qualifiedCatalogObjects catalog none text =
          spelledObjects catalog (dottedParts text).1 ++
            qualifiedCatalogObjects catalog none (dottedParts text).2 := by
      intro text htext
      cases hpart : nextPart text with
      | none => rw [dottedParts_none hpart]; rfl
      | some found =>
        obtain ⟨next, behind⟩ := found
        obtain ⟨before, inner, rfl, hbefore, hnext⟩ := exists_of_nextPart hpart
        rw [List.length_append, List.length_cons] at htext
        rw [dottedParts_some hpart, qualifiedCatalogObjects_plain hbefore]
        exact ih inner.length (by omega) hnext rfl
    rw [qualifiedCatalogObjects_named hname]
    cases hpart : nextPart after with
    | none => rw [dottedParts_none hpart]; rfl
    | some found =>
      obtain ⟨object, behind⟩ := found
      have hbehind := length_nextPart hpart
      rw [dottedParts_some hpart]
      dsimp only
      rw [spelledObjects]
      split
      next =>
        rw [hparts behind (by omega)]
        rfl
      next =>
        rw [hparts after (by omega), dottedParts_some hpart]

end Scanner

/-- The scanner reads the dotted names of a definition one after the other. -/
theorem qualifiedCatalogObjects_eq (catalog : List Char) (literal : Option (Char × Bool))
    (text : List Char) :
    qualifiedCatalogObjects catalog literal text =
      (dottedNames literal text).flatMap (spelledObjects catalog) := by
  induction hlength : text.length using Nat.strong_induction_on generalizing literal text with
  | _ length ih =>
    cases text with
    | nil =>
      rw [qualifiedCatalogObjects, dottedNames]
      rfl
    | cons c rest =>
      have hrest := fun literal => ih rest.length (by rw [← hlength]; exact Nat.lt_succ_self _)
        literal rest rfl
      cases literal with
      | some inside =>
        obtain ⟨delimiter, escaped⟩ := inside
        cases escaped with
        | true => rw [qualifiedCatalogObjects, dottedNames, hrest]
        | false =>
          rw [qualifiedCatalogObjects, dottedNames]
          split_ifs <;> exact hrest _
      | none =>
        by_cases hquote : c = '\'' ∨ c = '"'
        · rw [qualifiedCatalogObjects, dottedNames, if_pos hquote, if_pos hquote, hrest]
        by_cases htick : c = backtick
        · subst htick
          rw [dottedNames]
          simp only [if_neg hquote, ne_eq, not_true_eq_false, if_false]
          split
          next hname => rw [qualifiedCatalogObjects_unnamed hname, hrest]
          next name after hname =>
            have hafter := length_quotedRest hname
            have hparts := length_dottedParts after
            rw [List.length_cons] at hlength
            rw [qualifiedCatalogObjects_dotted hname, List.flatMap_cons,
              ih (dottedParts after).2.length (by omega) none _ rfl]
        · rw [qualifiedCatalogObjects, dottedNames, if_neg hquote, if_pos htick, if_neg hquote,
            if_pos htick, hrest]

end Chat2DB.Schema
