import Chat2DB.Base.Utf8
import Chat2DB.Schema.CatalogText

/-! # Rewriting a definition byte by byte

The definition of a view is rewritten by its bytes and read as text again. Quotes, dots and
backticks are single bytes that occur in no other character, so the bytes that come out are
those of the rewritten text.
-/

namespace Chat2DB.Schema

open Utf8 (Cell cells lead tails ascii)

variable {c : Char} {text : List Char}

/-- The bytes of a literal after its opening quote, with the closing one. -/
def quotedValueEnd (delimiter : Char) : List Cell → Option Nat
  | [] => none
  | [cell] => if cell.ch ≠ '\\' ∧ cell.ch = delimiter then some 1 else none
  | cell :: next :: rest =>
    if cell.ch = '\\' then (quotedValueEnd delimiter rest).map (· + 2)
    else if cell.ch = delimiter then
      if next.ch = delimiter then (quotedValueEnd delimiter rest).map (· + 2) else some 1
    else (quotedValueEnd delimiter (next :: rest)).map (· + 1)

def bytesOf (text : List Cell) : List UInt8 := text.map Cell.byte

/-- The loop of `rewrite_qualified_catalog`. Each turn takes a byte at least; there is no
result when the text is sliced within a character, which panics. -/
def rewriteBytes (source target : List Char) : Nat → List Cell → Option (List UInt8)
  | _, [] => some []
  | 0, _ :: _ => none
  | turns + 1, cell :: rest =>
    if cell.ch = '\'' ∨ cell.ch = '"' then do
      let _ ← Utf8.slice (cell :: rest) []
      let stop := (quotedValueEnd cell.ch rest).getD rest.length + 1
      let output ← rewriteBytes source target turns ((cell :: rest).drop stop)
      return bytesOf ((cell :: rest).take stop) ++ output
    else if cell.ch ≠ backtick then do
      let output ← rewriteBytes source target turns rest
      return cell.byte :: output
    else do
      let remainder ← Utf8.slice (cell :: rest) []
      match parseQuotedIdentifier remainder with
      | none =>
        let output ← rewriteBytes source target turns rest
        return cell.byte :: output
      | some (identifier, behind) =>
        let consumed := Text.utf8Length remainder - Text.utf8Length behind
        let after := (cell :: rest).drop consumed
        let dot := after.dropWhile fun cell => asciiWhitespace cell.ch
        let token :=
          if foldText identifier = foldText source ∧ dot.head?.map Cell.ch = some '.' then
            bytesOf (cells (quoteName target))
          else bytesOf ((cell :: rest).take consumed)
        let output ← rewriteBytes source target turns after
        return token ++ output

/-- The whole function. There is no result where the code panics. -/
def rewriteQualifiedCatalogBytes (definition source target : List Char) : Option (List Char) :=
  if foldText source = foldText target then some (Text.trim definition)
  else do
    let bytes := cells definition
    let output ← rewriteBytes source target bytes.length bytes
    let text ← String.fromUTF8? output.toByteArray
    return Text.trim text.toList

/-! ## Literals -/

section Literals

variable {delimiter : Char} {rest : List Cell}

theorem quotedValueEnd_other {cell : Cell} (hslash : cell.ch ≠ '\\') (hother : cell.ch ≠ delimiter) :
    quotedValueEnd delimiter (cell :: rest) = (quotedValueEnd delimiter rest).map (· + 1) := by
  cases rest with
  | nil => simp [quotedValueEnd, hother]
  | cons next rest => rw [quotedValueEnd, if_neg hslash, if_neg hother]

theorem quotedValueEnd_high {passed : List Cell} (hdelimiter : ascii delimiter = true)
    (hpassed : ∀ cell ∈ passed, cell.high) :
    quotedValueEnd delimiter (passed ++ rest) =
      (quotedValueEnd delimiter rest).map (· + passed.length) := by
  induction passed with
  | nil => simp
  | cons cell passed ih =>
    have hhigh := hpassed cell List.mem_cons_self
    rw [List.cons_append, quotedValueEnd_other (hhigh.ne rfl) (hhigh.ne hdelimiter),
      ih fun other hother => hpassed other (List.mem_cons_of_mem _ hother), Option.map_map]
    congr 1

theorem quotedValueEnd_skip {next : Char} (hdelimiter : ascii delimiter = true)
    (hskip : c = '\\' ∨ c = delimiter ∧ next = delimiter) :
    quotedValueEnd delimiter (cells (c :: next :: text)) =
      (quotedValueEnd delimiter (cells text)).map (· + (cells [c, next]).length) := by
  have hc : ascii c = true := by
    rcases hskip with rfl | ⟨rfl, -⟩
    · rfl
    · exact hdelimiter
  have hhead : quotedValueEnd delimiter (cells (c :: next :: text)) =
      (quotedValueEnd delimiter (tails next ++ cells text)).map (· + 2) := by
    rw [Utf8.cells_cons_of_ascii hc, Utf8.cells_cons, quotedValueEnd, Utf8.ch_lead hc]
    rcases hskip with hslash | ⟨hquote, rfl⟩
    · rw [if_pos hslash]
    · by_cases hslash : c = '\\'
      · rw [if_pos hslash]
      · rw [if_neg hslash, if_pos hquote, if_pos (Utf8.ch_lead hdelimiter)]
  rw [hhead, quotedValueEnd_high hdelimiter fun other hother => Utf8.high_tail hother,
    Option.map_map]
  congr 1
  funext count
  rw [Utf8.cells_cons_of_ascii hc, Utf8.cells_cons]
  simp only [Function.comp_apply, Utf8.cells_nil, List.append_nil, List.length_cons]
  omega

theorem quotedValueEnd_plain (hdelimiter : ascii delimiter = true)
    (hslash : c ≠ '\\') (hother : c ≠ delimiter) :
    quotedValueEnd delimiter (cells (c :: text)) =
      (quotedValueEnd delimiter (cells text)).map (· + (cells [c]).length) := by
  have hnot : (lead c).ch ≠ '\\' := fun heq => hslash ((Utf8.ch_lead_eq_iff rfl).mp heq)
  have hnot' : (lead c).ch ≠ delimiter := fun heq => hother ((Utf8.ch_lead_eq_iff hdelimiter).mp heq)
  rw [Utf8.cells_cons, quotedValueEnd_other hnot hnot',
    quotedValueEnd_high hdelimiter fun other hother => Utf8.high_tail hother, Option.map_map]
  congr 1
  funext count
  simp [Utf8.cells_cons, Nat.add_assoc]

theorem quotedValueEnd_close (hdelimiter : ascii delimiter = true)
    (hslash : delimiter ≠ '\\') (hnext : text.head? ≠ some delimiter) :
    quotedValueEnd delimiter (cells (delimiter :: text)) = some 1 := by
  rw [Utf8.cells_cons_of_ascii hdelimiter]
  cases text with
  | nil => simp [quotedValueEnd, Utf8.ch_lead hdelimiter, hslash]
  | cons next text =>
    have hnot : (lead next).ch ≠ delimiter := by
      intro heq
      apply hnext
      rw [(Utf8.ch_lead_eq_iff hdelimiter).mp heq]
      rfl
    rw [Utf8.cells_cons, quotedValueEnd, Utf8.ch_lead hdelimiter, if_neg hslash, if_pos rfl,
      if_neg hnot]

variable {source target : List Char}

theorem rewriteCatalog_skip {next : Char} (hskip : c = '\\' ∨ c = delimiter ∧ next = delimiter) :
    rewriteCatalog source target (some (delimiter, false)) (c :: next :: text) =
      c :: next :: rewriteCatalog source target (some (delimiter, false)) text := by
  rw [rewriteCatalog]
  simp only [List.head?_cons, Option.some.injEq]
  rw [if_pos hskip, rewriteCatalog]

theorem rewriteCatalog_other (hslash : c ≠ '\\') (hother : c ≠ delimiter) :
    rewriteCatalog source target (some (delimiter, false)) (c :: text) =
      c :: rewriteCatalog source target (some (delimiter, false)) text := by
  rw [rewriteCatalog]
  simp [hslash, hother]

theorem rewriteCatalog_close (hslash : delimiter ≠ '\\') (hnext : text.head? ≠ some delimiter) :
    rewriteCatalog source target (some (delimiter, false)) (delimiter :: text) =
      delimiter :: rewriteCatalog source target none text := by
  rw [rewriteCatalog]
  simp [hslash, hnext]

/-- The literal ends in the text where its bytes end, or goes to the end. -/
theorem exists_literal (hdelimiter : ascii delimiter = true) (hquote : delimiter ≠ '\\')
    (text : List Char) :
    ∃ body after, text = body ++ after ∧
      (quotedValueEnd delimiter (cells text)).getD (cells text).length = (cells body).length ∧
      rewriteCatalog source target (some (delimiter, false)) text =
        body ++ rewriteCatalog source target none after := by
  -- On the length, as two characters may be taken at once.
  induction hlength : text.length using Nat.strong_induction_on generalizing text with
  | _ length ih =>
    have hmore : ∀ first rest : List Char, text = first ++ rest → first ≠ [] →
        quotedValueEnd delimiter (cells text) =
          (quotedValueEnd delimiter (cells rest)).map (· + (cells first).length) →
        rewriteCatalog source target (some (delimiter, false)) text =
          first ++ rewriteCatalog source target (some (delimiter, false)) rest →
        ∃ body after, text = body ++ after ∧
          (quotedValueEnd delimiter (cells text)).getD (cells text).length =
            (cells body).length ∧
          rewriteCatalog source target (some (delimiter, false)) text =
            body ++ rewriteCatalog source target none after := by
      intro first rest htext hfirst hstop hrewrite
      have hshorter : rest.length < length := by
        have hpos := List.length_pos_iff.mpr hfirst
        rw [← hlength, htext, List.length_append]
        omega
      obtain ⟨body, after, hsplit, hend, hrest⟩ := ih _ hshorter rest rfl
      refine ⟨first ++ body, after, by rw [htext, hsplit, List.append_assoc], ?_, ?_⟩
      · rw [Utf8.cells_append, List.length_append, ← hend, hstop, htext, Utf8.cells_append,
          List.length_append]
        cases quotedValueEnd delimiter (cells rest) with
        | none => rfl
        | some count => exact Nat.add_comm _ _
      · rw [hrewrite, hrest, List.append_assoc]
    cases text with
    | nil => exact ⟨[], [], rfl, rfl, by simp [rewriteCatalog]⟩
    | cons c rest =>
      by_cases hslash : c = '\\'
      · subst hslash
        cases rest with
        | nil => exact ⟨['\\'], [], rfl, rfl, by simp [rewriteCatalog]⟩
        | cons next rest =>
          exact hmore ['\\', next] rest rfl (List.cons_ne_nil _ _)
            (quotedValueEnd_skip hdelimiter (.inl rfl)) (rewriteCatalog_skip (.inl rfl))
      · by_cases hclose : c = delimiter
        · subst hclose
          by_cases hnext : rest.head? = some c
          · obtain ⟨rest, rfl⟩ := List.head?_eq_some_iff.mp hnext
            exact hmore [c, c] rest rfl (List.cons_ne_nil _ _)
              (quotedValueEnd_skip hdelimiter (.inr ⟨rfl, rfl⟩))
              (rewriteCatalog_skip (.inr ⟨rfl, rfl⟩))
          · refine ⟨[c], rest, rfl, ?_, rewriteCatalog_close hquote hnext⟩
            rw [quotedValueEnd_close hdelimiter hquote hnext,
              Utf8.cells_cons_of_ascii hdelimiter []]
            rfl
        · exact hmore [c] rest rfl (List.cons_ne_nil _ _)
            (quotedValueEnd_plain hdelimiter hslash hclose) (rewriteCatalog_other hslash hclose)

end Literals

/-! ## The loop -/

section Loop

variable {source target : List Char} {turns : Nat}

theorem rewriteBytes_high {passed rest : List Cell} (hpassed : ∀ cell ∈ passed, cell.high) :
    rewriteBytes source target (turns + passed.length) (passed ++ rest) =
      (rewriteBytes source target turns rest).map (bytesOf passed ++ ·) := by
  induction passed with
  | nil => simp [bytesOf]
  | cons cell passed ih =>
    have hhigh := hpassed cell List.mem_cons_self
    have hquote : ¬ (cell.ch = '\'' ∨ cell.ch = '"') := by
      rintro (heq | heq)
      · exact hhigh.ne rfl heq
      · exact hhigh.ne rfl heq
    rw [List.cons_append, List.length_cons, ← Nat.add_assoc, rewriteBytes, if_neg hquote,
      if_pos (hhigh.ne rfl), ih fun other hother => hpassed other (List.mem_cons_of_mem _ hother)]
    cases rewriteBytes source target turns rest <;> rfl

theorem slice_all (text : List Char) : Utf8.slice (cells text) [] = some text :=
  Utf8.slice_cells text []

theorem rewriteBytes_literal {rest body after : List Char}
    (hc : c = '\'' ∨ c = '"') (hsplit : rest = body ++ after)
    (hstop : (quotedValueEnd c (cells rest)).getD (cells rest).length = (cells body).length) :
    rewriteBytes source target (turns + 1) (cells (c :: rest)) =
      (rewriteBytes source target turns (cells after)).map (bytesOf (cells (c :: body)) ++ ·) := by
  have hascii : ascii c = true := by
    rcases hc with rfl | rfl <;> rfl
  have hch := Utf8.ch_lead hascii
  have htake : (cells (c :: rest)).take ((cells body).length + 1) = cells (c :: body) := by
    rw [Utf8.cells_cons_of_ascii hascii, Utf8.cells_cons_of_ascii hascii, List.take_succ_cons,
      hsplit, Utf8.cells_append, List.take_left]
  have hdrop : (cells (c :: rest)).drop ((cells body).length + 1) = cells after := by
    rw [Utf8.cells_cons_of_ascii hascii, List.drop_succ_cons, hsplit, Utf8.cells_append,
      List.drop_left]
  have hslice := slice_all (c :: rest)
  rw [Utf8.cells_cons_of_ascii hascii] at htake hdrop hslice ⊢
  rw [rewriteBytes, hch, if_pos hc, hslice]
  simp only [hstop, htake, hdrop, Option.bind_eq_bind, Option.bind_some]
  cases rewriteBytes source target turns (cells after) <;> rfl

theorem rewriteBytes_plain {rest : List Char} (hc : isQuote c = false) :
    rewriteBytes source target (turns + (cells [c]).length) (cells (c :: rest)) =
      (rewriteBytes source target turns (cells rest)).map (bytesOf (cells [c]) ++ ·) := by
  have hother : ∀ quote, isQuote quote = true → ascii quote = true → (lead c).ch ≠ quote := by
    intro quote hquote hascii heq
    rw [(Utf8.ch_lead_eq_iff hascii).mp heq, hquote] at hc
    cases hc
  have hquote : ¬ ((lead c).ch = '\'' ∨ (lead c).ch = '"') := by
    rintro (heq | heq)
    · exact hother _ rfl rfl heq
    · exact hother _ rfl rfl heq
  have hsingle : cells [c] = lead c :: tails c := by
    rw [Utf8.cells_cons, Utf8.cells_nil, List.append_nil]
  rw [hsingle, Utf8.cells_cons, List.length_cons, ← Nat.add_assoc, rewriteBytes, if_neg hquote,
    if_pos (hother backtick rfl rfl), rewriteBytes_high fun other hmem => Utf8.high_tail hmem]
  cases rewriteBytes source target turns (cells rest) <;> rfl

theorem head?_skip_cells (text : List Char) :
    ((cells text).dropWhile fun cell => asciiWhitespace cell.ch).head?.map Cell.ch = some '.' ↔
      (skipAsciiWhitespace text).head? = some '.' := by
  have hwhite : ∀ c, asciiWhitespace c = true → ascii c = true := by
    intro c hc
    simp only [asciiWhitespace, Bool.or_eq_true, decide_eq_true_eq] at hc
    rcases hc with (((rfl | rfl) | rfl) | rfl) | rfl <;> rfl
  rw [(Utf8.takeWhile_cells_of hwhite text).2, skipAsciiWhitespace]
  cases text.dropWhile asciiWhitespace with
  | nil => simp
  | cons c rest => simp [Utf8.cells_cons, Utf8.ch_lead_eq_iff (show ascii '.' = true from rfl)]

/-- A name is exchanged, or copied to its end. -/
theorem rewriteBytes_name {rest token name after : List Char}
    (hparse : quotedRest rest = some (name, after)) (hsplit : rest = token ++ after) :
    rewriteBytes source target (turns + 1) (cells (backtick :: rest)) =
      (rewriteBytes source target turns (cells after)).map
        (bytesOf (cells (if foldText name = foldText source ∧
            (skipAsciiWhitespace after).head? = some '.' then quoteName target
          else backtick :: token)) ++ ·) := by
  have hascii : ascii backtick = true := rfl
  have hconsumed : Text.utf8Length (backtick :: rest) - Text.utf8Length after =
      (cells (backtick :: token)).length := by
    rw [← Utf8.length_cells, ← Utf8.length_cells, hsplit, ← List.cons_append, Utf8.cells_append,
      List.length_append, Nat.add_sub_cancel]
  have htake : (cells (backtick :: rest)).take (cells (backtick :: token)).length =
      cells (backtick :: token) := by
    rw [hsplit, ← List.cons_append, Utf8.cells_append, List.take_left]
  have hdrop : (cells (backtick :: rest)).drop (cells (backtick :: token)).length = cells after := by
    rw [hsplit, ← List.cons_append, Utf8.cells_append, List.drop_left]
  have hread : parseQuotedIdentifier (backtick :: rest) = some (name, after) := by
    rw [parseQuotedIdentifier, if_pos rfl, hparse]
  have hslice := slice_all (backtick :: rest)
  have hch := Utf8.ch_lead hascii
  have hquote : ¬ (backtick = '\'' ∨ backtick = '"') := by decide
  rw [Utf8.cells_cons_of_ascii hascii rest] at htake hdrop hslice ⊢
  rw [rewriteBytes, hch, if_neg hquote, if_neg (by simp), hslice]
  simp only [hread, hconsumed, htake, hdrop, head?_skip_cells, Option.bind_eq_bind,
    Option.bind_some]
  by_cases hcatalog : foldText name = foldText source ∧
      (skipAsciiWhitespace after).head? = some '.'
  · rw [if_pos hcatalog, if_pos hcatalog]
    cases rewriteBytes source target turns (cells after) <;> rfl
  · rw [if_neg hcatalog, if_neg hcatalog]
    cases rewriteBytes source target turns (cells after) <;> rfl

theorem rewriteBytes_backtick {rest : List Char} (hparse : quotedRest rest = none) :
    rewriteBytes source target (turns + 1) (cells (backtick :: rest)) =
      (rewriteBytes source target turns (cells rest)).map (bytesOf (cells [backtick]) ++ ·) := by
  have hascii : ascii backtick = true := rfl
  have hread : parseQuotedIdentifier (backtick :: rest) = none := by
    rw [parseQuotedIdentifier, if_pos rfl, hparse]
  have hslice := slice_all (backtick :: rest)
  have hquote : ¬ (backtick = '\'' ∨ backtick = '"') := by decide
  rw [Utf8.cells_cons_of_ascii hascii rest] at hslice ⊢
  rw [rewriteBytes, Utf8.ch_lead hascii, if_neg hquote, if_neg (by simp), hslice]
  simp only [hread, Option.bind_eq_bind, Option.bind_some]
  cases rewriteBytes source target turns (cells rest) <;> rfl

theorem rewriteCatalog_unnamed {rest : List Char} (hparse : quotedRest rest = none) :
    rewriteCatalog source target none (backtick :: rest) =
      backtick :: rewriteCatalog source target none rest := by
  have hother : ¬(backtick = '\'' ∨ backtick = '"') := by decide
  rw [rewriteCatalog]
  simp only [if_neg hother, ne_eq, not_true_eq_false, if_false]
  split
  · rfl
  · rename_i other behind hsome
    rw [hparse] at hsome
    cases hsome

theorem rewriteCatalog_open {rest : List Char} (hc : c = '\'' ∨ c = '"') :
    rewriteCatalog source target none (c :: rest) =
      c :: rewriteCatalog source target (some (c, false)) rest := by
  rw [rewriteCatalog]
  simp only [if_pos hc]

theorem bytesOf_append (first rest : List Char) :
    bytesOf (cells (first ++ rest)) = bytesOf (cells first) ++ bytesOf (cells rest) := by
  rw [bytesOf, Utf8.cells_append, List.map_append]
  rfl

/-- The bytes that come out are those of the rewritten text. -/
theorem rewriteBytes_cells (text : List Char) (hturns : (cells text).length ≤ turns) :
    rewriteBytes source target turns (cells text) =
      some (bytesOf (cells (rewriteCatalog source target none text))) := by
  induction hlength : text.length using Nat.strong_induction_on generalizing text turns with
  | _ length ih =>
    cases text with
    | nil =>
      rw [rewriteCatalog]
      cases turns <;> rfl
    | cons c rest =>
      -- What the rest needs is left after the turns of the first character.
      have hmore : ∀ (first after : List Char) (more : Nat), c :: rest = first ++ after →
          first ≠ [] → (cells (c :: rest)).length ≤ more + (cells first).length →
          rewriteBytes source target more (cells after) =
            some (bytesOf (cells (rewriteCatalog source target none after))) := by
        intro first after more hsplit hfirst hleft
        refine ih after.length ?_ after ?_ rfl
        · have hpos := List.length_pos_iff.mpr hfirst
          rw [← hlength, hsplit, List.length_append]
          omega
        · rw [hsplit, Utf8.cells_append, List.length_append] at hleft
          omega
      have hone : ∀ (text : List Char), text ≠ [] → 1 ≤ (cells text).length := by
        intro text htext
        cases text with
        | nil => exact absurd rfl htext
        | cons c text => simp [Utf8.cells_cons]
      by_cases hplain : isQuote c = false
      · have hle : (cells [c]).length ≤ turns := by
          rw [← List.singleton_append, Utf8.cells_append, List.length_append] at hturns
          omega
        obtain ⟨more, rfl⟩ := Nat.exists_eq_add_of_le' hle
        have htext : rewriteCatalog source target none (c :: rest) =
            [c] ++ rewriteCatalog source target none rest :=
          @rewriteCatalog_plain rest source target [c] (by simpa using hplain)
        rw [rewriteBytes_plain hplain, hmore [c] rest more rfl (List.cons_ne_nil _ _) hturns,
          htext, bytesOf_append]
        rfl
      · have hle : 1 ≤ turns := (hone _ (List.cons_ne_nil c rest)).trans hturns
        obtain ⟨more, rfl⟩ := Nat.exists_eq_add_of_le' hle
        by_cases hliteral : c = '\'' ∨ c = '"'
        · have hascii : ascii c = true := by
            rcases hliteral with rfl | rfl <;> rfl
          have hslash : c ≠ '\\' := by
            rcases hliteral with rfl | rfl <;> decide
          obtain ⟨body, after, hsplit, hstop, hrewrite⟩ :=
            @exists_literal c source target hascii hslash rest
          have hfirst := hone (c :: body) (List.cons_ne_nil _ _)
          rw [rewriteBytes_literal hliteral hsplit hstop, hmore (c :: body) after more
            (by rw [hsplit, List.cons_append]) (List.cons_ne_nil _ _) (by omega),
            rewriteCatalog_open hliteral, hrewrite, ← List.cons_append, bytesOf_append]
          rfl
        · obtain rfl : c = backtick := by
            simpa [isQuote, not_or.mp hliteral] using hplain
          cases hparse : quotedRest rest with
          | none =>
            have hfirst := hone [backtick] (List.cons_ne_nil _ _)
            rw [rewriteBytes_backtick hparse, hmore [backtick] rest more rfl
              (List.cons_ne_nil _ _) (by omega), rewriteCatalog_unnamed hparse,
              ← List.singleton_append, bytesOf_append]
            rfl
          | some found =>
            obtain ⟨name, after⟩ := found
            obtain ⟨token, hsplit⟩ := (quotedRest_consumes hparse).1
            have hfirst := hone (backtick :: token) (List.cons_ne_nil _ _)
            have htoken : (backtick :: rest).take
                ((backtick :: rest).length - after.length) = backtick :: token := by
              rw [← hsplit, ← List.cons_append, List.length_append, Nat.add_sub_cancel,
                List.take_left]
            rw [rewriteBytes_name hparse hsplit.symm, hmore (backtick :: token) after more
              (by rw [← hsplit, List.cons_append]) (List.cons_ne_nil _ _) (by omega),
              rewriteCatalog_named hparse, htoken, bytesOf_append]
            rfl

end Loop

theorem rewriteQualifiedCatalogBytes_eq (definition source target : List Char) :
    rewriteQualifiedCatalogBytes definition source target =
      some (rewriteQualifiedCatalog definition source target) := by
  unfold rewriteQualifiedCatalogBytes rewriteQualifiedCatalog
  by_cases hsame : foldText source = foldText target
  · rw [if_pos hsame, if_pos hsame]
  · rw [if_neg hsame, if_neg hsame]
    have hbytes := @rewriteBytes_cells source target _ definition le_rfl
    have hencoded : (bytesOf (cells (rewriteCatalog source target none definition))).toByteArray =
        (rewriteCatalog source target none definition).utf8Encode := by
      rw [bytesOf, Utf8.bytes_cells]
      rfl
    have hdecoded : String.fromUTF8? (rewriteCatalog source target none definition).utf8Encode =
        some (String.ofList (rewriteCatalog source target none definition)) := by
      rw [String.fromUTF8?, dif_pos ByteArray.isValidUTF8_utf8Encode]
      congr 1
    simp only [hbytes, hencoded, hdecoded, Option.bind_eq_bind, Option.bind_some,
      String.toList_ofList]
    rfl

end Chat2DB.Schema
