import Chat2DB.MySql.Lexer

/-! # The splitter's loop over characters

The splitter looks at bytes. A turn of its loop passes a byte or two, and the bytes
that are no ASCII characters mean nothing to it, so that it passes whole characters
and never slices within one.
-/

namespace Chat2DB.MySql

open Utf8

variable {c d : Char} {rest : List Char} {first splitter : Splitter} {later : List Cell}
  {cell : Cell} {state : ScriptState} {atLineStart : Bool}

/-! ## Directives -/

theorem ascii_of_toLower (hc : ascii c.toLower = true) : ascii c = true := by
  unfold Char.toLower at hc
  split at hc
  · rename_i hupper
    simp only [ascii, decide_eq_true_eq]
    have hle : c.val.toNat ≤ 90 := hupper.2
    exact Nat.lt_of_le_of_lt hle (by decide)
  · exact hc

theorem keyword_ascii {word : List Char} (hword : word.map Char.toLower = keyword) :
    ∀ c ∈ word, ascii c = true := by
  intro c hc
  apply ascii_of_toLower
  have hmem : c.toLower ∈ keyword := hword ▸ List.mem_map_of_mem hc
  have hall : ∀ d ∈ keyword, ascii d = true := List.all_eq_true.mp (by decide)
  exact hall _ hmem

theorem head?_any_not :
    rest.head?.any (fun c => !asciiWhitespace c) = !rest.head?.all asciiWhitespace := by
  cases rest <;> rfl

/-- The keyword in front of a line is nine characters. -/
theorem afterKeyword_cells (line : List Char) :
    afterKeyword (cells line) =
      .ok (if (line.take keyword.length).map Char.toLower = keyword ∧
          (line.drop keyword.length).head?.all asciiWhitespace then
        some (Text.trim (line.drop keyword.length)) else none) := by
  by_cases hword : (line.take keyword.length).map Char.toLower = keyword
  · -- The line begins with the keyword, so its first bytes are characters.
    have hascii := keyword_ascii hword
    have hlength : (line.take keyword.length).length = keyword.length := by
      rw [← List.length_map Char.toLower, hword]
    have hcells := length_cells_of_ascii hascii
    rw [hlength] at hcells
    have hsplit : cells line = cells (line.take keyword.length) ++ cells (line.drop keyword.length) := by
      rw [← cells_append, List.take_append_drop]
    have htake : (cells line).take keyword.length = cells (line.take keyword.length) := by
      rw [hsplit]
      exact List.take_left' hcells
    have hdrop : (cells line).drop keyword.length = cells (line.drop keyword.length) := by
      rw [hsplit]
      exact List.drop_left' hcells
    have hlong : ¬(cells line).length < keyword.length := by
      rw [hsplit, List.length_append, hcells]
      omega
    have hnext : ((cells line).drop keyword.length).head?.any (fun cell => !asciiWhitespace cell.ch) =
        !(line.drop keyword.length).head?.all asciiWhitespace := by
      rw [hdrop, ← head?_any_not]
      cases hrest : line.drop keyword.length with
      | nil => rfl
      | cons c rest =>
        simp only [cells_cons, List.head?_cons, Option.any_some]
        rw [lead_of_ascii fun d => ascii_of_asciiWhitespace]
    have hend : slice (cells (line.drop keyword.length)) [] = some (line.drop keyword.length) :=
      slice_cells _ []
    unfold afterKeyword
    rw [if_neg hlong, hnext, htake, hdrop, slice_cells, hend]
    simp only [hword, ne_eq, not_true_eq_false, decide_false, Bool.false_or, true_and]
    cases (line.drop keyword.length).head?.all asciiWhitespace with
    | true | false => rfl
  · -- Nine bytes that are the keyword would be nine characters.
    rw [if_neg fun hboth => hword hboth.1]
    unfold afterKeyword
    split_ifs with hshort
    · rfl
    · split
      · rfl
      · rename_i word hslice
        have hne : word.map Char.toLower ≠ keyword := by
          intro hkeyword
          apply hword
          unfold slice at hslice
          split_ifs at hslice with hboundary
          rw [Bool.and_eq_true] at hboundary
          obtain ⟨first, rest, rfl, htake, -⟩ := exists_of_boundary hboundary.2
          rw [htake, filterMap_cells] at hslice
          obtain rfl := Option.some.inj hslice
          have hlength : first.length = keyword.length := by
            rw [← List.length_map Char.toLower, hkeyword]
          rw [← hlength, List.take_left]
          exact hkeyword
        simp [hne]

/-- The code reads directives as the client does. -/
theorem delimiterDirective_cells (text : List Char) :
    delimiterDirective (cells text) =
      match directive text with
      | .absent => .ok none
      | .malformed => .error (.error malformedDirective)
      | .sets delimiter later => .ok (some (delimiter, cells later)) := by
  obtain ⟨htake, hdrop⟩ := takeWhile_cells (p := fun c => c ≠ '\n') (by
    intro d hd
    obtain rfl : d = '\n' := by simpa using hd
    rfl) text
  have hafter : (cells (text.dropWhile fun c => decide (c ≠ '\n'))).drop 1 =
      cells ((text.dropWhile fun c => decide (c ≠ '\n')).drop 1) := by
    cases hline : text.dropWhile fun c => decide (c ≠ '\n') with
    | nil => rfl
    | cons c rest =>
      have hc : c = '\n' := by
        have hhead := List.head?_dropWhile_not (fun c => decide (c ≠ '\n')) text
        rw [hline] at hhead
        simpa using hhead
      subst hc
      rw [cells_cons_of_ascii rfl]
      rfl
  unfold delimiterDirective directive
  simp only [htake, hdrop, slice_cells, afterKeyword_cells]
  by_cases hkeyword : ((Text.trim (text.takeWhile fun c => decide (c ≠ '\n'))).take
      keyword.length).map Char.toLower = keyword ∧ ((Text.trim (text.takeWhile fun c =>
      decide (c ≠ '\n'))).drop keyword.length).head?.all asciiWhitespace
  · rw [if_pos hkeyword, if_pos hkeyword]
    dsimp only
    set token := Text.trim ((Text.trim (text.takeWhile fun c => decide (c ≠ '\n'))).drop
      keyword.length)
    by_cases hmalformed : token = [] ∨ 16 < Text.utf8Length token ∨ token.any asciiWhitespace
    · have hbytes : token = [] ∨ 16 < (cells token).length ∨
          (cells token).any (fun cell => asciiWhitespace cell.ch) := by
        rwa [length_cells, any_cells fun d => ascii_of_asciiWhitespace]
      rw [dif_pos hmalformed, dif_pos hbytes]
    · have hbytes : ¬(token = [] ∨ 16 < (cells token).length ∨
          (cells token).any (fun cell => asciiWhitespace cell.ch)) := by
        rwa [length_cells, any_cells fun d => ascii_of_asciiWhitespace]
      rw [dif_neg hmalformed, dif_neg hbytes, hafter]
  · rw [if_neg hkeyword, if_neg hkeyword]

/-! ## The turns of the loop -/

/-- The loop comes by with this state and this rest of the script. -/
inductive Visits : Splitter → List Cell → Splitter → List Cell → Prop where
  | here (splitter : Splitter) (rest : List Cell) : Visits splitter rest splitter rest
  | next {splitter next last : Splitter} {cell : Cell} {rest later final : List Cell}
      (hadvance : advance splitter cell rest = .ok (next, later))
      (hlater : Visits next later last final) : Visits splitter (cell :: rest) last final

theorem Visits.trans {second third : Splitter} {rest final : List Cell}
    (hfirst : Visits first rest second later) (hsecond : Visits second later third final) :
    Visits first rest third final := by
  induction hfirst with
  | here => exact hsecond
  | next hadvance _ ih => exact .next hadvance (ih hsecond)

theorem splitLoop_of_advance {next : Splitter} {rest : List Cell}
    (hadvance : advance splitter cell rest = .ok (next, later)) :
    splitLoop splitter (cell :: rest) = splitLoop next later := by
  rw [splitLoop]
  split
  · rename_i hfail
    rw [hadvance] at hfail
    cases hfail
  · rename_i hnext
    rw [hadvance] at hnext
    obtain ⟨rfl, rfl⟩ := Prod.mk.inj (Except.ok.inj hnext)
    rfl

theorem splitLoop_of_failure {rest : List Cell}
    {failure : Failure} (hadvance : advance splitter cell rest = .error failure) :
    splitLoop splitter (cell :: rest) = .error failure := by
  rw [splitLoop]
  split
  · rename_i hfail
    rw [hadvance] at hfail
    rw [Except.error.inj hfail]
  · rename_i hnext
    rw [hadvance] at hnext
    cases hnext

/-- The loop goes from one state to another and comes by no other character. -/
structure Runs (first : Splitter) (rest : List Cell) (last : Splitter) (later : List Cell) :
    Prop where
  loop : splitLoop first rest = splitLoop last later
  visited : ∀ splitter text, Visits first rest splitter (cells text) →
    (splitter = first ∧ cells text = rest) ∨ Visits last later splitter (cells text)
  reached : Visits first rest last later

theorem Runs.refl (splitter : Splitter) (rest : List Cell) : Runs splitter rest splitter rest :=
  ⟨rfl, fun _ _ hvisits => .inr hvisits, .here _ _⟩

theorem Runs.of_advance {next : Splitter} {rest : List Cell}
    (hadvance : advance splitter cell rest = .ok (next, later)) :
    Runs splitter (cell :: rest) next later where
  loop := splitLoop_of_advance hadvance
  visited := by
    intro other text hvisits
    generalize hgoal : cells text = final at hvisits
    cases hvisits with
    | here => exact .inl ⟨rfl, rfl⟩
    | next hother hlater =>
      rw [hadvance] at hother
      obtain ⟨rfl, rfl⟩ := Prod.mk.inj (Except.ok.inj hother)
      exact .inr hlater
  reached := .next hadvance (.here _ _)

theorem Runs.trans {second third : Splitter} {rest final : List Cell}
    (hfirst : Runs first rest second later) (hsecond : Runs second later third final)
    (hwithin : boundary later = false ∨ (second = third ∧ later = final)) :
    Runs first rest third final where
  loop := hfirst.loop.trans hsecond.loop
  visited := by
    intro splitter text hvisits
    rcases hfirst.visited splitter text hvisits with hhere | hlater
    · exact .inl hhere
    · rcases hwithin with hwithin | ⟨rfl, rfl⟩
      · rcases hsecond.visited splitter text hlater with ⟨-, htext⟩ | hfinal
        · rw [← htext, boundary_cells] at hwithin
          cases hwithin
        · exact .inr hfinal
      · exact .inr hlater
  reached := hfirst.reached.trans hsecond.reached

/-! ## Bytes without a meaning -/

theorem scan_high (hcell : cell ∈ tails c)
    (rest : List Cell) (hlater : splitter.state = .normal → splitter.atLineStart = false) :
    scan splitter cell rest =
      .ok ({ splitter with segment := splitter.segment ++ [cell] }, rest) := by
  have hne : ∀ {d : Char}, ascii d = true → cell.ch ≠ d := fun hd => (high_tail hcell).ne hd
  have htoken : startsWith (cell :: rest) splitter.delimiter.token = false := by
    have hnonempty := splitter.delimiter.nonempty
    cases htoken : splitter.delimiter.token with
    | nil => exact absurd htoken hnonempty
    | cons d token => exact startsWith_tail hcell rest token
  obtain ⟨delimiter, statements, state, segment, atLineStart⟩ := splitter
  cases state with
  | normal =>
    obtain rfl : atLineStart = false := hlater rfl
    simp [scan, htoken, scanNormal, hne (d := '\'') rfl, hne (d := '"') rfl,
      hne (d := backtick) rfl, hne (d := '#') rfl, hne (d := '-') rfl, hne (d := '/') rfl,
      hne (d := '\n') rfl, Splitter.pass]
  | singleQuote => simp [scan, scanQuoted, hne (d := '\'') rfl, hne (d := '\\') rfl, Splitter.pass]
  | doubleQuote => simp [scan, scanQuoted, hne (d := '"') rfl, hne (d := '\\') rfl, Splitter.pass]
  | backtick => simp [scan, scanQuoted, hne (d := backtick) rfl, Splitter.pass]
  | lineComment => simp [scan, scanLineComment, hne (d := '\n') rfl, Splitter.pass]
  | blockComment =>
    simp [scan, scanBlockComment, hne (d := '\n') rfl, hne (d := '*') rfl, Splitter.pass]

theorem runs_tails (rest : List Cell) {cs : List Cell} (hcs : ∀ cell ∈ cs, cell ∈ tails c)
    (hlater : cs ≠ [] → splitter.state = .normal → splitter.atLineStart = false) :
    Runs splitter (cs ++ rest) { splitter with segment := splitter.segment ++ cs } rest := by
  induction cs generalizing splitter with
  | nil =>
    rw [List.append_nil]
    exact .refl _ _
  | cons cell cs ih =>
    rw [List.forall_mem_cons] at hcs
    have hquiet := hlater (by simp)
    have hexpects : splitter.expectsDirective = false := by
      by_cases hstate : splitter.state = .normal
      · simp [Splitter.expectsDirective, hquiet hstate]
      · simp [Splitter.expectsDirective, hstate]
    have hadvance : advance splitter cell (cs ++ rest) =
        .ok ({ splitter with segment := splitter.segment ++ [cell] }, cs ++ rest) := by
      rw [advance, hexpects]
      exact scan_high hcs.1 _ hquiet
    have hnext : Runs { splitter with segment := splitter.segment ++ [cell] } (cs ++ rest)
        { splitter with segment := splitter.segment ++ [cell] ++ cs } rest :=
      ih hcs.2 fun _ => hquiet
    simp only [List.append_assoc, List.singleton_append] at hnext
    apply (Runs.of_advance hadvance).trans hnext
    cases cs with
    | nil => exact .inr ⟨rfl, rfl⟩
    | cons other cs => exact .inl (boundary_tail (hcs.2 other List.mem_cons_self) _)

/-! ## The turns over characters -/

/-- The next state, whether a line has only begun, and how many characters are passed. -/
structure Turn where
  state : ScriptState
  atLineStart : Bool
  count : Nat

def turnNormal (atLineStart : Bool) (c : Char) (rest : List Char) : Turn :=
  if c = '\'' then ⟨.singleQuote, atLineStart, 1⟩
  else if c = '"' then ⟨.doubleQuote, atLineStart, 1⟩
  else if c = backtick then ⟨.backtick, atLineStart, 1⟩
  else if c = '#' then ⟨.lineComment, atLineStart, 1⟩
  else if c = '-' ∧ mysql.dashes rest then ⟨.lineComment, atLineStart, 2⟩
  else if c = '/' ∧ rest[0]? = some '*' then ⟨.blockComment, atLineStart, 2⟩
  else if c = '\n' then ⟨.normal, true, 1⟩
  else ⟨.normal, asciiWhitespace c && atLineStart, 1⟩

def turnQuoted (state : ScriptState) (quote : Char) (atLineStart : Bool) (c : Char)
    (rest : List Char) : Turn :=
  if c = '\\' ∧ state ≠ .backtick then ⟨state, atLineStart, 2⟩
  else if c = quote then
    if rest[0]? = some quote then ⟨state, atLineStart, 2⟩ else ⟨.normal, atLineStart, 1⟩
  else ⟨state, atLineStart, 1⟩

def turnLine (atLineStart : Bool) (c : Char) : Turn :=
  if c = '\n' then ⟨.normal, true, 1⟩ else ⟨.lineComment, atLineStart, 1⟩

def turnBlock (atLineStart : Bool) (c : Char) (rest : List Char) : Turn :=
  if c = '\n' then ⟨.blockComment, true, 1⟩
  else if c = '*' ∧ rest[0]? = some '/' then ⟨.normal, atLineStart, 2⟩
  else ⟨.blockComment, atLineStart, 1⟩

def Splitter.turn (splitter : Splitter) (c : Char) (rest : List Char) : Turn :=
  match splitter.state with
  | .normal => turnNormal splitter.atLineStart c rest
  | .singleQuote => turnQuoted .singleQuote '\'' splitter.atLineStart c rest
  | .doubleQuote => turnQuoted .doubleQuote '"' splitter.atLineStart c rest
  | .backtick => turnQuoted .backtick backtick splitter.atLineStart c rest
  | .lineComment => turnLine splitter.atLineStart c
  | .blockComment => turnBlock splitter.atLineStart c rest

def Splitter.turned (splitter : Splitter) (turn : Turn) : Splitter :=
  { splitter with state := turn.state, atLineStart := turn.atLineStart }

theorem next_cells (hd : ascii d = true) (rest : List Char) :
    ((cells rest)[0]?.any fun cell => cell.ch = d) = decide (rest[0]? = some d) := by
  cases rest with
  | nil => rfl
  | cons c rest => simp [cells_cons, ch_lead_eq_iff hd]

theorem isMysqlDashComment_cells (rest : List Char) :
    isMysqlDashComment (cells rest) = mysql.dashes rest := by
  unfold isMysqlDashComment Rules.dashes
  rw [next_cells rfl]
  by_cases hdash : rest[0]? = some '-'
  · cases rest with
    | nil => cases hdash
    | cons c rest =>
      obtain rfl : c = '-' := by simpa using hdash
      rw [cells_cons_of_ascii rfl]
      cases rest with
      | nil => rfl
      | cons d rest =>
        have hws := lead_of_ascii (p := asciiWhitespace) (fun _ => ascii_of_asciiWhitespace) d
        have hctrl := lead_of_ascii (p := asciiControl) (fun _ => ascii_of_asciiControl) d
        simp [cells_cons, mysql, hws, hctrl]
  · simp [hdash]

theorem dashes_cells (c : Char) (rest : List Char) :
    (decide ((lead c).ch = '-') && isMysqlDashComment (tails c ++ cells rest)) =
      decide (c = '-' ∧ mysql.dashes rest = true) := by
  by_cases hc : c = '-'
  · subst hc
    rw [tails_of_ascii rfl, List.nil_append, isMysqlDashComment_cells, ch_lead rfl]
    simp
  · simp [hc, ch_lead_eq_iff (d := '-') rfl]

theorem followed_cells {e : Char} (hd : ascii d = true) (he : ascii e = true) (rest : List Char) :
    (decide ((lead c).ch = d) && (tails c ++ cells rest)[0]?.any (fun cell => cell.ch = e)) =
      decide (c = d ∧ rest[0]? = some e) := by
  by_cases hc : c = d
  · subst hc
    rw [tails_of_ascii hd, List.nil_append, next_cells he, ch_lead hd]
    simp
  · simp [hc, ch_lead_eq_iff hd]

theorem scanNormal_cells (hstate : splitter.state = .normal) (c : Char) (rest : List Char) :
    scanNormal splitter (lead c) (tails c ++ cells rest) =
      (splitter.turned (splitter.turn c rest)).pass (splitter.turn c rest).count
        (cells (c :: rest)) := by
  have hdashes := dashes_cells c rest
  have hslash := followed_cells (c := c) (d := '/') (e := '*') rfl rfl rest
  have hblank := lead_of_ascii (p := asciiWhitespace) (fun _ => ascii_of_asciiWhitespace) c
  obtain ⟨delimiter, statements, state, segment, atLineStart⟩ := splitter
  obtain rfl : state = .normal := hstate
  unfold scanNormal
  rw [hdashes, hslash, hblank]
  simp only [ch_lead_eq_iff (d := '\'') rfl, ch_lead_eq_iff (d := '"') rfl,
    ch_lead_eq_iff (d := backtick) rfl, ch_lead_eq_iff (d := '#') rfl,
    ch_lead_eq_iff (d := '\n') rfl, decide_eq_true_eq, Splitter.turn, turnNormal, ← cells_cons]
  split_ifs with h1 h2 h3 h4 h5 h6 h7 h8
  all_goals simp_all [Splitter.turned, Splitter.pass]

theorem scanQuoted_cells {quote : Char} (hquote : ascii quote = true) (c : Char)
    (rest : List Char) :
    scanQuoted splitter quote (lead c) (tails c ++ cells rest) =
      (splitter.turned (turnQuoted splitter.state quote splitter.atLineStart c rest)).pass
        (turnQuoted splitter.state quote splitter.atLineStart c rest).count
        (cells (c :: rest)) := by
  have hnext : c = quote → (tails c ++ cells rest)[0]?.any (fun cell => cell.ch = quote) =
      decide (rest[0]? = some quote) := by
    rintro rfl
    rw [tails_of_ascii hquote, List.nil_append, next_cells hquote]
  unfold scanQuoted turnQuoted
  simp only [ch_lead_eq_iff (d := '\\') rfl, ch_lead_eq_iff hquote, ← cells_cons,
    Bool.and_eq_true, decide_eq_true_eq]
  by_cases hescape : c = '\\' ∧ splitter.state ≠ .backtick
  · rw [if_pos hescape, if_pos hescape]
    rfl
  · rw [if_neg hescape, if_neg hescape]
    by_cases hc : c = quote
    · simp only [if_pos hc, hnext hc, decide_eq_true_eq]
      split_ifs <;> rfl
    · rw [if_neg hc, if_neg hc]
      rfl

theorem scanLineComment_cells (hstate : splitter.state = .lineComment) (c : Char)
    (rest : List Char) :
    scanLineComment splitter (lead c) (tails c ++ cells rest) =
      (splitter.turned (splitter.turn c rest)).pass (splitter.turn c rest).count
        (cells (c :: rest)) := by
  obtain ⟨delimiter, statements, state, segment, atLineStart⟩ := splitter
  obtain rfl : state = .lineComment := hstate
  unfold scanLineComment
  simp only [ch_lead_eq_iff (d := '\n') rfl, Splitter.turn, turnLine, ← cells_cons]
  split_ifs <;> rfl

theorem scanBlockComment_cells (hstate : splitter.state = .blockComment)
    (c : Char) (rest : List Char) :
    scanBlockComment splitter (lead c) (tails c ++ cells rest) =
      (splitter.turned (splitter.turn c rest)).pass (splitter.turn c rest).count
        (cells (c :: rest)) := by
  have hclosing := followed_cells (c := c) (d := '*') (e := '/') rfl rfl rest
  obtain ⟨delimiter, statements, state, segment, atLineStart⟩ := splitter
  obtain rfl : state = .blockComment := hstate
  unfold scanBlockComment
  rw [hclosing]
  simp only [ch_lead_eq_iff (d := '\n') rfl, Splitter.turn, turnBlock, ← cells_cons,
    decide_eq_true_eq]
  split_ifs <;> rfl

/-- One turn at a character where no delimiter begins. -/
theorem scan_cells
    (hdelimiter : splitter.state = .normal → ¬splitter.delimiter.token <+: c :: rest) :
    scan splitter (lead c) (tails c ++ cells rest) =
      .ok ((splitter.turned (splitter.turn c rest)).pass (splitter.turn c rest).count
        (cells (c :: rest))) := by
  unfold scan
  cases hstate : splitter.state with
  | normal =>
    have hstarts : startsWith (cells (c :: rest)) splitter.delimiter.token = false := by
      rw [Bool.eq_false_iff]
      exact fun htrue => hdelimiter hstate (startsWith_cells.mp htrue)
    rw [cells_cons] at hstarts
    simp only [hstarts]
    rw [scanNormal_cells hstate]
    rfl
  | singleQuote | doubleQuote | backtick =>
    dsimp only
    rw [scanQuoted_cells rfl, hstate]
    simp only [Splitter.turn, hstate]
  | lineComment =>
    dsimp only
    rw [scanLineComment_cells hstate]
  | blockComment =>
    dsimp only
    rw [scanBlockComment_cells hstate]

/-- One character is passed, or an ASCII character and the next one. -/
def Turn.Fits (turn : Turn) (c : Char) (rest : List Char) : Prop :=
  (turn.count = 1 ∧ (ascii c = false → turn.state = .normal → turn.atLineStart = false)) ∨
    (turn.count = 2 ∧ ascii c = true ∧ (turn.state = .normal → rest[0]? = some '/'))

theorem fits_ascii (hd : ascii d = true) (hc : c = d) :
    Turn.Fits ⟨state, atLineStart, 1⟩ c rest := by
  refine .inl ⟨rfl, fun hascii => ?_⟩
  rw [hc, hd] at hascii
  cases hascii

theorem fits_inside (hstate : state ≠ .normal) : Turn.Fits ⟨state, atLineStart, 1⟩ c rest :=
  .inl ⟨rfl, fun _ hnormal => absurd hnormal hstate⟩

theorem fits_two (hd : ascii d = true) (hc : c = d) (hstate : state ≠ .normal) :
    Turn.Fits ⟨state, atLineStart, 2⟩ c rest :=
  .inr ⟨rfl, hc ▸ hd, fun hnormal => absurd hnormal hstate⟩

theorem turnNormal_fits (atLineStart : Bool) (c : Char) (rest : List Char) :
    (turnNormal atLineStart c rest).Fits c rest := by
  unfold turnNormal
  split_ifs with hsingle hdouble hbacktick hhash hdash hslash hnewline
  · exact fits_inside (by simp)
  · exact fits_inside (by simp)
  · exact fits_inside (by simp)
  · exact fits_inside (by simp)
  · exact fits_two (d := '-') rfl hdash.1 (by simp)
  · exact fits_two (d := '/') rfl hslash.1 (by simp)
  · exact fits_ascii (d := '\n') rfl hnewline
  · refine .inl ⟨rfl, fun hc _ => ?_⟩
    have hblank : asciiWhitespace c = false := by
      rw [Bool.eq_false_iff]
      intro hws
      rw [ascii_of_asciiWhitespace hws] at hc
      cases hc
    simp [hblank]

theorem turnQuoted_fits (hstate : state ≠ .normal) {quote : Char}
    (hquote : ascii quote = true) (atLineStart : Bool) (c : Char) (rest : List Char) :
    (turnQuoted state quote atLineStart c rest).Fits c rest := by
  unfold turnQuoted
  split_ifs with hescape hclosing hdoubled
  · exact fits_two (d := '\\') rfl hescape.1 hstate
  · exact fits_two hquote hclosing hstate
  · exact fits_ascii hquote hclosing
  · exact fits_inside hstate

theorem turn_fits (splitter : Splitter) (c : Char) (rest : List Char) :
    (splitter.turn c rest).Fits c rest := by
  unfold Splitter.turn
  cases splitter.state with
  | normal => exact turnNormal_fits _ _ _
  | singleQuote | doubleQuote | backtick => exact turnQuoted_fits (by simp) rfl _ _ _
  | lineComment =>
    dsimp only
    unfold turnLine
    split_ifs with hnewline
    · exact fits_ascii (d := '\n') rfl hnewline
    · exact fits_inside (by simp)
  | blockComment =>
    dsimp only
    unfold turnBlock
    split_ifs with hnewline hclosing
    · exact fits_inside (by simp)
    · exact .inr ⟨rfl, hclosing.1 ▸ rfl, fun _ => hclosing.2⟩
    · exact fits_inside (by simp)

theorem Runs.tails {last : Splitter} {rest : List Cell} (c : Char) (later : List Char)
    (hruns : Runs first rest last (tails c ++ cells later))
    (hquiet : ascii c = false → last.state = .normal → last.atLineStart = false) :
    Runs first rest { last with segment := last.segment ++ tails c } (cells later) := by
  by_cases hc : ascii c = true
  · rw [tails_of_ascii hc] at hruns ⊢
    rwa [List.append_nil]
  · have hnext := runs_tails (cells later) (fun cell (hcell : cell ∈ Utf8.tails c) => hcell)
      fun _ => hquiet (by simpa using hc)
    apply hruns.trans hnext
    cases htails : Utf8.tails c with
    | nil => exact .inr ⟨by rw [List.append_nil], rfl⟩
    | cons cell others =>
      have hcell : cell ∈ Utf8.tails c := by simp [htails]
      exact .inl (boundary_tail hcell _)

/-- The loop passes whole characters. -/
theorem runs_turn (hexpects : splitter.expectsDirective = true → directive (c :: rest) = .absent)
    (hdelimiter : splitter.state = .normal → ¬splitter.delimiter.token <+: c :: rest) :
    Runs splitter (cells (c :: rest))
      { splitter.turned (splitter.turn c rest) with
        segment := splitter.segment ++ cells ((c :: rest).take (splitter.turn c rest).count) }
      (cells ((c :: rest).drop (splitter.turn c rest).count)) := by
  have hadvance : advance splitter (lead c) (Utf8.tails c ++ cells rest) =
      .ok ((splitter.turned (splitter.turn c rest)).pass (splitter.turn c rest).count
        (cells (c :: rest))) := by
    rw [← scan_cells hdelimiter]
    unfold advance
    split_ifs with hyes
    · rw [← cells_cons, delimiterDirective_cells, hexpects hyes]
    · rfl
  have hfirst := Runs.of_advance hadvance
  rw [← cells_cons] at hfirst
  rcases turn_fits splitter c rest with ⟨hcount, hquiet⟩ | ⟨hcount, hascii, hslash⟩
  · -- One character, whose other bytes follow.
    rw [hcount] at hfirst ⊢
    have hnext := Runs.tails c rest hfirst hquiet
    simpa [Splitter.turned, cells_cons] using hnext
  · rw [hcount] at hfirst ⊢
    cases rest with
    | nil => simpa [Splitter.turned, cells_cons_of_ascii hascii] using hfirst
    | cons d rest =>
      -- The second character may be any, after a backslash.
      rw [cells_cons_of_ascii hascii, cells_cons] at hfirst
      have hnext := Runs.tails d rest hfirst (by
        intro hd hnormal
        have hslash := hslash hnormal
        obtain rfl : d = '/' := by simpa using hslash
        cases hd)
      simpa [Splitter.turned, cells_cons_of_ascii hascii, cells_cons] using hnext

end Chat2DB.MySql
