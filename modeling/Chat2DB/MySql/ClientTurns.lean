import Chat2DB.MySql.Turns

/-! # The splitter and the client, turn by turn

Where the loop of the splitter is, there is the client. A turn of the loop is one
step of the client or two, and at a delimiter or a directive as many as it has
characters.
-/

namespace Chat2DB.MySql

open Utf8
open Marking (Mark Lexer)

/-! ## The client along a turn -/

def ScriptState.mode : ScriptState → Mode
  | .normal => .text
  | .singleQuote => .quoted '\''
  | .doubleQuote => .quoted '"'
  | .backtick => .quoted MySql.backtick
  | .lineComment => .line
  | .blockComment => .block

/-- The client is where the loop is, with these characters since the last delimiter and
this text to come. -/
structure Matches (splitter : Splitter) (client : Client) (current upcoming : List Char) :
    Prop where
  delimiter : splitter.delimiter = client.delimiter
  place : upcoming ≠ [] → client.place = .reading splitter.state.mode
  complete : client.complete = splitter.state.mode.complete
  segment : splitter.segment = cells current
  plain : client.pending = .plain ↔ current.all asciiWhitespace = true
  inside : splitter.state ≠ .normal → client.pending ≠ .plain
  lineStart : client.pending = .plain → client.lineStart = true → splitter.atLineStart = true
  atLineStart : client.pending = .plain → splitter.atLineStart = true →
    client.lineStart = true ∨ directive upcoming = .absent

theorem blank_of_asciiWhitespace {c : Char} (hc : asciiWhitespace c = true) :
    Text.blank c = true := by
  simp only [asciiWhitespace, Bool.or_eq_true, decide_eq_true_eq] at hc
  rcases hc with (((rfl | rfl) | rfl) | rfl) | rfl <;> rfl

theorem directive_cons_blank {c : Char} {rest : List Char} (hc : Text.blank c = true)
    (hnewline : c ≠ '\n') : directive (c :: rest) = directive rest := by
  have hline : Text.trim ((c :: rest).takeWhile fun c => decide (c ≠ '\n')) =
      Text.trim (rest.takeWhile fun c => decide (c ≠ '\n')) := by
    rw [List.takeWhile_cons_of_pos (by simpa using hnewline)]
    simp [Text.trim, hc]
  have hafter : (c :: rest).dropWhile (fun c => decide (c ≠ '\n')) =
      rest.dropWhile fun c => decide (c ≠ '\n') :=
    List.dropWhile_cons_of_pos (by simpa using hnewline)
  unfold directive
  simp only [hline, hafter]

theorem directive_suffix {c : Char} {rest later : List Char} {delimiter : Delimiter}
    (hsets : directive (c :: rest) = .sets delimiter later) : ∃ line, rest = line ++ later := by
  unfold directive at hsets
  dsimp only at hsets
  split_ifs at hsets
  obtain ⟨-, rfl⟩ := Directive.sets.inj hsets
  by_cases hc : c = '\n'
  · subst hc
    exact ⟨[], by simp⟩
  · rw [List.dropWhile_cons_of_pos (by simpa using hc)]
    obtain ⟨line, hline⟩ := (List.drop_suffix 1 _).trans
      (List.dropWhile_suffix (fun c => decide (c ≠ '\n')) (l := rest))
    exact ⟨line, hline.symm⟩

theorem after_eq_plain_iff {pending : Pending} {c : Char} {mark : Mark} (hmark : mark ≠ .stop) :
    pending.after c mark = .plain ↔
      mark = .code ∧ asciiWhitespace c = true ∧ pending = .plain := by
  have hbared : pending.bared ≠ .plain := by cases pending <;> simp [Pending.bared]
  cases mark with
  | stop => exact absurd rfl hmark
  | comment => simp [Pending.after, hbared]
  | quoted => simp [Pending.after]
  | code =>
    simp only [Pending.after, true_and]
    split_ifs with hws hblank <;> simp [hws, hbared]

theorem step_ne_stop (mode : Mode) (c : Char) (rest : List Char) :
    (mysql.step mode c rest).2 ≠ .stop := by
  cases mode with
  | text =>
    simp only [Rules.step, Rules.textStep]
    split_ifs <;> simp
  | quoted | escaped | doubled | line | opening | block | closing => simp [Rules.step]

theorem step_blank {c : Char} (rest : List Char) (hc : asciiWhitespace c = true) :
    mysql.step .text c rest = (.text, .code) := by
  simp only [asciiWhitespace, Bool.or_eq_true, decide_eq_true_eq] at hc
  rcases hc with (((rfl | rfl) | rfl) | rfl) | rfl <;> rfl

namespace Client

/-- The statements to come, with some characters there already. -/
def report (client : Client) (current text : List Char) : Option (List (List Char)) :=
  (Client.lexer.readFrom client text).map (Marking.collect current)

theorem report_cons (client : Client) (current : List Char) (c : Char) (rest : List Char) :
    client.report current (c :: rest) =
      if (client.step c rest).2 = .stop then
        ((client.step c rest).1.report [] rest).map (Marking.push current ++ ·)
      else (client.step c rest).1.report (current ++ [c]) rest := by
  unfold report
  rw [Lexer.readFrom_cons, Option.map_map]
  split_ifs with hstop
  · rw [Option.map_map]
    congr 1
    funext marked
    exact if_pos hstop
  · congr 1
    funext marked
    exact if_neg hstop

theorem step_of_absent {client : Client} {mode : Mode} {c : Char} {rest : List Char}
    (hplace : client.place = .reading mode)
    (habsent : client.expectsDirective = true → directive (c :: rest) = .absent) :
    client.step c rest = client.read mode c rest ∧ client.directiveHere (c :: rest) = [] := by
  constructor
  · unfold step
    rw [hplace]
    dsimp only
    split_ifs with hexpects
    · rw [habsent hexpects]
    · rfl
  · unfold directiveHere
    cases hexpects : client.expectsDirective with
    | false => rfl
    | true => rw [habsent hexpects]

/-- The client after a character of a statement. -/
def moved (client : Client) (mode : Mode) (c : Char) (rest : List Char) : Client :=
  { client with
    place := .reading (mysql.step mode c rest).1, lineStart := c = '\n',
    pending := client.pending.after c (mysql.step mode c rest).2 }

theorem read_of_not_delimiter {client : Client} {mode : Mode} {c : Char} {rest : List Char}
    (hdelimiter : mode = .text → ¬client.delimiter.token <+: c :: rest) :
    client.read mode c rest = (client.moved mode c rest, (mysql.step mode c rest).2) := by
  unfold read
  rw [if_neg fun hboth => hdelimiter hboth.1 hboth.2]
  rfl

theorem moved_spec {client : Client} {mode : Mode} {c : Char} {rest : List Char}
    (hplace : client.place = .reading mode)
    (habsent : client.expectsDirective = true → directive (c :: rest) = .absent)
    (hdelimiter : mode = .text → ¬client.delimiter.token <+: c :: rest) (current : List Char)
    (count : Nat) :
    client.report current (c :: rest) = (client.moved mode c rest).report (current ++ [c]) rest ∧
      client.directives current count (c :: rest) =
        (client.moved mode c rest).directives (current ++ [c]) count rest := by
  obtain ⟨hstep, hhere⟩ := step_of_absent hplace habsent
  rw [read_of_not_delimiter hdelimiter] at hstep
  have hstop : (client.step c rest).2 ≠ .stop := by
    rw [hstep]
    exact step_ne_stop _ _ _
  constructor
  · rw [report_cons, if_neg hstop, hstep]
  · rw [directives, hhere, List.nil_append, hstep]
    rw [hstep] at hstop
    exact if_neg hstop

end Client

/-- One step or two of MySQL's reader do what the turn does. -/
def Turn.Follows (turn : Turn) (mode : Mode) (c : Char) (rest : List Char) : Prop :=
  (turn.count = 1 ∧ (mysql.step mode c rest).1 = turn.state.mode) ∨
    (turn.count = 2 ∧ asciiWhitespace c = false ∧ (mysql.step mode c rest).1 ≠ .text ∧
      (mysql.step mode c rest).2 ≠ .code ∧
      match rest with
      | [] => (mysql.step mode c rest).1.complete = false ∧ turn.state.mode.complete = false
      | d :: more => (mysql.step (mysql.step mode c rest).1 d more).1 = turn.state.mode)

/-- A turn of the splitter in text follows the lexer. -/
theorem turnNormal_follows (atLineStart : Bool) (c : Char) (rest : List Char) :
    (turnNormal atLineStart c rest).Follows .text c rest := by
  unfold turnNormal
  split_ifs with hsingle hdouble hbacktick hhash hdash hslash hnewline
  · exact .inl ⟨rfl, by subst hsingle; rfl⟩
  · exact .inl ⟨rfl, by subst hdouble; rfl⟩
  · exact .inl ⟨rfl, by subst hbacktick; rfl⟩
  · exact .inl ⟨rfl, by subst hhash; rfl⟩
  · -- The second dash is in the comment already.
    obtain ⟨rfl, hdashes⟩ := hdash
    have hstep : mysql.step .text '-' rest = (.line, .comment) := by
      have hquote : isQuote '-' = false := rfl
      simp [Rules.step, Rules.textStep, hquote, hdashes]
    refine .inr ⟨rfl, rfl, by simp [hstep], by simp [hstep], ?_⟩
    cases rest with
    | nil => cases hdashes
    | cons d more =>
      obtain rfl : d = '-' := by
        simp only [Rules.dashes, Bool.and_eq_true, decide_eq_true_eq] at hdashes
        simpa using hdashes.1
      simp only [hstep]
      rfl
  · obtain ⟨rfl, hnext⟩ := hslash
    have hstep : mysql.step .text '/' rest = (.opening, .comment) := by
      have hquote : isQuote '/' = false := rfl
      simp [Rules.step, Rules.textStep, hquote, hnext]
    refine .inr ⟨rfl, rfl, by simp [hstep], by simp [hstep], ?_⟩
    cases rest with
    | nil => cases hnext
    | cons d more =>
      simp only [hstep]
      rfl
  · exact .inl ⟨rfl, by subst hnewline; rfl⟩
  · refine .inl ⟨rfl, ?_⟩
    have hquote : isQuote c = false := by simp [isQuote, hsingle, hdouble, hbacktick]
    simp only [Rules.step, Rules.textStep, hquote, if_neg hhash, if_neg hdash, if_neg hslash]
    rfl

theorem turnQuoted_follows {state : ScriptState} {quote : Char}
    (hstate : state.mode = .quoted quote) (hescapes : mysql.escapes quote = true ↔ state ≠ .backtick)
    (hquote : asciiWhitespace quote = false) (atLineStart : Bool) (c : Char) (rest : List Char) :
    (turnQuoted state quote atLineStart c rest).Follows (.quoted quote) c rest := by
  unfold turnQuoted
  simp only [← hescapes]
  split_ifs with hescape hclosing hdoubled
  · have hstep : mysql.step (.quoted quote) c rest = (.escaped quote, .quoted) := by
      simp [Rules.step, Rules.quotedStep, hescape]
    refine .inr ⟨rfl, by rw [hescape.1]; rfl, by simp [hstep], by simp [hstep], ?_⟩
    cases rest with
    | nil => exact ⟨by simp [hstep, Mode.complete], by simp [hstate, Mode.complete]⟩
    | cons d more =>
      simp only [hstep, hstate]
      rfl
  · subst hclosing
    have hstep : mysql.step (.quoted c) c rest = (.doubled c, .quoted) := by
      simp [Rules.step, Rules.quotedStep, hescape, hdoubled]
    refine .inr ⟨rfl, hquote, by simp [hstep], by simp [hstep], ?_⟩
    cases rest with
    | nil => cases hdoubled
    | cons d more =>
      simp only [hstep, hstate]
      rfl
  · refine .inl ⟨rfl, ?_⟩
    simp only [Rules.step, Rules.quotedStep, if_neg hescape, if_pos hclosing, if_neg hdoubled]
    rfl
  · refine .inl ⟨rfl, ?_⟩
    simp [Rules.step, Rules.quotedStep, hescape, hclosing, hstate]

theorem turn_follows (splitter : Splitter) (c : Char) (rest : List Char) :
    (splitter.turn c rest).Follows splitter.state.mode c rest := by
  unfold Splitter.turn
  cases splitter.state with
  | normal => exact turnNormal_follows _ _ _
  | singleQuote | doubleQuote | backtick => exact turnQuoted_follows rfl (by decide) rfl _ _ _
  | lineComment =>
    dsimp only
    unfold turnLine
    split_ifs with hnewline
    · exact .inl ⟨rfl, by subst hnewline; rfl⟩
    · exact .inl ⟨rfl, by simp [ScriptState.mode, Rules.step, mysql, hnewline]⟩
  | blockComment =>
    dsimp only
    unfold turnBlock
    split_ifs with hnewline hclosing
    · exact .inl ⟨rfl, by subst hnewline; rfl⟩
    · obtain ⟨rfl, hnext⟩ := hclosing
      have hstep : mysql.step .block '*' rest = (.closing, .comment) := by
        simp [Rules.step, hnext]
      refine .inr ⟨rfl, rfl, by simp [ScriptState.mode, hstep], by simp [ScriptState.mode, hstep],
        ?_⟩
      cases rest with
      | nil => cases hnext
      | cons d more =>
        simp only [ScriptState.mode, hstep]
        rfl
    · exact .inl ⟨rfl, by simp only [ScriptState.mode, Rules.step, if_neg hclosing]⟩

/-! ## One turn and the client -/

theorem Matches.quiet {splitter : Splitter} {client : Client} {current upcoming : List Char}
    (hdelimiter : splitter.delimiter = client.delimiter)
    (hplace : upcoming ≠ [] → client.place = .reading splitter.state.mode)
    (hcomplete : client.complete = splitter.state.mode.complete)
    (hsegment : splitter.segment = cells current) (hplain : client.pending ≠ .plain)
    (hcurrent : current.all asciiWhitespace = false) :
    Matches splitter client current upcoming where
  delimiter := hdelimiter
  place := hplace
  complete := hcomplete
  segment := hsegment
  plain := by simp [hplain, hcurrent]
  inside := fun _ => hplain
  lineStart := fun h => absurd h hplain
  atLineStart := fun h => absurd h hplain

/-- The splitter after a turn. -/
def Splitter.after (splitter : Splitter) (c : Char) (rest : List Char) : Splitter :=
  { splitter.turned (splitter.turn c rest) with
    segment := splitter.segment ++ cells ((c :: rest).take (splitter.turn c rest).count) }

variable {splitter : Splitter} {client : Client} {current : List Char} {c : Char}
  {rest : List Char}

theorem turnNormal_blank (atLineStart : Bool) {c : Char} (rest : List Char)
    (hc : asciiWhitespace c = true) :
    turnNormal atLineStart c rest = ⟨.normal, c = '\n' || atLineStart, 1⟩ := by
  simp only [asciiWhitespace, Bool.or_eq_true, decide_eq_true_eq] at hc
  rcases hc with (((rfl | rfl) | rfl) | rfl) | rfl <;> rfl

theorem Matches.turn_blank (hmatches : Matches splitter client current (c :: rest))
    (habsent : client.expectsDirective = true → directive (c :: rest) = .absent)
    (hc : asciiWhitespace c = true) (hpending : client.pending = .plain)
    (hatLineStart : (splitter.turn c rest).atLineStart = true) :
    c = '\n' ∨ directive rest = .absent := by
  have hstate : splitter.state = .normal := by
    by_contra hstate
    exact hmatches.inside hstate hpending
  by_cases hnewline : c = '\n'
  · exact .inl hnewline
  · have hstart : splitter.atLineStart = true := by
      simp only [Splitter.turn, hstate] at hatLineStart
      rw [turnNormal_blank _ _ hc] at hatLineStart
      simpa [hnewline] using hatLineStart
    have hplace := hmatches.place (by simp)
    rw [hstate] at hplace
    right
    rw [← directive_cons_blank (blank_of_asciiWhitespace hc) hnewline]
    rcases hmatches.atLineStart hpending hstart with hline | habsent'
    · apply habsent
      simp [Client.expectsDirective, hplace, hline, hpending, ScriptState.mode]
    · exact habsent'

/-- A turn that passes one character keeps splitter and client in step. -/
theorem Matches.turn_one (hmatches : Matches splitter client current (c :: rest))
    (habsent : client.expectsDirective = true → directive (c :: rest) = .absent)
    (hcount : (splitter.turn c rest).count = 1)
    (hmode : (mysql.step splitter.state.mode c rest).1 = (splitter.turn c rest).state.mode) :
    Matches (splitter.after c rest) (client.moved splitter.state.mode c rest) (current ++ [c])
      rest := by
  have hsegment : (splitter.after c rest).segment = cells (current ++ [c]) := by
    simp [Splitter.after, hcount, hmatches.segment, cells_append]
  have hpending : (client.moved splitter.state.mode c rest).pending = .plain ↔
      (mysql.step splitter.state.mode c rest).2 = .code ∧ asciiWhitespace c = true ∧
        client.pending = .plain :=
    after_eq_plain_iff (step_ne_stop splitter.state.mode c rest)
  have hplain : ∀ {p : Prop}, (client.pending = .plain → splitter.state = .normal →
      asciiWhitespace c = true → p) →
      (client.moved splitter.state.mode c rest).pending = .plain → p := by
    intro p hp hmoved
    obtain ⟨hcode, hc, hpending⟩ := hpending.mp hmoved
    have hstate : splitter.state = .normal := by
      by_contra hstate
      exact hmatches.inside hstate hpending
    exact hp hpending hstate hc
  refine ⟨hmatches.delimiter, fun _ => by rw [Client.moved, hmode]; rfl, ?_, hsegment, ?_, ?_, ?_,
    ?_⟩
  · simp only [Client.complete, Client.moved, hmode]
    rfl
  · rw [hpending, List.all_append, Bool.and_eq_true, ← hmatches.plain]
    simp only [List.all_cons, List.all_nil, Bool.and_true]
    constructor
    · exact fun ⟨_, hc, hplain⟩ => ⟨hplain, hc⟩
    · rintro ⟨hplain, hc⟩
      have hstate : splitter.state = .normal := by
        by_contra hstate
        exact hmatches.inside hstate hplain
      refine ⟨?_, hc, hplain⟩
      rw [hstate, ScriptState.mode, step_blank rest hc]
  · intro hstate
    apply hplain
    intro _ hnormal hc
    apply hstate
    simp only [Splitter.after, Splitter.turned, Splitter.turn, hnormal]
    rw [turnNormal_blank _ _ hc]
  · apply hplain
    intro hpending hnormal hc hline
    have hnewline : c = '\n' := by simpa [Client.moved] using hline
    simp only [Splitter.after, Splitter.turned, Splitter.turn, hnormal]
    rw [turnNormal_blank _ _ hc]
    simp [hnewline]
  · apply hplain
    intro hpending _ hc hstart
    rcases hmatches.turn_blank habsent hc hpending hstart with hnewline | habsent'
    · exact .inl (by simp [Client.moved, hnewline])
    · exact .inr habsent'

theorem mode_eq_text {state : ScriptState} (hmode : state.mode = .text) : state = .normal := by
  cases state <;> simp_all [ScriptState.mode]

theorem absent_of_mode {client : Client} {mode : Mode} (hplace : client.place = .reading mode)
    (hmode : mode ≠ .text) {text : List Char} :
    client.expectsDirective = true → directive text = .absent := by
  intro hexpects
  simp [Client.expectsDirective, hplace, hmode] at hexpects

theorem Matches.absent (hmatches : Matches splitter client current (c :: rest))
    (habsent : client.expectsDirective = true → directive (c :: rest) = .absent)
    (hexpects : splitter.expectsDirective = true) : directive (c :: rest) = .absent := by
  have hplace := hmatches.place (by simp)
  simp only [Splitter.expectsDirective, Bool.and_eq_true, decide_eq_true_eq] at hexpects
  obtain ⟨⟨hstate, hstart⟩, hblank⟩ := hexpects
  rw [hmatches.segment, all_cells fun _ => ascii_of_asciiWhitespace, ← hmatches.plain] at hblank
  rcases hmatches.atLineStart hblank hstart with hline | habsent'
  · apply habsent
    simp [Client.expectsDirective, hplace, hstate, ScriptState.mode, hline, hblank]
  · exact habsent'

/-- A turn of the loop is one step or two of the client. -/
theorem Matches.turn (hmatches : Matches splitter client current (c :: rest))
    (habsent : client.expectsDirective = true → directive (c :: rest) = .absent)
    (hdelimiter : splitter.state = .normal → ¬splitter.delimiter.token <+: c :: rest) :
    ∃ next consumed later, c :: rest = consumed ++ later ∧ consumed ≠ [] ∧
      Runs splitter (cells (c :: rest)) (splitter.after c rest) (cells later) ∧
      Matches (splitter.after c rest) next (current ++ consumed) later ∧
      client.report current (c :: rest) = next.report (current ++ consumed) later ∧
      ∀ count, client.directives current count (c :: rest) =
        next.directives (current ++ consumed) count later := by
  have hplace := hmatches.place (by simp)
  have hclient : splitter.state.mode = .text → ¬client.delimiter.token <+: c :: rest := by
    intro hmode
    rw [← hmatches.delimiter]
    exact hdelimiter (mode_eq_text hmode)
  have hruns := runs_turn (hmatches.absent habsent) hdelimiter
  have hfirst := fun count => Client.moved_spec hplace habsent hclient current count
  rcases turn_follows splitter c rest with ⟨hcount, hmode⟩ | ⟨hcount, hblank, hinside, hmark, htwo⟩
  · refine ⟨client.moved splitter.state.mode c rest, [c], rest, rfl, by simp, ?_,
      hmatches.turn_one habsent hcount hmode, (hfirst 0).1, fun count => (hfirst count).2⟩
    rw [hcount] at hruns
    simpa [Splitter.after, hcount] using hruns
  · have hpending : (client.moved splitter.state.mode c rest).pending ≠ .plain := by
      intro hplain
      exact hmark ((after_eq_plain_iff (step_ne_stop _ _ _)).mp hplain).1
    rw [hcount] at hruns
    cases rest with
    | nil =>
      refine ⟨client.moved splitter.state.mode c [], [c], [], rfl, by simp, ?_, ?_,
        (hfirst 0).1, fun count => (hfirst count).2⟩
      · simpa [Splitter.after, hcount] using hruns
      · apply Matches.quiet
        · exact hmatches.delimiter
        · simp
        · simp only [Client.complete, Client.moved, htwo.1]
          exact htwo.2.symm
        · simp [Splitter.after, hcount, hmatches.segment, cells_append]
        · exact hpending
        · simp [hblank]
    | cons d more =>
      -- The client comes to the second character inside of what the first one opened.
      set middle := client.moved splitter.state.mode c (d :: more) with hmiddle
      have hplace' : middle.place = .reading (mysql.step splitter.state.mode c (d :: more)).1 := rfl
      have habsent' : middle.expectsDirective = true → directive (d :: more) = .absent :=
        absent_of_mode hplace' hinside
      have hsecond := fun count => Client.moved_spec hplace' habsent'
        (fun hmode => absurd hmode hinside) (current ++ [c]) count
      refine ⟨middle.moved (mysql.step splitter.state.mode c (d :: more)).1 d more, [c, d], more,
        rfl, by simp, ?_, ?_, ?_, ?_⟩
      · simpa [Splitter.after, hcount] using hruns
      · apply Matches.quiet
        · exact hmatches.delimiter
        · intro _
          simp only [Client.moved, htwo]
          rfl
        · simp only [Client.complete, Client.moved, htwo]
          rfl
        · simp [Splitter.after, hcount, hmatches.segment, cells_append]
        · intro hplain
          exact hpending ((after_eq_plain_iff (step_ne_stop _ _ _)).mp hplain).2.2
        · simp [hblank]
      · rw [(hfirst 0).1, (hsecond 0).1, List.append_assoc]
        rfl
      · intro count
        rw [(hfirst count).2, (hsecond count).2, List.append_assoc]
        rfl

/-! ## Delimiters -/

theorem push_nil : Marking.push [] = [] := rfl

theorem push_of_blank {current : List Char} (hblank : current.all asciiWhitespace = true) :
    Marking.push current = [] := by
  have htrim : Text.trim current = [] := by
    rw [Text.trim_eq_nil_iff]
    intro c hc
    exact blank_of_asciiWhitespace (List.all_eq_true.mp hblank c hc)
  simp [Marking.push, htrim]

namespace Client

/-- The client passes over what it has to. -/
theorem pass_spec {client : Client} {passed : List Char} (later : List Char)
    (hplace : client.place = .pass passed.length) {count : Nat}
    (hcount : count ≤ maxConsoleStatements) :
    client.report [] (passed ++ later) =
        { client with place := .reading .text }.report [] later ∧
      client.directives [] count (passed ++ later) =
        { client with place := .reading .text }.directives [] count later := by
  induction passed generalizing client with
  | nil =>
    have hclient : { client with place := .reading .text } = client := by
      rw [show (Place.reading .text) = client.place from hplace.symm]
    rw [hclient]
    exact ⟨rfl, rfl⟩
  | cons c passed ih =>
    have hpassing : client.place = .passing passed.length := hplace
    have hstep : client.step c (passed ++ later) =
        ({ client with place := .pass passed.length }, .stop) := by
      simp [step, hpassing]
    have hhere : client.directiveHere (c :: (passed ++ later)) = [] := by
      simp [directiveHere, expectsDirective, hpassing]
    obtain ⟨hreport, hdirectives⟩ := @ih { client with place := .pass passed.length } rfl
    constructor
    · rw [List.cons_append, report_cons, hstep, if_pos rfl, push_nil, hreport]
      simp
    · rw [List.cons_append, directives, hhere, hstep]
      simp only [if_true, push_nil, List.length_nil, Nat.add_zero, hcount, List.nil_append]
      exact hdirectives

end Client

theorem pushMysqlStatement_eq {statements : List (List Char)} (current : List Char)
    (hstatements : statements.length ≤ maxConsoleStatements) :
    pushMysqlStatement statements current =
      if statements.length + (Marking.push current).length ≤ maxConsoleStatements then
        .ok (statements ++ Marking.push current)
      else .error (.error tooManyStatements) := by
  unfold pushMysqlStatement Marking.push
  dsimp only
  by_cases hblank : Text.trim current = []
  · simp [hblank, hstatements]
  · simp only [if_neg hblank, List.length_singleton]
    split_ifs <;> first | rfl | omega

theorem Matches.fresh {splitter : Splitter} {client : Client}
    (hdelimiter : splitter.delimiter = client.delimiter)
    (hplace : client.place = .reading .text) (hstate : splitter.state = .normal)
    (hsegment : splitter.segment = []) (hpending : client.pending = .plain)
    (hline : client.lineStart = splitter.atLineStart) (upcoming : List Char) :
    Matches splitter client [] upcoming where
  delimiter := hdelimiter
  place := fun _ => by rw [hplace, hstate]; rfl
  complete := by simp [Client.complete, hplace, hstate, ScriptState.mode]
  segment := hsegment
  plain := by simp [hpending]
  inside := fun h => absurd hstate h
  lineStart := fun _ h => by rwa [← hline]
  atLineStart := fun _ h => .inl (by rwa [hline])

/-- A delimiter ends the statement, if there is room for it. -/
theorem Matches.delimited (hmatches : Matches splitter client current (c :: rest))
    (habsent : client.expectsDirective = true → directive (c :: rest) = .absent)
    (hstate : splitter.state = .normal) (htoken : splitter.delimiter.token <+: c :: rest)
    (hstatements : splitter.statements.length ≤ maxConsoleStatements) :
    ∃ next later, (∃ consumed, consumed ≠ [] ∧ c :: rest = consumed ++ later) ∧
      client.report current (c :: rest) = (next.report [] later).map (Marking.push current ++ ·) ∧
      advance splitter (lead c) (tails c ++ cells rest) =
        (if splitter.statements.length + (Marking.push current).length ≤ maxConsoleStatements then
          .ok ({ splitter with
            statements := splitter.statements ++ Marking.push current, segment := [],
            atLineStart := false }, cells later)
        else .error (.error tooManyStatements)) ∧
      client.directives current splitter.statements.length (c :: rest) =
        (if splitter.statements.length + (Marking.push current).length ≤ maxConsoleStatements then
          next.directives [] (splitter.statements.length + (Marking.push current).length) later
        else []) ∧
      Matches { splitter with
        statements := splitter.statements ++ Marking.push current, segment := [],
        atLineStart := false } next [] later := by
  have hplace := hmatches.place (by simp)
  rw [hstate] at hplace
  obtain ⟨later, hlater⟩ := htoken
  obtain ⟨d, token, hd⟩ := List.exists_cons_of_ne_nil splitter.delimiter.nonempty
  rw [hd, List.cons_append] at hlater
  obtain ⟨rfl, rfl⟩ := List.cons.inj hlater
  have htext : splitter.delimiter.token ++ later = d :: (token ++ later) := by rw [hd]; rfl
  have hclient : client.delimiter.token = d :: token := by rw [← hmatches.delimiter, hd]
  obtain ⟨hstep, hhere⟩ := Client.step_of_absent hplace habsent
  set passing : Client :=
    { client with place := .pass token.length, lineStart := false, pending := .plain } with hpassing
  have hread : client.read .text d (token ++ later) = (passing, .stop) := by
    have htokenAhead : client.delimiter.token <+: d :: (token ++ later) := by
      rw [hclient]
      exact List.prefix_append (d :: token) later
    rw [Client.read, if_pos ⟨rfl, htokenAhead⟩, hclient]
    rfl
  have hstep' : client.step d (token ++ later) = (passing, .stop) := hstep.trans hread
  have hpassed : passing.place = .pass token.length := rfl
  refine ⟨{ passing with place := .reading .text }, later, ?_, ?_, ?_, ?_, ?_⟩
  · exact ⟨d :: token, by simp, rfl⟩
  · rw [Client.report_cons, hstep', if_pos rfl]
    rw [(Client.pass_spec later hpassed (Nat.zero_le _)).1]
  · -- The loop slices what it has passed and drops the delimiter.
    have hexpects : splitter.expectsDirective = true → directive (d :: (token ++ later)) = .absent :=
      hmatches.absent habsent
    have hslice : slice splitter.segment (cells (d :: (token ++ later))) = some current := by
      rw [hmatches.segment, slice_cells]
    have hdrop : (cells (d :: (token ++ later))).drop (cells splitter.delimiter.token).length =
        cells later := by
      rw [← htext, length_cells_append]
    have hstarts : startsWith (cells (d :: (token ++ later))) splitter.delimiter.token = true := by
      rw [startsWith_cells, ← htext]
      exact List.prefix_append _ _
    rw [cells_cons] at hslice hdrop hstarts
    have hscan : scan splitter (lead d) (tails d ++ cells (token ++ later)) =
        (if splitter.statements.length + (Marking.push current).length ≤ maxConsoleStatements then
          .ok ({ splitter with
            statements := splitter.statements ++ Marking.push current, segment := [],
            atLineStart := false }, cells later)
        else .error (.error tooManyStatements)) := by
      simp only [scan, hstate, hstarts, if_true, hslice]
      rw [pushMysqlStatement_eq current hstatements]
      split_ifs
      · simp only [hdrop]
      · rfl
    rw [← hscan]
    unfold advance
    split_ifs with hyes
    · rw [← cells_cons, delimiterDirective_cells, hexpects hyes]
    · rfl
  · rw [Client.directives, hhere, hstep', List.nil_append]
    simp only [if_true]
    split_ifs with hroom
    · rw [(Client.pass_spec later hpassed hroom).2]
    · rfl
  · apply Matches.fresh
    · exact hmatches.delimiter
    · rfl
    · exact hstate
    · rfl
    · rfl
    · rfl

/-! ## Directives that are taken -/

/-- The loop takes the directive: it goes on with the next line and the new delimiter,
or it fails if the directive is malformed. -/
def Splitter.Heeds (splitter : Splitter) (text : List Char) : Prop :=
  ∀ c rest, text = c :: rest →
    advance splitter (lead c) (tails c ++ cells rest) =
      match directive text with
      | .sets delimiter later =>
        .ok ({ splitter with delimiter, segment := [], atLineStart := true }, cells later)
      | _ => .error (.error malformedDirective)

theorem Splitter.heeds_of_expectsDirective (hexpects : splitter.expectsDirective = true)
    (hpresent : directive (c :: rest) ≠ .absent) : splitter.Heeds (c :: rest) := by
  rintro c' rest' heq
  obtain ⟨rfl, rfl⟩ := List.cons.inj heq
  unfold advance
  rw [if_pos hexpects, ← cells_cons, delimiterDirective_cells]
  cases hdirective : directive (c :: rest) with
  | absent => exact absurd hdirective hpresent
  | malformed | sets => rfl

/-- A loop that looks for no directive goes on within the line. -/
theorem Splitter.not_heeds (hexpects : splitter.expectsDirective = false)
    (hstate : splitter.state = .normal) (hpresent : directive (c :: rest) ≠ .absent) :
    ¬splitter.Heeds (c :: rest) := by
  intro hheeds
  have hadvance := hheeds c rest rfl
  unfold advance at hadvance
  rw [if_neg (by simp [hexpects])] at hadvance
  by_cases htoken : splitter.delimiter.token <+: c :: rest
  · have hstarts := startsWith_cells.mpr htoken
    rw [cells_cons] at hstarts
    simp only [scan, hstate, hstarts, if_true, pushMysqlStatement] at hadvance
    cases hdirective : directive (c :: rest) with
    | absent => exact hpresent hdirective
    | malformed =>
      rw [hdirective] at hadvance
      split at hadvance
      · cases hadvance
      · split_ifs at hadvance
        have hne : tooManyStatements ≠ malformedDirective := by decide
        exact hne (Failure.error.inj (Except.error.inj hadvance))
    | sets delimiter later =>
      rw [hdirective] at hadvance
      split at hadvance
      · cases hadvance
      · split_ifs at hadvance
        all_goals
          have hstart := congrArg (fun moved => moved.1.atLineStart) (Except.ok.inj hadvance)
          exact Bool.false_ne_true hstart
  · rw [scan_cells fun _ => htoken] at hadvance
    cases hdirective : directive (c :: rest) with
    | absent => exact hpresent hdirective
    | malformed =>
      rw [hdirective] at hadvance
      cases hadvance
    | sets delimiter later =>
      rw [hdirective] at hadvance
      have hsegment := congrArg (fun moved => moved.1.segment) (Except.ok.inj hadvance)
      simp only [Splitter.pass, List.append_eq_nil_iff, List.take_eq_nil_iff] at hsegment
      rcases hsegment.2 with hcount | hcells
      · rcases turn_fits splitter c rest with ⟨hone, -⟩ | ⟨htwo, -⟩ <;> omega
      · cases hcells

theorem Client.expectsDirective_iff {client : Client} : client.expectsDirective = true ↔
    client.place = .reading .text ∧ client.lineStart = true ∧ client.pending ≠ .token := by
  simp [Client.expectsDirective, and_assoc]

theorem Client.directiveHere_of_present {client : Client} {text : List Char}
    (hexpects : client.expectsDirective = true) (hpresent : directive text ≠ .absent) :
    client.directiveHere text = [(client, text)] := by
  unfold Client.directiveHere
  rw [hexpects]
  cases hdirective : directive text with
  | absent => exact absurd hdirective hpresent
  | malformed | sets => rfl

theorem Matches.expectsDirective_iff (hmatches : Matches splitter client current (c :: rest))
    (hexpects : client.expectsDirective = true) :
    splitter.expectsDirective = true ↔ client.pending = .plain := by
  obtain ⟨hplace, hline, -⟩ := Client.expectsDirective_iff.mp hexpects
  have hstate : splitter.state = .normal := by
    have hmode := hmatches.place (by simp)
    rw [hplace] at hmode
    exact mode_eq_text (Place.reading.inj hmode).symm
  have hsegment : (splitter.segment.all fun cell => asciiWhitespace cell.ch) = true ↔
      client.pending = .plain := by
    rw [hmatches.segment, all_cells fun _ => ascii_of_asciiWhitespace, hmatches.plain]
  simp only [Splitter.expectsDirective, hstate, decide_true, Bool.true_and, Bool.and_eq_true,
    hsegment]
  exact ⟨And.right, fun hplain => ⟨hmatches.lineStart hplain hline, hplain⟩⟩

end Chat2DB.MySql
