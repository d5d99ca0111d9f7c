import Chat2DB.MySql.ClientTurns

/-! # The splitter of MySQL scripts

The statements that the splitter returns are those of the client, and it fails where
the client does, as long as every directive comes after ASCII blanks. A directive
after a comment is not seen.
-/

namespace Chat2DB.MySql

open Utf8
open Marking (Lexer)

variable {splitter : Splitter} {client : Client} {current : List Char} {c : Char} {rest : List Char}
  {result : Except Failure (List (List Char))} {list : Option (List (List Char))}
  {text script : List Char}

/-! ## Whole scripts -/

/-- Some turns of the loop and as many steps of the client as they take. -/
structure Moves (splitter : Splitter) (client : Client) (current text : List Char)
    (next : Splitter) (nextClient : Client) (nextCurrent later : List Char)
    (pushed : List (List Char)) : Prop where
  consumed : ∃ consumed, consumed ≠ [] ∧ text = consumed ++ later
  runs : Runs splitter (cells text) next (cells later)
  matched : Matches next nextClient nextCurrent later
  statements : next.statements = splitter.statements ++ pushed
  room : next.statements.length ≤ maxConsoleStatements
  report : client.report current text =
    (nextClient.report nextCurrent later).map (pushed ++ ·)
  directives : client.directives current splitter.statements.length text =
    client.directiveHere text ++
      nextClient.directives nextCurrent next.statements.length later

/-- The loop stops with an error, and so must the client. -/
structure Stops (splitter : Splitter) (client : Client) (current text : List Char) : Prop where
  fails : ∃ error, splitLoop splitter (cells text) = .error (.error error)
  visited : ∀ other later, Visits splitter (cells text) other (cells later) →
    other = splitter ∧ later = text
  refused : ∀ list, client.report current text = some list →
    maxConsoleStatements < (splitter.statements ++ list).length
  directives : client.directives current splitter.statements.length text =
    client.directiveHere text

theorem Client.step_malformed {client : Client} {c : Char} {rest : List Char}
    (hexpects : client.expectsDirective = true) (hmalformed : directive (c :: rest) = .malformed) :
    client.step c rest = ({ client with place := .malformed }, .stop) := by
  obtain ⟨hplace, -, -⟩ := Client.expectsDirective_iff.mp hexpects
  simp [Client.step, hplace, hexpects, hmalformed]

theorem Client.malformed_spec {client : Client} (hplace : client.place = .malformed)
    (current text : List Char) (count : Nat) :
    client.report current text = none ∧ client.directives current count text = [] := by
  induction text generalizing current count with
  | nil => simp [report, Lexer.readFrom, Client.lexer, Client.complete, hplace, directives]
  | cons c rest ih =>
    have hstep : client.step c rest = (client, .stop) := by simp [step, hplace]
    have hhere : client.directiveHere (c :: rest) = [] := by
      simp [directiveHere, expectsDirective, hplace]
    constructor
    · rw [report_cons, hstep, if_pos rfl, (ih [] 0).1]
      rfl
    · rw [directives, hhere, hstep]
      simp [(ih [] _).2]

theorem Stops.of_failure {splitter : Splitter} {client : Client} {current : List Char} {c : Char}
    {rest : List Char} {error : Sql.AppError}
    (hadvance : advance splitter (lead c) (tails c ++ cells rest) = .error (.error error))
    (hrefused : ∀ list, client.report current (c :: rest) = some list →
      maxConsoleStatements < (splitter.statements ++ list).length)
    (hdirectives : client.directives current splitter.statements.length (c :: rest) =
      client.directiveHere (c :: rest)) : Stops splitter client current (c :: rest) where
  fails := ⟨error, splitLoop_of_failure hadvance⟩
  visited := by
    intro other later hvisits
    generalize hgoal : cells later = final at hvisits
    rw [cells_cons] at hvisits
    cases hvisits with
    | here => exact ⟨rfl, cells_injective (hgoal.trans (cells_cons c rest).symm)⟩
    | next hother _ =>
      rw [hadvance] at hother
      cases hother
  refused := hrefused
  directives := hdirectives

/-- The client takes a directive that the loop takes too. -/
theorem Matches.directed (hmatches : Matches splitter client current (c :: rest))
    (hstatements : splitter.statements.length ≤ maxConsoleStatements)
    (hexpects : client.expectsDirective = true) (hpresent : directive (c :: rest) ≠ .absent)
    (hplain : client.pending = .plain) :
    Stops splitter client current (c :: rest) ∨
      ∃ next nextClient nextCurrent later pushed,
        Moves splitter client current (c :: rest) next nextClient nextCurrent later pushed := by
  have hheeds := Splitter.heeds_of_expectsDirective
    ((hmatches.expectsDirective_iff hexpects).mpr hplain) hpresent c rest rfl
  have hpush : Marking.push current = [] := push_of_blank (hmatches.plain.mp hplain)
  obtain ⟨hplace, hline, -⟩ := Client.expectsDirective_iff.mp hexpects
  have hstate : splitter.state = .normal := by
    have hmode := hmatches.place (by simp)
    rw [hplace] at hmode
    exact mode_eq_text (Place.reading.inj hmode).symm
  -- a malformed directive stops the script, any other sets the delimiter
  cases hdirective : directive (c :: rest) with
  | absent => exact absurd hdirective hpresent
  | malformed =>
    left
    rw [hdirective] at hheeds
    have hstep := Client.step_malformed hexpects hdirective
    have hafter := @Client.malformed_spec { client with place := .malformed } rfl
    apply Stops.of_failure hheeds
    · intro list hlist
      rw [Client.report_cons, hstep, if_pos rfl, (hafter [] rest 0).1] at hlist
      cases hlist
    · rw [Client.directives, hstep]
      simp [(hafter [] rest _).2]
  | sets delimiter later =>
    right
    rw [hdirective] at hheeds
    obtain ⟨line, rfl⟩ := directive_suffix hdirective
    set passing : Client :=
      { delimiter, place := .pass line.length, lineStart := true, pending := .plain }
    have hstep : client.step c (line ++ later) = (passing, .stop) := by
      simp [Client.step, hplace, hexpects, hdirective, passing]
    have hpassed : passing.place = .pass line.length := rfl
    refine ⟨{ splitter with delimiter, segment := [], atLineStart := true },
      { passing with place := .reading .text }, [], later, [], ?_, ?_, ?_, ?_, ?_, ?_, ?_⟩
    · exact ⟨c :: line, by simp, rfl⟩
    · exact .of_advance hheeds
    · apply Matches.fresh
      · rfl
      · rfl
      · exact hstate
      · rfl
      · rfl
      · rfl
    · simp
    · exact hstatements
    · rw [Client.report_cons, hstep, if_pos rfl, hpush,
        (Client.pass_spec later hpassed (Nat.zero_le _)).1]
    · rw [Client.directives, hstep]
      simp only [if_true, hpush, List.length_nil, Nat.add_zero, hstatements]
      rw [(Client.pass_spec later hpassed hstatements).2]

/-- Without a directive here, the loop goes on like the client. -/
theorem Matches.undirected (hmatches : Matches splitter client current (c :: rest))
    (hstatements : splitter.statements.length ≤ maxConsoleStatements)
    (habsent : client.expectsDirective = true → directive (c :: rest) = .absent) :
    Stops splitter client current (c :: rest) ∨
      ∃ next nextClient nextCurrent later pushed,
        Moves splitter client current (c :: rest) next nextClient nextCurrent later pushed := by
  have hhere := (Client.step_of_absent (hmatches.place (by simp)) habsent).2
  by_cases htoken : splitter.state = .normal ∧ splitter.delimiter.token <+: c :: rest
  · obtain ⟨next, later, hconsumed, hreport, hadvance, hdirectives, hnext⟩ :=
      hmatches.delimited habsent htoken.1 htoken.2 hstatements
    by_cases hroom : splitter.statements.length + (Marking.push current).length ≤
        maxConsoleStatements
    · right
      rw [if_pos hroom] at hadvance hdirectives
      refine ⟨_, next, [], later, Marking.push current, hconsumed, .of_advance hadvance, hnext, rfl,
        ?_, hreport, ?_⟩
      · simpa using hroom
      · rw [hdirectives, hhere]
        simp
    · left
      rw [if_neg hroom] at hadvance hdirectives
      apply Stops.of_failure hadvance
      · intro list hlist
        rw [hreport, Option.map_eq_some_iff] at hlist
        obtain ⟨others, -, rfl⟩ := hlist
        simp only [List.length_append]
        omega
      · rw [hdirectives, hhere]
  · right
    obtain ⟨next, consumed, later, hsplit, hconsumed, hruns, hnext, hreport, hdirectives⟩ :=
      hmatches.turn habsent fun hstate htoken' => htoken ⟨hstate, htoken'⟩
    refine ⟨_, next, _, later, [], ⟨consumed, hconsumed, hsplit⟩, hruns, hnext, ?_, hstatements, ?_,
      ?_⟩
    · simp [Splitter.after, Splitter.turned]
    · simp [hreport]
    · rw [hhere, hdirectives]
      rfl

/-- The rest of the splitter's work. -/
def settle (splitter : Splitter) (rest : List Cell) : Except Failure (List (List Char)) :=
  match splitLoop splitter rest with
  | .error failure => .error failure
  | .ok last => finish last

/-- The result is the list, if there is one and it is not too long. -/
def Settles (result : Except Failure (List (List Char))) : Option (List (List Char)) → Prop
  | none => ∃ error, result = .error (.error error)
  | some list =>
    if list.length ≤ maxConsoleStatements then result = .ok list
    else ∃ error, result = .error (.error error)

theorem Settles.of_refused (hfails : ∃ error, result = .error (.error error))
    (hrefused : ∀ some, list = .some some → maxConsoleStatements < some.length) :
    Settles result list := by
  cases list with
  | none => exact hfails
  | some list =>
    have hlong := hrefused list rfl
    simp only [Settles]
    rw [if_neg (by omega)]
    exact hfails

theorem Stops.settles {splitter : Splitter} {client : Client} {current : List Char}
    (hstops : Stops splitter client current text) :
    Settles (settle splitter (cells text))
      ((client.report current text).map (splitter.statements ++ ·)) := by
  apply Settles.of_refused
  · obtain ⟨error, herror⟩ := hstops.fails
    exact ⟨error, by rw [settle, herror]⟩
  · intro list hlist
    obtain ⟨later, hlater, rfl⟩ := Option.map_eq_some_iff.mp hlist
    exact hstops.refused later hlater

/-- The end of the script ends the last statement, and no quote and no comment. -/
theorem Matches.settles_nil (hmatches : Matches splitter client current [])
    (hstatements : splitter.statements.length ≤ maxConsoleStatements) :
    Settles (settle splitter []) ((client.report current []).map (splitter.statements ++ ·)) := by
  have hreport : client.report current [] =
      if splitter.state.mode.complete then some (Marking.push current) else none := by
    rw [← hmatches.complete]
    unfold Client.report Lexer.readFrom
    split_ifs with hcomplete hcomplete' <;> simp_all [Client.lexer, Marking.collect]
  have hpush : pushMysqlStatement splitter.statements current = _ :=
    pushMysqlStatement_eq current hstatements
  have hslice : slice splitter.segment [] = some current := by
    rw [hmatches.segment]
    exact slice_cells current []
  have hcomplete : finish splitter = pushMysqlStatement splitter.statements current →
      Settles (finish splitter) (some (splitter.statements ++ Marking.push current)) := by
    intro hfinish
    rw [hfinish, hpush]
    simp only [Settles, List.length_append]
    split_ifs with hroom
    · rfl
    · exact ⟨_, rfl⟩
  have hsettle : settle splitter [] = finish splitter := by rw [settle, splitLoop]
  rw [hreport, hsettle]
  cases hstate : splitter.state with
  | normal | lineComment =>
    apply hcomplete
    simp [finish, hstate, hslice]
  | singleQuote | doubleQuote | backtick | blockComment =>
    simp only [finish, hstate]
    exact ⟨_, rfl⟩

theorem Client.directiveHere_of_absent {client : Client}
    (habsent : client.expectsDirective = true → directive text = .absent) :
    client.directiveHere text = [] := by
  unfold Client.directiveHere
  cases hexpects : client.expectsDirective with
  | false => rfl
  | true => rw [habsent hexpects]

/-- Either the loop does not see a directive, or it goes on like the client. -/
theorem Matches.progress (hmatches : Matches splitter client current (c :: rest))
    (hstatements : splitter.statements.length ≤ maxConsoleStatements) :
    (client.directiveHere (c :: rest) = [(client, c :: rest)] ∧ client.pending ≠ .plain ∧
      ¬splitter.Heeds (c :: rest)) ∨
    ((∀ line ∈ client.directiveHere (c :: rest),
        line.2 = c :: rest ∧ line.1.pending = .plain ∧ splitter.Heeds (c :: rest)) ∧
      (Stops splitter client current (c :: rest) ∨
        ∃ next nextClient nextCurrent later pushed,
          Moves splitter client current (c :: rest) next nextClient nextCurrent later pushed)) := by
  by_cases hpresent : client.expectsDirective = true ∧ directive (c :: rest) ≠ .absent
  · obtain ⟨hexpects, hpresent⟩ := hpresent
    have hhere := Client.directiveHere_of_present hexpects hpresent
    have hiff := hmatches.expectsDirective_iff hexpects
    by_cases hplain : client.pending = .plain
    · right
      refine ⟨?_, hmatches.directed hstatements hexpects hpresent hplain⟩
      intro line hline
      rw [hhere, List.mem_singleton] at hline
      subst hline
      exact ⟨rfl, hplain, Splitter.heeds_of_expectsDirective (hiff.mpr hplain) hpresent⟩
    · left
      have hstate : splitter.state = .normal := by
        have hmode := hmatches.place (by simp)
        rw [(Client.expectsDirective_iff.mp hexpects).1] at hmode
        exact mode_eq_text (Place.reading.inj hmode).symm
      refine ⟨hhere, hplain, Splitter.not_heeds ?_ hstate hpresent⟩
      rw [Bool.eq_false_iff]
      exact fun hloop => hplain (hiff.mp hloop)
  · right
    have habsent : client.expectsDirective = true → directive (c :: rest) = .absent :=
      fun hexpects => not_not.mp fun hne => hpresent ⟨hexpects, hne⟩
    refine ⟨?_, hmatches.undirected hstatements habsent⟩
    rw [Client.directiveHere_of_absent habsent]
    simp

theorem Client.directives_suffix {client : Client} {current : List Char} {count : Nat}
    {line : Client × List Char} (hline : line ∈ client.directives current count text) :
    line.2 <:+ text := by
  induction text generalizing client current count with
  | nil => simp [directives] at hline
  | cons c rest ih =>
    rw [directives, List.mem_append] at hline
    rcases hline with hhere | hlater
    · unfold directiveHere at hhere
      split at hhere
      · rw [List.mem_singleton] at hhere
        exact hhere ▸ List.suffix_rfl
      · rw [List.mem_singleton] at hhere
        exact hhere ▸ List.suffix_rfl
      · cases hhere
    · apply List.suffix_cons_iff.mpr
      right
      split_ifs at hlater
      · exact ih hlater
      · cases hlater
      · exact ih hlater

theorem Visits.length_le {first last : Splitter} {rest later : List Cell}
    (hvisits : Visits first rest last later) : later.length ≤ rest.length := by
  induction hvisits with
  | here => exact le_rfl
  | next hadvance _ ih => exact ih.trans (advance_length hadvance).le

/-- With nothing but ASCII blanks before every directive, the splitter does what the
client does. -/
theorem Matches.settles (hmatches : Matches splitter client current text)
    (hstatements : splitter.statements.length ≤ maxConsoleStatements)
    (hplain : ∀ line ∈ client.directives current splitter.statements.length text,
      line.1.pending = .plain) :
    Settles (settle splitter (cells text))
        ((client.report current text).map (splitter.statements ++ ·)) ∧
      ∀ line ∈ client.directives current splitter.statements.length text,
        ∀ other, Visits splitter (cells text) other (cells line.2) → other.Heeds line.2 := by
  induction hlength : text.length using Nat.strong_induction_on generalizing splitter client current
    text with
  | _ length ih =>
    cases text with
    | nil => exact ⟨hmatches.settles_nil hstatements, by simp [Client.directives]⟩
    | cons c rest =>
      rcases hmatches.progress hstatements with ⟨hhere, hbare, -⟩ | ⟨hhere, hstops | hmoves⟩
      · exfalso
        apply hbare
        apply hplain (client, c :: rest)
        rw [Client.directives, hhere]
        exact List.mem_append_left _ (List.mem_singleton_self _)
      · refine ⟨hstops.settles, ?_⟩
        intro line hline other hvisits
        rw [hstops.directives] at hline
        obtain ⟨rfl, -⟩ := hstops.visited _ _ hvisits
        rw [(hhere line hline).1]
        exact (hhere line hline).2.2
      · obtain ⟨next, nextClient, nextCurrent, later, pushed, hmoves⟩ := hmoves
        obtain ⟨consumed, hconsumed, hsplit⟩ := hmoves.consumed
        have hshorter : later.length < (c :: rest).length := by
          rw [hsplit, List.length_append]
          have := List.length_pos_of_ne_nil hconsumed
          omega
        rw [hmoves.directives] at hplain ⊢
        obtain ⟨hsettles, hheeded⟩ := ih later.length (hlength ▸ hshorter) hmoves.matched
          hmoves.room (fun line hline => hplain line (List.mem_append_right _ hline)) rfl
        constructor
        · rw [hmoves.report, Option.map_map, settle, hmoves.runs.loop]
          rw [hmoves.statements] at hsettles
          simpa [Function.comp_def, List.append_assoc, settle] using hsettles
        · intro line hline other hvisits
          rcases List.mem_append.mp hline with hline | hline
          · obtain ⟨htext, -, hheeds⟩ := hhere line hline
            rcases hmoves.runs.visited other line.2 hvisits with ⟨rfl, -⟩ | hlater
            · rwa [htext]
            · -- The loop does not come back.
              have hle := hlater.length_le
              obtain ⟨d, others, rfl⟩ := List.exists_cons_of_ne_nil hconsumed
              rw [htext, hsplit, cells_append, cells_cons] at hle
              simp only [List.length_append, List.length_cons] at hle
              omega
          · rcases hmoves.runs.visited other line.2 hvisits with ⟨-, heq⟩ | hlater
            · have hle := (Client.directives_suffix hline).length_le
              rw [cells_injective heq] at hle
              omega
            · exact hheeded line hline other hlater

/-- A directive that comes after something else is not seen. -/
theorem Matches.overlooks (hmatches : Matches splitter client current text)
    (hstatements : splitter.statements.length ≤ maxConsoleStatements)
    (hbare : ∃ line ∈ client.directives current splitter.statements.length text,
      line.1.pending ≠ .plain) :
    ∃ line ∈ client.directives current splitter.statements.length text,
      ∃ other, Visits splitter (cells text) other (cells line.2) ∧ ¬other.Heeds line.2 := by
  induction hlength : text.length using Nat.strong_induction_on generalizing splitter client current
    text with
  | _ length ih =>
    obtain ⟨line, hline, hpending⟩ := hbare
    cases text with
    | nil => simp [Client.directives] at hline
    | cons c rest =>
      rcases hmatches.progress hstatements with
        ⟨hhere, -, hignores⟩ | ⟨hhere, hstops | hmoves⟩
      · refine ⟨(client, c :: rest), ?_, splitter, .here _ _, hignores⟩
        rw [Client.directives, hhere]
        exact List.mem_append_left _ (List.mem_singleton_self _)
      · rw [hstops.directives] at hline
        exact absurd (hhere line hline).2.1 hpending
      · obtain ⟨next, nextClient, nextCurrent, later, pushed, hmoves⟩ := hmoves
        obtain ⟨consumed, hconsumed, hsplit⟩ := hmoves.consumed
        have hshorter : later.length < (c :: rest).length := by
          rw [hsplit, List.length_append]
          have := List.length_pos_of_ne_nil hconsumed
          omega
        rw [hmoves.directives] at hline ⊢
        rcases List.mem_append.mp hline with hline | hline
        · exact absurd (hhere line hline).2.1 hpending
        · obtain ⟨missed, hmissed, other, hvisits, hignores⟩ := ih later.length
            (hlength ▸ hshorter) hmoves.matched hmoves.room ⟨line, hline, hpending⟩ rfl
          exact ⟨missed, List.mem_append_right _ hmissed, other,
            hmoves.runs.reached.trans hvisits, hignores⟩

theorem matches_initial (script : List Char) : Matches .initial .initial [] script := by
  apply Matches.fresh
  · rfl
  · rfl
  · rfl
  · rfl
  · rfl
  · rfl

/-- No line of the script begins with a directive. -/
def NoDirectiveLine (script : List Char) : Prop :=
  ∀ before rest, script = before ++ rest → before = [] ∨ before.getLast? = some '\n' →
    directive rest = .absent

/-- The client within a script without directives, after a part of it. -/
structure Undirected (script before : List Char) (client : Client) (mode : Mode) : Prop where
  delimiter : client.delimiter = semicolon
  place : client.place = .reading mode
  lineStart : client.lineStart = true → before = [] ∨ before.getLast? = some '\n'

/-- Without directives the client steps as MySQL does. -/
theorem Undirected.step {script before rest : List Char} {client : Client} {mode : Mode} {c : Char}
    (hclient : Undirected script before client mode) (hnone : NoDirectiveLine script)
    (hscript : script = before ++ c :: rest) :
    (client.step c rest).2 = (mysql.lexer.step mode c rest).2 ∧
      Undirected script (before ++ [c]) (client.step c rest).1 (mysql.lexer.step mode c rest).1 ∧
      client.directiveHere (c :: rest) = [] := by
  have habsent : client.expectsDirective = true → directive (c :: rest) = .absent := by
    intro hexpects
    exact hnone before _ hscript (hclient.lineStart (Client.expectsDirective_iff.mp hexpects).2.1)
  obtain ⟨hstep, hhere⟩ := Client.step_of_absent hclient.place habsent
  by_cases hstop : mode = .text ∧ c = ';'
  · have htoken : mode = .text ∧ client.delimiter.token <+: c :: rest := by
      refine ⟨hstop.1, ?_⟩
      rw [hclient.delimiter, hstop.2]
      exact ⟨rest, rfl⟩
    have hread : client.step c rest = ({ client with
        place := .reading .text, lineStart := false, pending := .plain }, .stop) := by
      rw [hstep, Client.read, if_pos htoken, hclient.delimiter]
      rfl
    have hlexer : mysql.lexer.step mode c rest = (.text, .stop) := if_pos hstop
    rw [hlexer, hread]
    refine ⟨rfl, ⟨hclient.delimiter, rfl, ?_⟩, hhere⟩
    intro hfalse
    cases hfalse
  · have htoken : mode = .text → ¬client.delimiter.token <+: c :: rest := by
      intro hmode htokenAhead
      rw [hclient.delimiter] at htokenAhead
      obtain ⟨later, hlater⟩ := htokenAhead
      exact hstop ⟨hmode, (List.cons.inj hlater).1.symm⟩
    have hread : client.step c rest = (client.moved mode c rest, (mysql.step mode c rest).2) := by
      rw [hstep, Client.read_of_not_delimiter htoken]
    have hlexer : mysql.lexer.step mode c rest = mysql.step mode c rest := if_neg hstop
    rw [hlexer, hread]
    refine ⟨rfl, ⟨hclient.delimiter, rfl, ?_⟩, hhere⟩
    intro hnewline
    right
    have hc : c = '\n' := by simpa [Client.moved] using hnewline
    simp [hc]

theorem Undirected.readFrom {before : List Char} {client : Client} {mode : Mode}
    (hclient : Undirected script before client mode) (hnone : NoDirectiveLine script)
    (hscript : script = before ++ text) :
    Client.lexer.readFrom client text = mysql.lexer.readFrom mode text := by
  induction text generalizing before client mode with
  | nil =>
    have hcomplete : client.complete = mode.complete := by
      simp [Client.complete, hclient.place]
    simp only [Lexer.readFrom, Client.lexer, Rules.lexer, hcomplete]
    rfl
  | cons c rest ih =>
    obtain ⟨hmark, hnext, -⟩ := hclient.step hnone hscript
    have hlater := ih hnext (by simp [hscript])
    have hstep : Client.lexer.step client c rest = client.step c rest := rfl
    rw [Lexer.readFrom_cons, Lexer.readFrom_cons, hstep, hmark, hlater]

theorem Undirected.directives {before : List Char} {client : Client} {mode : Mode}
    (hclient : Undirected script before client mode) (hnone : NoDirectiveLine script)
    (hscript : script = before ++ text) (current : List Char) (count : Nat) :
    client.directives current count text = [] := by
  induction text generalizing before client mode current count with
  | nil => rfl
  | cons c rest ih =>
    obtain ⟨-, hnext, hhere⟩ := hclient.step hnone hscript
    have hlater := ih hnext (by simp [hscript])
    rw [Client.directives, hhere]
    simp [hlater]

theorem undirected_initial (script : List Char) : Undirected script [] .initial .text :=
  ⟨rfl, rfl, fun _ => .inl rfl⟩

/-- The lines with directives that the client comes to. -/
def reachedDirectives (script : List Char) : List (Client × List Char) :=
  Client.initial.directives [] 0 script

/-- What the splitter is to do with a script. -/
structure Faithful (script : List Char) : Prop where
  /-- It returns the statements of the client, and fails where the client does. -/
  outcome : ∀ list, splitMysqlScript script = .ok list ↔ clientStatements script = some list
  noPanic : splitMysqlScript script ≠ .error .panic
  /-- Without directives the script is cut at the semicolons. -/
  semicolons : NoDirectiveLine script → ∀ list, splitMysqlScript script = .ok list →
    ∃ marked, mysql.lexer.read script = some marked ∧ list = Marking.statements marked
  /-- A directive is taken wherever no part of a statement has come before it. -/
  recognised : ∀ line ∈ reachedDirectives script, ∀ other,
    Visits .initial (cells script) other (cells line.2) → other.Heeds line.2
  /-- Nothing is lost and nothing comes twice. -/
  kept : ∀ list, splitMysqlScript script = .ok list →
    ∃ marked, Client.lexer.read script = some marked ∧ Marking.text marked = script ∧
      list.flatten.filter (fun c => !Text.blank c) =
        (Marking.text (marked.filter fun item => item.2 ≠ .stop)).filter fun c => !Text.blank c

theorem Settles.ok_iff (hsettles : Settles result list) (statements) :
    result = .ok statements ↔ list = some statements ∧ statements.length ≤ maxConsoleStatements := by
  cases list with
  | none =>
    obtain ⟨error, rfl⟩ := hsettles
    simp
  | some list =>
    simp only [Settles] at hsettles
    split_ifs at hsettles with hroom
    · subst hsettles
      constructor
      · intro heq
        obtain rfl := Except.ok.inj heq
        exact ⟨rfl, hroom⟩
      · rintro ⟨heq, -⟩
        rw [Option.some.inj heq]
    · obtain ⟨error, rfl⟩ := hsettles
      constructor
      · intro heq
        cases heq
      · rintro ⟨heq, hlength⟩
        rw [← Option.some.inj heq] at hlength
        exact absurd hlength hroom

theorem Settles.ne_panic (hsettles : Settles result list) :
    result ≠ .error .panic := by
  rintro rfl
  cases list with
  | none =>
    obtain ⟨error, herror⟩ := hsettles
    cases herror
  | some list =>
    simp only [Settles] at hsettles
    split_ifs at hsettles
    obtain ⟨error, herror⟩ := hsettles
    cases herror

theorem clientStatements_eq_some_iff {list : List (List Char)} :
    clientStatements script = some list ↔
      Client.initial.report [] script = some list ∧ list.length ≤ maxConsoleStatements := by
  unfold clientStatements Client.report
  cases hread : Client.lexer.readFrom .initial script with
  | none =>
    rw [show Client.lexer.read script = none from hread]
    simp
  | some marked =>
    rw [show Client.lexer.read script = some marked from hread]
    simp only [Option.map_some, Option.some.injEq, Marking.collect_nil]
    constructor
    · intro hsome
      split_ifs at hsome with hroom
      obtain rfl := Option.some.inj hsome
      exact ⟨rfl, hroom⟩
    · rintro ⟨rfl, hroom⟩
      rw [if_pos hroom]

theorem faithful_of_plain (hplain : ∀ line ∈ reachedDirectives script, line.1.pending = .plain) :
    Faithful script := by
  obtain ⟨hsettles, hheeded⟩ := (matches_initial script).settles (Nat.zero_le _) hplain
  have hreport : (Client.initial.report [] script).map (Splitter.initial.statements ++ ·) =
      Client.initial.report [] script := by
    simp [Splitter.initial]
  rw [hreport] at hsettles
  have houtcome : ∀ list, splitMysqlScript script = .ok list ↔
      clientStatements script = some list := by
    intro list
    rw [clientStatements_eq_some_iff]
    exact hsettles.ok_iff list
  have hread : ∀ list, splitMysqlScript script = .ok list →
      ∃ marked, Client.lexer.read script = some marked ∧ list = Marking.statements marked := by
    intro list hlist
    obtain ⟨hlist, -⟩ := clientStatements_eq_some_iff.mp ((houtcome list).mp hlist)
    obtain ⟨marked, hmarked, rfl⟩ := Option.map_eq_some_iff.mp hlist
    exact ⟨marked, hmarked, Marking.collect_nil marked⟩
  refine ⟨houtcome, hsettles.ne_panic, ?_, hheeded, ?_⟩
  · intro hnone list hlist
    obtain ⟨marked, hmarked, hstatements⟩ := hread list hlist
    refine ⟨marked, ?_, hstatements⟩
    exact ((undirected_initial script).readFrom hnone rfl).symm.trans hmarked
  · intro list hlist
    obtain ⟨marked, hmarked, rfl⟩ := hread list hlist
    exact ⟨marked, hmarked, Lexer.text_readFrom hmarked, Marking.flatten_statements marked⟩

theorem faithful_of_noDirectiveLine (hnone : NoDirectiveLine script) :
    Faithful script := by
  apply faithful_of_plain
  intro line hline
  rw [reachedDirectives, (undirected_initial script).directives hnone rfl] at hline
  cases hline

theorem splitMysqlScript_of_read {marked : Marking.Marked}
    (hnone : NoDirectiveLine script) (hread : mysql.lexer.read script = some marked)
    (hroom : (Marking.statements marked).length ≤ maxConsoleStatements) :
    splitMysqlScript script = .ok (Marking.statements marked) := by
  rw [(faithful_of_noDirectiveLine hnone).outcome]
  have hclient : Client.lexer.read script = some marked :=
    ((undirected_initial script).readFrom hnone rfl).trans hread
  simp [clientStatements, hclient, hroom]

/-- The splitter does what it is to do just when every directive that the client comes
to has only ASCII blanks before it. -/
theorem splitMysqlScript_faithful_iff (script : List Char) :
    Faithful script ↔ ∀ line ∈ reachedDirectives script, line.1.pending = .plain := by
  constructor
  · intro hfaithful line hline
    by_contra hpending
    obtain ⟨missed, hmissed, other, hvisits, hignores⟩ :=
      (matches_initial script).overlooks (Nat.zero_le _) ⟨line, hline, hpending⟩
    exact hignores (hfaithful.recognised missed hmissed other hvisits)
  · exact faithful_of_plain

/-- A directive after a comment is not taken. -/
theorem commentedDirective_unfaithful :
    ¬Faithful "-- c\nDELIMITER $$\nSELECT 1$$".toList := by
  intro hfaithful
  have hbare : ∃ line ∈ reachedDirectives "-- c\nDELIMITER $$\nSELECT 1$$".toList,
      line.1.pending ≠ .plain := by
    decide
  obtain ⟨line, hline, other, hvisits, hignores⟩ :=
    (matches_initial "-- c\nDELIMITER $$\nSELECT 1$$".toList).overlooks (Nat.zero_le _) hbare
  exact hignores (hfaithful.recognised line hline other hvisits)

end Chat2DB.MySql
