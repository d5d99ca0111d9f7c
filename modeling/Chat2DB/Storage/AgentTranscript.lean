import Chat2DB.Base.Consecutive
import Chat2DB.Storage.AgentRunHistory

/-! # Representation of session transcripts

Ordinals, limits, initiating messages and compaction coverage, in every store
a sequence of calls can reach.
-/

namespace Chat2DB.Storage

open Outcome

variable {json : JsonEngine} {ops : List AgentOp} {messages : List AgentMessageRecord}
  {runId : String} {run : AgentRunRecord} {message : AgentMessageRecord} {env : CallEnv}

/-- Within each session the ordinals count from zero in insertion order, and the
limits hold. -/
structure Numbered (messages : List AgentMessageRecord) : Prop where
  ordinals : ∀ sessionId, Consecutive 0
    ((messages.filter fun message => message.sessionId = sessionId).map (·.ordinal))
  count : ∀ sessionId, (messages.filter fun message => message.sessionId = sessionId).length ≤
    maxAgentMessagesPerSession
  bytes : ∀ sessionId, ((messages.filter fun message => message.sessionId = sessionId).map
    (·.contentBytes)).sum ≤ maxAgentMessageBytesPerSession

/-- The transcripts of all sessions, with the runs that wrote them. -/
structure AgentDb.Transcript (db : AgentDb) : Prop extends Numbered db.messages where
  oneActive : ∀ run ∈ db.runs, ∀ other ∈ db.runs, run.sessionId = other.sessionId →
    run.status.isActive = true → other.status.isActive = true → run = other
  owned : ∀ message ∈ db.messages, message.Owned db.runs
  initiating : ∀ run ∈ db.runs, (db.initiatingMessages run.id).length = 1
  runCoverage : ∀ run ∈ db.runs, ∀ coverage ∈ run.compactedThroughOrdinal,
    ∀ message ∈ db.initiatingMessages run.id, coverage < message.ordinal
  summaryCoverage : ∀ message ∈ db.messages, ∀ coverage ∈ message.summaryThroughOrdinal,
    ∃ runId, message.runId = some runId ∧
      ∀ initiating ∈ db.initiatingMessages runId, coverage < initiating.ordinal

/-! ## Ordinals and limits -/

namespace Numbered

theorem nil : Numbered [] where
  ordinals := fun _ => .nil
  count := by simp
  bytes := by simp

/-- In a transcript without gaps the next ordinal is the number of its messages. -/
theorem nextOrdinal_eq {numbers : List Nat} (hnumbers : Consecutive 0 numbers) {ordinal : Nat}
    (hordinal : nextOrdinal numbers.max? = .ok ordinal) : ordinal = numbers.length := by
  rw [hnumbers.max?_eq] at hordinal
  split at hordinal
  · rename_i hlength
    simpa [nextOrdinal, hlength] using hordinal.symm
  · simp only [nextOrdinal, orThrow_eq_ok] at hordinal
    have hnext := checkedAdd_eq_some hordinal
    omega

/-- A fitting message keeps every session's numbering without gaps. -/
theorem append (hnumbered : Numbered messages)
    {record : AgentMessageRecord} (hfits : record.Fits messages) :
    Numbered (messages ++ [record]) := by
  -- only the session of the new row changes
  have hother : ∀ sessionId, record.sessionId ≠ sessionId →
      (messages ++ [record]).filter (fun message => message.sessionId = sessionId) =
        messages.filter fun message => message.sessionId = sessionId := by
    intro sessionId hne
    simp [List.filter_append, hne]
  have hself : (messages ++ [record]).filter
      (fun message => message.sessionId = record.sessionId) =
      (messages.filter fun message => message.sessionId = record.sessionId) ++ [record] := by
    simp [List.filter_append]
  constructor
  · intro sessionId
    by_cases hsession : record.sessionId = sessionId
    · subst hsession
      rw [hself, List.map_append, List.map_singleton]
      have hordinals := hnumbered.ordinals record.sessionId
      apply hordinals.append_singleton
      rw [Nat.zero_add]
      exact nextOrdinal_eq hordinals hfits.ordinal
    · rw [hother sessionId hsession]
      exact hnumbered.ordinals sessionId
  · intro sessionId
    by_cases hsession : record.sessionId = sessionId
    · subst hsession
      rw [hself, List.length_append, List.length_singleton]
      exact hfits.count
    · rw [hother sessionId hsession]
      exact hnumbered.count sessionId
  · intro sessionId
    by_cases hsession : record.sessionId = sessionId
    · subst hsession
      rw [hself, List.map_append, List.sum_append, List.map_singleton, List.sum_singleton]
      exact hfits.bytes
    · rw [hother sessionId hsession]
      exact hnumbered.bytes sessionId

theorem appended {accepts : AgentMessageRecord → Prop} {later : List AgentMessageRecord}
    (hnumbered : Numbered messages) (happended : MessagesAppended accepts messages later) :
    Numbered later := by
  induction happended with
  | none => exact hnumbered
  | more _ fits _ ih => exact ih.append fits

theorem delete (hnumbered : Numbered messages) (deleted : String) :
    Numbered (messages.filter fun message => message.sessionId ≠ deleted) := by
  have hfilter : ∀ sessionId, (messages.filter fun message => message.sessionId ≠ deleted).filter
      (fun message => message.sessionId = sessionId) =
      if sessionId = deleted then [] else
        messages.filter fun message => message.sessionId = sessionId := by
    intro sessionId
    rw [List.filter_filter]
    split
    · rename_i hdeleted
      rw [List.filter_eq_nil_iff]
      intro message _
      simp [hdeleted]
    · rename_i hkept
      refine List.filter_congr fun message _ => ?_
      by_cases hsession : message.sessionId = sessionId
      · simp [hsession, hkept]
      · simp [hsession]
  constructor
  · intro sessionId
    rw [hfilter]
    split
    · exact .nil
    · exact hnumbered.ordinals sessionId
  · intro sessionId
    rw [hfilter]
    split
    · simp
    · exact hnumbered.count sessionId
  · intro sessionId
    rw [hfilter]
    split
    · simp
    · exact hnumbered.bytes sessionId

/-- Whatever a call does to the messages, their numbering stays without gaps. -/
theorem effect {op : AgentOp} {db : AgentDb}
    (hnumbered : Numbered db.messages) (heffect : MessagesEffect op db messages) :
    Numbered messages := by
  cases heffect with
  | appended rows => exact hnumbered.appended rows
  | started _ _ fits | summarized _ fits => exact hnumbered.append fits
  | deleted label => exact hnumbered.delete _

end Numbered

/-! ## Where rows come from -/

/-- A run is not taken up again once it has ended. -/
theorem RunStep.active_before {op : AgentOp} {before after : RunView}
    (hstep : RunStep op before after) (hactive : after.run.status.isActive = true) :
    before.run.status.isActive = true := by
  rw [AgentRunStatus.isActive_eq_not_isTerminal] at hactive ⊢
  by_contra hterminal
  rw [hstep.frozen (by simpa using hterminal)] at hactive
  exact hterminal hactive

/-- Only a compaction moves the coverage of a run. -/
theorem RunStep.coverage_cases {op : AgentOp} {before after : RunView}
    (hstep : RunStep op before after) :
    after.run.compactedThroughOrdinal = before.run.compactedThroughOrdinal ∨
      ∃ env id expected input, op = .compactAgentRun env id expected input ∧
        after.run.compactedThroughOrdinal =
          input.compaction.requestedCoverage.or before.run.compactedThroughOrdinal := by
  cases hstep with
  | updateAgentRun status active cancel fence advances =>
    exact .inl advances.compactedThroughOrdinal
  | compactAgentRun status cancel fence advances coverage =>
    exact .inr ⟨_, _, _, _, rfl, coverage⟩
  | completeAgentRun _ _ _ advances | failAgentRun _ _ _ advances
  | finishCancelledAgentRun _ _ _ advances | createToolPermission _ _ _ _ advances
  | failAgentWriteOutcomeUnknown _ _ _ advances =>
    exact .inl advances.compactedThroughOrdinal
  | consumeExpired mem approved dead becomes =>
    left
    split <;> rfl
  | recoverAgentsAt =>
    left
    simp only [AgentRunRecord.recovered]
    split
    · split <;> rfl
    · rfl
  | _ => exact .inl rfl

/-- A run of the store after a call, traced to the store before it. -/
inductive RunOrigin (op : AgentOp) (db : AgentDb) (run : AgentRunRecord) : Prop
  | kept {before} (mem : before ∈ db.runs) (id : before.id = run.id)
      (session : before.sessionId = run.sessionId)
      (active : run.status.isActive = true → before.status.isActive = true)
      (coverage : run.compactedThroughOrdinal = before.compactedThroughOrdinal ∨
        ∃ env expected input, op = .compactAgentRun env run.id expected input ∧
          run.compactedThroughOrdinal =
            input.compaction.requestedCoverage.or before.compactedThroughOrdinal)
  | started {env userMessageId input}
      (label : op = .startAgentRunWithIds env run.id userMessageId run.sessionId input)
      (idle : db.sessionBusy run.sessionId = false)
      (fresh : ∀ stored ∈ db.runs, stored.id ≠ run.id)
      (coverage : run.compactedThroughOrdinal = none)

theorem AgentDb.mem_of_view {db : AgentDb} {view : RunView} (hview : db.view runId = some view) :
    view.run ∈ db.runs ∧ view.run.id = runId :=
  Rows.find_mem (AgentDb.loadRun_of_view hview)

theorem AgentDb.fresh_of_view {db : AgentDb} (hview : db.view runId = none) :
    ∀ run ∈ db.runs, run.id ≠ runId := by
  unfold AgentDb.view at hview
  rw [Option.map_eq_none_iff] at hview
  exact Rows.find_eq_none_iff.mp hview

/-- A run after a call is one from before, with what the call did to it, or the one it started. -/
theorem exec_run_origin (op : AgentOp) {db : AgentDb} (hsound : db.Sound)
    (hmem : run ∈ (exec json op db).2.runs) : RunOrigin op db run := by
  have hview := AgentDb.view_eq_some
    ((exec_sound json op hsound).wellKeyed.runs.find_of_mem hmem)
  cases (exec_effect json op hsound.wellKeyed run.id).1 with
  | unchanged same =>
    have hbefore := AgentDb.mem_of_view (same.symm.trans hview)
    exact .kept hbefore.1 rfl rfl id (.inl rfl)
  | started label idle absent present =>
    have hrun := congrArg RunView.run (Option.some.inj (hview.symm.trans present))
    have hsession := congrArg AgentRunRecord.sessionId hrun
    have hcoverage := congrArg (·.compactedThroughOrdinal) hrun
    simp only [AgentRunRecord.start] at hsession hcoverage
    rw [← hsession] at label idle
    exact .started label idle (AgentDb.fresh_of_view absent) hcoverage
  | deleted label present owner terminal absent => simp [absent] at hview
  | stepped target present present' step =>
    obtain rfl := Option.some.inj (present'.symm.trans hview)
    obtain ⟨hbefore, hid⟩ := AgentDb.mem_of_view present
    refine .kept hbefore hid step.sessionId.symm step.active_before ?_
    rcases step.coverage_cases with hsame | ⟨env, id, expected, input, rfl, hcoverage⟩
    · exact .inl hsame
    · obtain rfl := target id rfl
      exact .inr ⟨env, expected, input, rfl, hcoverage⟩

/-- A message after a call, traced to the store before it. -/
theorem MessagesEffect.origin {op : AgentOp} {db : AgentDb}
    (heffect : MessagesEffect op db messages) (hmem : message ∈ messages) :
    message ∈ db.messages ∨ message.Plain db.runs ∨
      (∃ env runId userMessageId sessionId input,
        op = .startAgentRunWithIds env runId userMessageId sessionId input ∧
          message.sessionId = sessionId ∧ message.runId = some runId ∧
          message.summaryThroughOrdinal = none) ∨
      ∃ env id expected input, op = .compactAgentRun env id expected input ∧
        message.Owned db.runs ∧ message.runId = some id ∧
        message.summaryThroughOrdinal = input.compaction.requestedCoverage := by
  cases heffect with
  | appended rows =>
    induction rows with
    | none => exact .inl hmem
    | more appended fits accepted ih =>
      rcases List.mem_append.mp hmem with hold | hnew
      · exact ih hold
      · obtain rfl := List.mem_singleton.mp hnew
        exact .inr (.inl accepted)
  | started label fresh fits session run role coverage =>
    rcases List.mem_append.mp hmem with hold | hnew
    · exact .inl hold
    · obtain rfl := List.mem_singleton.mp hnew
      exact .inr (.inr (.inl ⟨_, _, _, _, _, label, session, run, coverage⟩))
  | summarized label fits owned run role coverage =>
    rcases List.mem_append.mp hmem with hold | hnew
    · exact .inl hold
    · obtain rfl := List.mem_singleton.mp hnew
      exact .inr (.inr (.inr ⟨_, _, _, _, label, owned, run, coverage⟩))
  | deleted label => exact .inl (List.mem_of_mem_filter hmem)

/-- The user messages of a run that is already there stay the same. -/
theorem MessagesEffect.initiating_kept {op : AgentOp} {db : AgentDb}
    (heffect : MessagesEffect op db messages)
    (hdelete : ∀ sessionId revision, op ≠ .deleteAgentSession sessionId revision)
    (hrun : ∃ run ∈ db.runs, run.id = runId) :
    messages.filter (fun message => message.runId = some runId && message.role = .user) =
      db.initiatingMessages runId := by
  have hother : ∀ {rows : List AgentMessageRecord} {record : AgentMessageRecord},
      record.runId ≠ some runId ∨ record.role ≠ .user →
      (rows ++ [record]).filter (fun message => message.runId = some runId && message.role = .user) =
        rows.filter fun message => message.runId = some runId && message.role = .user := by
    intro rows record hrecord
    have hskip : (decide (record.runId = some runId) && decide (record.role = .user)) = false := by
      rcases hrecord with hne | hne <;> simp [hne]
    rw [List.filter_append, List.filter_singleton]
    simp [hskip]
  cases heffect with
  | appended rows =>
    induction rows with
    | none => rfl
    | more appended fits accepted ih =>
      rw [hother, ih]
      rcases accepted.initiates with hnone | hrole
      · simp [hnone]
      · exact .inr hrole
  | started label fresh fits session run role coverage =>
    obtain ⟨stored, hstored, rfl⟩ := hrun
    rw [hother, AgentDb.initiatingMessages]
    left
    rw [run]
    intro hid
    exact fresh stored hstored (Option.some.inj hid).symm
  | summarized label fits owned run role coverage =>
    rw [hother, AgentDb.initiatingMessages]
    right
    simp [role]
  | deleted label => exact absurd label (hdelete _ _)

/-! ## The invariant along calls -/

theorem reply_committed {α : Type} {wrap : α → AgentReply} {body : Transaction α} {db : AgentDb}
    (hchanged : (reply wrap body db).2 ≠ db) :
    ∃ result db', body db = .ok (result, db') ∧ (reply wrap body db).2 = db' := by
  rcases reply_cases wrap body db with ⟨_, hsame⟩ | hcommitted
  · exact absurd hsame hchanged
  · exact hcommitted

theorem compactAgentRun_accepted {id : String} {expected : AgentRunStatus}
    {input : CompactAgentRun} {db : AgentDb} (hkeyed : db.WellKeyed)
    (hchanged : (exec json (.compactAgentRun env id expected input) db).2 ≠ db) :
    CompactionAccepted id input db := by
  obtain ⟨result, db', hok, _⟩ := reply_committed hchanged
  exact (compactAgentRun_steps hkeyed hok).2.2

namespace AgentDb.Transcript

variable {db : AgentDb}

theorem empty : AgentDb.empty.Transcript where
  toNumbered := .nil
  oneActive := by simp [AgentDb.empty]
  owned := by simp [AgentDb.empty]
  initiating := by simp [AgentDb.empty]
  runCoverage := by simp [AgentDb.empty]
  summaryCoverage := by simp [AgentDb.empty]

theorem initiating_fresh (htranscript : db.Transcript) (hfresh : ∀ run ∈ db.runs, run.id ≠ runId) :
    db.initiatingMessages runId = [] := by
  unfold AgentDb.initiatingMessages
  rw [List.filter_eq_nil_iff]
  intro message hmessage hcond
  simp only [Bool.and_eq_true, decide_eq_true_eq] at hcond
  obtain ⟨run, hrun, hid, _⟩ := htranscript.owned message hmessage runId hcond.1
  exact hfresh run hrun hid

/-- Deleting another session leaves the run the message that it began with. -/
theorem initiating_delete (hkeyed : db.WellKeyed) (htranscript : db.Transcript)
    (hrun : run ∈ db.runs) {sessionId : String} (hkept : run.sessionId ≠ sessionId) :
    (deleteSessionCascade sessionId db).initiatingMessages run.id =
      db.initiatingMessages run.id := by
  unfold AgentDb.initiatingMessages deleteSessionCascade
  rw [List.filter_filter]
  refine List.filter_congr fun message hmessage => ?_
  by_cases howner : message.runId = some run.id
  · obtain ⟨other, hother, hid, hsession⟩ := htranscript.owned message hmessage run.id howner
    obtain rfl := hkeyed.runs.eq_of_key_eq hother hrun hid
    simp [← hsession, hkept]
  · simp [howner]

theorem delete (hkeyed : db.WellKeyed) (htranscript : db.Transcript) (sessionId : String) :
    (deleteSessionCascade sessionId db).Transcript := by
  have hruns : ∀ {run}, run ∈ (deleteSessionCascade sessionId db).runs →
      run ∈ db.runs ∧ run.sessionId ≠ sessionId := by
    intro run hrun
    simpa [deleteSessionCascade] using hrun
  have hmessages : ∀ {message}, message ∈ (deleteSessionCascade sessionId db).messages →
      message ∈ db.messages ∧ message.sessionId ≠ sessionId := by
    intro message hmessage
    simpa [deleteSessionCascade] using hmessage
  -- the owner of a message that stays is in the same session, so it stays too
  have howner : ∀ {message runId}, message ∈ (deleteSessionCascade sessionId db).messages →
      message.runId = some runId → ∃ run ∈ db.runs, run.id = runId ∧
        run.sessionId = message.sessionId ∧ run.sessionId ≠ sessionId := by
    intro message runId hmessage hrunId
    obtain ⟨hmem, hkept⟩ := hmessages hmessage
    obtain ⟨run, hrun, hid, hsession⟩ := htranscript.owned message hmem runId hrunId
    exact ⟨run, hrun, hid, hsession, hsession ▸ hkept⟩
  refine ⟨htranscript.toNumbered.delete sessionId, ?_, ?_, ?_, ?_, ?_⟩
  · intro run hrun other hother
    exact htranscript.oneActive run (hruns hrun).1 other (hruns hother).1
  · intro message hmessage runId hrunId
    obtain ⟨run, hrun, hid, hsession, hkept⟩ := howner hmessage hrunId
    exact ⟨run, List.mem_filter.mpr ⟨hrun, by simpa using hkept⟩, hid, hsession⟩
  · intro run hrun
    rw [htranscript.initiating_delete hkeyed (hruns hrun).1 (hruns hrun).2]
    exact htranscript.initiating run (hruns hrun).1
  · intro run hrun coverage hcoverage
    rw [htranscript.initiating_delete hkeyed (hruns hrun).1 (hruns hrun).2]
    exact htranscript.runCoverage run (hruns hrun).1 coverage hcoverage
  · intro message hmessage coverage hcoverage
    obtain ⟨runId, hrunId, hbefore⟩ :=
      htranscript.summaryCoverage message (hmessages hmessage).1 coverage hcoverage
    obtain ⟨run, hrun, rfl, _, hkept⟩ := howner hmessage hrunId
    refine ⟨run.id, hrunId, ?_⟩
    rw [htranscript.initiating_delete hkeyed hrun hkept]
    exact hbefore

end AgentDb.Transcript

section Calls

variable {db : AgentDb} {op : AgentOp}

/-- A run is gone only with its session. -/
theorem exec_run_survives (hsound : db.Sound)
    (hdelete : ∀ sessionId revision, op ≠ .deleteAgentSession sessionId revision)
    (hrun : run ∈ db.runs) :
    ∃ after ∈ (exec json op db).2.runs, after.id = run.id ∧ after.sessionId = run.sessionId := by
  have hload : db.loadRun run.id = some run := hsound.wellKeyed.runs.find_of_mem hrun
  rcases exec_run_cases op hsound hload with
    ⟨after, hafter, _, hsession, _⟩ | ⟨⟨revision, hop⟩, _⟩
  · obtain ⟨hmem, hid⟩ := Rows.find_mem hafter
    exact ⟨after, hmem, hid, hsession⟩
  · exact absurd hop (hdelete _ _)

theorem exec_initiating_kept (hsound : db.Sound)
    (hdelete : ∀ sessionId revision, op ≠ .deleteAgentSession sessionId revision)
    (hrun : ∃ run ∈ db.runs, run.id = runId) :
    (exec json op db).2.initiatingMessages runId = db.initiatingMessages runId :=
  (exec_messages json op hsound.wellKeyed).initiating_kept hdelete hrun

/-- A message keeps the run that it names. -/
theorem AgentMessageRecord.Owned.survives (hsound : db.Sound)
    (hdelete : ∀ sessionId revision, op ≠ .deleteAgentSession sessionId revision)
    (howned : message.Owned db.runs) :
    message.Owned (exec json op db).2.runs := by
  intro owner howner
  obtain ⟨run, hrun, rfl, hsession⟩ := howned owner howner
  obtain ⟨after, hafter, hid, hsame⟩ := exec_run_survives hsound hdelete hrun
  exact ⟨after, hafter, hid, hsame.trans hsession⟩

/-- No call gives a session a second active run. -/
theorem exec_oneActive (hsound : db.Sound) (htranscript : db.Transcript) :
    ∀ run ∈ (exec json op db).2.runs, ∀ other ∈ (exec json op db).2.runs,
      run.sessionId = other.sessionId → run.status.isActive = true →
      other.status.isActive = true → run = other := by
  -- a run may only be started in a session without active runs
  have hidle : ∀ {started stored : AgentRunRecord}, db.sessionBusy started.sessionId = false →
      stored ∈ db.runs → stored.sessionId = started.sessionId → stored.status.isActive ≠ true := by
    intro started stored hidle hstored hsession hactive
    have hbusy : db.sessionBusy started.sessionId = true :=
      List.any_eq_true.mpr ⟨stored, hstored, by simp [hsession, hactive]⟩
    simp [hbusy] at hidle
  intro run hrun other hother hsession hactive hactive'
  have hkeyed := (exec_sound json op hsound).wellKeyed.runs
  cases exec_run_origin op hsound hrun with
  | kept mem id session active coverage =>
    rename_i before
    cases exec_run_origin op hsound hother with
    | kept mem' id' session' active' coverage' =>
      have hsame := htranscript.oneActive _ mem _ mem' (by rw [session, session', hsession])
        (active hactive) (active' hactive')
      exact hkeyed.eq_of_key_eq hrun hother (by rw [← id, ← id', hsame])
    | started label idle fresh coverage =>
      exact absurd (active hactive) (hidle idle mem (session.trans hsession))
  | started label idle fresh coverage =>
    cases exec_run_origin op hsound hother with
    | kept mem' id' session' active' coverage' =>
      exact absurd (active' hactive') (hidle idle mem' (session'.trans hsession.symm))
    | started label' idle' fresh' coverage' =>
      rw [label] at label'
      injection label' with _ hid
      exact hkeyed.eq_of_key_eq hrun hother hid

/-- A run that is started has exactly one message that initiates it. -/
theorem startAgentRunWithIds_initiating {userMessageId sessionId : String}
    {input : StartAgentRun} (htranscript : db.Transcript)
    (hchanged : (exec json (.startAgentRunWithIds env runId userMessageId sessionId input) db).2 ≠
      db) :
    ((exec json (.startAgentRunWithIds env runId userMessageId sessionId input)
      db).2.initiatingMessages runId).length = 1 := by
  obtain ⟨result, db', hok, hdb'⟩ := reply_committed hchanged
  obtain ⟨hfresh, record, hmessages, _, _, hrun, hrole, _, _⟩ := startAgentRunWithIds_messages hok
  have hnone := htranscript.initiating_fresh hfresh
  unfold AgentDb.initiatingMessages at hnone ⊢
  rw [exec, hdb', hmessages, List.filter_append, hnone]
  simp [hrun, hrole]

/-- Every call but a deletion keeps the transcript in order. -/
theorem exec_transcript_kept (hsound : db.Sound) (htranscript : db.Transcript)
    (hdelete : ∀ sessionId revision, op ≠ .deleteAgentSession sessionId revision)
    (hchanged : (exec json op db).2 ≠ db) : (exec json op db).2.Transcript := by
  have hkeyed := hsound.wellKeyed
  have heffect := exec_messages json op hkeyed
  refine ⟨htranscript.toNumbered.effect heffect, exec_oneActive hsound htranscript, ?_, ?_, ?_, ?_⟩
  · intro message hmessage
    rcases heffect.origin hmessage with hold | hplain |
      ⟨env, runId, userMessageId, sessionId, input, rfl, _⟩ | ⟨_, _, _, _, _, howned, _, _⟩
    · exact (htranscript.owned message hold).survives hsound hdelete
    · exact hplain.owned.survives hsound hdelete
    · obtain ⟨result, db', hok, hdb'⟩ := reply_committed hchanged
      obtain ⟨_, record, hmessages, _, _, _, _, _, howned⟩ := startAgentRunWithIds_messages hok
      have hmem := hmessage
      rw [exec, hdb', hmessages, List.mem_append, List.mem_singleton] at hmem
      rcases hmem with hold | rfl
      · exact (htranscript.owned message hold).survives hsound hdelete
      · rw [exec, hdb']
        exact howned
    · exact howned.survives hsound hdelete
  · intro run hrun
    cases exec_run_origin op hsound hrun with
    | kept mem id session active coverage =>
      rw [exec_initiating_kept hsound hdelete ⟨_, mem, id⟩, ← id]
      exact htranscript.initiating _ mem
    | started label idle fresh coverage =>
      subst label
      exact startAgentRunWithIds_initiating htranscript hchanged
  -- the boundary moves only with an accepted compaction
  · intro run hrun bound hbound
    cases exec_run_origin op hsound hrun with
    | kept mem id session active coverage =>
      rw [exec_initiating_kept hsound hdelete ⟨_, mem, id⟩]
      have hold := htranscript.runCoverage _ mem bound
      rw [id] at hold
      rcases coverage with hsame | ⟨env, expected, input, rfl, hcoverage⟩
      · exact hold (hsame ▸ hbound)
      · rw [hcoverage] at hbound
        cases hrequested : input.compaction.requestedCoverage with
        | none => exact hold (by simpa [hrequested] using hbound)
        | some requested =>
          refine (compactAgentRun_accepted hkeyed hchanged).boundary bound ?_
          simpa [hrequested] using hbound
    | started label idle fresh coverage => simp [coverage] at hbound
  · intro message hmessage bound hbound
    rcases heffect.origin hmessage with hold | hplain |
      ⟨_, _, _, _, _, _, _, _, hnone⟩ | ⟨env, id, expected, input, rfl, howned, hrun, hcoverage⟩
    · obtain ⟨runId, hrunId, hbefore⟩ := htranscript.summaryCoverage message hold bound hbound
      obtain ⟨owner, howner, hid, _⟩ := htranscript.owned message hold runId hrunId
      refine ⟨runId, hrunId, ?_⟩
      rw [exec_initiating_kept hsound hdelete ⟨owner, howner, hid⟩]
      exact hbefore
    · simp [hplain.coverage] at hbound
    · simp [hnone] at hbound
    · obtain ⟨owner, howner, hid, _⟩ := howned id hrun
      refine ⟨id, hrun, ?_⟩
      rw [exec_initiating_kept hsound hdelete ⟨owner, howner, hid⟩]
      exact (compactAgentRun_accepted hkeyed hchanged).boundary bound (hcoverage ▸ hbound)

end Calls

/-- A call keeps the transcript in order. -/
theorem exec_transcript (json : JsonEngine) (op : AgentOp) {db : AgentDb} (hsound : db.Sound)
    (htranscript : db.Transcript) : (exec json op db).2.Transcript := by
  by_cases hchanged : (exec json op db).2 = db
  · rw [hchanged]
    exact htranscript
  · by_cases hdelete : ∃ sessionId revision, op = .deleteAgentSession sessionId revision
    · obtain ⟨sessionId, revision, rfl⟩ := hdelete
      obtain ⟨result, db', hok, hdb'⟩ := reply_committed hchanged
      unfold deleteAgentSession at hok
      simp only [bind_eq_ok, pure_eq_ok, Prod.mk.injEq] at hok
      obtain ⟨_, _, _, _, _, _, _, _, -, rfl⟩ := hok
      rw [exec, hdb']
      exact htranscript.delete hsound.wellKeyed sessionId
    · exact exec_transcript_kept hsound htranscript (by simpa using hdelete) hchanged

theorem storeAfter_transcript (json : JsonEngine) (ops : List AgentOp) :
    (storeAfter json ops).Transcript := by
  have hboth : (storeAfter json ops).Sound ∧ (storeAfter json ops).Transcript := by
    refine Trace.run_invariant (motive := fun db : AgentDb => db.Sound ∧ db.Transcript)
      ⟨AgentDb.sound_empty, .empty⟩ ?_ ops
    rintro op db ⟨hsound, htranscript⟩
    exact ⟨exec_sound json op hsound, exec_transcript json op hsound htranscript⟩
  exact hboth.2

/-! ## Recorded coverage -/

/-- A run or a summary of the session records this coverage. -/
def AgentDb.Recorded (db : AgentDb) (sessionId : String) (coverage : Nat) : Prop :=
  (∃ run ∈ db.runs, run.sessionId = sessionId ∧ run.compactedThroughOrdinal = some coverage) ∨
    ∃ message ∈ db.messages, message.sessionId = sessionId ∧
      message.summaryThroughOrdinal = some coverage

namespace AgentDb

variable {db db' : AgentDb} {sessionId : String} {coverage : Nat}

/-- The coverage of a session is the greatest one that a compaction recorded. -/
theorem sessionCoverage_eq_some_iff :
    db.sessionCoverage sessionId = some coverage ↔
      db.Recorded sessionId coverage ∧ ∀ other, db.Recorded sessionId other → other ≤ coverage := by
  have hmem : ∀ bound, bound ∈
      (db.runs.filter fun run => run.sessionId = sessionId).filterMap (·.compactedThroughOrdinal) ++
        (db.sessionMessages sessionId).filterMap (·.summaryThroughOrdinal) ↔
      db.Recorded sessionId bound := by
    intro bound
    simp [AgentDb.Recorded, AgentDb.sessionMessages, and_assoc]
  unfold AgentDb.sessionCoverage
  rw [List.max?_eq_some_iff, hmem]
  simp only [hmem]

theorem sessionCoverage_congr
    (hsame : ∀ bound, db'.Recorded sessionId bound ↔ db.Recorded sessionId bound) :
    db'.sessionCoverage sessionId = db.sessionCoverage sessionId := by
  apply Option.ext
  intro bound
  rw [sessionCoverage_eq_some_iff, sessionCoverage_eq_some_iff, hsame]
  simp only [hsame]

theorem Recorded.le_sessionCoverage (hrecorded : db.Recorded sessionId coverage) :
    ∃ greatest, db.sessionCoverage sessionId = some greatest ∧ coverage ≤ greatest := by
  cases hcoverage : db.sessionCoverage sessionId with
  | some greatest =>
    exact ⟨greatest, rfl, (sessionCoverage_eq_some_iff.mp hcoverage).2 coverage hrecorded⟩
  | none =>
    unfold AgentDb.sessionCoverage at hcoverage
    rw [List.max?_eq_none_iff, List.append_eq_nil_iff] at hcoverage
    rcases hrecorded with ⟨run, hrun, hsession, hbound⟩ | ⟨message, hmessage, hsession, hbound⟩
    · have hnone := List.filterMap_eq_nil_iff.mp hcoverage.1 run
        (List.mem_filter.mpr ⟨hrun, by simpa using hsession⟩)
      simp [hbound] at hnone
    · have hnone := List.filterMap_eq_nil_iff.mp hcoverage.2 message
        (List.mem_filter.mpr ⟨hmessage, by simpa using hsession⟩)
      simp [hbound] at hnone

end AgentDb

section Coverage

variable {db : AgentDb} {op : AgentOp} {sessionId : String} {coverage : Nat}

/-- New coverage comes from a compaction of a run of the session. -/
theorem exec_recorded_origin (hsound : db.Sound)
    (hrecorded : (exec json op db).2.Recorded sessionId coverage) :
    db.Recorded sessionId coverage ∨
      ∃ env id expected input, op = .compactAgentRun env id expected input ∧
        input.compaction.requestedCoverage = some coverage ∧
        ∃ run ∈ db.runs, run.id = id ∧ run.sessionId = sessionId := by
  rcases hrecorded with ⟨run, hrun, rfl, hbound⟩ | ⟨message, hmessage, rfl, hbound⟩
  · cases exec_run_origin op hsound hrun with
    | kept mem id session active covered =>
      rcases covered with hsame | ⟨env, expected, input, rfl, hcoverage⟩
      · exact .inl (.inl ⟨_, mem, session, hsame ▸ hbound⟩)
      · rw [hbound] at hcoverage
        cases hrequested : input.compaction.requestedCoverage with
        | none =>
          left
          refine .inl ⟨_, mem, session, ?_⟩
          simpa [hrequested] using hcoverage.symm
        | some requested =>
          obtain rfl : coverage = requested := by simpa [hrequested] using hcoverage
          exact .inr ⟨env, run.id, expected, input, rfl, hrequested, _, mem, id, session⟩
    | started label idle fresh covered => simp [covered] at hbound
  · rcases (exec_messages json op hsound.wellKeyed).origin hmessage with hold | hplain |
      ⟨_, _, _, _, _, _, _, _, hnone⟩ | ⟨env, id, expected, input, rfl, howned, hrun, hcoverage⟩
    · exact .inl (.inr ⟨message, hold, rfl, hbound⟩)
    · simp [hplain.coverage] at hbound
    · simp [hnone] at hbound
    · exact .inr ⟨env, id, expected, input, rfl, hcoverage.symm.trans hbound, howned id hrun⟩

/-- A message is gone only with its session. -/
theorem exec_message_kept (hsound : db.Sound)
    (hmem : message ∈ db.messages) (hkept : ¬ op.DeletesSession json message.sessionId db) :
    message ∈ (exec json op db).2.messages := by
  cases hreply : (exec json op db).1 with
  | error error =>
    rcases exec_error op hsound.wellKeyed hreply with
      hsame | ⟨_, _, _, _, _, _, _, _, _, _, _, _, hexpired⟩
    · rw [hsame.messages]
      exact hmem
    · rw [hexpired.messages]
      exact hmem
  | ok value =>
    have heffect := exec_messages json op hsound.wellKeyed
    generalize (exec json op db).2.messages = messages at heffect
    cases heffect with
    | appended rows =>
      induction rows with
      | none => exact hmem
      | more appended fits accepted ih => exact List.mem_append_left _ ih
    | started label fresh fits session run role coverage => exact List.mem_append_left _ hmem
    | summarized label fits owned run role coverage => exact List.mem_append_left _ hmem
    | deleted label =>
      refine List.mem_filter.mpr ⟨hmem, ?_⟩
      simp only [ne_eq, decide_not, Bool.not_eq_true', decide_eq_false_iff_not]
      rintro rfl
      exact hkept ⟨⟨_, label⟩, value, hreply⟩

/-- A coverage stays recorded while its session lives and no call compacts it further: the run or
the summary that has it is kept. -/
theorem exec_recorded_kept (hsound : db.Sound)
    (hkept : ¬ op.DeletesSession json sessionId db)
    (hcompact : ∀ env id expected input, op = .compactAgentRun env id expected input →
      input.compaction.requestedCoverage = none)
    (hrecorded : db.Recorded sessionId coverage) :
    (exec json op db).2.Recorded sessionId coverage := by
  rcases hrecorded with ⟨run, hrun, rfl, hbound⟩ | ⟨message, hmessage, rfl, hbound⟩
  · have hload : db.loadRun run.id = some run := hsound.wellKeyed.runs.find_of_mem hrun
    obtain ⟨after, hafter, _, hsession, _⟩ := (exec_run_cases op hsound hload).resolve_right hkept
    obtain ⟨hmem, hid⟩ := Rows.find_mem hafter
    refine .inl ⟨after, hmem, hsession, ?_⟩
    cases exec_run_origin op hsound hmem with
    | kept mem id session active covered =>
      obtain rfl := hsound.wellKeyed.runs.eq_of_key_eq mem hrun (id.trans hid)
      rcases covered with hsame | ⟨env, expected, input, hop, hcoverage⟩
      · exact hsame.trans hbound
      · rw [hcoverage, hcompact env _ expected input hop, Option.none_or, hbound]
    | started label idle fresh covered => exact absurd hid.symm (fresh run hrun)
  · exact .inr ⟨message, exec_message_kept hsound hmessage hkept, rfl, hbound⟩

theorem exec_sessionCoverage_kept (hsound : db.Sound)
    (hkept : ¬ op.DeletesSession json sessionId db)
    (hcompact : ∀ env id expected input, op = .compactAgentRun env id expected input →
      input.compaction.requestedCoverage = none) :
    (exec json op db).2.sessionCoverage sessionId = db.sessionCoverage sessionId := by
  apply AgentDb.sessionCoverage_congr
  intro bound
  constructor
  · intro hrecorded
    rcases exec_recorded_origin hsound hrecorded with
      hold | ⟨env, id, expected, input, hop, hrequested, _⟩
    · exact hold
    · rw [hcompact env id expected input hop] at hrequested
      cases hrequested
  · exact exec_recorded_kept hsound hkept hcompact

/-- An accepted compaction found its run; a trim or a summary moves the coverage
of its session up to the requested ordinal. -/
theorem compactAgentRun_sessionCoverage {id : String} {expected : AgentRunStatus}
    {input : CompactAgentRun} {value : AgentReply} (hsound : db.Sound)
    (hreply : (exec json (.compactAgentRun env id expected input) db).1 = .ok value) :
    ∃ run, db.loadRun id = some run ∧ ∀ requested ∈ input.compaction.requestedCoverage,
      (∀ recorded ∈ db.sessionCoverage run.sessionId, recorded < requested) ∧
      (exec json (.compactAgentRun env id expected input) db).2.sessionCoverage run.sessionId =
        some requested := by
  obtain ⟨result, db', hok, hdb', _⟩ := reply_ok hreply
  obtain ⟨hsteps, _, haccepted⟩ := compactAgentRun_steps hsound.wellKeyed hok
  obtain ⟨before, after, hbefore, hafter, hstep⟩ := hsteps.step
  have hload := AgentDb.loadRun_of_view hbefore
  refine ⟨before.run, hload, ?_⟩
  intro requested hrequested
  have hadvances := haccepted.advances before.run hload requested hrequested
  refine ⟨hadvances, ?_⟩
  rw [AgentDb.sessionCoverage_eq_some_iff]
  constructor
  · rw [exec, hdb']
    refine .inl ⟨after.run, (AgentDb.mem_of_view hafter).1, hstep.sessionId, ?_⟩
    cases hstep with
    | compactAgentRun status cancel fence advances coverage =>
      rw [coverage, hrequested]
      rfl
  · intro other hother
    rcases exec_recorded_origin hsound hother with hold | ⟨_, _, _, _, hop, hbound, _⟩
    · obtain ⟨greatest, hgreatest, hle⟩ := hold.le_sessionCoverage
      have hlt := hadvances greatest hgreatest
      omega
    · obtain ⟨rfl, rfl, rfl, rfl⟩ := by simpa using hop
      obtain rfl := Option.some.inj (hbound.symm.trans hrequested)
      exact le_rfl

end Coverage

/-- Transcripts along one sequence of calls. -/
structure TranscriptsHold (json : JsonEngine) (ops : List AgentOp) : Prop where
  transcript : (storeAfter json ops).Transcript
  activeRuns : ∀ sessionId, ((storeAfter json ops).runs.filter fun run =>
    run.sessionId = sessionId && run.status.isActive).length ≤ 1
  compacted : ∀ index env id expected input,
    Succeeds json ops index (.compactAgentRun env id expected input) →
    ∃ run, (storeAt json ops index).loadRun id = some run ∧
      (∀ requested ∈ input.compaction.requestedCoverage,
        (∀ recorded ∈ (storeAt json ops index).sessionCoverage run.sessionId,
          recorded < requested) ∧
        (storeAt json ops (index + 1)).sessionCoverage run.sessionId = some requested) ∧
      (input.compaction.requestedCoverage = none →
        (storeAt json ops (index + 1)).sessionCoverage run.sessionId =
          (storeAt json ops index).sessionCoverage run.sessionId)
  others : ∀ index op sessionId, ops[index]? = some op →
    (∀ env id expected input, op ≠ .compactAgentRun env id expected input) →
    ¬ op.DeletesSession json sessionId (storeAt json ops index) →
    (storeAt json ops (index + 1)).sessionCoverage sessionId =
      (storeAt json ops index).sessionCoverage sessionId

/-- The transcripts hold in every reachable store. -/
theorem reachable_transcriptsHold (json : JsonEngine) (ops : List AgentOp) :
    TranscriptsHold json ops := by
  have htranscript := storeAfter_transcript json ops
  constructor
  · exact htranscript
  · intro sessionId
    refine (storeAfter_sound json ops).wellKeyed.runs.length_filter_le_one ?_
    intro run hrun other hother hactive hactive'
    simp only [Bool.and_eq_true, decide_eq_true_eq] at hactive hactive'
    exact htranscript.oneActive run hrun other hother (hactive.1.trans hactive'.1.symm) hactive.2
      hactive'.2
  · rintro index env id expected input ⟨hop, value, hreply⟩
    have hsound := storeAt_sound json ops index
    have hkept : ∀ sessionId, ¬ AgentOp.DeletesSession json sessionId
        (.compactAgentRun env id expected input) (storeAt json ops index) := by
      rintro sessionId ⟨⟨_, hdelete⟩, _⟩
      cases hdelete
    rw [storeAt_succ hop]
    obtain ⟨run, hload, hadvances⟩ := compactAgentRun_sessionCoverage hsound hreply
    refine ⟨run, hload, hadvances, ?_⟩
    intro hnone
    refine exec_sessionCoverage_kept hsound (hkept _) ?_
    intro _ _ _ _ hop'
    obtain ⟨rfl, rfl, rfl, rfl⟩ := by simpa using hop'
    exact hnone
  · intro index op sessionId hop hcompact hkept
    rw [storeAt_succ hop]
    refine exec_sessionCoverage_kept (storeAt_sound json ops index) hkept ?_
    intro env id expected input hop'
    exact absurd hop' (hcompact env id expected input)

/-- An engine that knows the one message below. -/
def JsonEngine.greeting : JsonEngine :=
  let text := "[\x7b\"type\":\"text\",\"text\":\"hello\"\x7d]"
  { jsonValid := fun json => json = text
    visible := fun json => json = text
    blocks := fun json => if json = text then some [.text "hello"] else none
    onlyContractFields := fun json => json = text
    canonical := fun json => json
    textArray := fun _ => text
    isObject := fun _ => false }

/-- A session, a run in it, and a compaction that found nothing to remove. -/
def noOpCompaction : List AgentOp :=
  let env : CallEnv := { clock := .ok 0, uuid := fun _ => "session" }
  [ .createAgentSession env ["provider"] []
      { title := "chat", providerId := "provider", datasourceId := none, systemPrompt := none },
    .startAgentRunWithIds env "run" "message" "session"
      { userMessage := "hello", sqlPermissionMode := .askBeforeWrite },
    .compactAgentRun env "run" .running
      { lastSequence := 2, modelRounds := 0, toolCalls := 0, inputTokens := 0, outputTokens := 0
        totalTokens := 0, compaction := .noOp } ]

/-- Not every accepted compaction moves the coverage. -/
theorem noOpCompaction_accepted :
    ¬ ∀ (json : JsonEngine) (ops : List AgentOp) (index : Nat) (env : CallEnv) (id : String)
      (expected : AgentRunStatus) (input : CompactAgentRun) (run : AgentRunRecord),
      Succeeds json ops index (.compactAgentRun env id expected input) →
      (storeAt json ops index).loadRun id = some run →
      coverageRank ((storeAt json ops index).sessionCoverage run.sessionId) <
        coverageRank ((storeAt json ops (index + 1)).sessionCoverage run.sessionId) := by
  intro hadvances
  have hlt := hadvances JsonEngine.greeting noOpCompaction 2 _ _ _ _
    (AgentRunRecord.start "run" "session" .askBeforeWrite 0) ⟨rfl, _, rfl⟩ (by decide)
  revert hlt
  decide

end Chat2DB.Storage
