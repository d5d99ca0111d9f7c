import Chat2DB.Base.Retained
import Chat2DB.Agent.Hub

/-! # Hub events are the durable history

Numbers are published once and without gaps, the journal is the tail of what was
published, and a subscription yields a stretch of it without a hole.
-/

namespace Chat2DB.Agent

variable {permissionId : String} {prior : AgentRunSnapshot} {next : Nat}

/-! ## What a step does to an entry -/

namespace AgentRunEntry

/-- The same published history and cached state. -/
structure SameLog (entry later : AgentRunEntry) : Prop where
  snapshot : later.snapshot = entry.snapshot
  sequence : later.sequence = entry.sequence
  journal : later.journal = entry.journal
  sent : later.sent = entry.sent

theorem SameLog.refl (entry : AgentRunEntry) : entry.SameLog entry := ⟨rfl, rfl, rfl, rfl⟩

/-- Everything the calls outside a transition may change. -/
structure Kept (entry later : AgentRunEntry) : Prop extends entry.SameLog later where
  transition : later.transition = entry.transition
  spent : later.spent = entry.spent
  unavailable : entry.unavailable = true → later.unavailable = true

theorem Kept.refl (entry : AgentRunEntry) : entry.Kept entry :=
  ⟨SameLog.refl entry, rfl, rfl, id⟩

theorem Kept.trans {entry middle later : AgentRunEntry} (hfirst : entry.Kept middle)
    (hsecond : middle.Kept later) : entry.Kept later where
  snapshot := hsecond.snapshot.trans hfirst.snapshot
  sequence := hsecond.sequence.trans hfirst.sequence
  journal := hsecond.journal.trans hfirst.journal
  sent := hsecond.sent.trans hfirst.sent
  transition := hsecond.transition.trans hfirst.transition
  spent := hsecond.spent.trans hfirst.spent
  unavailable := fun hunavailable => hsecond.unavailable (hfirst.unavailable hunavailable)

theorem invalidateEntry_kept (entry : AgentRunEntry) (force : Bool) :
    entry.Kept (entry.invalidateEntry force) ∧ (entry.invalidateEntry force).unavailable = true := by
  unfold invalidateEntry removeEntry cancelCurrentPermission
  split
  · exact ⟨⟨⟨rfl, rfl, rfl, rfl⟩, rfl, rfl, fun _ => rfl⟩, rfl⟩
  · split
    · exact ⟨⟨⟨rfl, rfl, rfl, rfl⟩, rfl, rfl, fun _ => rfl⟩, rfl⟩
    · exact ⟨⟨⟨rfl, rfl, rfl, rfl⟩, rfl, rfl, fun _ => rfl⟩, rfl⟩

/-- Permission signals touch nothing of the history. -/
theorem installPermissionSignal_kept {entry installed : AgentRunEntry}
    (hinstall : entry.installPermissionSignal permissionId = some installed) :
    entry.Kept installed := by
  have hnew : entry.Kept (entry.newSignal permissionId) := ⟨⟨rfl, rfl, rfl, rfl⟩, rfl, rfl, id⟩
  unfold installPermissionSignal at hinstall
  split at hinstall
  · split at hinstall
    · cases hinstall
      exact .refl entry
    · split at hinstall
      · cases hinstall
      · cases hinstall
        exact hnew
  · cases hinstall
    exact hnew

theorem settlePermission_kept {entry settled : AgentRunEntry} {resolution : PermissionSignalState}
    (hsettle : entry.settlePermission permissionId resolution = some settled) :
    entry.Kept settled := by
  have hsettled : entry.Kept { entry with permission := some { permissionId, state := resolution } } :=
    ⟨⟨rfl, rfl, rfl, rfl⟩, rfl, rfl, id⟩
  unfold settlePermission at hsettle
  split at hsettle
  · cases hsettle
  · split at hsettle
    · cases hsettle
    · simp only at hsettle
      split at hsettle
      · split at hsettle
        · split at hsettle <;> cases hsettle
          · exact hsettled
          · exact .refl entry
        · split at hsettle
          · cases hsettle
          · cases hsettle
            exact hsettled
      · cases hsettle
        exact hsettled

/-- The published event: terminal exactly if the snapshot it comes with is. -/
def Matches (durable : DurableAgentTransition) : Prop :=
  durable.event.isTerminal = durable.snapshot.status.isTerminal

/-- An accepted answer is about this run and the number that was offered. -/
theorem matches_of_validate {runId : String} {durable : DurableAgentTransition}
    (hvalid : validateDurableTransition runId prior next durable = true) : Matches durable := by
  unfold validateDurableTransition at hvalid
  simp only [Bool.and_eq_true] at hvalid
  have hmatch := hvalid.2
  obtain ⟨snapshot, event⟩ := durable
  unfold Matches
  cases event <;>
    simp_all [eventMatchesSnapshot, AgentEvent.isTerminal, AgentRunStatus.isTerminal]

/-- The ways an entry moves, with what held before. -/
inductive Moves (capacity : Nat) (runId : String) (entry later : AgentRunEntry) : Prop
  | kept (same : entry.Kept later)
  /-- A transition acquires the mutex and is offered the next number. -/
  | offered (free : entry.transition = none) (available : entry.unavailable = false)
      (live : entry.snapshot.status.isTerminal = false)
      (after : later =
        { entry with transition := some (.persisting (entry.sequence + 1) entry.snapshot) })
  /-- The answer of a commit is accepted. -/
  | accepted {next prior durable} (phase : entry.transition = some (.committed next prior))
      (fits : Matches durable) (same : entry.SameLog later) (spent : later.spent = entry.spent)
      (unavailable : entry.unavailable = true → later.unavailable = true)
      (after : later.transition = some (.accepted next durable))
  | published {next durable} {envelope : AgentEventEnvelope}
      (phase : entry.transition = some (.accepted next durable))
      (fresh : entry.sequence + 1 = next)
      (number : envelope.sequence = next) (event : envelope.event = durable.event)
      (after : later =
        { entry with
          sequence := next
          snapshot := durable.snapshot
          journal := (if entry.journal.length = capacity then entry.journal.tail
            else entry.journal) ++ [envelope]
          sent := entry.sent ++ [envelope]
          transition := some (.published durable) })
  /-- The mutex is released on an entry that stays usable. -/
  | released (phase : (∃ next prior, entry.transition = some (.persisting next prior)) ∨
        ∃ durable, entry.transition = some (.published durable))
      (same : entry.SameLog later) (spent : later.spent = entry.spent)
      (unavailable : entry.unavailable = true → later.unavailable = true)
      (after : later.transition = none)
  /-- The entry is given up together with the mutex. -/
  | invalidated (same : entry.SameLog later) (unavailable : later.unavailable = true)
      (after : later.transition = none)

section Operations

variable {capacity : Nat} {runId : String} {entry later : AgentRunEntry}

theorem moves_invalidate (entry : AgentRunEntry) (spent : List Nat) :
    Moves capacity runId entry
      { entry.invalidateEntry false with transition := none, spent } := by
  obtain ⟨hkept, hunavailable⟩ := entry.invalidateEntry_kept false
  exact .invalidated ⟨hkept.snapshot, hkept.sequence, hkept.journal, hkept.sent⟩ hunavailable rfl

theorem moves_invalidate_same (entry : AgentRunEntry) :
    Moves capacity runId entry { entry.invalidateEntry false with transition := none } :=
  moves_invalidate entry (entry.invalidateEntry false).spent

/-- Each operation of an entry is one of its moves, from here on. -/
theorem beginTransition_moves (hstep : entry.beginTransition = some later) :
    Moves capacity runId entry later := by
  unfold beginTransition at hstep
  split at hstep
  · cases hstep
  · rename_i hfree
    simp only [Bool.or_eq_true, decide_eq_true_eq, not_or, Bool.not_eq_true,
      Option.isSome_eq_false_iff, Option.isNone_iff_eq_none] at hfree
    exact .offered hfree.1.1.1 hfree.1.1.2 hfree.1.2 (Option.some.inj hstep).symm

theorem acceptTransition_moves {durable : DurableAgentTransition}
    (hstep : entry.acceptTransition runId durable = some later) :
    Moves capacity runId entry later := by
  unfold acceptTransition at hstep
  split at hstep
  · rename_i next prior hphase
    simp only at hstep
    split at hstep
    · rename_i hvalid
      have hfits := matches_of_validate hvalid
      split at hstep
      · rename_i permission hevent
        split at hstep
        · rename_i installed hinstall
          cases hstep
          have hkept := installPermissionSignal_kept hinstall
          exact .accepted hphase hfits
            ⟨hkept.snapshot, hkept.sequence, hkept.journal, hkept.sent⟩ hkept.spent
            hkept.unavailable rfl
        · cases hstep
          exact moves_invalidate_same entry
      · cases hstep
        exact .accepted hphase hfits ⟨rfl, rfl, rfl, rfl⟩ rfl id rfl
    · cases hstep
      exact moves_invalidate_same entry
  · cases hstep

theorem definitelyNotCommitted_moves (hstep : entry.definitelyNotCommitted = some later) :
    Moves capacity runId entry later := by
  unfold definitelyNotCommitted at hstep
  split at hstep
  · rename_i next prior hphase
    cases hstep
    exact .released (.inl ⟨next, prior, hphase⟩) ⟨rfl, rfl, rfl, rfl⟩ rfl id rfl
  · cases hstep

theorem indeterminate_moves (hstep : entry.indeterminate = some later) :
    Moves capacity runId entry later := by
  unfold indeterminate at hstep
  split at hstep
  · cases hstep
    exact moves_invalidate entry _
  · cases hstep
    exact moves_invalidate_same entry
  · cases hstep

theorem publishTransition_moves (hstep : entry.publishTransition runId capacity = some later) :
    Moves capacity runId entry later := by
  unfold publishTransition at hstep
  split at hstep
  · rename_i next durable hphase
    split at hstep
    · rename_i hfresh
      exact .published hphase hfresh rfl rfl (Option.some.inj hstep).symm
    · cases hstep
      exact moves_invalidate_same entry
  · cases hstep

theorem settleEvent_kept {settled : AgentRunEntry} {event : AgentEvent}
    (hsettle : entry.settleEvent event = some settled) : entry.Kept settled := by
  unfold settleEvent at hsettle
  split at hsettle
  · exact settlePermission_kept hsettle
  · cases hsettle
    exact .refl entry

theorem finishTransition_moves {order : Nat} (hstep : entry.finishTransition order = some later) :
    Moves capacity runId entry later := by
  unfold finishTransition at hstep
  split at hstep
  · rename_i durable hphase
    split at hstep
    · cases hstep
      exact moves_invalidate_same entry
    · rename_i settled hsettle
      have hkept := settleEvent_kept hsettle
      split at hstep <;> obtain rfl := Option.some.inj hstep <;>
        exact .released (.inr ⟨durable, hphase⟩)
          ⟨hkept.snapshot, hkept.sequence, hkept.journal, hkept.sent⟩ hkept.spent
          hkept.unavailable rfl
  · cases hstep

theorem dropTransition_moves (hstep : entry.dropTransition = some later) :
    Moves capacity runId entry later := by
  unfold dropTransition at hstep
  split at hstep
  · cases hstep
    exact moves_invalidate entry _
  · cases hstep
    exact moves_invalidate_same entry
  · cases hstep

theorem requestCancellation_moves (hstep : entry.requestCancellation = some later) :
    Moves capacity runId entry later := by
  unfold requestCancellation cancelCurrentPermission at hstep
  split at hstep
  · cases hstep
    exact .kept ⟨⟨rfl, rfl, rfl, rfl⟩, rfl, rfl, id⟩
  · cases hstep

theorem installPermissionWaiter_moves
    (hstep : entry.installPermissionWaiter permissionId = some later) :
    Moves capacity runId entry later := by
  unfold installPermissionWaiter at hstep
  split at hstep
  · exact .kept (installPermissionSignal_kept hstep)
  · cases hstep

theorem abandon_moves (hstep : entry.abandon = some later) : Moves capacity runId entry later := by
  unfold abandon at hstep
  split at hstep
  · cases hstep
    exact .kept (entry.invalidateEntry_kept true).1
  · cases hstep

theorem attachTask_moves (hstep : entry.attachTask = some later) :
    Moves capacity runId entry later := by
  unfold attachTask at hstep
  split at hstep
  · cases hstep
    exact .kept ⟨⟨rfl, rfl, rfl, rfl⟩, rfl, rfl, id⟩
  · cases hstep

theorem invalidateUnfinished_kept (entry : AgentRunEntry) :
    entry.Kept entry.invalidateUnfinished := by
  unfold invalidateUnfinished
  split
  · exact (entry.invalidateEntry_kept false).1
  · exact .refl entry

theorem closeTask_kept (entry : AgentRunEntry) : entry.Kept entry.closeTask := by
  unfold closeTask removeEntry
  simp only
  split
  · exact ⟨⟨rfl, rfl, rfl, rfl⟩, rfl, rfl, id⟩
  · exact ⟨⟨rfl, rfl, rfl, rfl⟩, rfl, rfl, id⟩

theorem finishTask_moves (hstep : entry.finishTask = some later) :
    Moves capacity runId entry later := by
  unfold finishTask at hstep
  split at hstep
  · cases hstep
    exact .kept (entry.invalidateUnfinished_kept.trans (closeTask_kept _))
  · cases hstep

theorem evict_moves (hstep : entry.evict = some later) : Moves capacity runId entry later := by
  unfold evict at hstep
  split at hstep
  · cases hstep
    exact .kept ⟨⟨rfl, rfl, rfl, rfl⟩, rfl, rfl, id⟩
  · cases hstep

end Operations

/-! ## The published history -/

/-- What the holder of the mutex relies on. -/
def Holds (entry : AgentRunEntry) : TransitionPhase → Prop
  | .persisting next _ | .committed next _ =>
    next = entry.sequence + 1 ∧ entry.snapshot.status.isTerminal = false
  | .accepted next durable =>
    next = entry.sequence + 1 ∧ entry.snapshot.status.isTerminal = false ∧ Matches durable
  | .published _ => True

/-- The events sent are numbered from one, end with a terminal event if with any,
and the journal keeps the last of them. -/
structure Sound (capacity : Nat) (entry : AgentRunEntry) : Prop where
  numbered : Consecutive 1 (entry.sent.map AgentEventEnvelope.sequence)
  length : entry.sent.length = entry.sequence
  started : 0 < entry.sequence
  journal : entry.journal = entry.sent.drop (entry.sent.length - capacity)
  running : ∀ event ∈ entry.sent.dropLast, event.event.isTerminal = false
  last : ∀ event ∈ entry.sent.getLast?,
    event.event.isTerminal = entry.snapshot.status.isTerminal
  holder : ∀ phase ∈ entry.transition, entry.Holds phase

section Sound

variable {capacity : Nat} {runId : String} {entry later : AgentRunEntry}

theorem SameLog.holds (hsame : entry.SameLog later) {phase : TransitionPhase}
    (hholds : entry.Holds phase) : later.Holds phase := by
  cases phase with
  | published durable => trivial
  | _ => simpa only [Holds, hsame.sequence, hsame.snapshot] using hholds

theorem Sound.sameLog (hsound : entry.Sound capacity) (hsame : entry.SameLog later)
    (hholder : ∀ phase ∈ later.transition, later.Holds phase) : later.Sound capacity where
  numbered := hsame.sent ▸ hsound.numbered
  length := by rw [hsame.sent, hsame.sequence, hsound.length]
  started := hsame.sequence ▸ hsound.started
  journal := by rw [hsame.journal, hsame.sent, hsound.journal]
  running := hsame.sent ▸ hsound.running
  last := by rw [hsame.sent, hsame.snapshot]; exact hsound.last
  holder := hholder

/-- The invariant of an entry, one case for each move. -/
theorem Sound.moves (hcapacity : 0 < capacity) (hsound : entry.Sound capacity)
    (hmoves : Moves capacity runId entry later) : later.Sound capacity := by
  cases hmoves with
  | kept same =>
    refine hsound.sameLog same.toSameLog ?_
    rw [same.transition]
    exact fun phase hphase => same.toSameLog.holds (hsound.holder phase hphase)
  | offered free available live after =>
    subst after
    refine hsound.sameLog ⟨rfl, rfl, rfl, rfl⟩ ?_
    rintro phase ⟨⟩
    exact ⟨rfl, live⟩
  | accepted phase fits same spent unavailable after =>
    refine hsound.sameLog same ?_
    rw [after]
    rintro _ ⟨⟩
    obtain ⟨hnext, hlive⟩ := hsound.holder _ phase
    exact same.holds ⟨hnext, hlive, fits⟩
  | published phase fresh number event after =>
    obtain ⟨_, hlive, hfits⟩ := hsound.holder _ phase
    subst after
    constructor
    · rw [List.map_append, List.map_singleton]
      refine hsound.numbered.append_singleton ?_
      rw [List.length_map, hsound.length, number, ← fresh, Nat.add_comm]
    · rw [List.length_append, hsound.length, List.length_singleton, fresh]
    · rw [← fresh]
      exact Nat.succ_pos _
    · simp only [hsound.journal]
      exact Retained.drop_append hcapacity _ _
    · -- the event that was last belongs to a run that had not ended
      intro other hother
      rw [List.dropLast_concat] at hother
      rcases List.eq_nil_or_concat entry.sent with hnil | ⟨front, final, hsent⟩
      · rw [hnil] at hother
        cases hother
      · have hrunning := hsound.running
        have hlast := hsound.last final (by rw [hsent]; simp)
        rw [hsent, List.concat_eq_append, List.dropLast_concat] at hrunning
        rw [hsent, List.concat_eq_append, List.mem_append, List.mem_singleton] at hother
        rcases hother with hfront | rfl
        · exact hrunning other hfront
        · exact hlast.trans hlive
    · intro other hother
      obtain rfl : _ = other := by simpa using hother
      rw [event]
      exact hfits
    · rintro phase ⟨⟩
      trivial
  | released phase same _ _ after | invalidated same _ after =>
    refine hsound.sameLog same ?_
    rw [after]
    rintro phase ⟨⟩

theorem Sound.commit (hsound : entry.Sound capacity)
    (hcommit : entry.commitTransition = some later) : later.Sound capacity := by
  unfold commitTransition at hcommit
  split at hcommit
  · rename_i next prior hphase
    cases hcommit
    refine hsound.sameLog ⟨rfl, rfl, rfl, rfl⟩ ?_
    rintro phase ⟨⟩
    exact hsound.holder _ hphase
  · cases hcommit

theorem Moves.unavailable (hmoves : Moves capacity runId entry later)
    (hunavailable : entry.unavailable = true) : later.unavailable = true := by
  cases hmoves with
  | kept same => exact same.unavailable hunavailable
  | offered free available live after => exact after ▸ hunavailable
  | accepted phase fits same spent unavailable after => exact unavailable hunavailable
  | published phase fresh number event after => exact after ▸ hunavailable
  | released phase same spent unavailable after => exact unavailable hunavailable
  | invalidated same unavailable after => exact unavailable

/-- What a reader of the published history sees of a step. -/
structure Grows (entry later : AgentRunEntry) : Prop where
  sent : entry.sent <+: later.sent
  terminal : later.snapshot.status.isTerminal = true →
    entry.snapshot.status.isTerminal = true ∨ entry.sent.length < later.sent.length
  final : entry.snapshot.status.isTerminal = true →
    later.sent = entry.sent ∧ later.snapshot = entry.snapshot
  unavailable : entry.unavailable = true → later.unavailable = true

theorem SameLog.grows (hsame : entry.SameLog later)
    (hunavailable : entry.unavailable = true → later.unavailable = true) : entry.Grows later where
  sent := hsame.sent ▸ List.prefix_rfl
  terminal := fun hterminal => .inl (hsame.snapshot ▸ hterminal)
  final := fun _ => ⟨hsame.sent, hsame.snapshot⟩
  unavailable := hunavailable

theorem Grows.refl (entry : AgentRunEntry) : entry.Grows entry := (SameLog.refl entry).grows id

theorem Grows.trans {middle : AgentRunEntry} (hfirst : entry.Grows middle)
    (hsecond : middle.Grows later) : entry.Grows later where
  sent := hfirst.sent.trans hsecond.sent
  terminal := by
    intro hterminal
    have hlength := hfirst.sent.length_le
    have hlength' := hsecond.sent.length_le
    rcases hsecond.terminal hterminal with hmiddle | hmore
    · rcases hfirst.terminal hmiddle with hbefore | hmore
      · exact .inl hbefore
      · exact .inr (by omega)
    · exact .inr (by omega)
  final := by
    intro hterminal
    obtain ⟨hsent, hsnapshot⟩ := hfirst.final hterminal
    obtain ⟨hsent', hsnapshot'⟩ := hsecond.final (by rw [hsnapshot, hterminal])
    exact ⟨hsent'.trans hsent, hsnapshot'.trans hsnapshot⟩
  unavailable := fun hunavailable => hsecond.unavailable (hfirst.unavailable hunavailable)

/-- No move takes anything back that was published. -/
theorem Sound.grows (hsound : entry.Sound capacity) (hmoves : Moves capacity runId entry later) :
    entry.Grows later := by
  have hunavailable := hmoves.unavailable
  cases hmoves with
  | kept same => exact same.toSameLog.grows hunavailable
  | offered free available live after =>
    exact SameLog.grows (by subst after; exact ⟨rfl, rfl, rfl, rfl⟩) hunavailable
  | accepted phase fits same spent unavailable after => exact same.grows hunavailable
  | published phase fresh number event after =>
    obtain ⟨_, hlive, _⟩ := hsound.holder _ phase
    subst after
    constructor
    · exact List.prefix_append _ _
    · intro _
      right
      simp
    · simp [hlive]
    · exact hunavailable
  | released _ same | invalidated same => exact same.grows hunavailable

theorem commitTransition_grows (hcommit : entry.commitTransition = some later) :
    entry.Grows later := by
  unfold commitTransition at hcommit
  split at hcommit
  · cases hcommit
    exact SameLog.grows ⟨rfl, rfl, rfl, rfl⟩ id
  · cases hcommit

end Sound

/-! ## The stored number -/

/-- The number in the store: ahead of the cached one between a commit and its
publication. -/
def storedSequence (entry : AgentRunEntry) : Nat :=
  match entry.transition with
  | some (.committed next _) | some (.accepted next _) => next
  | _ => entry.sequence

/-- The entry and the number stored for its run. -/
structure Stored (durable : Option Nat) (entry : AgentRunEntry) : Prop where
  agrees : entry.unavailable = false → durable = some entry.storedSequence
  /-- Numbers that may be in the store are not above the stored one, until the
  entry is given up. -/
  spent : ∀ number ∈ entry.spent,
    number ≤ entry.storedSequence ∨ (entry.unavailable = true ∧ entry.transition = none)

section Stored

variable {capacity : Nat} {runId : String} {durable : Option Nat} {entry later : AgentRunEntry}

theorem Stored.congr (hstored : entry.Stored durable)
    (hnumber : later.storedSequence = entry.storedSequence) (hspent : later.spent = entry.spent)
    (hunavailable : entry.unavailable = true → later.unavailable = true)
    (hfree : entry.unavailable = true → entry.transition = none → later.transition = none) :
    later.Stored durable := by
  constructor
  · intro havailable
    rw [hnumber]
    apply hstored.agrees
    rw [← Bool.not_eq_true] at havailable ⊢
    exact fun h => havailable (hunavailable h)
  · intro number hmem
    rw [hspent] at hmem
    rw [hnumber]
    rcases hstored.spent number hmem with hle | ⟨hgiven, hnone⟩
    · exact .inl hle
    · exact .inr ⟨hunavailable hgiven, hfree hgiven hnone⟩

/-- Moves of the hub do not change what is stored. -/
theorem Stored.moves (hstored : entry.Stored durable)
    (hmoves : Moves capacity runId entry later) : later.Stored durable := by
  cases hmoves with
  | kept same =>
    refine hstored.congr ?_ same.spent same.unavailable (fun _ hnone => same.transition.trans hnone)
    simp only [storedSequence, same.transition, same.sequence]
  | offered free available live after =>
    subst after
    refine hstored.congr ?_ rfl id ?_
    · simp only [storedSequence, free]
    · simp [available]
  | accepted phase fits same spent unavailable after =>
    refine hstored.congr ?_ spent unavailable ?_
    · simp only [storedSequence, phase, after]
    · simp [phase]
  | published phase fresh number event after =>
    subst after
    refine hstored.congr ?_ rfl id ?_
    · simp only [storedSequence, phase]
    · simp [phase]
  | released phase same spent unavailable after =>
    refine hstored.congr ?_ spent unavailable (fun _ _ => after)
    rcases phase with ⟨next, prior, phase⟩ | ⟨durable, phase⟩ <;>
      simp only [storedSequence, phase, after, same.sequence]
  | invalidated same unavailable after =>
    constructor
    · intro havailable
      rw [unavailable] at havailable
      cases havailable
    · exact fun _ _ => .inr ⟨unavailable, after⟩

/-- A commit stores the number that was offered. -/
theorem Stored.commit (hsound : entry.Sound capacity)
    (hstored : entry.Stored durable) (hphase : entry.transition = some (.persisting next prior))
    (hcommit : entry.commitTransition = some later) : later.Stored (some next) := by
  have hnext := (hsound.holder _ hphase).1
  simp only [commitTransition, hphase, Option.some.injEq] at hcommit
  subst hcommit
  refine ⟨fun _ => rfl, ?_⟩
  intro number hmem
  left
  rcases List.mem_cons.mp hmem with rfl | hold
  · exact le_rfl
  · rcases hstored.spent number hold with hle | ⟨_, hnone⟩
    · simp only [storedSequence, hphase] at hle ⊢
      omega
    · rw [hphase] at hnone
      cases hnone

/-- The number that is offered was not stored before. -/
theorem Stored.fresh (hsound : entry.Sound capacity)
    (hstored : entry.Stored durable) (hphase : entry.transition = some (.persisting next prior)) :
    next ∉ entry.spent := by
  intro hmem
  have hnext := (hsound.holder _ hphase).1
  rcases hstored.spent next hmem with hle | ⟨_, hnone⟩
  · simp only [storedSequence, hphase] at hle
    omega
  · rw [hphase] at hnone
    cases hnone

end Stored

end AgentRunEntry

end Chat2DB.Agent
