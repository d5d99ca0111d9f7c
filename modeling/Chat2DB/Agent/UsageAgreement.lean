import Chat2DB.Agent.RunProgress
import Chat2DB.Storage.RunLifecycle

/-! # The usage of a run

Without a limit, the usage of a run is a sum of maxima. The runner cuts it off where a
number overflows, and the handler stops where the store has no room for it. Within the
limits both have the sum, and a later write of the handler takes nothing back.
-/

namespace Chat2DB.Agent.Durable

open Outcome
open Providers (Usage)
open Storage (AgentRunProgress AgentRunRecord checkedAdd coverageRank)

variable {round report : Usage} {covered : Option Nat}

/-! ## Usage without a limit -/

/-- The greater numbers of two reports of a round. -/
def mergeReport (round report : Usage) : Usage where
  inputTokens := max round.inputTokens report.inputTokens
  outputTokens := max round.outputTokens report.outputTokens
  totalTokens := max (max round.totalTokens report.totalTokens)
    (max round.inputTokens report.inputTokens + max round.outputTokens report.outputTokens)

def addRound (usage round : Usage) : Usage where
  inputTokens := usage.inputTokens + round.inputTokens
  outputTokens := usage.outputTokens + round.outputTokens
  totalTokens := usage.totalTokens + round.totalTokens

def Balanced (usage : Usage) : Prop :=
  usage.inputTokens + usage.outputTokens ≤ usage.totalTokens

theorem balanced_none : Balanced .none := Nat.le_refl 0

theorem balanced_mergeReport (round report : Usage) : Balanced (mergeReport round report) :=
  le_max_right _ _

theorem balanced_addRound {usage : Usage} (husage : Balanced usage) (hround : Balanced round) :
    Balanced (addRound usage round) := by
  simp only [Balanced, addRound] at *
  omega

theorem addRound_none (usage : Usage) : addRound usage .none = usage := rfl

theorem totalTokens_le_mergeReport (round report : Usage) :
    round.totalTokens ≤ (mergeReport round report).totalTokens :=
  (le_max_left _ _).trans (le_max_left _ _)

theorem maxDurableCounter_le : maxDurableCounter + maxDurableCounter ≤ Providers.u64Max := by
  decide

/-- Within the durable limit a report is merged without saturating. -/
theorem merge_eq (hlimit : (mergeReport round report).totalTokens ≤ maxDurableCounter) :
    round.merge report = mergeReport round report := by
  have hmax := maxDurableCounter_le
  have hbalanced := balanced_mergeReport round report
  simp only [Balanced, mergeReport] at hlimit hbalanced
  simp only [Usage.merge, mergeReport, Usage.mk.injEq, true_and]
  omega

/-- Within the durable limit a round is added without saturating. -/
theorem accumulate_eq {usage : Usage} (husage : Balanced usage) (hround : Balanced round)
    (hlimit : (addRound usage round).totalTokens ≤ maxDurableCounter) :
    usage.accumulate round = addRound usage round := by
  have hmax := maxDurableCounter_le
  simp only [Balanced, addRound] at husage hround hlimit
  simp only [Usage.accumulate, addRound, Usage.mk.injEq]
  omega

theorem checkedAdd_of_le {first second : Nat} (hsum : first + second ≤ maxDurableCounter) :
    checkedAdd first second = some (first + second) :=
  if_pos (hsum.trans (by decide))

/-- Usage within the limits is stored as it is. -/
theorem normalizeDurableUsage_of_le {usage : Usage}
    (hsum : usage.inputTokens + usage.outputTokens ≤ maxDurableCounter)
    (htotal : usage.totalTokens ≤ maxDurableCounter) :
    normalizeDurableUsage usage =
      .ok { usage with
        totalTokens := max usage.totalTokens (usage.inputTokens + usage.outputTokens) } := by
  have hroom : ¬ (maxDurableCounter < usage.inputTokens ∨ maxDurableCounter < usage.outputTokens ∨
      maxDurableCounter < usage.totalTokens) := by omega
  rw [normalizeDurableUsage, checkedAdd_of_le hsum, Option.filter_some, if_pos (by simpa using hsum),
    orThrow, ok_bind, (rejectIf_eq_ok _ _ ()).2 hroom]
  rfl

theorem normalizeDurableUsage_of_balanced {usage : Usage} (hbalanced : Balanced usage)
    (htotal : usage.totalTokens ≤ maxDurableCounter) : normalizeDurableUsage usage = .ok usage := by
  rw [normalizeDurableUsage_of_le (hbalanced.trans htotal) htotal, Nat.max_eq_left hbalanced]

/-- The handler adds a round as the runner does. -/
theorem addUsage_of_balanced {usage : Usage} (husage : Balanced usage)
    (hround : Balanced round) (hlimit : (addRound usage round).totalTokens ≤ maxDurableCounter) :
    addUsage usage round = .ok (addRound usage round) := by
  have hbalanced := balanced_addRound husage hround
  have htotal := hbalanced.trans hlimit
  simp only [addRound] at htotal hlimit
  rw [addUsage, checkedAdd_of_le (by omega), checkedAdd_of_le (by omega), checkedAdd_of_le hlimit]
  exact normalizeDurableUsage_of_balanced hbalanced hlimit

/-! ## Limits -/

/-- What the events of a run amount to. -/
structure Tally where
  rounds : Nat
  toolCalls : Nat
  /-- Writes to the row of the run. -/
  persisted : Nat
  completed : Usage
  round : Usage

def Tally.start : Tally where
  rounds := 0
  toolCalls := 0
  persisted := 0
  completed := .none
  round := .none

def Tally.usage (tally : Tally) : Usage := addRound tally.completed tally.round

def Tally.wrote (tally : Tally) : Tally := { tally with persisted := tally.persisted + 1 }

def Tally.step (tally : Tally) : ProgressEvent → Tally
  | .runStarted | .runFailed | .transcriptMessages _ | .runCompleted _ _ => tally
  | .contextCompacted _ | .textDelta _ | .toolCompleted _ => tally.wrote
  | .modelRoundStarted _ => { tally with rounds := tally.rounds + 1 }
  | .usage _ usage => { tally.wrote with round := mergeReport tally.round usage }
  | .modelRoundCompleted _ => { tally with completed := tally.usage, round := .none }
  | .toolStarted _ isWrite =>
    let called := { tally with toolCalls := tally.toolCalls + 1 }
    if isWrite then called else called.wrote
  | .toolFailed _ outcome => if outcome = .unknown then tally else tally.wrote

/-- No counter of the row runs over, up to the event that ends the run. -/
structure Tally.Fits (tally : Tally) : Prop where
  rounds : tally.rounds ≤ maxDurableCounter
  toolCalls : tally.toolCalls ≤ maxDurableCounter
  usage : tally.usage.totalTokens ≤ maxDurableCounter
  persisted : tally.persisted + 2 ≤ maxDurableCounter

/-- Ordinals of messages come from the store, which has room for them. -/
def Storable : ProgressEvent → Prop
  | .contextCompacted (some ordinal) => ordinal ≤ maxDurableCounter
  | _ => True

/-- What fits after an event fitted before it. -/
theorem Tally.Fits.of_step {tally : Tally} {event : ProgressEvent}
    (h : (tally.step event).Fits) : tally.Fits := by
  obtain ⟨hrounds, hcalls, husage, hpersisted⟩ := h
  cases event with
  | usage round report =>
    have hmerge := totalTokens_le_mergeReport tally.round report
    simp only [Tally.step, Tally.wrote, Tally.usage, addRound] at *
    exact ⟨hrounds, hcalls, by simp only [Tally.usage, addRound]; omega, by omega⟩
  | toolStarted round isWrite =>
    cases isWrite with
    | true => exact ⟨hrounds, Nat.le_of_succ_le hcalls, husage, hpersisted⟩
    | false => exact ⟨hrounds, Nat.le_of_succ_le hcalls, husage, Nat.le_of_succ_le hpersisted⟩
  | toolFailed round outcome =>
    simp only [Tally.step] at hrounds hcalls husage hpersisted
    split at hrounds
    next hunknown =>
      simp only [hunknown, if_true] at hcalls husage hpersisted
      exact ⟨hrounds, hcalls, husage, hpersisted⟩
    next hknown =>
      simp only [hknown, if_false] at hcalls husage hpersisted
      exact ⟨hrounds, hcalls, husage, Nat.le_of_succ_le hpersisted⟩
  | modelRoundCompleted round => exact ⟨hrounds, hcalls, husage, hpersisted⟩
  | modelRoundStarted round =>
    exact ⟨Nat.le_of_succ_le hrounds, hcalls, husage, hpersisted⟩
  | runStarted | runFailed | transcriptMessages | runCompleted =>
    exact ⟨hrounds, hcalls, husage, hpersisted⟩
  | contextCompacted | textDelta | toolCompleted =>
    exact ⟨hrounds, hcalls, husage, Nat.le_of_succ_le hpersisted⟩

/-! ## The row of the run -/

/-- What the handler has can be written. -/
structure Writable (state : AgentWorkerState) : Prop where
  modelRounds : state.progress.modelRounds ≤ maxDurableCounter
  toolCalls : state.progress.toolCalls ≤ maxDurableCounter
  totalTokens : state.progress.usage.totalTokens ≤ maxDurableCounter
  balanced : Balanced state.progress.usage

/-- The row is behind the handler, and everything written is behind the row. -/
structure Recorded (persisted : Nat) (handling : Handling) : Prop where
  sequence : handling.record.lastSequence = persisted + 1
  grows : handling.record.toAgentRunProgress.Grows handling.update
  compactionCount : handling.state.compactionCount = handling.record.compactionCount
  coverage : handling.state.compactedThroughOrdinal = handling.record.compactedThroughOrdinal
  compactionCount_le : handling.record.compactionCount ≤ persisted
  together : (handling.record.compactionCount == 0) = handling.record.compactedThroughOrdinal.isNone
  storable : ∀ ordinal ∈ handling.record.compactedThroughOrdinal, ordinal ≤ maxDurableCounter
  behind : ∀ row ∈ handling.written, row.Grows handling.record.toAgentRunProgress
  written_grows : handling.written.Pairwise AgentRunProgress.Grows
  balanced : ∀ row ∈ handling.written, row.inputTokens + row.outputTokens ≤ row.totalTokens

theorem toSqlI64_of_le {value : Nat} {label : String} (h : value ≤ maxDurableCounter) :
    Storage.toSqlI64 value label = .ok () :=
  (rejectIf_eq_ok _ _ ()).2 (Nat.not_lt.2 h)

/-- Progress that the row has room for. -/
structure Valid (progress : AgentRunProgress) : Prop where
  lastSequence_pos : 0 < progress.lastSequence
  lastSequence : progress.lastSequence ≤ maxDurableCounter
  modelRounds : progress.modelRounds ≤ maxDurableCounter
  toolCalls : progress.toolCalls ≤ maxDurableCounter
  totalTokens : progress.totalTokens ≤ maxDurableCounter
  balanced : progress.inputTokens + progress.outputTokens ≤ progress.totalTokens
  compactionCount : progress.compactionCount ≤ maxDurableCounter
  together : (progress.compactionCount == 0) = progress.compactedThroughOrdinal.isNone
  storable : ∀ ordinal ∈ progress.compactedThroughOrdinal, ordinal ≤ maxDurableCounter

namespace Valid

variable {progress : AgentRunProgress}

theorem coverage_ok (h : Valid progress) :
    Storage.optionToSqlI64 progress.compactedThroughOrdinal "compacted message ordinal" = .ok () := by
  rw [Storage.optionToSqlI64, rejectIf_eq_ok]
  rintro ⟨ordinal, hordinal, hlarge⟩
  exact absurd (h.storable ordinal hordinal) (Nat.not_le.2 hlarge)

theorem progressParams_ok (h : Valid progress) : Storage.progressParams progress = .ok () := by
  have htotal := h.totalTokens
  have hbalanced := h.balanced
  rw [Storage.progressParams, toSqlI64_of_le h.lastSequence, toSqlI64_of_le h.modelRounds,
    toSqlI64_of_le h.toolCalls, toSqlI64_of_le (by omega), toSqlI64_of_le (by omega),
    toSqlI64_of_le htotal, toSqlI64_of_le h.compactionCount, h.coverage_ok]
  rfl

/-- Valid progress passes the checks of the store. -/
theorem validateProgressValues_ok (h : Valid progress) :
    Storage.validateProgressValues progress = .ok () := by
  have htotal := h.totalTokens
  have hbalanced := h.balanced
  rw [Storage.validateProgressValues, toSqlI64_of_le h.lastSequence, toSqlI64_of_le h.modelRounds,
    toSqlI64_of_le h.toolCalls, toSqlI64_of_le (by omega), toSqlI64_of_le (by omega),
    toSqlI64_of_le htotal, toSqlI64_of_le h.compactionCount, h.coverage_ok,
    (rejectIf_eq_ok _ _ ()).2 (Nat.ne_of_gt h.lastSequence_pos),
    checkedAdd_of_le (by omega), orThrow]
  simp only [ok_bind]
  rw [(rejectIf_eq_ok _ _ ()).2 (Nat.not_lt.2 hbalanced),
    (rejectIf_eq_ok _ _ ()).2 (not_not.2 h.together)]
  rfl

/-- Progress that grows with a later number is accepted. -/
theorem validateRunProgress_ok {current : AgentRunRecord} (h : Valid progress)
    (hgrows : current.toAgentRunProgress.Grows progress)
    (hsequence : current.lastSequence < progress.lastSequence) :
    Storage.validateRunProgress current progress = .ok () := by
  rw [Storage.validateRunProgress, h.validateProgressValues_ok, ok_bind, rejectIf_eq_ok]
  have hrounds := hgrows.modelRounds
  have hcalls := hgrows.toolCalls
  have hinput := hgrows.inputTokens
  have houtput := hgrows.outputTokens
  have htotal := hgrows.totalTokens
  have hcount := hgrows.compactionCount
  have hcoverage := hgrows.coverage
  omega

end Valid

namespace Recorded

variable {persisted : Nat} {handling : Handling}

theorem start (runId sessionId : String) (mode : Storage.SqlPermissionMode) (timestamp : Int) :
    Recorded 0 (.start (.start runId sessionId mode timestamp)) where
  sequence := rfl
  grows := .of_sequence (Nat.le_succ 1)
  compactionCount := rfl
  coverage := rfl
  compactionCount_le := Nat.le_refl 0
  together := rfl
  storable := by
    intro ordinal hordinal
    cases hordinal
  behind := by
    intro row hrow
    rw [List.mem_singleton.1 hrow]
    exact .refl _
  written_grows := List.pairwise_singleton _ _
  balanced := by
    intro row hrow
    rw [List.mem_singleton.1 hrow]
    exact Nat.le_refl 0

/-- The handler goes on without a write. -/
theorem withState (h : Recorded persisted handling) {state : AgentWorkerState}
    (hrounds : handling.state.progress.modelRounds ≤ state.progress.modelRounds)
    (hcalls : handling.state.progress.toolCalls ≤ state.progress.toolCalls)
    (hinput : handling.state.progress.usage.inputTokens ≤ state.progress.usage.inputTokens)
    (houtput : handling.state.progress.usage.outputTokens ≤ state.progress.usage.outputTokens)
    (htotal : handling.state.progress.usage.totalTokens ≤ state.progress.usage.totalTokens)
    (hcount : state.compactionCount = handling.state.compactionCount)
    (hcoverage : state.compactedThroughOrdinal = handling.state.compactedThroughOrdinal) :
    Recorded persisted { handling with state } where
  sequence := h.sequence
  grows :=
    { lastSequence := h.grows.lastSequence
      modelRounds := h.grows.modelRounds.trans hrounds
      toolCalls := h.grows.toolCalls.trans hcalls
      inputTokens := h.grows.inputTokens.trans hinput
      outputTokens := h.grows.outputTokens.trans houtput
      totalTokens := h.grows.totalTokens.trans htotal
      compactionCount := h.grows.compactionCount.trans (Nat.le_of_eq hcount.symm)
      coverage := h.grows.coverage.trans (Nat.le_of_eq (congrArg coverageRank hcoverage.symm)) }
  compactionCount := hcount.trans h.compactionCount
  coverage := hcoverage.trans h.coverage
  compactionCount_le := h.compactionCount_le
  together := h.together
  storable := h.storable
  behind := h.behind
  written_grows := h.written_grows
  balanced := h.balanced

/-- What the handler writes is valid progress. -/
theorem valid_update (h : Recorded persisted handling) (hstate : Writable handling.state)
    (hroom : persisted + 2 ≤ maxDurableCounter) : Valid handling.update where
  lastSequence_pos := Nat.succ_pos _
  lastSequence := by
    show handling.record.lastSequence + 1 ≤ _
    rw [h.sequence]
    exact hroom
  modelRounds := hstate.modelRounds
  toolCalls := hstate.toolCalls
  totalTokens := hstate.totalTokens
  balanced := hstate.balanced
  compactionCount := by
    show handling.state.compactionCount ≤ _
    have hcount := h.compactionCount_le
    rw [h.compactionCount]
    omega
  together := by
    show (handling.state.compactionCount == 0) = handling.state.compactedThroughOrdinal.isNone
    rw [h.compactionCount, h.coverage, h.together]
  storable := by
    show ∀ ordinal ∈ handling.state.compactedThroughOrdinal, ordinal ≤ maxDurableCounter
    rw [h.coverage]
    exact h.storable

/-- A row that goes on from the one before. -/
theorem wrote (h : Recorded persisted handling) {progress : AgentRunProgress}
    {state : AgentWorkerState} (hvalid : Valid progress)
    (hgrows : handling.record.toAgentRunProgress.Grows progress)
    (hsequence : progress.lastSequence = persisted + 2)
    (hcount : progress.compactionCount ≤ persisted + 1)
    (hstate : ({ handling.wrote { handling.record with toAgentRunProgress := progress } with
      state } : Handling).update = { progress with lastSequence := persisted + 3 }) :
    Recorded (persisted + 1)
      { handling.wrote { handling.record with toAgentRunProgress := progress } with state } where
  sequence := hsequence
  grows := by
    rw [hstate]
    apply AgentRunProgress.Grows.of_sequence
    show progress.lastSequence ≤ _
    omega
  compactionCount := congrArg AgentRunProgress.compactionCount hstate
  coverage := congrArg AgentRunProgress.compactedThroughOrdinal hstate
  compactionCount_le := hcount
  together := hvalid.together
  storable := hvalid.storable
  behind := by
    intro row hrow
    rcases List.mem_append.1 hrow with hrow | hrow
    · exact (h.behind row hrow).trans hgrows
    · rw [List.mem_singleton.1 hrow]
      exact .refl _
  written_grows := by
    refine List.pairwise_append.2 ⟨h.written_grows, List.pairwise_singleton _ _, ?_⟩
    intro row hrow last hlast
    rw [List.mem_singleton.1 hlast]
    exact (h.behind row hrow).trans hgrows
  balanced := by
    intro row hrow
    rcases List.mem_append.1 hrow with hrow | hrow
    · exact h.balanced row hrow
    · rw [List.mem_singleton.1 hrow]
      exact hvalid.balanced

/-- The store accepts what the handler writes. -/
theorem writeProgress_ok (h : Recorded persisted handling) (hstate : Writable handling.state)
    (hroom : persisted + 2 ≤ maxDurableCounter) :
    writeProgress handling.record handling.update =
      .ok { handling.record with toAgentRunProgress := handling.update } := by
  have hvalid := h.valid_update hstate hroom
  have hsame : ¬ (handling.update.compactionCount ≠ handling.record.compactionCount ∨
      handling.update.compactedThroughOrdinal ≠ handling.record.compactedThroughOrdinal) := by
    rw [not_or, not_not, not_not]
    exact ⟨h.compactionCount, h.coverage⟩
  rw [writeProgress, hvalid.validateProgressValues_ok, Storage.validateCompactionUnchanged,
    (rejectIf_eq_ok _ _ ()).2 hsame, hvalid.validateRunProgress_ok h.grows (Nat.lt_succ_self _),
    hvalid.progressParams_ok]
  rfl

/-- An event of a running run is persisted under the next number. -/
theorem persistRunningEvent (h : Recorded persisted handling) (hstate : Writable handling.state)
    (hroom : persisted + 2 ≤ maxDurableCounter) :
    ∃ next, handling.persistRunningEvent = .ok next ∧ next.state = handling.state ∧
      Recorded (persisted + 1) next := by
  have hsequence : handling.update.lastSequence = persisted + 2 := by
    show handling.record.lastSequence + 1 = _
    rw [h.sequence]
  have hcount : handling.update.compactionCount ≤ persisted + 1 := by
    show handling.state.compactionCount ≤ _
    rw [h.compactionCount]
    exact h.compactionCount_le.trans (Nat.le_succ _)
  refine ⟨handling.wrote { handling.record with toAgentRunProgress := handling.update }, ?_, rfl, ?_⟩
  · rw [Handling.persistRunningEvent, h.writeProgress_ok hstate hroom]
    rfl
  · apply @Recorded.wrote persisted handling h handling.update handling.state
      (h.valid_update hstate hroom) h.grows hsequence hcount
    show ({ handling.update with lastSequence := handling.update.lastSequence + 1 } :
      AgentRunProgress) = _
    rw [hsequence]

/-- The row after a compaction. -/
def compactedProgress (handling : Handling) (ordinal : Nat) : AgentRunProgress where
  toAgentRunCounters := handling.counters
  compactionCount := handling.record.compactionCount + 1
  compactedThroughOrdinal := some ordinal

theorem valid_compactedProgress (h : Recorded persisted handling)
    (hstate : Writable handling.state) (hroom : persisted + 2 ≤ maxDurableCounter) {ordinal : Nat}
    (hordinal : ordinal ≤ maxDurableCounter) : Valid (compactedProgress handling ordinal) where
  lastSequence_pos := Nat.succ_pos _
  lastSequence := (h.valid_update hstate hroom).lastSequence
  modelRounds := hstate.modelRounds
  toolCalls := hstate.toolCalls
  totalTokens := hstate.totalTokens
  balanced := hstate.balanced
  compactionCount := by
    show handling.record.compactionCount + 1 ≤ _
    have hcount := h.compactionCount_le
    omega
  together := rfl
  storable := by
    intro stored hstored
    rwa [← Option.some.inj hstored]

/-- A compaction that covers more is progress. -/
theorem grows_compactedProgress (h : Recorded persisted handling)
    {ordinal : Nat} (hadvances : ¬ sessionCovers covered handling.record ordinal = true) :
    handling.record.toAgentRunProgress.Grows (compactedProgress handling ordinal) where
  lastSequence := h.grows.lastSequence
  modelRounds := h.grows.modelRounds
  toolCalls := h.grows.toolCalls
  inputTokens := h.grows.inputTokens
  outputTokens := h.grows.outputTokens
  totalTokens := h.grows.totalTokens
  compactionCount := Nat.le_succ _
  coverage := by
    rw [sessionCovers, Bool.or_eq_true, not_or] at hadvances
    have hrow := hadvances.2
    show coverageRank handling.record.compactedThroughOrdinal ≤ ordinal + 1
    cases hcoverage : handling.record.compactedThroughOrdinal with
    | none => exact Nat.zero_le _
    | some recorded =>
      simp only [hcoverage, Option.any_some, decide_eq_true_eq, Nat.not_le] at hrow
      exact Nat.succ_le_succ (Nat.le_of_lt hrow)

/-- A compaction is written unless the session is compacted as far already. -/
theorem processCompaction (h : Recorded persisted handling) (hstate : Writable handling.state)
    (hroom : persisted + 2 ≤ maxDurableCounter) {coverage : Option Nat}
    (hstorable : Storable (.contextCompacted coverage)) :
    (∃ ordinal, coverage = some ordinal) ∧
        handling.processRunEvent covered (.contextCompacted coverage) =
          .error (.storage coverageNotAdvancing) ∨
      ∃ state next, handling.processRunEvent covered (.contextCompacted coverage) = .ok next ∧
        next.state = state ∧ Recorded (persisted + 1) next ∧
        state.progress = handling.state.progress ∧
        state.completedUsage = handling.state.completedUsage ∧
        state.roundUsage = handling.state.roundUsage ∧
        state.activeRound = handling.state.activeRound := by
  have hnext : checkedAdd handling.record.lastSequence 1 = some handling.counters.lastSequence := by
    apply checkedAdd_of_le
    rw [h.sequence]
    exact hroom
  have hsequence : handling.counters.lastSequence = persisted + 2 := by
    show handling.record.lastSequence + 1 = _
    rw [h.sequence]
  cases coverage with
  | none =>
    right
    obtain ⟨next, hwritten, hsame, hrecorded⟩ := h.persistRunningEvent hstate hroom
    have hvalid := h.valid_update hstate hroom
    have hupdate : ({ toAgentRunCounters := handling.counters
                      compactionCount := handling.record.compactionCount
                      compactedThroughOrdinal := handling.record.compactedThroughOrdinal } :
        AgentRunProgress) = handling.update := by
      rw [Handling.update, h.compactionCount, h.coverage]
    have hcompaction : handling.persistContextCompaction covered none = .ok next := by
      rw [← hwritten, Handling.persistContextCompaction, Handling.persistRunningEvent,
        h.writeProgress_ok hstate hroom, writeCompaction, (rejectIf_eq_ok _ _ ()).2 (not_not.2 hnext)]
      simp only [ok_bind]
      rw [hupdate, hvalid.validateRunProgress_ok h.grows (Nat.lt_succ_self _),
        hvalid.progressParams_ok]
      rfl
    refine ⟨next.state, next, ?_, rfl, hrecorded, ?_⟩
    · rw [Handling.processRunEvent, hcompaction]
      rfl
    · rw [hsame]
      exact ⟨rfl, rfl, rfl, rfl⟩
  | some ordinal =>
    by_cases hcovers : sessionCovers covered handling.record ordinal = true
    · refine .inl ⟨⟨ordinal, rfl⟩, ?_⟩
      rw [Handling.processRunEvent, Handling.persistContextCompaction, writeCompaction,
        (rejectIf_eq_ok _ _ ()).2 (not_not.2 hnext)]
      simp only [ok_bind]
      rw [rejectIf, if_pos hcovers]
      rfl
    · right
      have hvalid := h.valid_compactedProgress hstate hroom hstorable
      have hgrows := h.grows_compactedProgress hcovers
      have hcount : handling.record.compactionCount + 1 ≤ maxDurableCounter := by
        have hle := h.compactionCount_le
        omega
      let state : AgentWorkerState := { handling.state with
        compactionCount := handling.record.compactionCount + 1
        compactedThroughOrdinal := some ordinal }
      have hcompaction : handling.persistContextCompaction covered (some ordinal) =
          .ok (handling.wrote { handling.record with
            toAgentRunProgress := compactedProgress handling ordinal }) := by
        rw [Handling.persistContextCompaction, writeCompaction,
          (rejectIf_eq_ok _ _ ()).2 (not_not.2 hnext)]
        simp only [ok_bind]
        rw [(rejectIf_eq_ok _ _ ()).2 hcovers, checkedAdd_of_le hcount, orThrow]
        simp only [ok_bind, pure_bind]
        rw [show ({ toAgentRunCounters := handling.counters
                    compactionCount := handling.record.compactionCount + 1
                    compactedThroughOrdinal := some ordinal } : AgentRunProgress) =
          compactedProgress handling ordinal from rfl,
          hvalid.validateRunProgress_ok hgrows (Nat.lt_succ_self _), hvalid.progressParams_ok]
        rfl
      have hcompacted : Handling.compacted handling.state (some ordinal) = .ok state := by
        rw [Handling.compacted, h.compactionCount, checkedAdd_of_le hcount]
        rfl
      refine ⟨state, { handling.wrote { handling.record with
        toAgentRunProgress := compactedProgress handling ordinal } with state }, ?_, rfl, ?_,
        rfl, rfl, rfl, rfl⟩
      · rw [Handling.processRunEvent, hcompaction, ok_bind]
        show Handling.withState _ (Handling.compacted handling.state (some ordinal)) = _
        rw [hcompacted]
        rfl
      · apply @Recorded.wrote persisted handling h (compactedProgress handling ordinal) state
          hvalid hgrows hsequence (Nat.succ_le_succ h.compactionCount_le)
        show ({ compactedProgress handling ordinal with
          lastSequence := handling.counters.lastSequence + 1 } : AgentRunProgress) = _
        rw [hsequence]

end Recorded

/-! ## The runner and the handler -/

/-- The runner and the handler have what the events amount to. -/
structure Counted (runner : RunnerState) (tally : Tally) (state : AgentWorkerState) : Prop where
  round_eq : runner.round = tally.rounds
  totalToolCalls : runner.totalToolCalls = tally.toolCalls
  totalUsage : runner.totalUsage = tally.completed
  toolCalls : state.progress.toolCalls = tally.toolCalls
  modelRounds_le : state.progress.modelRounds ≤ tally.rounds
  completedUsage : state.completedUsage = tally.completed
  roundUsage : state.roundUsage = tally.round
  usage : state.progress.usage = tally.usage
  balancedCompleted : Balanced tally.completed
  balancedRound : Balanced tally.round
  streaming : runner.phase = .streaming →
    state.activeRound = some runner.round ∧ state.progress.modelRounds + 1 = runner.round ∧
      runner.roundUsage = tally.round
  idle : runner.phase ≠ .streaming → runner.phase ≠ .failed →
    state.activeRound = none ∧ state.progress.modelRounds = runner.round ∧ tally.round = .none

namespace Counted

variable {runner next : RunnerState} {tally : Tally} {state : AgentWorkerState}

theorem start (runId sessionId : String) (mode : Storage.SqlPermissionMode) (timestamp : Int) :
    Counted .start .start (.fromRun (.start runId sessionId mode timestamp)) where
  round_eq := rfl
  totalToolCalls := rfl
  totalUsage := rfl
  toolCalls := rfl
  modelRounds_le := Nat.le_refl 0
  completedUsage := rfl
  roundUsage := rfl
  usage := rfl
  balancedCompleted := balanced_none
  balancedRound := balanced_none
  streaming := by
    intro hphase
    cases hphase
  idle := fun _ _ => ⟨rfl, rfl, rfl⟩

/-- While the counts fit, the handler's state can be written. -/
theorem writable (h : Counted runner tally state) (hfits : tally.Fits) : Writable state where
  modelRounds := h.modelRounds_le.trans hfits.rounds
  toolCalls := by
    rw [h.toolCalls]
    exact hfits.toolCalls
  totalTokens := by
    rw [h.usage]
    exact hfits.usage
  balanced := by
    rw [h.usage]
    exact balanced_addRound h.balancedCompleted h.balancedRound

theorem wrote (h : Counted runner tally state) {later : AgentWorkerState}
    (hprogress : later.progress = state.progress)
    (hcompleted : later.completedUsage = state.completedUsage)
    (hround : later.roundUsage = state.roundUsage)
    (hactive : later.activeRound = state.activeRound) : Counted runner tally.wrote later where
  round_eq := h.round_eq
  totalToolCalls := h.totalToolCalls
  totalUsage := h.totalUsage
  toolCalls := (congrArg RunProgress.toolCalls hprogress).trans h.toolCalls
  modelRounds_le := by
    rw [hprogress]
    exact h.modelRounds_le
  completedUsage := hcompleted.trans h.completedUsage
  roundUsage := hround.trans h.roundUsage
  usage := (congrArg RunProgress.usage hprogress).trans h.usage
  balancedCompleted := h.balancedCompleted
  balancedRound := h.balancedRound
  streaming := by
    rw [hprogress, hactive]
    exact h.streaming
  idle := by
    rw [hprogress, hactive]
    exact h.idle

theorem moved (h : Counted runner tally state) {phase : RunnerPhase}
    (hfrom : phase ≠ .failed → runner.phase ≠ .streaming ∧ runner.phase ≠ .failed)
    (hto : phase ≠ .streaming) : Counted { runner with phase } tally state where
  round_eq := h.round_eq
  totalToolCalls := h.totalToolCalls
  totalUsage := h.totalUsage
  toolCalls := h.toolCalls
  modelRounds_le := h.modelRounds_le
  completedUsage := h.completedUsage
  roundUsage := h.roundUsage
  usage := h.usage
  balancedCompleted := h.balancedCompleted
  balancedRound := h.balancedRound
  streaming := fun hphase => absurd hphase hto
  idle := fun _ hfailed => h.idle (hfrom hfailed).1 (hfrom hfailed).2

/-- The handler starts the round that the runner started. -/
theorem startRound (h : Counted runner tally state) (hphase : runner.phase = .between)
    (hfits : (tally.step (.modelRoundStarted (runner.round + 1))).Fits) :
    ∃ later, state.startRound (runner.round + 1) = .ok later ∧
      later.progress = state.progress ∧ later.compactionCount = state.compactionCount ∧
      later.compactedThroughOrdinal = state.compactedThroughOrdinal ∧
      Counted { runner with phase := .streaming, round := runner.round + 1, roundUsage := .none }
        (tally.step (.modelRoundStarted (runner.round + 1))) later := by
  obtain ⟨hactive, hrounds, hnone⟩ := h.idle (by simp [hphase]) (by simp [hphase])
  have hroom : runner.round + 1 ≤ maxDurableCounter := by
    rw [h.round_eq]
    exact hfits.rounds
  have hincrement : durableIncrement state.progress.modelRounds = .ok (runner.round + 1) := by
    rw [durableIncrement, hrounds, checkedAdd_of_le hroom, Option.filter_some,
      if_pos (by simpa using hroom)]
    rfl
  refine ⟨{ state with activeRound := some (runner.round + 1), roundUsage := .none }, ?_, rfl, rfl,
    rfl, ?_⟩
  · rw [AgentWorkerState.startRound, durableCount, (rejectIf_eq_ok _ _ ()).2 (Nat.not_lt.2 hroom),
      hincrement]
    simp only [ok_bind, pure_bind]
    rw [(rejectIf_eq_ok _ _ ()).2 (by simp [hactive])]
    rfl
  · constructor
    · exact congrArg (· + 1) h.round_eq
    · exact h.totalToolCalls
    · exact h.totalUsage
    · exact h.toolCalls
    · exact h.modelRounds_le.trans (Nat.le_succ _)
    · exact h.completedUsage
    · exact hnone.symm
    · exact h.usage
    · exact h.balancedCompleted
    · exact h.balancedRound
    · exact fun _ => ⟨rfl, congrArg (· + 1) hrounds, hnone.symm⟩
    · exact fun hnot => absurd rfl hnot

/-- The handler merges a report as the runner does. -/
theorem mergeUsage (h : Counted runner tally state) (hphase : runner.phase = .streaming)
    (hfits : (tally.step (.usage runner.round report)).Fits) :
    ∃ later, state.mergeUsage runner.round report = .ok later ∧
      later = { state with
        roundUsage := mergeReport tally.round report
        progress := { state.progress with
          usage := addRound tally.completed (mergeReport tally.round report) } } ∧
      Counted { runner with roundUsage := runner.roundUsage.merge report }
        (tally.step (.usage runner.round report)) later := by
  obtain ⟨hactive, hrounds, hround⟩ := h.streaming hphase
  have hbalanced := balanced_mergeReport tally.round report
  have husage : (addRound tally.completed (mergeReport tally.round report)).totalTokens ≤
      maxDurableCounter := hfits.usage
  have hmerged : (mergeReport tally.round report).totalTokens ≤ maxDurableCounter :=
    (Nat.le_add_left _ _).trans husage
  have hnormalized : normalizeDurableUsage
      { inputTokens := max state.roundUsage.inputTokens report.inputTokens
        outputTokens := max state.roundUsage.outputTokens report.outputTokens
        totalTokens := max state.roundUsage.totalTokens report.totalTokens } =
      .ok (mergeReport tally.round report) := by
    rw [h.roundUsage]
    exact normalizeDurableUsage_of_le (hbalanced.trans hmerged) ((le_max_left _ _).trans hmerged)
  refine ⟨_, ?_, rfl, ?_⟩
  · rw [AgentWorkerState.mergeUsage, AgentWorkerState.requireActiveRound,
      (rejectIf_eq_ok _ _ ()).2 (by simp [hactive]), hnormalized]
    simp only [ok_bind]
    rw [h.completedUsage, addUsage_of_balanced h.balancedCompleted hbalanced husage]
    rfl
  · constructor
    · exact h.round_eq
    · exact h.totalToolCalls
    · exact h.totalUsage
    · exact h.toolCalls
    · exact h.modelRounds_le
    · exact h.completedUsage
    · rfl
    · rfl
    · exact h.balancedCompleted
    · exact hbalanced
    · refine fun _ => ⟨hactive, hrounds, ?_⟩
      show runner.roundUsage.merge report = mergeReport tally.round report
      rw [hround, merge_eq hmerged]
    · exact fun hnot => absurd hphase hnot

/-- The handler closes a round with the usage that the runner has for it. -/
theorem completeRound (h : Counted runner tally state) (hphase : runner.phase = .streaming)
    (hfits : tally.Fits) :
    ∃ later, state.completeRound runner.round = .ok later ∧
      later = { state with
        progress := { state.progress with modelRounds := runner.round }
        completedUsage := state.progress.usage
        roundUsage := .none
        activeRound := none } ∧
      Counted { runner with
          phase := .calling
          totalUsage := runner.totalUsage.accumulate runner.roundUsage }
        (tally.step (.modelRoundCompleted runner.round)) later := by
  obtain ⟨hactive, hrounds, hround⟩ := h.streaming hphase
  have hroom : runner.round ≤ maxDurableCounter := by
    rw [h.round_eq]
    exact hfits.rounds
  refine ⟨_, ?_, rfl, ?_⟩
  · rw [AgentWorkerState.completeRound, AgentWorkerState.requireActiveRound,
      (rejectIf_eq_ok _ _ ()).2 (by simp [hactive]), durableCount,
      (rejectIf_eq_ok _ _ ()).2 (Nat.not_lt.2 hroom)]
    rfl
  · constructor
    · exact h.round_eq
    · exact h.totalToolCalls
    · show runner.totalUsage.accumulate runner.roundUsage = tally.usage
      rw [h.totalUsage, hround]
      exact accumulate_eq h.balancedCompleted h.balancedRound hfits.usage
    · exact h.toolCalls
    · exact Nat.le_of_eq h.round_eq
    · exact h.usage
    · rfl
    · exact h.usage
    · exact balanced_addRound h.balancedCompleted h.balancedRound
    · exact balanced_none
    · intro hcalling
      cases hcalling
    · exact fun _ _ => ⟨rfl, rfl, rfl⟩

/-- The handler counts a tool call that the runner made. -/
theorem startToolCall (h : Counted runner tally state)
    (hphase : runner.phase ≠ .streaming ∧ runner.phase ≠ .failed)
    (hroom : tally.toolCalls + 1 ≤ maxDurableCounter) :
    ∃ later, state.startToolCall runner.round = .ok later ∧
      later = { state with
        progress := { state.progress with toolCalls := tally.toolCalls + 1 } } ∧
      Counted { runner with
          phase := .toolRunning
          totalToolCalls := runner.totalToolCalls + 1 }
        { tally with toolCalls := tally.toolCalls + 1 } later := by
  obtain ⟨hactive, hrounds, hnone⟩ := h.idle hphase.1 hphase.2
  have hincrement : durableIncrement state.progress.toolCalls = .ok (tally.toolCalls + 1) := by
    rw [durableIncrement, h.toolCalls, checkedAdd_of_le hroom, Option.filter_some,
      if_pos (by simpa using hroom)]
    rfl
  refine ⟨_, ?_, rfl, ?_⟩
  · rw [AgentWorkerState.startToolCall, AgentWorkerState.requireCompletedRound,
      (rejectIf_eq_ok _ _ ()).2 (by simp [hactive, hrounds]), hincrement]
    rfl
  · constructor
    · exact h.round_eq
    · exact congrArg (· + 1) h.totalToolCalls
    · exact h.totalUsage
    · rfl
    · exact h.modelRounds_le
    · exact h.completedUsage
    · exact h.roundUsage
    · exact h.usage
    · exact h.balancedCompleted
    · exact h.balancedRound
    · intro hrunning
      cases hrunning
    · exact fun _ _ => ⟨hactive, hrounds, hnone⟩

end Counted

/-! ## Runs -/

/-- The runner, the handler and the row go together. -/
structure Together (runner : RunnerState) (tally : Tally) (handling : Handling) : Prop where
  counted : Counted runner tally handling.state
  recorded : Recorded tally.persisted handling

namespace Together

variable {runner next : RunnerState} {tally : Tally} {handling : Handling}

theorem persist (h : Together runner tally handling) (hfits : tally.Fits) :
    ∃ later, handling.persistRunningEvent = .ok later ∧ Together runner tally.wrote later := by
  obtain ⟨later, hlater, hstate, hrecorded⟩ :=
    h.recorded.persistRunningEvent (h.counted.writable hfits) hfits.persisted
  refine ⟨later, hlater, ?_, hrecorded⟩
  rw [hstate]
  exact h.counted.wrote rfl rfl rfl rfl

theorem moved (h : Together runner tally handling) {phase : RunnerPhase}
    (hfrom : phase ≠ .failed → runner.phase ≠ .streaming ∧ runner.phase ≠ .failed)
    (hto : phase ≠ .streaming) : Together { runner with phase } tally handling :=
  ⟨h.counted.moved hfrom hto, h.recorded⟩

theorem process_text (h : Together runner tally handling)
    (hphase : runner.phase = .streaming) (hfits : tally.Fits) :
    ∃ later, handling.processRunEvent covered (.textDelta runner.round) = .ok later ∧
      Together runner tally.wrote later := by
  obtain ⟨hactive, -, -⟩ := h.counted.streaming hphase
  rw [Handling.processRunEvent, Handling.require, AgentWorkerState.requireActiveRound,
    (rejectIf_eq_ok _ _ ()).2 (by simp [hactive])]
  exact h.persist hfits

/-- A usage event keeps runner, store and handler together. -/
theorem process_usage (h : Together runner tally handling)
    (hphase : runner.phase = .streaming) (hfits : (tally.step (.usage runner.round report)).Fits) :
    ∃ later, handling.processRunEvent covered (.usage runner.round report) = .ok later ∧
      Together { runner with roundUsage := runner.roundUsage.merge report }
        (tally.step (.usage runner.round report)) later := by
  obtain ⟨state, hmerge, hstate, hcounted⟩ := h.counted.mergeUsage hphase hfits
  have hgrows := totalTokens_le_mergeReport tally.round report
  have hrecorded : Recorded tally.persisted { handling with state } := by
    subst hstate
    refine h.recorded.withState (Nat.le_refl _) (Nat.le_refl _) ?_ ?_ ?_ rfl rfl
    · rw [h.counted.usage]
      exact Nat.add_le_add_left (le_max_left _ _) _
    · rw [h.counted.usage]
      exact Nat.add_le_add_left (le_max_left _ _) _
    · rw [h.counted.usage]
      exact Nat.add_le_add_left hgrows _
  obtain ⟨later, hlater, hsame, hwritten⟩ := hrecorded.persistRunningEvent
    (hcounted.writable hfits) (Nat.le_of_succ_le hfits.persisted)
  rw [Handling.processRunEvent, hmerge]
  refine ⟨later, hlater, ?_, hwritten⟩
  rw [hsame]
  exact hcounted

/-- A tool event keeps runner, store and handler together. -/
theorem process_tool (h : Together runner tally handling) {isWrite : Bool}
    (hphase : runner.phase ≠ .streaming ∧ runner.phase ≠ .failed)
    (hfits : (tally.step (.toolStarted runner.round isWrite)).Fits) :
    ∃ later, handling.processRunEvent covered (.toolStarted runner.round isWrite) = .ok later ∧
      Together { runner with phase := .toolRunning, totalToolCalls := runner.totalToolCalls + 1 }
        (tally.step (.toolStarted runner.round isWrite)) later := by
  have hroom : tally.toolCalls + 1 ≤ maxDurableCounter := by
    have hcalls := hfits.toolCalls
    cases isWrite <;> exact hcalls
  obtain ⟨state, hcall, hstate, hcounted⟩ := h.counted.startToolCall hphase hroom
  have hrecorded : Recorded tally.persisted { handling with state } := by
    subst hstate
    refine h.recorded.withState (Nat.le_refl _) ?_ (Nat.le_refl _) (Nat.le_refl _) (Nat.le_refl _)
      rfl rfl
    rw [h.counted.toolCalls]
    exact Nat.le_succ _
  have hcalled : Together
      { runner with phase := .toolRunning, totalToolCalls := runner.totalToolCalls + 1 }
      { tally with toolCalls := tally.toolCalls + 1 } { handling with state } :=
    ⟨hcounted, hrecorded⟩
  rw [Handling.processRunEvent, hcall]
  cases isWrite with
  | true => exact ⟨_, rfl, hcalled⟩
  | false =>
    exact hcalled.persist
      ⟨hfits.rounds, hfits.toolCalls, hfits.usage, Nat.le_of_succ_le hfits.persisted⟩

/-- What the runner sends is handled, unless a compaction comes too late. -/
theorem step (h : Together runner tally handling) {covered : Option Nat} {event : ProgressEvent}
    (hemit : runner.emit event = some next) (hfits : (tally.step event).Fits)
    (hstorable : Storable event) :
    (∃ ordinal, event = .contextCompacted (some ordinal)) ∧
        handling.processRunEvent covered event = .error (.storage coverageNotAdvancing) ∨
      ∃ later, handling.processRunEvent covered event = .ok later ∧
        Together next (tally.step event) later := by
  have hbefore := hfits.of_step
  -- the guard of `emit` tells the phase in which the event can come
  cases event with
  | runStarted =>
    obtain ⟨hphase, hnext⟩ := Option.ite_none_right_eq_some.1 hemit
    cases hnext
    exact .inr ⟨handling, rfl, h.moved (by simp [hphase]) (by simp)⟩
  | runFailed =>
    obtain ⟨-, hnext⟩ := Option.ite_none_left_eq_some.1 hemit
    cases hnext
    exact .inr ⟨handling, rfl, h.moved (by simp) (by simp)⟩
  | contextCompacted coverage =>
    obtain ⟨-, hnext⟩ := Option.ite_none_right_eq_some.1 hemit
    cases hnext
    rcases h.recorded.processCompaction (h.counted.writable hbefore) hbefore.persisted hstorable
      with ⟨⟨ordinal, rfl⟩, hlate⟩ |
        ⟨state, later, hlater, rfl, hrecorded, hprogress, hcompleted, hround, hactive⟩
    · exact .inl ⟨⟨ordinal, rfl⟩, hlate⟩
    · exact .inr ⟨later, hlater, h.counted.wrote hprogress hcompleted hround hactive, hrecorded⟩
  | modelRoundStarted round =>
    obtain ⟨⟨hphase, rfl⟩, hnext⟩ := Option.ite_none_right_eq_some.1 hemit
    cases hnext
    obtain ⟨state, hstart, hprogress, hcount, hcoverage, hcounted⟩ :=
      h.counted.startRound hphase hfits
    refine .inr ⟨{ handling with state }, ?_, hcounted, ?_⟩
    · rw [Handling.processRunEvent, hstart]
      rfl
    · refine h.recorded.withState ?_ ?_ ?_ ?_ ?_ hcount hcoverage <;> rw [hprogress]
  | textDelta round =>
    obtain ⟨⟨hphase, rfl⟩, hnext⟩ := Option.ite_none_right_eq_some.1 hemit
    cases hnext
    exact .inr (h.process_text hphase hbefore)
  | usage round report =>
    obtain ⟨⟨hphase, rfl⟩, hnext⟩ := Option.ite_none_right_eq_some.1 hemit
    cases hnext
    exact .inr (h.process_usage hphase hfits)
  | modelRoundCompleted round =>
    obtain ⟨⟨hphase, rfl⟩, hnext⟩ := Option.ite_none_right_eq_some.1 hemit
    cases hnext
    obtain ⟨state, hcomplete, hstate, hcounted⟩ := h.counted.completeRound hphase hbefore
    refine .inr ⟨{ handling with state }, ?_, hcounted, ?_⟩
    · rw [Handling.processRunEvent, hcomplete]
      rfl
    · subst hstate
      refine h.recorded.withState ?_ (Nat.le_refl _) (Nat.le_refl _) (Nat.le_refl _)
        (Nat.le_refl _) rfl rfl
      rw [h.counted.round_eq]
      exact h.counted.modelRounds_le
  | toolStarted round isWrite =>
    obtain ⟨⟨hphase, rfl⟩, hnext⟩ := Option.ite_none_right_eq_some.1 hemit
    cases hnext
    refine .inr (h.process_tool ?_ hfits)
    rcases hphase with hphase | hphase <;> simp [hphase]
  | toolCompleted round =>
    obtain ⟨⟨hphase, rfl⟩, hnext⟩ := Option.ite_none_right_eq_some.1 hemit
    cases hnext
    obtain ⟨hactive, hrounds, -⟩ := h.counted.idle (by simp [hphase]) (by simp [hphase])
    have hsettled : Together { runner with phase := .toolSettled } tally handling :=
      h.moved (by simp [hphase]) (by simp)
    right
    rw [Handling.processRunEvent, Handling.require, AgentWorkerState.requireCompletedRound,
      (rejectIf_eq_ok _ _ ()).2 (by simp [hactive, hrounds])]
    exact hsettled.persist hbefore
  | toolFailed round outcome =>
    obtain ⟨⟨hphase, rfl⟩, hnext⟩ := Option.ite_none_right_eq_some.1 hemit
    cases hnext
    obtain ⟨hactive, hrounds, -⟩ := h.counted.idle (by simp [hphase]) (by simp [hphase])
    have hsettled : Together { runner with phase := .toolSettled } tally handling :=
      h.moved (by simp [hphase]) (by simp)
    right
    rw [Handling.processRunEvent, Handling.require, AgentWorkerState.requireCompletedRound,
      (rejectIf_eq_ok _ _ ()).2 (by simp [hactive, hrounds]), Tally.step]
    by_cases hunknown : outcome = .unknown
    · rw [if_pos hunknown]
      refine ⟨handling, ?_, hsettled⟩
      subst hunknown
      rfl
    · rw [if_neg hunknown]
      obtain ⟨later, hlater, htogether⟩ := hsettled.persist hbefore
      refine ⟨later, ?_, htogether⟩
      rw [← hlater]
      exact if_neg hunknown
  | transcriptMessages round =>
    obtain ⟨⟨hphase, rfl⟩, hnext⟩ := Option.ite_none_right_eq_some.1 hemit
    cases hnext
    have hoff : runner.phase ≠ .streaming ∧ runner.phase ≠ .failed := by
      rcases hphase with hphase | hphase | hphase <;> simp [hphase]
    obtain ⟨-, hrounds, -⟩ := h.counted.idle hoff.1 hoff.2
    refine .inr ⟨handling, ?_, h.moved (fun _ => hoff) (by simp)⟩
    rw [Handling.processRunEvent, Handling.require, (rejectIf_eq_ok _ _ ()).2 (not_not.2 hrounds)]
    rfl
  | runCompleted rounds toolCalls =>
    obtain ⟨⟨hphase, rfl, rfl⟩, hnext⟩ := Option.ite_none_right_eq_some.1 hemit
    cases hnext
    obtain ⟨-, hrounds, -⟩ := h.counted.idle (by simp [hphase]) (by simp [hphase])
    have hcalls : handling.state.progress.toolCalls = runner.totalToolCalls :=
      h.counted.toolCalls.trans h.counted.totalToolCalls.symm
    refine .inr ⟨handling, ?_, h.moved (by simp [hphase]) (by simp)⟩
    rw [Handling.processRunEvent, Handling.require,
      (rejectIf_eq_ok _ _ ()).2 (by simp [hrounds, hcalls])]
    rfl

end Together

/-- What comes after a run's last event: the result is applied and the run written once more. -/
theorem Together.complete {runner : RunnerState} {tally : Tally} {handling : Handling}
    (h : Together runner tally handling) (hphase : runner.phase = .completed) (hfits : tally.Fits) :
    ∃ state last, handling.state.applyResult runner.result = .ok state ∧
      state.progress = handling.state.progress ∧
      ({ handling with state } : Handling).persistCompletedRun = .ok last ∧
      last.written.Pairwise AgentRunProgress.Grows := by
  obtain ⟨-, hrounds, hnone⟩ := h.counted.idle (by simp [hphase]) (by simp [hphase])
  have husage : tally.usage = tally.completed := by
    rw [Tally.usage, hnone, addRound_none]
  have htotal : runner.totalUsage.totalTokens ≤ maxDurableCounter := by
    rw [h.counted.totalUsage, ← husage]
    exact hfits.usage
  have hbalanced : Balanced runner.totalUsage := by
    rw [h.counted.totalUsage]
    exact h.counted.balancedCompleted
  have hroundsRoom : runner.round ≤ maxDurableCounter := by
    rw [h.counted.round_eq]
    exact hfits.rounds
  have hcallsRoom : runner.totalToolCalls ≤ maxDurableCounter := by
    rw [h.counted.totalToolCalls]
    exact hfits.toolCalls
  have happly : handling.state.applyResult runner.result = .ok { handling.state with
      progress :=
        { modelRounds := runner.round
          toolCalls := runner.totalToolCalls
          usage := runner.totalUsage }
      completedUsage := runner.totalUsage
      activeRound := none
      roundUsage := .none } := by
    rw [AgentWorkerState.applyResult, RunnerState.result, durableCount, durableCount,
      (rejectIf_eq_ok _ _ ()).2 (Nat.not_lt.2 hroundsRoom),
      (rejectIf_eq_ok _ _ ()).2 (Nat.not_lt.2 hcallsRoom),
      normalizeDurableUsage_of_balanced hbalanced htotal]
    rfl
  have hprogress : RunProgress.mk runner.round runner.totalToolCalls runner.totalUsage =
      handling.state.progress := by
    rw [← hrounds, h.counted.totalToolCalls, ← h.counted.toolCalls, h.counted.totalUsage, ← husage,
      ← h.counted.usage]
  rw [hprogress] at happly
  have hrecorded := @Recorded.withState _ _ h.recorded
    { handling.state with
      progress := handling.state.progress
      completedUsage := runner.totalUsage
      activeRound := none
      roundUsage := .none }
    (Nat.le_refl _) (Nat.le_refl _) (Nat.le_refl _) (Nat.le_refl _) (Nat.le_refl _) rfl rfl
  obtain ⟨hr, hc, ht, hb⟩ := h.counted.writable hfits
  obtain ⟨last, hlast, -, hwritten⟩ :=
    hrecorded.persistRunningEvent ⟨hr, hc, ht, hb⟩ hfits.persisted
  exact ⟨_, last, happly, rfl, hlast, hwritten.written_grows⟩

end Chat2DB.Agent.Durable
