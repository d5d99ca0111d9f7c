import Chat2DB.Agent.SqlTools
import Chat2DB.Providers.ModelRound
import Chat2DB.Sql.AppError
import Chat2DB.Storage.AgentRuns

/-! # The progress of a run

The runner adds up the usage that a provider reports in its rounds. The handler of the
runner's events adds it up once more and writes what it has, with the other counters of
the run, to the record of the run. What else a record holds, and what the tools write to
it, is left out.
-/

namespace Chat2DB.Agent.Durable

open Outcome
open Providers (Usage)
open Sql (AppError)
open Storage (AgentRunCounters AgentRunProgress AgentRunRecord StorageError checkedAdd progressParams
  validateCompactionUnchanged validateProgressValues validateRunProgress)

def maxDurableCounter : Nat := Storage.i64Max

/-! ## Records -/

/-- The progress of a row, as far as it decides on a write. The checks are the same for a
run that goes on and for one that ends. -/
def writeProgress (current : AgentRunRecord) (progress : AgentRunProgress) :
    Except StorageError AgentRunRecord := do
  validateProgressValues progress
  validateCompactionUnchanged current progress
  validateRunProgress current progress
  progressParams progress
  return { current with toAgentRunProgress := progress }

def coverageNotAdvancing : StorageError :=
  .invalidAgent "agent compaction coverage must advance the session"

/-- `covered` is how far the other runs and the messages of the session are compacted. -/
def sessionCovers (covered : Option Nat) (current : AgentRunRecord) (ordinal : Nat) : Bool :=
  covered.any (ordinal ≤ ·) || current.compactedThroughOrdinal.any (ordinal ≤ ·)

def writeCompaction (covered : Option Nat) (current : AgentRunRecord) (counters : AgentRunCounters)
    (coverage : Option Nat) : Except StorageError AgentRunRecord := do
  rejectIf (checkedAdd current.lastSequence 1 ≠ some counters.lastSequence)
    (.invalidAgent "agent compaction sequence must be the next event")
  let compacted ← match coverage with
    | none => .ok (current.compactionCount, current.compactedThroughOrdinal)
    | some ordinal => do
      rejectIf (sessionCovers covered current ordinal) coverageNotAdvancing
      let count ← orThrow (checkedAdd current.compactionCount 1)
        (.numericRange "agent compaction count")
      pure (count, some ordinal)
  let progress : AgentRunProgress :=
    { toAgentRunCounters := counters
      compactionCount := compacted.1, compactedThroughOrdinal := compacted.2 }
  validateRunProgress current progress
  progressParams progress
  return { current with toAgentRunProgress := progress }

/-! ## The worker's state -/

structure RunProgress where
  modelRounds : Nat
  toolCalls : Nat
  usage : Usage
deriving DecidableEq

structure AgentWorkerState where
  progress : RunProgress
  completedUsage : Usage
  roundUsage : Usage
  activeRound : Option Nat
  compactionCount : Nat
  compactedThroughOrdinal : Option Nat
deriving DecidableEq

def providerProtocolError (message : String) : AppError :=
  { kind := .unavailable, code := "provider_protocol_error", message }

def countersExceeded : AppError :=
  providerProtocolError "The AI provider exceeded durable counters"

def invalidUsage : AppError := providerProtocolError "The AI provider returned invalid usage"

def durableCount (value : Nat) : Except AppError Nat := do
  rejectIf (maxDurableCounter < value) countersExceeded
  return value

def durableIncrement (value : Nat) : Except AppError Nat :=
  orThrow ((checkedAdd value 1).filter fun next => next ≤ maxDurableCounter) countersExceeded

def normalizeDurableUsage (usage : Usage) : Except AppError Usage := do
  let minimumTotal ← orThrow
    ((checkedAdd usage.inputTokens usage.outputTokens).filter fun total => total ≤ maxDurableCounter)
    invalidUsage
  rejectIf (maxDurableCounter < usage.inputTokens ∨ maxDurableCounter < usage.outputTokens ∨
    maxDurableCounter < usage.totalTokens) invalidUsage
  return { usage with totalTokens := max usage.totalTokens minimumTotal }

def addUsage (left right : Usage) : Except AppError Usage := do
  let inputTokens ← orThrow (checkedAdd left.inputTokens right.inputTokens) invalidUsage
  let outputTokens ← orThrow (checkedAdd left.outputTokens right.outputTokens) invalidUsage
  let totalTokens ← orThrow (checkedAdd left.totalTokens right.totalTokens) invalidUsage
  normalizeDurableUsage { inputTokens, outputTokens, totalTokens }

/-- What a run makes of the answers, with the numbers that the handler applies. -/
structure RunResult where
  modelRounds : Nat
  toolCalls : Nat
  usage : Usage
deriving DecidableEq

namespace AgentWorkerState

def fromRun (run : AgentRunRecord) : AgentWorkerState :=
  let usage : Usage :=
    { inputTokens := run.inputTokens
      outputTokens := run.outputTokens
      totalTokens := run.totalTokens }
  { progress := { modelRounds := run.modelRounds, toolCalls := run.toolCalls, usage }
    completedUsage := usage
    roundUsage := .none
    activeRound := none
    compactionCount := run.compactionCount
    compactedThroughOrdinal := run.compactedThroughOrdinal }

def startRound (state : AgentWorkerState) (round : Nat) : Except AppError AgentWorkerState := do
  let round ← durableCount round
  let nextRound ← durableIncrement state.progress.modelRounds
  rejectIf (state.activeRound.isSome = true ∨ round ≠ nextRound) .internal
  return { state with activeRound := some round, roundUsage := .none }

def requireCompletedRound (state : AgentWorkerState) (round : Nat) : Except AppError Unit :=
  rejectIf (¬ (state.activeRound = none ∧ state.progress.modelRounds = round)) .internal

def requireActiveRound (state : AgentWorkerState) (round : Nat) : Except AppError Unit :=
  rejectIf (state.activeRound ≠ some round) .internal

def startToolCall (state : AgentWorkerState) (round : Nat) : Except AppError AgentWorkerState := do
  state.requireCompletedRound round
  let toolCalls ← durableIncrement state.progress.toolCalls
  return { state with progress := { state.progress with toolCalls } }

def mergeUsage (state : AgentWorkerState) (round : Nat) (usage : Usage) :
    Except AppError AgentWorkerState := do
  state.requireActiveRound round
  let merged ← normalizeDurableUsage
    { inputTokens := max state.roundUsage.inputTokens usage.inputTokens
      outputTokens := max state.roundUsage.outputTokens usage.outputTokens
      totalTokens := max state.roundUsage.totalTokens usage.totalTokens }
  let accumulated ← addUsage state.completedUsage merged
  return { state with
    roundUsage := merged
    progress := { state.progress with usage := accumulated } }

def completeRound (state : AgentWorkerState) (round : Nat) : Except AppError AgentWorkerState := do
  state.requireActiveRound round
  let round ← durableCount round
  return { state with
    progress := { state.progress with modelRounds := round }
    completedUsage := state.progress.usage
    roundUsage := .none
    activeRound := none }

def applyResult (state : AgentWorkerState) (result : RunResult) :
    Except AppError AgentWorkerState := do
  let modelRounds ← durableCount result.modelRounds
  let toolCalls ← durableCount result.toolCalls
  let usage ← normalizeDurableUsage result.usage
  return { state with
    progress := { modelRounds, toolCalls, usage }
    completedUsage := usage
    activeRound := none
    roundUsage := .none }

end AgentWorkerState

/-! ## Events -/

/-- Events of a run, with the data that its progress depends on. -/
inductive ProgressEvent where
  | runStarted
  /-- The coverage of a compaction, if it took anything away. -/
  | contextCompacted (coverage : Option Nat)
  | modelRoundStarted (round : Nat)
  | textDelta (round : Nat)
  | usage (round : Nat) (usage : Usage)
  | modelRoundCompleted (round : Nat)
  | toolStarted (round : Nat) (isWrite : Bool)
  | toolCompleted (round : Nat)
  | toolFailed (round : Nat) (outcome : ExecutionOutcome)
  | transcriptMessages (round : Nat)
  | runCompleted (rounds toolCalls : Nat)
  | runFailed
deriving DecidableEq

inductive HandlerFailure where
  | host (error : AppError)
  | storage (error : StorageError)
deriving DecidableEq

/-- The state of the handler and the row of the run, with what was written to it so far. -/
structure Handling where
  state : AgentWorkerState
  record : AgentRunRecord
  written : List AgentRunProgress
deriving DecidableEq

namespace Handling

/-- The counters of an update, with the number that the hub gives to the next event. -/
def counters (handling : Handling) : AgentRunCounters where
  lastSequence := handling.record.lastSequence + 1
  modelRounds := handling.state.progress.modelRounds
  toolCalls := handling.state.progress.toolCalls
  inputTokens := handling.state.progress.usage.inputTokens
  outputTokens := handling.state.progress.usage.outputTokens
  totalTokens := handling.state.progress.usage.totalTokens

def update (handling : Handling) : AgentRunProgress where
  toAgentRunCounters := handling.counters
  compactionCount := handling.state.compactionCount
  compactedThroughOrdinal := handling.state.compactedThroughOrdinal

def wrote (handling : Handling) (record : AgentRunRecord) : Handling :=
  { handling with record, written := handling.written ++ [record.toAgentRunProgress] }

def persistRunningEvent (handling : Handling) : Except HandlerFailure Handling := do
  let record ← (writeProgress handling.record handling.update).mapError .storage
  return handling.wrote record

def persistCompletedRun (handling : Handling) : Except HandlerFailure Handling := do
  let record ← (writeProgress handling.record handling.update).mapError .storage
  return handling.wrote record

def persistContextCompaction (covered : Option Nat) (handling : Handling)
    (coverage : Option Nat) : Except HandlerFailure Handling := do
  let record ← (writeCompaction covered handling.record handling.counters coverage).mapError .storage
  return handling.wrote record

def withState (handling : Handling) (state : Except AppError AgentWorkerState) :
    Except HandlerFailure Handling := do
  let state ← state.mapError .host
  return { handling with state }

def require (handling : Handling) (check : Except AppError Unit) :
    Except HandlerFailure Handling := do
  check.mapError .host
  return handling

def compacted (state : AgentWorkerState) : Option Nat → Except AppError AgentWorkerState
  | none => .ok state
  | some ordinal => do
    let compactionCount ← orThrow (checkedAdd state.compactionCount 1) .internal
    return { state with compactionCount, compactedThroughOrdinal := some ordinal }

def processRunEvent (covered : Option Nat) (handling : Handling) :
    ProgressEvent → Except HandlerFailure Handling
  | .runStarted | .runFailed => .ok handling
  | .contextCompacted coverage => do
    let handling ← handling.persistContextCompaction covered coverage
    handling.withState (compacted handling.state coverage)
  | .modelRoundStarted round => handling.withState (handling.state.startRound round)
  | .textDelta round => do
    let handling ← handling.require (handling.state.requireActiveRound round)
    handling.persistRunningEvent
  | .usage round usage => do
    let handling ← handling.withState (handling.state.mergeUsage round usage)
    handling.persistRunningEvent
  | .modelRoundCompleted round => handling.withState (handling.state.completeRound round)
  | .toolStarted round isWrite => do
    let handling ← handling.withState (handling.state.startToolCall round)
    if isWrite then .ok handling else handling.persistRunningEvent
  | .toolCompleted round => do
    let handling ← handling.require (handling.state.requireCompletedRound round)
    handling.persistRunningEvent
  | .toolFailed round outcome => do
    let handling ← handling.require (handling.state.requireCompletedRound round)
    if outcome = .unknown then .ok handling else handling.persistRunningEvent
  | .transcriptMessages round =>
    handling.require (rejectIf (handling.state.progress.modelRounds ≠ round) .internal)
  | .runCompleted rounds toolCalls =>
    handling.require (rejectIf (handling.state.progress.modelRounds ≠ rounds ∨
      handling.state.progress.toolCalls ≠ toolCalls) .internal)

/-- A run that was just started. -/
def start (run : AgentRunRecord) : Handling where
  state := .fromRun run
  record := run
  written := [run.toAgentRunProgress]

end Handling

/-! ## The runner -/

inductive RunnerPhase where
  | starting
  | between
  | streaming
  /-- A round is over, and its calls are made. -/
  | calling
  | toolRunning
  | toolSettled
  | completed
  | failed
deriving DecidableEq

/-- Where the runner is, with the numbers it holds. -/
structure RunnerState where
  phase : RunnerPhase
  round : Nat
  totalToolCalls : Nat
  totalUsage : Usage
  roundUsage : Usage
deriving DecidableEq

def RunnerState.start : RunnerState where
  phase := .starting
  round := 0
  totalToolCalls := 0
  totalUsage := .none
  roundUsage := .none

/-- What the runner may send next. Its result comes with the last event. -/
def RunnerState.emit (runner : RunnerState) : ProgressEvent → Option RunnerState
  | .runStarted => if runner.phase = .starting then some { runner with phase := .between } else none
  | .contextCompacted _ => if runner.phase = .between then some runner else none
  | .modelRoundStarted round =>
    if runner.phase = .between ∧ round = runner.round + 1 then
      some { runner with phase := .streaming, round, roundUsage := .none }
    else none
  | .textDelta round =>
    if runner.phase = .streaming ∧ round = runner.round then some runner else none
  | .usage round usage =>
    if runner.phase = .streaming ∧ round = runner.round then
      some { runner with roundUsage := runner.roundUsage.merge usage }
    else none
  | .modelRoundCompleted round =>
    if runner.phase = .streaming ∧ round = runner.round then
      some { runner with
        phase := .calling
        totalUsage := runner.totalUsage.accumulate runner.roundUsage }
    else none
  | .toolStarted round _ =>
    if (runner.phase = .calling ∨ runner.phase = .toolSettled) ∧ round = runner.round then
      some { runner with phase := .toolRunning, totalToolCalls := runner.totalToolCalls + 1 }
    else none
  | .toolCompleted round | .toolFailed round _ =>
    if runner.phase = .toolRunning ∧ round = runner.round then
      some { runner with phase := .toolSettled }
    else none
  | .transcriptMessages round =>
    if (runner.phase = .calling ∨ runner.phase = .toolRunning ∨ runner.phase = .toolSettled) ∧
        round = runner.round then
      some { runner with phase := .between }
    else none
  | .runCompleted rounds toolCalls =>
    if runner.phase = .between ∧ rounds = runner.round ∧ toolCalls = runner.totalToolCalls then
      some { runner with phase := .completed }
    else none
  | .runFailed =>
    if runner.phase = .completed then none else some { runner with phase := .failed }

def RunnerState.result (runner : RunnerState) : RunResult where
  modelRounds := runner.round
  toolCalls := runner.totalToolCalls
  usage := runner.totalUsage

end Chat2DB.Agent.Durable
