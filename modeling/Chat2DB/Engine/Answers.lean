import Chat2DB.Engine.ManagerSafety

/-! # Answers to the callers

What `run_manager` sends on the reply channels of the callers that asked for a lease,
and the machine that keeps the channels it received beside the answers it gave.
-/

namespace Chat2DB.Engine

inductive AcquireError where
  | runtimeShuttingDown
  | engineManagerUnavailable
  /-- The error with which the start of the engine failed. -/
  | startFailed
deriving DecidableEq

inductive AcquireAnswer where
  | lease (generation : Nat)
  | error (error : AcquireError)
deriving DecidableEq

def AcquireAnswer.isLease : AcquireAnswer → Bool
  | .lease _ => true
  | .error _ => false

/-- The callers that wait for a lease. -/
def ManagerState.waiters : ManagerState → List Nat
  | .starting _ waiters | .quiescing _ _ waiters | .resuming _ _ waiters
  | .stopping _ _ waiters => waiters
  | .cold | .running _ | .parked _ _ | .closed => []

namespace ManagerState

variable (held : RunningGeneration) (number : Nat) (callers : List Nat)

@[simp] theorem waiters_cold : cold.waiters = [] := rfl
@[simp] theorem waiters_starting : (starting number callers).waiters = callers := rfl
@[simp] theorem waiters_running : (running held).waiters = [] := rfl
@[simp] theorem waiters_quiescing : (quiescing held number callers).waiters = callers := rfl
@[simp] theorem waiters_parked : (parked held number).waiters = [] := rfl
@[simp] theorem waiters_resuming : (resuming held number callers).waiters = callers := rfl
@[simp] theorem waiters_stopping (reason : EngineStopReason) :
    (stopping number reason callers).waiters = callers := rfl
@[simp] theorem waiters_closed : closed.waiters = [] := rfl

end ManagerState

def failWaiters (waiters : List Nat) (error : AcquireError) : List (Nat × AcquireAnswer) :=
  waiters.map fun reply => (reply, .error error)

namespace EngineManager

/-- `issue_lease` for each of the waiters; the receiver of a closed channel is gone. -/
def issuedLeases (manager : EngineManager) (running : RunningGeneration) (waiters : List Nat) :
    List (Nat × AcquireAnswer) :=
  (manager.retainOpenWaiters waiters).map fun reply => (reply, .lease running.generation)

def acquireAnswers (manager : EngineManager) (reply : Nat) : List (Nat × AcquireAnswer) :=
  if manager.shuttingDown then failWaiters [reply] .runtimeShuttingDown
  else
    match manager.state with
    | .running running => manager.issuedLeases running [reply]
    | .closed => failWaiters [reply] .engineManagerUnavailable
    | _ => []

def startFinishedAnswers (manager : EngineManager) (attempt : Nat)
    (result : Option EngineSupervisor) : List (Nat × AcquireAnswer) :=
  match manager.state with
  | .starting activeAttempt waiters =>
    if activeAttempt ≠ attempt then failWaiters waiters .engineManagerUnavailable
    else
      match result with
      | some supervisor =>
        if manager.shuttingDown then failWaiters waiters .runtimeShuttingDown
        else
          manager.issuedLeases
            { generation := supervisor.generation
              supervisor
              leases := 0
              idleEpoch := 0
              parkEpoch := 0 }
            waiters
      | none =>
        failWaiters waiters
          (if manager.shuttingDown then .runtimeShuttingDown else .startFailed)
  | _ => []

def resumeFinishedAnswers (manager : EngineManager) (generation parkEpoch : Nat)
    (succeeded : Bool) : List (Nat × AcquireAnswer) :=
  match manager.state with
  | .resuming running activeParkEpoch waiters =>
    if running.generation ≠ generation ∨ activeParkEpoch ≠ parkEpoch then []
    else if succeeded then manager.issuedLeases running (manager.retainOpenWaiters waiters)
    else []
  | _ => []

def stopFinishedAnswers (manager : EngineManager) (generation : Nat)
    (reason : EngineStopReason) : List (Nat × AcquireAnswer) :=
  match manager.state with
  | .stopping activeGeneration activeReason waiters =>
    if activeGeneration ≠ generation ∨ activeReason ≠ reason then
      failWaiters waiters .engineManagerUnavailable
    else if manager.shuttingDown then
      failWaiters (manager.retainOpenWaiters waiters) .runtimeShuttingDown
    else []
  | _ => []

def startHostShutdownAnswers (manager : EngineManager) : List (Nat × AcquireAnswer) :=
  match manager.state with
  | .starting _ waiters | .quiescing _ _ waiters | .resuming _ _ waiters
  | .stopping _ _ waiters => failWaiters waiters .runtimeShuttingDown
  | .cold | .closed | .running _ | .parked _ _ => []

def shutdownAnswers (manager : EngineManager) : List (Nat × AcquireAnswer) :=
  if manager.state = .closed ∨ manager.shuttingDown then [] else manager.startHostShutdownAnswers

def forceShutdownAnswers (manager : EngineManager) : List (Nat × AcquireAnswer) :=
  if manager.state = .closed then [] else manager.startHostShutdownAnswers

/-- The answers that are given while a command is processed. -/
def answers (manager : EngineManager) : ManagerAction → List (Nat × AcquireAnswer)
  | .acquire reply => manager.acquireAnswers reply
  | .startFinished attempt result => manager.startFinishedAnswers attempt result
  | .resumeFinished generation parkEpoch succeeded =>
    manager.resumeFinishedAnswers generation parkEpoch succeeded
  | .stopFinished generation reason => manager.stopFinishedAnswers generation reason
  | .shutdown => manager.shutdownAnswers
  | .forceShutdown => manager.forceShutdownAnswers
  | .abandon _ | .dropLease _ | .crash _ | .release _ | .hotIdleExpired _ _ | .idleExpired _ _
  | .quiesceFinished _ _ _ | .drainExpired _ _ | .generationTerminal _ => []

end EngineManager

/-- The channel that a command brings. -/
def ManagerAction.brings : ManagerAction → List Nat
  | .acquire reply => [reply]
  | _ => []

/-- The manager with the channels that it received and the answers that it sent on them. -/
structure AnsweringManager where
  manager : EngineManager
  received : List Nat
  answers : List (Nat × AcquireAnswer)
deriving DecidableEq

namespace AnsweringManager

def new : AnsweringManager := { manager := .new, received := [], answers := [] }

/-- Every caller brings a channel of its own. -/
def step (answering : AnsweringManager) (action : ManagerAction) : Option AnsweringManager :=
  if ∃ reply ∈ action.brings, reply ∈ answering.received then none
  else
    (answering.manager.step action).map fun next =>
      { manager := next
        received := answering.received ++ action.brings
        answers := answering.answers ++ answering.manager.answers action }

/-- The channels on which an answer was sent, once for each answer. -/
def answered (answering : AnsweringManager) : List Nat := answering.answers.map Prod.fst

def leases (answering : AnsweringManager) : List (Nat × AcquireAnswer) :=
  answering.answers.filter fun answer => answer.2.isLease

end AnsweringManager

/-- The manager with its answers after the actions, if every one of them was possible. -/
def answeringAfter (actions : List ManagerAction) : Option AnsweringManager :=
  Machine.run AnsweringManager.step .new actions

/-! ## Who is kept by a command -/

section Waiters

variable {manager : EngineManager} {running : RunningGeneration} {reply : Nat}

@[simp]
theorem failWaiters_fst (waiters : List Nat) (error : AcquireError) :
    (failWaiters waiters error).map Prod.fst = waiters := by
  simp [failWaiters, Function.comp_def]

@[simp]
theorem EngineManager.issuedLeases_fst (waiters : List Nat) :
    (manager.issuedLeases running waiters).map Prod.fst = manager.retainOpenWaiters waiters := by
  simp [EngineManager.issuedLeases, Function.comp_def]

theorem EngineManager.retainOpenWaiters_count_le (waiters : List Nat) :
    (manager.retainOpenWaiters waiters).count reply ≤ waiters.count reply :=
  List.filter_sublist.count_le reply

theorem EngineManager.retainOpenWaiters_count (hopen : reply ∉ manager.abandoned)
    (waiters : List Nat) :
    (manager.retainOpenWaiters waiters).count reply = waiters.count reply := by
  apply List.count_filter
  simpa [EngineManager.isClosed] using hopen

end Waiters

namespace EngineManager

/-- The waiters of the one state and those that arrive are the waiters of the other and
those that are answered, but for some whose channel is closed. -/
structure Conserves (manager next : EngineManager) (arrived : List Nat)
    (answers : List (Nat × AcquireAnswer)) : Prop where
  le : ∀ reply, next.state.waiters.count reply + (answers.map Prod.fst).count reply ≤
    manager.state.waiters.count reply + arrived.count reply
  eq : ∀ reply, reply ∉ manager.abandoned →
    next.state.waiters.count reply + (answers.map Prod.fst).count reply =
      manager.state.waiters.count reply + arrived.count reply

variable {manager next : EngineManager} {running : RunningGeneration} {arrived : List Nat}
  {answers : List (Nat × AcquireAnswer)}

theorem conserves_of_append (kept others : List Nat)
    (hbefore : manager.state.waiters ++ arrived = kept ++ others)
    (hafter : next.state.waiters ++ answers.map Prod.fst =
      kept ++ manager.retainOpenWaiters others) :
    manager.Conserves next arrived answers := by
  constructor
  · intro reply
    rw [← List.count_append, ← List.count_append, hbefore, hafter, List.count_append,
      List.count_append]
    exact Nat.add_le_add_left (retainOpenWaiters_count_le others) _
  · intro reply hopen
    rw [← List.count_append, ← List.count_append, hbefore, hafter, List.count_append,
      List.count_append, retainOpenWaiters_count hopen]

theorem conserves_of_all
    (hall : next.state.waiters ++ answers.map Prod.fst = manager.state.waiters ++ arrived) :
    manager.Conserves next arrived answers :=
  conserves_of_append _ [] (List.append_nil _).symm (hall.trans (List.append_nil _).symm)

theorem conserves_of_open
    (hopen : next.state.waiters ++ answers.map Prod.fst =
      manager.retainOpenWaiters (manager.state.waiters ++ arrived)) :
    manager.Conserves next arrived answers :=
  conserves_of_append [] _ rfl hopen

theorem Conserves.frame {before : EngineManager} (hconserves : before.Conserves next arrived answers)
    (hstate : before.state = manager.state) (habandoned : before.abandoned = manager.abandoned) :
    manager.Conserves next arrived answers := by
  obtain ⟨hle, heq⟩ := hconserves
  rw [hstate] at hle heq
  rw [habandoned] at heq
  exact ⟨hle, heq⟩

theorem retainOpenWaiters_idem (waiters : List Nat) :
    manager.retainOpenWaiters (manager.retainOpenWaiters waiters) =
      manager.retainOpenWaiters waiters := by
  simp [retainOpenWaiters]

/-- A generation that serves has nobody waiting. -/
@[simp]
theorem serve_waiters (waiters : List Nat) :
    (manager.serve running waiters).state.waiters = [] := by
  unfold serve
  simp only
  split <;> rfl

/-! ## Commands -/

theorem acquire_conserves (reply : Nat) :
    manager.Conserves (manager.acquire reply) [reply] (manager.acquireAnswers reply) := by
  unfold acquire acquireAnswers
  split
  · apply conserves_of_all
    simp
  · cases hstate : manager.state with
    | cold =>
      apply conserves_of_all
      simp [hstate, spawnStart]
    | starting attempt waiters =>
      apply conserves_of_all
      simp [hstate]
    | running running =>
      apply conserves_of_open
      simp [hstate]
    | quiescing running parkEpoch waiters =>
      apply conserves_of_append waiters [reply]
      · simp [hstate]
      · by_cases hclosed : manager.isClosed reply = true
        · simp [hstate, retainOpenWaiters, hclosed]
        · simp [retainOpenWaiters, hclosed]
    | parked running parkEpoch =>
      apply conserves_of_open
      by_cases hclosed : manager.isClosed reply = true
      · simp [hstate, retainOpenWaiters, hclosed]
      · simp [hstate, retainOpenWaiters, hclosed, beginResume]
    | resuming running parkEpoch waiters =>
      apply conserves_of_append waiters [reply]
      · simp [hstate]
      · by_cases hclosed : manager.isClosed reply = true
        · simp [hstate, retainOpenWaiters, hclosed]
        · simp [retainOpenWaiters, hclosed]
    | stopping | closed =>
      apply conserves_of_all
      simp [hstate]

theorem release_conserves (generation : Nat) :
    manager.Conserves (manager.release generation) [] [] := by
  apply conserves_of_all
  unfold release
  cases hstate : manager.state with
  | running running =>
    simp only
    split
    · split
      · split <;> rfl
      · rfl
    · simp [hstate]
  | cold | starting _ _ | quiescing _ _ _ | parked _ _ | resuming _ _ _ | stopping _ _ _ | closed =>
    simp [hstate]

theorem startFinished_conserves (attempt : Nat) (result : Option EngineSupervisor) :
    manager.Conserves (manager.startFinished attempt result) []
      (manager.startFinishedAnswers attempt result) := by
  unfold startFinished startFinishedAnswers
  cases hstate : manager.state with
  | starting activeAttempt waiters =>
    simp only
    split
    · -- the report of another attempt
      apply conserves_of_all
      cases result <;> simp [hstate]
    · cases result with
      | some supervisor =>
        simp only
        split
        · apply conserves_of_all
          simp [hstate]
        · apply conserves_of_open
          simp [hstate]
      | none =>
        simp only
        apply conserves_of_all
        split <;> simp [hstate, finish]
  | cold | running _ | quiescing _ _ _ | parked _ _ | resuming _ _ _ | stopping _ _ _ | closed =>
    apply conserves_of_all
    cases result <;> simp [hstate, spawnStop]

theorem hotIdleExpired_conserves (generation epoch : Nat) :
    manager.Conserves (manager.hotIdleExpired generation epoch) [] [] := by
  apply conserves_of_all
  unfold hotIdleExpired
  split
  · rename_i hstate
    split
    · rw [hstate]
      rfl
    · rfl
  · rfl

theorem idleExpired_conserves (generation epoch : Nat) :
    manager.Conserves (manager.idleExpired generation epoch) [] [] := by
  apply conserves_of_all
  unfold idleExpired
  split
  all_goals rename_i hstate
  all_goals try split
  all_goals first | rfl | (rw [hstate]; rfl)

theorem quiesceFinished_conserves (generation parkEpoch : Nat) (succeeded : Bool) :
    manager.Conserves (manager.quiesceFinished generation parkEpoch succeeded) [] [] := by
  unfold quiesceFinished
  split
  · rename_i running activeParkEpoch waiters hstate
    split
    · exact conserves_of_all rfl
    · apply conserves_of_open
      simp only [hstate, ManagerState.waiters_quiescing, List.append_nil, List.map_nil]
      split_ifs with hsucceeded hnone
      · rw [hnone, ManagerState.waiters_parked]
      · rfl
      · rfl
  · exact conserves_of_all rfl

theorem resumeFinished_conserves (generation parkEpoch : Nat) (succeeded : Bool) :
    manager.Conserves (manager.resumeFinished generation parkEpoch succeeded) []
      (manager.resumeFinishedAnswers generation parkEpoch succeeded) := by
  unfold resumeFinished resumeFinishedAnswers
  cases hstate : manager.state with
  | resuming running activeParkEpoch waiters =>
    simp only
    split
    · exact conserves_of_all rfl
    · apply conserves_of_open
      cases succeeded with
      | true => simp [hstate, retainOpenWaiters_idem]
      | false => simp [hstate, reap, beginStop]
  | cold | starting _ _ | running _ | quiescing _ _ _ | parked _ _ | stopping _ _ _ | closed =>
    exact conserves_of_all rfl

theorem drainExpired_conserves (generation epoch : Nat) :
    manager.Conserves (manager.drainExpired generation epoch) [] [] := by
  apply conserves_of_all
  unfold drainExpired
  split
  · rename_i hstate
    split
    · rw [hstate]
      rfl
    · rfl
  · rfl

theorem generationTerminal_conserves (generation : Nat) :
    manager.Conserves (manager.generationTerminal generation) [] [] := by
  apply conserves_of_all
  unfold generationTerminal
  split
  all_goals rename_i hstate
  all_goals try split
  all_goals first | rfl | (rw [hstate]; rfl)

theorem stopFinished_conserves (generation : Nat) (reason : EngineStopReason) :
    manager.Conserves (manager.stopFinished generation reason) []
      (manager.stopFinishedAnswers generation reason) := by
  unfold stopFinished stopFinishedAnswers
  cases hstate : manager.state with
  | stopping activeGeneration activeReason waiters =>
    simp only
    split
    · apply conserves_of_all
      simp [hstate]
    · apply conserves_of_open
      split
      · simp [hstate, finish]
      · simp only [hstate, ManagerState.waiters_stopping, List.append_nil, List.map_nil]
        split_ifs with hnone
        · rw [hnone, ManagerState.waiters_cold]
        · rfl
  | cold | starting _ _ | running _ | quiescing _ _ _ | parked _ _ | resuming _ _ _ | closed =>
    exact conserves_of_all rfl

theorem startHostShutdown_conserves (force : Bool) :
    manager.Conserves (manager.startHostShutdown force) [] manager.startHostShutdownAnswers := by
  apply conserves_of_all
  unfold startHostShutdown startHostShutdownAnswers
  cases hstate : manager.state with
  | running running =>
    simp only
    split
    · rfl
    · simp
  | cold | starting _ _ | quiescing _ _ _ | parked _ _ | resuming _ _ _ | stopping _ _ _ | closed =>
    simp [beginStop]

theorem Conserves.finish (hconserves : manager.Conserves next arrived answers)
    (hclosed : next.state = .closed) : manager.Conserves next.finish arrived answers := by
  obtain ⟨hle, heq⟩ := hconserves
  rw [hclosed] at hle heq
  exact ⟨hle, heq⟩

theorem shutdown_conserves : manager.Conserves manager.shutdown [] manager.shutdownAnswers := by
  unfold shutdown shutdownAnswers
  split
  · exact conserves_of_all rfl
  · have hstarted : manager.Conserves
        ({ manager with shuttingDown := true }.startHostShutdown false) []
          manager.startHostShutdownAnswers :=
      (startHostShutdown_conserves false).frame rfl rfl
    simp only
    split
    · rename_i hclosed
      exact hstarted.finish hclosed
    · exact hstarted

theorem forceShutdown_conserves :
    manager.Conserves manager.forceShutdown [] manager.forceShutdownAnswers := by
  unfold forceShutdown forceShutdownAnswers
  split
  · exact conserves_of_all rfl
  · have hstarted : manager.Conserves
        ({ manager with shuttingDown := true }.startHostShutdown true) []
          manager.startHostShutdownAnswers :=
      (startHostShutdown_conserves true).frame rfl rfl
    simp only
    split
    · rename_i hclosed
      exact hstarted.finish hclosed
    · exact hstarted

/-- A step keeps or answers everyone who waits and everyone who arrives. -/
theorem step_conserves {action : ManagerAction} (hstep : manager.step action = some next) :
    manager.Conserves next action.brings (manager.answers action) := by
  obtain ⟨-, -, rfl⟩ := step_cases hstep
  cases action with
  | acquire reply => exact acquire_conserves reply
  | abandon reply | dropLease generation | crash generation => exact conserves_of_all rfl
  | release generation => exact (release_conserves generation).frame rfl rfl
  | startFinished attempt result =>
    cases result with
    | some supervisor => exact (startFinished_conserves attempt (some supervisor)).frame rfl rfl
    | none => exact (startFinished_conserves attempt none).frame rfl rfl
  | hotIdleExpired generation epoch =>
    exact (hotIdleExpired_conserves generation epoch).frame rfl rfl
  | idleExpired generation epoch => exact (idleExpired_conserves generation epoch).frame rfl rfl
  | quiesceFinished generation parkEpoch succeeded =>
    exact (quiesceFinished_conserves generation parkEpoch succeeded).frame rfl rfl
  | resumeFinished generation parkEpoch succeeded =>
    exact (resumeFinished_conserves generation parkEpoch succeeded).frame rfl rfl
  | drainExpired generation epoch => exact (drainExpired_conserves generation epoch).frame rfl rfl
  | generationTerminal generation => exact (generationTerminal_conserves generation).frame rfl rfl
  | stopFinished generation reason => exact (stopFinished_conserves generation reason).frame rfl rfl
  | shutdown => exact shutdown_conserves
  | forceShutdown => exact forceShutdown_conserves

end EngineManager

end Chat2DB.Engine
