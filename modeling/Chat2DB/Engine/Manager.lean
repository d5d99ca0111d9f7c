import Chat2DB.Base.Machine

/-! # The engine manager

The lifecycle actor of the compatibility engine, with the tasks it spawns, the
callers that hold leases or wait for one, and the engine processes. A task reports
to the manager by a command; the commands on their way may be received in any
order. The health status is left out, and so are delays: a timer may fire at any time
after it was scheduled. What the callers are answered is in `Engine/Answers`.
-/

namespace Chat2DB.Engine

inductive EngineStopReason where
  | idle
  | crashed
  | lifecycleFailure
  | hostShutdown
deriving DecidableEq

/-- A process with its generation number; `parks` if it announced the park capability. -/
structure EngineSupervisor where
  generation : Nat
  parks : Bool
deriving DecidableEq

structure RunningGeneration where
  generation : Nat
  supervisor : EngineSupervisor
  /-- Leases are held in memory, far fewer than the counter could hold. -/
  leases : Nat
  idleEpoch : Nat
  parkEpoch : Nat
deriving DecidableEq

/-- Waiters are named by the reply channel they wait on. -/
inductive ManagerState where
  | cold
  | starting (attempt : Nat) (waiters : List Nat)
  | running (running : RunningGeneration)
  | quiescing (running : RunningGeneration) (parkEpoch : Nat) (waiters : List Nat)
  | parked (running : RunningGeneration) (parkEpoch : Nat)
  | resuming (running : RunningGeneration) (parkEpoch : Nat) (waiters : List Nat)
  | stopping (generation : Nat) (reason : EngineStopReason) (waiters : List Nat)
  | closed
deriving DecidableEq

structure EngineManager where
  state : ManagerState
  nextAttempt : Nat
  drainEpoch : Nat
  shuttingDown : Bool
  /-- The loop of the actor has ended. -/
  finished : Bool
  /-- The attempts of the start tasks that have not reported. -/
  starts : List Nat
  /-- Generations and park epochs of the quiesce and resume tasks that have not reported. -/
  quiesces : List (Nat × Nat)
  resumes : List (Nat × Nat)
  stops : List (Nat × EngineStopReason)
  /-- Timers, with generation and epoch. -/
  idles : List (Nat × Nat)
  hotIdles : List (Nat × Nat)
  drains : List (Nat × Nat)
  /-- The generations that are watched for their end. -/
  watchers : List Nat
  /-- The reply channels whose receiver is gone. -/
  abandoned : List Nat
  /-- The generations of the leases that callers hold. -/
  held : List Nat
  /-- The generations of the leases that were dropped and not received as released. -/
  releases : List Nat
  /-- The generations whose process has ended. -/
  terminal : List Nat
  /-- The generation numbers given so far. -/
  generations : List Nat
  /-- History: the generations whose stop was reported. -/
  reaped : List Nat
deriving DecidableEq

/-- `u64::wrapping_add(1)`. -/
def wrappingSucc (value : Nat) : Nat := (value + 1) % 2 ^ 64

def RunningGeneration.invalidateIdle (running : RunningGeneration) : RunningGeneration :=
  { running with idleEpoch := wrappingSucc running.idleEpoch }

namespace EngineManager

def new : EngineManager where
  state := .cold
  nextAttempt := 1
  drainEpoch := 0
  shuttingDown := false
  finished := false
  starts := []
  quiesces := []
  resumes := []
  stops := []
  idles := []
  hotIdles := []
  drains := []
  watchers := []
  abandoned := []
  held := []
  releases := []
  terminal := []
  generations := []
  reaped := []

/-! ## Tasks -/

def isClosed (manager : EngineManager) (reply : Nat) : Bool := reply ∈ manager.abandoned

def retainOpenWaiters (manager : EngineManager) (waiters : List Nat) : List Nat :=
  waiters.filter fun reply => !manager.isClosed reply

/-- A fresh attempt is started for the waiters. -/
def spawnStart (manager : EngineManager) (waiters : List Nat) : EngineManager :=
  { manager with
    nextAttempt := max (wrappingSucc manager.nextAttempt) 1
    starts := manager.nextAttempt :: manager.starts
    state := .starting manager.nextAttempt waiters }

def spawnStop (manager : EngineManager) (supervisor : EngineSupervisor)
    (reason : EngineStopReason) : EngineManager :=
  { manager with stops := (supervisor.generation, reason) :: manager.stops }

/-- The waiter gets a lease unless it has gone away. -/
def issueLease (manager : EngineManager) (running : RunningGeneration) (reply : Nat) :
    EngineManager × RunningGeneration :=
  if manager.isClosed reply then (manager, running)
  else
    ({ manager with held := running.generation :: manager.held },
      { running with
        idleEpoch := wrappingSucc running.idleEpoch
        leases := running.leases + 1 })

def issueLeases (manager : EngineManager) (running : RunningGeneration) :
    List Nat → EngineManager × RunningGeneration
  | [] => (manager, running)
  | reply :: waiters =>
    let (manager, running) := manager.issueLease running reply
    manager.issueLeases running waiters

def supportsCooperativePark (manager : EngineManager) (running : RunningGeneration) : Bool :=
  running.supervisor.parks && !decide (running.supervisor.generation ∈ manager.terminal)

/-- The manager goes on with a running generation, and timers if it is idle. -/
def scheduleIdleCycle (manager : EngineManager) (running : RunningGeneration) : EngineManager :=
  let running := running.invalidateIdle
  { manager with
    idles := (running.generation, running.idleEpoch) :: manager.idles
    hotIdles :=
      if manager.supportsCooperativePark running then
        (running.generation, running.idleEpoch) :: manager.hotIdles
      else manager.hotIdles
    state := .running running }

def beginQuiesce (manager : EngineManager) (running : RunningGeneration) : EngineManager :=
  let parkEpoch := max (wrappingSucc running.parkEpoch) 1
  { manager with
    quiesces := (running.generation, parkEpoch) :: manager.quiesces
    state := .quiescing { running with parkEpoch } parkEpoch [] }

def beginResume (manager : EngineManager) (running : RunningGeneration) (parkEpoch : Nat)
    (waiters : List Nat) : EngineManager :=
  { manager with
    resumes := (running.generation, parkEpoch) :: manager.resumes
    state := .resuming running parkEpoch waiters }

def beginStop (manager : EngineManager) (running : RunningGeneration) (reason : EngineStopReason)
    (waiters : List Nat) : EngineManager :=
  let terminalObserved := running.supervisor.generation ∈ manager.terminal
  let reason := if terminalObserved ∧ reason = .idle then .crashed else reason
  { manager.spawnStop running.supervisor reason with
    state := .stopping running.generation reason waiters }

/-- The running generation serves its waiters. -/
def serve (manager : EngineManager) (running : RunningGeneration) (waiters : List Nat) :
    EngineManager :=
  let (manager, running) := manager.issueLeases running waiters
  if running.leases = 0 then manager.scheduleIdleCycle running
  else { manager with state := .running running }

/-- `finish_shutdown`, and the end of the loop. -/
def finish (manager : EngineManager) : EngineManager :=
  { manager with state := .closed, finished := true }

/-! ## Commands -/

def acquire (manager : EngineManager) (reply : Nat) : EngineManager :=
  if manager.shuttingDown then manager
  else
    match manager.state with
    | .cold => manager.spawnStart [reply]
    | .starting attempt waiters =>
      { manager with state := .starting attempt (waiters ++ [reply]) }
    | .running running =>
      let (manager, running) := manager.issueLease running reply
      { manager with state := .running running }
    | .quiescing running parkEpoch waiters =>
      if manager.isClosed reply then manager
      else
        { manager with
          state := .quiescing running.invalidateIdle parkEpoch (waiters ++ [reply]) }
    | .parked running parkEpoch =>
      if manager.isClosed reply then manager
      else manager.beginResume running.invalidateIdle parkEpoch [reply]
    | .resuming running parkEpoch waiters =>
      if manager.isClosed reply then manager
      else { manager with state := .resuming running parkEpoch (waiters ++ [reply]) }
    | .stopping generation reason waiters =>
      { manager with state := .stopping generation reason (waiters ++ [reply]) }
    | .closed => manager

def release (manager : EngineManager) (generation : Nat) : EngineManager :=
  match manager.state with
  | .running running =>
    if running.generation = generation ∧ running.leases > 0 then
      let running := { running with leases := running.leases - 1 }
      if running.leases = 0 then
        if manager.shuttingDown then manager.beginStop running .hostShutdown []
        else manager.scheduleIdleCycle running
      else { manager with state := .running running }
    else manager
  | _ => manager

def startFinished (manager : EngineManager) (attempt : Nat) (result : Option EngineSupervisor) :
    EngineManager :=
  match manager.state with
  | .starting activeAttempt waiters =>
    if activeAttempt ≠ attempt then
      match result with
      | some supervisor =>
        { manager.spawnStop supervisor .hostShutdown with state := .cold }
      | none => { manager with state := .cold }
    else
      match result with
      | some supervisor =>
        if manager.shuttingDown then
          { manager.spawnStop supervisor .hostShutdown with
            state := .stopping supervisor.generation .hostShutdown [] }
        else
          { manager with watchers := supervisor.generation :: manager.watchers }.serve
            { generation := supervisor.generation
              supervisor
              leases := 0
              idleEpoch := 0
              parkEpoch := 0 }
            waiters
      | none => if manager.shuttingDown then manager.finish else { manager with state := .cold }
  | _ =>
    match result with
    | some supervisor => manager.spawnStop supervisor .hostShutdown
    | none => manager

def hotIdleExpired (manager : EngineManager) (generation epoch : Nat) : EngineManager :=
  match manager.state with
  | .running running =>
    if !manager.shuttingDown ∧ running.generation = generation ∧ running.idleEpoch = epoch ∧
        running.leases = 0 then
      manager.beginQuiesce running
    else manager
  | _ => manager

def idleExpired (manager : EngineManager) (generation epoch : Nat) : EngineManager :=
  match manager.state with
  | .running running =>
    if !manager.shuttingDown ∧ running.generation = generation ∧ running.idleEpoch = epoch ∧
        running.leases = 0 then
      manager.beginStop running .idle []
    else manager
  | .quiescing running _ waiters =>
    if !manager.shuttingDown ∧ running.generation = generation ∧ running.idleEpoch = epoch ∧
        waiters = [] then
      manager.beginStop running .idle waiters
    else manager
  | .parked running _ =>
    if !manager.shuttingDown ∧ running.generation = generation ∧ running.idleEpoch = epoch then
      manager.beginStop running .idle []
    else manager
  | _ => manager

/-- A generation whose lifecycle call failed is reaped. -/
def reap (manager : EngineManager) (running : RunningGeneration) (waiters : List Nat) :
    EngineManager :=
  manager.beginStop running (if waiters = [] then .idle else .lifecycleFailure) waiters

def quiesceFinished (manager : EngineManager) (generation parkEpoch : Nat) (succeeded : Bool) :
    EngineManager :=
  match manager.state with
  | .quiescing running activeParkEpoch waiters =>
    if running.generation ≠ generation ∨ activeParkEpoch ≠ parkEpoch then manager
    else
      let waiters := manager.retainOpenWaiters waiters
      if succeeded then
        if waiters = [] then { manager with state := .parked running parkEpoch }
        else manager.beginResume running parkEpoch waiters
      else manager.reap running waiters
  | _ => manager

def resumeFinished (manager : EngineManager) (generation parkEpoch : Nat) (succeeded : Bool) :
    EngineManager :=
  match manager.state with
  | .resuming running activeParkEpoch waiters =>
    if running.generation ≠ generation ∨ activeParkEpoch ≠ parkEpoch then manager
    else
      let waiters := manager.retainOpenWaiters waiters
      if succeeded then manager.serve running waiters else manager.reap running waiters
  | _ => manager

def drainExpired (manager : EngineManager) (generation epoch : Nat) : EngineManager :=
  match manager.state with
  | .running running =>
    if manager.shuttingDown ∧ running.generation = generation ∧ manager.drainEpoch = epoch then
      manager.beginStop running .hostShutdown []
    else manager
  | _ => manager

def generationTerminal (manager : EngineManager) (generation : Nat) : EngineManager :=
  match manager.state with
  | .running running | .parked running _ =>
    if running.generation = generation then manager.beginStop running .crashed [] else manager
  | .quiescing running _ waiters | .resuming running _ waiters =>
    if running.generation = generation then manager.beginStop running .crashed waiters
    else manager
  | _ => manager

def stopFinished (manager : EngineManager) (generation : Nat) (reason : EngineStopReason) :
    EngineManager :=
  match manager.state with
  | .stopping activeGeneration activeReason waiters =>
    if activeGeneration ≠ generation ∨ activeReason ≠ reason then
      { manager with state := .cold }
    else
      let waiters := manager.retainOpenWaiters waiters
      if manager.shuttingDown then manager.finish
      else if waiters = [] then { manager with state := .cold }
      else manager.spawnStart waiters
  | _ => manager

def startHostShutdown (manager : EngineManager) (force : Bool) : EngineManager :=
  match manager.state with
  | .cold | .closed => { manager with state := .closed }
  | .starting attempt _ => { manager with state := .starting attempt [] }
  | .running running =>
    if force ∨ running.leases = 0 then manager.beginStop running .hostShutdown []
    else
      let drainEpoch := wrappingSucc manager.drainEpoch
      { manager with
        drainEpoch, drains := (running.generation, drainEpoch) :: manager.drains }
  | .quiescing running _ _ | .resuming running _ _ | .parked running _ =>
    manager.beginStop running .hostShutdown []
  | .stopping generation reason _ => { manager with state := .stopping generation reason [] }

def shutdown (manager : EngineManager) : EngineManager :=
  if manager.state = .closed ∨ manager.shuttingDown then manager
  else
    let manager := { manager with shuttingDown := true }.startHostShutdown false
    if manager.state = .closed then manager.finish else manager

def forceShutdown (manager : EngineManager) : EngineManager :=
  if manager.state = .closed then { manager with finished := true }
  else
    let manager := { manager with shuttingDown := true }.startHostShutdown true
    if manager.state = .closed then manager.finish else manager

end EngineManager

/-! ## The machine -/

inductive ManagerAction where
  | acquire (reply : Nat)
  /-- A caller stops waiting for its reply. -/
  | abandon (reply : Nat)
  /-- The last clone of a lease is dropped. -/
  | dropLease (generation : Nat)
  /-- The process of a generation ends. -/
  | crash (generation : Nat)
  | release (generation : Nat)
  | startFinished (attempt : Nat) (result : Option EngineSupervisor)
  | hotIdleExpired (generation epoch : Nat)
  | idleExpired (generation epoch : Nat)
  | quiesceFinished (generation parkEpoch : Nat) (succeeded : Bool)
  | resumeFinished (generation parkEpoch : Nat) (succeeded : Bool)
  | drainExpired (generation epoch : Nat)
  | generationTerminal (generation : Nat)
  | stopFinished (generation : Nat) (reason : EngineStopReason)
  | shutdown
  | forceShutdown
deriving DecidableEq

/-- The command of a task is received once the task has reported; a started process
has a generation number that was not given before. -/
def EngineManager.step (manager : EngineManager) (action : ManagerAction) : Option EngineManager :=
  if manager.finished then none
  else
    match action with
    | .acquire reply => some (manager.acquire reply)
    | .abandon reply => some { manager with abandoned := reply :: manager.abandoned }
    | .dropLease generation =>
      if generation ∈ manager.held then
        some
          { manager with
            held := manager.held.erase generation
            releases := generation :: manager.releases }
      else none
    | .crash generation =>
      if generation ∈ manager.generations then
        some { manager with terminal := generation :: manager.terminal }
      else none
    | .release generation =>
      if generation ∈ manager.releases then
        some ({ manager with releases := manager.releases.erase generation }.release generation)
      else none
    | .startFinished attempt result =>
      if attempt ∈ manager.starts then
        let manager := { manager with starts := manager.starts.erase attempt }
        match result with
        | some supervisor =>
          if supervisor.generation ∈ manager.generations then none
          else
            some
              ({ manager with
                generations := supervisor.generation :: manager.generations }.startFinished
                  attempt result)
        | none => some (manager.startFinished attempt result)
      else none
    | .hotIdleExpired generation epoch =>
      if (generation, epoch) ∈ manager.hotIdles then
        some ({ manager with
          hotIdles := manager.hotIdles.erase (generation, epoch) }.hotIdleExpired generation epoch)
      else none
    | .idleExpired generation epoch =>
      if (generation, epoch) ∈ manager.idles then
        some ({ manager with
          idles := manager.idles.erase (generation, epoch) }.idleExpired generation epoch)
      else none
    | .quiesceFinished generation parkEpoch succeeded =>
      if (generation, parkEpoch) ∈ manager.quiesces then
        some ({ manager with
          quiesces := manager.quiesces.erase (generation, parkEpoch) }.quiesceFinished
            generation parkEpoch succeeded)
      else none
    | .resumeFinished generation parkEpoch succeeded =>
      if (generation, parkEpoch) ∈ manager.resumes then
        some ({ manager with
          resumes := manager.resumes.erase (generation, parkEpoch) }.resumeFinished
            generation parkEpoch succeeded)
      else none
    | .drainExpired generation epoch =>
      if (generation, epoch) ∈ manager.drains then
        some ({ manager with
          drains := manager.drains.erase (generation, epoch) }.drainExpired generation epoch)
      else none
    | .generationTerminal generation =>
      if generation ∈ manager.watchers ∧ generation ∈ manager.terminal then
        some ({ manager with
          watchers := manager.watchers.erase generation }.generationTerminal generation)
      else none
    | .stopFinished generation reason =>
      if (generation, reason) ∈ manager.stops then
        some ({ manager with
          stops := manager.stops.erase (generation, reason)
          reaped := generation :: manager.reaped }.stopFinished generation reason)
      else none
    | .shutdown => some manager.shutdown
    | .forceShutdown => some manager.forceShutdown

/-- The manager after the actions, if every one of them was possible. -/
def managerAfter (actions : List ManagerAction) : Option EngineManager :=
  Machine.run EngineManager.step .new actions

end Chat2DB.Engine
