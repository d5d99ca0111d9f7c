import Chat2DB.Engine.ManagerSafety

/-! # The idle timer

A generation that nobody uses is stopped by the idle expiry of its current epoch. The
timer is lost on one path: a caller asks for a lease while the generation quiesces,
which takes the epoch on, and is gone when the quiesce completes.
-/

namespace Chat2DB.Engine

/-- The generation that is parked, or runs without a lease. -/
def ManagerState.idle : ManagerState → Option RunningGeneration
  | .parked held _ => some held
  | .running held => if held.leases = 0 then some held else none
  | _ => none

/-- Besides, the generation that quiesces while nobody waits. -/
def ManagerState.unused : ManagerState → Option RunningGeneration
  | .quiescing held _ [] => some held
  | state => state.idle

@[simp]
theorem ManagerState.unused_running (held : RunningGeneration) :
    (ManagerState.running held).unused = if held.leases = 0 then some held else none := rfl

theorem ManagerState.unused_of_idle {state : ManagerState} {running : RunningGeneration}
    (hidle : state.idle = some running) : state.unused = some running := by
  cases state <;> first | exact hidle | cases hidle

namespace EngineManager

/-- The idle expiry of the current epoch is scheduled, and stops the generation when it fires. -/
structure IdleOffered (manager : EngineManager) (running : RunningGeneration) : Prop where
  scheduled : (running.generation, running.idleEpoch) ∈ manager.idles
  offered : ∃ next reason,
    manager.step (.idleExpired running.generation running.idleEpoch) = some next ∧
      next.state = .stopping running.generation reason []

/-- A quiesce succeeds that callers asked for a lease during, all of them gone by now. -/
def Deserted (manager : EngineManager) : ManagerAction → Prop
  | .quiesceFinished generation parkEpoch true =>
    match manager.state with
    | .quiescing running activeParkEpoch waiters =>
      running.generation = generation ∧ activeParkEpoch = parkEpoch ∧ waiters ≠ [] ∧
        manager.retainOpenWaiters waiters = []
    | _ => False
  | _ => False

instance (manager : EngineManager) (action : ManagerAction) :
    Decidable (manager.Deserted action) := by
  unfold Deserted
  split
  · split <;> infer_instance
  · infer_instance

/-- The loop goes on until the manager is closed, and nothing is unused without a timer. -/
structure Timed (manager : EngineManager) : Prop where
  closes : manager.finished = true → manager.state = .closed
  scheduled : manager.shuttingDown = false → ∀ running, manager.state.unused = some running →
    (running.generation, running.idleEpoch) ∈ manager.idles

theorem timed_new : new.Timed := by
  refine ⟨by simp [new], ?_⟩
  intro _ running hunused
  cases hunused

variable {manager next : EngineManager} {running : RunningGeneration}

theorem Timed.unfinished (htimed : manager.Timed) (hunused : manager.state.unused = some running) :
    manager.finished = false := by
  by_contra hfinished
  rw [htimed.closes (by simpa using hfinished)] at hunused
  cases hunused

/-! ## Where the manager goes -/

theorem timed_of_none (hfinished : manager.finished = false)
    (hnone : manager.state.unused = none) : manager.Timed := by
  refine ⟨by simp [hfinished], ?_⟩
  intro _ running hunused
  rw [hnone] at hunused
  cases hunused

theorem timed_of_shuttingDown (hfinished : manager.finished = false)
    (hdown : manager.shuttingDown = true) : manager.Timed :=
  ⟨by simp [hfinished], by simp [hdown]⟩

theorem Timed.parks (htimed : manager.Timed) (hfinished : manager.finished = false)
    (hunused : manager.state.unused = some running) {parkEpoch : Nat} :
    Timed { manager with state := .parked running parkEpoch } := by
  refine ⟨by simp [hfinished], ?_⟩
  intro hopen kept hkept
  obtain rfl := Option.some.inj hkept
  exact htimed.scheduled hopen running hunused

theorem timed_finish : manager.finish.Timed := by
  refine ⟨fun _ => rfl, ?_⟩
  intro _ running hunused
  cases hunused

theorem Timed.frame (htimed : manager.Timed) (hstate : next.state = manager.state)
    (hfinished : next.finished = manager.finished)
    (hshutting : next.shuttingDown = manager.shuttingDown)
    (hidles : ∀ running, manager.state.unused = some running →
      (running.generation, running.idleEpoch) ∈ manager.idles →
        (running.generation, running.idleEpoch) ∈ next.idles) : next.Timed := by
  refine ⟨?_, ?_⟩
  · rw [hfinished, hstate]
    exact htimed.closes
  · rw [hshutting, hstate]
    intro hopen running hunused
    exact hidles running hunused (htimed.scheduled hopen running hunused)

theorem timed_beginStop (hfinished : manager.finished = false) (reason : EngineStopReason)
    (waiters : List Nat) : (manager.beginStop running reason waiters).Timed :=
  timed_of_none hfinished rfl

theorem timed_beginResume (hfinished : manager.finished = false) (parkEpoch : Nat)
    (waiters : List Nat) : (manager.beginResume running parkEpoch waiters).Timed :=
  timed_of_none hfinished rfl

theorem timed_spawnStart (hfinished : manager.finished = false) (waiters : List Nat) :
    (manager.spawnStart waiters).Timed :=
  timed_of_none hfinished rfl

theorem timed_reap (hfinished : manager.finished = false) (waiters : List Nat) :
    (manager.reap running waiters).Timed :=
  timed_beginStop hfinished _ _

theorem timed_scheduleIdleCycle (hfinished : manager.finished = false) :
    (manager.scheduleIdleCycle running).Timed := by
  refine ⟨fun h => absurd (hfinished.symm.trans h) Bool.false_ne_true, ?_⟩
  intro _ kept hunused
  simp only [scheduleIdleCycle, ManagerState.unused_running] at hunused ⊢
  split_ifs at hunused
  obtain rfl := Option.some.inj hunused
  exact List.mem_cons_self

theorem timed_leased (hfinished : manager.finished = false) (hleases : running.leases ≠ 0) :
    Timed { manager with state := .running running } := by
  apply timed_of_none
  · exact hfinished
  · simp [hleases]

theorem issueLease_finished (reply : Nat) :
    (manager.issueLease running reply).1.finished = manager.finished := by
  unfold issueLease
  split <;> rfl

theorem issueLeases_finished (waiters : List Nat) :
    (manager.issueLeases running waiters).1.finished = manager.finished := by
  induction waiters generalizing manager running with
  | nil => rfl
  | cons reply waiters ih => exact ih.trans (issueLease_finished reply)

theorem timed_serve (hfinished : manager.finished = false) (waiters : List Nat) :
    (manager.serve running waiters).Timed := by
  have hissued : (manager.issueLeases running waiters).1.finished = false :=
    (issueLeases_finished waiters).trans hfinished
  unfold serve
  simp only
  split
  · exact timed_scheduleIdleCycle hissued
  · rename_i hleases
    exact timed_leased hissued hleases

/-! ## Commands -/

theorem Timed.acquire (htimed : manager.Timed) (hfinished : manager.finished = false)
    (reply : Nat) : (manager.acquire reply).Timed := by
  unfold EngineManager.acquire
  split
  · exact htimed
  · cases hstate : manager.state with
    | cold => exact timed_spawnStart hfinished _
    | starting attempt waiters => exact timed_of_none hfinished rfl
    | running running =>
      simp only [issueLease]
      split
      · exact htimed.frame hstate.symm rfl rfl fun _ _ hmem => hmem
      · exact timed_leased hfinished (Nat.succ_ne_zero _)
    | quiescing running parkEpoch waiters =>
      simp only
      split
      · exact htimed
      · -- the epoch has moved on, and there is a waiter
        apply timed_of_none
        · exact hfinished
        · cases waiters <;> rfl
    | parked running parkEpoch =>
      simp only
      split
      · exact htimed
      · exact timed_beginResume hfinished _ _
    | resuming running parkEpoch waiters =>
      simp only
      split
      · exact htimed
      · exact timed_of_none hfinished rfl
    | stopping generation reason waiters => exact timed_of_none hfinished rfl
    | closed => exact htimed

theorem Timed.release (htimed : manager.Timed) (hfinished : manager.finished = false)
    (generation : Nat) : (manager.release generation).Timed := by
  unfold EngineManager.release
  split
  · split
    · simp only
      split
      · split
        · exact timed_beginStop hfinished _ _
        · exact timed_scheduleIdleCycle hfinished
      · rename_i hleases
        exact timed_leased hfinished hleases
    · exact htimed
  · exact htimed

theorem timed_startFinished (htimed : manager.Timed) (hfinished : manager.finished = false)
    (attempt : Nat) (result : Option EngineSupervisor) :
    (manager.startFinished attempt result).Timed := by
  unfold EngineManager.startFinished
  split
  · split
    · split <;> exact timed_of_none hfinished rfl
    · split
      · split
        · exact timed_of_none hfinished rfl
        · apply timed_serve
          exact hfinished
      · split
        · exact timed_finish
        · exact timed_of_none hfinished rfl
  · split
    · exact htimed.frame rfl rfl rfl fun _ _ hmem => hmem
    · exact htimed

theorem Timed.hotIdleExpired (htimed : manager.Timed) (hfinished : manager.finished = false)
    (generation epoch : Nat) : (manager.hotIdleExpired generation epoch).Timed := by
  unfold EngineManager.hotIdleExpired
  split
  · rename_i running hstate
    split
    · rename_i hidle
      refine ⟨fun h => absurd (hfinished.symm.trans h) Bool.false_ne_true, ?_⟩
      intro hopen kept hunused
      obtain rfl := Option.some.inj hunused
      exact htimed.scheduled hopen running (by
        rw [hstate, ManagerState.unused_running, if_pos hidle.2.2.2])
    · exact htimed
  · exact htimed

theorem Timed.eraseIdle (htimed : manager.Timed) (generation epoch : Nat)
    (hother : ∀ running, manager.state.unused = some running →
      (running.generation, running.idleEpoch) ≠ (generation, epoch)) :
    Timed { manager with idles := manager.idles.erase (generation, epoch) } := by
  refine htimed.frame rfl rfl rfl ?_
  intro running hunused hmem
  exact (List.mem_erase_of_ne (hother running hunused)).mpr hmem

/-- The idle expiry of the current epoch stops a generation that nobody uses. -/
theorem idleExpired_unused (hopen : manager.shuttingDown = false)
    (hunused : manager.state.unused = some running) :
    manager.idleExpired running.generation running.idleEpoch =
      manager.beginStop running .idle [] := by
  unfold EngineManager.idleExpired
  cases hstate : manager.state with
  | running held =>
    rw [hstate, ManagerState.unused_running] at hunused
    split_ifs at hunused with hleases
    obtain rfl := Option.some.inj hunused
    simp [hopen, hleases]
  | quiescing held parkEpoch waiters =>
    rw [hstate] at hunused
    cases waiters with
    | nil =>
      obtain rfl := Option.some.inj hunused
      simp [hopen]
    | cons reply waiters => cases hunused
  | parked held parkEpoch =>
    rw [hstate] at hunused
    obtain rfl := Option.some.inj hunused
    simp [hopen]
  | cold | starting _ _ | resuming _ _ _ | stopping _ _ _ | closed =>
    rw [hstate] at hunused
    cases hunused

theorem Timed.idleExpired (htimed : manager.Timed) (hfinished : manager.finished = false)
    (generation epoch : Nat) :
    ({ manager with idles := manager.idles.erase (generation, epoch) }.idleExpired
      generation epoch).Timed := by
  by_cases hclosing : manager.shuttingDown = true
  · unfold EngineManager.idleExpired
    simp only [hclosing, Bool.not_true, Bool.false_eq_true, false_and, if_false]
    split <;> exact timed_of_shuttingDown hfinished rfl
  · by_cases hcurrent : ∃ running, manager.state.unused = some running ∧
      (running.generation, running.idleEpoch) = (generation, epoch)
    · -- the timer that is needed has fired, and stops the generation
      obtain ⟨running, hunused, hsame⟩ := hcurrent
      obtain ⟨rfl, rfl⟩ := Prod.mk.inj hsame
      have hstops := @idleExpired_unused { manager with
        idles := manager.idles.erase (running.generation, running.idleEpoch) } running
        (by simpa using hclosing) hunused
      rw [hstops]
      apply timed_beginStop
      exact hfinished
    · have hkept := htimed.eraseIdle generation epoch
        fun running hunused hsame => hcurrent ⟨running, hunused, hsame⟩
      unfold EngineManager.idleExpired
      split <;> first | exact hkept | skip
      all_goals
        split
        · apply timed_beginStop
          exact hfinished
        · exact hkept

/-- Nobody waits when the quiesce succeeds, or somebody who waits is still there. -/
theorem Timed.quiesceFinished (htimed : manager.Timed) (hfinished : manager.finished = false)
    {generation parkEpoch : Nat} {succeeded : Bool}
    (hattended : ¬ manager.Deserted (.quiesceFinished generation parkEpoch succeeded)) :
    (manager.quiesceFinished generation parkEpoch succeeded).Timed := by
  unfold EngineManager.quiesceFinished
  split
  · rename_i running activeParkEpoch waiters hstate
    split
    · exact htimed
    · rename_i hmatch
      simp only [not_or, not_not] at hmatch
      obtain ⟨rfl, rfl⟩ := hmatch
      simp only
      split
      · rename_i hsucceeded
        split
        · rename_i hnone
          -- nobody has asked since the quiesce began, so the timer is the current one
          obtain rfl : waiters = [] := by
            by_contra hsome
            subst hsucceeded
            apply hattended
            rw [Deserted, hstate]
            exact ⟨rfl, rfl, hsome, hnone⟩
          refine htimed.parks hfinished ?_
          rw [hstate]
          rfl
        · exact timed_beginResume hfinished _ _
      · exact timed_reap hfinished _
  · exact htimed

theorem Timed.resumeFinished (htimed : manager.Timed) (hfinished : manager.finished = false)
    (generation parkEpoch : Nat) (succeeded : Bool) :
    (manager.resumeFinished generation parkEpoch succeeded).Timed := by
  unfold EngineManager.resumeFinished
  split
  · split
    · exact htimed
    · simp only
      split
      · exact timed_serve hfinished _
      · exact timed_reap hfinished _
  · exact htimed

theorem Timed.drainExpired (htimed : manager.Timed) (hfinished : manager.finished = false)
    (generation epoch : Nat) : (manager.drainExpired generation epoch).Timed := by
  unfold EngineManager.drainExpired
  split
  · split
    · exact timed_beginStop hfinished _ _
    · exact htimed
  · exact htimed

theorem Timed.generationTerminal (htimed : manager.Timed) (hfinished : manager.finished = false)
    (generation : Nat) : (manager.generationTerminal generation).Timed := by
  unfold EngineManager.generationTerminal
  split
  all_goals try split
  all_goals first | exact htimed | exact timed_beginStop hfinished _ _

theorem Timed.stopFinished (htimed : manager.Timed) (hfinished : manager.finished = false)
    (generation : Nat) (reason : EngineStopReason) :
    (manager.stopFinished generation reason).Timed := by
  unfold EngineManager.stopFinished
  split
  · split
    · exact timed_of_none hfinished rfl
    · simp only
      split
      · exact timed_finish
      · split
        · exact timed_of_none hfinished rfl
        · exact timed_spawnStart hfinished _
  · exact htimed

theorem startHostShutdown_finished (manager : EngineManager) (force : Bool) :
    (manager.startHostShutdown force).finished = manager.finished ∧
      (manager.startHostShutdown force).shuttingDown = manager.shuttingDown := by
  unfold EngineManager.startHostShutdown
  split <;> first | exact ⟨rfl, rfl⟩ | skip
  simp only
  split <;> exact ⟨rfl, rfl⟩

theorem timed_startHostShutdown (hfinished : manager.finished = false)
    (hdown : manager.shuttingDown = true) (force : Bool) :
    (manager.startHostShutdown force).Timed := by
  obtain ⟨hopen, hstill⟩ := startHostShutdown_finished manager force
  exact timed_of_shuttingDown (hopen.trans hfinished) (hstill.trans hdown)

theorem Timed.shutdown (htimed : manager.Timed) (hfinished : manager.finished = false) :
    manager.shutdown.Timed := by
  unfold EngineManager.shutdown
  split
  · exact htimed
  · simp only
    split
    · exact timed_finish
    · apply timed_startHostShutdown
      · exact hfinished
      · rfl

theorem Timed.forceShutdown (htimed : manager.Timed) (hfinished : manager.finished = false) :
    manager.forceShutdown.Timed := by
  unfold EngineManager.forceShutdown
  split
  · rename_i hclosed
    refine ⟨fun _ => hclosed, htimed.scheduled⟩
  · simp only
    split
    · exact timed_finish
    · apply timed_startHostShutdown
      · exact hfinished
      · rfl

/-- The timer of the idle generation is not the one that reports. -/
theorem Timed.taken (htimed : manager.Timed) (action : ManagerAction)
    (hother : ∀ generation epoch, action ≠ .idleExpired generation epoch) :
    (manager.taken action).Timed := by
  cases action with
  | idleExpired generation epoch => exact absurd rfl (hother generation epoch)
  | startFinished attempt result =>
    cases result <;> exact htimed.frame rfl rfl rfl fun _ _ hmem => hmem
  | _ => exact htimed.frame rfl rfl rfl fun _ _ hmem => hmem

/-- A step keeps the timer, unless a quiesce succeeds for callers that are all gone. -/
theorem Timed.step (htimed : manager.Timed) {action : ManagerAction}
    (hattended : ¬ manager.Deserted action) (hstep : manager.step action = some next) :
    next.Timed := by
  obtain ⟨hfinished, -, rfl⟩ := step_cases hstep
  have htaken := htimed.taken action
  cases action with
  | acquire reply => exact htimed.acquire hfinished reply
  | abandon reply | dropLease generation | crash generation =>
    exact htimed.frame rfl rfl rfl fun _ _ hmem => hmem
  | release generation => exact (htaken nofun).release hfinished generation
  | startFinished attempt result =>
    cases result with
    | some supervisor =>
      exact timed_startFinished (htaken nofun) hfinished attempt (some supervisor)
    | none => exact timed_startFinished (htaken nofun) hfinished attempt none
  | hotIdleExpired generation epoch =>
    exact (htaken nofun).hotIdleExpired hfinished generation epoch
  | idleExpired generation epoch => exact htimed.idleExpired hfinished generation epoch
  | quiesceFinished generation parkEpoch succeeded =>
    exact (htaken nofun).quiesceFinished hfinished hattended
  | resumeFinished generation parkEpoch succeeded =>
    exact (htaken nofun).resumeFinished hfinished generation parkEpoch succeeded
  | drainExpired generation epoch => exact (htaken nofun).drainExpired hfinished generation epoch
  | generationTerminal generation => exact (htaken nofun).generationTerminal hfinished generation
  | stopFinished generation reason => exact (htaken nofun).stopFinished hfinished generation reason
  | shutdown => exact htimed.shutdown hfinished
  | forceShutdown => exact htimed.forceShutdown hfinished

theorem Timed.idleOffered (htimed : manager.Timed) (hopen : manager.shuttingDown = false)
    (hidle : manager.state.idle = some running) : manager.IdleOffered running := by
  have hunused := ManagerState.unused_of_idle hidle
  have hscheduled := htimed.scheduled hopen running hunused
  have hstep : manager.step (.idleExpired running.generation running.idleEpoch) = some
      ({ manager with
        idles := manager.idles.erase (running.generation, running.idleEpoch) }.beginStop
          running .idle []) := by
    simp only [EngineManager.step, htimed.unfinished hunused, Bool.false_eq_true, if_false,
      if_pos hscheduled]
    rw [idleExpired_unused]
    · exact hopen
    · exact hunused
  exact ⟨hscheduled, _, _, hstep, rfl⟩

end EngineManager

/-- In every run in which no quiesce succeeds for callers that are all gone, an idle
generation has its timer. -/
theorem managerAfter_idleOffered {actions : List ManagerAction} {manager : EngineManager}
    (hrun : managerAfter actions = some manager)
    (hattended : Machine.Along (fun manager action => ¬ manager.Deserted action)
      EngineManager.step .new actions)
    (hopen : manager.shuttingDown = false) {running : RunningGeneration}
    (hidle : manager.state.idle = some running) : manager.IdleOffered running := by
  have htimed : manager.Timed := Machine.run_invariant_along EngineManager.timed_new
    (fun _ _ _ htimed hallowed hstep => htimed.step hallowed hstep) hrun hattended
  exact htimed.idleOffered hopen hidle

/-- The generation has served one caller and quiesces. -/
def quiescingActions : List ManagerAction :=
  [.acquire 0, .startFinished 1 (some { generation := 7, parks := true }), .dropLease 7,
    .release 7, .hotIdleExpired 7 2]

/-- A caller comes and stays while the generation quiesces; it gets its lease and drops it. -/
theorem attended_idleOffered :
    ∃ manager running,
      managerAfter (quiescingActions ++ [.acquire 1, .quiesceFinished 7 1 true,
        .resumeFinished 7 1 true, .dropLease 7, .release 7]) = some manager ∧
      manager.state.idle = some running ∧ manager.IdleOffered running := by
  obtain ⟨manager, running, hrun, hopen, hidle⟩ : ∃ manager running,
      managerAfter (quiescingActions ++ [.acquire 1, .quiesceFinished 7 1 true,
        .resumeFinished 7 1 true, .dropLease 7, .release 7]) = some manager ∧
      manager.shuttingDown = false ∧ manager.state.idle = some running :=
    ⟨_, _, rfl, rfl, rfl⟩
  exact ⟨manager, running, hrun, hidle,
    managerAfter_idleOffered hrun (by decide) hopen hidle⟩

/-- The caller is gone when the quiesce completes, and nothing stops the parked generation. -/
theorem deserted_not_idleOffered :
    ¬ ∀ (actions : List ManagerAction) (manager : EngineManager) (running : RunningGeneration),
      managerAfter actions = some manager → manager.shuttingDown = false →
        manager.state.idle = some running → manager.IdleOffered running := by
  intro hoffered
  obtain ⟨manager, running, hrun, hopen, hidle, hlost⟩ : ∃ manager running,
      managerAfter (quiescingActions ++ [.acquire 1, .abandon 1, .quiesceFinished 7 1 true]) =
        some manager ∧ manager.shuttingDown = false ∧ manager.state.idle = some running ∧
      (running.generation, running.idleEpoch) ∉ manager.idles :=
    ⟨_, _, rfl, rfl, rfl, by decide⟩
  exact hlost (hoffered _ manager running hrun hopen hidle).scheduled

end Chat2DB.Engine
