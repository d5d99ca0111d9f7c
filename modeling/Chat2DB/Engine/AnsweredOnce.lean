import Chat2DB.Engine.Answers

/-! # Every caller is answered once

Each caller that is still there waits in the state of the manager or was sent one
answer, and after a shutdown every answer is an error.
-/

namespace Chat2DB.Engine

/-! ## Shutdown -/

/-- A state that is not on the way to or from a parked generation. -/
def ManagerState.Upright : ManagerState → Prop
  | .quiescing _ _ _ | .parked _ _ | .resuming _ _ _ => False
  | .cold | .starting _ _ | .running _ | .stopping _ _ _ | .closed => True

namespace EngineManager

variable {manager next : EngineManager} {running : RunningGeneration}
  {answers : List (Nat × AcquireAnswer)}

structure Closing (manager : EngineManager) : Prop where
  shuttingDown : manager.shuttingDown = true
  upright : manager.state.Upright

/-- Nothing is started any more, and nobody is given a lease. -/
structure WindsDown (manager next : EngineManager) (answers : List (Nat × AcquireAnswer)) :
    Prop where
  closing : next.Closing
  nextAttempt : next.nextAttempt = manager.nextAttempt
  starts : ∀ attempt ∈ next.starts, attempt ∈ manager.starts
  refused : ∀ answer ∈ answers, ∃ error, answer.2 = .error error

theorem failWaiters_refused (waiters : List Nat) (error : AcquireError) :
    ∀ answer ∈ failWaiters waiters error, ∃ error, answer.2 = .error error := by
  intro answer hanswer
  obtain ⟨reply, _, rfl⟩ := List.mem_map.mp hanswer
  exact ⟨error, rfl⟩

theorem windsDown_of_upright (hdown : next.shuttingDown = true) (hupright : next.state.Upright)
    (hattempt : next.nextAttempt = manager.nextAttempt) (hstarts : next.starts = manager.starts) :
    manager.WindsDown next [] :=
  ⟨⟨hdown, hupright⟩, hattempt, fun _ hmem => hstarts ▸ hmem, by simp⟩

theorem WindsDown.refusing (hwinds : manager.WindsDown next []) (waiters : List Nat)
    (error : AcquireError) : manager.WindsDown next (failWaiters waiters error) :=
  { hwinds with refused := failWaiters_refused waiters error }

theorem WindsDown.frame {before : EngineManager} (hwinds : before.WindsDown next answers)
    (hattempt : before.nextAttempt = manager.nextAttempt)
    (hstarts : ∀ attempt ∈ before.starts, attempt ∈ manager.starts) :
    manager.WindsDown next answers :=
  { hwinds with
    nextAttempt := hwinds.nextAttempt.trans hattempt
    starts := fun attempt hmem => hstarts attempt (hwinds.starts attempt hmem) }

theorem windsDown_beginStop (hdown : manager.shuttingDown = true) (reason : EngineStopReason)
    (waiters : List Nat) : manager.WindsDown (manager.beginStop running reason waiters) [] :=
  windsDown_of_upright hdown trivial rfl rfl

theorem windsDown_finish (hdown : manager.shuttingDown = true) :
    manager.WindsDown manager.finish [] :=
  windsDown_of_upright hdown trivial rfl rfl

namespace Closing

variable (hclosing : manager.Closing)
include hclosing

theorem stays : manager.WindsDown manager [] :=
  windsDown_of_upright hclosing.shuttingDown hclosing.upright rfl rfl

theorem acquire (reply : Nat) :
    manager.WindsDown (manager.acquire reply) (manager.acquireAnswers reply) := by
  simp only [EngineManager.acquire, acquireAnswers, hclosing.shuttingDown, if_true]
  exact hclosing.stays.refusing [reply] _

theorem release (generation : Nat) : manager.WindsDown (manager.release generation) [] := by
  unfold EngineManager.release
  split
  · split
    · simp only [if_pos hclosing.shuttingDown]
      split
      · exact windsDown_beginStop hclosing.shuttingDown _ _
      · exact windsDown_of_upright hclosing.shuttingDown trivial rfl rfl
    · exact hclosing.stays
  · exact hclosing.stays

theorem startFinished (attempt : Nat) (result : Option EngineSupervisor) :
    manager.WindsDown (manager.startFinished attempt result)
      (manager.startFinishedAnswers attempt result) := by
  have hdown := hclosing.shuttingDown
  unfold EngineManager.startFinished startFinishedAnswers
  cases hstate : manager.state with
  | starting activeAttempt waiters =>
    simp only [if_pos hdown]
    split
    · apply WindsDown.refusing
      cases result <;> exact windsDown_of_upright hdown trivial rfl rfl
    · cases result with
      | some supervisor =>
        apply WindsDown.refusing
        exact windsDown_of_upright hdown trivial rfl rfl
      | none => exact (windsDown_finish hdown).refusing waiters _
  | cold | running _ | quiescing _ _ _ | parked _ _ | resuming _ _ _ | stopping _ _ _ | closed =>
    have hupright := hclosing.upright
    cases result <;> exact windsDown_of_upright hdown hupright rfl rfl

theorem hotIdleExpired (generation epoch : Nat) :
    manager.WindsDown (manager.hotIdleExpired generation epoch) [] := by
  have hstays := hclosing.stays
  unfold EngineManager.hotIdleExpired
  simp only [hclosing.shuttingDown, Bool.not_true, Bool.false_eq_true, false_and, if_false]
  split <;> exact hstays

theorem idleExpired (generation epoch : Nat) :
    manager.WindsDown (manager.idleExpired generation epoch) [] := by
  have hstays := hclosing.stays
  unfold EngineManager.idleExpired
  simp only [hclosing.shuttingDown, Bool.not_true, Bool.false_eq_true, false_and, if_false]
  split <;> exact hstays

theorem quiesceFinished (generation parkEpoch : Nat) (succeeded : Bool) :
    manager.WindsDown (manager.quiesceFinished generation parkEpoch succeeded) [] := by
  unfold EngineManager.quiesceFinished
  split
  · rename_i hstate
    exact absurd hclosing.upright (by rw [hstate]; exact id)
  · exact hclosing.stays

theorem resumeFinished (generation parkEpoch : Nat) (succeeded : Bool) :
    manager.WindsDown (manager.resumeFinished generation parkEpoch succeeded)
      (manager.resumeFinishedAnswers generation parkEpoch succeeded) := by
  unfold EngineManager.resumeFinished resumeFinishedAnswers
  cases hstate : manager.state with
  | resuming running activeParkEpoch waiters =>
    exact absurd hclosing.upright (by rw [hstate]; exact id)
  | cold | starting _ _ | running _ | quiescing _ _ _ | parked _ _ | stopping _ _ _ | closed =>
    exact hclosing.stays

theorem drainExpired (generation epoch : Nat) :
    manager.WindsDown (manager.drainExpired generation epoch) [] := by
  unfold EngineManager.drainExpired
  split
  · split
    · exact windsDown_beginStop hclosing.shuttingDown _ _
    · exact hclosing.stays
  · exact hclosing.stays

theorem generationTerminal (generation : Nat) :
    manager.WindsDown (manager.generationTerminal generation) [] := by
  unfold EngineManager.generationTerminal
  split
  all_goals try split
  all_goals
    first
      | exact hclosing.stays
      | exact windsDown_beginStop hclosing.shuttingDown _ _

theorem stopFinished (generation : Nat) (reason : EngineStopReason) :
    manager.WindsDown (manager.stopFinished generation reason)
      (manager.stopFinishedAnswers generation reason) := by
  have hdown := hclosing.shuttingDown
  unfold EngineManager.stopFinished stopFinishedAnswers
  cases hstate : manager.state with
  | stopping activeGeneration activeReason waiters =>
    simp only [if_pos hdown]
    split
    · apply WindsDown.refusing
      exact windsDown_of_upright hdown trivial rfl rfl
    · exact (windsDown_finish hdown).refusing _ _
  | cold | starting _ _ | running _ | quiescing _ _ _ | parked _ _ | resuming _ _ _ | closed =>
    exact hclosing.stays

theorem shutdown : manager.WindsDown manager.shutdown manager.shutdownAnswers := by
  simp only [EngineManager.shutdown, shutdownAnswers, hclosing.shuttingDown, or_true, if_true]
  exact hclosing.stays

end Closing

theorem windsDown_startHostShutdown (hdown : manager.shuttingDown = true) (force : Bool) :
    manager.WindsDown (manager.startHostShutdown force) manager.startHostShutdownAnswers := by
  unfold startHostShutdown startHostShutdownAnswers
  cases hstate : manager.state with
  | running running =>
    simp only
    split
    · exact windsDown_beginStop hdown _ _
    · exact windsDown_of_upright hdown trivial rfl rfl
  | starting _ waiters | stopping _ _ waiters =>
    apply WindsDown.refusing
    exact windsDown_of_upright hdown trivial rfl rfl
  | quiescing _ _ waiters | resuming _ _ waiters =>
    exact (windsDown_beginStop hdown _ _).refusing waiters _
  | parked _ _ => exact windsDown_beginStop hdown _ _
  | cold | closed => exact windsDown_of_upright hdown trivial rfl rfl

theorem WindsDown.finish (hwinds : manager.WindsDown next answers) :
    manager.WindsDown next.finish answers :=
  { hwinds with closing := ⟨hwinds.closing.shuttingDown, trivial⟩ }

theorem windsDown_shutdown (hopen : manager.state ≠ .closed) (hfirst : manager.shuttingDown = false) :
    manager.WindsDown manager.shutdown manager.shutdownAnswers := by
  have hstarted : manager.WindsDown ({ manager with shuttingDown := true }.startHostShutdown false)
      manager.startHostShutdownAnswers :=
    (windsDown_startHostShutdown rfl false).frame rfl fun _ hmem => hmem
  simp only [shutdown, shutdownAnswers, hopen, hfirst, Bool.false_eq_true, or_self, if_false]
  split
  · exact hstarted.finish
  · exact hstarted

theorem windsDown_forceShutdown (hopen : manager.state ≠ .closed) :
    manager.WindsDown manager.forceShutdown manager.forceShutdownAnswers := by
  have hstarted : manager.WindsDown ({ manager with shuttingDown := true }.startHostShutdown true)
      manager.startHostShutdownAnswers :=
    (windsDown_startHostShutdown rfl true).frame rfl fun _ hmem => hmem
  simp only [forceShutdown, forceShutdownAnswers, hopen, if_false]
  split
  · exact hstarted.finish
  · exact hstarted

theorem Closing.forceShutdown (hclosing : manager.Closing) :
    manager.WindsDown manager.forceShutdown manager.forceShutdownAnswers := by
  by_cases hclosed : manager.state = .closed
  · simp only [EngineManager.forceShutdown, forceShutdownAnswers, hclosed, if_true]
    exact windsDown_of_upright hclosing.shuttingDown trivial rfl rfl
  · exact windsDown_forceShutdown hclosed

/-- A report that is taken leaves a manager that shuts down as it is. -/
theorem Closing.taken (hclosing : manager.Closing) (action : ManagerAction) :
    (manager.taken action).Closing := by
  cases action with
  | startFinished attempt result => cases result <;> exact ⟨hclosing.1, hclosing.2⟩
  | _ => exact ⟨hclosing.1, hclosing.2⟩

theorem WindsDown.of_taken {action : ManagerAction}
    (hwinds : (manager.taken action).WindsDown next answers) : manager.WindsDown next answers := by
  cases action with
  | startFinished attempt result =>
    cases result <;> exact hwinds.frame rfl fun _ hmem => List.mem_of_mem_erase hmem
  | _ => exact hwinds.frame rfl fun _ hmem => hmem

/-- A step of a manager that shuts down. -/
theorem Closing.step (hclosing : manager.Closing) {action : ManagerAction}
    (hstep : manager.step action = some next) :
    manager.WindsDown next (manager.answers action) := by
  obtain ⟨-, -, rfl⟩ := step_cases hstep
  have htaken := hclosing.taken action
  refine @WindsDown.of_taken _ _ _ action ?_
  cases action with
  | acquire reply => exact htaken.acquire reply
  | abandon reply | dropLease generation | crash generation =>
    exact windsDown_of_upright htaken.shuttingDown htaken.upright rfl rfl
  | release generation => exact htaken.release generation
  | startFinished attempt result =>
    cases result with
    | some supervisor => exact htaken.startFinished attempt (some supervisor)
    | none => exact htaken.startFinished attempt none
  | hotIdleExpired generation epoch => exact htaken.hotIdleExpired generation epoch
  | idleExpired generation epoch => exact htaken.idleExpired generation epoch
  | quiesceFinished generation parkEpoch succeeded =>
    exact htaken.quiesceFinished generation parkEpoch succeeded
  | resumeFinished generation parkEpoch succeeded =>
    exact htaken.resumeFinished generation parkEpoch succeeded
  | drainExpired generation epoch => exact htaken.drainExpired generation epoch
  | generationTerminal generation => exact htaken.generationTerminal generation
  | stopFinished generation reason => exact htaken.stopFinished generation reason
  | shutdown => exact htaken.shutdown
  | forceShutdown => exact htaken.forceShutdown

/-! ## What a step leaves alone -/

theorem issueLeases_frame (manager : EngineManager) (running : RunningGeneration)
    (waiters : List Nat) :
    (manager.issueLeases running waiters).1.abandoned = manager.abandoned ∧
      (manager.issueLeases running waiters).1.shuttingDown = manager.shuttingDown := by
  induction waiters generalizing manager running with
  | nil => exact ⟨rfl, rfl⟩
  | cons reply waiters ih =>
    have hissued : (manager.issueLease running reply).1.abandoned = manager.abandoned ∧
        (manager.issueLease running reply).1.shuttingDown = manager.shuttingDown := by
      unfold issueLease
      split <;> exact ⟨rfl, rfl⟩
    obtain ⟨habandoned, hdown⟩ :=
      ih (manager.issueLease running reply).1 (manager.issueLease running reply).2
    exact ⟨habandoned.trans hissued.1, hdown.trans hissued.2⟩

theorem serve_frame (waiters : List Nat) :
    (manager.serve running waiters).abandoned = manager.abandoned ∧
      (manager.serve running waiters).shuttingDown = manager.shuttingDown ∧
      (manager.serve running waiters).state ≠ .closed := by
  obtain ⟨habandoned, hdown⟩ := issueLeases_frame manager running waiters
  unfold serve
  simp only
  split <;> exact ⟨habandoned, hdown, by simp [scheduleIdleCycle]⟩

/-- Nobody goes away, no shutdown begins or ends, and who comes to be closed ends the loop. -/
structure Framed (manager next : EngineManager) : Prop where
  abandoned : next.abandoned = manager.abandoned
  shuttingDown : next.shuttingDown = manager.shuttingDown
  ends : manager.state ≠ .closed → next.state = .closed → next.finished = true

namespace Framed

theorem refl (manager : EngineManager) : manager.Framed manager :=
  ⟨rfl, rfl, fun hopen hclosed => absurd hclosed hopen⟩

theorem of_open (habandoned : next.abandoned = manager.abandoned)
    (hdown : next.shuttingDown = manager.shuttingDown) (hopen : next.state ≠ .closed) :
    manager.Framed next :=
  ⟨habandoned, hdown, fun _ hclosed => absurd hclosed hopen⟩

theorem beginStop (manager : EngineManager) (running : RunningGeneration)
    (reason : EngineStopReason) (waiters : List Nat) :
    manager.Framed (manager.beginStop running reason waiters) :=
  .of_open rfl rfl (by simp [EngineManager.beginStop])

theorem finish (manager : EngineManager) : manager.Framed manager.finish :=
  ⟨rfl, rfl, fun _ _ => rfl⟩

theorem serve (manager : EngineManager) (running : RunningGeneration) (waiters : List Nat) :
    manager.Framed (manager.serve running waiters) := by
  obtain ⟨habandoned, hdown, hopen⟩ := @serve_frame manager running waiters
  exact .of_open habandoned hdown hopen

theorem acquire (manager : EngineManager) (reply : Nat) : manager.Framed (manager.acquire reply) := by
  unfold EngineManager.acquire
  split
  · exact .refl manager
  · split
    · exact .of_open rfl rfl (by simp [spawnStart])
    · exact .of_open rfl rfl (by simp)
    · next running hstate =>
      refine .of_open ?_ ?_ (by simp)
      · exact (issueLeases_frame manager running [reply]).1
      · exact (issueLeases_frame manager running [reply]).2
    · split
      · exact .refl manager
      · exact .of_open rfl rfl (by simp)
    · split
      · exact .refl manager
      · exact .of_open rfl rfl (by simp [beginResume])
    · split
      · exact .refl manager
      · exact .of_open rfl rfl (by simp)
    · exact .of_open rfl rfl (by simp)
    · exact .refl manager

theorem release (manager : EngineManager) (generation : Nat) :
    manager.Framed (manager.release generation) := by
  unfold EngineManager.release
  split
  · split
    · simp only
      split
      · split
        · exact .beginStop manager _ _ _
        · exact .of_open rfl rfl (by simp [scheduleIdleCycle])
      · exact .of_open rfl rfl (by simp)
    · exact .refl manager
  · exact .refl manager

theorem startFinished (manager : EngineManager) (attempt : Nat)
    (result : Option EngineSupervisor) :
    manager.Framed (manager.startFinished attempt result) := by
  unfold EngineManager.startFinished
  split
  · split
    · split <;> exact .of_open rfl rfl (by simp)
    · split
      · split
        · exact .of_open rfl rfl (by simp)
        · exact ⟨(serve _ _ _).abandoned, (serve _ _ _).shuttingDown,
            fun _ hclosed => absurd hclosed (serve_frame _).2.2⟩
      · split
        · exact .finish manager
        · exact .of_open rfl rfl (by simp)
  · split
    · exact ⟨rfl, rfl, fun hopen hclosed => absurd hclosed hopen⟩
    · exact .refl manager

theorem hotIdleExpired (manager : EngineManager) (generation epoch : Nat) :
    manager.Framed (manager.hotIdleExpired generation epoch) := by
  unfold EngineManager.hotIdleExpired
  split
  · split
    · exact .of_open rfl rfl (by simp [beginQuiesce])
    · exact .refl manager
  · exact .refl manager

theorem idleExpired (manager : EngineManager) (generation epoch : Nat) :
    manager.Framed (manager.idleExpired generation epoch) := by
  unfold EngineManager.idleExpired
  split
  · split
    · exact .beginStop manager _ _ _
    · exact .refl manager
  · split
    · exact .beginStop manager _ _ _
    · exact .refl manager
  · split
    · exact .beginStop manager _ _ _
    · exact .refl manager
  · exact .refl manager

theorem quiesceFinished (manager : EngineManager) (generation parkEpoch : Nat)
    (succeeded : Bool) :
    manager.Framed (manager.quiesceFinished generation parkEpoch succeeded) := by
  unfold EngineManager.quiesceFinished
  split
  · split
    · exact .refl manager
    · simp only
      split
      · split
        · exact .of_open rfl rfl (by simp)
        · exact .of_open rfl rfl (by simp [beginResume])
      · exact .beginStop manager _ _ _
  · exact .refl manager

theorem resumeFinished (manager : EngineManager) (generation parkEpoch : Nat)
    (succeeded : Bool) :
    manager.Framed (manager.resumeFinished generation parkEpoch succeeded) := by
  unfold EngineManager.resumeFinished
  split
  · split
    · exact .refl manager
    · simp only
      split
      · exact .serve manager _ _
      · exact .beginStop manager _ _ _
  · exact .refl manager

theorem drainExpired (manager : EngineManager) (generation epoch : Nat) :
    manager.Framed (manager.drainExpired generation epoch) := by
  unfold EngineManager.drainExpired
  split
  · split
    · exact .beginStop manager _ _ _
    · exact .refl manager
  · exact .refl manager

theorem generationTerminal (manager : EngineManager) (generation : Nat) :
    manager.Framed (manager.generationTerminal generation) := by
  unfold EngineManager.generationTerminal
  split
  all_goals try split
  all_goals first | exact .refl manager | exact .beginStop manager _ _ _

theorem stopFinished (manager : EngineManager) (generation : Nat) (reason : EngineStopReason) :
    manager.Framed (manager.stopFinished generation reason) := by
  unfold EngineManager.stopFinished
  split
  · split
    · exact .of_open rfl rfl (by simp)
    · simp only
      split
      · exact .finish manager
      · split
        · exact .of_open rfl rfl (by simp)
        · exact .of_open rfl rfl (by simp [spawnStart])
  · exact .refl manager

/-- A task that has reported is no part of the frame. -/
theorem of_taken {action : ManagerAction} (hframed : (manager.taken action).Framed next) :
    manager.Framed next := by
  cases action with
  | startFinished attempt result =>
    cases result <;> exact ⟨hframed.abandoned, hframed.shuttingDown, hframed.ends⟩
  | _ => exact ⟨hframed.abandoned, hframed.shuttingDown, hframed.ends⟩

end Framed

theorem startHostShutdown_frame (manager : EngineManager) (force : Bool) :
    (manager.startHostShutdown force).abandoned = manager.abandoned ∧
      (manager.startHostShutdown force).shuttingDown = manager.shuttingDown := by
  unfold startHostShutdown
  split
  all_goals try split
  all_goals exact ⟨rfl, rfl⟩

/-- A shutdown tells nobody to go away, and where it closes the manager at once it ends the loop. -/
theorem shutdown_frame (manager : EngineManager) :
    manager.shutdown.abandoned = manager.abandoned ∧
      (manager.state ≠ .closed → manager.shutdown.state = .closed →
        manager.shutdown.finished = true) := by
  have hstarted := startHostShutdown_frame { manager with shuttingDown := true } false
  unfold shutdown
  split
  · exact ⟨rfl, fun hopen hclosed => absurd hclosed hopen⟩
  · simp only
    split
    · exact ⟨hstarted.1, fun _ _ => rfl⟩
    · next hstate => exact ⟨hstarted.1, fun _ hclosed => absurd hclosed hstate⟩

theorem forceShutdown_frame (manager : EngineManager) :
    manager.forceShutdown.abandoned = manager.abandoned ∧
      (manager.state ≠ .closed → manager.forceShutdown.state = .closed →
        manager.forceShutdown.finished = true) := by
  have hstarted := startHostShutdown_frame { manager with shuttingDown := true } true
  unfold forceShutdown
  split
  · exact ⟨rfl, fun _ _ => rfl⟩
  · simp only
    split
    · exact ⟨hstarted.1, fun _ _ => rfl⟩
    · next hstate => exact ⟨hstarted.1, fun _ hclosed => absurd hclosed hstate⟩

/-- Every command but those of a shutdown and of a caller that goes away. -/
theorem step_framed {action : ManagerAction} (hstep : manager.step action = some next)
    (habandon : ∀ reply, action ≠ .abandon reply)
    (hshuts : ¬ (action = .shutdown ∨ action = .forceShutdown)) : manager.Framed next := by
  obtain ⟨-, -, rfl⟩ := step_cases hstep
  refine @Framed.of_taken _ _ action ?_
  cases action with
  | acquire reply => exact .acquire manager reply
  | abandon reply => exact absurd rfl (habandon reply)
  | dropLease generation | crash generation =>
    exact ⟨rfl, rfl, fun hopen hclosed => absurd hclosed hopen⟩
  | release generation => exact .release _ generation
  | startFinished attempt result => exact .startFinished _ attempt result
  | hotIdleExpired generation epoch => exact .hotIdleExpired _ generation epoch
  | idleExpired generation epoch => exact .idleExpired _ generation epoch
  | quiesceFinished generation parkEpoch succeeded =>
    exact .quiesceFinished _ generation parkEpoch succeeded
  | resumeFinished generation parkEpoch succeeded =>
    exact .resumeFinished _ generation parkEpoch succeeded
  | drainExpired generation epoch => exact .drainExpired _ generation epoch
  | generationTerminal generation => exact .generationTerminal _ generation
  | stopFinished generation reason => exact .stopFinished _ generation reason
  | shutdown => exact absurd (.inl rfl) hshuts
  | forceShutdown => exact absurd (.inr rfl) hshuts

theorem step_frame {action : ManagerAction} (hstep : manager.step action = some next) :
    (∀ reply ∈ manager.abandoned, reply ∈ next.abandoned) ∧
      (next.shuttingDown = manager.shuttingDown ∨ action = .shutdown ∨ action = .forceShutdown) ∧
      (manager.state ≠ .closed → next.state = .closed → next.finished = true) := by
  by_cases hshuts : action = .shutdown ∨ action = .forceShutdown
  · obtain ⟨-, -, rfl⟩ := step_cases hstep
    rcases hshuts with rfl | rfl
    · obtain ⟨habandoned, hends⟩ := shutdown_frame manager
      exact ⟨fun _ hmem => habandoned ▸ hmem, .inr (.inl rfl), hends⟩
    · obtain ⟨habandoned, hends⟩ := forceShutdown_frame manager
      exact ⟨fun _ hmem => habandoned ▸ hmem, .inr (.inr rfl), hends⟩
  · by_cases habandon : ∃ reply, action = .abandon reply
    · obtain ⟨reply, rfl⟩ := habandon
      obtain ⟨-, -, rfl⟩ := step_cases hstep
      exact ⟨fun _ hmem => List.mem_cons_of_mem reply hmem, .inl rfl,
        fun hopen hclosed => absurd hclosed hopen⟩
    · have hframed := step_framed hstep (fun reply haction => habandon ⟨reply, haction⟩) hshuts
      exact ⟨fun _ hmem => hframed.abandoned ▸ hmem, .inl hframed.shuttingDown, hframed.ends⟩

/-- A manager that shuts down is on no way to or from a parked generation, and a closed
one has ended its loop. -/
structure Orderly (manager : EngineManager) : Prop where
  upright : manager.shuttingDown = true → manager.state.Upright
  closed : manager.state = .closed → manager.finished = true

theorem orderly_new : new.Orderly :=
  ⟨by simp [new], by simp [new]⟩

theorem Orderly.open (horderly : manager.Orderly) {action : ManagerAction}
    (hstep : manager.step action = some next) : manager.state ≠ .closed := by
  intro hclosed
  simp only [EngineManager.step, horderly.closed hclosed, if_true] at hstep
  cases hstep

theorem Orderly.shuts (horderly : manager.Orderly) {action : ManagerAction}
    (hstep : manager.step action = some next)
    (hshuts : action = .shutdown ∨ action = .forceShutdown) :
    manager.WindsDown next (manager.answers action) := by
  by_cases hdown : manager.shuttingDown = true
  · exact Closing.step ⟨hdown, horderly.upright hdown⟩ hstep
  · have hopen := horderly.open hstep
    obtain ⟨-, -, rfl⟩ := step_cases hstep
    rcases hshuts with rfl | rfl
    · exact windsDown_shutdown hopen (by simpa using hdown)
    · exact windsDown_forceShutdown hopen

theorem Orderly.step (horderly : manager.Orderly) {action : ManagerAction}
    (hstep : manager.step action = some next) : next.Orderly := by
  obtain ⟨_, hkept, hends⟩ := step_frame hstep
  refine ⟨fun hdown => ?_, hends (horderly.open hstep)⟩
  rcases hkept with hsame | hshuts
  · rw [hsame] at hdown
    exact (Closing.step ⟨hdown, horderly.upright hdown⟩ hstep).closing.upright
  · exact (horderly.shuts hstep hshuts).closing.upright

end EngineManager

/-! ## Every caller -/

theorem ManagerAction.brings_count_le (action : ManagerAction) (reply : Nat) :
    action.brings.count reply ≤ 1 := by
  cases action with
  | acquire other => exact List.count_le_length
  | _ => exact Nat.zero_le 1

namespace AnsweringManager

variable {answering next : AnsweringManager} {action : ManagerAction}

/-- How often a channel is waited on or was answered. -/
def account (answering : AnsweringManager) (reply : Nat) : Nat :=
  answering.manager.state.waiters.count reply + answering.answered.count reply

theorem step_eq (hstep : answering.step action = some next) :
    (∀ reply ∈ action.brings, reply ∉ answering.received) ∧
      ∃ manager, answering.manager.step action = some manager ∧
        next =
          { manager
            received := answering.received ++ action.brings
            answers := answering.answers ++ answering.manager.answers action } := by
  unfold step at hstep
  split at hstep
  · cases hstep
  · rename_i hfresh
    obtain ⟨manager, hmanager, rfl⟩ := Option.map_eq_some_iff.mp hstep
    exact ⟨fun reply hbrings hold => hfresh ⟨reply, hbrings, hold⟩, manager, hmanager, rfl⟩

theorem account_step (hstep : answering.step action = some next) (reply : Nat) :
    next.account reply ≤ answering.account reply + action.brings.count reply ∧
      (reply ∉ answering.manager.abandoned →
        next.account reply = answering.account reply + action.brings.count reply) := by
  obtain ⟨_, manager, hmanager, rfl⟩ := step_eq hstep
  obtain ⟨hle, heq⟩ := EngineManager.step_conserves hmanager
  have hle := hle reply
  have heq := heq reply
  simp only [account, answered, List.map_append, List.count_append]
  refine ⟨by omega, fun hopen => ?_⟩
  have heq := heq hopen
  omega

/-- Only who was received has an account, and whose channel is open has one entry in it. -/
structure Accounted (answering : AnsweringManager) : Prop where
  le_one : ∀ reply, answering.account reply ≤ 1
  received : ∀ reply, reply ∉ answering.received → answering.account reply = 0
  settled : ∀ reply ∈ answering.received, reply ∉ answering.manager.abandoned →
    answering.account reply = 1

theorem accounted_new : new.Accounted :=
  ⟨fun _ => Nat.zero_le 1, fun _ _ => rfl, fun _ hmem => absurd hmem List.not_mem_nil⟩

/-- Every step accounts for the requests that it answers. -/
theorem Accounted.step (haccounted : answering.Accounted)
    (hstep : answering.step action = some next) : next.Accounted := by
  have haccount := account_step hstep
  obtain ⟨hfresh, manager, hmanager, hnext⟩ := step_eq hstep
  have hreceived : next.received = answering.received ++ action.brings := by rw [hnext]
  have hclosed : ∀ reply ∈ answering.manager.abandoned, reply ∈ next.manager.abandoned := by
    rw [hnext]
    exact (EngineManager.step_frame hmanager).1
  -- who is brought has no account yet
  have hbrought : ∀ reply, reply ∈ action.brings → answering.account reply = 0 :=
    fun reply hbrings => haccounted.received reply (hfresh reply hbrings)
  have hcount : ∀ reply, reply ∉ action.brings → action.brings.count reply = 0 :=
    fun reply hbrings => List.count_eq_zero.mpr hbrings
  constructor
  · intro reply
    have hle := (haccount reply).1
    by_cases hbrings : reply ∈ action.brings
    · have hone := action.brings_count_le reply
      have hzero := hbrought reply hbrings
      omega
    · have hone := haccounted.le_one reply
      have hzero := hcount reply hbrings
      omega
  · intro reply hunknown
    rw [hreceived, List.mem_append, not_or] at hunknown
    have hle := (haccount reply).1
    rw [haccounted.received reply hunknown.1, hcount reply hunknown.2] at hle
    omega
  · intro reply hmem hopen
    have hstill : reply ∉ answering.manager.abandoned := fun h => hopen (hclosed reply h)
    rw [(haccount reply).2 hstill]
    rw [hreceived, List.mem_append] at hmem
    by_cases hbrings : reply ∈ action.brings
    · have hone := action.brings_count_le reply
      have hpositive := List.count_pos_iff.mpr hbrings
      rw [hbrought reply hbrings]
      omega
    · rw [haccounted.settled reply (hmem.resolve_right hbrings) hstill, hcount reply hbrings]

/-- A lease is given to nobody, and no start is spawned, on the way from the one to the other. -/
structure Quiet (answering next : AnsweringManager) : Prop where
  leases : next.leases = answering.leases
  nextAttempt : next.manager.nextAttempt = answering.manager.nextAttempt
  starts : ∀ attempt ∈ next.manager.starts, attempt ∈ answering.manager.starts

theorem quiet_of_windsDown (hstep : answering.step action = some next)
    (hwinds : ∀ manager, answering.manager.step action = some manager →
      answering.manager.WindsDown manager (answering.manager.answers action)) :
    next.manager.Closing ∧ answering.Quiet next := by
  obtain ⟨_, manager, hmanager, rfl⟩ := step_eq hstep
  obtain ⟨hclosing, hattempt, hstarts, hrefused⟩ := hwinds manager hmanager
  refine ⟨hclosing, ?_, hattempt, hstarts⟩
  have hnone : (answering.manager.answers action).filter (fun answer => answer.2.isLease) = [] := by
    apply List.filter_eq_nil_iff.mpr
    intro answer hanswer
    obtain ⟨error, herror⟩ := hrefused answer hanswer
    simp [herror, AcquireAnswer.isLease]
  simp only [leases, List.filter_append, hnone, List.append_nil]

/-- Each caller waits or was answered, one of the two and once, unless it is gone; no step
loses one that waits; and once the host has shut the manager down there are no more leases
and starts. -/
structure AnsweredOnce (actions : List ManagerAction) (answering : AnsweringManager) : Prop where
  atMostOnce : ∀ reply,
    answering.manager.state.waiters.count reply + answering.answered.count reply ≤ 1
  received : ∀ reply, reply ∈ answering.manager.state.waiters ∨ reply ∈ answering.answered →
    reply ∈ answering.received
  once : ∀ reply ∈ answering.received, reply ∉ answering.manager.abandoned →
    answering.manager.state.waiters.count reply + answering.answered.count reply = 1
  kept : ∀ action next, answering.step action = some next →
    ∀ reply ∈ answering.manager.state.waiters, reply ∉ next.manager.abandoned →
      reply ∈ next.manager.state.waiters ∨
        reply ∈ (answering.manager.answers action).map Prod.fst
  shutdown : ∀ before command after middle, actions = before ++ command :: after →
    (command = .shutdown ∨ command = .forceShutdown) →
      answeringAfter (before ++ [command]) = some middle → middle.Quiet answering

theorem kept_of_step (hstep : answering.step action = some next) {reply : Nat}
    (hwaits : reply ∈ answering.manager.state.waiters) (hopen : reply ∉ next.manager.abandoned) :
    reply ∈ next.manager.state.waiters ∨
      reply ∈ (answering.manager.answers action).map Prod.fst := by
  obtain ⟨_, manager, hmanager, rfl⟩ := step_eq hstep
  have hstill : reply ∉ answering.manager.abandoned :=
    fun h => hopen ((EngineManager.step_frame hmanager).1 reply h)
  have heq := (EngineManager.step_conserves hmanager).eq reply hstill
  have hpositive := List.count_pos_iff.mpr hwaits
  by_contra hlost
  rw [not_or] at hlost
  rw [List.count_eq_zero.mpr hlost.1, List.count_eq_zero.mpr hlost.2] at heq
  omega

end AnsweringManager

theorem answeringAfter_accounted {actions : List ManagerAction} {answering : AnsweringManager}
    (hrun : answeringAfter actions = some answering) :
    answering.Accounted ∧ answering.manager.Orderly := by
  refine Machine.run_invariant (motive := fun answering : AnsweringManager =>
    answering.Accounted ∧ answering.manager.Orderly) ?_ ?_ hrun
  · exact ⟨AnsweringManager.accounted_new, EngineManager.orderly_new⟩
  · rintro answering action next ⟨haccounted, horderly⟩ hstep
    obtain ⟨_, manager, hmanager, rfl⟩ := AnsweringManager.step_eq hstep
    exact ⟨haccounted.step hstep, horderly.step hmanager⟩

theorem quiet_of_closing {middle answering : AnsweringManager} {actions : List ManagerAction}
    (hclosing : middle.manager.Closing)
    (hrun : Machine.run AnsweringManager.step middle actions = some answering) :
    middle.Quiet answering := by
  have hkept := Machine.run_invariant (motive := fun answering : AnsweringManager =>
    answering.manager.Closing ∧ middle.Quiet answering)
    ⟨hclosing, rfl, rfl, fun _ hmem => hmem⟩ ?_ hrun
  · exact hkept.2
  · rintro answering action next ⟨hclosing, hleases, hattempt, hstarts⟩ hstep
    obtain ⟨hnext, hquiet⟩ :=
      AnsweringManager.quiet_of_windsDown hstep fun _ hmanager => hclosing.step hmanager
    exact ⟨hnext, hquiet.leases.trans hleases, hquiet.nextAttempt.trans hattempt,
      fun attempt hmem => hstarts attempt (hquiet.starts attempt hmem)⟩

/-- In every state of every run each caller that is still there waits or was answered once. -/
theorem answeringAfter_answeredOnce {actions : List ManagerAction} {answering : AnsweringManager}
    (hrun : answeringAfter actions = some answering) : answering.AnsweredOnce actions := by
  obtain ⟨haccounted, _⟩ := answeringAfter_accounted hrun
  refine
    { atMostOnce := haccounted.le_one
      received := ?_
      once := haccounted.settled
      kept := fun _ _ hstep _ hwaits hopen => AnsweringManager.kept_of_step hstep hwaits hopen
      shutdown := ?_ }
  · intro reply hmem
    by_contra hunknown
    have hzero := haccounted.received reply hunknown
    rw [AnsweringManager.account, Nat.add_eq_zero_iff, List.count_eq_zero, List.count_eq_zero]
      at hzero
    exact hmem.elim hzero.1 hzero.2
  · rintro before command after middle rfl hshuts hmiddle
    obtain ⟨reached, hreached, hcommand⟩ :
        ∃ reached, answeringAfter before = some reached ∧ reached.step command = some middle := by
      rw [answeringAfter, Machine.run_append_singleton] at hmiddle
      exact Option.bind_eq_some_iff.mp hmiddle
    obtain ⟨_, horderly⟩ := answeringAfter_accounted hreached
    obtain ⟨hclosing, _⟩ := AnsweringManager.quiet_of_windsDown hcommand
      fun _ hmanager => horderly.shuts hmanager hshuts
    rw [List.append_cons, answeringAfter, Machine.run_append] at hrun
    obtain ⟨_, hsame, hafter⟩ := Option.bind_eq_some_iff.mp hrun
    obtain rfl := Option.some.inj (hmiddle.symm.trans hsame)
    exact quiet_of_closing hclosing hafter

/-- Of two callers of a start one goes away, and the host shuts down before a third. -/
def servedActions : List ManagerAction :=
  [.acquire 0, .acquire 1, .abandon 1, .startFinished 1 (some { generation := 7, parks := true }),
    .shutdown, .acquire 2]

theorem served_answeredOnce :
    ∃ answering, answeringAfter servedActions = some answering ∧
      answering.answers = [(0, .lease 7), (2, .error .runtimeShuttingDown)] ∧
      answering.AnsweredOnce servedActions := by
  obtain ⟨answering, hrun, hanswers⟩ : ∃ answering,
      answeringAfter servedActions = some answering ∧
        answering.answers = [(0, .lease 7), (2, .error .runtimeShuttingDown)] :=
    ⟨_, rfl, rfl⟩
  exact ⟨answering, hrun, hanswers, answeringAfter_answeredOnce hrun⟩

/-- The caller that went away is neither waiting nor answered. -/
theorem served_not_all_answered :
    ¬ ∀ actions answering, answeringAfter actions = some answering →
      ∀ reply ∈ answering.received, reply ∈ answering.manager.state.waiters ∨
        answering.answered.count reply = 1 := by
  intro hall
  obtain ⟨answering, hrun, hreceived, hdropped⟩ : ∃ answering,
      answeringAfter servedActions = some answering ∧ 1 ∈ answering.received ∧
        ¬ (1 ∈ answering.manager.state.waiters ∨ answering.answered.count 1 = 1) :=
    ⟨_, rfl, by decide, by decide⟩
  exact hdropped (hall servedActions answering hrun 1 hreceived)

end Chat2DB.Engine
