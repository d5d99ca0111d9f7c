import Chat2DB.Engine.AnsweredOnce
import Chat2DB.Engine.IdleTimer

/-! # Reports that are awaited

While callers wait, or the manager shuts down, a report that is awaited is on its way, and each
such report leads nearer to the answers, or to the end, whatever it says. No other command leads
back.
-/

namespace Chat2DB.Engine

variable {action : ManagerAction} {reply : Nat}

/-- How many reports a manager that shuts down awaits, at most. -/
def ManagerState.remaining : ManagerState → Nat
  | .closed => 0
  | .stopping _ _ _ => 1
  | .cold | .starting _ _ | .running _ | .quiescing _ _ _ | .parked _ _ | .resuming _ _ _ => 2

/-- How many reports the callers of a state await, at most. -/
def ManagerState.pending : ManagerState → Nat
  | .quiescing _ _ _ => 4
  | .resuming _ _ _ => 3
  | .stopping _ _ _ => 2
  | .starting _ _ => 1
  | .cold | .running _ | .parked _ _ | .closed => 0

namespace EngineManager

variable {manager next : EngineManager} {running : RunningGeneration}

/-- The report that the state is for, or the timer of the last drain. -/
def Awaits (manager : EngineManager) : ManagerAction → Prop
  | .startFinished _ _ | .stopFinished _ _ => True
  | .quiesceFinished generation parkEpoch _ =>
    ∃ running waiters, manager.state = .quiescing running parkEpoch waiters ∧
      running.generation = generation
  | .resumeFinished generation parkEpoch _ =>
    ∃ running waiters, manager.state = .resuming running parkEpoch waiters ∧
      running.generation = generation
  | .drainExpired generation epoch => epoch = manager.drainEpoch ∧
    ∃ running, manager.state = .running running ∧ running.generation = generation
  | _ => False

/-- A manager that shuts down is not cold, and while it runs the timer of its drain is set. -/
structure Draining (manager : EngineManager) : Prop where
  sound : manager.Sound
  orderly : manager.Orderly
  finished : manager.finished = true → manager.state = .closed
  warm : manager.shuttingDown = true → manager.state ≠ .cold
  timed : manager.shuttingDown = true → ∀ running, manager.state = .running running →
    (running.generation, manager.drainEpoch) ∈ manager.drains

theorem draining_new : new.Draining :=
  ⟨sound_new, orderly_new, by simp [new], by simp [new], by simp [new]⟩

theorem Sound.starting (hsound : manager.Sound) :
    ∀ attempt ∈ manager.starts, ∃ waiters, manager.state = .starting attempt waiters := by
  intro attempt hmem
  obtain ⟨waiters, hstate, -⟩ := hsound.starting_of_mem hmem
  exact ⟨waiters, hstate⟩

theorem Sound.stopping (hsound : manager.Sound) :
    ∀ stop ∈ manager.stops, ∃ waiters, manager.state = .stopping stop.1 stop.2 waiters := by
  rintro ⟨generation, reason⟩ hmem
  obtain ⟨waiters, hstate, -⟩ := hsound.stopping_of_mem hmem
  exact ⟨waiters, hstate⟩

theorem serve_finished (waiters : List Nat) :
    (manager.serve running waiters).finished = manager.finished := by
  unfold serve
  simp only
  split <;> exact issueLeases_finished waiters

/-- What a command finds once the task that sent it has reported. -/
structure Receiving (manager : EngineManager) : Prop where
  unfinished : manager.finished = false
  notClosed : manager.state ≠ .closed
  upright : manager.shuttingDown = true → manager.state.Upright
  warm : manager.shuttingDown = true → manager.state ≠ .cold
  timed : manager.shuttingDown = true → ∀ running, manager.state = .running running →
    (running.generation, manager.drainEpoch) ∈ manager.drains

theorem Draining.receiving (hdraining : manager.Draining)
    (hstep : manager.step action = some next) : manager.Receiving where
  unfinished := (step_cases hstep).1
  notClosed := hdraining.orderly.open hstep
  upright := hdraining.orderly.upright
  warm := hdraining.warm
  timed := hdraining.timed

/-- A command leads no further from the end or from the answers, and one that is awaited leads
nearer to them. -/
structure Leads (manager next : EngineManager) (awaited : Prop) : Prop where
  finished : next.finished = true → next.state = .closed
  warm : next.shuttingDown = true → next.state ≠ .cold
  timed : next.shuttingDown = true → ∀ running, next.state = .running running →
    (running.generation, next.drainEpoch) ∈ next.drains
  remaining : manager.shuttingDown = true →
    next.state.remaining ≤ manager.state.remaining ∧
      (awaited → next.state.remaining < manager.state.remaining)
  pending : ∀ reply ∈ manager.state.waiters, reply ∈ next.state.waiters →
    next.state.pending ≤ manager.state.pending ∧
      (awaited → next.state.pending < manager.state.pending)

/-! ## Where a command leads -/

section Leads

variable {awaited : Prop}

/-- The tasks are no part of the way. -/
theorem Leads.before {before : EngineManager} (hleads : before.Leads next awaited)
    (hstate : before.state = manager.state)
    (hdown : manager.shuttingDown = true → before.shuttingDown = true) :
    manager.Leads next awaited :=
  { hleads with
    remaining := fun h => hstate ▸ hleads.remaining (hdown h)
    pending := hstate ▸ hleads.pending }

theorem leads_finish (hclosed : manager.state ≠ .closed) (next : EngineManager) :
    manager.Leads next.finish awaited where
  finished _ := rfl
  warm _ := ManagerState.noConfusion
  timed _ _ := ManagerState.noConfusion
  remaining _ := by
    have hleft : 0 < manager.state.remaining := by
      cases hstate : manager.state <;> simp_all [ManagerState.remaining]
    exact ⟨hleft.le, fun _ => hleft⟩
  pending _ _ hafter := nomatch hafter

/-- While nobody shuts the manager down, only the callers have a way before them. -/
theorem leads_of_open (hunfinished : next.finished = false)
    (hopen : manager.shuttingDown = false) (hstill : next.shuttingDown = manager.shuttingDown)
    (hpending : ∀ reply ∈ manager.state.waiters, reply ∈ next.state.waiters →
      next.state.pending ≤ manager.state.pending ∧
        (awaited → next.state.pending < manager.state.pending)) :
    manager.Leads next awaited := by
  rw [hopen] at hstill
  refine ⟨?_, ?_, ?_, ?_, hpending⟩
  · simp [hunfinished]
  · simp [hstill]
  · simp [hstill]
  · simp [hopen]

/-- Once its stop is spawned, a generation is one report from the end, and its callers are
two from their answers. -/
theorem leads_beginStop (hunfinished : manager.finished = false) (running : RunningGeneration)
    (reason : EngineStopReason) {waiters : List Nat} (hfar : 1 < manager.state.remaining)
    (hwaiters : waiters = [] ∨ 2 < manager.state.pending) :
    manager.Leads (manager.beginStop running reason waiters) awaited where
  finished hfinished := absurd (hunfinished.symm.trans hfinished) Bool.false_ne_true
  warm _ := ManagerState.noConfusion
  timed _ _ := ManagerState.noConfusion
  remaining _ := ⟨hfar.le, fun _ => hfar⟩
  pending reply _ hafter := by
    rcases hwaiters with rfl | hfurther
    · cases hafter
    · exact ⟨hfurther.le, fun _ => hfurther⟩

/-- Unless it closes the manager, a shutdown dismisses the callers and leads to no state that
is further from the end. -/
theorem leads_startHostShutdown (hunfinished : manager.finished = false) (force : Bool)
    (hclosed : (manager.startHostShutdown force).state ≠ .closed) :
    manager.Leads (manager.startHostShutdown force) False := by
  have hrunning : ∀ {next : EngineManager}, next.finished = manager.finished →
      next.finished = true → next.state = .closed := by
    intro next hsame hfinished
    exact absurd (hunfinished.symm.trans (hsame.symm.trans hfinished)) Bool.false_ne_true
  cases hstate : manager.state with
  | cold | closed => simp [EngineManager.startHostShutdown, hstate] at hclosed
  | starting attempt waiters | stopping generation reason waiters =>
    simp only [EngineManager.startHostShutdown, hstate]
    exact
      { finished := hrunning rfl
        warm := fun _ => ManagerState.noConfusion
        timed := fun _ _ => ManagerState.noConfusion
        remaining := fun _ => by simp [hstate, ManagerState.remaining]
        pending := fun _ _ hafter => nomatch hafter }
  | running running =>
    simp only [EngineManager.startHostShutdown, hstate]
    split
    · exact leads_beginStop hunfinished _ _ (by simp [hstate, ManagerState.remaining])
        (.inl rfl)
    · -- leases are out, and the timer of the drain is set
      refine
        { finished := hrunning rfl
          warm := fun _ => ManagerState.noConfusion
          timed := ?_
          remaining := fun _ => by simp [hstate, ManagerState.remaining]
          pending := by simp [ManagerState.waiters] }
      rintro - _ ⟨⟩
      exact List.mem_cons_self
  | quiescing running parkEpoch waiters | resuming running parkEpoch waiters
  | parked running parkEpoch =>
    simp only [EngineManager.startHostShutdown, hstate]
    exact leads_beginStop hunfinished _ _ (by simp [hstate, ManagerState.remaining])
      (.inl rfl)

end Leads

namespace Receiving

section

variable (hreceiving : manager.Receiving)
include hreceiving

theorem stays {awaited : Prop} (hawaited : ¬ awaited) : manager.Leads manager awaited where
  finished hfinished := absurd (hreceiving.unfinished.symm.trans hfinished) Bool.false_ne_true
  warm := hreceiving.warm
  timed := hreceiving.timed
  remaining _ := ⟨le_rfl, fun h => absurd h hawaited⟩
  pending _ _ _ := ⟨le_rfl, fun h => absurd h hawaited⟩

theorem acquire (reply : Nat) : manager.Leads (manager.acquire reply) False := by
  have hstays : manager.Leads manager False := hreceiving.stays id
  unfold EngineManager.acquire
  split
  · exact hstays
  · next hdown =>
    have hopen : manager.shuttingDown = false := by simpa using hdown
    split
    · next hstate =>
      exact leads_of_open hreceiving.unfinished hopen rfl (by simp [hstate, ManagerState.waiters])
    · next hstate =>
      exact leads_of_open hreceiving.unfinished hopen rfl (by simp [hstate, ManagerState.pending])
    · next hstate =>
      refine leads_of_open ?_ hopen ?_ (by simp [hstate, ManagerState.waiters])
      · exact (issueLeases_finished [reply]).trans hreceiving.unfinished
      · exact (issueLeases_frame manager _ [reply]).2
    · next hstate =>
      split
      · exact hstays
      · exact leads_of_open hreceiving.unfinished hopen rfl
          (by simp [hstate, ManagerState.pending])
    · next hstate =>
      split
      · exact hstays
      · exact leads_of_open hreceiving.unfinished hopen rfl
          (by simp [hstate, ManagerState.waiters])
    · next hstate =>
      split
      · exact hstays
      · exact leads_of_open hreceiving.unfinished hopen rfl
          (by simp [hstate, ManagerState.pending])
    · next hstate =>
      exact leads_of_open hreceiving.unfinished hopen rfl (by simp [hstate, ManagerState.pending])
    · exact hstays

theorem release (generation : Nat) : manager.Leads (manager.release generation) False := by
  have hstays : manager.Leads manager False := hreceiving.stays id
  unfold EngineManager.release
  split
  · next running hstate =>
    have hnobody : manager.state.waiters = [] := by rw [hstate]; rfl
    split
    · simp only
      split
      · split
        · exact leads_beginStop hreceiving.unfinished _ _
            (by simp [hstate, ManagerState.remaining]) (.inl rfl)
        · next hdown =>
          exact leads_of_open hreceiving.unfinished (by simpa using hdown) rfl (by simp [hnobody])
      · -- leases are left, and where the manager drains its timer stays set
        refine
          { finished := fun hfinished => ?_
            warm := fun _ => ManagerState.noConfusion
            timed := ?_
            remaining := fun _ => by simp [hstate, ManagerState.remaining]
            pending := by simp [hnobody] }
        · exact absurd (hreceiving.unfinished.symm.trans hfinished) Bool.false_ne_true
        · rintro hdown _ ⟨⟩
          exact hreceiving.timed hdown running hstate
    · exact hstays
  · exact hstays

/-- A start that is reported is the one the manager waits for. -/
theorem startFinished {attempt : Nat}
    (hstarting : ∃ waiters, manager.state = .starting attempt waiters)
    (result : Option EngineSupervisor) :
    manager.Leads (manager.startFinished attempt result) True := by
  obtain ⟨waiters, hstarting⟩ := hstarting
  unfold EngineManager.startFinished
  rw [hstarting]
  simp only [ne_eq, not_true_eq_false, if_false]
  split
  · split
    · -- the process that comes too late is stopped at once
      exact
        { finished := fun hfinished =>
            absurd (hreceiving.unfinished.symm.trans hfinished) Bool.false_ne_true
          warm := fun _ => ManagerState.noConfusion
          timed := fun _ _ => ManagerState.noConfusion
          remaining := fun _ => by simp [hstarting, ManagerState.remaining]
          pending := fun _ _ hafter => nomatch hafter }
    · next hdown =>
      refine leads_of_open ?_ (by simpa using hdown) ?_ (by simp)
      · exact (serve_finished waiters).trans hreceiving.unfinished
      · exact (serve_frame waiters).2.1
  · split
    · exact leads_finish hreceiving.notClosed manager
    · next hdown =>
      exact leads_of_open hreceiving.unfinished (by simpa using hdown) rfl
        (by simp [ManagerState.waiters])

theorem hotIdleExpired (generation epoch : Nat) :
    manager.Leads (manager.hotIdleExpired generation epoch) False := by
  have hstays : manager.Leads manager False := hreceiving.stays id
  unfold EngineManager.hotIdleExpired
  split
  · next hstate =>
    split
    · next hdue =>
      exact leads_of_open hreceiving.unfinished (by simpa using hdue.1) rfl
        (by simp [hstate, ManagerState.waiters])
    · exact hstays
  · exact hstays

theorem idleExpired (generation epoch : Nat) :
    manager.Leads (manager.idleExpired generation epoch) False := by
  have hstays : manager.Leads manager False := hreceiving.stays id
  unfold EngineManager.idleExpired
  split
  · next hstate =>
    split
    · exact leads_beginStop hreceiving.unfinished _ _ (by simp [hstate, ManagerState.remaining])
        (.inl rfl)
    · exact hstays
  · next hstate =>
    split
    · exact leads_beginStop hreceiving.unfinished _ _ (by simp [hstate, ManagerState.remaining])
        (.inr (by simp [hstate, ManagerState.pending]))
    · exact hstays
  · next hstate =>
    split
    · exact leads_beginStop hreceiving.unfinished _ _ (by simp [hstate, ManagerState.remaining])
        (.inl rfl)
    · exact hstays
  · exact hstays

theorem quiesceFinished (generation parkEpoch : Nat) (succeeded : Bool) :
    manager.Leads (manager.quiesceFinished generation parkEpoch succeeded)
      (manager.Awaits (.quiesceFinished generation parkEpoch succeeded)) := by
  unfold EngineManager.quiesceFinished
  split
  · next running activeParkEpoch waiters hstate =>
    -- a manager that shuts down is on no way to a park
    have hopen : manager.shuttingDown = false := by
      rw [← Bool.not_eq_true]
      intro hdown
      have hupright := hreceiving.upright hdown
      rw [hstate] at hupright
      exact hupright
    split
    · next hother =>
      refine hreceiving.stays ?_
      rintro ⟨held, others, hheld, rfl⟩
      obtain ⟨rfl, rfl, -⟩ := ManagerState.quiescing.inj (hstate.symm.trans hheld)
      simp at hother
    · simp only
      split
      · split
        · exact leads_of_open hreceiving.unfinished hopen rfl (by simp [ManagerState.waiters])
        · refine leads_of_open hreceiving.unfinished hopen rfl fun _ _ _ => ?_
          simp [hstate, beginResume, ManagerState.pending]
      · exact leads_beginStop hreceiving.unfinished _ _ (by simp [hstate, ManagerState.remaining])
          (.inr (by simp [hstate, ManagerState.pending]))
  · next hother =>
    refine hreceiving.stays ?_
    rintro ⟨held, others, hheld, -⟩
    exact hother _ _ _ hheld

theorem resumeFinished (generation parkEpoch : Nat) (succeeded : Bool) :
    manager.Leads (manager.resumeFinished generation parkEpoch succeeded)
      (manager.Awaits (.resumeFinished generation parkEpoch succeeded)) := by
  unfold EngineManager.resumeFinished
  split
  · next running activeParkEpoch waiters hstate =>
    have hopen : manager.shuttingDown = false := by
      rw [← Bool.not_eq_true]
      intro hdown
      have hupright := hreceiving.upright hdown
      rw [hstate] at hupright
      exact hupright
    split
    · next hother =>
      refine hreceiving.stays ?_
      rintro ⟨held, others, hheld, rfl⟩
      obtain ⟨rfl, rfl, -⟩ := ManagerState.resuming.inj (hstate.symm.trans hheld)
      simp at hother
    · simp only
      split
      · refine leads_of_open ?_ hopen ?_ (by simp)
        · exact (serve_finished _).trans hreceiving.unfinished
        · exact (serve_frame _).2.1
      · exact leads_beginStop hreceiving.unfinished _ _ (by simp [hstate, ManagerState.remaining])
          (.inr (by simp [hstate, ManagerState.pending]))
  · next hother =>
    refine hreceiving.stays ?_
    rintro ⟨held, others, hheld, -⟩
    exact hother _ _ _ hheld

/-- The timer of another drain leaves that of the last one set. -/
theorem drainExpired (generation epoch : Nat) :
    manager.Leads
      ({ manager with drains := manager.drains.erase (generation, epoch) }.drainExpired
        generation epoch)
      (manager.Awaits (.drainExpired generation epoch)) := by
  unfold EngineManager.drainExpired
  split
  · next running hstate =>
    have hstate : manager.state = .running running := hstate
    split
    · refine Leads.before (leads_beginStop ?_ _ _ ?_ (.inl rfl)) rfl id
      · exact hreceiving.unfinished
      · simp [hstate, ManagerState.remaining]
    · next hother =>
      have hawaited : manager.shuttingDown = true →
          ¬ manager.Awaits (.drainExpired generation epoch) := by
        rintro hdown ⟨rfl, held, hheld, rfl⟩
        obtain rfl := ManagerState.running.inj (hstate.symm.trans hheld)
        exact hother ⟨hdown, rfl, rfl⟩
      refine
        { finished := fun hfinished => ?_
          warm := hreceiving.warm
          timed := fun hdown held hheld => ?_
          remaining := fun hdown => ⟨le_rfl, fun h => absurd h (hawaited hdown)⟩
          pending := by simp [hstate, ManagerState.waiters] }
      · exact absurd (hreceiving.unfinished.symm.trans hfinished) Bool.false_ne_true
      · refine (List.mem_erase_of_ne fun htimer => ?_).mpr (hreceiving.timed hdown held hheld)
        obtain ⟨hgeneration, hepoch⟩ := Prod.mk.inj htimer
        exact hawaited hdown ⟨hepoch.symm, held, hheld, hgeneration⟩
  · next hother =>
    have hstays : manager.Leads manager (manager.Awaits (.drainExpired generation epoch)) := by
      refine hreceiving.stays ?_
      rintro ⟨-, held, hheld, -⟩
      exact hother _ hheld
    exact
      { hstays with timed := fun _ held hheld => absurd hheld (hother held) }

theorem generationTerminal (generation : Nat) :
    manager.Leads (manager.generationTerminal generation) False := by
  have hstays : manager.Leads manager False := hreceiving.stays id
  unfold EngineManager.generationTerminal
  split
  · next hstate =>
    split
    · exact leads_beginStop hreceiving.unfinished _ _ (by simp [hstate, ManagerState.remaining])
        (.inl rfl)
    · exact hstays
  · next hstate =>
    split
    · exact leads_beginStop hreceiving.unfinished _ _ (by simp [hstate, ManagerState.remaining])
        (.inl rfl)
    · exact hstays
  · next hstate =>
    split
    · exact leads_beginStop hreceiving.unfinished _ _ (by simp [hstate, ManagerState.remaining])
        (.inr (by simp [hstate, ManagerState.pending]))
    · exact hstays
  · next hstate =>
    split
    · exact leads_beginStop hreceiving.unfinished _ _ (by simp [hstate, ManagerState.remaining])
        (.inr (by simp [hstate, ManagerState.pending]))
    · exact hstays
  · exact hstays

/-- A stop that is reported is the one the manager waits for. -/
theorem stopFinished {generation : Nat} {reason : EngineStopReason} {waiters : List Nat}
    (hstopping : manager.state = .stopping generation reason waiters) :
    manager.Leads (manager.stopFinished generation reason) True := by
  unfold EngineManager.stopFinished
  rw [hstopping]
  simp only [ne_eq, not_true_eq_false, or_self, if_false]
  split
  · exact leads_finish hreceiving.notClosed manager
  · next hdown =>
    have hopen : manager.shuttingDown = false := by simpa using hdown
    split
    · exact leads_of_open hreceiving.unfinished hopen rfl (by simp [ManagerState.waiters])
    · refine leads_of_open hreceiving.unfinished hopen rfl fun _ _ _ => ?_
      simp [hstopping, spawnStart, ManagerState.pending]

end

/-- The loop ends with a shutdown that closes the manager, and goes on with any other. -/
theorem shutsDown (hreceiving : manager.Receiving) (force : Bool) :
    manager.Leads
      (if ({ manager with shuttingDown := true }.startHostShutdown force).state = .closed then
        ({ manager with shuttingDown := true }.startHostShutdown force).finish
      else { manager with shuttingDown := true }.startHostShutdown force) False := by
  split
  · exact leads_finish hreceiving.notClosed _
  · next hclosed =>
    have hgoes : EngineManager.Leads { manager with shuttingDown := true }
        ({ manager with shuttingDown := true }.startHostShutdown force) False := by
      refine leads_startHostShutdown ?_ force hclosed
      exact hreceiving.unfinished
    exact hgoes.before rfl fun _ => rfl

theorem shutdown (hreceiving : manager.Receiving) : manager.Leads manager.shutdown False := by
  unfold EngineManager.shutdown
  split
  · exact hreceiving.stays id
  · exact hreceiving.shutsDown false

theorem forceShutdown (hreceiving : manager.Receiving) :
    manager.Leads manager.forceShutdown False := by
  unfold EngineManager.forceShutdown
  rw [if_neg hreceiving.notClosed]
  exact hreceiving.shutsDown true

/-- The task that sent the command is no longer on its way; only a drain is waited for. -/
theorem taken (hreceiving : manager.Receiving) (action : ManagerAction)
    (hother : ∀ generation epoch, action ≠ .drainExpired generation epoch) :
    (manager.taken action).Receiving := by
  obtain ⟨hunfinished, hopen, hupright, hwarm, htimed⟩ := hreceiving
  cases action with
  | drainExpired generation epoch => exact absurd rfl (hother generation epoch)
  | startFinished attempt result =>
    cases result <;> exact ⟨hunfinished, hopen, hupright, hwarm, htimed⟩
  | _ => exact ⟨hunfinished, hopen, hupright, hwarm, htimed⟩

end Receiving

theorem Leads.of_taken {action : ManagerAction} {awaited : Prop}
    (hleads : (manager.taken action).Leads next awaited) : manager.Leads next awaited := by
  cases action with
  | startFinished attempt result => cases result <;> exact hleads.before rfl fun hdown => hdown
  | _ => exact hleads.before rfl fun hdown => hdown

/-- What each command leads to. -/
theorem Draining.leads (hdraining : manager.Draining) (hstep : manager.step action = some next) :
    manager.Leads next (manager.Awaits action) := by
  have hreceiving := hdraining.receiving hstep
  have htaken := hreceiving.taken action
  obtain ⟨-, hdue, rfl⟩ := step_cases hstep
  cases action with
  | acquire reply => exact hreceiving.acquire reply
  | abandon reply | dropLease generation | crash generation =>
    obtain ⟨hunfinished, hopen, hupright, hwarm, htimed⟩ := hreceiving
    refine Leads.before (Receiving.stays ?_ id) rfl fun hdown => hdown
    exact ⟨hunfinished, hopen, hupright, hwarm, htimed⟩
  | release generation => exact .of_taken ((htaken nofun).release generation)
  | startFinished attempt result =>
    have hstarting := hdraining.sound.starting attempt hdue.1
    cases result with
    | some supervisor => exact .of_taken ((htaken nofun).startFinished hstarting (some supervisor))
    | none => exact .of_taken ((htaken nofun).startFinished hstarting none)
  | hotIdleExpired generation epoch =>
    exact .of_taken ((htaken nofun).hotIdleExpired generation epoch)
  | idleExpired generation epoch =>
    exact .of_taken ((htaken nofun).idleExpired generation epoch)
  | quiesceFinished generation parkEpoch succeeded =>
    exact .of_taken ((htaken nofun).quiesceFinished generation parkEpoch succeeded)
  | resumeFinished generation parkEpoch succeeded =>
    exact .of_taken ((htaken nofun).resumeFinished generation parkEpoch succeeded)
  | drainExpired generation epoch => exact hreceiving.drainExpired generation epoch
  | generationTerminal generation =>
    exact .of_taken ((htaken nofun).generationTerminal generation)
  | stopFinished generation reason =>
    obtain ⟨waiters, hstopping⟩ := hdraining.sound.stopping (generation, reason) hdue
    exact .of_taken ((htaken nofun).stopFinished hstopping)
  | shutdown => exact hreceiving.shutdown
  | forceShutdown => exact hreceiving.forceShutdown

theorem Draining.step (hdraining : manager.Draining) {action : ManagerAction}
    (hstep : manager.step action = some next) : next.Draining :=
  have hleads := hdraining.leads hstep
  ⟨hdraining.sound.step hstep, hdraining.orderly.step hstep, hleads.finished, hleads.warm,
    hleads.timed⟩

/-- No command leads away from the end, and what is awaited leads nearer. -/
theorem Draining.nearer (hdraining : manager.Draining) (hdown : manager.shuttingDown = true)
    (hstep : manager.step action = some next) :
    next.shuttingDown = true ∧ next.state.remaining ≤ manager.state.remaining ∧
      (manager.Awaits action → next.state.remaining < manager.state.remaining) := by
  have hclosing : manager.Closing := ⟨hdown, hdraining.orderly.upright hdown⟩
  exact ⟨(hclosing.step hstep).closing.shuttingDown, (hdraining.leads hstep).remaining hdown⟩

/-- A caller that goes on waiting is led no further from its answer. -/
theorem Draining.waits (hdraining : manager.Draining) (hstep : manager.step action = some next)
    (hbefore : reply ∈ manager.state.waiters) (hafter : reply ∈ next.state.waiters) :
    next.state.pending ≤ manager.state.pending ∧
      (manager.Awaits action → next.state.pending < manager.state.pending) :=
  (hdraining.leads hstep).pending reply hbefore hafter

/-- Nobody goes away with a report. -/
theorem Awaits.abandoned {report : ManagerAction} (hawaits : manager.Awaits report)
    (hstep : manager.step report = some next) : next.abandoned = manager.abandoned := by
  refine (step_framed hstep ?_ ?_).abandoned
  · rintro reply rfl
    exact hawaits
  · rintro (rfl | rfl) <;> exact hawaits

/-- A report that is waited for can come. -/
theorem Draining.due (hdraining : manager.Draining) (hopen : manager.finished = false)
    (hneeds : manager.shuttingDown = true ∨ manager.state.waiters ≠ []) :
    ∃ report next, manager.Awaits report ∧ manager.step report = some next := by
  have hsound := hdraining.sound
  unfold Sound at hsound
  cases hstate : manager.state with
  | cold | parked running parkEpoch | closed =>
    have hupright := hdraining.orderly.upright
    have hwarm := hdraining.warm
    have hclosed := hdraining.orderly.closed
    simp_all [ManagerState.Upright]
  | starting attempt waiters =>
    rw [hstate] at hsound
    refine ⟨.startFinished attempt none, ?_⟩
    simp [Awaits, EngineManager.step, hopen, hsound.2.1]
  | running running =>
    have hdown : manager.shuttingDown = true := by simpa [hstate] using hneeds
    have htimer := hdraining.timed hdown running hstate
    refine ⟨.drainExpired running.generation manager.drainEpoch, ?_⟩
    simp [Awaits, EngineManager.step, hopen, htimer, hstate]
  | quiescing running parkEpoch waiters =>
    rw [hstate] at hsound
    have hmem := List.count_pos_iff.mp (hsound.2.2.1.1 ▸ Nat.one_pos)
    refine ⟨.quiesceFinished running.generation parkEpoch true, ?_⟩
    simp [Awaits, EngineManager.step, hopen, hmem, hstate]
  | resuming running parkEpoch waiters =>
    rw [hstate] at hsound
    have hmem := List.count_pos_iff.mp (hsound.2.2.2.1 ▸ Nat.one_pos)
    refine ⟨.resumeFinished running.generation parkEpoch true, ?_⟩
    simp [Awaits, EngineManager.step, hopen, hmem, hstate]
  | stopping generation reason waiters =>
    rw [hstate] at hsound
    refine ⟨.stopFinished generation reason, ?_⟩
    simp [Awaits, EngineManager.step, hopen, hsound.2.2]

theorem draining_managerAfter {actions : List ManagerAction}
    (hrun : managerAfter actions = some manager) : manager.Draining :=
  Machine.run_invariant draining_new (fun _ _ _ hdraining hstep => hdraining.step hstep) hrun

end EngineManager

/-! ## Shutdown -/

/-- Every shutdown comes to its end by at most two reports that are on their way, and no
command leads back. -/
theorem managerAfter_closes {actions : List ManagerAction} {manager : EngineManager}
    (hrun : managerAfter actions = some manager) (hdown : manager.shuttingDown = true) :
    (∃ reports closed, reports.length ≤ manager.state.remaining ∧
      Machine.Along EngineManager.Awaits EngineManager.step manager reports ∧
      Machine.run EngineManager.step manager reports = some closed ∧ closed.finished = true) ∧
    ∀ action next, manager.step action = some next → next.shuttingDown = true ∧
      next.state.remaining ≤ manager.state.remaining ∧
      (manager.Awaits action → next.state.remaining < manager.state.remaining) := by
  have hdraining := EngineManager.draining_managerAfter hrun
  refine ⟨?_, fun _ _ hstep => hdraining.nearer hdown hstep⟩
  refine @Machine.exists_run_of_rank _ _ EngineManager.step manager EngineManager.Awaits
    (fun manager => manager.Draining ∧ manager.shuttingDown = true)
    (fun manager => manager.finished = true) (fun manager => manager.state.remaining) ?_
    (.inr ⟨hdraining, hdown⟩)
  rintro state ⟨hstate, hstill⟩ hopen
  obtain ⟨report, next, hawaits, hstep⟩ := hstate.due (by simpa using hopen) (.inl hstill)
  obtain ⟨hnext, -, hnearer⟩ := hstate.nearer hstill hstep
  exact ⟨report, next, hawaits, hstep, Nat.zero_lt_of_lt (hnearer hawaits),
    .inr ⟨⟨hstate.step hstep, hnext⟩, hnearer hawaits⟩⟩

/-- The host shuts down while a lease is out. -/
def drainedActions : List ManagerAction :=
  [.acquire 0, .startFinished 1 (some { generation := 7, parks := true }), .shutdown]

theorem drained_closes :
    ∃ manager, managerAfter drainedActions = some manager ∧ manager.finished = false ∧
      ∃ reports closed, Machine.run EngineManager.step manager reports = some closed ∧
        closed.finished = true := by
  obtain ⟨manager, hrun, hopen, hdown⟩ : ∃ manager, managerAfter drainedActions = some manager ∧
      manager.finished = false ∧ manager.shuttingDown = true := ⟨_, rfl, rfl, rfl⟩
  obtain ⟨⟨reports, closed, -, -, hclosed⟩, -⟩ := managerAfter_closes hrun hdown
  exact ⟨manager, hrun, hopen, reports, closed, hclosed⟩

/-! ## Waiting callers -/

namespace AnsweringManager

variable {answering next : AnsweringManager}

theorem pending_pos {state : ManagerState} (hwaits : reply ∈ state.waiters) :
    0 < state.pending := by
  cases state <;> simp_all [ManagerState.pending]

theorem waits_step (hdraining : answering.manager.Draining)
    (hstep : answering.step action = some next)
    (hwaits : reply ∈ answering.manager.state.waiters) (hopen : reply ∉ next.manager.abandoned) :
    reply ∈ next.answered ∨ reply ∈ next.manager.state.waiters ∧
      next.manager.state.pending ≤ answering.manager.state.pending ∧
      (answering.manager.Awaits action →
        next.manager.state.pending < answering.manager.state.pending) := by
  rcases kept_of_step hstep hwaits hopen with hstill | hanswered
  · obtain ⟨-, manager, hmanager, rfl⟩ := step_eq hstep
    exact .inr ⟨hstill, hdraining.waits hmanager hwaits hstill⟩
  · left
    obtain ⟨-, manager, -, rfl⟩ := step_eq hstep
    rw [answered, List.map_append]
    exact List.mem_append_right _ hanswered

/-- A report brings no caller, so that the machine with the answers takes it as well. -/
theorem step_report {report : ManagerAction} (hawaits : answering.manager.Awaits report)
    {manager : EngineManager} (hstep : answering.manager.step report = some manager) :
    ∃ next, answering.step report = some next ∧ next.manager = manager := by
  have hbrings : report.brings = [] := by
    cases report <;> first | rfl | exact hawaits.elim
  simp [step, hbrings, hstep]

end AnsweringManager

/-- Every caller that waits, and does not go away, is answered after at most four reports that
are on their way, and what else is commanded does not put it back. -/
theorem answeringAfter_answers {actions : List ManagerAction} {answering : AnsweringManager}
    (hrun : answeringAfter actions = some answering) {reply : Nat}
    (hwaits : reply ∈ answering.manager.state.waiters)
    (hopen : reply ∉ answering.manager.abandoned) :
    (∃ reports later, reports.length ≤ answering.manager.state.pending ∧
      Machine.Along (fun answering => answering.manager.Awaits) AnsweringManager.step answering
        reports ∧
      Machine.run AnsweringManager.step answering reports = some later ∧ reply ∈ later.answered) ∧
    ∀ action next, answering.step action = some next → reply ∉ next.manager.abandoned →
      reply ∈ next.answered ∨ reply ∈ next.manager.state.waiters ∧
        next.manager.state.pending ≤ answering.manager.state.pending ∧
        (answering.manager.Awaits action →
          next.manager.state.pending < answering.manager.state.pending) := by
  have hkept : ∀ (before : AnsweringManager) (action : ManagerAction) (after : AnsweringManager),
      before.manager.Draining → before.step action = some after → after.manager.Draining := by
    intro before action after hbefore hstep
    obtain ⟨-, manager, hmanager, rfl⟩ := AnsweringManager.step_eq hstep
    exact hbefore.step hmanager
  have hdraining : answering.manager.Draining :=
    Machine.run_invariant (motive := fun answering : AnsweringManager =>
      answering.manager.Draining) EngineManager.draining_new hkept hrun
  refine ⟨?_, fun action next hstep hstill =>
    AnsweringManager.waits_step hdraining hstep hwaits hstill⟩
  refine @Machine.exists_run_of_rank _ _ AnsweringManager.step answering
    (fun answering => answering.manager.Awaits)
    (fun answering => answering.manager.Draining ∧ reply ∈ answering.manager.state.waiters ∧
      reply ∉ answering.manager.abandoned)
    (fun answering => reply ∈ answering.answered)
    (fun answering => answering.manager.state.pending) ?_ (.inr ⟨hdraining, hwaits, hopen⟩)
  rintro state ⟨hstate, hstill, hthere⟩ -
  have hunfinished : state.manager.finished = false := by
    rw [← Bool.not_eq_true]
    intro hfinished
    rw [hstate.finished hfinished] at hstill
    cases hstill
  obtain ⟨report, manager, hawaits, hmanager⟩ :=
    hstate.due hunfinished (.inr (List.ne_nil_of_mem hstill))
  obtain ⟨next, hstep, rfl⟩ := AnsweringManager.step_report hawaits hmanager
  have hnext := hawaits.abandoned hmanager ▸ hthere
  refine ⟨report, next, hawaits, hstep, AnsweringManager.pending_pos hstill, ?_⟩
  refine (AnsweringManager.waits_step hstate hstep hstill hnext).imp_right ?_
  rintro ⟨hwaiting, -, hnearer⟩
  exact ⟨⟨hkept _ _ _ hstate hstep, hwaiting, hnext⟩, hnearer hawaits⟩

/-- Two callers wait for a start, and one of them goes away. -/
theorem twoCallers_answers :
    ∃ answering, answeringAfter [.acquire 0, .acquire 1, .abandon 1] = some answering ∧
      ∃ reports later, Machine.run AnsweringManager.step answering reports = some later ∧
        0 ∈ later.answered := by
  obtain ⟨answering, hrun, hwaits, hopen⟩ : ∃ answering,
      answeringAfter [.acquire 0, .acquire 1, .abandon 1] = some answering ∧
        0 ∈ answering.manager.state.waiters ∧ 0 ∉ answering.manager.abandoned :=
    ⟨_, rfl, by decide, by decide⟩
  obtain ⟨⟨reports, later, -, -, hlater⟩, -⟩ := answeringAfter_answers hrun hwaits hopen
  exact ⟨answering, hrun, reports, later, hlater⟩

end Chat2DB.Engine
