import Chat2DB.Engine.ManagerSafety

/-! # Leases

The count of a generation is the number of its leases that are out, and only a
crash, an expired drain or a forced shutdown ends a generation with leases out.
-/

namespace Chat2DB.Engine

namespace EngineManager

variable {manager next : EngineManager} {running : RunningGeneration}

/-- The generation that was held is still held if a lease of it is out. -/
def KeepsLeased (manager next : EngineManager) : Prop :=
  ∀ running, manager.state.current = some running → 0 < next.outstanding running.generation →
    ∃ kept, next.state.current = some kept ∧ kept.generation = running.generation

theorem keepsLeased_of_state (hstate : next.state = manager.state) : manager.KeepsLeased next := by
  intro running hcurrent _
  exact ⟨running, by rw [hstate]; exact hcurrent, rfl⟩

theorem keepsLeased_of_generation (hcurrent : manager.state.current = some running)
    {kept : RunningGeneration} (hkept : next.state.current = some kept)
    (hsame : kept.generation = running.generation) : manager.KeepsLeased next := by
  intro other hother _
  obtain rfl := Option.some.inj (hcurrent.symm.trans hother)
  exact ⟨kept, hkept, hsame⟩

theorem keepsLeased_of_none (hcurrent : manager.state.current = none) :
    manager.KeepsLeased next := by
  intro running hrunning
  rw [hcurrent] at hrunning
  cases hrunning

theorem Owns.keepsLeased_beginStop (howns : manager.Owns running)
    (hcurrent : manager.state.current = some running) (hleases : running.leases = 0)
    (reason : EngineStopReason) (waiters : List Nat) :
    manager.KeepsLeased (manager.beginStop running reason waiters) := by
  intro other hother hout
  obtain rfl := Option.some.inj (hcurrent.symm.trans hother)
  obtain ⟨_, _, _, _, _, hcount⟩ := howns
  have hnone : manager.outstanding running.generation = 0 := by rw [← hcount, hleases]
  change 0 < manager.outstanding running.generation at hout
  omega

theorem issueLease_generation (reply : Nat) :
    (manager.issueLease running reply).2.generation = running.generation := by
  unfold issueLease
  split <;> rfl

theorem issueLeases_generation (waiters : List Nat) :
    (manager.issueLeases running waiters).2.generation = running.generation := by
  induction waiters generalizing manager running with
  | nil => rfl
  | cons reply waiters ih => exact ih.trans (issueLease_generation reply)

theorem serve_current (waiters : List Nat) :
    ∃ kept, (manager.serve running waiters).state.current = some kept ∧
      kept.generation = running.generation := by
  unfold serve
  simp only
  split
  · exact ⟨_, rfl, issueLeases_generation waiters⟩
  · exact ⟨_, rfl, issueLeases_generation waiters⟩

theorem acquire_keepsLeased (reply : Nat) : manager.KeepsLeased (manager.acquire reply) := by
  unfold acquire
  split
  · exact keepsLeased_of_state rfl
  · cases hstate : manager.state with
    | cold | starting => exact keepsLeased_of_none (by rw [hstate]; rfl)
    | running running =>
      exact keepsLeased_of_generation (by rw [hstate]; rfl) rfl (issueLease_generation reply)
    | quiescing running _ _ | parked running _ | resuming running _ _ =>
      have hcurrent : manager.state.current = some running := by rw [hstate]; rfl
      simp only
      split
      · exact keepsLeased_of_state rfl
      · exact keepsLeased_of_generation hcurrent rfl rfl
    | stopping | closed => exact keepsLeased_of_none (by rw [hstate]; rfl)

/-- The generation is stopped by a release only if that was the last lease. -/
theorem Sound.release_keepsLeased (hsound : manager.Sound) {generation : Nat}
    (hmem : generation ∈ manager.releases) :
    manager.KeepsLeased
      ({ manager with releases := manager.releases.erase generation }.release generation) := by
  unfold EngineManager.release
  simp only
  split
  · rename_i running hstate
    have hcurrent : manager.state.current = some running := by rw [hstate]; rfl
    split
    · rename_i hmatch
      obtain ⟨rfl, hpositive⟩ := hmatch
      split
      · rename_i hlast
        split
        · intro other hother hout
          obtain rfl := Option.some.inj (hcurrent.symm.trans hother)
          obtain ⟨_, _, _, _, _, hcount⟩ := hsound.owns hcurrent
          have hreleased := List.count_pos_iff.mpr hmem
          change 0 < manager.held.count running.generation +
            (manager.releases.erase running.generation).count running.generation at hout
          rw [List.count_erase_self] at hout
          simp only [outstanding] at hcount hlast
          omega
        · exact keepsLeased_of_generation hcurrent rfl rfl
      · exact keepsLeased_of_generation hcurrent rfl rfl
    · exact keepsLeased_of_state rfl
  · exact keepsLeased_of_state rfl

theorem Sound.idleExpired_keepsLeased (hsound : manager.Sound) (generation epoch : Nat) :
    manager.KeepsLeased (manager.idleExpired generation epoch) := by
  unfold EngineManager.idleExpired
  cases hstate : manager.state with
  | running running =>
    have hcurrent : manager.state.current = some running := by rw [hstate]; rfl
    simp only
    split
    · rename_i hidle
      exact (hsound.owns hcurrent).keepsLeased_beginStop hcurrent hidle.2.2.2 _ _
    · exact keepsLeased_of_state rfl
  | quiescing running | parked running =>
    have hcurrent : manager.state.current = some running := by rw [hstate]; rfl
    have hleases := hsound.leases_eq_zero hcurrent (by simp [hstate])
    simp only
    split
    · exact (hsound.owns hcurrent).keepsLeased_beginStop hcurrent hleases _ _
    · exact keepsLeased_of_state rfl
  | cold | starting _ _ | resuming _ _ _ | stopping _ _ _ | closed =>
    exact keepsLeased_of_state rfl

theorem hotIdleExpired_keepsLeased (generation epoch : Nat) :
    manager.KeepsLeased (manager.hotIdleExpired generation epoch) := by
  unfold hotIdleExpired
  split
  · rename_i running hstate
    have hcurrent : manager.state.current = some running := by rw [hstate]; rfl
    split
    · exact keepsLeased_of_generation hcurrent rfl rfl
    · exact keepsLeased_of_state rfl
  · exact keepsLeased_of_state rfl

theorem Sound.keepsLeased_reap (hsound : manager.Sound)
    (hcurrent : manager.state.current = some running)
    (hparked : ∀ other, manager.state ≠ .running other)
    (houtstanding : next.outstanding running.generation = manager.outstanding running.generation)
    (waiters : List Nat) : manager.KeepsLeased (next.reap running waiters) := by
  intro other hother hout
  obtain rfl := Option.some.inj (hcurrent.symm.trans hother)
  obtain ⟨_, _, _, _, _, hcount⟩ := hsound.owns hcurrent
  rw [hsound.leases_eq_zero hcurrent hparked] at hcount
  change 0 < next.outstanding running.generation at hout
  omega

theorem Sound.quiesceFinished_keepsLeased (hsound : manager.Sound) (generation parkEpoch : Nat)
    (succeeded : Bool) :
    manager.KeepsLeased ({ manager with
      quiesces := manager.quiesces.erase (generation, parkEpoch) }.quiesceFinished
        generation parkEpoch succeeded) := by
  unfold EngineManager.quiesceFinished
  cases hstate : manager.state with
  | quiescing running activeParkEpoch waiters =>
    have hcurrent : manager.state.current = some running := by rw [hstate]; rfl
    simp only
    split
    · exact keepsLeased_of_state hstate.symm
    · split
      · split
        · exact keepsLeased_of_generation hcurrent rfl rfl
        · exact keepsLeased_of_generation hcurrent rfl rfl
      · exact hsound.keepsLeased_reap hcurrent (by simp [hstate]) rfl _
  | cold | starting _ _ | running _ | parked _ _ | resuming _ _ _ | stopping _ _ _ | closed =>
    exact keepsLeased_of_state hstate.symm

theorem Sound.resumeFinished_keepsLeased (hsound : manager.Sound) (generation parkEpoch : Nat)
    (succeeded : Bool) :
    manager.KeepsLeased ({ manager with
      resumes := manager.resumes.erase (generation, parkEpoch) }.resumeFinished
        generation parkEpoch succeeded) := by
  unfold EngineManager.resumeFinished
  cases hstate : manager.state with
  | resuming running activeParkEpoch waiters =>
    have hcurrent : manager.state.current = some running := by rw [hstate]; rfl
    simp only
    split
    · exact keepsLeased_of_state hstate.symm
    · split
      · obtain ⟨kept, hkept, hsame⟩ := serve_current _
        exact keepsLeased_of_generation hcurrent hkept hsame
      · exact hsound.keepsLeased_reap hcurrent (by simp [hstate]) rfl _
  | cold | starting _ _ | running _ | parked _ _ | quiescing _ _ _ | stopping _ _ _ | closed =>
    exact keepsLeased_of_state hstate.symm

theorem Sound.startHostShutdown_keepsLeased (hsound : manager.Sound) :
    manager.KeepsLeased (manager.startHostShutdown false) := by
  unfold EngineManager.startHostShutdown
  cases hstate : manager.state with
  | running running =>
    have hcurrent : manager.state.current = some running := by rw [hstate]; rfl
    simp only
    split
    · rename_i hidle
      exact (hsound.owns hcurrent).keepsLeased_beginStop hcurrent
        (hidle.resolve_left (by simp)) _ _
    · exact keepsLeased_of_state hstate.symm
  | quiescing running _ _ | parked running _ | resuming running _ _ =>
    have hcurrent : manager.state.current = some running := by rw [hstate]; rfl
    exact (hsound.owns hcurrent).keepsLeased_beginStop hcurrent
      (hsound.leases_eq_zero hcurrent (by simp [hstate])) _ _
  | cold | starting _ _ | stopping _ _ _ | closed =>
    exact keepsLeased_of_none (by rw [hstate]; rfl)

theorem KeepsLeased.finish (hkeeps : manager.KeepsLeased next) (hclosed : next.state = .closed) :
    manager.KeepsLeased next.finish := by
  intro running hcurrent hout
  obtain ⟨kept, hkept, _⟩ := hkeeps running hcurrent hout
  rw [hclosed] at hkept
  cases hkept

theorem Sound.shutdown_keepsLeased (hsound : manager.Sound) :
    manager.KeepsLeased manager.shutdown := by
  unfold EngineManager.shutdown
  split
  · exact keepsLeased_of_state rfl
  · have hmarked : Sound { manager with shuttingDown := true } := hsound
    have hkeeps : manager.KeepsLeased
        ({ manager with shuttingDown := true }.startHostShutdown false) :=
      hmarked.startHostShutdown_keepsLeased
    simp only
    split
    · rename_i hclosed
      exact hkeeps.finish hclosed
    · exact hkeeps

/-- What may end a generation although leases of it are out. -/
def ManagerAction.EndsLeased (manager : EngineManager) (generation : Nat) : ManagerAction → Prop
  | .generationTerminal terminal => terminal = generation ∧ generation ∈ manager.terminal
  | .drainExpired drained _ => drained = generation ∧ manager.shuttingDown = true
  | .forceShutdown => True
  | _ => False

/-- A generation that is leased stays the current one, unless the action ends it. -/
theorem Sound.step_keepsLeased (hsound : manager.Sound) {action : ManagerAction}
    (hstep : manager.step action = some next)
    (hcurrent : manager.state.current = some running)
    (hout : 0 < next.outstanding running.generation) :
    (∃ kept, next.state.current = some kept ∧ kept.generation = running.generation) ∨
      ManagerAction.EndsLeased manager running.generation action := by
  have hkept : manager.KeepsLeased next →
      (∃ kept, next.state.current = some kept ∧ kept.generation = running.generation) ∨
        ManagerAction.EndsLeased manager running.generation action :=
    fun hkeeps => .inl (hkeeps running hcurrent hout)
  obtain ⟨-, hdue, rfl⟩ := step_cases hstep
  cases action with
  | acquire reply => exact hkept (acquire_keepsLeased reply)
  | abandon reply | dropLease generation | crash generation => exact hkept (keepsLeased_of_state rfl)
  | release generation => exact hkept (hsound.release_keepsLeased hdue)
  | startFinished attempt result =>
    obtain ⟨waiters, hstate, _⟩ := hsound.starting_of_mem hdue.1
    rw [hstate] at hcurrent
    cases hcurrent
  | hotIdleExpired generation epoch =>
    exact .inl (hotIdleExpired_keepsLeased generation epoch running hcurrent hout)
  | idleExpired generation epoch =>
    have hfired : (manager.taken (.idleExpired generation epoch)).Sound := hsound
    exact .inl (hfired.idleExpired_keepsLeased generation epoch running hcurrent hout)
  | quiesceFinished generation parkEpoch succeeded =>
    exact hkept (hsound.quiesceFinished_keepsLeased generation parkEpoch succeeded)
  | resumeFinished generation parkEpoch succeeded =>
    exact hkept (hsound.resumeFinished_keepsLeased generation parkEpoch succeeded)
  | drainExpired generation epoch =>
    -- a drain ends the leases of its own generation, and only while shutting down
    by_cases hdrain : generation = running.generation ∧ manager.shuttingDown = true
    · exact .inr hdrain
    · refine hkept (keepsLeased_of_state ?_)
      change (EngineManager.drainExpired (manager.taken (.drainExpired generation epoch))
        generation epoch).state = manager.state
      unfold EngineManager.drainExpired
      split
      · next other hstate =>
        change manager.state = .running other at hstate
        rw [hstate] at hcurrent
        obtain rfl : other = running := Option.some.inj hcurrent
        rw [if_neg fun h => hdrain ⟨h.2.1.symm, h.1⟩]
        rfl
      · rfl
  | generationTerminal generation =>
    by_cases hsame : generation = running.generation
    · exact .inr ⟨hsame, hsame ▸ hdue.2⟩
    · refine hkept (keepsLeased_of_state ?_)
      have hother : running.generation ≠ generation := Ne.symm hsame
      change (EngineManager.generationTerminal (manager.taken (.generationTerminal generation))
        generation).state = manager.state
      unfold EngineManager.generationTerminal
      split <;> rename_i hstate <;> first | rfl | skip
      all_goals
        change manager.state = _ at hstate
        rw [hstate] at hcurrent
        obtain rfl := Option.some.inj hcurrent
        rw [if_neg hother]
        rfl
  | stopFinished generation reason =>
    obtain ⟨waiters, hstate, _⟩ := hsound.stopping_of_mem hdue
    rw [hstate] at hcurrent
    cases hcurrent
  | shutdown => exact hkept hsound.shutdown_keepsLeased
  | forceShutdown => exact .inr trivial

/-- The leases of what the manager holds are counted, nothing is leased while it is
parked or on its way there or back, a release of another generation is ignored, and
a generation with leases out ends by a crash, an expired drain or force. -/
structure LeasesCounted (manager : EngineManager) : Prop where
  count : ∀ running, manager.state.current = some running →
    running.leases = manager.outstanding running.generation
  parked : ∀ running, manager.state.current = some running →
    (∀ other, manager.state ≠ .running other) → running.leases = 0
  older : ∀ generation released,
    (∀ running, manager.state.current = some running → running.generation ≠ generation) →
    released = { manager with releases := manager.releases.erase generation } →
    released.release generation = released
  counted : ∀ running, manager.state.current = some running →
    running.generation ∈ manager.releases → 0 < running.leases
  ends : ∀ action next running, manager.step action = some next →
    manager.state.current = some running → 0 < next.outstanding running.generation →
    (∃ kept, next.state.current = some kept ∧ kept.generation = running.generation) ∨
      ManagerAction.EndsLeased manager running.generation action

end EngineManager

/-- The leases are counted in every run of the manager. -/
theorem managerAfter_leasesCounted {actions : List ManagerAction} {manager : EngineManager}
    (hrun : managerAfter actions = some manager) : manager.LeasesCounted := by
  have hsound := EngineManager.sound_managerAfter hrun
  have hcount : ∀ running, manager.state.current = some running →
      running.leases = manager.outstanding running.generation := by
    intro running hcurrent
    obtain ⟨_, _, _, _, _, hleases⟩ := hsound.owns hcurrent
    exact hleases
  refine
    { count := hcount
      parked := fun _ hcurrent hparked => hsound.leases_eq_zero hcurrent hparked
      older := ?_
      counted := ?_
      ends := fun _ _ _ hstep hcurrent hout => hsound.step_keepsLeased hstep hcurrent hout }
  · rintro generation _ hother rfl
    unfold EngineManager.release
    split
    · rename_i running hstate
      change manager.state = .running running at hstate
      rw [if_neg fun h => hother running (by rw [hstate]; rfl) h.1]
    · rfl
  · intro running hcurrent hmem
    have hreleased := List.count_pos_iff.mpr hmem
    rw [hcount running hcurrent, EngineManager.outstanding]
    omega

/-- One caller holds a lease, another one has dropped its lease. -/
def leasedActions : List ManagerAction :=
  [.acquire 0, .acquire 1, .startFinished 1 (some { generation := 7, parks := true }), .dropLease 7]

theorem leased_counted :
    ∃ manager, managerAfter leasedActions = some manager ∧ manager.outstanding 7 = 2 ∧
      manager.LeasesCounted := by
  obtain ⟨manager, hrun, hout⟩ :
      ∃ manager, managerAfter leasedActions = some manager ∧ manager.outstanding 7 = 2 :=
    ⟨_, rfl, rfl⟩
  exact ⟨manager, hrun, hout, managerAfter_leasesCounted hrun⟩

end Chat2DB.Engine
