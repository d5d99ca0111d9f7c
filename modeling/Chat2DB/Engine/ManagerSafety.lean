import Chat2DB.Engine.Manager

/-! # What the engine manager keeps

One invariant says for each state of the manager which tasks are on their way and
which leases are out. The manager owns a generation that runs; everything that takes
it further starts from what it owns.
-/

namespace Chat2DB.Engine

variable {parkEpoch : Nat}

/-! ## The cases of a step -/

section Cases

namespace EngineManager

/-- What a command needs: its task is on its way, its lease is out. -/
def Due (manager : EngineManager) : ManagerAction → Prop
  | .acquire _ | .abandon _ | .shutdown | .forceShutdown => True
  | .dropLease generation => generation ∈ manager.held
  | .crash generation => generation ∈ manager.generations
  | .release generation => generation ∈ manager.releases
  | .startFinished attempt result =>
    attempt ∈ manager.starts ∧ ∀ supervisor ∈ result, supervisor.generation ∉ manager.generations
  | .hotIdleExpired generation epoch => (generation, epoch) ∈ manager.hotIdles
  | .idleExpired generation epoch => (generation, epoch) ∈ manager.idles
  | .quiesceFinished generation parkEpoch _ => (generation, parkEpoch) ∈ manager.quiesces
  | .resumeFinished generation parkEpoch _ => (generation, parkEpoch) ∈ manager.resumes
  | .drainExpired generation epoch => (generation, epoch) ∈ manager.drains
  | .generationTerminal generation =>
    generation ∈ manager.watchers ∧ generation ∈ manager.terminal
  | .stopFinished generation reason => (generation, reason) ∈ manager.stops

/-- The manager when the task that reports is no longer on its way. -/
def taken (manager : EngineManager) : ManagerAction → EngineManager
  | .release generation => { manager with releases := manager.releases.erase generation }
  | .startFinished attempt (some supervisor) =>
    { manager with
      starts := manager.starts.erase attempt
      generations := supervisor.generation :: manager.generations }
  | .startFinished attempt none => { manager with starts := manager.starts.erase attempt }
  | .hotIdleExpired generation epoch =>
    { manager with hotIdles := manager.hotIdles.erase (generation, epoch) }
  | .idleExpired generation epoch =>
    { manager with idles := manager.idles.erase (generation, epoch) }
  | .quiesceFinished generation parkEpoch _ =>
    { manager with quiesces := manager.quiesces.erase (generation, parkEpoch) }
  | .resumeFinished generation parkEpoch _ =>
    { manager with resumes := manager.resumes.erase (generation, parkEpoch) }
  | .drainExpired generation epoch =>
    { manager with drains := manager.drains.erase (generation, epoch) }
  | .generationTerminal generation =>
    { manager with watchers := manager.watchers.erase generation }
  | .stopFinished generation reason =>
    { manager with
      stops := manager.stops.erase (generation, reason)
      reaped := generation :: manager.reaped }
  | .acquire _ | .abandon _ | .dropLease _ | .crash _ | .shutdown | .forceShutdown => manager

/-- What the command makes of the manager. -/
def handled (manager : EngineManager) : ManagerAction → EngineManager
  | .acquire reply => manager.acquire reply
  | .abandon reply => { manager with abandoned := reply :: manager.abandoned }
  | .dropLease generation =>
    { manager with
      held := manager.held.erase generation
      releases := generation :: manager.releases }
  | .crash generation => { manager with terminal := generation :: manager.terminal }
  | .release generation => manager.release generation
  | .startFinished attempt result => manager.startFinished attempt result
  | .hotIdleExpired generation epoch => manager.hotIdleExpired generation epoch
  | .idleExpired generation epoch => manager.idleExpired generation epoch
  | .quiesceFinished generation parkEpoch succeeded =>
    manager.quiesceFinished generation parkEpoch succeeded
  | .resumeFinished generation parkEpoch succeeded =>
    manager.resumeFinished generation parkEpoch succeeded
  | .drainExpired generation epoch => manager.drainExpired generation epoch
  | .generationTerminal generation => manager.generationTerminal generation
  | .stopFinished generation reason => manager.stopFinished generation reason
  | .shutdown => manager.shutdown
  | .forceShutdown => manager.forceShutdown

/-- A step of the loop: the report is taken, then the command is handled. -/
theorem step_cases {manager next : EngineManager} {action : ManagerAction}
    (hstep : manager.step action = some next) :
    manager.finished = false ∧ manager.Due action ∧ (manager.taken action).handled action = next := by
  unfold step at hstep
  split at hstep
  · cases hstep
  · next hrunning =>
    refine ⟨by simpa using hrunning, ?_⟩
    cases action with
    | acquire | abandon | shutdown | forceShutdown => exact ⟨trivial, Option.some.inj hstep⟩
    | startFinished attempt result =>
      simp only at hstep
      split_ifs at hstep with hstarted
      cases result with
      | none => exact ⟨⟨hstarted, nofun⟩, Option.some.inj hstep⟩
      | some supervisor =>
        simp only at hstep
        split_ifs at hstep with hgiven
        exact ⟨⟨hstarted, by rintro _ ⟨⟩; exact hgiven⟩, Option.some.inj hstep⟩
    | _ =>
      simp only at hstep
      split_ifs at hstep with hdue
      exact ⟨hdue, Option.some.inj hstep⟩

end EngineManager

end Cases

/-- The generation that a state holds. -/
def ManagerState.current : ManagerState → Option RunningGeneration
  | .running held | .quiescing held _ _ | .parked held _ | .resuming held _ _ => some held
  | .cold | .starting _ _ | .stopping _ _ _ | .closed => none

/-- Among the tasks of a generation there is one, with this epoch. -/
def Sole (tasks : List (Nat × Nat)) (generation epoch : Nat) : Prop :=
  tasks.count (generation, epoch) = 1 ∧ ∀ other, (generation, other) ∈ tasks → other = epoch

/-- No task of a generation is on its way. -/
def Absent (tasks : List (Nat × Nat)) (generation : Nat) : Prop :=
  ∀ epoch, (generation, epoch) ∉ tasks

section Tasks

variable {tasks : List (Nat × Nat)} {generation other epoch late : Nat}

theorem Sole.erase_self (hsole : Sole tasks generation epoch) :
    Absent (tasks.erase (generation, epoch)) generation := by
  intro late hlate
  obtain rfl := hsole.2 late (List.mem_of_mem_erase hlate)
  have hcount := List.count_pos_iff.mpr hlate
  rw [List.count_erase_self, hsole.1] at hcount
  cases hcount

theorem Sole.erase_of_ne (hsole : Sole tasks generation epoch) (hother : other ≠ generation) :
    Sole (tasks.erase (other, late)) generation epoch := by
  refine ⟨?_, fun _ hmem => hsole.2 _ (List.mem_of_mem_erase hmem)⟩
  rw [List.count_erase_of_ne (by simpa using fun h => absurd h.symm hother), hsole.1]

theorem Absent.sole_cons (habsent : Absent tasks generation) :
    Sole ((generation, epoch) :: tasks) generation epoch := by
  refine ⟨?_, ?_⟩
  · rw [List.count_cons_self, List.count_eq_zero.mpr (habsent epoch)]
  · intro late hlate
    rcases List.mem_cons.mp hlate with hhead | htail
    · exact (Prod.mk.inj hhead).2
    · exact absurd htail (habsent late)

theorem Absent.erase (habsent : Absent tasks generation) (task : Nat × Nat) :
    Absent (tasks.erase task) generation :=
  fun late hlate => habsent late (List.mem_of_mem_erase hlate)

end Tasks

namespace EngineManager

/-- Leases and lifecycle tasks are of generations that were given. -/
def Known (manager : EngineManager) : Prop :=
  (∀ generation ∈ manager.held, generation ∈ manager.generations) ∧
  (∀ generation ∈ manager.releases, generation ∈ manager.generations) ∧
  (∀ task ∈ manager.quiesces, task.1 ∈ manager.generations) ∧
  (∀ task ∈ manager.resumes, task.1 ∈ manager.generations)

/-- Besides `alive`, every generation that was given was stopped. -/
def Knows (manager : EngineManager) (alive : Option Nat) : Prop :=
  manager.Known ∧ ∀ generation ∈ manager.generations,
    alive = some generation ∨ generation ∈ manager.reaped

/-- The leases of a generation that are out: held, or dropped and not yet released. -/
def outstanding (manager : EngineManager) (generation : Nat) : Nat :=
  manager.held.count generation + manager.releases.count generation

/-- A generation with no start or stop beside it, and its leases counted. -/
def Owns (manager : EngineManager) (running : RunningGeneration) : Prop :=
  manager.Knows (some running.generation) ∧ manager.starts = [] ∧ manager.stops = [] ∧
  running.supervisor.generation = running.generation ∧
  running.generation ∈ manager.generations ∧
  running.leases = manager.outstanding running.generation

/-- No quiesce or resume of a generation is on its way. -/
def Unparked (manager : EngineManager) (generation : Nat) : Prop :=
  Absent manager.quiesces generation ∧ Absent manager.resumes generation

def Sound (manager : EngineManager) : Prop :=
  match manager.state with
  | .cold | .closed => manager.Knows none ∧ manager.starts = [] ∧ manager.stops = []
  | .starting attempt _ => manager.Knows none ∧ manager.starts = [attempt] ∧ manager.stops = []
  | .running running => manager.Owns running ∧ manager.Unparked running.generation
  | .quiescing running parkEpoch _ =>
    manager.Owns running ∧ running.leases = 0 ∧
      Sole manager.quiesces running.generation parkEpoch ∧
      Absent manager.resumes running.generation
  | .parked running _ =>
    manager.Owns running ∧ running.leases = 0 ∧ manager.Unparked running.generation
  | .resuming running parkEpoch _ =>
    manager.Owns running ∧ running.leases = 0 ∧ Absent manager.quiesces running.generation ∧
      Sole manager.resumes running.generation parkEpoch
  | .stopping generation reason _ =>
    manager.Knows (some generation) ∧ manager.starts = [] ∧
      manager.stops = [(generation, reason)]

theorem sound_new : new.Sound := by
  simp [Sound, new, Known, Knows]

variable {manager next : EngineManager} {running : RunningGeneration}

theorem Sound.known (hsound : manager.Sound) : manager.Known := by
  unfold Sound at hsound
  split at hsound <;> first | exact hsound.1.1 | exact hsound.1.1.1

theorem Sound.owns (hsound : manager.Sound) (hcurrent : manager.state.current = some running) :
    manager.Owns running := by
  unfold Sound at hsound
  split at hsound <;> rename_i hstate <;> rw [hstate] at hcurrent <;>
    first | (cases hcurrent; exact hsound.1) | cases hcurrent

theorem Sound.leases_eq_zero (hsound : manager.Sound)
    (hcurrent : manager.state.current = some running)
    (hparked : ∀ other, manager.state ≠ .running other) : running.leases = 0 := by
  unfold Sound at hsound
  cases hstate : manager.state with
  | running other => exact absurd hstate (hparked other)
  | quiescing held parkEpoch waiters | parked held parkEpoch | resuming held parkEpoch waiters =>
    rw [hstate] at hsound hcurrent
    cases hcurrent
    exact hsound.2.1
  | cold | starting _ _ | stopping _ _ _ | closed =>
    rw [hstate] at hcurrent
    cases hcurrent

/-! ## From an owned generation on -/

theorem Owns.beginStop (howns : manager.Owns running) (reason : EngineStopReason)
    (waiters : List Nat) : (manager.beginStop running reason waiters).Sound := by
  obtain ⟨hknown, hstarts, hstops, hsupervisor, _⟩ := howns
  refine ⟨hknown, hstarts, ?_⟩
  simp [EngineManager.beginStop, spawnStop, hstops, hsupervisor]

theorem Owns.keepsRunning (howns : manager.Owns running) (hunparked : manager.Unparked running.generation)
    (idleEpoch parkEpoch : Nat) :
    Sound { manager with state := .running { running with idleEpoch, parkEpoch } } :=
  ⟨howns, hunparked⟩

theorem Owns.scheduleIdleCycle (howns : manager.Owns running)
    (hunparked : manager.Unparked running.generation) :
    (manager.scheduleIdleCycle running).Sound :=
  ⟨howns, hunparked⟩

theorem Owns.beginQuiesce (howns : manager.Owns running) (hleases : running.leases = 0)
    (hunparked : manager.Unparked running.generation) : (manager.beginQuiesce running).Sound := by
  obtain ⟨⟨⟨hheld, hreleases, hquiesces, hresumes⟩, hreaped⟩, hrest⟩ := howns
  refine ⟨⟨⟨⟨hheld, hreleases, ?_, hresumes⟩, hreaped⟩, hrest⟩, hleases, hunparked.1.sole_cons, hunparked.2⟩
  intro task htask
  rcases List.mem_cons.mp htask with rfl | hold
  · exact hrest.2.2.2.1
  · exact hquiesces task hold

theorem Owns.beginResume (howns : manager.Owns running) (hleases : running.leases = 0)
    (hunparked : manager.Unparked running.generation) (parkEpoch : Nat) (waiters : List Nat) :
    (manager.beginResume running parkEpoch waiters).Sound := by
  obtain ⟨⟨⟨hheld, hreleases, hquiesces, hresumes⟩, hreaped⟩, hrest⟩ := howns
  refine ⟨⟨⟨⟨hheld, hreleases, hquiesces, ?_⟩, hreaped⟩, hrest⟩, hleases, hunparked.1, hunparked.2.sole_cons⟩
  intro task htask
  rcases List.mem_cons.mp htask with rfl | hold
  · exact hrest.2.2.2.1
  · exact hresumes task hold

theorem Owns.issueLease (howns : manager.Owns running)
    (hunparked : manager.Unparked running.generation) (reply : Nat) :
    (manager.issueLease running reply).1.Owns (manager.issueLease running reply).2 ∧
      (manager.issueLease running reply).1.Unparked
        (manager.issueLease running reply).2.generation := by
  unfold EngineManager.issueLease
  split
  · exact ⟨howns, hunparked⟩
  · obtain ⟨⟨⟨hheld, hknown⟩, hreaped⟩, hstarts, hstops, hsupervisor, hgiven, hleases⟩ := howns
    refine ⟨⟨⟨⟨?_, hknown⟩, hreaped⟩, hstarts, hstops, hsupervisor, hgiven, ?_⟩, hunparked⟩
    · intro generation hmem
      rcases List.mem_cons.mp hmem with rfl | hold
      · exact hgiven
      · exact hheld generation hold
    · simp only [outstanding, List.count_cons_self] at hleases ⊢
      omega

theorem Owns.issueLeases (howns : manager.Owns running)
    (hunparked : manager.Unparked running.generation) (waiters : List Nat) :
    (manager.issueLeases running waiters).1.Owns (manager.issueLeases running waiters).2 ∧
      (manager.issueLeases running waiters).1.Unparked
        (manager.issueLeases running waiters).2.generation := by
  induction waiters generalizing manager running with
  | nil => exact ⟨howns, hunparked⟩
  | cons reply waiters ih =>
    obtain ⟨hissued, hstill⟩ := howns.issueLease hunparked reply
    exact ih hissued hstill

theorem Owns.serve (howns : manager.Owns running) (hunparked : manager.Unparked running.generation)
    (waiters : List Nat) : (manager.serve running waiters).Sound := by
  obtain ⟨hissued, hstill⟩ := howns.issueLeases hunparked waiters
  unfold EngineManager.serve
  simp only
  split
  · exact hissued.scheduleIdleCycle hstill
  · exact hissued.keepsRunning hstill _ _

theorem Owns.reap (howns : manager.Owns running) (waiters : List Nat) :
    (manager.reap running waiters).Sound :=
  howns.beginStop _ waiters

theorem sound_finish (hknown : manager.Knows none) (hstarts : manager.starts = [])
    (hstops : manager.stops = []) : manager.finish.Sound :=
  ⟨hknown, hstarts, hstops⟩

theorem sound_spawnStart (hknown : manager.Knows none) (hstarts : manager.starts = [])
    (hstops : manager.stops = []) (waiters : List Nat) : (manager.spawnStart waiters).Sound := by
  refine ⟨hknown, ?_, hstops⟩
  simp [spawnStart, hstarts]

/-! ## Steps of the callers -/

/-- The manager stands, and the leases that are out of what it holds are as many. -/
theorem Sound.frame (hsound : manager.Sound) (hstate : next.state = manager.state)
    (hstarts : next.starts = manager.starts) (hstops : next.stops = manager.stops)
    (hquiesces : next.quiesces = manager.quiesces) (hresumes : next.resumes = manager.resumes)
    (hknown : next.Known) (hgenerations : next.generations = manager.generations)
    (hreaped : next.reaped = manager.reaped)
    (houtstanding : ∀ running, manager.state.current = some running →
      next.outstanding running.generation = manager.outstanding running.generation) :
    next.Sound := by
  have hknows : ∀ alive, manager.Knows alive → next.Knows alive := by
    intro alive hbefore
    refine ⟨hknown, ?_⟩
    rw [hgenerations, hreaped]
    exact hbefore.2
  have howned : ∀ running, manager.state.current = some running → next.Owns running := by
    intro running hcurrent
    obtain ⟨hbefore, hnone, hidle, hsupervisor, hgiven, hleases⟩ := hsound.owns hcurrent
    refine ⟨hknows _ hbefore, hstarts.trans hnone, hstops.trans hidle, hsupervisor, ?_, ?_⟩
    · rw [hgenerations]
      exact hgiven
    · rw [hleases, houtstanding running hcurrent]
  unfold Sound at hsound ⊢
  rw [hstate]
  simp only [hstarts, hstops, Unparked, hquiesces, hresumes]
  split <;> rename_i heq <;> rw [heq] at hsound howned
  · exact ⟨hknows _ hsound.1, hsound.2⟩
  · exact ⟨hknows _ hsound.1, hsound.2⟩
  · exact ⟨hknows _ hsound.1, hsound.2⟩
  · exact ⟨howned _ rfl, hsound.2⟩
  · exact ⟨howned _ rfl, hsound.2⟩
  · exact ⟨howned _ rfl, hsound.2⟩
  · exact ⟨howned _ rfl, hsound.2⟩
  · exact ⟨hknows _ hsound.1, hsound.2⟩

theorem Sound.dropLease (hsound : manager.Sound) {generation : Nat}
    (hheld : generation ∈ manager.held) :
    Sound { manager with
      held := manager.held.erase generation, releases := generation :: manager.releases } := by
  obtain ⟨hknownHeld, hknownReleases, hknown⟩ := hsound.known
  refine hsound.frame rfl rfl rfl rfl rfl ⟨?_, ?_, hknown⟩ rfl rfl ?_
  · exact fun other hother => hknownHeld other (List.mem_of_mem_erase hother)
  · intro other hother
    rcases List.mem_cons.mp hother with rfl | hold
    · exact hknownHeld other hheld
    · exact hknownReleases other hold
  · intro running _
    have hcount := List.count_pos_iff.mpr hheld
    by_cases hsame : running.generation = generation
    · simp only [outstanding, hsame, List.count_erase_self, List.count_cons_self]
      omega
    · simp only [outstanding, List.count_erase_of_ne hsame, List.count_cons_of_ne (Ne.symm hsame)]

theorem Sound.forgetRelease (hsound : manager.Sound) {generation : Nat}
    (hother : ∀ running, manager.state.current = some running → running.generation ≠ generation) :
    Sound { manager with releases := manager.releases.erase generation } := by
  obtain ⟨hknownHeld, hknownReleases, hknown⟩ := hsound.known
  refine hsound.frame rfl rfl rfl rfl rfl ⟨hknownHeld, ?_, hknown⟩ rfl rfl ?_
  · exact fun other hmem => hknownReleases other (List.mem_of_mem_erase hmem)
  · intro running hcurrent
    simp only [outstanding, List.count_erase_of_ne (hother running hcurrent)]

theorem Sound.release (hsound : manager.Sound) {generation : Nat}
    (hmem : generation ∈ manager.releases) :
    ({ manager with releases := manager.releases.erase generation }.release generation).Sound := by
  have hcount := List.count_pos_iff.mpr hmem
  -- a generation that counts no lease has none on its way back
  have hidle : ∀ running, manager.state.current = some running → running.leases = 0 →
      running.generation ≠ generation := by
    intro running hcurrent hnone hsame
    obtain ⟨_, _, _, _, _, hleases⟩ := hsound.owns hcurrent
    rw [hnone, outstanding, hsame] at hleases
    omega
  unfold EngineManager.release
  simp only
  split
  · rename_i running hstate
    have hcurrent : manager.state.current = some running := by rw [hstate]; rfl
    have hrunning := hsound
    unfold Sound at hrunning
    rw [hstate] at hrunning
    obtain ⟨howns, hunparked⟩ := hrunning
    obtain ⟨⟨⟨hknownHeld, hknownReleases, hknown⟩, hreaped⟩, hstarts, hstops, hsupervisor, hgiven,
      hleases⟩ := howns
    split
    · rename_i hmatch
      obtain ⟨rfl, hpositive⟩ := hmatch
      have hreleased : Owns { manager with releases := manager.releases.erase running.generation }
          { running with leases := running.leases - 1 } := by
        refine ⟨⟨⟨hknownHeld, ?_, hknown⟩, hreaped⟩, hstarts, hstops, hsupervisor, hgiven, ?_⟩
        · exact fun other hother => hknownReleases other (List.mem_of_mem_erase hother)
        · simp only [outstanding, List.count_erase_self] at hleases ⊢
          omega
      split
      · split
        · exact hreleased.beginStop _ _
        · exact hreleased.scheduleIdleCycle hunparked
      · exact hreleased.keepsRunning hunparked _ _
    · rename_i hother
      refine hsound.forgetRelease ?_
      intro other hcurrent' hsame
      obtain rfl : running = other := Option.some.inj (hcurrent.symm.trans hcurrent')
      refine hother ⟨hsame, ?_⟩
      rw [hleases, outstanding, hsame]
      omega
  · rename_i hnot
    refine hsound.forgetRelease ?_
    exact fun running hcurrent => hidle running hcurrent (hsound.leases_eq_zero hcurrent hnot)

theorem Sound.acquire (hsound : manager.Sound) (reply : Nat) : (manager.acquire reply).Sound := by
  have hheld := hsound
  unfold Sound at hheld
  unfold EngineManager.acquire
  split
  · exact hsound
  · split <;> rename_i hstate <;> rw [hstate] at hheld
    · exact sound_spawnStart hheld.1 hheld.2.1 hheld.2.2 [reply]
    · exact hheld
    · obtain ⟨hissued, hstill⟩ := hheld.1.issueLease hheld.2 reply
      exact hissued.keepsRunning hstill _ _
    · split
      · exact hsound
      · exact hheld
    · split
      · exact hsound
      · exact Owns.beginResume hheld.1 hheld.2.1 hheld.2.2 _ [reply]
    · split
      · exact hsound
      · exact hheld
    · exact hheld
    · exact hsound

/-! ## Reports of the tasks -/

section Fresh

variable {supervisor : EngineSupervisor}

theorem Knows.fresh (hknows : manager.Knows none) (hheld : next.held = manager.held)
    (hreleases : next.releases = manager.releases) (hquiesces : next.quiesces = manager.quiesces)
    (hresumes : next.resumes = manager.resumes) (hreaped : next.reaped = manager.reaped)
    (hgenerations : next.generations = supervisor.generation :: manager.generations) :
    next.Knows (some supervisor.generation) := by
  obtain ⟨⟨hknownHeld, hknownReleases, hknownQuiesces, hknownResumes⟩, hstopped⟩ := hknows
  unfold Knows Known
  rw [hheld, hreleases, hquiesces, hresumes, hgenerations, hreaped]
  refine ⟨?_, ?_⟩
  · exact
    ⟨fun other hother => List.mem_cons_of_mem _ (hknownHeld other hother),
      fun other hother => List.mem_cons_of_mem _ (hknownReleases other hother),
      fun task htask => List.mem_cons_of_mem _ (hknownQuiesces task htask),
      fun task htask => List.mem_cons_of_mem _ (hknownResumes task htask)⟩
  · intro generation hmem
    rcases List.mem_cons.mp hmem with rfl | hold
    · exact .inl rfl
    · exact .inr ((hstopped generation hold).resolve_left (by simp))

theorem Known.outstanding_fresh (hknown : manager.Known) (hheld : next.held = manager.held)
    (hreleases : next.releases = manager.releases)
    (hfresh : supervisor.generation ∉ manager.generations) :
    next.outstanding supervisor.generation = 0 := by
  obtain ⟨hknownHeld, hknownReleases, _⟩ := hknown
  have hnotHeld : supervisor.generation ∉ manager.held := fun h => hfresh (hknownHeld _ h)
  have hnotReleased : supervisor.generation ∉ manager.releases :=
    fun h => hfresh (hknownReleases _ h)
  rw [outstanding, hheld, hreleases, List.count_eq_zero.mpr hnotHeld,
    List.count_eq_zero.mpr hnotReleased]

theorem Known.unparked_fresh (hknown : manager.Known) (hquiesces : next.quiesces = manager.quiesces)
    (hresumes : next.resumes = manager.resumes)
    (hfresh : supervisor.generation ∉ manager.generations) :
    next.Unparked supervisor.generation := by
  obtain ⟨_, _, hknownQuiesces, hknownResumes⟩ := hknown
  unfold Unparked
  rw [hquiesces, hresumes]
  exact ⟨fun epoch hmem => hfresh (hknownQuiesces _ hmem),
    fun epoch hmem => hfresh (hknownResumes _ hmem)⟩

end Fresh

theorem Sound.starting_of_mem (hsound : manager.Sound) {attempt : Nat}
    (hmem : attempt ∈ manager.starts) :
    ∃ waiters, manager.state = .starting attempt waiters ∧ manager.starts = [attempt] ∧
      manager.stops = [] ∧ manager.Knows none := by
  unfold Sound at hsound
  cases hstate : manager.state with
  | starting active waiters =>
    rw [hstate] at hsound
    obtain ⟨hknows, hstarts, hstops⟩ := hsound
    rw [hstarts, List.mem_singleton] at hmem
    subst hmem
    exact ⟨waiters, rfl, hstarts, hstops, hknows⟩
  | cold | closed | stopping _ _ _ =>
    rw [hstate] at hsound
    rw [hsound.2.1] at hmem
    cases hmem
  | running _ | quiescing _ _ _ | parked _ _ | resuming _ _ _ =>
    rw [hstate] at hsound
    rw [hsound.1.2.1] at hmem
    cases hmem

theorem Sound.stopping_of_mem (hsound : manager.Sound) {generation : Nat}
    {reason : EngineStopReason} (hmem : (generation, reason) ∈ manager.stops) :
    ∃ waiters, manager.state = .stopping generation reason waiters ∧
      manager.stops = [(generation, reason)] ∧ manager.starts = [] ∧
      manager.Knows (some generation) := by
  unfold Sound at hsound
  cases hstate : manager.state with
  | stopping active activeReason waiters =>
    rw [hstate] at hsound
    obtain ⟨hknows, hstarts, hstops⟩ := hsound
    rw [hstops, List.mem_singleton] at hmem
    obtain ⟨rfl, rfl⟩ := Prod.mk.inj hmem
    exact ⟨waiters, rfl, hstops, hstarts, hknows⟩
  | cold | closed | starting _ _ =>
    rw [hstate] at hsound
    rw [hsound.2.2] at hmem
    cases hmem
  | running _ | quiescing _ _ _ | parked _ _ | resuming _ _ _ =>
    rw [hstate] at hsound
    rw [hsound.1.2.2.1] at hmem
    cases hmem

theorem Sound.started (hsound : manager.Sound) {attempt : Nat} (hmem : attempt ∈ manager.starts)
    {supervisor : EngineSupervisor} (hfresh : supervisor.generation ∉ manager.generations) :
    ({ manager with
      starts := manager.starts.erase attempt
      generations := supervisor.generation :: manager.generations }.startFinished attempt
        (some supervisor)).Sound := by
  obtain ⟨waiters, hstate, hstarts, hstops, hknows⟩ := hsound.starting_of_mem hmem
  have hrest : manager.starts.erase attempt = [] := by simp [hstarts]
  have hknown := hsound.known
  unfold EngineManager.startFinished
  simp only [hstate, ne_eq, not_true_eq_false, if_false]
  split
  · refine ⟨?_, hrest, ?_⟩
    · exact hknows.fresh rfl rfl rfl rfl rfl rfl
    · simp [spawnStop, hstops]
  · refine Owns.serve ?_ ?_ waiters
    · refine ⟨hknows.fresh rfl rfl rfl rfl rfl rfl, hrest, hstops, rfl, List.mem_cons_self, ?_⟩
      exact (hknown.outstanding_fresh rfl rfl hfresh).symm
    · exact hknown.unparked_fresh rfl rfl hfresh

theorem Sound.startFailed (hsound : manager.Sound) {attempt : Nat}
    (hmem : attempt ∈ manager.starts) :
    ({ manager with starts := manager.starts.erase attempt }.startFinished attempt none).Sound := by
  obtain ⟨waiters, hstate, hstarts, hstops, hknows⟩ := hsound.starting_of_mem hmem
  have hrest : manager.starts.erase attempt = [] := by simp [hstarts]
  unfold EngineManager.startFinished
  simp only [hstate, ne_eq, not_true_eq_false, if_false]
  split
  · exact sound_finish hknows hrest hstops
  · exact ⟨hknows, hrest, hstops⟩

theorem Sound.stopFinished (hsound : manager.Sound) {generation : Nat} {reason : EngineStopReason}
    (hmem : (generation, reason) ∈ manager.stops) :
    ({ manager with
      stops := manager.stops.erase (generation, reason)
      reaped := generation :: manager.reaped }.stopFinished generation reason).Sound := by
  obtain ⟨waiters, hstate, hstops, hstarts, hknows⟩ := hsound.stopping_of_mem hmem
  have hrest : manager.stops.erase (generation, reason) = [] := by simp [hstops]
  have hreaped : Knows { manager with
      stops := manager.stops.erase (generation, reason)
      reaped := generation :: manager.reaped } none := by
    refine ⟨hknows.1, fun other hother => .inr ?_⟩
    rcases hknows.2 other hother with hsame | hold
    · rw [Option.some.inj hsame]
      exact List.mem_cons_self
    · exact List.mem_cons_of_mem _ hold
  unfold EngineManager.stopFinished
  simp only [hstate, ne_eq, not_true_eq_false, or_self, if_false]
  split
  · exact sound_finish hreaped hstarts hrest
  · split
    · exact ⟨hreaped, hstarts, hrest⟩
    · refine sound_spawnStart ?_ ?_ ?_ _
      · exact hreaped
      · exact hstarts
      · exact hrest

theorem Knows.eraseQuiesce {alive : Option Nat} (hknows : manager.Knows alive) (task : Nat × Nat) :
    Knows { manager with quiesces := manager.quiesces.erase task } alive := by
  obtain ⟨⟨hheld, hreleases, hquiesces, hresumes⟩, hreaped⟩ := hknows
  exact ⟨⟨hheld, hreleases, fun other hother => hquiesces other (List.mem_of_mem_erase hother),
    hresumes⟩, hreaped⟩

theorem Knows.eraseResume {alive : Option Nat} (hknows : manager.Knows alive) (task : Nat × Nat) :
    Knows { manager with resumes := manager.resumes.erase task } alive := by
  obtain ⟨⟨hheld, hreleases, hquiesces, hresumes⟩, hreaped⟩ := hknows
  exact ⟨⟨hheld, hreleases, hquiesces,
    fun other hother => hresumes other (List.mem_of_mem_erase hother)⟩, hreaped⟩

/-- The epoch of a quiesce of the held generation is the active one, and a report of
another generation is ignored. -/
theorem Sound.quiesceFinished (hsound : manager.Sound) {generation : Nat}
    (hmem : (generation, parkEpoch) ∈ manager.quiesces) (succeeded : Bool) :
    ({ manager with quiesces := manager.quiesces.erase (generation, parkEpoch) }.quiesceFinished
      generation parkEpoch succeeded).Sound := by
  have hheld := hsound
  unfold Sound at hheld
  unfold EngineManager.quiesceFinished
  cases hstate : manager.state with
  | quiescing running activeParkEpoch waiters =>
    rw [hstate] at hheld
    obtain ⟨⟨hbefore, hrest⟩, hleases, hsole, habsent⟩ := hheld
    have hknown := hbefore.eraseQuiesce (generation, parkEpoch)
    simp only
    split
    · rename_i hstale
      have hother : generation ≠ running.generation := by
        rintro rfl
        exact hstale.elim (fun h => h rfl) (fun h => h (hsole.2 parkEpoch hmem).symm)
      exact ⟨⟨hknown, hrest⟩, hleases, hsole.erase_of_ne hother, habsent⟩
    · rename_i hmatch
      simp only [not_or, not_not] at hmatch
      obtain ⟨rfl, rfl⟩ := hmatch
      split
      · split
        · exact ⟨⟨hknown, hrest⟩, hleases, hsole.erase_self, habsent⟩
        · exact Owns.beginResume ⟨hknown, hrest⟩ hleases ⟨hsole.erase_self, habsent⟩ _ _
      · exact Owns.reap ⟨hknown, hrest⟩ _
  | running running =>
    rw [hstate] at hheld
    exact ⟨⟨hheld.1.1.eraseQuiesce _, hheld.1.2⟩, hheld.2.1.erase _, hheld.2.2⟩
  | parked | resuming =>
    rw [hstate] at hheld
    exact ⟨⟨hheld.1.1.eraseQuiesce _, hheld.1.2⟩, hheld.2.1, hheld.2.2.1.erase _, hheld.2.2.2⟩
  | cold | closed | starting _ _ | stopping _ _ _ =>
    rw [hstate] at hheld
    exact ⟨hheld.1.eraseQuiesce _, hheld.2⟩

theorem Sound.resumeFinished (hsound : manager.Sound) {generation : Nat}
    (hmem : (generation, parkEpoch) ∈ manager.resumes) (succeeded : Bool) :
    ({ manager with resumes := manager.resumes.erase (generation, parkEpoch) }.resumeFinished
      generation parkEpoch succeeded).Sound := by
  have hheld := hsound
  unfold Sound at hheld
  unfold EngineManager.resumeFinished
  cases hstate : manager.state with
  | resuming running activeParkEpoch waiters =>
    rw [hstate] at hheld
    obtain ⟨⟨hbefore, hrest⟩, hleases, habsent, hsole⟩ := hheld
    have hknown := hbefore.eraseResume (generation, parkEpoch)
    simp only
    split
    · rename_i hstale
      have hother : generation ≠ running.generation := by
        rintro rfl
        exact hstale.elim (fun h => h rfl) (fun h => h (hsole.2 parkEpoch hmem).symm)
      exact ⟨⟨hknown, hrest⟩, hleases, habsent, hsole.erase_of_ne hother⟩
    · rename_i hmatch
      simp only [not_or, not_not] at hmatch
      obtain ⟨rfl, rfl⟩ := hmatch
      split
      · refine Owns.serve ?_ ?_ _
        · exact ⟨hknown, hrest⟩
        · exact ⟨habsent, hsole.erase_self⟩
      · exact Owns.reap ⟨hknown, hrest⟩ _
  | running running =>
    rw [hstate] at hheld
    exact ⟨⟨hheld.1.1.eraseResume _, hheld.1.2⟩, hheld.2.1, hheld.2.2.erase _⟩
  | parked | quiescing =>
    rw [hstate] at hheld
    exact ⟨⟨hheld.1.1.eraseResume _, hheld.1.2⟩, hheld.2.1, hheld.2.2.1, hheld.2.2.2.erase _⟩
  | cold | closed | starting _ _ | stopping _ _ _ =>
    rw [hstate] at hheld
    exact ⟨hheld.1.eraseResume _, hheld.2⟩

/-! ## Timers, crashes and shutdown -/

theorem Sound.hotIdleExpired (hsound : manager.Sound) (generation epoch : Nat) :
    (manager.hotIdleExpired generation epoch).Sound := by
  unfold EngineManager.hotIdleExpired
  split
  · rename_i running hstate
    split
    · rename_i hidle
      unfold Sound at hsound
      rw [hstate] at hsound
      exact hsound.1.beginQuiesce hidle.2.2.2 hsound.2
    · exact hsound
  · exact hsound

theorem Sound.idleExpired (hsound : manager.Sound) (generation epoch : Nat) :
    (manager.idleExpired generation epoch).Sound := by
  unfold EngineManager.idleExpired
  split
  all_goals rename_i hstate
  all_goals try split
  all_goals first | exact hsound | skip
  all_goals exact Owns.beginStop (hsound.owns (by rw [hstate]; rfl)) _ _

theorem Sound.drainExpired (hsound : manager.Sound) (generation epoch : Nat) :
    (manager.drainExpired generation epoch).Sound := by
  unfold EngineManager.drainExpired
  split
  · rename_i running hstate
    split
    · exact Owns.beginStop (hsound.owns (by rw [hstate]; rfl)) _ _
    · exact hsound
  · exact hsound

theorem Sound.generationTerminal (hsound : manager.Sound) (generation : Nat) :
    (manager.generationTerminal generation).Sound := by
  unfold EngineManager.generationTerminal
  split
  all_goals rename_i hstate
  all_goals try split
  all_goals first | exact hsound | skip
  all_goals exact Owns.beginStop (hsound.owns (by rw [hstate]; rfl)) _ _

theorem Sound.startHostShutdown (hsound : manager.Sound) (force : Bool) :
    (manager.startHostShutdown force).Sound := by
  have hheld := hsound
  unfold Sound at hheld
  unfold EngineManager.startHostShutdown
  cases hstate : manager.state with
  | cold | closed | starting _ _ | stopping _ _ _ =>
    rw [hstate] at hheld
    exact hheld
  | running running =>
    simp only
    split
    · exact Owns.beginStop (hsound.owns (by rw [hstate]; rfl)) _ _
    · rw [hstate] at hheld
      exact hheld
  | quiescing running _ _ | parked running _ | resuming running _ _ =>
    exact Owns.beginStop (hsound.owns (by rw [hstate]; rfl)) _ _

theorem Sound.finish_of_closed (hsound : manager.Sound) (hclosed : manager.state = .closed) :
    manager.finish.Sound := by
  unfold Sound at hsound
  rw [hclosed] at hsound
  exact hsound

theorem Sound.shutdown (hsound : manager.Sound) : manager.shutdown.Sound := by
  unfold EngineManager.shutdown
  split
  · exact hsound
  · have hmarked : Sound { manager with shuttingDown := true } := hsound
    have hstarted := hmarked.startHostShutdown false
    simp only
    split
    · rename_i hclosed
      exact hstarted.finish_of_closed hclosed
    · exact hstarted

theorem Sound.forceShutdown (hsound : manager.Sound) : manager.forceShutdown.Sound := by
  unfold EngineManager.forceShutdown
  split
  · exact hsound
  · have hmarked : Sound { manager with shuttingDown := true } := hsound
    have hstarted := hmarked.startHostShutdown true
    simp only
    split
    · rename_i hclosed
      exact hstarted.finish_of_closed hclosed
    · exact hstarted

/-- A step keeps what is sound. -/
theorem Sound.step (hsound : manager.Sound) {action : ManagerAction}
    (hstep : manager.step action = some next) : next.Sound := by
  obtain ⟨-, hdue, rfl⟩ := step_cases hstep
  cases action with
  | acquire reply => exact hsound.acquire reply
  | abandon reply => exact hsound
  | dropLease generation => exact hsound.dropLease hdue
  | crash generation => exact hsound
  | release generation => exact hsound.release hdue
  | startFinished attempt result =>
    cases result with
    | some supervisor => exact hsound.started hdue.1 (hdue.2 supervisor rfl)
    | none => exact hsound.startFailed hdue.1
  | hotIdleExpired generation epoch =>
    have hfired : (manager.taken (.hotIdleExpired generation epoch)).Sound := hsound
    exact hfired.hotIdleExpired generation epoch
  | idleExpired generation epoch =>
    have hfired : (manager.taken (.idleExpired generation epoch)).Sound := hsound
    exact hfired.idleExpired generation epoch
  | quiesceFinished generation parkEpoch succeeded => exact hsound.quiesceFinished hdue succeeded
  | resumeFinished generation parkEpoch succeeded => exact hsound.resumeFinished hdue succeeded
  | drainExpired generation epoch =>
    have hfired : (manager.taken (.drainExpired generation epoch)).Sound := hsound
    exact hfired.drainExpired generation epoch
  | generationTerminal generation =>
    have hfired : (manager.taken (.generationTerminal generation)).Sound := hsound
    exact hfired.generationTerminal generation
  | stopFinished generation reason => exact hsound.stopFinished hdue
  | shutdown => exact hsound.shutdown
  | forceShutdown => exact hsound.forceShutdown

theorem sound_managerAfter {actions : List ManagerAction}
    (hrun : managerAfter actions = some manager) : manager.Sound :=
  Machine.run_invariant sound_new (fun _ _ _ hsound hstep => hsound.step hstep) hrun

/-! ## One generation -/

/-- The generations that were started and whose stop was not reported. -/
def alive (manager : EngineManager) : List Nat :=
  manager.generations.filter fun generation => !decide (generation ∈ manager.reaped)

/-- One generation at most is alive, or being started or stopped; every report that
can arrive is the one that the manager waits for, or is ignored. -/
structure SingleGeneration (manager : EngineManager) : Prop where
  tasks : manager.starts.length + manager.stops.length +
    (if manager.state.current.isSome then 1 else 0) ≤ 1
  alive : ∀ generation ∈ manager.alive,
    (∃ running, manager.state.current = some running ∧ running.generation = generation) ∨
      ∃ reason, manager.stops = [(generation, reason)]
  starts : ∀ attempt ∈ manager.starts, ∃ waiters, manager.state = .starting attempt waiters
  stops : ∀ generation reason, (generation, reason) ∈ manager.stops →
    ∃ waiters, manager.state = .stopping generation reason waiters
  quiesces : ∀ generation parkEpoch, (generation, parkEpoch) ∈ manager.quiesces →
    (∃ running waiters, manager.state = .quiescing running parkEpoch waiters ∧
      running.generation = generation) ∨
    ∀ reported succeeded,
      reported = { manager with quiesces := manager.quiesces.erase (generation, parkEpoch) } →
      reported.quiesceFinished generation parkEpoch succeeded = reported
  resumes : ∀ generation parkEpoch, (generation, parkEpoch) ∈ manager.resumes →
    (∃ running waiters, manager.state = .resuming running parkEpoch waiters ∧
      running.generation = generation) ∨
    ∀ reported succeeded,
      reported = { manager with resumes := manager.resumes.erase (generation, parkEpoch) } →
      reported.resumeFinished generation parkEpoch succeeded = reported

theorem Knows.eq_of_alive {alive : Option Nat} (hknows : manager.Knows alive) {generation : Nat}
    (hmem : generation ∈ manager.alive) : alive = some generation := by
  simp only [EngineManager.alive, List.mem_filter, Bool.not_eq_true', decide_eq_false_iff_not]
    at hmem
  exact (hknows.2 generation hmem.1).resolve_right hmem.2

theorem Sound.alive (hsound : manager.Sound) {generation : Nat}
    (hmem : generation ∈ manager.alive) :
    (∃ running, manager.state.current = some running ∧ running.generation = generation) ∨
      ∃ reason, manager.stops = [(generation, reason)] := by
  unfold Sound at hsound
  cases hstate : manager.state with
  | cold | closed | starting _ _ =>
    rw [hstate] at hsound
    cases hsound.1.eq_of_alive hmem
  | running running | quiescing running _ _ | parked running _ | resuming running _ _ =>
    rw [hstate] at hsound
    exact .inl ⟨running, rfl, Option.some.inj (hsound.1.1.eq_of_alive hmem)⟩
  | stopping stopped reason waiters =>
    rw [hstate] at hsound
    obtain rfl := Option.some.inj (hsound.1.eq_of_alive hmem)
    exact .inr ⟨reason, hsound.2.2⟩

theorem Sound.tasks_le (hsound : manager.Sound) :
    manager.starts.length + manager.stops.length +
      (if manager.state.current.isSome then 1 else 0) ≤ 1 := by
  unfold Sound at hsound
  cases hstate : manager.state with
  | cold | closed | starting _ _ | stopping _ _ _ =>
    rw [hstate] at hsound
    simp [hsound.2.1, hsound.2.2, ManagerState.current]
  | running running | quiescing running _ _ | parked running _ | resuming running _ _ =>
    rw [hstate] at hsound
    simp [hsound.1.2.1, hsound.1.2.2.1, ManagerState.current]

theorem Sound.quiesce_reports (hsound : manager.Sound) {generation : Nat}
    (hmem : (generation, parkEpoch) ∈ manager.quiesces) :
    (∃ running waiters, manager.state = .quiescing running parkEpoch waiters ∧
      running.generation = generation) ∨
    ∀ reported succeeded,
      reported = { manager with quiesces := manager.quiesces.erase (generation, parkEpoch) } →
      reported.quiesceFinished generation parkEpoch succeeded = reported := by
  cases hstate : manager.state with
  | quiescing running activeParkEpoch waiters =>
    by_cases hsame : running.generation = generation
    · have hheld := hsound
      unfold Sound at hheld
      rw [hstate] at hheld
      subst hsame
      obtain rfl := hheld.2.2.1.2 parkEpoch hmem
      exact .inl ⟨running, waiters, rfl, rfl⟩
    · refine .inr ?_
      rintro _ succeeded rfl
      simp only [EngineManager.quiesceFinished]
      rw [if_pos (.inl hsame)]
  | cold | closed | starting _ _ | stopping _ _ _ | running _ | parked _ _ | resuming _ _ _ =>
    refine .inr ?_
    rintro _ succeeded rfl
    simp only [EngineManager.quiesceFinished]

theorem Sound.resume_reports (hsound : manager.Sound) {generation : Nat}
    (hmem : (generation, parkEpoch) ∈ manager.resumes) :
    (∃ running waiters, manager.state = .resuming running parkEpoch waiters ∧
      running.generation = generation) ∨
    ∀ reported succeeded,
      reported = { manager with resumes := manager.resumes.erase (generation, parkEpoch) } →
      reported.resumeFinished generation parkEpoch succeeded = reported := by
  cases hstate : manager.state with
  | resuming running activeParkEpoch waiters =>
    by_cases hsame : running.generation = generation
    · have hheld := hsound
      unfold Sound at hheld
      rw [hstate] at hheld
      subst hsame
      obtain rfl := hheld.2.2.2.2 parkEpoch hmem
      exact .inl ⟨running, waiters, rfl, rfl⟩
    · refine .inr ?_
      rintro _ succeeded rfl
      simp only [EngineManager.resumeFinished]
      rw [if_pos (.inl hsame)]
  | cold | closed | starting _ _ | stopping _ _ _ | running _ | parked _ _ | quiescing _ _ _ =>
    refine .inr ?_
    rintro _ succeeded rfl
    simp only [EngineManager.resumeFinished]

end EngineManager

/-- In every state of every run at most one generation is alive, started or stopped,
and no report is taken for another generation. -/
theorem managerAfter_singleGeneration {actions : List ManagerAction} {manager : EngineManager}
    (hrun : managerAfter actions = some manager) : manager.SingleGeneration := by
  have hsound := EngineManager.sound_managerAfter hrun
  refine
    { tasks := hsound.tasks_le
      alive := fun _ hmem => hsound.alive hmem
      starts := fun attempt hmem => ?_
      stops := fun generation reason hmem => ?_
      quiesces := fun _ _ hmem => hsound.quiesce_reports hmem
      resumes := fun _ _ hmem => hsound.resume_reports hmem }
  · obtain ⟨waiters, hstate, _⟩ := hsound.starting_of_mem hmem
    exact ⟨waiters, hstate⟩
  · obtain ⟨waiters, hstate, _⟩ := hsound.stopping_of_mem hmem
    exact ⟨waiters, hstate⟩

/-- A generation is parked while idle and stopped; a later one is started after it. -/
def restartedActions : List ManagerAction :=
  [.acquire 0, .startFinished 1 (some { generation := 7, parks := true }), .dropLease 7, .release 7,
    .hotIdleExpired 7 2, .idleExpired 7 2, .acquire 1, .stopFinished 7 .idle,
    .startFinished 2 (some { generation := 8, parks := true }), .quiesceFinished 7 1 true]

theorem restarted_singleGeneration :
    ∃ manager, managerAfter restartedActions = some manager ∧ manager.alive = [8] ∧
      manager.SingleGeneration := by
  obtain ⟨manager, hrun, halive⟩ :
      ∃ manager, managerAfter restartedActions = some manager ∧ manager.alive = [8] :=
    ⟨_, rfl, rfl⟩
  exact ⟨manager, hrun, halive, managerAfter_singleGeneration hrun⟩

end Chat2DB.Engine
