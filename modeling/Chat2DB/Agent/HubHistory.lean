import Chat2DB.Agent.HubSafety

/-! # Subscriptions follow the published history

A subscription yields a stretch of the events sent, handing over from its replay
to the channel without a hole. The invariants of entries and subscriptions are
carried along every run of the hub.
-/

namespace Chat2DB.Agent

variable {index : Nat}

/-! ## One subscription -/

namespace AgentRunSubscription

/-- The number of the last event yielded, or the one before the first. -/
def reached (subscription : AgentRunSubscription) : Nat :=
  subscription.first - 1 + subscription.yielded.length

/-- What ended a subscription was the end of the run, a lost entry or a gap. -/
def Ended (subscription : AgentRunSubscription) (entry : AgentRunEntry) :
    SubscriptionPhase → Prop
  | .finished =>
    subscription.reached = entry.sent.length ∧ entry.snapshot.status.isTerminal = true
  | .failed .streamUnavailable => entry.unavailable = true
  | .failed (.replayWindow requested oldest _) =>
    requested = subscription.reached ∧ min (requested + 1) u64Max < oldest
  | .failed .invalidSequence => False
  | _ => True

/-- The subscription stands at a place of what its entry sent. -/
structure Follows (entry : AgentRunEntry) (subscription : AgentRunSubscription) : Prop where
  requested : ∀ cursor ∈ subscription.requested, subscription.first = cursor + 1
  first_pos : 0 < subscription.first
  bound : subscription.first ≤ entry.sent.length + 1
  stretch : subscription.yielded ++ subscription.replay <+: entry.sent.drop (subscription.first - 1)
  cursor : subscription.cursor = subscription.reached ∨
    (subscription.cursor < subscription.reached ∧ subscription.replay ≠ [])
  /-- What the channel still holds begins no later than where the replay ends. -/
  live : subscription.phase = .polling ∨ subscription.phase = .receiving →
    subscription.position ≤ subscription.reached + subscription.replay.length
  position : subscription.position ≤ entry.sent.length
  waiting : subscription.phase = .receiving ∨ subscription.phase = .lagged →
    subscription.replay = []
  awake : subscription.phase = .receiving → entry.snapshot.status.isTerminal = true →
    subscription.reached < entry.sent.length
  ended : subscription.Ended entry subscription.phase

variable {capacity live : Nat} {runId : String} {entry later : AgentRunEntry}
  {subscription next : AgentRunSubscription}

theorem Follows.reached_le (hfollows : subscription.Follows entry) :
    subscription.reached + subscription.replay.length ≤ entry.sent.length := by
  have hlength := hfollows.stretch.length_le
  have hpos := hfollows.first_pos
  have hbound := hfollows.bound
  rw [List.length_append, List.length_drop] at hlength
  unfold reached
  omega

/-- The next event of a replay has the next number. -/
theorem Follows.next_number (hsound : entry.Sound capacity) (hfollows : subscription.Follows entry)
    {event : AgentEventEnvelope} {rest : List AgentEventEnvelope}
    (hreplay : subscription.replay = event :: rest) :
    event.sequence = subscription.reached + 1 := by
  have hget : entry.sent[subscription.reached]? = some event := by
    obtain ⟨tail, htail⟩ := hfollows.stretch
    rw [reached, ← List.getElem?_drop, ← htail, hreplay]
    simp
  have hnumber := hsound.numbered.eq_of_getElem? subscription.reached event.sequence
    (by simp [hget])
  rw [hnumber, Nat.add_comm]

section Journal

/-- The journal begins behind what its capacity has pushed out. -/
theorem oldestRetained_eq (hcapacity : 0 < capacity) (hsound : entry.Sound capacity) :
    oldestRetained entry = entry.sent.length - capacity + 1 := by
  have hpos : 0 < entry.sent.length := hsound.length ▸ hsound.started
  have hindex : entry.sent.length - capacity < entry.sent.length := by omega
  have hnumber := hsound.numbered.eq_of_getElem? (entry.sent.length - capacity)
    entry.sent[entry.sent.length - capacity].sequence (by simp [hindex])
  unfold oldestRetained
  rw [hsound.journal, List.head?_drop, List.getElem?_eq_getElem hindex, Option.map_some,
    Option.getD_some, hnumber, Nat.add_comm]

theorem replayAfter_eq (hsound : entry.Sound capacity) (cursor : Nat) :
    replayAfter entry cursor = entry.sent.drop (max (entry.sent.length - capacity) cursor) := by
  have hnumbered := hsound.numbered.drop (entry.sent.length - capacity)
  rw [← List.map_drop] at hnumbered
  unfold replayAfter
  rw [hsound.journal, hnumbered.filter_gt cursor, List.drop_drop]
  congr 1
  omega

/-- An accepted cursor is within what the journal still holds. -/
theorem validateReplayCursor_ok (hcapacity : 0 < capacity) (hsound : entry.Sound capacity)
    {cursor : Nat} (hvalid : validateReplayCursor entry (some cursor) = .ok ()) :
    cursor ≤ entry.sent.length ∧ entry.sent.length - capacity ≤ cursor := by
  simp only [validateReplayCursor, oldestRetained_eq hcapacity hsound, ← hsound.length] at hvalid
  split at hvalid
  · cases hvalid
  · split at hvalid
    · cases hvalid
    · omega

theorem validateReplayCursor_error (hsound : entry.Sound capacity) {cursor : Nat}
    {error : SubscriptionError} (hcursor : cursor ≤ entry.sent.length)
    (hinvalid : validateReplayCursor entry (some cursor) = .error error) :
    ∃ oldest latest, error = .replayWindow cursor oldest latest ∧ min (cursor + 1) u64Max < oldest := by
  simp only [validateReplayCursor, ← hsound.length] at hinvalid
  split at hinvalid
  · omega
  · split at hinvalid
    · rename_i hold
      cases hinvalid
      exact ⟨_, _, rfl, hold⟩
    · cases hinvalid

end Journal

/-- A subscription begins behind its cursor. -/
theorem follows_subscribe (hcapacity : 0 < capacity) (hsound : entry.Sound capacity)
    {afterSequence : Option Nat} (hsubscribe : subscribe entry runId afterSequence = some next) :
    next.runId = runId ∧ next.Follows entry := by
  have hpos : 0 < entry.sent.length := hsound.length ▸ hsound.started
  unfold subscribe at hsubscribe
  split at hsubscribe
  · split at hsubscribe
    · rename_i hvalid
      cases hsubscribe
      refine ⟨rfl, ?_⟩
      cases afterSequence with
      | none =>
        constructor
        · rintro cursor ⟨⟩
        all_goals
          simp [reached, oldestRetained_eq hcapacity hsound, replayAfter_eq hsound, Ended]
        all_goals omega
      | some cursor =>
        obtain ⟨hle, hold⟩ := validateReplayCursor_ok hcapacity hsound hvalid
        constructor
        · rintro cursor ⟨⟩
          rfl
        all_goals
          simp [reached, replayAfter_eq hsound, Ended, hold, hle]
    · cases hsubscribe
  · cases hsubscribe

theorem reached_yield (subscription : AgentRunSubscription) (event : AgentEventEnvelope) :
    (subscription.yield event).reached = subscription.reached + 1 := by
  simp [reached, yield, Nat.add_assoc]

theorem Follows.cursor_eq (hfollows : subscription.Follows entry)
    (hreplay : subscription.replay = []) : subscription.cursor = subscription.reached := by
  rcases hfollows.cursor with heq | ⟨_, hne⟩
  · exact heq
  · exact absurd hreplay hne

theorem Follows.withPhase (hfollows : subscription.Follows entry) {phase : SubscriptionPhase}
    (hlive : phase = .polling ∨ phase = .receiving →
      subscription.position ≤ subscription.reached + subscription.replay.length)
    (hwaiting : phase = .receiving ∨ phase = .lagged → subscription.replay = [])
    (hawake : phase = .receiving → entry.snapshot.status.isTerminal = true →
      subscription.reached < entry.sent.length)
    (hended : subscription.Ended entry phase) : Follows entry { subscription with phase } :=
  { hfollows with
    live := hlive
    waiting := hwaiting
    awake := hawake
    ended := by cases phase <;> exact hended }

/-- A poll keeps a subscription on the history. -/
theorem Follows.poll (hsound : entry.Sound capacity) (hfollows : subscription.Follows entry)
    (hpoll : subscription.poll entry = some next) : next.Follows entry := by
  unfold AgentRunSubscription.poll at hpoll
  split at hpoll
  · rename_i hphase
    have hlive := hfollows.live (.inl hphase)
    split at hpoll
    · rename_i hunavailable
      cases hpoll
      exact hfollows.withPhase (by simp) (by simp) (by simp) hunavailable
    · split at hpoll
      · rename_i event rest hreplay
        have hnumber := hfollows.next_number hsound hreplay
        have hstretch := hfollows.stretch
        rw [hreplay] at hlive hstretch
        cases hpoll
        constructor
        · exact hfollows.requested
        · exact hfollows.first_pos
        · exact hfollows.bound
        · simpa [yield] using hstretch
        · left
          rw [reached_yield]
          exact hnumber
        · intro _
          rw [reached_yield]
          change subscription.position ≤ subscription.reached + 1 + rest.length
          rw [List.length_cons] at hlive
          omega
        · exact hfollows.position
        · simp [yield]
        · simp [yield]
        · trivial
      · rename_i hreplay
        have hcursor := hfollows.cursor_eq hreplay
        have hreached := hfollows.reached_le
        split at hpoll
        · rename_i hend
          cases hpoll
          simp only [Bool.and_eq_true, decide_eq_true_eq, ge_iff_le, hcursor, ← hsound.length]
            at hend
          exact hfollows.withPhase (by simp) (by simp) (by simp) ⟨by omega, hend.1⟩
        · rename_i hend
          cases hpoll
          simp only [Bool.and_eq_true, decide_eq_true_eq, ge_iff_le, hcursor, ← hsound.length,
            not_and, Nat.not_le] at hend
          exact hfollows.withPhase (fun _ => hlive) (fun _ => hreplay) (fun _ => hend) trivial
  · cases hpoll

/-- The event at the receiver's place follows what was yielded or was yielded
already. -/
theorem Follows.receive (hsound : entry.Sound capacity) (hfollows : subscription.Follows entry)
    (hreceive : subscription.receive entry live = some next) : next.Follows entry := by
  unfold AgentRunSubscription.receive at hreceive
  split at hreceive
  · rename_i hphase
    have hreplay := hfollows.waiting (.inl hphase)
    have hlive := hfollows.live (.inr hphase)
    have hcursor := hfollows.cursor_eq hreplay
    rw [hreplay, List.length_nil, Nat.add_zero] at hlive
    split at hreceive
    · rename_i hunavailable
      cases hreceive
      exact hfollows.withPhase (by simp) (by simp) (by simp) hunavailable
    · split at hreceive
      · cases hreceive
        exact { hfollows with
          live := by simp
          position := Nat.sub_le _ _
          waiting := fun _ => hreplay
          awake := by simp
          ended := trivial }
      · split at hreceive
        · cases hreceive
        · rename_i event hget
          have hposition : subscription.position < entry.sent.length :=
            (List.getElem?_eq_some_iff.mp hget).1
          have hnumber := hsound.numbered.eq_of_getElem? subscription.position
            event.sequence (by simp [hget])
          split at hreceive
          · rename_i hseen
            rw [hnumber, hcursor] at hseen
            cases hreceive
            exact { hfollows with
              live := by
                intro _
                change subscription.position + 1 ≤ subscription.reached + _
                omega
              position := hposition
              waiting := by simp
              awake := by simp
              ended := trivial }
          · -- the channel stands where the replay ended
            rename_i hnew
            rw [hnumber, hcursor] at hnew
            cases hreceive
            have hplace : subscription.position = subscription.reached := by omega
            constructor
            · exact hfollows.requested
            · exact hfollows.first_pos
            · exact hfollows.bound
            · obtain ⟨tail, htail⟩ := hfollows.stretch
              rw [hreplay, List.append_nil] at htail
              have hnext : tail.head? = some event := by
                rw [hplace, reached, ← List.getElem?_drop, ← htail,
                  List.getElem?_append_right le_rfl, Nat.sub_self, ← List.head?_eq_getElem?] at hget
                exact hget
              obtain ⟨rest, rfl⟩ : ∃ rest, tail = event :: rest := by
                cases tail with
                | nil => simp at hnext
                | cons head rest => exact ⟨rest, by simpa using hnext⟩
              refine ⟨rest, ?_⟩
              simpa [yield, hreplay] using htail
            · left
              rw [reached_yield]
              change event.sequence = subscription.reached + 1
              omega
            · intro _
              rw [reached_yield]
              change subscription.position + 1 ≤ subscription.reached + 1 + _
              omega
            · exact hposition
            · simp [yield]
            · simp [yield]
            · trivial
  · cases hreceive

/-- A refill takes a lagging subscription back to the history. -/
theorem Follows.refill (hcapacity : 0 < capacity) (hsound : entry.Sound capacity)
    (hfollows : subscription.Follows entry) (hrefill : subscription.refill entry = some next) :
    next.Follows entry := by
  unfold AgentRunSubscription.refill at hrefill
  split at hrefill
  · rename_i hphase
    have hreplay := hfollows.waiting (.inr hphase)
    have hcursor := hfollows.cursor_eq hreplay
    have hreached := hfollows.reached_le
    split at hrefill
    · rename_i hvalid
      cases hrefill
      obtain ⟨_, hold⟩ := validateReplayCursor_ok hcapacity hsound hvalid
      have hrest : replayAfter entry subscription.cursor = entry.sent.drop subscription.reached := by
        rw [replayAfter_eq hsound, Nat.max_eq_right hold, hcursor]
      constructor
      · exact hfollows.requested
      · exact hfollows.first_pos
      · exact hfollows.bound
      · obtain ⟨tail, htail⟩ := hfollows.stretch
        rw [hreplay, List.append_nil] at htail
        have hsplit : entry.sent.drop subscription.reached = tail := by
          rw [reached, ← List.drop_drop, ← htail, List.drop_left]
        simp only [hrest, hsplit, htail, List.prefix_rfl]
      · exact .inl hcursor
      · intro _
        simp only [hrest, List.length_drop]
        change subscription.position ≤ subscription.reached + _
        have hposition := hfollows.position
        omega
      · exact hfollows.position
      · simp
      · simp
      · trivial
    · rename_i error hinvalid
      cases hrefill
      obtain ⟨oldest, latest, rfl, hold⟩ :=
        validateReplayCursor_error hsound (by omega) hinvalid
      have hended : subscription.Ended entry
          (.failed (.replayWindow subscription.cursor oldest latest)) := ⟨hcursor, hold⟩
      exact hfollows.withPhase (by simp) (by simp) (by simp) hended
  · cases hrefill

theorem poll_runId (hpoll : subscription.poll entry = some next) :
    next.runId = subscription.runId := by
  unfold AgentRunSubscription.poll at hpoll
  split at hpoll
  · split at hpoll
    · cases hpoll
      rfl
    · split at hpoll
      · cases hpoll
        rfl
      · split at hpoll <;> obtain rfl := Option.some.inj hpoll <;> rfl
  · cases hpoll

theorem receive_runId (hreceive : subscription.receive entry live = some next) :
    next.runId = subscription.runId := by
  unfold AgentRunSubscription.receive at hreceive
  split at hreceive
  · split at hreceive
    · cases hreceive
      rfl
    · split at hreceive
      · cases hreceive
        rfl
      · split at hreceive
        · cases hreceive
        · split at hreceive <;> obtain rfl := Option.some.inj hreceive <;> rfl
  · cases hreceive

theorem refill_runId (hrefill : subscription.refill entry = some next) :
    next.runId = subscription.runId := by
  unfold AgentRunSubscription.refill at hrefill
  split at hrefill
  · split at hrefill <;> obtain rfl := Option.some.inj hrefill <;> rfl
  · cases hrefill

/-- What was sent stays sent, and nothing follows the end of a run. -/
theorem Follows.grows (hfollows : subscription.Follows entry) (hgrows : entry.Grows later) :
    subscription.Follows later := by
  have hlength := hgrows.sent.length_le
  constructor
  · exact hfollows.requested
  · exact hfollows.first_pos
  · exact hfollows.bound.trans (by omega)
  · obtain ⟨tail, htail⟩ := hgrows.sent
    rw [← htail, List.drop_append]
    exact hfollows.stretch.trans (List.prefix_append _ _)
  · exact hfollows.cursor
  · exact hfollows.live
  · exact hfollows.position.trans hlength
  · exact hfollows.waiting
  · intro hphase hterminal
    have hreached := hfollows.reached_le
    rcases hgrows.terminal hterminal with hbefore | hmore
    · exact (hfollows.awake hphase hbefore).trans_le hlength
    · omega
  · have hended := hfollows.ended
    cases hphase : subscription.phase with
    | finished =>
      rw [hphase] at hended
      obtain ⟨hreached, hterminal⟩ := hended
      obtain ⟨hsent, hsnapshot⟩ := hgrows.final hterminal
      exact ⟨hreached.trans (congrArg List.length hsent.symm), by rw [hsnapshot, hterminal]⟩
    | failed error =>
      rw [hphase] at hended
      cases error with
      | streamUnavailable => exact hgrows.unavailable hended
      | replayWindow requested oldest latest => exact hended
      | invalidSequence => exact hended
    | polling | receiving | lagged => trivial

/-- The subscription ended. -/
def isClosed (subscription : AgentRunSubscription) : Bool :=
  match subscription.phase with
  | .finished | .failed _ => true
  | .polling | .receiving | .lagged => false

/-- The work left on what was sent: events to yield, places of the channel to
read, and the way from phase to phase. -/
def remaining (entry : AgentRunEntry) (subscription : AgentRunSubscription) : Nat :=
  3 * (entry.sent.length - subscription.reached) + 3 * (entry.sent.length - subscription.position) +
    match subscription.phase with
    | .lagged => 3
    | .polling => 2
    | .receiving => 1
    | .finished | .failed _ => 0

/-- A poll brings a subscription nearer to the end of its replay. -/
theorem Follows.poll_remaining (hfollows : subscription.Follows entry)
    (hphase : subscription.phase = .polling) :
    ∃ next, subscription.poll entry = some next ∧
      next.remaining entry < subscription.remaining entry := by
  have hreached := hfollows.reached_le
  simp only [AgentRunSubscription.poll, hphase, if_true]
  split
  · refine ⟨_, rfl, ?_⟩
    simp only [remaining, hphase, reached]
    omega
  · split
    · rename_i event rest hreplay
      refine ⟨_, rfl, ?_⟩
      rw [hreplay, List.length_cons] at hreached
      simp only [remaining, hphase, reached_yield]
      simp only [yield, reached] at hreached ⊢
      omega
    · split
      · refine ⟨_, rfl, ?_⟩
        simp only [remaining, hphase, reached]
        omega
      · refine ⟨_, rfl, ?_⟩
        simp only [remaining, hphase, reached]
        omega

/-- On a run that ended, a waiting receiver has something to read. -/
theorem Follows.receive_remaining (hfollows : subscription.Follows entry) (live : Nat)
    (hphase : subscription.phase = .receiving) (hterminal : entry.snapshot.status.isTerminal = true) :
    ∃ next, subscription.receive entry live = some next ∧
      next.remaining entry < subscription.remaining entry := by
  have hreached := hfollows.awake hphase hterminal
  have hlive := hfollows.live (.inr hphase)
  rw [hfollows.waiting (.inl hphase), List.length_nil, Nat.add_zero] at hlive
  have hposition : subscription.position < entry.sent.length := by omega
  simp only [AgentRunSubscription.receive, hphase, if_true]
  split
  · refine ⟨_, rfl, ?_⟩
    simp only [remaining, hphase, reached]
    omega
  · split
    · refine ⟨_, rfl, ?_⟩
      simp only [remaining, hphase, reached]
      omega
    · rw [List.getElem?_eq_getElem hposition]
      simp only
      split
      · refine ⟨_, rfl, ?_⟩
        simp only [remaining, hphase, reached]
        omega
      · refine ⟨_, rfl, ?_⟩
        simp only [remaining, hphase, reached_yield]
        simp only [yield, reached] at hreached ⊢
        omega

theorem refill_remaining (hphase : subscription.phase = .lagged) :
    ∃ next, subscription.refill entry = some next ∧
      next.remaining entry < subscription.remaining entry := by
  simp only [AgentRunSubscription.refill, hphase, if_true]
  split <;> refine ⟨_, rfl, ?_⟩ <;> simp only [remaining, hphase, reached] <;> omega

end AgentRunSubscription

/-! ## The hub -/

/-- A step of the subscription with this index. -/
def HubAction.Reads (index : Nat) : HubAction → Prop
  | .poll other | .receive other | .refill other => other = index
  | _ => False

namespace AgentRunHub

/-- Entries and subscriptions in one state of the hub. -/
structure Sound (capacities : HubCapacities) (hub : AgentRunHub) : Prop where
  entries : ∀ runId entry, hub.runs runId = some entry → entry.Sound capacities.replay
  stored : ∀ runId entry, hub.runs runId = some entry → entry.Stored (hub.durable runId)
  follows : ∀ subscription ∈ hub.subscriptions,
    ∃ entry, hub.runs subscription.runId = some entry ∧ subscription.Follows entry

/-- Every entry is kept and its published history only grows. -/
def Grows (hub later : AgentRunHub) : Prop :=
  ∀ runId entry, hub.runs runId = some entry →
    ∃ after, later.runs runId = some after ∧ entry.Grows after

variable {capacities : HubCapacities} {hub later : AgentRunHub} {runId : String}

theorem Grows.of_runs (hruns : later.runs = hub.runs) : hub.Grows later := by
  intro runId entry hentry
  exact ⟨entry, by rw [hruns, hentry], .refl entry⟩

theorem Grows.trans {middle : AgentRunHub} (hfirst : hub.Grows middle)
    (hsecond : middle.Grows later) : hub.Grows later := by
  intro runId entry hentry
  obtain ⟨between, hbetween, hgrows⟩ := hfirst runId entry hentry
  obtain ⟨after, hafter, hgrows'⟩ := hsecond runId between hbetween
  exact ⟨after, hafter, hgrows.trans hgrows'⟩

theorem Grows.replace {entry changed : AgentRunEntry} (hentry : hub.runs runId = some entry)
    (hgrows : entry.Grows changed)
    (hruns : later.runs = Function.update hub.runs runId (some changed)) : hub.Grows later := by
  intro other found hfound
  rcases eq_or_ne other runId with rfl | hne
  · obtain rfl : entry = found := Option.some.inj (hentry.symm.trans hfound)
    exact ⟨changed, by simp [hruns], hgrows⟩
  · exact ⟨found, by simp [hruns, hne, hfound], .refl found⟩

/-- One entry is replaced by what it became. -/
theorem Sound.replace (hsound : hub.Sound capacities) {entry changed : AgentRunEntry}
    {durable : String → Option Nat} (hentry : hub.runs runId = some entry)
    (hchanged : changed.Sound capacities.replay) (hstored : changed.Stored (durable runId))
    (hgrows : entry.Grows changed) (hothers : ∀ other, other ≠ runId →
      durable other = hub.durable other) :
    Sound capacities
        { hub with runs := Function.update hub.runs runId (some changed), durable } ∧
      hub.Grows { hub with runs := Function.update hub.runs runId (some changed), durable } := by
  refine ⟨?_, .replace hentry hgrows rfl⟩
  constructor
  · intro other found hfound
    rcases eq_or_ne other runId with rfl | hne
    · obtain rfl : changed = found := by simpa using hfound
      exact hchanged
    · exact hsound.entries other found (by simpa [hne] using hfound)
  · intro other found hfound
    rcases eq_or_ne other runId with rfl | hne
    · obtain rfl : changed = found := by simpa using hfound
      exact hstored
    · have hbefore := hsound.stored other found (by simpa [hne] using hfound)
      rw [← hothers other hne] at hbefore
      exact hbefore
  · intro subscription hmem
    obtain ⟨found, hfound, hfollows⟩ := hsound.follows subscription hmem
    rcases eq_or_ne subscription.runId runId with heq | hne
    · obtain rfl : entry = found := by rw [heq, hentry] at hfound; exact Option.some.inj hfound
      exact ⟨changed, by simp [heq], hfollows.grows hgrows⟩
    · exact ⟨found, by simpa [hne] using hfound, hfollows⟩

/-- A move of one entry keeps the hub sound, and what was published stays. -/
theorem Sound.onEntry (hsound : hub.Sound capacities)
    {change : AgentRunEntry → Option AgentRunEntry}
    (hmoves : ∀ entry changed, change entry = some changed →
      AgentRunEntry.Moves capacities.replay runId entry changed)
    (hstep : hub.onEntry runId change = some later) : later.Sound capacities ∧ hub.Grows later := by
  simp only [AgentRunHub.onEntry, Option.bind_eq_bind, Option.bind_eq_some_iff, Option.pure_def,
    Option.some.injEq] at hstep
  obtain ⟨entry, hentry, changed, hchange, rfl⟩ := hstep
  have hmove := hmoves entry changed hchange
  have hbefore := hsound.entries runId entry hentry
  exact hsound.replace hentry (hbefore.moves capacities.replay_pos hmove)
    ((hsound.stored runId entry hentry).moves hmove) (hbefore.grows hmove) (fun _ _ => rfl)

/-- A move of a subscription leaves the entries alone. -/
theorem Sound.onSubscription (hsound : hub.Sound capacities)
    {change : AgentRunSubscription → AgentRunEntry → Option AgentRunSubscription}
    (hfollows : ∀ subscription entry changed, entry.Sound capacities.replay →
      subscription.Follows entry → change subscription entry = some changed →
      changed.runId = subscription.runId ∧ changed.Follows entry)
    (hstep : hub.onSubscription index change = some later) : later.Sound capacities ∧ hub.Grows later := by
  simp only [AgentRunHub.onSubscription, Option.bind_eq_bind, Option.bind_eq_some_iff,
    Option.pure_def, Option.some.injEq] at hstep
  obtain ⟨subscription, hget, entry, hentry, changed, hchange, rfl⟩ := hstep
  obtain ⟨found, hfound, hbefore⟩ := hsound.follows subscription (List.mem_of_getElem? hget)
  obtain rfl : entry = found := Option.some.inj (hentry.symm.trans hfound)
  obtain ⟨hid, hafter⟩ := hfollows subscription entry changed
    (hsound.entries _ _ hentry) hbefore hchange
  refine ⟨⟨hsound.entries, hsound.stored, ?_⟩, .of_runs rfl⟩
  intro other hmem
  rcases List.mem_or_eq_of_mem_set hmem with hold | rfl
  · exact hsound.follows other hold
  · exact ⟨entry, by rw [hid]; exact hentry, hafter⟩

theorem Sound.store (hsound : hub.Sound capacities) {number : Nat}
    (hgone : ∀ entry, hub.runs runId = some entry → entry.unavailable = true)
    (hstep : hub.store runId number = some later) : later.Sound capacities ∧ hub.Grows later := by
  simp only [AgentRunHub.store, Option.bind_eq_bind, Option.bind_eq_some_iff] at hstep
  obtain ⟨stored, _, hstep⟩ := hstep
  split at hstep
  · cases hstep
    refine ⟨⟨hsound.entries, ?_, hsound.follows⟩, .of_runs rfl⟩
    intro other entry hentry
    have hbefore := hsound.stored other entry hentry
    rcases eq_or_ne other runId with rfl | hne
    · -- the store moved on without an entry that is not used any more
      have hunavailable := hgone entry hentry
      exact ⟨by simp [hunavailable], hbefore.spent⟩
    · simpa [hne] using hbefore
  · cases hstep

theorem sound_new : AgentRunHub.new.Sound capacities where
  entries := by simp [AgentRunHub.new]
  stored := by simp [AgentRunHub.new]
  follows := by simp [AgentRunHub.new]

theorem sound_startedEntry (capacity : Nat) (hcapacity : 0 < capacity)
    (snapshot : AgentRunSnapshot) (hrunning : snapshot.status = .running) :
    (startedEntry snapshot).Sound capacity := by
  constructor
  · exact rfl
  · exact rfl
  · exact Nat.one_pos
  · have hnone : 1 - capacity = 0 := by omega
    simp [startedEntry, hnone]
  · simp [startedEntry]
  · simp [startedEntry, hrunning, AgentEvent.isTerminal, AgentRunStatus.isTerminal]
  · rintro phase ⟨⟩

theorem Sound.startRun (hsound : hub.Sound capacities)
    (hstep : hub.step capacities (.startRun runId) = some later) : later.Sound capacities ∧ hub.Grows later := by
  simp only [AgentRunHub.step] at hstep
  split at hstep
  · rename_i hnone
    rw [Option.isNone_iff_eq_none] at hnone
    cases hstep
    refine ⟨⟨hsound.entries, ?_, hsound.follows⟩, .of_runs rfl⟩
    intro other entry hentry
    have hbefore := hsound.stored other entry hentry
    rcases eq_or_ne other runId with rfl | hne
    · refine ⟨?_, hbefore.spent⟩
      intro havailable
      rw [hnone] at hbefore
      cases hbefore.agrees havailable
    · simpa [hne] using hbefore
  · cases hstep

/-- A run is registered with the number that is stored for it. -/
theorem Sound.registerStarted (hsound : hub.Sound capacities) {snapshot : AgentRunSnapshot}
    (hstep : hub.step capacities (.registerStarted snapshot) = some later) :
    later.Sound capacities ∧ hub.Grows later := by
  simp only [AgentRunHub.step] at hstep
  split at hstep
  · rename_i hguard
    simp only [Bool.and_eq_true, Option.isNone_iff_eq_none, decide_eq_true_eq] at hguard
    obtain ⟨⟨hvalid, hfree⟩, hdurable⟩ := hguard
    have hrunning : snapshot.status = .running := by
      simp only [validateStartedSnapshot, Bool.and_eq_true, decide_eq_true_eq] at hvalid
      exact hvalid.1.1.1.1.2
    cases hstep
    refine ⟨⟨?_, ?_, ?_⟩, ?_⟩
    · intro other entry hentry
      rcases eq_or_ne other snapshot.runId with rfl | hne
      · obtain rfl : startedEntry snapshot = entry := by simpa using hentry
        exact sound_startedEntry _ capacities.replay_pos snapshot hrunning
      · exact hsound.entries other entry (by simpa [hne] using hentry)
    · intro other entry hentry
      rcases eq_or_ne other snapshot.runId with rfl | hne
      · obtain rfl : startedEntry snapshot = entry := by simpa using hentry
        refine ⟨fun _ => hdurable, ?_⟩
        simp [startedEntry, AgentRunEntry.storedSequence]
      · exact hsound.stored other entry (by simpa [hne] using hentry)
    · intro subscription hmem
      obtain ⟨entry, hentry, hfollows⟩ := hsound.follows subscription hmem
      have hne : subscription.runId ≠ snapshot.runId := by
        intro heq
        rw [heq, hfree] at hentry
        cases hentry
      exact ⟨entry, by simpa [hne] using hentry, hfollows⟩
    · intro other entry hentry
      have hne : other ≠ snapshot.runId := by
        rintro rfl
        rw [hfree] at hentry
        cases hentry
      exact ⟨entry, by simpa [hne] using hentry, .refl entry⟩
  · cases hstep

theorem Sound.commit (hsound : hub.Sound capacities)
    (hstep : hub.step capacities (.commit runId) = some later) : later.Sound capacities ∧ hub.Grows later := by
  simp only [AgentRunHub.step, Option.bind_eq_bind, Option.bind_eq_some_iff] at hstep
  obtain ⟨entry, hentry, hstep⟩ := hstep
  have hbefore := hsound.entries runId entry hentry
  split at hstep
  · rename_i next prior hphase
    simp only [AgentRunHub.store, Option.bind_eq_bind, Option.bind_eq_some_iff] at hstep
    obtain ⟨stored, ⟨number, _, hstore⟩, hstep⟩ := hstep
    split at hstore
    · obtain rfl := Option.some.inj hstore
      simp only [AgentRunHub.onEntry, Option.bind_eq_bind, Option.bind_eq_some_iff,
        Option.pure_def, Option.some.injEq] at hstep
      obtain ⟨found, hfound, changed, hchange, rfl⟩ := hstep
      obtain rfl : entry = found := Option.some.inj (hentry.symm.trans hfound)
      refine hsound.replace hentry (hbefore.commit hchange) ?_
        (AgentRunEntry.commitTransition_grows hchange) (fun other hne => by simp [hne])
      rw [Function.update_self]
      exact (hsound.stored runId entry hentry).commit hbefore hphase hchange
    · cases hstore
  · cases hstep

/-- The invariant of the hub, one case for each action. -/
theorem Sound.step {action : HubAction} (hsound : hub.Sound capacities)
    (hstep : hub.step capacities action = some later) : later.Sound capacities ∧ hub.Grows later := by
  -- actions of entries are moves, those of subscriptions leave the entries alone
  cases action with
  | startRun runId => exact hsound.startRun hstep
  | registerStarted snapshot => exact hsound.registerStarted hstep
  | beginTransition runId =>
    exact hsound.onEntry (fun _ _ => AgentRunEntry.beginTransition_moves) hstep
  | commit runId => exact hsound.commit hstep
  | accept runId durable =>
    exact hsound.onEntry (fun _ _ => AgentRunEntry.acceptTransition_moves) hstep
  | definitelyNotCommitted runId =>
    exact hsound.onEntry (fun _ _ => AgentRunEntry.definitelyNotCommitted_moves) hstep
  | indeterminate runId =>
    exact hsound.onEntry (fun _ _ => AgentRunEntry.indeterminate_moves) hstep
  | publish runId =>
    exact hsound.onEntry (fun _ _ => AgentRunEntry.publishTransition_moves) hstep
  | finish runId =>
    simp only [AgentRunHub.step, Option.bind_eq_bind, Option.bind_eq_some_iff] at hstep
    obtain ⟨entry, _, finished, hfinished, hstep⟩ := hstep
    obtain ⟨hafter, hgrows⟩ :=
      hsound.onEntry (fun _ _ => AgentRunEntry.finishTransition_moves) hfinished
    split at hstep <;> cases hstep
    · exact ⟨⟨hafter.entries, hafter.stored, hafter.follows⟩, hgrows⟩
    · exact ⟨hafter, hgrows⟩
  | dropTransition runId =>
    exact hsound.onEntry (fun _ _ => AgentRunEntry.dropTransition_moves) hstep
  | lateCommit runId number =>
    simp only [AgentRunHub.step, Option.bind_eq_bind, Option.bind_eq_some_iff] at hstep
    obtain ⟨entry, hentry, hstep⟩ := hstep
    split at hstep
    · rename_i hlate
      simp only [Bool.and_eq_true, decide_eq_true_eq] at hlate
      refine hsound.store ?_ hstep
      intro found hfound
      obtain rfl : entry = found := Option.some.inj (hentry.symm.trans hfound)
      exact hlate.1
    · cases hstep
  | requestCancellation runId =>
    exact hsound.onEntry (fun _ _ => AgentRunEntry.requestCancellation_moves) hstep
  | installPermissionWaiter runId permissionId =>
    exact hsound.onEntry (fun _ _ => AgentRunEntry.installPermissionWaiter_moves) hstep
  | abandon runId => exact hsound.onEntry (fun _ _ => AgentRunEntry.abandon_moves) hstep
  | attachTask runId => exact hsound.onEntry (fun _ _ => AgentRunEntry.attachTask_moves) hstep
  | taskDone runId => exact hsound.onEntry (fun _ _ => AgentRunEntry.finishTask_moves) hstep
  | evict runId => exact hsound.onEntry (fun _ _ => AgentRunEntry.evict_moves) hstep
  | subscribe runId afterSequence =>
    simp only [AgentRunHub.step, Option.bind_eq_bind, Option.bind_eq_some_iff, Option.pure_def,
      Option.some.injEq] at hstep
    obtain ⟨entry, hentry, subscription, hsubscribe, rfl⟩ := hstep
    refine ⟨⟨hsound.entries, hsound.stored, ?_⟩, .of_runs rfl⟩
    intro other hmem
    rcases List.mem_append.mp hmem with hold | hnew
    · exact hsound.follows other hold
    · obtain rfl := List.mem_singleton.mp hnew
      obtain ⟨rfl, hfollows⟩ := AgentRunSubscription.follows_subscribe capacities.replay_pos
        (hsound.entries runId entry hentry) hsubscribe
      exact ⟨entry, hentry, hfollows⟩
  | poll index =>
    refine hsound.onSubscription ?_ hstep
    intro subscription entry changed hentry hfollows hpoll
    exact ⟨AgentRunSubscription.poll_runId hpoll, hfollows.poll hentry hpoll⟩
  | receive index =>
    refine hsound.onSubscription ?_ hstep
    intro subscription entry changed hentry hfollows hreceive
    exact ⟨AgentRunSubscription.receive_runId hreceive, hfollows.receive hentry hreceive⟩
  | refill index =>
    refine hsound.onSubscription ?_ hstep
    intro subscription entry changed hentry hfollows hrefill
    exact ⟨AgentRunSubscription.refill_runId hrefill,
      hfollows.refill capacities.replay_pos hentry hrefill⟩

/-- Left to itself on a run that ended, a subscription takes a step. -/
theorem Sound.advance (hsound : hub.Sound capacities)
    {subscription : AgentRunSubscription} {entry : AgentRunEntry}
    (hget : hub.subscriptions[index]? = some subscription)
    (hentry : hub.runs subscription.runId = some entry)
    (hterminal : entry.snapshot.status.isTerminal = true) (hopen : subscription.isClosed = false) :
    ∃ action next, action.Reads index ∧ next.runId = subscription.runId ∧
      hub.step capacities action =
        some { hub with subscriptions := hub.subscriptions.set index next } ∧
      next.remaining entry < subscription.remaining entry := by
  obtain ⟨found, hfound, hfollows⟩ := hsound.follows subscription (List.mem_of_getElem? hget)
  obtain rfl : entry = found := Option.some.inj (hentry.symm.trans hfound)
  cases hphase : subscription.phase with
  | polling =>
    obtain ⟨next, hnext, hless⟩ := hfollows.poll_remaining hphase
    refine ⟨.poll index, next, rfl, AgentRunSubscription.poll_runId hnext, ?_, hless⟩
    simp [AgentRunHub.step, AgentRunHub.onSubscription, hget, hentry, hnext]
  | receiving =>
    obtain ⟨next, hnext, hless⟩ :=
      hfollows.receive_remaining capacities.live hphase hterminal
    refine ⟨.receive index, next, rfl, AgentRunSubscription.receive_runId hnext, ?_, hless⟩
    simp [AgentRunHub.step, AgentRunHub.onSubscription, hget, hentry, hnext]
  | lagged =>
    obtain ⟨next, hnext, hless⟩ := AgentRunSubscription.refill_remaining hphase
    refine ⟨.refill index, next, rfl, AgentRunSubscription.refill_runId hnext, ?_, hless⟩
    simp [AgentRunHub.step, AgentRunHub.onSubscription, hget, hentry, hnext]
  | finished | failed => simp [AgentRunSubscription.isClosed, hphase] at hopen

/-- A subscription to a run that ended is closed after finitely many of its own
steps. -/
theorem Sound.drains (hsound : hub.Sound capacities)
    {subscription : AgentRunSubscription} {entry : AgentRunEntry}
    (hget : hub.subscriptions[index]? = some subscription)
    (hentry : hub.runs subscription.runId = some entry)
    (hterminal : entry.snapshot.status.isTerminal = true) :
    ∃ actions later closed, (∀ action ∈ actions, action.Reads index) ∧
      Machine.run (AgentRunHub.step capacities) hub actions = some later ∧
      later.subscriptions[index]? = some closed ∧ closed.isClosed = true := by
  induction hless : subscription.remaining entry using Nat.strong_induction_on
    generalizing hub subscription with
  | _ remaining ih =>
    subst hless
    cases hopen : subscription.isClosed with
    | true => exact ⟨[], hub, subscription, by simp, rfl, hget, hopen⟩
    | false =>
      obtain ⟨action, next, hreads, hid, hstep, hless⟩ :=
        hsound.advance hget hentry hterminal hopen
      have hindex := (List.getElem?_eq_some_iff.mp hget).1
      have hnext : (hub.subscriptions.set index next)[index]? = some next := by simp [hindex]
      obtain ⟨actions, later, closed, hall, hrun, hlater, hclosed⟩ :=
        ih (next.remaining entry) hless (hsound.step hstep).1 hnext
          (by rw [hid]; exact hentry) rfl
      refine ⟨action :: actions, later, closed, ?_, ?_, hlater, hclosed⟩
      · simpa [hreads] using hall
      · rw [Machine.run_cons, hstep]
        exact hrun

/-- An entry whose transition is in doubt or was dropped is given up. -/
theorem step_gives_up (hstep : hub.step capacities (.indeterminate runId) = some later ∨
      hub.step capacities (.dropTransition runId) = some later) :
    ∃ entry, later.runs runId = some entry ∧ entry.unavailable = true := by
  simp only [step, onEntry, Option.bind_eq_bind, Option.bind_eq_some_iff, Option.pure_def,
    Option.some.injEq] at hstep
  rcases hstep with ⟨entry, hentry, changed, hchange, rfl⟩ | ⟨entry, hentry, changed, hchange, rfl⟩
  · refine ⟨changed, by simp, ?_⟩
    unfold AgentRunEntry.indeterminate at hchange
    split at hchange
    · cases hchange
      exact (entry.invalidateEntry_kept false).2
    · cases hchange
      exact (entry.invalidateEntry_kept false).2
    · cases hchange
  · refine ⟨changed, by simp, ?_⟩
    unfold AgentRunEntry.dropTransition at hchange
    split at hchange
    · cases hchange
      exact (entry.invalidateEntry_kept false).2
    · cases hchange
      exact (entry.invalidateEntry_kept false).2
    · cases hchange

theorem run_sound {start : AgentRunHub} {actions : List HubAction} (hstart : start.Sound capacities)
    (hrun : Machine.run (step capacities) start actions = some hub) :
    hub.Sound capacities ∧ start.Grows hub := by
  refine Machine.run_invariant (motive := fun hub => hub.Sound capacities ∧ start.Grows hub)
    ⟨hstart, .of_runs rfl⟩ ?_ hrun
  rintro before action after ⟨hbefore, hgrows⟩ hstep
  obtain ⟨hafter, hgrows'⟩ := hbefore.step hstep
  exact ⟨hafter, hgrows.trans hgrows'⟩

end AgentRunHub

/-! ## Runs of the hub -/

/-- The hub after a list of actions, if they could all be taken. -/
def hubAfter (capacities : HubCapacities) (actions : List HubAction) : Option AgentRunHub :=
  Machine.run (AgentRunHub.step capacities) AgentRunHub.new actions

/-- A storage commit stands unpublished. -/
def AgentRunEntry.committing (entry : AgentRunEntry) : Bool :=
  match entry.transition with
  | some (.committed _ _) | some (.accepted _ _) => true
  | _ => false

/-- What an entry published and what the store holds of its run. -/
structure AgentRunEntry.History (capacity : Nat) (durable : Option Nat) (entry : AgentRunEntry) :
    Prop where
  cached : entry.unavailable = false → entry.committing = false → durable = some entry.sequence
  ahead : entry.unavailable = false → entry.committing = true →
    durable = some (entry.sequence + 1)
  published : entry.sent.map AgentEventEnvelope.sequence = List.range' 1 entry.sequence
  journal : entry.journal = entry.sent.drop (entry.sent.length - capacity)
  terminal : ∀ event ∈ entry.sent.dropLast, event.event.isTerminal = false
  fresh : ∀ next prior, entry.transition = some (.persisting next prior) → next ∉ entry.spent

/-- What a subscription handed to its caller. -/
structure AgentRunSubscription.Delivers (entry : AgentRunEntry)
    (subscription : AgentRunSubscription) : Prop where
  requested : ∀ cursor ∈ subscription.requested, subscription.first = cursor + 1
  consecutive : subscription.yielded.map AgentEventEnvelope.sequence =
    List.range' subscription.first subscription.yielded.length
  history : subscription.yielded <+: entry.sent.drop (subscription.first - 1)
  finished : subscription.phase = .finished →
    subscription.yielded = entry.sent.drop (subscription.first - 1) ∧
      ∃ event ∈ entry.sent.getLast?, event.event.isTerminal = true
  failed : ∀ error, subscription.phase = .failed error →
    (error = .streamUnavailable ∧ entry.unavailable = true) ∨
      ∃ oldest latest, error = .replayWindow subscription.reached oldest latest ∧
        min (subscription.reached + 1) u64Max < oldest

/-- What an entry published is what is stored, or one transition behind. -/
theorem AgentRunEntry.Sound.history {capacity : Nat} {durable : Option Nat} {entry : AgentRunEntry}
    (hsound : entry.Sound capacity) (hstored : entry.Stored durable) :
    entry.History capacity durable := by
  constructor
  · intro havailable hidle
    rw [hstored.agrees havailable]
    unfold AgentRunEntry.committing at hidle
    unfold AgentRunEntry.storedSequence
    split at hidle <;> simp_all
  · intro havailable hcommitting
    rw [hstored.agrees havailable]
    unfold AgentRunEntry.committing at hcommitting
    split at hcommitting
    · next hphase =>
      rw [AgentRunEntry.storedSequence, hphase]
      exact congrArg some (hsound.holder _ hphase).1
    · next hphase =>
      rw [AgentRunEntry.storedSequence, hphase]
      exact congrArg some (hsound.holder _ hphase).1
    · cases hcommitting
  · have hnumbered := hsound.numbered
    rw [Consecutive, List.length_map, hsound.length] at hnumbered
    exact hnumbered
  · exact hsound.journal
  · exact hsound.running
  · exact fun next prior hphase => hstored.fresh hsound hphase

/-- A subscription delivers a stretch of the history. -/
theorem AgentRunSubscription.Follows.delivers {capacity : Nat} {entry : AgentRunEntry}
    {subscription : AgentRunSubscription} (hsound : entry.Sound capacity)
    (hfollows : subscription.Follows entry) : subscription.Delivers entry := by
  have hhistory : subscription.yielded <+: entry.sent.drop (subscription.first - 1) :=
    (List.prefix_append _ _).trans hfollows.stretch
  have hended := hfollows.ended
  constructor
  · exact hfollows.requested
  · have hdrop := hsound.numbered.drop (subscription.first - 1)
    have hpos := hfollows.first_pos
    have hfirst : 1 + (subscription.first - 1) = subscription.first := by omega
    rw [hfirst, ← List.map_drop] at hdrop
    have hyielded := hdrop.of_prefix (hhistory.map AgentEventEnvelope.sequence)
    rw [Consecutive, List.length_map] at hyielded
    exact hyielded
  · exact hhistory
  · intro hphase
    rw [hphase] at hended
    obtain ⟨hreached, hterminal⟩ := hended
    constructor
    · apply hhistory.eq_of_length
      rw [List.length_drop]
      unfold AgentRunSubscription.reached at hreached
      omega
    · have hpos : 0 < entry.sent.length := hsound.length ▸ hsound.started
      have hne := List.ne_nil_of_length_pos hpos
      refine ⟨entry.sent.getLast hne, List.getLast?_eq_some_getLast hne, ?_⟩
      rw [hsound.last _ (List.getLast?_eq_some_getLast hne), hterminal]
  · intro error hphase
    rw [hphase] at hended
    cases error with
    | streamUnavailable => exact .inl ⟨rfl, hended⟩
    | replayWindow requested oldest latest =>
      obtain ⟨rfl, hold⟩ := hended
      exact .inr ⟨oldest, latest, rfl, hold⟩
    | invalidSequence => exact hended.elim

/-- Hub events are the durable history, in every run. -/
structure HubHistory (capacities : HubCapacities) (actions : List HubAction) : Prop where
  entries : ∀ hub, hubAfter capacities actions = some hub →
    ∀ runId entry, hub.runs runId = some entry →
      entry.History capacities.replay (hub.durable runId)
  /-- What was sent stays, and an entry once given up is not used again. -/
  grows : ∀ hub rest later, hubAfter capacities actions = some hub →
    hubAfter capacities (actions ++ rest) = some later → hub.Grows later
  givenUp : ∀ before runId hub, hubAfter capacities actions = some hub →
    actions = before ++ [.indeterminate runId] ∨ actions = before ++ [.dropTransition runId] →
    ∃ entry, hub.runs runId = some entry ∧ entry.unavailable = true
  subscriptions : ∀ hub, hubAfter capacities actions = some hub →
    ∀ subscription ∈ hub.subscriptions, ∃ entry, hub.runs subscription.runId = some entry ∧
      subscription.Delivers entry
  /-- A subscription to a run that ended reaches its own end. -/
  closes : ∀ hub, hubAfter capacities actions = some hub →
    ∀ index subscription entry, hub.subscriptions[index]? = some subscription →
      hub.runs subscription.runId = some entry → entry.snapshot.status.isTerminal = true →
      ∃ rest later closed, (∀ action ∈ rest, action.Reads index) ∧
        hubAfter capacities (actions ++ rest) = some later ∧
        later.subscriptions[index]? = some closed ∧ closed.isClosed = true

/-- In every run of the hub the published history is the durable one, but for a transition between
its commit and its publication. -/
theorem reachable_hubHistory (capacities : HubCapacities) (actions : List HubAction) :
    HubHistory capacities actions := by
  have hsound : ∀ hub, hubAfter capacities actions = some hub → hub.Sound capacities :=
    fun hub hafter => (AgentRunHub.run_sound AgentRunHub.sound_new hafter).1
  have happend : ∀ hub rest, hubAfter capacities actions = some hub →
      hubAfter capacities (actions ++ rest) = Machine.run (AgentRunHub.step capacities) hub rest := by
    intro hub rest hafter
    unfold hubAfter at hafter ⊢
    rw [Machine.run_append, hafter, Option.bind_some]
  constructor
  · intro hub hafter runId entry hentry
    exact ((hsound hub hafter).entries runId entry hentry).history
      ((hsound hub hafter).stored runId entry hentry)
  · intro hub rest later hafter hlater
    rw [happend hub rest hafter] at hlater
    exact (AgentRunHub.run_sound (hsound hub hafter) hlater).2
  · intro before runId hub hafter hlast
    rcases hlast with rfl | rfl
    · rw [hubAfter, Machine.run_append_singleton, Option.bind_eq_some_iff] at hafter
      obtain ⟨prior, _, hstep⟩ := hafter
      exact AgentRunHub.step_gives_up (.inl hstep)
    · rw [hubAfter, Machine.run_append_singleton, Option.bind_eq_some_iff] at hafter
      obtain ⟨prior, _, hstep⟩ := hafter
      exact AgentRunHub.step_gives_up (.inr hstep)
  · intro hub hafter subscription hmem
    obtain ⟨entry, hentry, hfollows⟩ := (hsound hub hafter).follows subscription hmem
    exact ⟨entry, hentry, hfollows.delivers ((hsound hub hafter).entries _ _ hentry)⟩
  · intro hub hafter index subscription entry hget hentry hterminal
    obtain ⟨rest, later, closed, hreads, hrun, hclosed⟩ :=
      (hsound hub hafter).drains hget hentry hterminal
    exact ⟨rest, later, closed, hreads, by rw [happend hub rest hafter, hrun], hclosed⟩

/-- A run whose first transition was stored and not published yet. -/
def storedTransition : List HubAction :=
  [ .startRun "run",
    .registerStarted
      { runId := "run", sessionId := "session", status := .running, lastSequence := some 1
        updatedAtMs := "0", usage := { inputTokens := "0", outputTokens := "0", totalTokens := "0" }
        pendingPermission := none, messageId := none, error := none },
    .beginTransition "run",
    .commit "run" ]

/-- The cached number of an available entry may lag behind the stored one. -/
theorem storedTransition_ahead :
    ¬ ∀ (capacities : HubCapacities) (actions : List HubAction) (hub : AgentRunHub)
      (runId : String) (entry : AgentRunEntry), hubAfter capacities actions = some hub →
      hub.runs runId = some entry → entry.unavailable = false →
      hub.durable runId = some entry.sequence := by
  intro hcached
  have hahead := hcached ⟨1, 1, Nat.one_pos, Nat.one_pos⟩ storedTransition _ "run" _ rfl rfl rfl
  revert hahead
  decide

end Chat2DB.Agent
