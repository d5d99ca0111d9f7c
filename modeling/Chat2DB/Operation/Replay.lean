import Chat2DB.Base.Retained
import Chat2DB.Operation.Journal

/-! # Replays are gap-free

A subscription returns a stretch of what was sent, without gaps, and ends with
the terminal event, provided that no call of `emit` fails after it has changed
the operation.
-/

namespace Chat2DB.Operation

open Chat2DB.Agent (u64Max)

namespace OperationSubscription

/-- The events among what was returned. -/
def events (subscription : OperationSubscription) : List OperationEventEnvelope :=
  subscription.returned.filterMap id

/-- The number of the last event that was returned. -/
def reached (subscription : OperationSubscription) : Nat :=
  subscription.first - 1 + subscription.events.length

/-- A failed subscription lost the event it needed next. -/
def Lost (subscription : OperationSubscription) : SubscriptionPhase → Prop
  | .failed error => ∃ oldest latest, error = .replayWindow subscription.reached oldest latest ∧
      subscription.reached + 1 < oldest
  | .polling | .receiving | .lagged => True

/-- The subscription stands at a place of what was sent. -/
structure Follows (status : OperationStatus) (sent : List OperationEventEnvelope)
    (subscription : OperationSubscription) : Prop where
  requested : ∀ cursor ∈ subscription.requested, subscription.first = cursor + 1
  first_pos : 0 < subscription.first
  bound : subscription.first ≤ sent.length + 1
  stretch : subscription.events ++ subscription.replay <+: sent.drop (subscription.first - 1)
  shape : ∃ ends, subscription.returned =
    subscription.events.map some ++ List.replicate ends none
  cursor : subscription.replay = [] → subscription.cursor = subscription.reached
  /-- What the channel still holds begins no later than where the replay ends. -/
  live : subscription.phase = .polling ∨ subscription.phase = .receiving →
    subscription.position ≤ subscription.reached + subscription.replay.length
  position : subscription.position ≤ sent.length
  waiting : subscription.phase = .receiving ∨ subscription.phase = .lagged →
    subscription.replay = []
  awake : subscription.phase = .receiving → status ≠ .running →
    subscription.reached < sent.length
  ended : none ∈ subscription.returned → subscription.phase = .polling ∧ status ≠ .running ∧
    subscription.reached = sent.length
  lost : subscription.Lost subscription.phase

variable {status later : OperationStatus} {sent more : List OperationEventEnvelope}
  {subscription next : OperationSubscription}

theorem Follows.reached_le (hfollows : subscription.Follows status sent) :
    subscription.reached + subscription.replay.length ≤ sent.length := by
  have hlength := hfollows.stretch.length_le
  have hpos := hfollows.first_pos
  have hbound := hfollows.bound
  rw [List.length_append, List.length_drop] at hlength
  unfold reached
  omega

theorem Follows.none_not_mem (hfollows : subscription.Follows status sent)
    (hreached : subscription.reached < sent.length) : none ∉ subscription.returned := by
  intro hmem
  have hended := (hfollows.ended hmem).2.2
  omega

theorem events_yield (subscription : OperationSubscription) (event : OperationEventEnvelope) :
    (subscription.yield event).events = subscription.events ++ [event] := by
  simp [events, yield]

theorem reached_yield (subscription : OperationSubscription) (event : OperationEventEnvelope) :
    (subscription.yield event).reached = subscription.reached + 1 := by
  simp only [reached, events_yield, List.length_append, List.length_singleton]
  simp only [yield]
  omega

/-- The log grew, and the operation may have ended with what was added. -/
theorem Follows.grows (hfollows : subscription.Follows .running sent) (hmore : more ≠ [] ∨
    later = .running) : subscription.Follows later (sent ++ more) where
  requested := hfollows.requested
  first_pos := hfollows.first_pos
  bound := by
    have hbound := hfollows.bound
    rw [List.length_append]
    omega
  stretch := by
    have hbound := hfollows.bound
    rw [List.drop_append_of_le_length (by omega)]
    exact hfollows.stretch.trans (List.prefix_append _ _)
  shape := hfollows.shape
  cursor := hfollows.cursor
  live := hfollows.live
  position := by
    have hposition := hfollows.position
    rw [List.length_append]
    omega
  waiting := hfollows.waiting
  awake := by
    intro _ hended
    have hreached := hfollows.reached_le
    have hlength := List.length_pos_of_ne_nil (hmore.resolve_right hended)
    rw [List.length_append]
    omega
  ended := fun hmem => absurd rfl (hfollows.ended hmem).2.1
  lost := hfollows.lost

/-- The next event is returned, from the replay or from the channel. -/
theorem Follows.yield (hfollows : subscription.Follows status sent)
    {event : OperationEventEnvelope} (rest : List OperationEventEnvelope) (position : Nat)
    (hnumber : event.sequence = subscription.reached + 1)
    (hstretch : subscription.events ++ event :: rest <+: sent.drop (subscription.first - 1))
    (hlive : position ≤ subscription.reached + 1 + rest.length) (hposition : position ≤ sent.length) :
    Follows status sent ({ subscription with replay := rest, position }.yield event) := by
  have hreached : subscription.reached < sent.length := by
    have hlength := hstretch.length_le
    have hpos := hfollows.first_pos
    have hbound := hfollows.bound
    rw [List.length_append, List.length_drop, List.length_cons] at hlength
    unfold reached
    omega
  have hnone := hfollows.none_not_mem hreached
  obtain ⟨ends, hshape⟩ := hfollows.shape
  have hends : ends = 0 := by
    by_contra hpositive
    apply hnone
    rw [hshape]
    simp [hpositive]
  have hlater : ({ subscription with replay := rest, position }.yield event).reached =
      subscription.reached + 1 := reached_yield _ event
  refine
    { requested := hfollows.requested
      first_pos := hfollows.first_pos
      bound := hfollows.bound
      stretch := ?_
      shape := ⟨0, ?_⟩
      cursor := fun _ => ?_
      live := fun _ => ?_
      position := hposition
      waiting := ?_
      awake := ?_
      ended := fun hmem => ?_
      lost := trivial }
  · rw [events_yield, List.append_assoc]
    exact hstretch
  · rw [events_yield]
    simp only [OperationSubscription.yield, events]
    conv_lhs => rw [hshape, hends]
    simp [events]
  · rw [hlater]
    exact hnumber
  · rw [hlater]
    exact hlive
  · rintro (h | h) <;> cases h
  · intro h
    cases h
  · have hold : none ∈ subscription.returned := by
      simpa [OperationSubscription.yield] using hmem
    exact absurd hold hnone

theorem Follows.withPhase (hfollows : subscription.Follows status sent)
    {phase : SubscriptionPhase} (hnone : none ∉ subscription.returned)
    (hlive : phase = .polling ∨ phase = .receiving →
      subscription.position ≤ subscription.reached + subscription.replay.length)
    (hwaiting : phase = .receiving ∨ phase = .lagged → subscription.replay = [])
    (hawake : phase = .receiving → status ≠ .running → subscription.reached < sent.length)
    (hlost : subscription.Lost phase) : Follows status sent { subscription with phase } :=
  { hfollows with
    live := hlive
    waiting := hwaiting
    awake := hawake
    ended := fun hmem => absurd hmem hnone
    lost := by cases phase <;> exact hlost }

variable {capacity skipped : Nat} {state : OperationState}

theorem number_of_stretch (hretained : Retained capacity OperationEventEnvelope.sequence sent
      state.journal) {event : OperationEventEnvelope} {rest : List OperationEventEnvelope}
    (hstretch : subscription.events ++ event :: rest <+: sent.drop (subscription.first - 1)) :
    event.sequence = subscription.reached + 1 := by
  have hget : sent[subscription.reached]? = some event := by
    obtain ⟨tail, htail⟩ := hstretch
    rw [reached, ← List.getElem?_drop, ← htail]
    simp
  exact hretained.number_eq hget

/-- A poll yields the next event of its replay, or goes on to the live events. -/
theorem Follows.poll (hretained : Retained capacity OperationEventEnvelope.sequence sent
      state.journal) (hlength : sent.length = state.sequence)
    (hfollows : subscription.Follows state.status sent)
    (hpoll : subscription.poll state = some next) : next.Follows state.status sent := by
  have hreached := hfollows.reached_le
  have hposition := hfollows.position
  unfold OperationSubscription.poll at hpoll
  split at hpoll
  · cases hpoll
  · rename_i hphase
    rw [not_not] at hphase
    have hlive := hfollows.live (.inl hphase)
    split at hpoll
    · rename_i event rest hreplay
      cases hpoll
      have hstretch := hfollows.stretch
      rw [hreplay] at hstretch hlive
      rw [List.length_cons] at hlive
      exact hfollows.yield rest subscription.position (number_of_stretch hretained hstretch) hstretch
        (by omega) hposition
    · rename_i hreplay
      have hcursor := hfollows.cursor hreplay
      rw [hreplay, List.length_nil, Nat.add_zero] at hreached hlive
      split at hpoll
      · rename_i hended
        cases hpoll
        obtain ⟨hstatus, hbound⟩ := hended
        rw [hcursor, ge_iff_le, ← hlength] at hbound
        have hsame : ({ subscription with returned := subscription.returned ++ [none] } :
            OperationSubscription).events = subscription.events := by simp [events]
        obtain ⟨ends, hshape⟩ := hfollows.shape
        refine
          { requested := hfollows.requested
            first_pos := hfollows.first_pos
            bound := hfollows.bound
            stretch := by rw [hsame]; exact hfollows.stretch
            shape := ⟨ends + 1, ?_⟩
            cursor := fun _ => by rw [reached, hsame]; exact hcursor
            live := fun _ => by
              rw [reached, hsame, hreplay]
              exact hlive
            position := hposition
            waiting := fun _ => hreplay
            awake := fun h => by simp [hphase] at h
            ended := fun _ => ⟨hphase, hstatus, ?_⟩
            lost := by simp [hphase, Lost] }
        · rw [hsame, List.replicate_succ', ← List.append_assoc, ← hshape]
        · rw [reached, hsame]
          exact Nat.le_antisymm hreached hbound
      · rename_i hopen
        cases hpoll
        -- the operation is not ended, or an event is still to come
        have hnone : none ∉ subscription.returned := by
          intro hmem
          obtain ⟨_, hstatus, hall⟩ := hfollows.ended hmem
          exact hopen ⟨hstatus, by omega⟩
        refine hfollows.withPhase hnone ?_ (fun _ => hreplay) ?_ trivial
        · intro _
          rw [hreplay]
          exact hlive
        · intro _ hstatus
          have hbefore : ¬ subscription.cursor ≥ state.sequence := fun h => hopen ⟨hstatus, h⟩
          omega

/-- What is received live follows what was yielded, unless the subscriber lags. -/
theorem Follows.receive (hretained : Retained capacity OperationEventEnvelope.sequence sent
      state.journal) (hfollows : subscription.Follows status sent)
    (hreceive : subscription.receive sent skipped = some next) : next.Follows status sent := by
  unfold OperationSubscription.receive at hreceive
  split at hreceive
  · cases hreceive
  · rename_i hphase
    rw [not_not] at hphase
    have hreplay := hfollows.waiting (.inl hphase)
    have hcursor := hfollows.cursor hreplay
    have hlive := hfollows.live (.inr hphase)
    rw [hreplay, List.length_nil, Nat.add_zero] at hlive
    have hnone : none ∉ subscription.returned := by
      intro hmem
      have hpolling := (hfollows.ended hmem).1
      rw [hphase] at hpolling
      cases hpolling
    split at hreceive
    · simp only [Option.bind_eq_bind, Option.bind_eq_some_iff] at hreceive
      obtain ⟨event, hget, hreceive⟩ := hreceive
      have hindex := (List.getElem?_eq_some_iff.mp hget).1
      have hnumber := hretained.number_eq hget
      split at hreceive
      · -- an event that the replay already returned
        rename_i hold
        cases hreceive
        have hmoved : Follows status sent
            { subscription with position := subscription.position + 1 } :=
          { hfollows with
            live := fun _ => by
              simp only [hreplay, List.length_nil, Nat.add_zero]
              simp only [reached, events] at hcursor hlive ⊢
              omega
            position := hindex }
        refine hmoved.withPhase hnone ?_ ?_ ?_ trivial
        · intro _
          exact hmoved.live (.inr hphase)
        · rintro (h | h) <;> cases h
        · intro h
          cases h
      -- a new event stands right behind what was returned
      · rename_i hnew
        cases hreceive
        have hplace : subscription.position = subscription.reached := by omega
        have hstretch : subscription.events ++ [event] <+: sent.drop (subscription.first - 1) := by
          have hstretch := hfollows.stretch
          rw [hreplay, List.append_nil] at hstretch
          obtain ⟨tail, htail⟩ := hstretch
          rw [hplace, reached, ← List.getElem?_drop, ← htail] at hget
          simp only [List.getElem?_append_right (Nat.le_refl _), Nat.sub_self] at hget
          cases tail with
          | nil => simp at hget
          | cons head tail =>
            obtain rfl : head = event := by simpa using hget
            exact ⟨tail, by rw [← htail]; simp⟩
        have hyield := hfollows.yield [] (subscription.position + 1) (by omega) hstretch
          (by simp [hplace]) hindex
        rw [← hreplay] at hyield
        exact hyield
    · split at hreceive
      · rename_i hskip
        cases hreceive
        refine
          { hfollows with
            live := by rintro (h | h) <;> cases h
            position := hskip
            waiting := fun _ => hreplay
            awake := fun h => by cases h
            ended := fun hmem => absurd hmem hnone
            lost := trivial }
      · cases hreceive

end OperationSubscription

section Journal

variable {capacity cursor : Nat} {state : OperationState} {sent : List OperationEventEnvelope}

/-- The journal begins behind what its capacity has pushed out. -/
theorem oldest_eq (hcapacity : 0 < capacity)
    (hretained : Retained capacity OperationEventEnvelope.sequence sent state.journal)
    (hlength : sent.length = state.sequence) :
    state.oldest = if sent.length = 0 then 0 else sent.length - capacity + 1 := by
  unfold OperationState.oldest
  split
  · rename_i hempty
    have hnil : sent = [] := List.length_eq_zero_iff.mp hempty
    rw [hretained.kept_eq, hnil, ← hlength, hnil]
    simp
  · rename_i hsome
    rw [hretained.oldest hcapacity (Nat.pos_of_ne_zero hsome), Option.getD_some]

/-- A replay is what the journal holds behind the cursor. -/
theorem replayAfter_eq
    (hretained : Retained capacity OperationEventEnvelope.sequence sent state.journal)
    (cursor : Nat) : replayAfter state cursor = sent.drop (max (sent.length - capacity) cursor) :=
  hretained.filter_gt cursor

/-- An accepted cursor is within what the journal still holds. -/
theorem validateReplayCursor_ok (hcapacity : 0 < capacity)
    (hretained : Retained capacity OperationEventEnvelope.sequence sent state.journal)
    (hlength : sent.length = state.sequence)
    (hvalid : validateReplayCursor state (some cursor) = .ok ()) :
    cursor ≤ sent.length ∧ sent.length - capacity ≤ cursor := by
  have holdest := oldest_eq hcapacity hretained hlength
  simp only [validateReplayCursor, ← hlength] at hvalid
  split at hvalid
  · cases hvalid
  · split at hvalid
    · cases hvalid
    · rename_i hbefore hold
      refine ⟨by omega, ?_⟩
      by_cases hempty : sent.length = 0
      · omega
      · rw [if_neg hempty] at holdest
        omega

/-- A cursor that is refused is behind the journal. -/
theorem validateReplayCursor_error (hcapacity : 0 < capacity)
    (hretained : Retained capacity OperationEventEnvelope.sequence sent state.journal)
    (hlength : sent.length = state.sequence) (hbounded : state.sequence ≤ u64Max)
    {error : SubscriptionError} (hcursor : cursor ≤ sent.length)
    (hinvalid : validateReplayCursor state (some cursor) = .error error) :
    ∃ oldest latest, error = .replayWindow cursor oldest latest ∧ cursor + 1 < oldest := by
  have holdest := oldest_eq hcapacity hretained hlength
  simp only [validateReplayCursor, ← hlength] at hinvalid
  split at hinvalid
  · omega
  · split at hinvalid
    · rename_i hold
      cases hinvalid
      refine ⟨_, _, rfl, ?_⟩
      by_cases hempty : sent.length = 0
      · rw [if_pos hempty] at holdest
        omega
      · rw [if_neg hempty] at holdest
        omega
    · cases hinvalid

end Journal

namespace OperationEntry

variable {capacity : Nat} {entry next : OperationEntry}

/-- What was sent is numbered from one, the journal keeps the last of it, and the
operation is ended exactly by a terminal event, which is the last one. -/
structure Sound (capacity : Nat) (entry : OperationEntry) : Prop where
  retained : Retained capacity OperationEventEnvelope.sequence entry.sent entry.state.journal
  length : entry.sent.length = entry.state.sequence
  bounded : entry.state.sequence ≤ u64Max
  running : ∀ event ∈ entry.sent.dropLast, event.event.isTerminal = false
  last : entry.state.status ≠ .running ↔
    ∃ event, entry.sent.getLast? = some event ∧ event.event.isTerminal = true
  follows : ∀ subscription, entry.subscription = some subscription →
    subscription.Follows entry.state.status entry.sent

theorem sound_create (capacity : Nat) (timestamp : Int) :
    (OperationEntry.create timestamp).Sound capacity where
  retained := .nil
  length := rfl
  bounded := Nat.zero_le _
  running := by simp [create]
  last := by simp [create, OperationState.create]
  follows := by simp [create]

theorem Sound.withSubscription (hsound : entry.Sound capacity)
    {subscription : OperationSubscription}
    (hfollows : subscription.Follows entry.state.status entry.sent) :
    Sound capacity { entry with subscription := some subscription } :=
  { hsound with
    follows := by
      intro other hother
      obtain rfl := Option.some.inj hother
      exact hfollows }

/-- A subscription takes its place with its entry still sound. -/
theorem Sound.subscribe (hcapacity : 0 < capacity) (hsound : entry.Sound capacity)
    {afterSequence : Option Nat} (hsubscribe : entry.subscribe afterSequence = some next) :
    next.Sound capacity := by
  have holdest := oldest_eq hcapacity hsound.retained hsound.length
  have hreplay := replayAfter_eq hsound.retained
  unfold OperationEntry.subscribe at hsubscribe
  split at hsubscribe
  · rename_i hvalid
    cases hsubscribe
    apply hsound.withSubscription
    cases afterSequence with
    | none =>
      have hfirst : max entry.state.oldest 1 = entry.sent.length - capacity + 1 := by
        rw [holdest]
        split <;> omega
      constructor
      · rintro cursor ⟨⟩
      all_goals
        simp [OperationSubscription.reached, OperationSubscription.events, hfirst, hreplay,
          OperationSubscription.Lost]
      all_goals omega
    | some cursor =>
      obtain ⟨hle, hold⟩ :=
        validateReplayCursor_ok hcapacity hsound.retained hsound.length hvalid
      constructor
      · rintro cursor ⟨⟩
        rfl
      all_goals
        simp [OperationSubscription.reached, OperationSubscription.events, hreplay,
          OperationSubscription.Lost, hold, hle]
  · cases hsubscribe

/-- After a lag the replay begins where the subscription has got to. -/
theorem Sound.refill (hcapacity : 0 < capacity) (hsound : entry.Sound capacity)
    {subscription moved : OperationSubscription}
    (hfollows : subscription.Follows entry.state.status entry.sent)
    (hrefill : subscription.refill entry.state = some moved) :
    moved.Follows entry.state.status entry.sent := by
  unfold OperationSubscription.refill at hrefill
  split at hrefill
  · cases hrefill
  · rename_i hphase
    rw [not_not] at hphase
    have hreplay := hfollows.waiting (.inr hphase)
    have hcursor := hfollows.cursor hreplay
    have hreached := hfollows.reached_le
    rw [hreplay, List.length_nil, Nat.add_zero] at hreached
    have hnone : none ∉ subscription.returned := by
      intro hmem
      have hpolling := (hfollows.ended hmem).1
      rw [hphase] at hpolling
      cases hpolling
    split at hrefill
    · rename_i hvalid
      cases hrefill
      obtain ⟨_, hold⟩ := validateReplayCursor_ok hcapacity hsound.retained hsound.length hvalid
      -- from the cursor on, the journal holds everything that was sent
      have hjournal : replayAfter entry.state subscription.cursor =
          entry.sent.drop subscription.reached := by
        rw [replayAfter_eq hsound.retained, hcursor]
        rw [hcursor] at hold
        congr 1
        omega
      have hposition := hfollows.position
      have hstretch := hfollows.stretch
      rw [hreplay, List.append_nil, List.prefix_iff_eq_append, List.drop_drop] at hstretch
      refine
        { hfollows with
          stretch := ?_
          cursor := fun _ => hcursor
          live := fun _ => ?_
          waiting := ?_
          awake := fun h => by cases h
          ended := fun hmem => absurd hmem hnone
          lost := trivial }
      · rw [hjournal]
        exact hstretch ▸ List.prefix_refl _
      · rw [hjournal, List.length_drop]
        simp only [OperationSubscription.reached, OperationSubscription.events] at hreached ⊢
        omega
      · rintro (h | h) <;> cases h
    · rename_i error hinvalid
      cases hrefill
      refine hfollows.withPhase hnone ?_ ?_ ?_ ?_
      · rintro (h | h) <;> cases h
      · rintro (h | h) <;> cases h
      · intro h
        cases h
      · rw [hcursor] at hinvalid
        exact validateReplayCursor_error hcapacity hsound.retained hsound.length hsound.bounded
          hreached hinvalid

/-- No fallible part of `emit` fails after the operation has changed: the counts of
a completion parse, a terminal event finds a number, and the clock can be read for
an event that is accepted and has a number. -/
def EmitsWhole (entry : OperationEntry) (event : OperationEvent) (clock : Option Int) : Prop :=
  entry.state.status = .running →
    (∀ result, event = .completed result →
      (parseContractU64 result.rowCount).isSome ∧ (parseContractU64 result.byteCount).isSome) ∧
    (event.isTerminal = true → entry.state.sequence < u64Max) ∧
    ((∀ rowCount byteCount, event = .progress rowCount byteCount →
        entry.state.rowCount ≤ rowCount ∧ entry.state.byteCount ≤ byteCount) →
      entry.state.sequence < u64Max → clock.isSome)

instance (entry : OperationEntry) (event : OperationEvent) (clock : Option Int) :
    Decidable (entry.EmitsWhole event clock) :=
  match event with
  | .started =>
    decidable_of_iff (entry.state.status = .running → entry.state.sequence < u64Max →
      clock.isSome = true) (by simp [EmitsWhole, OperationEvent.isTerminal])
  | .progress rowCount byteCount =>
    decidable_of_iff (entry.state.status = .running →
      entry.state.rowCount ≤ rowCount ∧ entry.state.byteCount ≤ byteCount →
      entry.state.sequence < u64Max → clock.isSome = true)
      (by simp [EmitsWhole, OperationEvent.isTerminal])
  | .completed result =>
    decidable_of_iff (entry.state.status = .running →
      ((parseContractU64 result.rowCount).isSome = true ∧
        (parseContractU64 result.byteCount).isSome = true) ∧
      entry.state.sequence < u64Max ∧ (entry.state.sequence < u64Max → clock.isSome = true))
      (by simp [EmitsWhole, OperationEvent.isTerminal])
  | .failed _ | .cancelled _ =>
    decidable_of_iff (entry.state.status = .running →
      entry.state.sequence < u64Max ∧ (entry.state.sequence < u64Max → clock.isSome = true))
      (by simp [EmitsWhole, OperationEvent.isTerminal])

/-- What applying an event does to an operation that runs. -/
structure AppliesTo (state : OperationState) (event : OperationEvent) (applied : Applied) :
    Prop where
  journal : applied.state.journal = state.journal
  sequence : applied.state.sequence = state.sequence
  accepted : applied.succeeded = true →
    (applied.state.status ≠ .running ↔ event.isTerminal = true) ∧
    ∀ rowCount byteCount, event = .progress rowCount byteCount →
      state.rowCount ≤ rowCount ∧ state.byteCount ≤ byteCount
  refused : applied.succeeded = false → applied.state.status = .running

theorem applyEvent_appliesTo {state : OperationState} {event : OperationEvent}
    (hrunning : state.status = .running)
    (hparses : ∀ result, event = .completed result →
      (parseContractU64 result.rowCount).isSome ∧ (parseContractU64 result.byteCount).isSome) :
    AppliesTo state event (state.applyEvent event) := by
  cases event with
  | started =>
    refine ⟨rfl, rfl, fun _ => ⟨?_, by simp⟩, by simp [OperationState.applyEvent]⟩
    simp [OperationState.applyEvent, OperationEvent.isTerminal, hrunning]
  | progress rowCount byteCount =>
    by_cases hbehind : rowCount < state.rowCount ∨ byteCount < state.byteCount
    · refine ⟨?_, ?_, ?_, ?_⟩ <;> simp [OperationState.applyEvent, hbehind, hrunning]
    · refine ⟨?_, ?_, ?_, ?_⟩ <;>
        simp [OperationState.applyEvent, hbehind, hrunning, OperationEvent.isTerminal]
      omega
  | completed result =>
    obtain ⟨hrows, hbytes⟩ := hparses result rfl
    obtain ⟨rowCount, hrowCount⟩ := Option.isSome_iff_exists.mp hrows
    obtain ⟨byteCount, hbyteCount⟩ := Option.isSome_iff_exists.mp hbytes
    refine ⟨?_, ?_, ?_, ?_⟩ <;>
      simp [OperationState.applyEvent, hrowCount, hbyteCount, OperationEvent.isTerminal]
  | failed | cancelled =>
    refine ⟨rfl, rfl, fun _ => ⟨?_, by simp⟩, by simp [OperationState.applyEvent]⟩
    simp [OperationState.applyEvent, OperationEvent.isTerminal]

theorem Sound.quiet (hsound : entry.Sound capacity) (hrunning : entry.state.status = .running)
    {state : OperationState} (hjournal : state.journal = entry.state.journal)
    (hsequence : state.sequence = entry.state.sequence) (hstatus : state.status = .running) :
    Sound capacity { entry with state } where
  retained := by
    simp only [hjournal]
    exact hsound.retained
  length := hsound.length.trans hsequence.symm
  bounded := hsequence ▸ hsound.bounded
  running := hsound.running
  last := by
    have hlast := hsound.last
    rw [hrunning] at hlast
    rw [hstatus]
    exact hlast
  follows := by
    intro subscription hsubscription
    have hfollows := hsound.follows subscription hsubscription
    rw [hrunning] at hfollows
    rw [hstatus]
    exact hfollows

/-- The operation sends an event with the next number. -/
theorem Sound.send (hcapacity : 0 < capacity) (hsound : entry.Sound capacity)
    (hrunning : entry.state.status = .running) {state : OperationState}
    {envelope : OperationEventEnvelope} (hroom : entry.state.sequence < u64Max)
    (hnumber : envelope.sequence = entry.state.sequence + 1)
    (hsequence : state.sequence = entry.state.sequence + 1)
    (hjournal : state.journal = (if entry.state.journal.length = capacity
      then entry.state.journal.tail else entry.state.journal) ++ [envelope])
    (hstatus : state.status ≠ .running ↔ envelope.event.isTerminal = true) :
    Sound capacity { entry with state, sent := entry.sent ++ [envelope] } where
  retained := by
    simp only [hjournal]
    refine hsound.retained.push hcapacity envelope ?_
    rw [hnumber, hsound.length]
  length := by
    rw [List.length_append, hsound.length, hsequence, List.length_singleton]
  bounded := by
    simp only [hsequence]
    omega
  running := by
    -- the event that was last did not end the operation
    intro other hother
    rw [List.dropLast_concat] at hother
    rcases List.eq_nil_or_concat entry.sent with hnil | ⟨front, final, hsent⟩
    · rw [hnil] at hother
      cases hother
    · have hfront := hsound.running
      rw [hsent, List.concat_eq_append, List.dropLast_concat] at hfront
      rw [hsent, List.concat_eq_append, List.mem_append, List.mem_singleton] at hother
      rcases hother with hmem | rfl
      · exact hfront other hmem
      · by_contra hterminal
        refine absurd hrunning (hsound.last.mpr ⟨other, by rw [hsent]; simp, ?_⟩)
        simpa using hterminal
  last := by
    rw [hstatus]
    simp
  follows := by
    intro subscription hsubscription
    have hfollows := hsound.follows subscription hsubscription
    rw [hrunning] at hfollows
    exact hfollows.grows (.inl (by simp))

/-- An event that is emitted whole keeps journal, queue and subscription in step. -/
theorem Sound.emit (hcapacity : 0 < capacity) (hsound : entry.Sound capacity)
    {event : OperationEvent} {clock : Option Int} (hwhole : entry.EmitsWhole event clock) :
    (entry.emit capacity event clock).Sound capacity := by
  unfold OperationEntry.emit
  split
  · exact hsound
  · rename_i hstatus
    rw [not_not] at hstatus
    obtain ⟨hparses, hroom, hclock⟩ := hwhole hstatus
    have happlies := applyEvent_appliesTo hstatus hparses
    simp only [happlies.sequence, happlies.journal]
    split
    · rename_i hrefused
      exact hsound.quiet hstatus happlies.journal happlies.sequence
        (happlies.refused (by simpa using hrefused))
    · rename_i haccepted
      obtain ⟨hends, hahead⟩ := happlies.accepted (by simpa using haccepted)
      split
      · -- without a number left only an event that does not end the operation is lost
        rename_i hfull
        refine hsound.quiet hstatus happlies.journal happlies.sequence ?_
        by_contra hended
        have := hroom (hends.mp hended)
        omega
      · rename_i hnumber
        obtain ⟨updatedAtMs, rfl⟩ :=
          Option.isSome_iff_exists.mp (hclock hahead (Nat.lt_of_not_le hnumber))
        exact hsound.send hcapacity hstatus (Nat.lt_of_not_le hnumber) rfl rfl rfl hends

/-- Every emission is whole; the steps of the subscription are not restricted. -/
def Whole (entry : OperationEntry) : OperationAction → Prop
  | .emit event clock => entry.EmitsWhole event clock
  | .subscribe _ | .poll | .receive _ | .refill => True

instance (entry : OperationEntry) (action : OperationAction) : Decidable (entry.Whole action) :=
  match action with
  | .emit event clock => inferInstanceAs (Decidable (entry.EmitsWhole event clock))
  | .subscribe _ | .poll | .receive _ | .refill => .isTrue trivial

/-- The invariant of an entry, one case for each action. -/
theorem Sound.step (hcapacity : 0 < capacity) (hsound : entry.Sound capacity)
    {action : OperationAction} (hwhole : entry.Whole action)
    (hstep : entry.step capacity action = some next) : next.Sound capacity := by
  cases action with
  | emit event clock =>
    cases hstep
    exact hsound.emit hcapacity hwhole
  | subscribe afterSequence => exact hsound.subscribe hcapacity hstep
  | poll =>
    simp only [OperationEntry.step, Option.bind_eq_bind, Option.bind_eq_some_iff] at hstep
    obtain ⟨subscription, hsubscription, moved, hpoll, hnext⟩ := hstep
    cases hnext
    exact hsound.withSubscription
      ((hsound.follows subscription hsubscription).poll hsound.retained hsound.length hpoll)
  | receive skipped =>
    simp only [OperationEntry.step, Option.bind_eq_bind, Option.bind_eq_some_iff] at hstep
    obtain ⟨subscription, hsubscription, moved, hreceive, hnext⟩ := hstep
    cases hnext
    exact hsound.withSubscription
      ((hsound.follows subscription hsubscription).receive hsound.retained hreceive)
  | refill =>
    simp only [OperationEntry.step, Option.bind_eq_bind, Option.bind_eq_some_iff] at hstep
    obtain ⟨subscription, hsubscription, moved, hrefill, hnext⟩ := hstep
    cases hnext
    exact hsound.withSubscription
      (hsound.refill hcapacity (hsound.follows subscription hsubscription) hrefill)

theorem sound_entryAfter (hcapacity : 0 < capacity) {timestamp : Int}
    {actions : List OperationAction} (hrun : entryAfter capacity timestamp actions = some entry)
    (hwhole : Machine.Along Whole (step capacity) (.create timestamp) actions) :
    entry.Sound capacity :=
  Machine.run_invariant_along (sound_create capacity timestamp)
    (fun _ _ _ hsound hallowed hstep => hsound.step hcapacity hallowed hstep) hrun hwhole

end OperationEntry

/-! ## Progress -/

namespace OperationSubscription

/-- It returned `None`, or failed. -/
def isClosed (subscription : OperationSubscription) : Bool :=
  match subscription.phase with
  | .failed _ => true
  | .polling | .receiving | .lagged => subscription.returned.contains none

/-- The work left on what was sent: events to return, places of the channel to
read, and the way from phase to phase. -/
def remaining (sent : List OperationEventEnvelope) (subscription : OperationSubscription) : Nat :=
  3 * (sent.length - subscription.reached) + 3 * (sent.length - subscription.position) +
    match subscription.phase with
    | .lagged => 3
    | .polling => 2
    | .receiving => 1
    | .failed _ => 0

end OperationSubscription

/-- A step of the subscription, as opposed to one of the operation. -/
def OperationAction.isRead : OperationAction → Bool
  | .poll | .receive _ | .refill => true
  | .emit _ _ | .subscribe _ => false

namespace OperationEntry

variable {capacity : Nat} {entry next : OperationEntry} {subscription : OperationSubscription}

/-- What one step of the subscription leaves, on an operation that ended. -/
structure Advances (entry : OperationEntry) (subscription : OperationSubscription)
    (next : OperationEntry) : Prop where
  state : next.state = entry.state
  sent : next.sent = entry.sent
  less : ∃ moved, next.subscription = some moved ∧
    (moved.isClosed = true ∨ moved.remaining entry.sent < subscription.remaining entry.sent)

/-- A poll is never stuck. -/
theorem Sound.poll_advances (hsound : entry.Sound capacity)
    (hsubscription : entry.subscription = some subscription)
    (hphase : subscription.phase = .polling) :
    ∃ next, entry.step capacity .poll = some next ∧ entry.Advances subscription next := by
  have hreached := (hsound.follows subscription hsubscription).reached_le
  simp only [OperationEntry.step, hsubscription, Option.bind_eq_bind, Option.bind_some,
    OperationSubscription.poll, hphase, ne_eq, not_true_eq_false, if_false]
  split
  · rename_i event rest hreplay
    refine ⟨_, rfl, rfl, rfl, _, rfl, .inr ?_⟩
    rw [hreplay, List.length_cons] at hreached
    simp only [OperationSubscription.remaining, hphase, OperationSubscription.reached_yield]
    simp only [OperationSubscription.yield, OperationSubscription.reached,
      OperationSubscription.events] at hreached ⊢
    omega
  · split
    · refine ⟨_, rfl, rfl, rfl, _, rfl, .inl ?_⟩
      simp [OperationSubscription.isClosed]
    · refine ⟨_, rfl, rfl, rfl, _, rfl, .inr ?_⟩
      simp only [OperationSubscription.remaining, hphase, OperationSubscription.reached,
        OperationSubscription.events]
      omega

theorem Sound.position_lt (hsound : entry.Sound capacity)
    (hsubscription : entry.subscription = some subscription)
    (hphase : subscription.phase = .receiving) (hended : entry.state.status ≠ .running) :
    subscription.position < entry.sent.length := by
  have hfollows := hsound.follows subscription hsubscription
  have hreached := hfollows.awake hphase hended
  have hlive := hfollows.live (.inr hphase)
  rw [hfollows.waiting (.inl hphase), List.length_nil, Nat.add_zero] at hlive
  omega

/-- Once the operation has ended, what is left in the queue is received. -/
theorem Sound.receive_advances (hsound : entry.Sound capacity)
    (hsubscription : entry.subscription = some subscription)
    (hphase : subscription.phase = .receiving) (hended : entry.state.status ≠ .running) :
    ∃ next, entry.step capacity (.receive 0) = some next ∧ entry.Advances subscription next := by
  have hposition := hsound.position_lt hsubscription hphase hended
  have hreached := (hsound.follows subscription hsubscription).awake hphase hended
  simp only [OperationEntry.step, hsubscription, Option.bind_eq_bind, Option.bind_some,
    OperationSubscription.receive, hphase, ne_eq, not_true_eq_false, if_false, if_true,
    List.getElem?_eq_getElem hposition]
  split
  · refine ⟨_, rfl, rfl, rfl, _, rfl, .inr ?_⟩
    simp only [OperationSubscription.remaining, hphase, OperationSubscription.reached,
      OperationSubscription.events]
    omega
  · refine ⟨_, rfl, rfl, rfl, _, rfl, .inr ?_⟩
    simp only [OperationSubscription.remaining, hphase, OperationSubscription.reached_yield]
    simp only [OperationSubscription.yield, OperationSubscription.reached,
      OperationSubscription.events] at hreached ⊢
    omega

theorem refill_advances (hsubscription : entry.subscription = some subscription)
    (hphase : subscription.phase = .lagged) :
    ∃ next, entry.step capacity .refill = some next ∧ entry.Advances subscription next := by
  simp only [OperationEntry.step, hsubscription, Option.bind_eq_bind, Option.bind_some,
    OperationSubscription.refill, hphase, ne_eq, not_true_eq_false, if_false]
  split
  · refine ⟨_, rfl, rfl, rfl, _, rfl, .inr ?_⟩
    simp only [OperationSubscription.remaining, hphase, OperationSubscription.reached,
      OperationSubscription.events]
    omega
  · exact ⟨_, rfl, rfl, rfl, _, rfl, .inl rfl⟩

/-- A subscription to an operation that ended is closed after finitely many of its
own steps. -/
theorem Sound.drains (hcapacity : 0 < capacity) (hsound : entry.Sound capacity)
    (hended : entry.state.status ≠ .running) (hsubscription : entry.subscription = some subscription) :
    ∃ actions later closed, (∀ action ∈ actions, action.isRead = true) ∧
      Machine.run (OperationEntry.step capacity) entry actions = some later ∧
      later.subscription = some closed ∧ closed.isClosed = true := by
  induction hless : subscription.remaining entry.sent using Nat.strong_induction_on
    generalizing entry subscription with
  | _ remaining ih =>
    subst hless
    have hread : subscription.isClosed = true ∨ ∃ action next, action.isRead = true ∧
        entry.step capacity action = some next ∧ entry.Advances subscription next := by
      cases hphase : subscription.phase with
      | polling =>
        obtain ⟨next, hnext⟩ := hsound.poll_advances hsubscription hphase
        exact .inr ⟨.poll, next, rfl, hnext⟩
      | receiving =>
        obtain ⟨next, hnext⟩ := hsound.receive_advances hsubscription hphase hended
        exact .inr ⟨.receive 0, next, rfl, hnext⟩
      | lagged =>
        obtain ⟨next, hnext⟩ := refill_advances hsubscription hphase
        exact .inr ⟨.refill, next, rfl, hnext⟩
      | failed error =>
        refine .inl ?_
        simp [OperationSubscription.isClosed, hphase]
    rcases hread with hclosed | ⟨action, next, hread, hstep, hadvances⟩
    · exact ⟨[], entry, subscription, by simp, rfl, hsubscription, hclosed⟩
    · obtain ⟨moved, hmoved, hclosed | hless⟩ := hadvances.less
      · refine ⟨[action], next, moved, by simp [hread], ?_, hmoved, hclosed⟩
        rw [Machine.run_cons, hstep]
        rfl
      · have hwhole : entry.Whole action := by
          cases action <;> trivial
        obtain ⟨actions, later, closed, hall, hrun, hlater, hclosed⟩ :=
          ih (moved.remaining next.sent) (by rw [hadvances.sent]; exact hless)
            (hsound.step hcapacity hwhole hstep) (by rw [hadvances.state]; exact hended) hmoved rfl
        refine ⟨action :: actions, later, closed, ?_, ?_, hlater, hclosed⟩
        · simpa [hread] using hall
        · rw [Machine.run_cons, hstep]
          exact hrun

/-! ## What a subscription returns -/

/-- The events returned are a stretch of those sent, numbered without gap from the
one after the cursor; `None` follows only the terminal event, and a failure only
the loss of the next event. -/
structure GapFree (entry : OperationEntry) (subscription : OperationSubscription) : Prop where
  requested : ∀ cursor ∈ subscription.requested, subscription.first = cursor + 1
  events : subscription.events <+: entry.sent.drop (subscription.first - 1)
  numbers : Consecutive subscription.first
    (subscription.events.map OperationEventEnvelope.sequence)
  shape : ∃ ends, subscription.returned =
    subscription.events.map some ++ List.replicate ends none
  ended : none ∈ subscription.returned →
    subscription.events = entry.sent.drop (subscription.first - 1) ∧
      ∃ last, entry.sent.getLast? = some last ∧ last.event.isTerminal = true
  failed : ∀ error, subscription.phase = .failed error →
    ∃ oldest latest, error = .replayWindow subscription.reached oldest latest ∧
      subscription.reached + 1 < oldest
  /-- It waits only when it has returned everything and more is to come. -/
  waits : subscription.phase = .receiving → entry.sent[subscription.position]? = none →
    entry.state.status = .running ∧ subscription.reached = entry.sent.length

structure Replays (capacity : Nat) (entry : OperationEntry) : Prop where
  terminal : ∀ event ∈ entry.sent.dropLast, event.event.isTerminal = false
  ended : entry.state.status ≠ .running ↔
    ∃ event, entry.sent.getLast? = some event ∧ event.event.isTerminal = true
  gapFree : ∀ subscription, entry.subscription = some subscription → entry.GapFree subscription
  drains : entry.state.status ≠ .running → ∀ subscription,
    entry.subscription = some subscription → ∃ actions later closed,
      (∀ action ∈ actions, action.isRead = true) ∧
      Machine.run (step capacity) entry actions = some later ∧
      later.subscription = some closed ∧ closed.isClosed = true

/-- What a subscription has yielded is a stretch of what was sent. -/
theorem Sound.gapFree (hsound : entry.Sound capacity)
    (hsubscription : entry.subscription = some subscription) : entry.GapFree subscription := by
  have hfollows := hsound.follows subscription hsubscription
  have hstretch : subscription.events <+: entry.sent.drop (subscription.first - 1) :=
    (List.prefix_append _ _).trans hfollows.stretch
  refine
    { requested := hfollows.requested
      events := hstretch
      numbers := ?_
      shape := hfollows.shape
      ended := fun hmem => ?_
      failed := fun error hphase => ?_
      waits := fun hphase hnothing => ?_ }
  · have hnumbers := hsound.retained.numbered.drop (subscription.first - 1)
    have hfirst : 1 + (subscription.first - 1) = subscription.first := by
      have hpos := hfollows.first_pos
      omega
    rw [hfirst, ← List.map_drop] at hnumbers
    exact hnumbers.of_prefix (hstretch.map _)
  · obtain ⟨_, hended, hall⟩ := hfollows.ended hmem
    refine ⟨hstretch.eq_of_length ?_, hsound.last.mp hended⟩
    have hpos := hfollows.first_pos
    have hbound := hfollows.bound
    rw [List.length_drop]
    unfold OperationSubscription.reached at hall
    omega
  · have hlost := hfollows.lost
    rw [hphase] at hlost
    exact hlost
  · have hplace := List.getElem?_eq_none_iff.mp hnothing
    have hlive := hfollows.live (.inr hphase)
    have hreached := hfollows.reached_le
    rw [hfollows.waiting (.inl hphase), List.length_nil, Nat.add_zero] at hlive hreached
    refine ⟨?_, by omega⟩
    by_contra hended
    have hawake := hfollows.awake hphase hended
    omega

end OperationEntry

/-- In every state of a run whose emissions are whole, the subscription has replayed
without gap, and it is closed in the end if the operation is. -/
theorem entryAfter_replays {capacity : Nat} (hcapacity : 0 < capacity) {timestamp : Int}
    {actions : List OperationAction} {entry : OperationEntry}
    (hrun : entryAfter capacity timestamp actions = some entry)
    (hwhole : Machine.Along OperationEntry.Whole (OperationEntry.step capacity)
      (.create timestamp) actions) : entry.Replays capacity := by
  have hsound := OperationEntry.sound_entryAfter hcapacity hrun hwhole
  exact
    { terminal := hsound.running
      ended := hsound.last
      gapFree := fun _ hsubscription => hsound.gapFree hsubscription
      drains := fun hended _ hsubscription => hsound.drains hcapacity hended hsubscription }

/-- A run whose second event is emitted while the clock cannot be read. -/
def clocklessActions : List OperationAction :=
  [.emit .started (some 0), .emit (.progress 1 8) none, .emit (.progress 2 16) (some 1),
    .subscribe (some 0), .poll, .poll]

def clocklessSubscription : OperationSubscription where
  replay := []
  position := 2
  cursor := 3
  phase := .polling
  requested := some 0
  first := 1
  returned :=
    [some { sequence := 1, occurredAtMs := 0, event := .started },
      some { sequence := 3, occurredAtMs := 1, event := .progress 2 16 }]

/-- The subscription skips from the first to the third number. -/
theorem clockless_gap :
    ∃ entry, entryAfter 256 0 clocklessActions = some entry ∧
      entry.subscription = some clocklessSubscription ∧ ¬ entry.Replays 256 := by
  refine ⟨_, rfl, rfl, ?_⟩
  intro hreplays
  have hnumbers := (hreplays.gapFree clocklessSubscription rfl).numbers
  revert hnumbers
  unfold Consecutive
  decide

def followedActions : List OperationAction :=
  [.emit .started (some 0), .subscribe (some 0), .poll, .emit (.cancelled none) (some 1), .poll,
    .receive 0, .poll]

theorem followed_replays :
    ∃ entry, entryAfter 256 0 followedActions = some entry ∧ entry.Replays 256 := by
  have hwhole : Machine.Along OperationEntry.Whole (OperationEntry.step 256) (.create 0)
      followedActions := by decide
  obtain ⟨entry, hrun⟩ : ∃ entry, entryAfter 256 0 followedActions = some entry := ⟨_, rfl⟩
  exact ⟨entry, hrun, entryAfter_replays (by decide) hrun hwhole⟩

end Chat2DB.Operation
