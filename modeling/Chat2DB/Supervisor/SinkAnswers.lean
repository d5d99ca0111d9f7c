import Chat2DB.Supervisor.Accounting

/-! # Answers to the sinks of the pending table

The sink of a unary request takes one answer, and the channel of a stream takes
one item that ends it. A request that waits has not been answered, so whatever
takes it out of the table may answer it. This needs request ids that are used
once.
-/

namespace Chat2DB.Supervisor

variable {payload : Wire.Payload} {metadata : Wire.ResponseMeta} {action : PendingAction}
  {failure : PendingFailure} {answer : String × Except PendingFailure Wire.Payload}
  {actions : List PendingAction}

/-- Nothing that ends the stream was sent. -/
def Silent (channel : Channel StreamItem) : Prop := ∀ item ∈ channel.sent, ¬ Terminal item

/-- At most one item ends the stream, and nothing was sent after it. -/
def EndsOnce (channel : Channel StreamItem) : Prop :=
  ∀ item ∈ channel.sent.dropLast, ¬ Terminal item

theorem Silent.endsOnce {channel : Channel StreamItem} (hsilent : Silent channel) :
    EndsOnce channel :=
  fun item hitem => hsilent item (List.dropLast_subset _ hitem)

section Send

variable {channel next : Channel StreamItem} {item : StreamItem}

theorem Silent.send (hsilent : Silent channel) (hsend : channel.trySend item = .ok next) :
    EndsOnce next := by
  intro other hother
  rw [(Channel.trySend_ok hsend).1, List.dropLast_concat] at hother
  exact hsilent other hother

theorem Silent.speak (hsilent : Silent channel) (hitem : ¬ Terminal item)
    (hsend : channel.trySend item = .ok next) : Silent next := by
  intro other hother
  rw [(Channel.trySend_ok hsend).1] at hother
  rcases List.mem_append.mp hother with hother | hother
  · exact hsilent other hother
  · rw [List.mem_singleton.mp hother]
    exact hitem

theorem silent_congr (hsent : next.sent = channel.sent) : Silent next ↔ Silent channel := by
  unfold Silent
  rw [hsent]

theorem endsOnce_congr (hsent : next.sent = channel.sent) : EndsOnce next ↔ EndsOnce channel := by
  unfold EndsOnce
  rw [hsent]

theorem silent_new (capacity : Nat) : Silent (.new capacity) := by
  intro item hitem
  simp [Channel.new] at hitem

end Send

theorem not_terminal_of_convert {event : QueryEvent}
    (hconverted : StreamPending.convert payload = .ok event)
    (hpayload : ∀ completed, payload ≠ .queryCompleted completed) : ¬ Terminal (.ok event) := by
  have hevent := toWire_queryEventFromPayload ((Outcome.mapError_eq_ok _ _ _).mp hconverted)
  cases event with
  | completed summary => exact absurd hevent.symm (hpayload _)
  | started | batch => exact id

theorem StreamPending.Accepts.ongoing {codec : Wire.Codec} {stream next : StreamPending}
    {item : StreamItem} (haccepts : stream.Accepts codec metadata payload next item false) :
    ¬ Terminal item := by
  cases haccepts with
  | started _ hconverted | batch _ hconverted => exact not_terminal_of_convert hconverted (by simp)

/-- The id of the request that an action puts into the table. -/
def PendingAction.inserts : PendingAction → Option String
  | .insert requestId _ _ _ _ _ => some requestId
  | _ => none

/-- The answers to unary requests, by request id. -/
abbrev UnaryAnswers := List (String × Except PendingFailure Wire.Payload)

/-- No request was answered twice, and none that waits was answered. -/
structure Unanswered (active : List PendingRequest) (channels : List (Channel StreamItem))
    (answers : UnaryAnswers) : Prop where
  once : Rows.Keyed Prod.fst answers
  waiting : ∀ request ∈ active, ∀ answer ∈ answers, answer.1 ≠ request.requestId
  silent : ∀ request ∈ active, ∀ number channel, request.events = some number →
    channels[number]? = some channel → Silent channel
  ends : ∀ channel ∈ channels, EndsOnce channel

namespace Unanswered

variable {active rest : List PendingRequest} {channels changed : List (Channel StreamItem)}
  {answers : UnaryAnswers} {request : PendingRequest} {stream : StreamPending} {number : Nat}
  {channel after : Channel StreamItem} {item : StreamItem}

theorem mono (hunanswered : Unanswered active channels answers)
    (hstays : ∀ new ∈ rest, ∃ old ∈ active, new.requestId = old.requestId ∧
      ∀ number, new.events = some number → old.events = some number) :
    Unanswered rest channels answers where
  once := hunanswered.once
  waiting := by
    intro new hnew answer hanswer
    obtain ⟨old, hold, hid, -⟩ := hstays new hnew
    rw [hid]
    exact hunanswered.waiting old hold answer hanswer
  silent := by
    intro new hnew number channel hevents
    obtain ⟨old, hold, -, hseat⟩ := hstays new hnew
    exact hunanswered.silent old hold number channel (hseat number hevents)
  ends := hunanswered.ends

theorem tail (hunanswered : Unanswered (request :: rest) channels answers) :
    Unanswered rest channels answers :=
  hunanswered.mono fun new hnew => ⟨new, List.mem_cons_of_mem _ hnew, rfl, fun _ => id⟩

theorem reply (response : Except PendingFailure Wire.Payload)
    (hkeyed : Rows.Keyed PendingRequest.requestId (request :: rest))
    (hunanswered : Unanswered (request :: rest) channels answers) :
    Unanswered rest channels (answers ++ [(request.requestId, response)]) where
  once := hunanswered.once.append_singleton
    fun old hold => hunanswered.waiting request List.mem_cons_self old hold
  waiting := by
    intro other hother answer hanswer
    rcases List.mem_append.mp hanswer with hanswer | hanswer
    · exact hunanswered.tail.waiting other hother answer hanswer
    · rw [List.mem_singleton.mp hanswer]
      intro heq
      exact (List.nodup_cons.mp hkeyed).1 (List.mem_map.mpr ⟨other, hother, heq.symm⟩)
  silent := hunanswered.tail.silent
  ends := hunanswered.ends

theorem set (hunanswered : Unanswered active channels answers)
    (hbound : number < channels.length)
    (hsilent : ∀ request ∈ active, request.events = some number → Silent after)
    (hends : EndsOnce after) : Unanswered active (channels.set number after) answers where
  once := hunanswered.once
  waiting := hunanswered.waiting
  silent := by
    intro request hrequest other found hevents hfound
    by_cases heq : number = other
    · subst heq
      rw [List.getElem?_set_self hbound] at hfound
      obtain rfl := Option.some.inj hfound
      exact hsilent request hrequest hevents
    · rw [List.getElem?_set_ne heq] at hfound
      exact hunanswered.silent request hrequest other found hevents hfound
  ends := by
    intro other hother
    rcases List.mem_or_eq_of_mem_set hother with hother | rfl
    · exact hunanswered.ends other hother
    · exact hends

theorem consume (hunanswered : Unanswered active channels answers)
    (hchannel : channels[number]? = some channel) (hsent : after.sent = channel.sent) :
    Unanswered active (channels.set number after) answers := by
  apply hunanswered.set (List.getElem?_eq_some_iff.mp hchannel).1
  · intro request hrequest hevents
    rw [silent_congr hsent]
    exact hunanswered.silent request hrequest number channel hevents hchannel
  · rw [endsOnce_congr hsent]
    exact hunanswered.ends channel (List.mem_of_getElem? hchannel)

theorem sent (hhoused : Housed (request :: rest) channels)
    (hunanswered : Unanswered (request :: rest) channels answers)
    (hseat : request.events = stream.events) (hsent : stream.Sent channels item changed) :
    Unanswered rest changed answers := by
  cases hsent with
  | @delivered number channel sent hevents hchannel hsend =>
    apply hunanswered.tail.set (List.getElem?_eq_some_iff.mp hchannel).1
    · intro other hother heq
      exact absurd heq (hhoused.alone (hseat.trans hevents) other hother)
    · have hsilent := hunanswered.silent request List.mem_cons_self number channel
        (hseat.trans hevents) hchannel
      exact hsilent.send hsend
  | deserted _ => exact hunanswered.tail

theorem spoken (hunanswered : Unanswered (request :: rest) channels answers)
    (hseat : request.events = stream.events) (hsent : stream.Sent channels item changed)
    (hitem : ¬ Terminal item) : Unanswered (request :: rest) changed answers := by
  cases hsent with
  | @delivered number channel sent hevents hchannel hsend =>
    have hsilent := hunanswered.silent request List.mem_cons_self number channel
      (hseat.trans hevents) hchannel
    apply hunanswered.set (List.getElem?_eq_some_iff.mp hchannel).1
    · intro _ _ _
      exact hsilent.speak hitem hsend
    · exact hsilent.send hsend
  | deserted _ => exact hunanswered

theorem failIn (hhoused : Housed (request :: rest) channels) (failure : PendingFailure)
    (hunanswered : Unanswered (request :: rest) channels answers) :
    Unanswered rest (request.failIn channels failure) answers := by
  unfold PendingRequest.failIn
  split
  · rename_i stream hstream
    have hfits := hhoused.fits request List.mem_cons_self stream hstream
    exact hunanswered.sent hhoused (events_of_stream hstream)
      (StreamPending.emitFailure_of_fits failure hfits)
  · exact hunanswered.tail

theorem cons (hunanswered : Unanswered rest channels answers)
    (hnew : ∀ answer ∈ answers, answer.1 ≠ request.requestId)
    (hsilent : ∀ number channel, request.events = some number →
      channels[number]? = some channel → Silent channel) :
    Unanswered (request :: rest) channels answers where
  once := hunanswered.once
  waiting := List.forall_mem_cons.mpr ⟨hnew, hunanswered.waiting⟩
  silent := List.forall_mem_cons.mpr ⟨hsilent, hunanswered.silent⟩
  ends := hunanswered.ends

theorem append (hhoused : Housed active channels)
    (hunanswered : Unanswered active channels answers) (hends : EndsOnce channel) :
    Unanswered active (channels ++ [channel]) answers where
  once := hunanswered.once
  waiting := hunanswered.waiting
  silent := by
    intro request hrequest number found hevents hfound
    rw [List.getElem?_append_left (PendingRequests.events_lt hhoused hrequest hevents)] at hfound
    exact hunanswered.silent request hrequest number found hevents hfound
  ends := by
    intro found hfound
    rcases List.mem_append.mp hfound with hfound | hfound
    · exact hunanswered.ends found hfound
    · rw [List.mem_singleton.mp hfound]
      exact hends

end Unanswered

namespace PendingRequests

variable {config : EngineConfig} {codec : Wire.Codec} {table next : PendingRequests}
  {request : PendingRequest} {requestId : String}

def Unanswered (table : PendingRequests) : Prop :=
  Supervisor.Unanswered table.active table.channels table.answers

/-! ## Leaving -/

@[simp]
theorem remove_answers : (table.remove request).answers = table.answers := by
  unfold remove countDown
  split <;> rfl

@[simp]
theorem restore_answers : (table.restore request).answers = table.answers := by
  unfold restore countUp
  split <;> rfl

@[simp]
theorem rollbackControl_answers (lane : PendingLane) :
    (table.rollbackControl lane).answers = table.answers := by
  unfold rollbackControl
  split <;> rfl

@[simp]
theorem leave_answers : (table.leave request).answers = table.answers := by
  simp [leave]

theorem Unanswered.shrinks (hunanswered : table.Unanswered) (hshrinks : table.Shrinks next)
    (hchannels : next.channels = table.channels) (hanswers : next.answers = table.answers) :
    next.Unanswered := by
  unfold Unanswered
  rw [hchannels, hanswers]
  apply Supervisor.Unanswered.mono hunanswered
  intro new hnew
  obtain ⟨old, hold, hstays⟩ := hshrinks new hnew
  exact ⟨old, hold, hstays.requestId, hstays.events⟩

theorem unanswered_taken (hfind : table.find requestId = some request)
    (hshrinks : table.Shrinks next) (hunanswered : table.Unanswered) :
    Supervisor.Unanswered (request :: next.active) table.channels table.answers := by
  apply Supervisor.Unanswered.mono hunanswered
  intro new hnew
  rcases List.mem_cons.mp hnew with rfl | hnew
  · exact ⟨new, (Rows.find_mem hfind).1, rfl, fun _ => id⟩
  · obtain ⟨old, hold, hstays⟩ := hshrinks new hnew
    exact ⟨old, hold, hstays.requestId, hstays.events⟩

theorem unanswered_fail {rest : List PendingRequest} (failure : PendingFailure)
    (hhoused : Supervisor.Housed (request :: rest) table.channels)
    (hunanswered : Supervisor.Unanswered (request :: rest) table.channels table.answers) :
    Supervisor.Unanswered rest (table.fail request failure).channels
      (table.fail request failure).answers := by
  unfold fail
  cases hkind : request.kind with
  | unary => exact hunanswered.reply (.error failure) hhoused.keyed
  | stream stream =>
    have hfailed := hunanswered.failIn hhoused failure
    simp only [PendingRequest.failIn, PendingRequest.streamPending, hkind] at hfailed
    exact hfailed

theorem unanswered_leave_fail (failure : PendingFailure) (hhoused : table.Housed)
    (hfind : table.find requestId = some request) (hunanswered : table.Unanswered) :
    ((table.leave request).fail request failure).Unanswered := by
  unfold Unanswered
  rw [fail_active]
  apply unanswered_fail
  · rw [leave_channels]
    exact housed_leave hhoused hfind
  · rw [leave_channels, leave_answers]
    exact unanswered_taken hfind shrinks_leave hunanswered

theorem unanswered_rejectWithFailure (failure : PendingFailure) (hhoused : table.Housed)
    (hunanswered : table.Unanswered) : (table.rejectWithFailure requestId failure).Unanswered := by
  unfold rejectWithFailure
  split
  · exact hunanswered
  · rename_i request hfind
    exact unanswered_leave_fail failure hhoused hfind hunanswered

theorem unanswered_retire (hunanswered : table.Unanswered) :
    (table.retire requestId).1.Unanswered := by
  unfold retire
  split
  · exact hunanswered
  · rename_i request hfind
    have hleft : (table.leave request).Unanswered :=
      hunanswered.shrinks shrinks_leave leave_channels leave_answers
    dsimp only
    split <;> exact hleft

theorem unanswered_expireRequest (hhoused : table.Housed) (hunanswered : table.Unanswered) :
    (table.expireRequest requestId).1.Unanswered := by
  unfold expireRequest
  split
  · exact hunanswered
  · rename_i request hfind
    have hleft := unanswered_leave_fail (.timeout requestId .unknown) hhoused hfind hunanswered
    dsimp only
    split <;> exact hleft

theorem unanswered_expire (order : List String) (hhoused : table.Housed)
    (hunanswered : table.Unanswered) : (table.expire order).1.Unanswered := by
  unfold expire
  generalize (none : Option String) = fatal
  induction order generalizing table fatal with
  | nil => exact hunanswered
  | cons requestId order ih =>
    rw [List.foldl_cons]
    exact ih (keeps_expireRequest.housed hhoused)
      (unanswered_expireRequest hhoused hunanswered) _

theorem unanswered_closeEvents (hunanswered : table.Unanswered) :
    (table.closeEvents requestId).Unanswered := by
  unfold closeEvents
  split
  · exact hunanswered
  · split
    · exact hunanswered
    · rename_i number _ channel hchannel
      exact Supervisor.Unanswered.consume hunanswered hchannel rfl

theorem unanswered_abandon (sessionId : String) (hunanswered : table.Unanswered) :
    ((table.closeEvents requestId).abandonStream requestId sessionId).Unanswered := by
  have hclosed : (table.closeEvents requestId).Unanswered := unanswered_closeEvents hunanswered
  unfold abandonStream
  split
  · exact hclosed
  · split
    · exact hclosed
    · apply hclosed.shrinks
      · exact shrinks_mapStream fun _ _ _ _ _ _ hnumber => absurd hnumber (by simp)
      · rfl
      · rfl

/-! ### Everything fails -/

/-- The sink of a request has this failure, unless its consumer is gone. -/
def Failed (table : PendingRequests) (failure : PendingFailure) (request : PendingRequest) : Prop :=
  (request.kind = .unary → (request.requestId, .error failure) ∈ table.answers) ∧
    ∀ number, request.events = some number → ∃ channel, table.channels[number]? = some channel ∧
      (channel.closed = true ∨ channel.sent.getLast? = some (.error failure))

/-- Fail the requests of a list one after the other. -/
def failEach (table : PendingRequests) (failure : PendingFailure) (active : List PendingRequest) :
    PendingRequests :=
  active.foldl (fun failed request => failed.fail request failure) table

theorem failAll_eq (message : String) :
    table.failAll message =
      { table.failEach (.unavailable message .unknown) table.active with
        active := [], normalCount := 0, controlCount := 0, cancellingTargets := [] } := rfl

/-- A request that fails is answered with the failure, and its channel ends. -/
theorem failed_fail (table : PendingRequests) {rest : List PendingRequest} (failure : PendingFailure)
    (hhoused : Supervisor.Housed (request :: rest) table.channels) :
    (table.fail request failure).Failed failure request := by
  constructor
  · intro hkind
    simp [fail, hkind, answer]
  · intro number hevents
    obtain ⟨stream, hstream, hnumber⟩ := PendingRequest.events_eq_some_iff.mp hevents
    have hfits := hhoused.fits request List.mem_cons_self stream hstream
    rw [fail_channels]
    simp only [PendingRequest.failIn, Option.mem_def.mp hstream]
    have hsent := StreamPending.emitFailure_of_fits failure hfits
    generalize stream.emitFailure table.channels failure = changed at hsent
    cases hsent with
    | @delivered other channel sent hother hchannel hsend =>
      obtain rfl : other = number := Option.some.inj (hother.symm.trans hnumber)
      have hbound := (List.getElem?_eq_some_iff.mp hchannel).1
      refine ⟨sent, List.getElem?_set_self hbound, .inr ?_⟩
      rw [(Channel.trySend_ok hsend).1, List.getLast?_append]
      rfl
    | deserted hdeserted =>
      obtain ⟨channel, hchannel, hclosed⟩ := hdeserted number hnumber
      exact ⟨channel, hchannel, .inl hclosed⟩

/-- A request that fails leaves the answers and the channels of the others. -/
theorem fail_frame (table : PendingRequests) (request : PendingRequest)
    (failure : PendingFailure) :
    table.answers ⊆ (table.fail request failure).answers ∧
      ∀ number, request.events ≠ some number →
        (table.fail request failure).channels[number]? = table.channels[number]? := by
  constructor
  · unfold fail
    split
    · exact List.subset_append_left _ _
    · exact List.Subset.refl _
  · intro number hother
    rw [fail_channels]
    unfold PendingRequest.failIn
    split
    · rename_i stream hstream
      rw [events_of_stream hstream] at hother
      unfold StreamPending.emitFailure
      split
      · rfl
      · rename_i own hown
        split
        · rfl
        · split
          · apply List.getElem?_set_ne
            intro heq
            exact hother (heq ▸ hown)
          · rfl
    · rfl

/-- Each of them has its failure, and the rest is as it was. -/
theorem failEach_failed (failure : PendingFailure) (active : List PendingRequest) :
    ∀ table : PendingRequests, Supervisor.Housed active table.channels →
      (∀ request ∈ active, (table.failEach failure active).Failed failure request) ∧
        table.answers ⊆ (table.failEach failure active).answers ∧
          ∀ number, (∀ request ∈ active, request.events ≠ some number) →
            (table.failEach failure active).channels[number]? = table.channels[number]? := by
  induction active with
  | nil => exact fun table _ => ⟨by simp, List.Subset.refl _, fun _ _ => rfl⟩
  | cons head rest ih =>
    intro table hhoused
    have hnext : Supervisor.Housed rest (table.fail head failure).channels := by
      rw [fail_channels]
      exact hhoused.failIn
    obtain ⟨hrest, hkept, hsame⟩ := ih (table.fail head failure) hnext
    obtain ⟨hanswers, hchannels⟩ := fail_frame table head failure
    obtain ⟨hunary, hstream⟩ := failed_fail table failure hhoused
    refine ⟨List.forall_mem_cons.mpr ⟨⟨?_, ?_⟩, hrest⟩, ?_, ?_⟩
    · exact fun hkind => hkept (hunary hkind)
    · -- The channel of the first is nobody else's.
      intro number hevents
      obtain ⟨channel, hchannel, hend⟩ := hstream number hevents
      exact ⟨channel, (hsame number (hhoused.alone hevents)).trans hchannel, hend⟩
    · exact List.Subset.trans hanswers hkept
    · intro number hothers
      rw [List.forall_mem_cons] at hothers
      exact (hsame number hothers.2).trans (hchannels number hothers.1)

theorem unanswered_failEach (failure : PendingFailure) (active : List PendingRequest) :
    ∀ table : PendingRequests, Supervisor.Housed active table.channels →
      Supervisor.Unanswered active table.channels table.answers →
        Supervisor.Unanswered [] (table.failEach failure active).channels
          (table.failEach failure active).answers := by
  induction active with
  | nil => exact fun table _ hunanswered => hunanswered
  | cons head rest ih =>
    intro table hhoused hunanswered
    apply ih (table.fail head failure)
    · rw [fail_channels]
      exact hhoused.failIn
    · exact unanswered_fail failure hhoused hunanswered

theorem unanswered_failAll (message : String) (hhoused : table.Housed)
    (hunanswered : table.Unanswered) : (table.failAll message).Unanswered := by
  rw [failAll_eq]
  exact unanswered_failEach _ table.active table hhoused hunanswered

/-! ## Entering -/

section Entering

variable {traceId : String} {sessionId : Option String} {query : Option (Nat × QueryBudgets)}
  {deadline : Nat} {lane : PendingLane}

theorem Shrinks.fresh (hshrinks : table.Shrinks next)
    (hfresh : ∀ other ∈ table.active, other.requestId ≠ requestId) :
    ∀ other ∈ next.active, other.requestId ≠ requestId := by
  intro other hother
  obtain ⟨old, hold, hstays⟩ := hshrinks other hother
  rw [hstays.requestId]
  exact hfresh old hold

theorem unanswered_restore (hunanswered : table.Unanswered)
    (hnew : ∀ answer ∈ table.answers, answer.1 ≠ request.requestId)
    (hsilent : ∀ number channel, request.events = some number →
      table.channels[number]? = some channel → Silent channel) :
    (table.restore request).Unanswered := by
  unfold Unanswered
  rw [restore_active, restore_channels, restore_answers]
  have hwith := Supervisor.Unanswered.cons hunanswered hnew hsilent
  apply hwith.mono
  intro new hmem
  refine ⟨new, ?_, rfl, fun _ => id⟩
  rcases List.mem_append.mp hmem with hother | hmem
  · exact List.mem_cons_of_mem _ (List.mem_filter.mp hother).1
  · exact List.mem_cons.mpr (.inl (List.mem_singleton.mp hmem))

theorem unanswered_acceptUnary (hhoused : table.Housed) (hunanswered : table.Unanswered)
    (hnew : ∀ answer ∈ table.answers, answer.1 ≠ requestId)
    (hfresh : ∀ other ∈ table.active, other.requestId ≠ requestId) :
    (table.acceptRequest config requestId traceId sessionId none deadline lane).Unanswered := by
  unfold acceptRequest openSink
  obtain ⟨prepared, hshrinks, hchannels, hanswers, ⟨failure, hinsert⟩ | hinsert⟩ :=
    insert_prepared requestId traceId sessionId .unary deadline lane hhoused
  all_goals
    have hprepared := hunanswered.shrinks hshrinks hchannels hanswers
    rw [← hanswers] at hnew
    simp only [hinsert]
  · refine ⟨hprepared.once.append_singleton hnew, ?_, hprepared.silent, hprepared.ends⟩
    intro other hother answer hanswer
    rcases List.mem_append.mp hanswer with hanswer | hanswer
    · exact hprepared.waiting other hother answer hanswer
    · rw [List.mem_singleton.mp hanswer]
      exact (hshrinks.fresh hfresh other hother).symm
  · apply unanswered_restore hprepared hnew
    intro number channel hevents
    simp [PendingRequest.events, PendingRequest.streamPending, kindOf] at hevents

/-- A query comes in with a new channel, or is told at once. -/
theorem unanswered_acceptQuery {credits : Nat} {budgets : QueryBudgets} (hhoused : table.Housed)
    (hunanswered : table.Unanswered) (hnew : ∀ answer ∈ table.answers, answer.1 ≠ requestId) :
    (table.acceptRequest config requestId traceId sessionId (some (credits, budgets)) deadline
      lane).Unanswered := by
  have hopened : Housed { table with
      channels := table.channels ++ [.new config.streamEventCapacity] } := housed_append hhoused
  have hquiet : Unanswered { table with
      channels := table.channels ++ [.new config.streamEventCapacity] } :=
    Supervisor.Unanswered.append hhoused hunanswered (silent_new _).endsOnce
  unfold acceptRequest openSink
  obtain ⟨prepared, hshrinks, hchannels, hanswers, ⟨failure, hinsert⟩ | hinsert⟩ :=
    insert_prepared requestId traceId sessionId
      (.stream table.channels.length config.streamEventCapacity credits budgets) deadline lane hopened
  all_goals
    have hprepared := hquiet.shrinks hshrinks hchannels hanswers
    have hlast : prepared.channels[table.channels.length]? =
        some (.new config.streamEventCapacity) := by
      simp [hchannels]
    simp only [hinsert]
  · unfold failSink
    simp only [hlast]
    split
    · rename_i sent hsend
      apply Supervisor.Unanswered.set hprepared (List.getElem?_eq_some_iff.mp hlast).1
      · -- The new channel is nobody's.
        intro other hother hevents
        obtain ⟨old, hold, hstays⟩ := hshrinks other hother
        have hlt := events_lt hhoused hold (hstays.events _ hevents)
        exact absurd hlt (Nat.lt_irrefl _)
      · exact (silent_new _).send hsend
    · exact hprepared
  · apply unanswered_restore hprepared
    · rw [hanswers]
      exact hnew
    · intro number channel hevents hchannel
      obtain rfl : table.channels.length = number := by
        simpa [PendingRequest.events, PendingRequest.streamPending, kindOf] using hevents
      obtain rfl := Option.some.inj (hlast.symm.trans hchannel)
      exact silent_new _

end Entering

/-! ## Responses -/

theorem applyLaneResponse_frame {lane : PendingLane}
    (happlied : table.applyLaneResponse lane payload = .ok next) :
    next.channels = table.channels ∧ next.answers = table.answers := by
  obtain ⟨_, _, _, -, rfl⟩ | ⟨_, -, rfl⟩ | ⟨-, rfl⟩ := applyLaneResponse_cases happlied
  all_goals exact ⟨rfl, rfl⟩

theorem routeUnary_answer (hroute : table.routeUnary request metadata payload = .ok next) :
    ∃ applied response, table.Shrinks applied ∧ applied.channels = table.channels ∧
      applied.answers = table.answers ∧ next = applied.answer request.requestId response ∧
        (response = .ok payload ∨ ∃ message, response = .error (.protocol message)) := by
  simp only [routeUnary, Outcome.bind_eq_ok, Outcome.rejectIf_eq_ok, exists_const] at hroute
  obtain ⟨-, -, hroute⟩ := hroute
  split at hroute
  · rename_i applied happlied
    obtain ⟨hchannels, hanswers⟩ := applyLaneResponse_frame happlied
    exact ⟨applied, .ok payload, shrinks_applyLaneResponse happlied, hchannels, hanswers,
      ((Outcome.pure_eq_ok _ _).mp hroute).symm, .inl rfl⟩
  · rename_i message hrefused
    split_ifs at hroute
    exact ⟨table, .error (.protocol message), shrinks_of_active rfl, rfl, rfl,
      ((Outcome.pure_eq_ok _ _).mp hroute).symm, .inr ⟨message, rfl⟩⟩

/-- The response to a unary request is its only answer. -/
theorem unanswered_routeUnary (hhoused : table.Housed) (hfind : table.find requestId = some request)
    (hunanswered : table.Unanswered)
    (hroute : (table.remove request).routeUnary request metadata payload = .ok next) :
    next.Unanswered := by
  obtain ⟨heased, -⟩ := routeUnary_eased hroute
  obtain ⟨applied, response, hshrinks, hchannels, hanswers, rfl, -⟩ := routeUnary_answer hroute
  have hkeyed : Rows.Keyed PendingRequest.requestId (request :: applied.active) := by
    have hfound := (housed_found hhoused hfind).keyed
    unfold Rows.Keyed at hfound ⊢
    rw [List.map_cons] at hfound ⊢
    rw [show applied.active.map _ = _ from heased.map_requestId]
    exact hfound
  have htaken := unanswered_taken hfind (shrinks_remove.trans hshrinks) hunanswered
  rw [remove_channels] at hchannels
  rw [remove_answers] at hanswers
  rw [← hchannels, ← hanswers] at htaken
  exact htaken.reply response hkeyed

/-- A response to a stream answers nobody twice. -/
theorem unanswered_routeStream {stream : StreamPending} (hhoused : table.Housed)
    (hfind : table.find requestId = some request) (hunanswered : table.Unanswered)
    (hstream : request.streamPending = some stream)
    (hroute : (table.remove request).routeStream codec request stream metadata payload =
      .ok next) : next.Unanswered := by
  have hfound := housed_found hhoused hfind
  have hfits := hfound.fits request List.mem_cons_self stream hstream
  have hseat := events_of_stream hstream
  have htaken : Supervisor.Unanswered (request :: (table.remove request).active)
      (table.remove request).channels (table.remove request).answers := by
    rw [remove_channels, remove_answers]
    exact unanswered_taken hfind shrinks_remove hunanswered
  unfold routeStream at hroute
  split at hroute
  · cases hroute
  · rename_i after changed terminal hrouted
    obtain ⟨item, accepted, haccepts, hsent, hafter⟩ := route_ok hfits hrouted
    cases terminal with
    | true =>
      obtain ⟨rfl, -⟩ := haccepts.terminal
      obtain rfl := Except.ok.inj hroute
      have hstay : request.events = stream.advance.events := hseat
      exact htaken.sent hfound hstay hsent
    | false =>
      have hstay : request.events = accepted.events := hseat.trans haccepts.spends.1.symm
      have hspoken := htaken.spoken hstay hsent haccepts.ongoing
      have hafterSeat : ∀ number, after.events = some number → request.events = some number := by
        intro number hnumber
        rcases hafter with rfl | ⟨-, hgone, -, -⟩
        · exact hstay.trans hnumber
        · rw [hgone] at hnumber
          cases hnumber
      obtain rfl := Except.ok.inj hroute
      unfold Unanswered
      rw [restore_active, restore_channels, restore_answers]
      apply hspoken.mono
      intro new hnew
      rcases List.mem_append.mp hnew with hother | hnew
      · exact ⟨new, List.mem_cons_of_mem _ (List.mem_filter.mp hother).1, rfl, fun _ => id⟩
      · rw [List.mem_singleton.mp hnew]
        exact ⟨request, List.mem_cons_self, rfl, hafterSeat⟩

theorem unanswered_routeResponse {response : Wire.ServerEnvelope} (hhoused : table.Housed)
    (hunanswered : table.Unanswered) : (table.routeResponse codec response).1.Unanswered := by
  unfold routeResponse
  split
  · exact hunanswered
  · split_ifs
    · exact hunanswered
    · split
      · exact hunanswered
      · rename_i request hfind
        split
        · rename_i next hroute
          simp only [routeRequest, Outcome.bind_eq_ok] at hroute
          obtain ⟨_, -, payload, -, _, -, hroute⟩ := hroute
          split at hroute
          · exact unanswered_routeUnary hhoused hfind hunanswered hroute
          · rename_i stream hkind
            have hstream : request.streamPending = some stream := by
              simp [PendingRequest.streamPending, hkind]
            exact unanswered_routeStream hhoused hfind hunanswered hstream hroute
        · exact hunanswered.shrinks shrinks_remove remove_channels remove_answers

/-! ## Steps -/

/-- Every action keeps what was not answered that way, if an id comes in once. -/
theorem unanswered_step
    (hstep : table.step config codec action = some next) (hhoused : table.Housed)
    (hunanswered : table.Unanswered)
    (hnew : ∀ requestId ∈ action.inserts, ∀ answer ∈ table.answers, answer.1 ≠ requestId) :
    next.Unanswered := by
  cases action with
  | insert requestId traceId sessionId query deadline lane =>
    simp only [step] at hstep
    split_ifs at hstep with hguard
    cases hstep
    have hunused := hnew requestId rfl
    have hfresh : ∀ other ∈ table.active, other.requestId ≠ requestId := by
      apply fresh_of_find
      simpa using fun h => hguard (.inr h)
    cases query with
    | none => exact unanswered_acceptUnary hhoused hunanswered hunused hfresh
    | some query => exact unanswered_acceptQuery hhoused hunanswered hunused
  | reject requestId failure =>
    cases hstep
    exact unanswered_rejectWithFailure failure hhoused hunanswered
  | retire requestId =>
    simp only [step] at hstep
    split_ifs at hstep
    cases hstep
    exact unanswered_retire hunanswered
  | abandon requestId sessionId =>
    simp only [step] at hstep
    split_ifs at hstep
    · cases hstep
      exact unanswered_abandon sessionId hunanswered
    · cases hstep
      exact hunanswered
  | expire now order =>
    simp only [step] at hstep
    split_ifs at hstep
    cases hstep
    exact unanswered_expire order hhoused hunanswered
  | route response =>
    cases hstep
    exact unanswered_routeResponse hhoused hunanswered
  | failAll message =>
    cases hstep
    exact unanswered_failAll message hhoused hunanswered
  | receive number =>
    simp only [step, Option.bind_eq_bind, Option.bind_eq_some_iff, Option.some.injEq] at hstep
    obtain ⟨channel, hchannel, taken, hrecv, rfl⟩ := hstep
    exact Supervisor.Unanswered.consume hunanswered hchannel (Channel.recv_some hrecv).1
  | dropReceiver number =>
    simp only [step, Option.bind_eq_bind, Option.bind_eq_some_iff, Option.some.injEq] at hstep
    obtain ⟨channel, hchannel, rfl⟩ := hstep
    exact Supervisor.Unanswered.consume hunanswered hchannel rfl

/-! ## Whose answers these are -/

/-- An answer is the payload of a response to the request. -/
def Carries (response : Wire.ServerEnvelope) (answer : String × Except PendingFailure Wire.Payload) :
    Prop :=
  ∃ metadata ∈ response.responseMeta, metadata.requestId = answer.1 ∧
    ∃ payload ∈ response.payload, answer.2 = .ok payload

/-- The answers that are new are failures of requests that wait. -/
def Fails (table next : PendingRequests) : Prop :=
  ∀ answer ∈ next.answers, answer ∈ table.answers ∨
    (∃ request ∈ table.active, request.requestId = answer.1) ∧ ∃ failure, answer.2 = .error failure

theorem fails_of_answers (hanswers : next.answers = table.answers) : table.Fails next := by
  intro answer hanswer
  rw [hanswers] at hanswer
  exact .inl hanswer

theorem Fails.trans {last : PendingRequests} (hfirst : table.Fails next)
    (hshrinks : table.Shrinks next) (hnext : next.Fails last) : table.Fails last := by
  intro answer hanswer
  rcases hnext answer hanswer with hanswer | ⟨⟨request, hrequest, hid⟩, hfailure⟩
  · exact hfirst answer hanswer
  · obtain ⟨old, hold, hstays⟩ := hshrinks request hrequest
    exact .inr ⟨⟨old, hold, hstays.requestId.symm.trans hid⟩, hfailure⟩

theorem mem_fail_answers (hanswer : answer ∈ (table.fail request failure).answers) :
    answer ∈ table.answers ∨ answer = (request.requestId, .error failure) := by
  unfold fail at hanswer
  split at hanswer
  · simpa [PendingRequests.answer] using hanswer
  · exact .inl hanswer

theorem fails_leave_fail (failure : PendingFailure) (hfind : table.find requestId = some request) :
    table.Fails ((table.leave request).fail request failure) := by
  intro answer hanswer
  rcases mem_fail_answers hanswer with hanswer | rfl
  · rw [leave_answers] at hanswer
    exact .inl hanswer
  · exact .inr ⟨⟨request, (Rows.find_mem hfind).1, rfl⟩, failure, rfl⟩

theorem fails_rejectWithFailure (failure : PendingFailure) :
    table.Fails (table.rejectWithFailure requestId failure) := by
  unfold rejectWithFailure
  split
  · exact fails_of_answers rfl
  · rename_i request hfind
    exact fails_leave_fail failure hfind

theorem fails_retire : table.Fails (table.retire requestId).1 := by
  unfold retire
  split
  · exact fails_of_answers rfl
  · rename_i request hfind
    have hleft : table.Fails (table.leave request) := fails_of_answers leave_answers
    dsimp only
    split <;> exact hleft

theorem fails_expireRequest : table.Fails (table.expireRequest requestId).1 := by
  unfold expireRequest
  split
  · exact fails_of_answers rfl
  · rename_i request hfind
    have hleft := fails_leave_fail (.timeout requestId .unknown) hfind
    dsimp only
    split <;> exact hleft

theorem fails_expire (order : List String) : table.Fails (table.expire order).1 := by
  unfold expire
  generalize (none : Option String) = fatal
  induction order generalizing table fatal with
  | nil => exact fails_of_answers rfl
  | cons requestId order ih =>
    rw [List.foldl_cons]
    exact fails_expireRequest.trans shrinks_expireRequest (ih _)

theorem mem_failEach_answers {active : List PendingRequest} :
    ∀ table : PendingRequests, answer ∈ (table.failEach failure active).answers →
      answer ∈ table.answers ∨ ∃ request ∈ active, answer = (request.requestId, .error failure) := by
  induction active with
  | nil => exact fun table hanswer => .inl hanswer
  | cons head rest ih =>
    intro table hanswer
    rcases ih (table.fail head failure) hanswer with hanswer | ⟨request, hrequest, hanswer⟩
    · rcases mem_fail_answers hanswer with hanswer | hanswer
      · exact .inl hanswer
      · exact .inr ⟨head, List.mem_cons_self, hanswer⟩
    · exact .inr ⟨request, List.mem_cons_of_mem _ hrequest, hanswer⟩

theorem fails_failAll (message : String) : table.Fails (table.failAll message) := by
  intro answer hanswer
  rw [failAll_eq] at hanswer
  rcases mem_failEach_answers table hanswer with hanswer | ⟨request, hrequest, rfl⟩
  · exact .inl hanswer
  · exact .inr ⟨⟨request, hrequest, rfl⟩, _, rfl⟩

theorem openSink_answers {query : Option (Nat × QueryBudgets)} :
    (table.openSink config query).1.answers = table.answers := by
  unfold openSink
  split <;> rfl

theorem mem_failSink_answers {sink : PendingSink}
    (hanswer : answer ∈ (table.failSink requestId sink failure).answers) :
    answer ∈ table.answers ∨ answer = (requestId, .error failure) := by
  unfold failSink at hanswer
  split at hanswer
  · simpa [PendingRequests.answer] using hanswer
  · split at hanswer
    · exact .inl hanswer
    · split at hanswer <;> exact .inl hanswer

theorem mem_acceptRequest_answers {traceId : String} {sessionId : Option String}
    {query : Option (Nat × QueryBudgets)} {deadline : Nat} {lane : PendingLane}
    (hhoused : table.Housed) (hanswer : answer ∈
      (table.acceptRequest config requestId traceId sessionId query deadline lane).answers) :
    answer ∈ table.answers ∨ answer.1 = requestId ∧ ∃ failure, answer.2 = .error failure := by
  have hopened : (table.openSink config query).1.Housed := by
    unfold openSink
    split
    · exact hhoused
    · exact housed_append hhoused
  have hsame : (table.openSink config query).1.answers = table.answers := openSink_answers
  unfold acceptRequest at hanswer
  generalize table.openSink config query = opened at hopened hsame hanswer
  obtain ⟨prepared, -, -, hanswers, ⟨failure, hinsert⟩ | hinsert⟩ :=
    insert_prepared requestId traceId sessionId opened.2 deadline lane hopened
  · simp only [hinsert] at hanswer
    rcases mem_failSink_answers hanswer with hanswer | rfl
    · rw [hanswers, hsame] at hanswer
      exact .inl hanswer
    · exact .inr ⟨rfl, failure, rfl⟩
  · simp only [hinsert, restore_answers, hanswers, hsame] at hanswer
    exact .inl hanswer

/-- A response answers the request it is for, or nobody. -/
theorem mem_routeResponse_answers {response : Wire.ServerEnvelope}
    (hanswer : answer ∈ (table.routeResponse codec response).1.answers) :
    answer ∈ table.answers ∨ (∃ request ∈ table.active, request.requestId = answer.1) ∧
      ((∃ failure, answer.2 = .error failure) ∨ Carries response answer) := by
  unfold routeResponse at hanswer
  split at hanswer
  · exact .inl hanswer
  · rename_i metadata hmetadata
    split_ifs at hanswer
    · exact .inl hanswer
    · split at hanswer
      · exact .inl hanswer
      · rename_i request hfind
        obtain ⟨hmem, hid⟩ := Rows.find_mem hfind
        split at hanswer
        · rename_i next hroute
          simp only [routeRequest, Outcome.bind_eq_ok, Outcome.orThrow_eq_ok] at hroute
          obtain ⟨_, -, payload, hpayload, _, -, hroute⟩ := hroute
          split at hroute
          · obtain ⟨applied, said, -, -, hanswers, rfl, hsaid⟩ := routeUnary_answer hroute
            rw [remove_answers] at hanswers
            rcases List.mem_append.mp hanswer with hanswer | hanswer
            · rw [hanswers] at hanswer
              exact .inl hanswer
            · obtain rfl := List.mem_singleton.mp hanswer
              refine .inr ⟨⟨request, hmem, rfl⟩, ?_⟩
              rcases hsaid with rfl | ⟨message, rfl⟩
              · exact .inr ⟨metadata, hmetadata, hid.symm, payload, hpayload, rfl⟩
              · exact .inl ⟨_, rfl⟩
          · unfold routeStream at hroute
            split at hroute
            · cases hroute
            · split_ifs at hroute
              · obtain rfl := Except.ok.inj hroute
                simp only [remove_answers] at hanswer
                exact .inl hanswer
              · obtain rfl := Except.ok.inj hroute
                simp only [restore_answers, remove_answers] at hanswer
                exact .inl hanswer
        · rw [remove_answers] at hanswer
          exact .inl hanswer

theorem closeEvents_answers : (table.closeEvents requestId).answers = table.answers := by
  unfold closeEvents
  split
  · rfl
  · split <;> rfl

theorem abandonStream_answers {sessionId : String} :
    (table.abandonStream requestId sessionId).answers = table.answers := by
  unfold abandonStream
  split
  · rfl
  · split <;> rfl

/-- An answer that is new goes to the request that the action is about. -/
theorem mem_step_answers
    (hstep : table.step config codec action = some next) (hhoused : table.Housed)
    (hanswer : answer ∈ next.answers) :
    answer ∈ table.answers ∨
      (action.inserts = some answer.1 ∨ ∃ request ∈ table.active, request.requestId = answer.1) ∧
        ((∃ failure, answer.2 = .error failure) ∨
          ∃ response, action = .route response ∧ Carries response answer) := by
  -- an insertion, a response, or a way for requests to fail
  suffices hcases : (∃ requestId traceId sessionId query deadline lane,
      action = .insert requestId traceId sessionId query deadline lane ∧
        next = table.acceptRequest config requestId traceId sessionId query deadline lane) ∨
      (∃ response, action = .route response ∧ next = (table.routeResponse codec response).1) ∨
        table.Fails next by
    rcases hcases with ⟨_, _, _, _, _, _, rfl, rfl⟩ | ⟨response, rfl, rfl⟩ | hfails
    · rcases mem_acceptRequest_answers hhoused hanswer with hanswer | ⟨hid, hfailure⟩
      · exact .inl hanswer
      · exact .inr ⟨.inl (congrArg some hid.symm), .inl hfailure⟩
    · rcases mem_routeResponse_answers hanswer with hanswer | ⟨hrequest, hsaid⟩
      · exact .inl hanswer
      · exact .inr ⟨.inr hrequest, hsaid.imp_right fun hcarries => ⟨response, rfl, hcarries⟩⟩
    · rcases hfails answer hanswer with hanswer | ⟨hrequest, hfailure⟩
      · exact .inl hanswer
      · exact .inr ⟨.inr hrequest, .inl hfailure⟩
  cases action with
  | insert requestId traceId sessionId query deadline lane =>
    simp only [step] at hstep
    split_ifs at hstep
    exact .inl ⟨_, _, _, _, _, _, rfl, (Option.some.inj hstep).symm⟩
  | reject requestId failure =>
    cases hstep
    exact .inr (.inr (fails_rejectWithFailure failure))
  | retire requestId =>
    simp only [step] at hstep
    split_ifs at hstep
    cases hstep
    exact .inr (.inr fails_retire)
  | abandon requestId sessionId =>
    refine .inr (.inr (fails_of_answers ?_))
    simp only [step] at hstep
    split_ifs at hstep
    · cases hstep
      exact abandonStream_answers.trans closeEvents_answers
    · cases hstep
      rfl
  | expire now order =>
    simp only [step] at hstep
    split_ifs at hstep
    cases hstep
    exact .inr (.inr (fails_expire order))
  | route response => exact .inr (.inl ⟨response, rfl, (Option.some.inj hstep).symm⟩)
  | failAll message =>
    cases hstep
    exact .inr (.inr (fails_failAll message))
  | receive number =>
    simp only [step, Option.bind_eq_bind, Option.bind_eq_some_iff, Option.some.injEq] at hstep
    obtain ⟨channel, -, taken, -, rfl⟩ := hstep
    exact .inr (.inr (fails_of_answers rfl))
  | dropReceiver number =>
    simp only [step, Option.bind_eq_bind, Option.bind_eq_some_iff, Option.some.injEq] at hstep
    obtain ⟨channel, -, rfl⟩ := hstep
    exact .inr (.inr (fails_of_answers rfl))

/-! ## Runs -/

/-- The request ids that the actions put into the table. -/
def insertedIds (actions : List PendingAction) : List String :=
  actions.filterMap PendingAction.inserts

/-- What holds of the table after the actions. -/
structure Kept (actions : List PendingAction) (table : PendingRequests) : Prop where
  housed : table.Housed
  controls : table.ControlsUnary
  balanced : table.Balanced
  unanswered : table.Unanswered
  known : ∀ request ∈ table.active, request.requestId ∈ insertedIds actions
  answered : ∀ answer ∈ table.answers, answer.1 ∈ insertedIds actions ∧
    ((∃ failure, answer.2 = .error failure) ∨
      ∃ response, .route response ∈ actions ∧ Carries response answer)

theorem kept_new : Kept [] new where
  housed := housed_new
  controls := by simp [ControlsUnary, new]
  balanced := ⟨rfl, rfl, .refl _, List.nodup_nil⟩
  unanswered := ⟨List.nodup_nil, by simp [new], by simp [new], by simp [new]⟩
  known := by simp [new]
  answered := by simp [new]

theorem insertedIds_append_singleton :
    insertedIds (actions ++ [action]) = insertedIds actions ++ action.inserts.toList := by
  unfold insertedIds
  rw [List.filterMap_append]
  cases hinserts : action.inserts <;> simp [hinserts]

/-- The invariant of the answers, kept by every action. -/
theorem Kept.step {actions : List PendingAction} {action : PendingAction}
    (hkept : Kept actions table) (hstep : table.step config codec action = some next)
    (hfresh : (insertedIds (actions ++ [action])).Nodup) (haction : action.UnaryControl)
    (hanswered : table.CancelsAnswered action) : Kept (actions ++ [action]) next := by
  rw [insertedIds_append_singleton] at hfresh
  have hnew : ∀ requestId ∈ action.inserts, ∀ answer ∈ table.answers, answer.1 ≠ requestId := by
    intro requestId hinserts answer hanswer heq
    have hused := heq ▸ (hkept.answered answer hanswer).1
    exact (List.disjoint_of_nodup_append hfresh) hused (by simp [Option.mem_def.mp hinserts])
  have hids : ∀ requestId, (∃ request ∈ table.active, request.requestId = requestId) →
      requestId ∈ insertedIds (actions ++ [action]) := by
    rintro _ ⟨request, hrequest, rfl⟩
    rw [insertedIds_append_singleton]
    exact List.mem_append_left _ (hkept.known request hrequest)
  have hinserted : ∀ requestId, action.inserts = some requestId →
      requestId ∈ insertedIds (actions ++ [action]) := by
    intro requestId hinserts
    rw [insertedIds_append_singleton]
    exact List.mem_append_right _ (by simp [hinserts])
  refine ⟨(keeps_step hstep).1 hkept.housed,
    controlsUnary_step hstep hkept.housed hkept.controls haction,
    balanced_step hstep hkept.housed hkept.controls hkept.balanced haction hanswered,
    unanswered_step hstep hkept.housed hkept.unanswered hnew, ?_, ?_⟩
  · intro new hmem
    rcases step_active hstep hkept.housed with hshrinks | ⟨_, _, _, _, _, _, rfl, hactive⟩
    · obtain ⟨old, hold, hstays⟩ := hshrinks new hmem
      exact hids _ ⟨old, hold, hstays.requestId.symm⟩
    · rcases hactive new hmem with ⟨old, hold, hstays⟩ | rfl
      · exact hids _ ⟨old, hold, hstays.requestId.symm⟩
      · exact hinserted _ rfl
  · intro answer hanswer
    rcases mem_step_answers hstep hkept.housed hanswer with hold | ⟨hid, hsaid⟩
    · obtain ⟨hused, hsaid⟩ := hkept.answered answer hold
      refine ⟨?_, hsaid.imp_right ?_⟩
      · rw [insertedIds_append_singleton]
        exact List.mem_append_left _ hused
      · rintro ⟨response, hroute, hcarries⟩
        exact ⟨response, List.mem_append_left _ hroute, hcarries⟩
    · refine ⟨hid.elim (hinserted _) (hids _), hsaid.imp_right ?_⟩
      rintro ⟨response, rfl, hcarries⟩
      exact ⟨response, by simp, hcarries⟩

/-- The counters are those of the lanes, the cancelling targets are those of the
cancellations that wait, and no sink was answered twice. -/
structure Accounted (actions : List PendingAction) (table : PendingRequests) : Prop where
  normal : table.normalCount = table.active.countP (·.lane.consumesNormalSlot)
  control : table.controlCount = table.active.countP (¬ ·.lane.consumesNormalSlot)
  cancelling : ∀ target, target ∈ table.cancellingTargets ↔
    ∃ request ∈ table.active, request.lane = .control (.cancel target)
  once : ∀ requestId, (table.answers.filter (·.1 = requestId)).length ≤ 1
  response : ∀ answer ∈ table.answers, (∃ failure, answer.2 = .error failure) ∨
    ∃ response, .route response ∈ actions ∧ Carries response answer
  ends : ∀ channel ∈ table.channels, EndsOnce channel

/-- The table is empty, and every sink that was in it was answered once, with
this failure. -/
structure AllFailed (table failed : PendingRequests) (failure : PendingFailure) : Prop where
  empty : failed.active = [] ∧ failed.normalCount = 0 ∧ failed.controlCount = 0 ∧
    failed.cancellingTargets = []
  unary : ∀ request ∈ table.active, request.kind = .unary →
    failed.answers.filter (·.1 = request.requestId) = [(request.requestId, .error failure)]
  stream : ∀ request ∈ table.active, ∀ number ∈ request.events,
    ∃ channel ∈ failed.channels[number]?, EndsOnce channel ∧
      (channel.closed = true ∨ channel.sent.getLast? = some (.error failure))

theorem cancels_eq_some_iff {lane : PendingLane} {target : String} :
    lane.cancels = some target ↔ lane = .control (.cancel target) := by
  unfold PendingLane.cancels
  split
  · simp
  · rename_i hcancel
    simpa using hcancel target

/-- What the invariant says of the accounts. -/
theorem Kept.accounted (hkept : Kept actions table) :
    table.Accounted actions where
  normal := by
    rw [hkept.balanced.normal, lanes, List.countP_map]
    rfl
  control := by
    rw [hkept.balanced.control, lanes, List.countP_map]
    rfl
  cancelling := by
    intro target
    rw [hkept.balanced.cancelling.mem_iff]
    simp [lanes, List.mem_filterMap, cancels_eq_some_iff]
  once := by
    intro requestId
    apply hkept.unanswered.once.length_filter_le_one
    intro left hleft right hright hleftId hrightId
    apply hkept.unanswered.once.eq_of_key_eq hleft hright
    exact (of_decide_eq_true hleftId).trans (of_decide_eq_true hrightId).symm
  response := fun answer hanswer => (hkept.answered answer hanswer).2
  ends := hkept.unanswered.ends

theorem Kept.allFailed (hkept : Kept actions table) (message : String) :
    table.AllFailed (table.failAll message) (.unavailable message .unknown) := by
  obtain ⟨hfailed, -, -⟩ :=
    failEach_failed (.unavailable message .unknown) table.active table hkept.housed
  have hquiet := unanswered_failAll message hkept.housed hkept.unanswered
  refine ⟨⟨rfl, rfl, rfl, rfl⟩, ?_, ?_⟩
  · intro request hrequest hkind
    exact hquiet.once.filter_eq_singleton ((hfailed request hrequest).1 hkind)
  · intro request hrequest number hevents
    obtain ⟨channel, hchannel, hend⟩ := (hfailed request hrequest).2 number hevents
    exact ⟨channel, hchannel, hquiet.ends channel (List.mem_of_getElem? hchannel), hend⟩

end PendingRequests

theorem kept_of_run {config : EngineConfig} {codec : Wire.Codec}
    {table : PendingRequests} (hrun : pendingAfter config codec actions = some table)
    (hfresh : (PendingRequests.insertedIds actions).Nodup)
    (hunary : ∀ action ∈ actions, action.UnaryControl)
    (hanswered : Machine.Along PendingRequests.CancelsAnswered (PendingRequests.step config codec)
      .new actions) : PendingRequests.Kept actions table := by
  unfold pendingAfter at hrun
  revert hfresh hunary hanswered
  refine Machine.run_induction (motive := fun actions table =>
    (PendingRequests.insertedIds actions).Nodup → (∀ action ∈ actions, action.UnaryControl) →
      Machine.Along PendingRequests.CancelsAnswered (PendingRequests.step config codec) .new
        actions → PendingRequests.Kept actions table) ?_ ?_ hrun
  · exact fun _ _ _ => PendingRequests.kept_new
  · intro actions action before after hbefore hafter ih hfresh hunary hanswered
    obtain ⟨hactions, hlast⟩ := hanswered.append_singleton
    have hids := hfresh
    rw [PendingRequests.insertedIds_append_singleton] at hids
    have hkept := ih hids.of_append_left
      (fun other hother => hunary other (List.mem_append_left _ hother)) hactions
    exact hkept.step hafter hfresh (hunary action (by simp)) (hlast before hbefore)

/-- In every run with fresh request ids and unary sinks on control lanes, in which
no cancellation is answered with anything but its outcome, the accounts are right
and no sink is answered twice. When everything fails, every sink that is left is
answered once. -/
theorem pendingAfter_accounted {config : EngineConfig} {codec : Wire.Codec}
    {actions : List PendingAction} {table : PendingRequests}
    (hrun : pendingAfter config codec actions = some table)
    (hfresh : (PendingRequests.insertedIds actions).Nodup)
    (hunary : ∀ action ∈ actions, action.UnaryControl)
    (hanswered : Machine.Along PendingRequests.CancelsAnswered (PendingRequests.step config codec)
      .new actions) :
    table.Accounted actions ∧ ∀ message,
      table.AllFailed (table.failAll message) (.unavailable message .unknown) :=
  have hkept := kept_of_run hrun hfresh hunary hanswered
  ⟨hkept.accounted, hkept.allFailed⟩

/-- The cancellation of the sample query. -/
def cancelQuery : PendingAction :=
  .insert "1-8" "engine-1-8" (some "session") none 1000 (.control (.cancel "1-7"))

def cancelResponse (traceId : String) : PendingAction :=
  .route
    { responseMeta := some { requestId := "1-8", traceId, sequence := 0, terminal := true }
      payload := some .operationCancelled }

/-- A query is cancelled, and the engine fails before the query ends. -/
theorem cancelledQuery_accounted :
    ∃ table, pendingAfter defaultConfig emptyCodec
        [oneCreditQuery, cancelQuery, cancelResponse "engine-1-8"] = some table ∧
      table.normalCount = 1 ∧ table.controlCount = 0 ∧ table.cancellingTargets = [] ∧
        table.Accounted [oneCreditQuery, cancelQuery, cancelResponse "engine-1-8"] ∧
          table.AllFailed (table.failAll "gone") (.unavailable "gone" .unknown) := by
  obtain ⟨table, hrun, hnormal, hcontrol, hcancelling⟩ :
      ∃ table, pendingAfter defaultConfig emptyCodec
          [oneCreditQuery, cancelQuery, cancelResponse "engine-1-8"] = some table ∧
        table.normalCount = 1 ∧ table.controlCount = 0 ∧ table.cancellingTargets = [] :=
    ⟨_, rfl, rfl, rfl, rfl⟩
  obtain ⟨haccounted, hfailed⟩ := pendingAfter_accounted hrun (by decide)
    (by simp [oneCreditQuery, cancelQuery, cancelResponse, PendingAction.UnaryControl]) (by decide)
  exact ⟨table, hrun, hnormal, hcontrol, hcancelling, haccounted, hfailed "gone"⟩

/-- A response with another trace id takes the cancellation out of the table and
leaves its target behind. -/
theorem refusedCancellation_unaccounted :
    ∃ table, pendingAfter defaultConfig emptyCodec
        [oneCreditQuery, cancelQuery, cancelResponse "engine-1-9"] = some table ∧
      (PendingRequests.insertedIds
        [oneCreditQuery, cancelQuery, cancelResponse "engine-1-9"]).Nodup ∧
      (∀ action ∈ [oneCreditQuery, cancelQuery, cancelResponse "engine-1-9"],
        action.UnaryControl) ∧
      "1-7" ∈ table.cancellingTargets ∧
      ¬ (∃ request ∈ table.active, request.lane = .control (.cancel "1-7")) ∧
      ¬ table.Accounted [oneCreditQuery, cancelQuery, cancelResponse "engine-1-9"] := by
  obtain ⟨table, hrun, hcancelling, hactive⟩ :
      ∃ table, pendingAfter defaultConfig emptyCodec
          [oneCreditQuery, cancelQuery, cancelResponse "engine-1-9"] = some table ∧
        table.cancellingTargets = ["1-7"] ∧ table.active.map (·.lane) = [.stream] :=
    ⟨_, rfl, rfl, rfl⟩
  have hnone : ¬ ∃ request ∈ table.active, request.lane = .control (.cancel "1-7") := by
    rintro ⟨request, hrequest, hlane⟩
    have hmem : request.lane ∈ table.active.map (·.lane) := List.mem_map.mpr ⟨_, hrequest, rfl⟩
    simp [hactive, hlane] at hmem
  refine ⟨table, hrun, by decide, ?_, by simp [hcancelling], hnone, ?_⟩
  · simp [oneCreditQuery, cancelQuery, cancelResponse, PendingAction.UnaryControl]
  · intro haccounted
    exact hnone ((haccounted.cancelling "1-7").mp (by simp [hcancelling]))

end Chat2DB.Supervisor
