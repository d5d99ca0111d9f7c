import Chat2DB.Supervisor.StreamRoom

/-! # Delivery of the events of a stream

Every operation of the table keeps the room of the streams. All but the refusal
of a response also keep that an open channel is attended or ended.
-/

namespace Chat2DB.Supervisor

variable {other : List PendingRequest} {credits capacity : Nat}

namespace PendingRequests

variable {config : EngineConfig} {codec : Wire.Codec} {table next : PendingRequests}
  {request : PendingRequest} {requestId : String}

/-- Every stream has a channel of its own with room in it. -/
def Housed (table : PendingRequests) : Prop := Supervisor.Housed table.active table.channels

/-- Every stream is in the table, is ended or has lost its consumer. -/
def Attended (table : PendingRequests) : Prop := Supervisor.Attended table.active table.channels

/-- A step that keeps both. -/
structure Keeps (table next : PendingRequests) : Prop where
  housed : table.Housed → next.Housed
  attended : table.Housed → table.Attended → next.Attended

theorem Keeps.trans {last : PendingRequests} (hfirst : table.Keeps next) (hnext : next.Keeps last) :
    table.Keeps last where
  housed := fun hhoused => hnext.housed (hfirst.housed hhoused)
  attended := fun hhoused hattended =>
    hnext.attended (hfirst.housed hhoused) (hfirst.attended hhoused hattended)

theorem keeps_of_both (hboth : table.Housed → next.Housed ∧ (table.Attended → next.Attended)) :
    table.Keeps next :=
  ⟨fun hhoused => (hboth hhoused).1, fun hhoused => (hboth hhoused).2⟩

theorem keeps_of_same (hactive : next.active = table.active)
    (hchannels : next.channels = table.channels) : table.Keeps next := by
  constructor
  · intro hhoused
    unfold Housed
    rw [hactive, hchannels]
    exact hhoused
  · intro _ hattended
    unfold Attended
    rw [hactive, hchannels]
    exact hattended

@[simp]
theorem countDown_active (lane : PendingLane) : (table.countDown lane).active = table.active := by
  unfold countDown
  split <;> rfl

@[simp]
theorem countDown_channels (lane : PendingLane) :
    (table.countDown lane).channels = table.channels := by
  unfold countDown
  split <;> rfl

@[simp]
theorem countUp_active (lane : PendingLane) : (table.countUp lane).active = table.active := by
  unfold countUp
  split <;> rfl

@[simp]
theorem countUp_channels (lane : PendingLane) : (table.countUp lane).channels = table.channels := by
  unfold countUp
  split <;> rfl

@[simp]
theorem remove_active : (table.remove request).active = table.others request.requestId := by
  simp [remove]

@[simp]
theorem remove_channels : (table.remove request).channels = table.channels := by
  simp [remove]

@[simp]
theorem restore_active :
    (table.restore request).active = table.others request.requestId ++ [request] := by
  simp [restore]

@[simp]
theorem restore_channels : (table.restore request).channels = table.channels := by
  simp [restore]

@[simp]
theorem fail_active {failure : PendingFailure} :
    (table.fail request failure).active = table.active := by
  unfold fail
  split <;> rfl

@[simp]
theorem fail_channels {failure : PendingFailure} :
    (table.fail request failure).channels = request.failIn table.channels failure := by
  unfold fail PendingRequest.failIn PendingRequest.streamPending
  split <;> simp_all [answer]

@[simp]
theorem mapStream_channels (change : StreamPending → StreamPending) :
    (table.mapStream requestId change).channels = table.channels := rfl

theorem perm_of_find (hhoused : table.Housed) (hfind : table.find requestId = some request) :
    table.active.Perm (request :: table.others requestId) :=
  hhoused.keyed.perm_cons_filter hfind

theorem requestId_of_find (hfind : table.find requestId = some request) :
    request.requestId = requestId :=
  (Rows.find_mem hfind).2

/-! ## Credits -/

/-- Credits that are given back leave a stream with more room. -/
theorem release_eases (credits : Nat) :
    request.Eases (request.mapStream (·.releaseReservedCredits credits)) := by
  unfold PendingRequest.mapStream
  cases hkind : request.kind with
  | unary => exact .refl request
  | stream stream =>
    have hstream : request.streamPending = some stream := by
      simp [PendingRequest.streamPending, hkind]
    refine ⟨rfl, ?_, ?_⟩
    · simp [PendingRequest.events, PendingRequest.streamPending, hkind,
        StreamPending.releaseReservedCredits]
    · intro channels hfits released hreleased
      obtain ⟨hcredits, hroom⟩ := hfits stream hstream
      obtain rfl := Option.some.inj hreleased
      refine ⟨Nat.le_trans (Nat.sub_le _ _) hcredits, ?_⟩
      intro number hevents
      obtain ⟨channel, hchannel, hneed⟩ := hroom number hevents
      refine ⟨channel, hchannel, Nat.le_trans ?_ hneed⟩
      exact Nat.add_le_add_right (Nat.sub_le _ _) _

theorem releaseReservedCredits_eased (credits : Nat) :
    Eased table.active (table.releaseReservedCredits requestId credits).active := by
  refine List.forall₂_map_right_iff.mpr (List.forall₂_same.mpr ?_)
  intro request _
  split_ifs
  · exact release_eases credits
  · exact .refl request

theorem rollbackControl_eased (table : PendingRequests) (lane : PendingLane) :
    Eased table.active (table.rollbackControl lane).active := by
  unfold rollbackControl
  split
  · exact releaseReservedCredits_eased _
  · exact .refl _
  · exact .refl _

@[simp]
theorem rollbackControl_channels (lane : PendingLane) :
    (table.rollbackControl lane).channels = table.channels := by
  unfold rollbackControl
  split <;> rfl

/-! ## Leaving -/

/-- What is left when a request is taken out and its control effect undone. -/
def leave (table : PendingRequests) (request : PendingRequest) : PendingRequests :=
  (table.remove request).rollbackControl request.lane

@[simp]
theorem leave_channels : (table.leave request).channels = table.channels := by
  simp [leave]

theorem eased_leave :
    Eased (request :: table.others request.requestId) (request :: (table.leave request).active) := by
  refine List.Forall₂.cons (.refl request) ?_
  have heased := rollbackControl_eased (table.remove request) request.lane
  rwa [remove_active] at heased

theorem housed_leave (hhoused : table.Housed) (hfind : table.find requestId = some request) :
    Supervisor.Housed (request :: (table.leave request).active) table.channels := by
  have hperm := perm_of_find hhoused hfind
  rw [← requestId_of_find hfind] at hperm
  exact (Supervisor.Housed.perm hhoused hperm).eased eased_leave

theorem attended_leave (hhoused : table.Housed) (hattended : table.Attended)
    (hfind : table.find requestId = some request) :
    Supervisor.Attended (request :: (table.leave request).active) table.channels := by
  have hperm := perm_of_find hhoused hfind
  rw [← requestId_of_find hfind] at hperm
  exact (Supervisor.Attended.perm hattended hperm).eased eased_leave

theorem keeps_leave_fail (failure : PendingFailure)
    (hfind : table.find requestId = some request) :
    table.Keeps ((table.leave request).fail request failure) where
  housed := by
    intro hhoused
    unfold Housed
    rw [fail_active, fail_channels, leave_channels]
    exact (housed_leave hhoused hfind).failIn
  attended := by
    intro hhoused hattended
    unfold Attended
    rw [fail_active, fail_channels, leave_channels]
    exact Attended.failIn (housed_leave hhoused hfind) (attended_leave hhoused hattended hfind)

theorem keeps_rejectWithFailure (failure : PendingFailure) :
    table.Keeps (table.rejectWithFailure requestId failure) := by
  unfold rejectWithFailure
  split
  · exact keeps_of_same rfl rfl
  · rename_i request hfind
    exact keeps_leave_fail failure hfind

theorem keeps_expireRequest : table.Keeps (table.expireRequest requestId).1 := by
  unfold expireRequest
  split
  · exact keeps_of_same rfl rfl
  · rename_i request hfind
    have hkeeps := keeps_leave_fail (.timeout requestId .unknown) hfind
    dsimp only
    split
    · exact hkeeps
    · exact hkeeps.trans (keeps_of_same rfl rfl)

theorem keeps_expire (order : List String) : table.Keeps (table.expire order).1 := by
  unfold expire
  generalize (none : Option String) = fatal
  induction order generalizing table fatal with
  | nil => exact keeps_of_same rfl rfl
  | cons requestId order ih =>
    rw [List.foldl_cons]
    exact keeps_expireRequest.trans (ih _)

theorem keeps_retire
    (hunary : ((table.find requestId).bind (·.streamPending)).isSome = false) :
    table.Keeps (table.retire requestId).1 := by
  unfold retire
  split
  · exact keeps_of_same rfl rfl
  · rename_i request hfind
    have hstream : request.streamPending = none := by simpa [hfind] using hunary
    have hkeeps : table.Keeps (table.leave request) := by
      constructor
      · intro hhoused
        unfold Housed
        rw [leave_channels]
        exact (housed_leave hhoused hfind).tail
      · intro hhoused hattended
        unfold Attended
        rw [leave_channels]
        refine Attended.tail (attended_leave hhoused hattended hfind) ?_
        intro number channel hevents
        simp [PendingRequest.events, hstream] at hevents
    dsimp only
    split
    · exact hkeeps
    · exact hkeeps.trans (keeps_of_same rfl rfl)

/-- Where every request fails, no stream is left without an end. -/
theorem keeps_failAll (message : String) : table.Keeps (table.failAll message) := by
  have hfold : ∀ (active : List PendingRequest) (failed : PendingRequests),
      Supervisor.Housed active failed.channels →
        Supervisor.Housed [] (active.foldl (fun failed request =>
          failed.fail request (.unavailable message .unknown)) failed).channels ∧
        (Supervisor.Attended active failed.channels →
          Supervisor.Attended [] (active.foldl (fun failed request =>
            failed.fail request (.unavailable message .unknown)) failed).channels) := by
    intro active
    induction active with
    | nil => exact fun failed hhoused => ⟨hhoused, id⟩
    | cons request active ih =>
      intro failed hhoused
      have hnext : Supervisor.Housed active
          (failed.fail request (.unavailable message .unknown)).channels := by
        rw [fail_channels]
        exact hhoused.failIn
      refine ⟨(ih _ hnext).1, fun hattended => (ih _ hnext).2 ?_⟩
      rw [fail_channels]
      exact Attended.failIn hhoused hattended
  exact ⟨fun hhoused => (hfold _ table hhoused).1, fun hhoused => (hfold _ table hhoused).2⟩

/-! ## Entering -/

/-- The same requests, with the same channels. -/
def SameSeats (active other : List PendingRequest) : Prop :=
  (other.map PendingRequest.requestId).Perm (active.map PendingRequest.requestId) ∧
    (other.filterMap PendingRequest.events).Perm (active.filterMap PendingRequest.events)

theorem SameSeats.attended {active : List PendingRequest}
    {channels : List (Channel StreamItem)} (hsame : SameSeats active other)
    (hattended : Supervisor.Attended active channels) : Supervisor.Attended other channels := by
  intro number channel hchannel hopen
  rcases hattended number channel hchannel hopen with ⟨request, hrequest, hevents⟩ | hended
  · have hmem : number ∈ active.filterMap PendingRequest.events :=
      List.mem_filterMap.mpr ⟨request, hrequest, hevents⟩
    obtain ⟨found, hfound, hnumber⟩ := List.mem_filterMap.mp (hsame.2.mem_iff.mpr hmem)
    exact .inl ⟨found, hfound, hnumber⟩
  · exact .inr hended

theorem SameSeats.fresh {active : List PendingRequest} (hsame : SameSeats active other)
    (hfresh : ∀ request ∈ active, request.requestId ≠ requestId) :
    ∀ request ∈ other, request.requestId ≠ requestId := by
  intro request hrequest heq
  have hmem := hsame.1.mem_iff.mp (List.mem_map.mpr ⟨request, hrequest, heq⟩)
  obtain ⟨found, hfound, hid⟩ := List.mem_map.mp hmem
  exact hfresh found hfound hid

theorem reserveCredits_ok {stream reserved : StreamPending} {free : Nat}
    (hreserve : stream.reserveCredits free credits = .ok reserved) :
    reserved.events = stream.events ∧ reserved.outstandingCredits ≤ maxOutstandingCredits ∧
      reserved.need ≤ free := by
  simp only [StreamPending.reserveCredits, Outcome.bind_eq_ok, Outcome.rejectIf_eq_ok,
    Outcome.pure_eq_ok, exists_const] at hreserve
  obtain ⟨hpositive, -, -, havailable, -, hlimit, rfl⟩ := hreserve
  refine ⟨rfl, Nat.not_lt.mp hlimit, ?_⟩
  simp only [StreamPending.need, StreamPending.reservedNonBatch] at havailable ⊢
  omega

theorem sameSeats_of_perm {active rest : List PendingRequest} {old new : PendingRequest}
    (hactive : active.Perm (old :: rest)) (hother : other.Perm (new :: rest))
    (hid : new.requestId = old.requestId) (hevents : new.events = old.events) :
    SameSeats active other := by
  constructor
  · refine (hother.map _).trans (List.Perm.trans ?_ (hactive.map _).symm)
    rw [List.map_cons, List.map_cons, hid]
  · refine (hother.filterMap _).trans (List.Perm.trans ?_ (hactive.filterMap _).symm)
    rw [List.filterMap_cons, List.filterMap_cons, hevents]

theorem mapStream_perm (change : StreamPending → StreamPending) (hhoused : table.Housed)
    (hfind : table.find requestId = some request) :
    (table.mapStream requestId change).active.Perm
      (request.mapStream change :: table.others requestId) :=
  hhoused.keyed.update_perm hfind

theorem mapStream_of_some {stream : StreamPending} (change : StreamPending → StreamPending)
    (hstream : request.streamPending = some stream) :
    (request.mapStream change).requestId = request.requestId ∧
      (request.mapStream change).streamPending = some (change stream) := by
  unfold PendingRequest.streamPending PendingRequest.mapStream at *
  cases hkind : request.kind with
  | unary => simp [hkind] at hstream
  | stream other =>
    obtain rfl : other = stream := by simpa [hkind] using hstream
    exact ⟨rfl, rfl⟩

/-- What an accepted control effect does: credits are reserved on a stream that is
found, or its cancellation is put down. -/
inductive Controls (table : PendingRequests) : ControlEffect → PendingRequests → Prop
  | grantCredits {targetId credits target stream reserved}
      (found : table.find targetId = some target) (pending : target.streamPending = some stream)
      (reserves : stream.reserveCredits (table.freeOf stream) credits = .ok reserved) :
      Controls table (.grantCredits targetId credits) (table.mapStream targetId fun _ => reserved)
  | cancel {targetId} (fresh : targetId ∉ table.cancellingTargets) :
      Controls table (.cancel targetId)
        { table with cancellingTargets := table.cancellingTargets ++ [targetId] }

theorem controls_of_prepareControl {effect : ControlEffect} {sessionId : Option String}
    (hprepare : table.prepareControl effect sessionId = .ok next) : table.Controls effect next := by
  simp only [prepareControl, Outcome.bind_eq_ok, Outcome.orThrow_eq_ok, Outcome.rejectIf_eq_ok,
    exists_const] at hprepare
  obtain ⟨target, hfind, -, stream, hstream, hprepare⟩ := hprepare
  cases effect with
  | grantCredits targetId credits =>
    simp only [Outcome.bind_eq_ok, Outcome.rejectIf_eq_ok, Outcome.pure_eq_ok,
      exists_const] at hprepare
    obtain ⟨-, reserved, hreserve, rfl⟩ := hprepare
    exact .grantCredits hfind hstream hreserve
  | cancel targetId =>
    simp only [Outcome.bind_eq_ok, Outcome.rejectIf_eq_ok, Outcome.pure_eq_ok,
      exists_const] at hprepare
    obtain ⟨hfresh, rfl⟩ := hprepare
    exact .cancel hfresh

/-- A control effect moves no stream to another channel, and its credits have room. -/
theorem prepareControl_ok {effect : ControlEffect} {sessionId : Option String}
    (hhoused : table.Housed) (hprepare : table.prepareControl effect sessionId = .ok next) :
    next.Housed ∧ next.channels = table.channels ∧ SameSeats table.active next.active := by
  cases controls_of_prepareControl hprepare with
  | @grantCredits targetId credits target stream reserved hfind hstream hreserve =>
    obtain ⟨hevents, hlimit, hneed⟩ := reserveCredits_ok hreserve
    obtain ⟨hid, hreserved⟩ := mapStream_of_some (fun _ => reserved) hstream
    have hactive := perm_of_find hhoused hfind
    have hchanged := mapStream_perm (fun _ => reserved) hhoused hfind
    have hseat : (target.mapStream fun _ => reserved).events = target.events := by
      simp [PendingRequest.events, hreserved, hstream, hevents]
    have hold := Supervisor.Housed.perm hhoused hactive
    refine ⟨Supervisor.Housed.perm ?_ hchanged.symm, rfl,
      sameSeats_of_perm hactive hchanged hid hseat⟩
    refine hold.tail.cons ?_ ?_ ?_
    · intro other hother
      rw [hid, requestId_of_find hfind]
      simpa using (List.mem_filter.mp hother).2
    · intro number hnumber
      exact hold.alone (hseat.symm.trans hnumber)
    · intro found hfound
      obtain rfl := Option.some.inj (hreserved.symm.trans hfound)
      refine ⟨hlimit, fun number hnumber => ?_⟩
      have hfits := hold.fits target List.mem_cons_self stream hstream
      obtain ⟨channel, hchannel, -⟩ := hfits.2 number (hevents.symm.trans hnumber)
      refine ⟨channel, hchannel, ?_⟩
      simpa [freeOf, hevents.symm.trans hnumber, hchannel] using hneed
  | cancel =>
    exact ⟨hhoused, rfl, .refl _, .refl _⟩

/-- A request is refused with its control effect prepared, or it is in the table. -/
theorem insert_cases (requestId traceId : String) (sessionId : Option String) (sink : PendingSink)
    (deadline : Nat) (lane : PendingLane) (hhoused : table.Housed) :
    ∃ prepared : PendingRequests, prepared.Housed ∧ prepared.channels = table.channels ∧
      SameSeats table.active prepared.active ∧
        ((∃ failure, table.insert requestId traceId sessionId sink deadline lane =
            (prepared, .error failure)) ∨
          validateStreamRegistration sink sessionId = .ok () ∧
            table.insert requestId traceId sessionId sink deadline lane =
              (prepared.restore
                { requestId, traceId, sessionId, kind := kindOf sink, deadline, lane }, .ok ())) := by
  have hsame : SameSeats table.active table.active := ⟨.refl _, .refl _⟩
  unfold insert
  extract_lets prepared
  cases hprepared : prepared with
  | error failure => exact ⟨table, hhoused, rfl, hsame, .inl ⟨failure, rfl⟩⟩
  | ok next =>
    have hnext : next.Housed ∧ next.channels = table.channels ∧
        SameSeats table.active next.active := by
      cases lane with
      | control effect => exact prepareControl_ok hhoused hprepared
      | _ =>
        obtain rfl := Except.ok.inj hprepared
        exact ⟨hhoused, rfl, hsame⟩
    refine ⟨next, hnext.1, hnext.2.1, hnext.2.2, ?_⟩
    cases hvalid : validateStreamRegistration sink sessionId with
    | error failure => exact .inl ⟨failure, rfl⟩
    | ok _ => exact .inr ⟨rfl, rfl⟩

theorem others_of_fresh (hfresh : ∀ other ∈ table.active, other.requestId ≠ requestId) :
    table.others requestId = table.active := by
  unfold others
  rw [List.filter_eq_self]
  intro other hother
  simpa using hfresh other hother

theorem housed_restore (hhoused : table.Housed)
    (hfresh : ∀ other ∈ table.active, other.requestId ≠ request.requestId)
    (halone : ∀ number, request.events = some number →
      ∀ other ∈ table.active, other.events ≠ some number)
    (hfits : request.Fits table.channels) : (table.restore request).Housed := by
  unfold Housed
  rw [restore_active, restore_channels, others_of_fresh hfresh]
  refine Supervisor.Housed.perm ?_ List.perm_append_comm
  exact Supervisor.Housed.cons hhoused hfresh halone hfits

theorem attended_of_cons
    (hfresh : ∀ other ∈ table.active, other.requestId ≠ request.requestId)
    (hattended : Supervisor.Attended (request :: table.active) table.channels) :
    (table.restore request).Attended := by
  unfold Attended
  rw [restore_active, restore_channels, others_of_fresh hfresh]
  exact hattended.perm (List.perm_append_singleton request table.active).symm

/-! ### The sink -/

variable {channels : List (Channel StreamItem)} {active : List PendingRequest}
  {channel : Channel StreamItem} {number : Nat}

theorem housed_append (hhoused : Supervisor.Housed active channels) :
    Supervisor.Housed active (channels ++ [channel]) where
  keyed := hhoused.keyed
  apart := hhoused.apart
  fits := by
    intro request hrequest stream hstream
    refine ⟨(hhoused.fits request hrequest stream hstream).1, fun number hevents => ?_⟩
    obtain ⟨found, hfound, hneed⟩ := (hhoused.fits request hrequest stream hstream).2 number hevents
    refine ⟨found, ?_, hneed⟩
    rw [List.getElem?_append_left (List.getElem?_eq_some_iff.mp hfound).1]
    exact hfound

theorem events_lt (hhoused : Supervisor.Housed active channels) (hrequest : request ∈ active)
    (hevents : request.events = some number) : number < channels.length := by
  obtain ⟨stream, hstream, hnumber⟩ := PendingRequest.events_eq_some_iff.mp hevents
  obtain ⟨found, hfound, -⟩ := (hhoused.fits request hrequest stream hstream).2 number hnumber
  exact (List.getElem?_eq_some_iff.mp hfound).1

theorem attended_append (hattended : Supervisor.Attended active channels)
    (hchannel : channel.closed = false →
      (∃ request ∈ active, request.events = some channels.length) ∨ Ended channel) :
    Supervisor.Attended active (channels ++ [channel]) := by
  intro number found hfound hopen
  by_cases hbound : number < channels.length
  · rw [List.getElem?_append_left hbound] at hfound
    exact hattended number found hfound hopen
  · rw [List.getElem?_append_right (Nat.not_lt.mp hbound)] at hfound
    obtain ⟨hindex, rfl⟩ : number - channels.length = 0 ∧ found = channel := by
      simpa [List.getElem?_singleton, eq_comm] using hfound
    obtain rfl : number = channels.length := by omega
    exact hchannel hopen

variable {traceId : String} {sessionId : Option String} {deadline : Nat} {lane : PendingLane}

theorem keeps_acceptUnary (hfresh : ∀ other ∈ table.active, other.requestId ≠ requestId) :
    table.Keeps (table.acceptRequest config requestId traceId sessionId none deadline lane) := by
  apply keeps_of_both
  intro hhoused
  obtain ⟨prepared, hprepared, hchannels, hsame, hinsert⟩ :=
    insert_cases requestId traceId sessionId .unary deadline lane hhoused
  unfold acceptRequest openSink
  rcases hinsert with ⟨failure, hinsert⟩ | ⟨-, hinsert⟩
  · simp only [hinsert]
    refine ⟨hprepared, fun hattended => ?_⟩
    have hseated := hsame.attended hattended
    rwa [← hchannels] at hseated
  · simp only [hinsert]
    have hnew := hsame.fresh hfresh
    refine ⟨housed_restore hprepared hnew ?_ ?_, fun hattended => ?_⟩
    · intro number hevents
      simp [PendingRequest.events, PendingRequest.streamPending, kindOf] at hevents
    · intro stream hstream
      simp [PendingRequest.streamPending, kindOf] at hstream
    · have hseated := hsame.attended hattended
      rw [← hchannels] at hseated
      exact attended_of_cons hnew (hseated.cons _)

theorem fits_of_registration {events : Nat} {budgets : QueryBudgets} (hcapacity : 2 ≤ capacity)
    (hvalid : validateStreamRegistration (.stream events capacity credits budgets) sessionId =
      .ok ()) (hkind : request.kind = kindOf (.stream events capacity credits budgets))
    (hchannel : channels[events]? = some (.new capacity)) : request.Fits channels := by
  simp only [validateStreamRegistration, Outcome.bind_eq_ok, Outcome.rejectIf_eq_ok,
    exists_const] at hvalid
  obtain ⟨-, -, -, hslots, hgrant⟩ := hvalid
  intro stream hstream
  obtain rfl : _ = stream := by simpa [PendingRequest.streamPending, hkind, kindOf] using hstream
  refine ⟨?_, fun number hnumber => ?_⟩
  · simp only [maxOutstandingCredits, maxCreditGrant] at hgrant ⊢
    omega
  · obtain rfl := Option.some.inj hnumber
    refine ⟨_, hchannel, ?_⟩
    simp only [StreamPending.need, StreamPending.reservedNonBatch, Channel.free_new,
      Bool.false_eq_true, if_false]
    omega

/-- A query that is accepted gets a channel of its own. -/
theorem keeps_acceptQuery {budgets : QueryBudgets}
    (hfresh : ∀ other ∈ table.active, other.requestId ≠ requestId) :
    table.Keeps
      (table.acceptRequest config requestId traceId sessionId (some (credits, budgets)) deadline
        lane) := by
  apply keeps_of_both
  intro hhoused
  have hcapacity := config.valid
  have hopened : PendingRequests.Housed { table with
      channels := table.channels ++ [.new config.streamEventCapacity] } := housed_append hhoused
  obtain ⟨prepared, hprepared, hchannels, hsame, hinsert⟩ := insert_cases requestId traceId sessionId
    (.stream table.channels.length config.streamEventCapacity credits budgets) deadline lane hopened
  have hlast : prepared.channels[table.channels.length]? =
      some (.new config.streamEventCapacity) := by
    simp [hchannels]
  -- The new channel is nobody's yet.
  have hunused : ∀ other ∈ prepared.active, other.events ≠ some table.channels.length := by
    intro other hother hevents
    have hmem := hsame.2.mem_iff.mp (List.mem_filterMap.mpr ⟨other, hother, hevents⟩)
    obtain ⟨found, hfound, hnumber⟩ := List.mem_filterMap.mp hmem
    exact Nat.lt_irrefl _ (events_lt hhoused hfound hnumber)
  unfold acceptRequest openSink
  rcases hinsert with ⟨failure, hinsert⟩ | ⟨hvalid, hinsert⟩
  · obtain ⟨sent, hsend⟩ : ∃ sent, (Channel.new config.streamEventCapacity).trySend
        (Except.error failure : StreamItem) = .ok sent := by
      apply Channel.trySend_of_free
      · rfl
      · rw [Channel.free_new]
        omega
    simp only [hinsert, failSink, hlast, hsend]
    refine ⟨Supervisor.Housed.set hprepared hlast ?_, fun hattended => ?_⟩
    · intro other hother hevents
      exact absurd hevents (hunused other hother)
    · have hset : prepared.channels.set table.channels.length sent = table.channels ++ [sent] := by
        simp [hchannels]
      unfold Attended
      rw [hset]
      exact attended_append (hsame.attended hattended) fun _ =>
        .inr (ended_of_trySend (show Terminal (.error failure) from trivial) hsend)
  · simp only [hinsert]
    have hnew := hsame.fresh hfresh
    refine ⟨housed_restore hprepared hnew ?_ ?_, fun hattended => ?_⟩
    · intro number hnumber
      obtain rfl : table.channels.length = number := by
        simpa [PendingRequest.events, PendingRequest.streamPending, kindOf] using hnumber
      exact hunused
    · exact fits_of_registration hcapacity hvalid rfl hlast
    · apply attended_of_cons hnew
      rw [hchannels]
      refine attended_append ((hsame.attended hattended).cons _) fun _ => ?_
      exact .inl ⟨_, List.mem_cons_self, rfl⟩

/-! ## The consumer -/

theorem keeps_receive {taken : Channel StreamItem} (hchannel : table.channels[number]? = some channel)
    (hrecv : channel.recv = some taken) : table.Keeps (table.setChannel number taken) := by
  obtain ⟨hsent, hclosed, hfree⟩ := Channel.recv_some hrecv
  constructor
  · intro hhoused
    apply Supervisor.Housed.set hhoused hchannel
    intro _ _ _
    omega
  · intro _ hattended
    apply Supervisor.Attended.set hattended hchannel
    intro hopen
    rcases hattended number channel hchannel (hclosed.symm.trans hopen) with hattends | hended
    · exact .inl hattends
    · obtain ⟨item, hlast, hterminal⟩ := hended
      exact .inr ⟨item, hsent ▸ hlast, hterminal⟩

theorem keeps_close (hchannel : table.channels[number]? = some channel) :
    table.Keeps (table.setChannel number channel.close) := by
  constructor
  · intro hhoused
    apply Supervisor.Housed.set hhoused hchannel
    intro _ _ _
    exact Channel.free_le_close
  · intro _ hattended
    apply Supervisor.Attended.set hattended hchannel
    intro hopen
    rw [Channel.close_closed] at hopen
    cases hopen

/-- A stream without a consumer leaves its channel. -/
theorem keeps_desert {stream : StreamPending} {change : StreamPending → StreamPending}
    (hfind : table.find requestId = some request) (hstream : request.streamPending = some stream)
    (hdeserted : stream.Deserted table.channels) (hevents : (change stream).events = none)
    (hcredits : (change stream).outstandingCredits ≤ stream.outstandingCredits) :
    table.Keeps (table.mapStream requestId change) := by
  apply keeps_of_both
  intro hhoused
  obtain ⟨hid, hchanged⟩ := mapStream_of_some change hstream
  have hactive := perm_of_find hhoused hfind
  have hperm := mapStream_perm change hhoused hfind
  have hold := Supervisor.Housed.perm hhoused hactive
  refine ⟨Supervisor.Housed.perm (hold.tail.cons ?_ ?_ ?_) hperm.symm, fun hattended => ?_⟩
  · intro other hother
    rw [hid, requestId_of_find hfind]
    simpa using (List.mem_filter.mp hother).2
  · intro number hnumber
    simp [PendingRequest.events, hchanged, hevents] at hnumber
  · intro found hfound
    obtain rfl := Option.some.inj (hchanged.symm.trans hfound)
    have hfits := hold.fits request List.mem_cons_self stream hstream
    refine ⟨Nat.le_trans hcredits hfits.1, fun number hnumber => ?_⟩
    rw [hevents] at hnumber
    cases hnumber
  · refine Supervisor.Attended.perm ?_ hperm.symm
    have hrest := (Supervisor.Attended.perm hattended hactive).desert
      (events_of_stream hstream) hdeserted
    exact hrest.cons _

theorem closeEvents_active : (table.closeEvents requestId).active = table.active := by
  unfold closeEvents
  split
  · rfl
  · split <;> rfl

theorem closeEvents_find {other : String} :
    (table.closeEvents requestId).find other = table.find other := by
  unfold find
  rw [closeEvents_active]

theorem keeps_closeEvents (requestId : String) : table.Keeps (table.closeEvents requestId) := by
  unfold closeEvents
  split
  · exact keeps_of_same rfl rfl
  · split
    · exact keeps_of_same rfl rfl
    · rename_i number _ channel hchannel
      exact keeps_close hchannel

theorem deserted_closeEvents {stream : StreamPending} (hhoused : table.Housed)
    (hfind : table.find requestId = some request) (hstream : request.streamPending = some stream) :
    stream.Deserted (table.closeEvents requestId).channels := by
  intro number hevents
  obtain ⟨channel, hchannel, -⟩ :=
    (hhoused.fits request (Rows.find_mem hfind).1 stream hstream).2 number hevents
  have hbound : number < table.channels.length := (List.getElem?_eq_some_iff.mp hchannel).1
  refine ⟨channel.close, ?_, Channel.close_closed⟩
  have hnumber : (table.find requestId).bind (·.events) = some number := by
    simp [hfind, PendingRequest.events, hstream, hevents]
  simp only [closeEvents, hnumber, hchannel, setChannel, List.getElem?_set_self hbound]

/-- A stream that is abandoned has lost its consumer. -/
theorem keeps_abandon (sessionId : String) :
    table.Keeps ((table.closeEvents requestId).abandonStream requestId sessionId) := by
  apply keeps_of_both
  intro hhoused
  have hclose : table.Keeps (table.closeEvents requestId) := keeps_closeEvents requestId
  have hclosed := hclose.housed hhoused
  suffices habandon : (table.closeEvents requestId).Keeps
      ((table.closeEvents requestId).abandonStream requestId sessionId) from
    ⟨habandon.housed hclosed,
      fun hattended => habandon.attended hclosed (hclose.attended hhoused hattended)⟩
  unfold abandonStream
  split
  · exact keeps_of_same rfl rfl
  · rename_i request hfind
    split
    · exact keeps_of_same rfl rfl
    · have hbefore := hfind
      rw [closeEvents_find] at hbefore
      cases hstream : request.streamPending with
      | some stream =>
        exact keeps_desert hfind hstream (deserted_closeEvents hhoused hbefore hstream) rfl
          (Nat.le_refl _)
      | none =>
        -- A unary request is rewritten to itself.
        have hself : ∀ change, request.mapStream change = request := by
          intro change
          unfold PendingRequest.mapStream
          split
          · simp_all [PendingRequest.streamPending]
          · rfl
        apply keeps_of_both
        intro hafter
        have hperm := mapStream_perm
          (fun stream => { stream with abandoned := true, events := none }) hafter hfind
        rw [hself] at hperm
        have hsame := (perm_of_find hafter hfind).trans hperm.symm
        exact ⟨Supervisor.Housed.perm hafter hsame,
          fun hattended => Supervisor.Attended.perm hattended hsame⟩

/-! ## Responses -/

theorem applyLaneResponse_cases {lane : PendingLane} {payload : Wire.Payload}
    (happlied : table.applyLaneResponse lane payload = .ok next) :
    (∃ target credits unused, lane = .control (.grantCredits target credits) ∧
        next = table.releaseReservedCredits target unused) ∨
      (∃ target, lane = .control (.cancel target) ∧
        next = { table with
          cancellingTargets := table.cancellingTargets.filter (· ≠ target) }) ∨
      ((∀ effect, lane ≠ .control effect) ∧ next = table) := by
  unfold applyLaneResponse at happlied
  split at happlied
  · rename_i target credits
    split at happlied
    · split_ifs at happlied
      exact .inl ⟨target, credits, _, rfl, (Except.ok.inj happlied).symm⟩
    · exact .inl ⟨target, credits, _, rfl, (Except.ok.inj happlied).symm⟩
    · cases happlied
  · rename_i target
    split at happlied
    · exact .inr (.inl ⟨target, rfl, (Except.ok.inj happlied).symm⟩)
    · exact .inr (.inl ⟨target, rfl, (Except.ok.inj happlied).symm⟩)
    · cases happlied
  · obtain ⟨_, -, happlied⟩ := (Outcome.bind_eq_ok _ _ _).mp happlied
    exact .inr (.inr ⟨by simp, ((Outcome.pure_eq_ok _ _).mp happlied).symm⟩)
  all_goals exact .inr (.inr ⟨by simp, (Except.ok.inj happlied).symm⟩)

theorem routeUnary_eased {metadata : Wire.ResponseMeta} {payload : Wire.Payload}
    (hroute : table.routeUnary request metadata payload = .ok next) :
    Eased table.active next.active ∧ next.channels = table.channels := by
  simp only [routeUnary, Outcome.bind_eq_ok, Outcome.rejectIf_eq_ok, exists_const] at hroute
  obtain ⟨-, -, hroute⟩ := hroute
  split at hroute
  · rename_i applied happlied
    obtain rfl := (Outcome.pure_eq_ok _ _).mp hroute
    obtain ⟨_, _, _, -, rfl⟩ | ⟨_, -, rfl⟩ | ⟨-, rfl⟩ := applyLaneResponse_cases happlied
    · exact ⟨releaseReservedCredits_eased _, rfl⟩
    · exact ⟨.refl _, rfl⟩
    · exact ⟨.refl _, rfl⟩
  · split_ifs at hroute
    obtain rfl := (Outcome.pure_eq_ok _ _).mp hroute
    exact ⟨.refl _, rfl⟩

section Stream

variable {stream after : StreamPending} {metadata : Wire.ResponseMeta} {payload : Wire.Payload}
  {changed : List (Channel StreamItem)} {terminal : Bool}

theorem fits_of_accepts {accepted : StreamPending} {item : StreamItem} (hfits : stream.Fits channels)
    (haccepts : stream.advance.Accepts codec metadata payload accepted item terminal) :
    accepted.Fits channels := by
  cases terminal with
  | false =>
    obtain ⟨hevents, hcredits, hneed, -⟩ := haccepts.spends
    refine ⟨Nat.le_trans hcredits hfits.1, fun number hnumber => ?_⟩
    obtain ⟨channel, hchannel, hroom⟩ := hfits.2 number (hevents.symm.trans hnumber)
    have hsame : stream.advance.need = stream.need := rfl
    exact ⟨channel, hchannel, by omega⟩
  | true =>
    obtain ⟨rfl, -⟩ := haccepts.terminal
    exact hfits

/-- What a stream accepts is sent, unless its receiver is gone. -/
theorem route_of_accept {accepted : StreamPending} {item : StreamItem} (hfits : stream.Fits channels)
    (haccept : stream.accept codec metadata payload = .ok (accepted, item, terminal)) :
    ∃ after changed, stream.route codec channels metadata payload = .ok (after, changed, terminal) ∧
      accepted.Sent channels item changed ∧
        (after = accepted ∨ (changed = channels ∧ after.events = none ∧
          accepted.Deserted channels ∧
            after.outstandingCredits = accepted.outstandingCredits)) := by
  obtain ⟨-, -, haccepts⟩ := StreamPending.accept_eq_ok_iff.mp haccept
  have haccepted := fits_of_accepts hfits haccepts
  unfold StreamPending.route
  rw [haccept]
  cases item with
  | ok event =>
    obtain ⟨after, changed, hemit, hsent, hafter⟩ := StreamPending.emit_of_fits event haccepted
    refine ⟨after, changed, ?_, hsent, hafter⟩
    simp only [bind, Except.bind, hemit]
    rfl
  | error failure =>
    exact ⟨accepted, _, rfl, StreamPending.emitFailure_of_fits failure haccepted, .inl rfl⟩

theorem route_ok (hfits : stream.Fits channels)
    (hroute : stream.route codec channels metadata payload = .ok (after, changed, terminal)) :
    ∃ item accepted, stream.advance.Accepts codec metadata payload accepted item terminal ∧
      accepted.Sent channels item changed ∧
        (after = accepted ∨ (changed = channels ∧ after.events = none ∧
          accepted.Deserted channels ∧
            after.outstandingCredits = accepted.outstandingCredits)) := by
  obtain ⟨⟨accepted, item, last⟩, haccept, -⟩ := (Outcome.bind_eq_ok _ _ _).mp hroute
  obtain ⟨_, _, hrouted, hsent, hafter⟩ := route_of_accept hfits haccept
  cases hroute.symm.trans hrouted
  exact ⟨item, accepted, (StreamPending.accept_eq_ok_iff.mp haccept).2.2, hsent, hafter⟩

theorem route_ne_channelFull (hfits : stream.Fits channels) :
    stream.route codec channels metadata payload ≠ .error (.channelFull capacity) := by
  cases haccept : stream.accept codec metadata payload with
  | ok accepted =>
    obtain ⟨after, changed, hroute, -⟩ := route_of_accept hfits haccept
    rw [hroute]
    simp
  | error violation =>
    intro hroute
    unfold StreamPending.route at hroute
    rw [haccept] at hroute
    exact StreamPending.accept_ne_channelFull
      (haccept.trans (congrArg Except.error (Except.error.inj hroute)))

/-- A response leaves the other streams their room, and its own stream too. -/
theorem housed_routeStream (hhoused : Supervisor.Housed (request :: table.active) table.channels)
    (hstream : request.streamPending = some stream)
    (hroute : table.routeStream codec request stream metadata payload = .ok next) :
    next.Housed ∧ (Supervisor.Attended (request :: table.active) table.channels →
      next.Attended) := by
  have hfits := hhoused.fits request List.mem_cons_self stream hstream
  have hseat := events_of_stream hstream
  unfold routeStream at hroute
  split at hroute
  · cases hroute
  · rename_i after changed terminal hrouted
    obtain ⟨item, accepted, haccepts, hsent, hafter⟩ := route_ok hfits hrouted
    cases terminal with
    | true =>
      obtain ⟨rfl, hterminal⟩ := haccepts.terminal
      obtain rfl := Except.ok.inj hroute
      have hstay : request.events = stream.advance.events := hseat
      exact ⟨hhoused.sent hstay hsent, fun hattended => hattended.sent hstay hsent hterminal⟩
    | false =>
      obtain ⟨hevents, hcredits, hneed, -⟩ := haccepts.spends
      have hstay : request.events = accepted.events := hseat.trans hevents.symm
      have hfresh : ∀ other ∈ table.active, other.requestId ≠ request.requestId := by
        intro other hother heq
        exact (List.nodup_cons.mp hhoused.keyed).1 (List.mem_map.mpr ⟨other, hother, heq⟩)
      obtain rfl := Except.ok.inj hroute
      have hrest := hhoused.sent hstay hsent
      rcases hafter with rfl | ⟨rfl, hgone, hdeserted, hsame⟩
      · refine ⟨housed_restore hrest hfresh ?_ ?_, fun hattended => ?_⟩
        · intro number hnumber
          exact hhoused.alone (hstay.trans hnumber)
        · intro found hfound
          obtain rfl := Option.some.inj hfound
          exact hfits.sent hevents hcredits hneed hsent
        · exact attended_of_cons hfresh (hattended.stays hstay rfl hsent)
      · refine ⟨housed_restore hrest hfresh ?_ ?_, fun hattended => ?_⟩
        · intro number hnumber
          exact absurd (hgone.symm.trans hnumber) (by simp)
        · intro found hfound
          obtain rfl := Option.some.inj hfound
          refine ⟨?_, fun number hnumber => absurd (hgone.symm.trans hnumber) (by simp)⟩
          exact Nat.le_trans (Nat.le_trans (Nat.le_of_eq hsame) hcredits) hfits.1
        · exact attended_of_cons hfresh ((hattended.desert hstay hdeserted).cons _)

end Stream

theorem housed_found (hhoused : table.Housed) (hfind : table.find requestId = some request) :
    Supervisor.Housed (request :: (table.remove request).active) (table.remove request).channels := by
  rw [remove_active, remove_channels, requestId_of_find hfind]
  exact Supervisor.Housed.perm hhoused (perm_of_find hhoused hfind)

theorem attended_found (hhoused : table.Housed) (hattended : table.Attended)
    (hfind : table.find requestId = some request) :
    Supervisor.Attended (request :: (table.remove request).active)
      (table.remove request).channels := by
  rw [remove_active, remove_channels, requestId_of_find hfind]
  exact Supervisor.Attended.perm hattended (perm_of_find hhoused hfind)

theorem routeRequest_ok {metadata : Wire.ResponseMeta} {payload : Option Wire.Payload}
    (hhoused : Supervisor.Housed (request :: table.active) table.channels)
    (hroute : table.routeRequest codec request metadata payload = .ok next) :
    next.Housed ∧ (Supervisor.Attended (request :: table.active) table.channels →
      next.Attended) := by
  simp only [routeRequest, Outcome.bind_eq_ok, Outcome.rejectIf_eq_ok, exists_const] at hroute
  obtain ⟨-, payload, -, _, -, hroute⟩ := hroute
  cases hkind : request.kind with
  | unary =>
    rw [hkind] at hroute
    obtain ⟨heased, hchannels⟩ := routeUnary_eased hroute
    unfold Housed Attended
    rw [hchannels]
    refine ⟨hhoused.tail.eased heased, fun hattended => ?_⟩
    refine Supervisor.Attended.eased (hattended.tail ?_) heased
    intro number channel hevents
    simp [PendingRequest.events, PendingRequest.streamPending, hkind] at hevents
  | stream stream =>
    rw [hkind] at hroute
    exact housed_routeStream hhoused (by simp [PendingRequest.streamPending, hkind]) hroute

theorem housed_routeResponse (response : Wire.ServerEnvelope) (hhoused : table.Housed) :
    (table.routeResponse codec response).1.Housed := by
  unfold routeResponse
  split
  · exact hhoused
  · split_ifs
    · exact hhoused
    · split
      · exact hhoused
      · rename_i metadata _ request hfind
        have hfound := housed_found hhoused hfind
        split
        · rename_i next hroute
          exact (routeRequest_ok hfound hroute).1
        · exact hfound.tail

/-- The response follows the protocol of the stream it is for, if its consumer is there. -/
def Conforms (codec : Wire.Codec) (table : PendingRequests) (response : Wire.ServerEnvelope) :
    Prop :=
  ∀ metadata ∈ response.responseMeta, ∀ request ∈ table.find metadata.requestId,
    ∀ stream ∈ request.streamPending, ¬ stream.Deserted table.channels →
      metadata.traceId = request.traceId ∧ ∃ payload ∈ response.payload,
        (∃ state, validateResponsePayload payload = .ok state) ∧
          stream.Follows codec metadata payload

theorem routeRequest_of_follows {metadata : Wire.ResponseMeta} {payload : Wire.Payload}
    {stream : StreamPending} {state : Option SessionState}
    (hfits : stream.Fits table.channels) (hstream : request.streamPending = some stream)
    (htrace : metadata.traceId = request.traceId)
    (hvalid : validateResponsePayload payload = .ok state)
    (hfollows : stream.Follows codec metadata payload) :
    ∃ next, table.routeRequest codec request metadata (some payload) = .ok next := by
  obtain ⟨accepted, item, terminal, haccept⟩ := StreamPending.accept_of_follows hfollows
  obtain ⟨after, changed, hroute, -⟩ := route_of_accept hfits haccept
  have hkind : request.kind = .stream stream := by
    unfold PendingRequest.streamPending at hstream
    split at hstream
    · rename_i found hkind
      rw [hkind, Option.some.inj hstream]
    · cases hstream
  obtain ⟨next, hnext⟩ :
      ∃ next, table.routeStream codec request stream metadata payload = .ok next := by
    unfold routeStream
    rw [hroute]
    cases terminal <;> exact ⟨_, rfl⟩
  refine ⟨next, ?_⟩
  simp only [routeRequest, Outcome.bind_eq_ok, Outcome.rejectIf_eq_ok, Outcome.orThrow_eq_ok,
    Outcome.mapError_eq_ok, exists_const, hkind]
  exact ⟨by simp [htrace], payload, rfl, state, hvalid, hnext⟩

/-- A response that conforms leaves no stream without an end. -/
theorem attended_routeResponse {response : Wire.ServerEnvelope} (hhoused : table.Housed)
    (hattended : table.Attended) (hconforms : Conforms codec table response) :
    (table.routeResponse codec response).1.Attended := by
  unfold routeResponse
  split
  · exact hattended
  · rename_i metadata hmetadata
    split_ifs
    · exact hattended
    · split
      · exact hattended
      · rename_i request hfind
        have hfound := housed_found hhoused hfind
        have hseated := attended_found hhoused hattended hfind
        split
        · rename_i next hroute
          exact (routeRequest_ok hfound hroute).2 hseated
        · rename_i error hroute
          cases hstream : request.streamPending with
          | none =>
            apply hseated.tail
            intro number channel hevents
            simp [PendingRequest.events, hstream] at hevents
          | some stream =>
            by_cases hdeserted : stream.Deserted table.channels
            · exact hseated.desert (events_of_stream hstream) (by rwa [remove_channels])
            · obtain ⟨htrace, payload, hpayload, ⟨state, hvalid⟩, hfollows⟩ :=
                hconforms metadata hmetadata request hfind stream hstream hdeserted
              have hfits := hfound.fits request List.mem_cons_self stream hstream
              obtain ⟨next, hnext⟩ := routeRequest_of_follows hfits hstream htrace hvalid hfollows
              rw [Option.mem_def.mp hpayload, hnext] at hroute
              cases hroute

/-! ## Runs -/

theorem housed_new : new.Housed := by
  constructor
  · exact List.nodup_nil
  · exact List.nodup_nil
  · simp [new]

theorem attended_new : new.Attended := by
  intro number channel hchannel
  simp [new] at hchannel

theorem fresh_of_find (hfind : table.find requestId = none) :
    ∀ other ∈ table.active, other.requestId ≠ requestId :=
  Rows.find_eq_none_iff.mp hfind

/-- Every action keeps both, apart from the response that breaks the protocol. -/
theorem keeps_step {action : PendingAction} (hstep : table.step config codec action = some next) :
    (table.Housed → next.Housed) ∧
      (table.Housed → table.Attended →
        (∀ response, action = .route response → Conforms codec table response) → next.Attended) := by
  suffices hkeeps : (∃ response, action = .route response) ∨ table.Keeps next by
    rcases hkeeps with ⟨response, rfl⟩ | hkeeps
    · cases hstep
      exact ⟨housed_routeResponse response, fun hhoused hattended hconforms =>
        attended_routeResponse hhoused hattended (hconforms response rfl)⟩
    · exact ⟨hkeeps.housed, fun hhoused hattended _ => hkeeps.attended hhoused hattended⟩
  cases action with
  | insert requestId traceId sessionId query deadline lane =>
    simp only [step] at hstep
    split_ifs at hstep with hguard
    cases hstep
    have hfresh : ∀ other ∈ table.active, other.requestId ≠ requestId := by
      apply fresh_of_find
      simpa using fun h => hguard (.inr h)
    cases query with
    | none => exact .inr (keeps_acceptUnary hfresh)
    | some query => exact .inr (keeps_acceptQuery hfresh)
  | reject requestId failure =>
    cases hstep
    exact .inr (keeps_rejectWithFailure failure)
  | retire requestId =>
    simp only [step] at hstep
    split_ifs at hstep with hunary
    cases hstep
    exact .inr (keeps_retire (by simpa using hunary))
  | abandon requestId sessionId =>
    simp only [step] at hstep
    split_ifs at hstep
    · cases hstep
      exact .inr (keeps_abandon sessionId)
    · cases hstep
      exact .inr (keeps_of_same rfl rfl)
  | expire now order =>
    simp only [step] at hstep
    split_ifs at hstep
    cases hstep
    exact .inr (keeps_expire order)
  | route response => exact .inl ⟨response, rfl⟩
  | failAll message =>
    cases hstep
    exact .inr (keeps_failAll message)
  | receive number =>
    simp only [step, Option.bind_eq_bind, Option.bind_eq_some_iff, Option.some.injEq] at hstep
    obtain ⟨channel, hchannel, taken, hrecv, rfl⟩ := hstep
    exact .inr (keeps_receive hchannel hrecv)
  | dropReceiver number =>
    simp only [step, Option.bind_eq_bind, Option.bind_eq_some_iff, Option.some.injEq] at hstep
    obtain ⟨channel, hchannel, rfl⟩ := hstep
    exact .inr (keeps_close hchannel)

/-- Every stream keeps to its credits, and the channel of each has a slot for
every batch it may send, for its start and for its end. -/
def Roomy (table : PendingRequests) : Prop :=
  ∀ request ∈ table.active, ∀ stream ∈ request.streamPending,
    stream.outstandingCredits ≤ maxOutstandingCredits ∧
      ∀ number ∈ stream.events, ∃ channel ∈ table.channels[number]?,
        stream.outstandingCredits + (if stream.started then 0 else 1) + 1 ≤ channel.free

/-- No send to a stream meets a full channel, in routing a response or otherwise. -/
def NeverFull (codec : Wire.Codec) (table : PendingRequests) : Prop :=
  (∀ request ∈ table.active, ∀ number ∈ request.events, ∀ channel ∈ table.channels[number]?,
    ∀ item, channel.trySend item ≠ .error .full) ∧
    ∀ response requestId capacity,
      (table.routeResponse codec response).2 ≠ .error (.stream requestId (.channelFull capacity))

/-- A response is for no stream with a consumer, or follows its protocol. -/
def Conforming (codec : Wire.Codec) (table : PendingRequests) : PendingAction → Prop
  | .route response => Conforms codec table response
  | _ => True

theorem roomy_of_housed (hhoused : table.Housed) : table.Roomy := by
  intro request hrequest stream hstream
  refine ⟨(hhoused.fits request hrequest stream hstream).1, fun number hevents => ?_⟩
  obtain ⟨channel, hchannel, hneed⟩ := (hhoused.fits request hrequest stream hstream).2 number hevents
  exact ⟨channel, hchannel, hneed⟩

theorem routeUnary_ne_stream {metadata : Wire.ResponseMeta} {payload : Wire.Payload}
    {violation : StreamViolation} :
    table.routeUnary request metadata payload ≠ .error (.stream requestId violation) := by
  refine Outcome.bind_ne_error (Outcome.rejectIf_ne_error (by simp)) fun _ => ?_
  refine Outcome.bind_ne_error (Outcome.rejectIf_ne_error (by simp)) fun _ => ?_
  split
  · simp [pure, Except.pure]
  · split_ifs <;> simp [pure, Except.pure]

theorem accept_ne_stream {retired : RetiredRequests} {metadata : Wire.ResponseMeta}
    {hasPayload : Bool} {violation : StreamViolation} :
    (retired.accept metadata hasPayload).2 ≠ .error (.stream requestId violation) := by
  unfold RetiredRequests.accept
  split
  · simp
  · refine Outcome.bind_ne_error (Outcome.rejectIf_ne_error (by simp)) fun _ => ?_
    exact Outcome.rejectIf_ne_error (by simp)

theorem routeRequest_ne_channelFull {metadata : Wire.ResponseMeta}
    {payload : Option Wire.Payload} (hfits : request.Fits table.channels) :
    table.routeRequest codec request metadata payload ≠
      .error (.stream requestId (.channelFull capacity)) := by
  refine Outcome.bind_ne_error (Outcome.rejectIf_ne_error (by simp)) fun _ => ?_
  refine Outcome.bind_ne_error (Outcome.orThrow_ne_error (by simp)) fun payload => ?_
  refine Outcome.bind_ne_error (Outcome.mapError_ne_error (by simp)) fun _ => ?_
  cases hkind : request.kind with
  | unary => exact routeUnary_ne_stream
  | stream stream =>
    have hstream : request.streamPending = some stream := by
      simp [PendingRequest.streamPending, hkind]
    simp only [routeStream]
    cases hroute : stream.route codec table.channels metadata payload with
    | ok routed =>
      simp only
      split_ifs <;> simp
    | error violation =>
      intro heq
      have hviolation : violation = .channelFull capacity := by simp_all
      exact route_ne_channelFull (hfits stream hstream) (hviolation ▸ hroute)

/-- Where every stream has its room no channel is ever full. -/
theorem neverFull_of_housed (hhoused : table.Housed) : table.NeverFull codec := by
  constructor
  · intro request hrequest number hevents channel hchannel item hsend
    obtain ⟨stream, hstream, hnumber⟩ := PendingRequest.events_eq_some_iff.mp hevents
    obtain ⟨found, hfound, -, hfree⟩ :=
      (hhoused.fits request hrequest stream hstream).channel hnumber
    obtain rfl : found = channel := Option.some.inj (hfound.symm.trans hchannel)
    rcases Channel.trySend_error hsend with ⟨hclosed, -⟩ | ⟨-, hfull⟩
    · cases hclosed
    · omega
  · intro response requestId capacity
    unfold routeResponse
    split
    · simp
    · split_ifs
      · simp
      · split
        · exact accept_ne_stream
        · rename_i request hfind
          have hfits := (housed_found hhoused hfind).fits request List.mem_cons_self
          split
          · simp
          · rename_i error hroute
            exact fun heq => routeRequest_ne_channelFull hfits
              (hroute.trans (congrArg Except.error (Except.error.inj heq)))

end PendingRequests

/-- In every run the channels of the streams have room, and no send meets a full
channel. In a run whose responses follow the protocol of the streams that have a
consumer, every stream that left the table was sent its end. -/
theorem pendingAfter_delivers {config : EngineConfig} {codec : Wire.Codec}
    {actions : List PendingAction} {table : PendingRequests}
    (hrun : pendingAfter config codec actions = some table) :
    table.Roomy ∧ table.NeverFull codec ∧
      (Machine.Along (PendingRequests.Conforming codec) (PendingRequests.step config codec) .new
        actions → table.Attended) := by
  have hhoused : table.Housed :=
    Machine.run_invariant PendingRequests.housed_new
      (fun _ _ _ hbefore hstep => (PendingRequests.keeps_step hstep).1 hbefore) hrun
  refine ⟨PendingRequests.roomy_of_housed hhoused, PendingRequests.neverFull_of_housed hhoused,
    fun halong => ?_⟩
  refine (Machine.run_invariant_along (motive := fun table => table.Housed ∧ table.Attended)
    ⟨PendingRequests.housed_new, PendingRequests.attended_new⟩ ?_ hrun halong).2
  rintro before action after ⟨hbefore, hattended⟩ hallowed hstep
  obtain ⟨hkeeps, hattends⟩ := PendingRequests.keeps_step hstep
  refine ⟨hkeeps hbefore, hattends hbefore hattended ?_⟩
  rintro response rfl
  exact hallowed

/-! ### Two streams -/

/-- Messages without fields are encoded in no bytes. -/
def emptyCodec : Wire.Codec :=
  { encodeSchema := fun _ => []
    decodeSchema := fun _ => none
    encodeBatch := fun _ => []
    decodeBatch := fun _ => none
    encodeRow := fun _ => [] }

def defaultConfig : EngineConfig := { streamEventCapacity := 34, valid := by decide }

def oneCreditQuery : PendingAction :=
  .insert "1-7" "engine-1-7" (some "session")
    (some (1, { maxRows := 0, targetBatchRows := 0, targetBatchBytes := 0, maxResultBytes := 100 }))
    1000 .stream

def queryResponse (sequence : UInt64) (terminal : Bool) (payload : Wire.Payload) : PendingAction :=
  .route
    { responseMeta := some { requestId := "1-7", traceId := "engine-1-7", sequence, terminal }
      payload := some payload }

/-- A query that completes without a row. -/
def completedQuery : List PendingAction :=
  [oneCreditQuery, queryResponse 0 false (.queryStarted { columns := [] }),
    queryResponse 1 false (.rowBatch { startRowOffset := 0, rows := [] }),
    queryResponse 2 true (.queryCompleted
      { rowCount := 0, truncatedByMaxRows := false, truncatedByMaxResultBytes := false })]

theorem completedQuery_conforms :
    Machine.Along (PendingRequests.Conforming emptyCodec)
      (PendingRequests.step defaultConfig emptyCodec) .new completedQuery := by
  rw [completedQuery, Machine.along_cons]
  refine ⟨trivial, ?_⟩
  rintro _ ⟨⟩
  rw [Machine.along_cons]
  constructor
  · rintro _ ⟨⟩ _ ⟨⟩ _ ⟨⟩ _
    refine ⟨rfl, _, rfl, ⟨none, rfl⟩, rfl, by decide, rfl, ⟨rfl, rfl⟩, by decide, rfl, ?_⟩
    simp
  rintro _ ⟨⟩
  rw [Machine.along_cons]
  constructor
  · rintro _ ⟨⟩ _ ⟨⟩ _ ⟨⟩ _
    refine ⟨rfl, _, rfl, ⟨none, rfl⟩, rfl, by decide, ?_⟩
    constructor <;> first | rfl | decide
  rintro _ ⟨⟩
  rw [Machine.along_cons]
  constructor
  · rintro _ ⟨⟩ _ ⟨⟩ _ ⟨⟩ _
    refine ⟨rfl, _, rfl, ⟨none, rfl⟩, rfl, by decide, ?_⟩
    constructor <;> first | rfl | decide
  · exact fun _ _ => Machine.along_nil

theorem completedQuery_delivered :
    ∃ table, pendingAfter defaultConfig emptyCodec completedQuery = some table ∧
      table.active = [] ∧ table.Roomy ∧ table.NeverFull emptyCodec ∧ table.Attended := by
  obtain ⟨table, hrun, hempty⟩ : ∃ table,
      pendingAfter defaultConfig emptyCodec completedQuery = some table ∧ table.active = [] :=
    ⟨_, rfl, rfl⟩
  obtain ⟨hroomy, hfull, hdelivers⟩ := pendingAfter_delivers hrun
  exact ⟨table, hrun, hempty, hroomy, hfull, hdelivers completedQuery_conforms⟩

/-- The engine ends the query with an error of a category that the bridge does not know. -/
def unknownCategory : Wire.EngineError :=
  { code := "bad.enum"
    message := "bad enum"
    category := 999
    retryable := false
    fatal := false
    outcome := 3
    metadata := []
    databaseError := none
    sessionState := none }

/-- The stream is gone, its consumer is there, and nothing was sent to it. -/
theorem unknownCategory_undelivered :
    ∃ table, pendingAfter defaultConfig emptyCodec
        [oneCreditQuery, queryResponse 0 true (.error unknownCategory)] = some table ∧
      table.active = [] ∧
        (∃ channel, table.channels[0]? = some channel ∧ channel.closed = false ∧
          channel.sent = []) ∧ ¬ table.Attended := by
  refine ⟨_, rfl, rfl, ⟨_, rfl, rfl, rfl⟩, ?_⟩
  intro hattended
  rcases hattended 0 _ rfl rfl with ⟨request, hrequest, -⟩ | ⟨item, hlast, -⟩
  · cases hrequest
  · cases hlast

end Chat2DB.Supervisor
