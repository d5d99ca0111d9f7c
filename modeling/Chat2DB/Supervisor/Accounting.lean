import Chat2DB.Supervisor.StreamDelivery

/-! # Accounts of the pending table

The two counters count the requests of their lanes, and the targets that are
being cancelled are those of the cancellations that wait for the engine. Both
depend on nothing but the lanes of the requests, in any order.
-/

namespace Chat2DB.Supervisor

variable {effect : ControlEffect} {payload : Wire.Payload} {metadata : Wire.ResponseMeta}

/-- The stream that a lane cancels. -/
def PendingLane.cancels : PendingLane → Option String
  | .control (.cancel target) => some target
  | _ => none

/-- What a request may become while it waits. -/
structure PendingRequest.Stays (old new : PendingRequest) : Prop where
  requestId : new.requestId = old.requestId
  lane : new.lane = old.lane
  unary : old.kind = .unary → new.kind = .unary
  events : ∀ number, new.events = some number → old.events = some number

/-- The counters and the cancellations that a list of lanes stands for. -/
structure Balanced (lanes : List PendingLane) (normalCount controlCount : Nat)
    (cancellingTargets : List String) : Prop where
  normal : normalCount = lanes.countP (·.consumesNormalSlot)
  control : controlCount = lanes.countP (¬ ·.consumesNormalSlot)
  cancelling : cancellingTargets.Perm (lanes.filterMap PendingLane.cancels)
  distinct : cancellingTargets.Nodup

namespace Balanced

variable {lanes others : List PendingLane} {lane : PendingLane} {normalCount controlCount : Nat}
  {cancellingTargets : List String}

theorem perm (hbalanced : Balanced lanes normalCount controlCount cancellingTargets)
    (hperm : lanes.Perm others) : Balanced others normalCount controlCount cancellingTargets where
  normal := hbalanced.normal.trans (hperm.countP_eq _)
  control := hbalanced.control.trans (hperm.countP_eq _)
  cancelling := hbalanced.cancelling.trans (hperm.filterMap _)
  distinct := hbalanced.distinct

/-- The targets without that of a lane. -/
def dropTarget (lane : PendingLane) (cancellingTargets : List String) : List String :=
  match lane.cancels with
  | some target => cancellingTargets.filter (· ≠ target)
  | none => cancellingTargets

/-- A lane that leaves takes its slot and its target along. -/
theorem leave (hbalanced : Balanced (lane :: lanes) normalCount controlCount cancellingTargets) :
    Balanced lanes (if lane.consumesNormalSlot then normalCount - 1 else normalCount)
      (if lane.consumesNormalSlot then controlCount else controlCount - 1)
      (dropTarget lane cancellingTargets) := by
  obtain ⟨hnormal, hcontrol, hcancelling, hdistinct⟩ := hbalanced
  rw [List.countP_cons] at hnormal hcontrol
  constructor
  · split_ifs with hslot
    · rw [if_pos hslot] at hnormal
      omega
    · simpa [hslot] using hnormal
  · split_ifs with hslot
    · simpa [hslot] using hcontrol
    · rw [if_pos (by simpa using hslot)] at hcontrol
      omega
  · unfold dropTarget
    cases hlane : lane.cancels with
    | none => rwa [List.filterMap_cons_none hlane] at hcancelling
    | some target =>
      rw [List.filterMap_cons_some hlane] at hcancelling
      have hnodup := hcancelling.nodup_iff.mp hdistinct
      have hothers : (lanes.filterMap PendingLane.cancels).filter (· ≠ target) =
          lanes.filterMap PendingLane.cancels := by
        rw [List.filter_eq_self]
        intro other hother
        have hne : other ≠ target := fun heq => (List.nodup_cons.mp hnodup).1 (heq ▸ hother)
        simpa using hne
      have hfiltered := hcancelling.filter (fun other => decide (other ≠ target))
      rw [List.filter_cons_of_neg (by simp), hothers] at hfiltered
      exact hfiltered
  · unfold dropTarget
    cases lane.cancels with
    | none => exact hdistinct
    | some target => exact hdistinct.filter _

/-- A lane is entered with its counter and its target. -/
theorem enter (lane : PendingLane) (hbalanced : Balanced lanes normalCount controlCount cancellingTargets)
    (hnew : ∀ target ∈ lane.cancels, target ∉ cancellingTargets) :
    Balanced (lane :: lanes) (if lane.consumesNormalSlot then normalCount + 1 else normalCount)
      (if lane.consumesNormalSlot then controlCount else controlCount + 1)
      (cancellingTargets ++ lane.cancels.toList) := by
  obtain ⟨hnormal, hcontrol, hcancelling, hdistinct⟩ := hbalanced
  constructor
  · rw [List.countP_cons, hnormal]
    split_ifs <;> simp_all
  · rw [List.countP_cons, hcontrol]
    split_ifs <;> simp_all
  · cases hlane : lane.cancels with
    | none =>
      rw [List.filterMap_cons_none hlane]
      simpa using hcancelling
    | some target =>
      rw [List.filterMap_cons_some hlane]
      exact (List.perm_append_singleton target _).trans (hcancelling.cons target)
  · cases hlane : lane.cancels with
    | none => simpa using hdistinct
    | some target =>
      refine List.Nodup.append hdistinct (List.nodup_singleton target) ?_
      rw [Option.toList_some, List.disjoint_singleton]
      exact hnew target hlane

end Balanced

namespace PendingRequests

variable {config : EngineConfig} {codec : Wire.Codec} {table next : PendingRequests}
  {request : PendingRequest} {requestId : String}

/-- The lanes of the requests that wait. -/
def lanes (table : PendingRequests) : List PendingLane := table.active.map (·.lane)

def Balanced (table : PendingRequests) : Prop :=
  Supervisor.Balanced table.lanes table.normalCount table.controlCount table.cancellingTargets

/-- The accounts of two tables are the same. -/
structure SameAccounts (table next : PendingRequests) : Prop where
  lanes : next.lanes.Perm table.lanes
  normal : next.normalCount = table.normalCount
  control : next.controlCount = table.controlCount
  cancelling : next.cancellingTargets = table.cancellingTargets

theorem SameAccounts.balanced (hsame : table.SameAccounts next) (hbalanced : table.Balanced) :
    next.Balanced := by
  unfold Balanced
  rw [hsame.normal, hsame.control, hsame.cancelling]
  exact Supervisor.Balanced.perm hbalanced hsame.lanes.symm

theorem SameAccounts.refl (table : PendingRequests) : table.SameAccounts table :=
  ⟨.refl _, rfl, rfl, rfl⟩

/-! ## What the parts of an operation do to the accounts -/

@[simp]
theorem mapStream_lane (change : StreamPending → StreamPending) :
    (request.mapStream change).lane = request.lane := by
  unfold PendingRequest.mapStream
  split <;> rfl

@[simp]
theorem mapStream_lanes (change : StreamPending → StreamPending) :
    (table.mapStream requestId change).lanes = table.lanes :=
  Rows.update_map_key (fun _ => mapStream_lane change) table.active

theorem mapStream_sameAccounts (change : StreamPending → StreamPending) :
    table.SameAccounts (table.mapStream requestId change) :=
  ⟨.of_eq (mapStream_lanes change), rfl, rfl, rfl⟩

theorem fail_sameAccounts (failure : PendingFailure) :
    table.SameAccounts (table.fail request failure) := by
  unfold fail
  split <;> exact ⟨.refl _, rfl, rfl, rfl⟩

theorem restore_lanes :
    (table.restore request).lanes =
      (table.others request.requestId).map (·.lane) ++ [request.lane] := by
  simp [lanes]

theorem countDown_counts (table : PendingRequests) (lane : PendingLane) :
    (table.countDown lane).normalCount =
        (if lane.consumesNormalSlot then table.normalCount - 1 else table.normalCount) ∧
      (table.countDown lane).controlCount =
        (if lane.consumesNormalSlot then table.controlCount else table.controlCount - 1) ∧
      (table.countDown lane).cancellingTargets = table.cancellingTargets := by
  unfold countDown
  split_ifs <;> exact ⟨rfl, rfl, rfl⟩

theorem countUp_counts (table : PendingRequests) (lane : PendingLane) :
    (table.countUp lane).normalCount =
        (if lane.consumesNormalSlot then table.normalCount + 1 else table.normalCount) ∧
      (table.countUp lane).controlCount =
        (if lane.consumesNormalSlot then table.controlCount else table.controlCount + 1) ∧
      (table.countUp lane).cancellingTargets = table.cancellingTargets := by
  unfold countUp
  split_ifs <;> exact ⟨rfl, rfl, rfl⟩

theorem lanes_of_find (hhoused : table.Housed) (hfind : table.find requestId = some request) :
    table.lanes.Perm (request.lane :: (table.remove request).lanes) := by
  have hperm := (perm_of_find hhoused hfind).map (·.lane)
  simpa [lanes, requestId_of_find hfind] using hperm

/-- The table after a request left it, as far as its accounts go. -/
structure Left (table : PendingRequests) (request : PendingRequest) (next : PendingRequests) :
    Prop where
  lanes : next.lanes.Perm (table.remove request).lanes
  normal : next.normalCount = (table.remove request).normalCount
  control : next.controlCount = (table.remove request).controlCount
  cancelling : next.cancellingTargets =
    Balanced.dropTarget request.lane (table.remove request).cancellingTargets

theorem Left.balanced (hleft : table.Left request next) (hhoused : table.Housed)
    (hfind : table.find requestId = some request) (hbalanced : table.Balanced) :
    next.Balanced := by
  have hwith := Supervisor.Balanced.perm hbalanced (lanes_of_find hhoused hfind)
  have hleave := hwith.leave.perm hleft.lanes.symm
  obtain ⟨hnormal, hcontrol, hcancelling⟩ :=
    countDown_counts { table with active := table.others request.requestId } request.lane
  unfold Balanced
  rw [hleft.normal, hleft.control, hleft.cancelling]
  unfold remove
  rw [hnormal, hcontrol, hcancelling]
  exact hleave

theorem Left.then {last : PendingRequests} (hleft : table.Left request next)
    (hsame : next.SameAccounts last) : table.Left request last :=
  ⟨hsame.lanes.trans hleft.lanes, hsame.normal.trans hleft.normal,
    hsame.control.trans hleft.control, hsame.cancelling.trans hleft.cancelling⟩

/-- A request leaves together with its lane. -/
theorem left_leave : table.Left request (table.leave request) := by
  unfold leave rollbackControl
  split
  · rename_i target credits hlane
    have hsame := @mapStream_sameAccounts (table.remove request) target
      (·.releaseReservedCredits credits)
    refine ⟨hsame.lanes, hsame.normal, hsame.control, ?_⟩
    simp only [hlane, Balanced.dropTarget, PendingLane.cancels]
    exact hsame.cancelling
  · rename_i target hlane
    refine ⟨.refl _, rfl, rfl, ?_⟩
    simp only [hlane, Balanced.dropTarget, PendingLane.cancels]
  · rename_i hcredits hcancel
    refine ⟨.refl _, rfl, rfl, ?_⟩
    have hlane : request.lane.cancels = none := by
      unfold PendingLane.cancels
      split
      · rename_i target hlane
        exact absurd hlane (hcancel target)
      · rfl
    simp only [hlane, Balanced.dropTarget]

theorem left_remove (hlane : request.lane.cancels = none) :
    table.Left request (table.remove request) := by
  refine ⟨.refl _, rfl, rfl, ?_⟩
  simp only [hlane, Balanced.dropTarget]

/-! ## Leaving -/

theorem balanced_leave_fail (failure : PendingFailure) (hhoused : table.Housed)
    (hfind : table.find requestId = some request) (hbalanced : table.Balanced) :
    ((table.leave request).fail request failure).Balanced :=
  (left_leave.then (fail_sameAccounts failure)).balanced hhoused hfind hbalanced

theorem balanced_rejectWithFailure (failure : PendingFailure) (hhoused : table.Housed)
    (hbalanced : table.Balanced) : (table.rejectWithFailure requestId failure).Balanced := by
  unfold rejectWithFailure
  split
  · exact hbalanced
  · rename_i request hfind
    exact balanced_leave_fail failure hhoused hfind hbalanced

theorem balanced_retire (hhoused : table.Housed) (hbalanced : table.Balanced) :
    (table.retire requestId).1.Balanced := by
  unfold retire
  split
  · exact hbalanced
  · rename_i request hfind
    have hleft : (table.leave request).Balanced := left_leave.balanced hhoused hfind hbalanced
    dsimp only
    split <;> exact hleft

theorem balanced_expireRequest (hhoused : table.Housed) (hbalanced : table.Balanced) :
    (table.expireRequest requestId).1.Balanced := by
  unfold expireRequest
  split
  · exact hbalanced
  · rename_i request hfind
    have hleft := balanced_leave_fail (.timeout requestId .unknown) hhoused hfind hbalanced
    dsimp only
    split <;> exact hleft

theorem balanced_expire (order : List String) (hhoused : table.Housed)
    (hbalanced : table.Balanced) : (table.expire order).1.Balanced := by
  unfold expire
  generalize (none : Option String) = fatal
  induction order generalizing table fatal with
  | nil => exact hbalanced
  | cons requestId order ih =>
    rw [List.foldl_cons]
    exact ih (keeps_expireRequest.housed hhoused) (balanced_expireRequest hhoused hbalanced) _

theorem balanced_failAll (message : String) : (table.failAll message).Balanced :=
  ⟨rfl, rfl, .refl _, List.nodup_nil⟩

theorem balanced_abandonStream (sessionId : String) (hbalanced : table.Balanced) :
    (table.abandonStream requestId sessionId).Balanced := by
  unfold abandonStream
  split
  · exact hbalanced
  · split
    · exact hbalanced
    · exact (mapStream_sameAccounts _).balanced hbalanced

theorem closeEvents_sameAccounts : table.SameAccounts (table.closeEvents requestId) := by
  unfold closeEvents
  split
  · exact .refl table
  · split <;> exact ⟨.refl _, rfl, rfl, rfl⟩

/-! ## Entering -/

theorem balanced_restore (hbalanced : Supervisor.Balanced (request.lane :: table.lanes)
      (if request.lane.consumesNormalSlot then table.normalCount + 1 else table.normalCount)
      (if request.lane.consumesNormalSlot then table.controlCount else table.controlCount + 1)
      table.cancellingTargets)
    (hfresh : ∀ other ∈ table.active, other.requestId ≠ request.requestId) :
    (table.restore request).Balanced := by
  obtain ⟨hnormal, hcontrol, hcancelling⟩ := countUp_counts
    { table with active := table.others request.requestId ++ [request] } request.lane
  unfold Balanced
  rw [restore_lanes, others_of_fresh hfresh]
  unfold restore
  rw [hnormal, hcontrol, hcancelling]
  exact hbalanced.perm (List.perm_append_singleton _ _).symm

theorem prepareControl_accounts {sessionId : Option String}
    (hprepare : table.prepareControl effect sessionId = .ok next) :
    next.lanes = table.lanes ∧ next.normalCount = table.normalCount ∧
      next.controlCount = table.controlCount ∧
        next.cancellingTargets =
            table.cancellingTargets ++ (PendingLane.control effect).cancels.toList ∧
          ∀ target ∈ (PendingLane.control effect).cancels, target ∉ table.cancellingTargets := by
  cases controls_of_prepareControl hprepare with
  | grantCredits =>
    refine ⟨mapStream_lanes _, rfl, rfl, ?_, ?_⟩
    · simp [PendingLane.cancels, mapStream]
    · simp [PendingLane.cancels]
  | cancel hnew =>
    refine ⟨rfl, rfl, rfl, rfl, ?_⟩
    simpa [PendingLane.cancels] using hnew

theorem failSink_sameAccounts (sink : PendingSink) (failure : PendingFailure) :
    table.SameAccounts (table.failSink requestId sink failure) := by
  unfold failSink
  split
  · exact ⟨.refl _, rfl, rfl, rfl⟩
  · split
    · exact .refl table
    · split
      · exact ⟨.refl _, rfl, rfl, rfl⟩
      · exact .refl table

theorem cancels_of_ne_control {lane : PendingLane} (hlane : ∀ effect, lane ≠ .control effect) :
    lane.cancels = none := by
  unfold PendingLane.cancels
  split
  · exact absurd rfl (hlane _)
  · rfl

section Entering

variable {traceId : String} {sessionId : Option String} {query : Option (Nat × QueryBudgets)}
  {deadline : Nat} {lane : PendingLane}

/-- A request on a lane that controls nothing comes in, or its sink is refused. -/
theorem balanced_acceptOther (hbalanced : table.Balanced)
    (hfresh : ∀ other ∈ table.active, other.requestId ≠ requestId)
    (hlane : ∀ effect, lane ≠ .control effect) :
    (table.acceptRequest config requestId traceId sessionId query deadline lane).Balanced := by
  unfold acceptRequest
  generalize hopened : table.openSink config query = opened
  have hsame : table.SameAccounts opened.1 ∧ opened.1.active = table.active := by
    subst hopened
    unfold openSink
    split <;> exact ⟨⟨.refl _, rfl, rfl, rfl⟩, rfl⟩
  have hcancels := cancels_of_ne_control hlane
  have hbooks : opened.1.Balanced := hsame.1.balanced hbalanced
  cases hvalid : validateStreamRegistration opened.2 sessionId with
  | error failure =>
    have hinsert : opened.1.insert requestId traceId sessionId opened.2 deadline lane =
        (opened.1, .error failure) := by
      unfold insert
      cases lane with
      | control effect => exact absurd rfl (hlane effect)
      | _ => simp only [hvalid]
    simp only [hinsert]
    exact (failSink_sameAccounts _ _).balanced hbooks
  | ok _ =>
    have hinsert : opened.1.insert requestId traceId sessionId opened.2 deadline lane =
        (opened.1.restore
          { requestId, traceId, sessionId, kind := kindOf opened.2, deadline, lane }, .ok ()) := by
      unfold insert
      cases lane with
      | control effect => exact absurd rfl (hlane effect)
      | _ => simp only [hvalid]
    simp only [hinsert]
    apply balanced_restore
    · have henter := Supervisor.Balanced.enter lane hbooks (by simp [hcancels])
      simpa [hcancels] using henter
    · rw [hsame.2]
      exact hfresh

/-- A control request is counted on its own lane. -/
theorem balanced_acceptControl (hhoused : table.Housed)
    (hbalanced : table.Balanced) (hfresh : ∀ other ∈ table.active, other.requestId ≠ requestId) :
    (table.acceptRequest config requestId traceId sessionId none deadline
      (.control effect)).Balanced := by
  unfold acceptRequest openSink insert
  cases hprepare : table.prepareControl effect sessionId with
  | error failure =>
    simp only [hprepare]
    exact (failSink_sameAccounts _ _).balanced hbalanced
  | ok prepared =>
    simp only [hprepare, validateStreamRegistration]
    obtain ⟨hlanes, hnormal, hcontrol, hcancelling, hnew⟩ := prepareControl_accounts hprepare
    obtain ⟨-, -, hseats⟩ := prepareControl_ok hhoused hprepare
    apply balanced_restore
    · rw [hlanes, hnormal, hcontrol, hcancelling]
      exact Supervisor.Balanced.enter _ hbalanced hnew
    · exact hseats.fresh hfresh

end Entering

/-! ## Responses -/

/-- The response to a cancellation says that it was done or why not. -/
def AnswersCancel (request : PendingRequest) (metadata : Wire.ResponseMeta)
    (payload : Option Wire.Payload) : Bool :=
  metadata.traceId = request.traceId && metadata.sequence = 0 && metadata.terminal &&
    match payload with
    | some .operationCancelled => true
    | some (.error error) => (validateEngineError error).isOk
    | _ => false

/-- A response to a cancellation is one. -/
def CancelsAnswered (table : PendingRequests) : PendingAction → Prop
  | .route response =>
    ∀ metadata ∈ response.responseMeta, ∀ request ∈ table.find metadata.requestId,
      request.lane.cancels ≠ none → AnswersCancel request metadata response.payload = true
  | _ => True

instance (table : PendingRequests) (action : PendingAction) :
    Decidable (table.CancelsAnswered action) :=
  match action with
  | .route response => inferInstanceAs (Decidable (∀ metadata ∈ response.responseMeta,
      ∀ request ∈ table.find metadata.requestId,
        request.lane.cancels ≠ none → AnswersCancel request metadata response.payload = true))
  | .insert .. | .reject .. | .retire _ | .abandon .. | .expire .. | .failAll _ | .receive _
  | .dropReceiver _ => .isTrue trivial

theorem left_applyLaneResponse
    (happlied : (table.remove request).applyLaneResponse request.lane payload = .ok next) :
    table.Left request next := by
  obtain ⟨_, _, _, hlane, rfl⟩ | ⟨_, hlane, rfl⟩ | ⟨hlane, rfl⟩ := applyLaneResponse_cases happlied
  · apply (left_remove _).then (mapStream_sameAccounts _)
    rw [hlane]
    rfl
  · refine ⟨.refl _, rfl, rfl, ?_⟩
    simp only [hlane, Balanced.dropTarget, PendingLane.cancels]
  · exact left_remove (cancels_of_ne_control hlane)

theorem left_routeUnary
    (hroute : (table.remove request).routeUnary request metadata payload = .ok next) :
    table.Left request next := by
  simp only [routeUnary, Outcome.bind_eq_ok, Outcome.rejectIf_eq_ok, exists_const] at hroute
  obtain ⟨-, -, hroute⟩ := hroute
  split at hroute
  · rename_i applied happlied
    obtain rfl := (Outcome.pure_eq_ok _ _).mp hroute
    exact (left_applyLaneResponse happlied).then ⟨.refl _, rfl, rfl, rfl⟩
  · split_ifs at hroute with hscoped
    obtain rfl := (Outcome.pure_eq_ok _ _).mp hroute
    -- Only a lifecycle request is told that its response was wrong.
    have hlane : request.lane.cancels = none := by
      cases hlane : request.lane <;> simp_all [PendingLane.invalidResponseIsRequestScoped,
        PendingLane.cancels]
    exact (left_remove hlane).then ⟨.refl _, rfl, rfl, rfl⟩

theorem balanced_routeStream {stream : StreamPending} (hhoused : table.Housed)
    (hfind : table.find requestId = some request) (hbalanced : table.Balanced)
    (hlane : request.lane.cancels = none)
    (hroute : (table.remove request).routeStream codec request stream metadata payload =
      .ok next) : next.Balanced := by
  have hremoved : (table.remove request).Balanced :=
    (left_remove hlane).balanced hhoused hfind hbalanced
  unfold routeStream at hroute
  split at hroute
  · cases hroute
  · split_ifs at hroute
    · obtain rfl := Except.ok.inj hroute
      exact hremoved
    · obtain rfl := Except.ok.inj hroute
      apply balanced_restore
      · have henter := Supervisor.Balanced.enter request.lane hremoved (by simp [hlane])
        rw [hlane, Option.toList_none, List.append_nil] at henter
        exact henter
      · intro other hother
        rw [remove_active] at hother
        simpa using (List.mem_filter.mp hother).2

/-- A cancellation that is answered is not refused. -/
theorem routeRequest_of_answersCancel
    {payload : Option Wire.Payload} {target : String} (hkind : request.kind = .unary)
    (hlane : request.lane.cancels = some target)
    (hanswers : AnswersCancel request metadata payload = true) :
    ∃ next, table.routeRequest codec request metadata payload = .ok next := by
  have hcancel : request.lane = .control (.cancel target) := by
    unfold PendingLane.cancels at hlane
    split at hlane
    · rename_i other hother
      rw [hother, Option.some.inj hlane]
    · cases hlane
  simp only [AnswersCancel, Bool.and_eq_true, decide_eq_true_eq] at hanswers
  obtain ⟨⟨⟨htrace, hsequence⟩, hterminal⟩, hpayload⟩ := hanswers
  -- The payload is valid, and the lane takes it.
  obtain ⟨received, rfl, ⟨state, hvalid⟩, applied, happlied⟩ :
      ∃ received, payload = some received ∧
        (∃ state, validateResponsePayload received = .ok state) ∧
          ∃ applied, table.applyLaneResponse request.lane received = .ok applied := by
    rw [hcancel]
    split at hpayload
    · exact ⟨_, rfl, ⟨_, rfl⟩, _, rfl⟩
    · rename_i error
      cases hvalid : validateEngineError error with
      | error message =>
        rw [hvalid] at hpayload
        cases hpayload
      | ok state => exact ⟨_, rfl, ⟨state, hvalid⟩, _, rfl⟩
    · cases hpayload
  refine ⟨applied.answer request.requestId (.ok received), ?_⟩
  simp only [routeRequest, Outcome.bind_eq_ok, Outcome.rejectIf_eq_ok, Outcome.orThrow_eq_ok,
    Outcome.mapError_eq_ok, exists_const, hkind, routeUnary]
  refine ⟨by simp [htrace], received, rfl, state, hvalid, by simp [hsequence],
    by simp [hterminal], ?_⟩
  rw [happlied]
  rfl

/-- Control requests have unary sinks. -/
def ControlsUnary (table : PendingRequests) : Prop :=
  ∀ request ∈ table.active, request.lane.cancels ≠ none → request.kind = .unary

/-- A response leaves counters and targets in balance. -/
theorem balanced_routeResponse {response : Wire.ServerEnvelope} (hhoused : table.Housed)
    (hunary : table.ControlsUnary) (hbalanced : table.Balanced)
    (hanswered : table.CancelsAnswered (.route response)) :
    (table.routeResponse codec response).1.Balanced := by
  unfold routeResponse
  split
  · exact hbalanced
  · rename_i metadata hmetadata
    split_ifs
    · exact hbalanced
    · split
      · exact hbalanced
      · rename_i request hfind
        have hkind := hunary request (Rows.find_mem hfind).1
        have hcancel := hanswered metadata hmetadata request hfind
        split
        · rename_i next hroute
          simp only [routeRequest, Outcome.bind_eq_ok] at hroute
          obtain ⟨_, -, payload, -, _, -, hroute⟩ := hroute
          split at hroute
          · exact (left_routeUnary hroute).balanced hhoused hfind hbalanced
          · rename_i stream hstream
            have hlane : request.lane.cancels = none := by
              by_contra hlane
              rw [hstream] at hkind
              cases hkind hlane
            exact balanced_routeStream hhoused hfind hbalanced hlane hroute
        · rename_i error hroute
          cases hlane : request.lane.cancels with
          | none => exact (left_remove hlane).balanced hhoused hfind hbalanced
          | some target =>
            have hsome : request.lane.cancels ≠ none := by simp [hlane]
            obtain ⟨next, hnext⟩ :=
              routeRequest_of_answersCancel (hkind hsome) hlane (hcancel hsome)
            rw [hnext] at hroute
            cases hroute

/-! ## Requests that stay -/

theorem stays_refl : request.Stays request := ⟨rfl, rfl, id, fun _ => id⟩

/-- Every request that waits did so before. -/
def Shrinks (table next : PendingRequests) : Prop :=
  ∀ new ∈ next.active, ∃ old ∈ table.active, old.Stays new

theorem Shrinks.trans {last : PendingRequests} (hfirst : table.Shrinks next)
    (hnext : next.Shrinks last) : table.Shrinks last := by
  intro new hnew
  obtain ⟨middle, hmiddle, hstays⟩ := hnext new hnew
  obtain ⟨old, hold, hstayed⟩ := hfirst middle hmiddle
  exact ⟨old, hold, hstays.requestId.trans hstayed.requestId, hstays.lane.trans hstayed.lane,
    fun hunary => hstays.unary (hstayed.unary hunary),
    fun number hnumber => hstayed.events number (hstays.events number hnumber)⟩

theorem shrinks_of_subset (hsubset : next.active ⊆ table.active) : table.Shrinks next :=
  fun new hnew => ⟨new, hsubset hnew, stays_refl⟩

theorem shrinks_of_active (hactive : next.active = table.active) : table.Shrinks next :=
  shrinks_of_subset (by rw [hactive]; exact List.Subset.refl _)

theorem shrinks_remove : table.Shrinks (table.remove request) := by
  apply shrinks_of_subset
  rw [remove_active]
  exact List.filter_sublist.subset

theorem shrinks_mapStream {change : StreamPending → StreamPending}
    (hchange : ∀ old ∈ table.active, old.requestId = requestId → ∀ stream ∈ old.streamPending,
      ∀ number, (change stream).events = some number → stream.events = some number) :
    table.Shrinks (table.mapStream requestId change) := by
  intro new hnew
  obtain ⟨old, hold, rfl⟩ := Rows.mem_update.mp hnew
  refine ⟨old, hold, ?_⟩
  split_ifs with hid
  · unfold PendingRequest.mapStream
    cases hkind : old.kind with
    | unary => exact stays_refl
    | stream stream =>
      have hstream : old.streamPending = some stream := by
        simp [PendingRequest.streamPending, hkind]
      refine ⟨rfl, rfl, fun hunary => absurd (hkind.symm.trans hunary) (by simp), ?_⟩
      intro number hnumber
      rw [events_of_stream hstream]
      exact hchange old hold (of_decide_eq_true hid) stream hstream number hnumber
  · exact stays_refl

theorem shrinks_rollbackControl (lane : PendingLane) :
    table.Shrinks (table.rollbackControl lane) := by
  unfold rollbackControl
  split
  · exact shrinks_mapStream fun _ _ _ _ _ _ hnumber => hnumber
  · exact shrinks_of_active rfl
  · exact shrinks_of_active rfl

theorem shrinks_leave : table.Shrinks (table.leave request) :=
  shrinks_remove.trans (shrinks_rollbackControl request.lane)

theorem shrinks_leave_fail (failure : PendingFailure) :
    table.Shrinks ((table.leave request).fail request failure) :=
  shrinks_leave.trans (shrinks_of_active fail_active)

theorem shrinks_rejectWithFailure (failure : PendingFailure) :
    table.Shrinks (table.rejectWithFailure requestId failure) := by
  unfold rejectWithFailure
  split
  · exact shrinks_of_active rfl
  · exact shrinks_leave_fail failure

theorem shrinks_retire : table.Shrinks (table.retire requestId).1 := by
  unfold retire
  split
  · exact shrinks_of_active rfl
  · dsimp only
    split <;> exact shrinks_leave

theorem shrinks_expireRequest : table.Shrinks (table.expireRequest requestId).1 := by
  unfold expireRequest
  split
  · exact shrinks_of_active rfl
  · dsimp only
    split <;> exact shrinks_leave_fail _

theorem shrinks_expire (order : List String) : table.Shrinks (table.expire order).1 := by
  unfold expire
  generalize (none : Option String) = fatal
  induction order generalizing table fatal with
  | nil => exact shrinks_of_active rfl
  | cons requestId order ih =>
    rw [List.foldl_cons]
    exact shrinks_expireRequest.trans (ih _)

theorem shrinks_abandon (sessionId : String) :
    table.Shrinks ((table.closeEvents requestId).abandonStream requestId sessionId) := by
  have hclose : table.Shrinks (table.closeEvents requestId) := shrinks_of_active closeEvents_active
  apply hclose.trans
  unfold abandonStream
  split
  · exact shrinks_of_active rfl
  · split_ifs
    · exact shrinks_of_active rfl
    · exact shrinks_mapStream fun _ _ _ _ _ _ hnumber => absurd hnumber (by simp)

theorem shrinks_applyLaneResponse {lane : PendingLane}
    (happlied : table.applyLaneResponse lane payload = .ok next) : table.Shrinks next := by
  obtain ⟨_, _, _, -, rfl⟩ | ⟨_, -, rfl⟩ | ⟨-, rfl⟩ := applyLaneResponse_cases happlied
  · exact shrinks_mapStream fun _ _ _ _ _ _ hnumber => hnumber
  · exact shrinks_of_active rfl
  · exact shrinks_of_active rfl

theorem shrinks_routeUnary (hroute : table.routeUnary request metadata payload = .ok next) :
    table.Shrinks next := by
  simp only [routeUnary, Outcome.bind_eq_ok, Outcome.rejectIf_eq_ok, exists_const] at hroute
  obtain ⟨-, -, hroute⟩ := hroute
  split at hroute
  · rename_i applied happlied
    obtain rfl := (Outcome.pure_eq_ok _ _).mp hroute
    exact (shrinks_applyLaneResponse happlied).trans (shrinks_of_active rfl)
  · split_ifs at hroute
    obtain rfl := (Outcome.pure_eq_ok _ _).mp hroute
    exact shrinks_of_active rfl

/-- A stream that waits on keeps its place. -/
theorem shrinks_routeStream {stream : StreamPending} (hhoused : table.Housed)
    (hfind : table.find requestId = some request) (hkind : request.kind = .stream stream)
    (hroute : (table.remove request).routeStream codec request stream metadata payload =
      .ok next) : table.Shrinks next := by
  have hstream : request.streamPending = some stream := by
    simp [PendingRequest.streamPending, hkind]
  have hfits := (housed_found hhoused hfind).fits request List.mem_cons_self stream hstream
  unfold routeStream at hroute
  split at hroute
  · cases hroute
  · rename_i after changed terminal hrouted
    split_ifs at hroute with hterminal
    · obtain rfl := Except.ok.inj hroute
      exact shrinks_remove.trans (shrinks_of_active rfl)
    · obtain rfl := Except.ok.inj hroute
      obtain ⟨item, accepted, haccepts, -, hafter⟩ := route_ok hfits hrouted
      simp only [hterminal] at haccepts
      have hseat : ∀ number, after.events = some number → request.events = some number := by
        intro number hnumber
        rw [events_of_stream hstream]
        rcases hafter with rfl | ⟨-, hgone, -, -⟩
        · exact haccepts.spends.1.symm.trans hnumber
        · rw [hgone] at hnumber
          cases hnumber
      intro new hnew
      rw [restore_active] at hnew
      rcases List.mem_append.mp hnew with hother | hnew
      · have hmem := (List.mem_filter.mp hother).1
        rw [remove_active] at hmem
        exact ⟨new, (List.mem_filter.mp hmem).1, stays_refl⟩
      · obtain rfl := List.mem_singleton.mp hnew
        refine ⟨request, (Rows.find_mem hfind).1, rfl, rfl, ?_, hseat⟩
        intro hunary
        rw [hkind] at hunary
        cases hunary

/-- After a response no other requests wait than before. -/
theorem shrinks_routeResponse {response : Wire.ServerEnvelope} (hhoused : table.Housed) :
    table.Shrinks (table.routeResponse codec response).1 := by
  unfold routeResponse
  split
  · exact shrinks_of_active rfl
  · split_ifs
    · exact shrinks_of_active rfl
    · split
      · exact shrinks_of_active rfl
      · rename_i request hfind
        split
        · rename_i next hroute
          simp only [routeRequest, Outcome.bind_eq_ok] at hroute
          obtain ⟨_, -, payload, -, _, -, hroute⟩ := hroute
          split at hroute
          · exact shrinks_remove.trans (shrinks_routeUnary hroute)
          · rename_i stream hkind
            exact shrinks_routeStream hhoused hfind hkind hroute
        · exact shrinks_remove

theorem shrinks_prepareControl {sessionId : Option String}
    (hhoused : table.Housed) (hprepare : table.prepareControl effect sessionId = .ok next) :
    table.Shrinks next := by
  cases controls_of_prepareControl hprepare with
  | @grantCredits targetId credits target stream reserved hfind hstream hreserve =>
    apply shrinks_mapStream
    intro old hold hid found hfound number hnumber
    obtain ⟨htarget, htargetId⟩ := Rows.find_mem hfind
    obtain rfl : old = target :=
      hhoused.keyed.eq_of_key_eq hold htarget (hid.trans htargetId.symm)
    obtain rfl : stream = found := Option.some.inj (hstream.symm.trans hfound)
    exact (reserveCredits_ok hreserve).1.symm.trans hnumber
  | cancel =>
    exact shrinks_of_active rfl

section Inserting

variable {traceId : String} {sessionId : Option String} {query : Option (Nat × QueryBudgets)}
  {deadline : Nat} {lane : PendingLane}

theorem prepareControl_answers (hprepare : table.prepareControl effect sessionId = .ok next) :
    next.answers = table.answers := by
  cases controls_of_prepareControl hprepare with
  | grantCredits => rfl
  | cancel => rfl

/-- What an insertion did before it was refused, or before the request came in. -/
theorem insert_prepared (requestId traceId : String) (sessionId : Option String)
    (sink : PendingSink) (deadline : Nat) (lane : PendingLane) (hhoused : table.Housed) :
    ∃ prepared : PendingRequests, table.Shrinks prepared ∧
      prepared.channels = table.channels ∧ prepared.answers = table.answers ∧
        ((∃ failure, table.insert requestId traceId sessionId sink deadline lane =
            (prepared, .error failure)) ∨
          table.insert requestId traceId sessionId sink deadline lane =
            (prepared.restore
              { requestId, traceId, sessionId, kind := kindOf sink, deadline, lane }, .ok ())) := by
  unfold insert
  extract_lets prepared
  cases hprepared : prepared with
  | error failure => exact ⟨table, shrinks_of_active rfl, rfl, rfl, .inl ⟨failure, rfl⟩⟩
  | ok changed =>
    have hchanged : table.Shrinks changed ∧ changed.channels = table.channels ∧
        changed.answers = table.answers := by
      cases lane with
      | control effect =>
        exact ⟨shrinks_prepareControl hhoused hprepared,
          (prepareControl_ok hhoused hprepared).2.1, prepareControl_answers hprepared⟩
      | _ =>
        obtain rfl := Except.ok.inj hprepared
        exact ⟨shrinks_of_active rfl, rfl, rfl⟩
    refine ⟨changed, hchanged.1, hchanged.2.1, hchanged.2.2, ?_⟩
    cases validateStreamRegistration sink sessionId with
    | error failure => exact .inl ⟨failure, rfl⟩
    | ok _ => exact .inr rfl

theorem insert_active {sink : PendingSink} (hhoused : table.Housed) :
    ∀ new ∈ (table.insert requestId traceId sessionId sink deadline lane).1.active,
      (∃ old ∈ table.active, old.Stays new) ∨
        new = { requestId, traceId, sessionId, kind := kindOf sink, deadline, lane } := by
  obtain ⟨prepared, hshrinks, -, -, ⟨failure, hinsert⟩ | hinsert⟩ :=
    insert_prepared _ _ _ _ _ _ hhoused
  · rw [hinsert]
    exact fun new hnew => .inl (hshrinks new hnew)
  · rw [hinsert]
    intro new hnew
    rw [restore_active] at hnew
    rcases List.mem_append.mp hnew with hother | hnew
    · exact .inl (hshrinks new (List.mem_filter.mp hother).1)
    · exact .inr (List.mem_singleton.mp hnew)

theorem failSink_active {sink : PendingSink} {failure : PendingFailure} :
    (table.failSink requestId sink failure).active = table.active := by
  unfold failSink
  split
  · rfl
  · split
    · rfl
    · split <;> rfl

theorem acceptRequest_active (hhoused : table.Housed) :
    ∀ new ∈ (table.acceptRequest config requestId traceId sessionId query deadline lane).active,
      (∃ old ∈ table.active, old.Stays new) ∨
        new = { requestId, traceId, sessionId, kind := kindOf (table.openSink config query).2,
                deadline, lane } := by
  have hopened : (table.openSink config query).1.Housed ∧
      (table.openSink config query).1.active = table.active := by
    unfold openSink
    split
    · exact ⟨hhoused, rfl⟩
    · exact ⟨housed_append hhoused, rfl⟩
  unfold acceptRequest
  generalize table.openSink config query = opened at hopened ⊢
  obtain ⟨hhousedOpened, hactive⟩ := hopened
  have hinserted : ∀ new ∈
      (opened.1.insert requestId traceId sessionId opened.2 deadline lane).1.active, _ :=
    insert_active hhousedOpened
  rw [hactive] at hinserted
  dsimp only
  split
  · rename_i inserted hinsert
    rw [hinsert] at hinserted
    exact hinserted
  · rename_i inserted failure hinsert
    rw [hinsert] at hinserted
    rw [failSink_active]
    exact hinserted

end Inserting

/-! ## Steps -/

theorem Shrinks.controlsUnary (hshrinks : table.Shrinks next) (hunary : table.ControlsUnary) :
    next.ControlsUnary := by
  intro new hnew hlane
  obtain ⟨old, hold, hstays⟩ := hshrinks new hnew
  rw [hstays.lane] at hlane
  exact hstays.unary (hunary old hold hlane)

end PendingRequests

/-- A request on a control lane comes with a unary sink. -/
def PendingAction.UnaryControl : PendingAction → Prop
  | .insert _ _ _ query _ (.control _) => query = none
  | _ => True

namespace PendingRequests

variable {config : EngineConfig} {codec : Wire.Codec} {table next : PendingRequests}
  {action : PendingAction}

/-- Every action keeps the accounts, apart from a response that does not answer
the cancellation it is for. -/
theorem balanced_step (hstep : table.step config codec action = some next)
    (hhoused : table.Housed) (hunary : table.ControlsUnary) (hbalanced : table.Balanced)
    (haction : action.UnaryControl) (hanswered : table.CancelsAnswered action) :
    next.Balanced := by
  cases action with
  | insert requestId traceId sessionId query deadline lane =>
    simp only [step] at hstep
    split_ifs at hstep with hguard
    cases hstep
    have hfresh : ∀ other ∈ table.active, other.requestId ≠ requestId := by
      apply fresh_of_find
      simpa using fun h => hguard (.inr h)
    cases lane with
    | control effect =>
      obtain rfl : query = none := haction
      exact balanced_acceptControl hhoused hbalanced hfresh
    | _ => exact balanced_acceptOther hbalanced hfresh (by simp)
  | reject requestId failure =>
    cases hstep
    exact balanced_rejectWithFailure failure hhoused hbalanced
  | retire requestId =>
    simp only [step] at hstep
    split_ifs at hstep
    cases hstep
    exact balanced_retire hhoused hbalanced
  | abandon requestId sessionId =>
    simp only [step] at hstep
    split_ifs at hstep
    · cases hstep
      exact balanced_abandonStream sessionId (closeEvents_sameAccounts.balanced hbalanced)
    · cases hstep
      exact hbalanced
  | expire now order =>
    simp only [step] at hstep
    split_ifs at hstep
    cases hstep
    exact balanced_expire order hhoused hbalanced
  | route response =>
    cases hstep
    exact balanced_routeResponse hhoused hunary hbalanced hanswered
  | failAll message =>
    cases hstep
    exact balanced_failAll message
  | receive number =>
    simp only [step, Option.bind_eq_bind, Option.bind_eq_some_iff, Option.some.injEq] at hstep
    obtain ⟨channel, -, taken, -, rfl⟩ := hstep
    exact hbalanced
  | dropReceiver number =>
    simp only [step, Option.bind_eq_bind, Option.bind_eq_some_iff, Option.some.injEq] at hstep
    obtain ⟨channel, -, rfl⟩ := hstep
    exact hbalanced

/-- After an action the requests are those before and what it inserted. -/
theorem step_active (hstep : table.step config codec action = some next)
    (hhoused : table.Housed) :
    table.Shrinks next ∨ ∃ requestId traceId sessionId query deadline lane,
      action = .insert requestId traceId sessionId query deadline lane ∧
        ∀ new ∈ next.active, (∃ old ∈ table.active, old.Stays new) ∨
          new = { requestId, traceId, sessionId, kind := kindOf (table.openSink config query).2,
                  deadline, lane } := by
  cases action with
  | insert requestId traceId sessionId query deadline lane =>
    simp only [step] at hstep
    split_ifs at hstep
    cases hstep
    exact .inr ⟨_, _, _, _, _, _, rfl, acceptRequest_active hhoused⟩
  | reject requestId failure =>
    cases hstep
    exact .inl (shrinks_rejectWithFailure failure)
  | retire requestId =>
    simp only [step] at hstep
    split_ifs at hstep
    cases hstep
    exact .inl shrinks_retire
  | abandon requestId sessionId =>
    simp only [step] at hstep
    split_ifs at hstep
    · cases hstep
      exact .inl (shrinks_abandon sessionId)
    · cases hstep
      exact .inl (shrinks_of_active rfl)
  | expire now order =>
    simp only [step] at hstep
    split_ifs at hstep
    cases hstep
    exact .inl (shrinks_expire order)
  | route response =>
    cases hstep
    exact .inl (shrinks_routeResponse hhoused)
  | failAll message =>
    cases hstep
    exact .inl (shrinks_of_subset (List.nil_subset _))
  | receive number =>
    simp only [step, Option.bind_eq_bind, Option.bind_eq_some_iff, Option.some.injEq] at hstep
    obtain ⟨channel, -, taken, -, rfl⟩ := hstep
    exact .inl (shrinks_of_active rfl)
  | dropReceiver number =>
    simp only [step, Option.bind_eq_bind, Option.bind_eq_some_iff, Option.some.injEq] at hstep
    obtain ⟨channel, -, rfl⟩ := hstep
    exact .inl (shrinks_of_active rfl)

theorem controlsUnary_step (hstep : table.step config codec action = some next)
    (hhoused : table.Housed) (hunary : table.ControlsUnary) (haction : action.UnaryControl) :
    next.ControlsUnary := by
  rcases step_active hstep hhoused with hshrinks | ⟨_, _, _, query, _, lane, rfl, hactive⟩
  · exact hshrinks.controlsUnary hunary
  · intro new hnew hcancels
    rcases hactive new hnew with ⟨old, hold, hstays⟩ | rfl
    · rw [hstays.lane] at hcancels
      exact hstays.unary (hunary old hold hcancels)
    · cases lane with
      | control effect =>
        obtain rfl : query = none := haction
        rfl
      | _ => exact absurd rfl hcancels

end PendingRequests

end Chat2DB.Supervisor
