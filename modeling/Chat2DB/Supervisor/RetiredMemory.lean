import Chat2DB.Base.Recent
import Chat2DB.Supervisor.StreamDelivery

/-! # Retired requests

A request whose caller is gone is remembered, so that a late response to it does not count
as one to an unknown request. The memory has a capacity and forgets the oldest requests.
-/

namespace Chat2DB.Supervisor

variable {requestId traceId other : String} {metadata : Wire.ResponseMeta} {last : PendingRequests}
  {inserted : List String}

/-! ## The memory -/

inductive RetiredAction where
  | insert (requestId traceId : String)
  | accept (metadata : Wire.ResponseMeta) (hasPayload : Bool)

namespace RetiredRequests

def step (retired : RetiredRequests) : RetiredAction → RetiredRequests
  | .insert requestId traceId => retired.insert requestId traceId
  | .accept metadata hasPayload => (retired.accept metadata hasPayload).1

def empty : RetiredRequests := { traces := [], order := [] }

/-- The memory that the queue of ids stands for. -/
def remember (memory : Recent String) : RetiredAction → Recent String
  | .insert requestId _ => memory.enter maxRetiredRequests requestId
  | .accept metadata _ => memory.answer metadata.requestId

end RetiredRequests

def retiredAfter (actions : List RetiredAction) : RetiredRequests :=
  actions.foldl RetiredRequests.step .empty

def memoryAfter (actions : List RetiredAction) : Recent String :=
  actions.foldl RetiredRequests.remember .empty

namespace RetiredRequests

def ids (retired : RetiredRequests) : List String := retired.traces.map Prod.fst

/-- The ids in the order of the queue are those that have a trace id. -/
structure Mirrors (retired : RetiredRequests) (memory : Recent String) : Prop where
  order_eq : retired.order = memory.keys
  nodup : retired.ids.Nodup
  mem_iff : ∀ requestId, requestId ∈ retired.order ↔ requestId ∈ retired.ids

variable {retired : RetiredRequests} {memory : Recent String}

theorem Mirrors.empty : Mirrors .empty .empty where
  order_eq := rfl
  nodup := List.nodup_nil
  mem_iff := fun _ => Iff.rfl

theorem any_iff_mem_ids :
    retired.traces.any (·.1 = requestId) = true ↔ requestId ∈ retired.ids := by
  simp [ids]

theorem ids_filter (keep : String → Bool) :
    (retired.traces.filter fun trace => keep trace.1).map Prod.fst = retired.ids.filter keep := by
  rw [ids, List.filter_map]
  rfl

theorem mem_ids_replaced :
    other ∈ (retired.traces.filter (·.1 ≠ requestId) ++ [(requestId, traceId)]).map Prod.fst ↔
      other = requestId ∨ other ∈ retired.ids := by
  have hfilter := @ids_filter retired fun id => decide (id ≠ requestId)
  rw [List.map_append, hfilter, List.mem_append, List.mem_filter, decide_eq_true_eq]
  simp only [List.map_cons, List.map_nil, List.mem_singleton]
  by_cases hsame : other = requestId <;> simp [hsame]

theorem nodup_ids_replaced (hnodup : retired.ids.Nodup) (requestId traceId : String) :
    ((retired.traces.filter (·.1 ≠ requestId) ++ [(requestId, traceId)]).map Prod.fst).Nodup := by
  have hfilter := @ids_filter retired fun id => decide (id ≠ requestId)
  rw [List.map_append, hfilter]
  refine List.nodup_append.2 ⟨hnodup.filter _, List.nodup_singleton _, ?_⟩
  intro other hother last hlast
  rw [List.mem_map] at hlast
  obtain ⟨entry, hentry, rfl⟩ := hlast
  rw [List.mem_singleton.1 hentry]
  exact of_decide_eq_true (List.mem_filter.1 hother).2

theorem mem_drop_iff {α : Type} {list : List α} (hnodup : list.Nodup) (count : Nat) (item : α) :
    item ∈ list.drop count ↔ item ∈ list ∧ item ∉ list.take count := by
  have hsplit := hnodup
  rw [← List.take_append_drop count list, List.nodup_append] at hsplit
  constructor
  · intro hdrop
    exact ⟨List.mem_of_mem_drop hdrop, fun htake => hsplit.2.2 item htake item hdrop rfl⟩
  · rintro ⟨hitem, htake⟩
    rw [← List.take_append_drop count list, List.mem_append] at hitem
    exact hitem.resolve_left htake

/-- A request that is retired enters the memory. -/
theorem Mirrors.insert (h : Mirrors retired memory)
    (hsound : memory.Sound maxRetiredRequests) (requestId traceId : String) :
    Mirrors (retired.insert requestId traceId) (memory.enter maxRetiredRequests requestId) := by
  by_cases hknown : requestId ∈ retired.ids
  · have hkey : requestId ∈ memory.keys := by
      rw [← h.order_eq, h.mem_iff]
      exact hknown
    rw [RetiredRequests.insert]
    dsimp only
    rw [if_pos (any_iff_mem_ids.2 hknown)]
    constructor
    · rw [Recent.keys_enter_of_mem hkey]
      exact h.order_eq
    · exact nodup_ids_replaced h.nodup requestId traceId
    · intro other
      rw [ids, mem_ids_replaced, h.mem_iff]
      constructor
      · exact .inr
      · rintro (rfl | hother)
        · exact hknown
        · exact hother
  · have hkey : requestId ∉ memory.keys := by
      rw [← h.order_eq, h.mem_iff]
      exact hknown
    have hnodup : (retired.order ++ [requestId]).Nodup := by
      rw [h.order_eq, ← List.concat_eq_append, List.nodup_concat]
      exact ⟨hkey, hsound.nodup⟩
    have hexcess : ((retired.order ++ [requestId]).take
        ((retired.order ++ [requestId]).length - maxRetiredRequests)).length =
          (retired.order ++ [requestId]).length - maxRetiredRequests := by
      rw [List.length_take]
      exact Nat.min_eq_left (Nat.sub_le _ _)
    rw [RetiredRequests.insert]
    dsimp only
    rw [if_neg fun hany => hknown (any_iff_mem_ids.1 hany), hexcess]
    constructor
    · rw [Recent.keys_enter_of_not_mem hkey, h.order_eq]
    · exact (nodup_ids_replaced h.nodup requestId traceId).sublist
        (List.filter_sublist.map Prod.fst)
    · intro other
      rw [mem_drop_iff hnodup, List.mem_append, List.mem_singleton, h.mem_iff]
      have hfilter := @ids_filter
        { traces := retired.traces.filter (·.1 ≠ requestId) ++ [(requestId, traceId)], order := [] }
        fun id => decide (id ∉ (retired.order ++ [requestId]).take
          ((retired.order ++ [requestId]).length - maxRetiredRequests))
      dsimp only at hfilter
      refine Iff.trans ?_ (Iff.of_eq (congrArg (other ∈ ·) hfilter)).symm
      rw [List.mem_filter, decide_eq_true_eq]
      exact and_congr_left' (or_comm.trans mem_ids_replaced.symm)

/-- A retired request is forgotten by its response. -/
theorem Mirrors.accept (h : Mirrors retired memory) (metadata : Wire.ResponseMeta)
    (hasPayload : Bool) :
    Mirrors (retired.accept metadata hasPayload).1 (memory.answer metadata.requestId) := by
  rw [RetiredRequests.accept]
  split
  next hnone =>
    have hunknown : metadata.requestId ∉ retired.ids := by
      intro hid
      obtain ⟨trace, htrace, hsame⟩ := List.mem_map.1 hid
      exact List.find?_eq_none.1 hnone trace htrace (decide_eq_true hsame)
    refine ⟨?_, h.nodup, h.mem_iff⟩
    rw [Recent.keys_answer, h.order_eq]
    refine (List.filter_eq_self.2 fun other hother => ?_).symm
    rw [← h.order_eq, h.mem_iff] at hother
    exact decide_eq_true fun hsame => hunknown (hsame ▸ hother)
  next =>
    have hfilter := @ids_filter retired fun id => decide (id ≠ metadata.requestId)
    constructor
    · rw [Recent.keys_answer, h.order_eq]
    · rw [ids, hfilter]
      exact h.nodup.filter _
    · intro other
      rw [ids, hfilter, List.mem_filter, List.mem_filter, h.mem_iff]

end RetiredRequests

/-- What holds of the memory after any retirements and responses. -/
structure Remembering (retired : RetiredRequests) (memory : Recent String) : Prop where
  mirrors : retired.Mirrors memory
  sound : memory.Sound maxRetiredRequests

theorem remembering_after (actions : List RetiredAction) :
    Remembering (retiredAfter actions) (memoryAfter actions) := by
  induction actions using List.reverseRecOn with
  | nil => exact ⟨.empty, .empty⟩
  | append_singleton actions action ih =>
    rw [retiredAfter, memoryAfter, List.foldl_append, List.foldl_append]
    cases action with
    | insert requestId traceId =>
      exact ⟨ih.mirrors.insert ih.sound requestId traceId, ih.sound.enter requestId⟩
    | accept metadata hasPayload =>
      exact ⟨ih.mirrors.accept metadata hasPayload, ih.sound.answer metadata.requestId⟩

namespace RetiredRequests

variable {retired : RetiredRequests}

theorem mem_order_insert (hother : other ∈ (retired.insert requestId traceId).order) :
    other ∈ retired.order ∨ other = requestId := by
  rw [RetiredRequests.insert] at hother
  dsimp only at hother
  by_cases hknown : retired.traces.any (·.1 = requestId) = true
  · rw [if_pos hknown] at hother
    exact .inl hother
  · rw [if_neg hknown] at hother
    dsimp only at hother
    rcases List.mem_append.1 (List.mem_of_mem_drop hother) with hmem | hmem
    · exact .inl hmem
    · exact .inr (List.mem_singleton.1 hmem)

theorem mem_order_accept {hasPayload : Bool}
    (hother : other ∈ (retired.accept metadata hasPayload).1.order) : other ∈ retired.order := by
  rw [RetiredRequests.accept] at hother
  split at hother
  next => exact hother
  next => exact List.mem_of_mem_filter hother

end RetiredRequests

/-! ## The table -/

namespace PendingRequests

def ids (table : PendingRequests) : List String := table.active.map (·.requestId)

/-- The same requests are active, and the same ones are remembered. -/
structure SameIds (table next : PendingRequests) : Prop where
  ids_eq : next.ids = table.ids
  retired_eq : next.retired = table.retired

variable {table next : PendingRequests} {request : PendingRequest} {codec : Wire.Codec}
  {config : EngineConfig}

theorem SameIds.refl (table : PendingRequests) : table.SameIds table := ⟨rfl, rfl⟩

theorem SameIds.trans (hfirst : table.SameIds next) (hnext : next.SameIds last) :
    table.SameIds last :=
  ⟨hnext.ids_eq.trans hfirst.ids_eq, hnext.retired_eq.trans hfirst.retired_eq⟩

theorem sameIds_mapStream (requestId : String) (change : StreamPending → StreamPending) :
    table.SameIds (table.mapStream requestId change) := by
  refine ⟨?_, rfl⟩
  rw [ids, ids, mapStream, Rows.update, List.map_map]
  apply List.map_congr_left
  intro request _
  simp only [Function.comp_apply]
  split
  · unfold PendingRequest.mapStream
    split <;> rfl
  · rfl

theorem sameIds_rollbackControl (lane : PendingLane) :
    table.SameIds (table.rollbackControl lane) := by
  unfold rollbackControl
  split
  · exact sameIds_mapStream _ _
  · exact ⟨rfl, rfl⟩
  · exact .refl table

theorem sameIds_fail (failure : PendingFailure) : table.SameIds (table.fail request failure) := by
  unfold fail
  split <;> exact ⟨rfl, rfl⟩

theorem sameIds_setChannel (number : Nat) (channel : Channel StreamItem) :
    table.SameIds (table.setChannel number channel) := ⟨rfl, rfl⟩

theorem sameIds_closeEvents (requestId : String) : table.SameIds (table.closeEvents requestId) := by
  unfold closeEvents
  split
  · exact .refl table
  · split
    · exact .refl table
    · exact sameIds_setChannel _ _

theorem countDown_retired (lane : PendingLane) : (table.countDown lane).retired = table.retired := by
  unfold countDown
  split <;> rfl

theorem countUp_retired (lane : PendingLane) : (table.countUp lane).retired = table.retired := by
  unfold countUp
  split <;> rfl

theorem remove_retired : (table.remove request).retired = table.retired :=
  countDown_retired _

theorem restore_retired : (table.restore request).retired = table.retired :=
  countUp_retired _

theorem ids_remove : (table.remove request).ids = table.ids.filter (· ≠ request.requestId) := by
  rw [ids, remove_active, ids, List.filter_map, others]
  rfl

theorem ids_restore :
    (table.restore request).ids = table.ids.filter (· ≠ request.requestId) ++ [request.requestId] := by
  rw [ids, restore_active, ids, List.filter_map, List.map_append, others]
  rfl

theorem requestId_mem_ids (hfind : table.find requestId = some request) :
    requestId ∈ table.ids := by
  have hmem := Rows.find_mem hfind
  exact List.mem_map.2 ⟨request, hmem.1, hmem.2⟩

theorem find_eq_none_iff :
    table.find requestId = none ↔ requestId ∉ table.ids := by
  rw [find, Rows.find, List.find?_eq_none, ids, List.mem_map]
  simp

/-- How the active and the remembered requests become other ones. -/
structure Ages (inserted : List String) (table next : PendingRequests) : Prop where
  active : ∀ id ∈ next.ids, id ∈ table.ids ∨ id ∈ inserted
  retirements : ∃ actions : List RetiredAction,
    next.retired = actions.foldl RetiredRequests.step table.retired
  remembered : ∀ id ∈ next.retired.order, id ∈ table.retired.order ∨ id ∈ table.ids
  apart : ∀ id ∈ next.ids, id ∈ next.retired.order → id ∈ table.retired.order

theorem Ages.refl (table : PendingRequests) : Ages [] table table where
  active := fun _ hid => .inl hid
  retirements := ⟨[], rfl⟩
  remembered := fun _ hid => .inl hid
  apart := fun _ _ hid => hid

/-- Steps that insert nothing age the table one after another. -/
theorem Ages.trans (hfirst : Ages [] table next) (hnext : Ages [] next last) :
    Ages [] table last where
  active := by
    intro id hid
    exact hfirst.active id ((hnext.active id hid).resolve_right (List.not_mem_nil))
  retirements := by
    obtain ⟨first, hfirst⟩ := hfirst.retirements
    obtain ⟨second, hsecond⟩ := hnext.retirements
    exact ⟨first ++ second, by rw [hsecond, hfirst, List.foldl_append]⟩
  remembered := by
    intro id hid
    rcases hnext.remembered id hid with hid | hid
    · exact hfirst.remembered id hid
    · exact .inr ((hfirst.active id hid).resolve_right (List.not_mem_nil))
  apart := by
    intro id hid horder
    exact hfirst.apart id ((hnext.active id hid).resolve_right (List.not_mem_nil))
      (hnext.apart id hid horder)

theorem ages_of_subset (hids : ∀ id ∈ next.ids, id ∈ table.ids ∨ id ∈ inserted)
    (hretired : next.retired = table.retired) : Ages inserted table next where
  active := hids
  retirements := ⟨[], hretired⟩
  remembered := by
    rw [hretired]
    exact fun _ hid => .inl hid
  apart := by
    rw [hretired]
    exact fun _ _ hid => hid

theorem SameIds.ages (h : table.SameIds next) : Ages [] table next := by
  refine ages_of_subset ?_ h.retired_eq
  rw [h.ids_eq]
  exact fun _ hid => .inl hid

theorem ids_leave : (table.leave request).ids = table.ids.filter (· ≠ request.requestId) := by
  rw [leave, (sameIds_rollbackControl request.lane).ids_eq, ids_remove]

theorem leave_retired : (table.leave request).retired = table.retired := by
  rw [leave, (sameIds_rollbackControl request.lane).retired_eq, remove_retired]

theorem ages_leave : Ages [] table (table.leave request) := by
  refine ages_of_subset ?_ leave_retired
  rw [ids_leave]
  exact fun _ hid => .inl (List.mem_of_mem_filter hid)

theorem ages_retired {left : PendingRequests}
    (hleft : (table.leave request).SameIds left) (hrequest : request.requestId ∈ table.ids) :
    Ages [] table { left with retired := left.retired.insert request.requestId traceId } := by
  have hretired : left.retired = table.retired := hleft.retired_eq.trans leave_retired
  have hids : ∀ id ∈ left.ids, id ∈ table.ids ∧ id ≠ request.requestId := by
    intro id hid
    rw [hleft.ids_eq, ids_leave, List.mem_filter, decide_eq_true_eq] at hid
    exact hid
  constructor
  · exact fun id hid => .inl (hids id hid).1
  · exact ⟨[.insert request.requestId traceId], by rw [hretired]; rfl⟩
  · intro id hid
    rw [hretired] at hid
    rcases RetiredRequests.mem_order_insert hid with hid | rfl
    · exact .inl hid
    · exact .inr hrequest
  · intro id hid horder
    rw [hretired] at horder
    exact (RetiredRequests.mem_order_insert horder).resolve_right (hids id hid).2

theorem ages_retire (requestId : String) : Ages [] table (table.retire requestId).1 := by
  unfold retire
  split
  next => exact .refl table
  next request hfind =>
    dsimp only
    split
    next => exact ages_leave
    next =>
      obtain rfl := requestId_of_find hfind
      exact ages_retired (.refl _) (requestId_mem_ids hfind)

theorem ages_expireRequest (requestId : String) :
    Ages [] table (table.expireRequest requestId).1 := by
  unfold expireRequest
  split
  next => exact .refl table
  next request hfind =>
    dsimp only
    split
    next => exact ages_leave.trans (sameIds_fail _).ages
    next =>
      obtain rfl := requestId_of_find hfind
      exact ages_retired (sameIds_fail _) (requestId_mem_ids hfind)

theorem ages_expire (order : List String) : Ages [] table (table.expire order).1 := by
  have hfold : ∀ (first : PendingRequests) (fatal : Option String),
      Ages [] first (order.foldl (fun (state : PendingRequests × Option String) requestId =>
        ((state.1.expireRequest requestId).1,
          state.2.or (state.1.expireRequest requestId).2)) (first, fatal)).1 := by
    induction order with
    | nil => exact fun first _ => .refl first
    | cons requestId order ih =>
      intro first fatal
      rw [List.foldl_cons]
      exact (ages_expireRequest requestId).trans (ih _ _)
  exact hfold table none

theorem ages_rejectWithFailure (requestId : String) (failure : PendingFailure) :
    Ages [] table (table.rejectWithFailure requestId failure) := by
  unfold rejectWithFailure
  split
  next => exact .refl table
  next => exact ages_leave.trans (sameIds_fail _).ages

theorem sameIds_abandonStream (requestId sessionId : String) :
    table.SameIds (table.abandonStream requestId sessionId) := by
  unfold abandonStream
  split
  next => exact .refl table
  next =>
    split
    next => exact .refl table
    next => exact sameIds_mapStream _ _

theorem ages_failAll (message : String) : Ages [] table (table.failAll message) := by
  have hfold : ∀ (requests : List PendingRequest) (first : PendingRequests),
      (requests.foldl (fun failed request => failed.fail request (.unavailable message .unknown))
        first).retired = first.retired := by
    intro requests
    induction requests with
    | nil => exact fun _ => rfl
    | cons request requests ih =>
      intro first
      rw [List.foldl_cons, ih, (sameIds_fail _).retired_eq]
  refine ages_of_subset ?_ (hfold _ _)
  intro id hid
  exact absurd hid (List.not_mem_nil)

theorem sameIds_prepareControl {effect : ControlEffect} {sessionId : Option String}
    (hprepare : table.prepareControl effect sessionId = .ok next) : table.SameIds next := by
  cases controls_of_prepareControl hprepare with
  | grantCredits => exact sameIds_mapStream _ _
  | cancel => exact ⟨rfl, rfl⟩

/-- An insertion brings in one request. -/
theorem ages_insert (requestId traceId : String) (sessionId : Option String) (sink : PendingSink)
    (deadline : Nat) (lane : PendingLane) :
    Ages [requestId] table (table.insert requestId traceId sessionId sink deadline lane).1 := by
  have hsame : Ages [requestId] table table :=
    ages_of_subset (fun _ hid => .inl hid) rfl
  unfold insert
  extract_lets prepared
  cases hprepared : prepared with
  | error failure => exact hsame
  | ok next =>
    have hnext : table.SameIds next := by
      cases lane with
      | control effect => exact sameIds_prepareControl hprepared
      | _ =>
        obtain rfl := Except.ok.inj hprepared
        exact .refl _
    dsimp only
    split
    next =>
      refine ages_of_subset ?_ hnext.retired_eq
      rw [hnext.ids_eq]
      exact fun _ hid => .inl hid
    next =>
      refine ages_of_subset ?_ (restore_retired.trans hnext.retired_eq)
      rw [ids_restore, hnext.ids_eq]
      intro id hid
      rcases List.mem_append.1 hid with hid | hid
      · exact .inl (List.mem_of_mem_filter hid)
      · exact .inr hid

theorem sameIds_failSink (requestId : String) (sink : PendingSink) (failure : PendingFailure) :
    table.SameIds (table.failSink requestId sink failure) := by
  unfold failSink
  split
  · exact ⟨rfl, rfl⟩
  · split
    · exact .refl table
    · split
      · exact ⟨rfl, rfl⟩
      · exact .refl table

theorem Ages.then_same (hfirst : Ages inserted table next) (hnext : next.SameIds last) :
    Ages inserted table last where
  active := by
    rw [hnext.ids_eq]
    exact hfirst.active
  retirements := by
    rw [hnext.retired_eq]
    exact hfirst.retirements
  remembered := by
    rw [hnext.retired_eq]
    exact hfirst.remembered
  apart := by
    rw [hnext.ids_eq, hnext.retired_eq]
    exact hfirst.apart

theorem Ages.of_same {first : PendingRequests}
    (hsame : first.SameIds table) (hnext : Ages inserted table next) : Ages inserted first next where
  active := by
    rw [← hsame.ids_eq]
    exact hnext.active
  retirements := by
    rw [← hsame.retired_eq]
    exact hnext.retirements
  remembered := by
    rw [← hsame.retired_eq, ← hsame.ids_eq]
    exact hnext.remembered
  apart := by
    rw [← hsame.retired_eq]
    exact hnext.apart

theorem ages_acceptRequest (requestId traceId : String) (sessionId : Option String)
    (query : Option (Nat × QueryBudgets)) (deadline : Nat) (lane : PendingLane) :
    Ages [requestId] table
      (table.acceptRequest config requestId traceId sessionId query deadline lane) := by
  have hopened : table.SameIds (table.openSink config query).1 := by
    cases query <;> exact ⟨rfl, rfl⟩
  have hinsert := (@ages_insert (table.openSink config query).1 requestId traceId sessionId
    (table.openSink config query).2 deadline lane).of_same hopened
  unfold acceptRequest
  dsimp only
  split
  next hresult =>
    rw [hresult] at hinsert
    exact hinsert
  next hresult =>
    rw [hresult] at hinsert
    exact hinsert.then_same (sameIds_failSink _ _ _)

theorem sameIds_routeUnary {payload : Wire.Payload}
    (hroute : table.routeUnary request metadata payload = .ok next) : table.SameIds next := by
  simp only [routeUnary, Outcome.bind_eq_ok, Outcome.rejectIf_eq_ok, exists_const] at hroute
  obtain ⟨-, -, hroute⟩ := hroute
  split at hroute
  next applied happlied =>
    obtain rfl := (Outcome.pure_eq_ok _ _).mp hroute
    obtain ⟨_, _, _, -, rfl⟩ | ⟨_, -, rfl⟩ | ⟨-, rfl⟩ := applyLaneResponse_cases happlied
    · exact (sameIds_mapStream _ _).trans ⟨rfl, rfl⟩
    · exact ⟨rfl, rfl⟩
    · exact ⟨rfl, rfl⟩
  next =>
    split_ifs at hroute
    obtain rfl := (Outcome.pure_eq_ok _ _).mp hroute
    exact ⟨rfl, rfl⟩

theorem ages_routeRequest {payload : Option Wire.Payload}
    (hroute : table.routeRequest codec request metadata payload = .ok next) :
    Ages [request.requestId] table next := by
  simp only [routeRequest, Outcome.bind_eq_ok, Outcome.rejectIf_eq_ok, exists_const] at hroute
  obtain ⟨-, payload, -, _, -, hroute⟩ := hroute
  have hsame : Ages [request.requestId] table table :=
    ages_of_subset (fun _ hid => .inl hid) rfl
  cases hkind : request.kind with
  | unary =>
    rw [hkind] at hroute
    exact hsame.then_same (sameIds_routeUnary hroute)
  | stream stream =>
    rw [hkind] at hroute
    simp only [routeStream] at hroute
    split at hroute
    next => cases hroute
    next =>
      split at hroute
      next =>
        obtain rfl := Except.ok.inj hroute
        exact hsame.then_same ⟨rfl, rfl⟩
      next =>
        obtain rfl := Except.ok.inj hroute
        refine ages_of_subset ?_ restore_retired
        rw [ids_restore]
        intro id hid
        rcases List.mem_append.1 hid with hid | hid
        · exact .inl (List.mem_of_mem_filter hid)
        · exact .inr hid

theorem ages_routeResponse (response : Wire.ServerEnvelope) :
    Ages [] table (table.routeResponse codec response).1 := by
  unfold routeResponse
  split
  next => exact .refl table
  next metadata _ =>
    split
    next => exact .refl table
    next =>
      split
      next =>
        constructor
        · exact fun _ hid => .inl hid
        · exact ⟨[.accept metadata response.payload.isSome], rfl⟩
        · exact fun _ hid => .inl (RetiredRequests.mem_order_accept hid)
        · exact fun _ _ hid => RetiredRequests.mem_order_accept hid
      next request hfind =>
        have hrequest : request.requestId ∈ table.ids := by
          rw [requestId_of_find hfind]
          exact requestId_mem_ids hfind
        have hremove : Ages [] table (table.remove request) := by
          refine ages_of_subset ?_ remove_retired
          rw [ids_remove]
          exact fun _ hid => .inl (List.mem_of_mem_filter hid)
        split
        next routed hroute =>
          have hrouted := ages_routeRequest hroute
          have hids : ∀ id ∈ routed.ids, id ∈ table.ids := by
            intro id hid
            rcases hrouted.active id hid with hid | hid
            · exact (hremove.active id hid).resolve_right (List.not_mem_nil)
            · rw [List.mem_singleton.1 hid]
              exact hrequest
          constructor
          · exact fun id hid => .inl (hids id hid)
          · obtain ⟨actions, hactions⟩ := hrouted.retirements
            exact ⟨actions, by rw [hactions, remove_retired]⟩
          · intro id hid
            rcases hrouted.remembered id hid with hid | hid
            · rw [remove_retired] at hid
              exact .inl hid
            · exact .inr ((hremove.active id hid).resolve_right (List.not_mem_nil))
          · intro id hid horder
            have horder := hrouted.apart id hid horder
            rwa [remove_retired] at horder
        next => exact hremove

end PendingRequests

def PendingAction.insertedIds : PendingAction → List String
  | .insert requestId .. => [requestId]
  | _ => []

namespace PendingRequests

variable {table next : PendingRequests} {codec : Wire.Codec} {config : EngineConfig}

/-- What an action does to the active and the remembered requests. -/
theorem ages_step {action : PendingAction} (hstep : table.step config codec action = some next) :
    Ages action.insertedIds table next ∧ ∀ id ∈ action.insertedIds, id.utf8ByteSize ≠ 0 := by
  cases action with
  | insert requestId traceId sessionId query deadline lane =>
    obtain ⟨hguard, hnext⟩ := Option.ite_none_left_eq_some.1 hstep
    cases hnext
    refine ⟨ages_acceptRequest requestId traceId sessionId query deadline lane, ?_⟩
    intro id hid
    rw [List.mem_singleton.1 hid]
    exact fun hempty => hguard (.inl hempty)
  | reject requestId failure =>
    cases hstep
    exact ⟨ages_rejectWithFailure _ _, by simp [PendingAction.insertedIds]⟩
  | retire requestId =>
    obtain ⟨-, hnext⟩ := Option.ite_none_left_eq_some.1 hstep
    cases hnext
    exact ⟨ages_retire _, by simp [PendingAction.insertedIds]⟩
  | abandon requestId sessionId =>
    refine ⟨?_, by simp [PendingAction.insertedIds]⟩
    rw [step] at hstep
    split at hstep
    next =>
      cases hstep
      exact ((sameIds_closeEvents _).trans (sameIds_abandonStream _ _)).ages
    next =>
      cases hstep
      exact .refl _
  | expire now order =>
    obtain ⟨-, hnext⟩ := Option.ite_none_right_eq_some.1 hstep
    cases hnext
    exact ⟨ages_expire _, by simp [PendingAction.insertedIds]⟩
  | route response =>
    cases hstep
    exact ⟨ages_routeResponse _, by simp [PendingAction.insertedIds]⟩
  | failAll message =>
    cases hstep
    exact ⟨ages_failAll _, by simp [PendingAction.insertedIds]⟩
  | receive number =>
    obtain ⟨channel, -, hstep⟩ := Option.bind_eq_some_iff.1 hstep
    obtain ⟨taken, -, hstep⟩ := Option.bind_eq_some_iff.1 hstep
    cases hstep
    exact ⟨(sameIds_setChannel _ _).ages, by simp [PendingAction.insertedIds]⟩
  | dropReceiver number =>
    obtain ⟨channel, -, hstep⟩ := Option.bind_eq_some_iff.1 hstep
    cases hstep
    exact ⟨(sameIds_setChannel _ _).ages, by simp [PendingAction.insertedIds]⟩

end PendingRequests

/-! ## Runs -/

/-- The ids of the requests, which the engine numbers. -/
def insertedIds (actions : List PendingAction) : List String :=
  actions.flatMap PendingAction.insertedIds

/-- What a table has behind it when no id was given twice. -/
structure Tracked (actions : List PendingAction) (table : PendingRequests) : Prop where
  retired : ∃ retirements, table.retired = retiredAfter retirements
  active : ∀ id ∈ table.ids, id ∈ insertedIds actions
  remembered : ∀ id ∈ table.retired.order, id ∈ insertedIds actions
  nonempty : ∀ id ∈ insertedIds actions, id.utf8ByteSize ≠ 0
  apart : ∀ id ∈ table.ids, id ∉ table.retired.order

theorem insertedIds_append (actions : List PendingAction) (action : PendingAction) :
    insertedIds (actions ++ [action]) = insertedIds actions ++ action.insertedIds := by
  rw [insertedIds, List.flatMap_append, List.flatMap_singleton]
  rfl

variable {config : EngineConfig} {codec : Wire.Codec} {actions : List PendingAction}
  {table next : PendingRequests}

/-- The invariant of the memory, kept by every action. -/
theorem Tracked.step {action : PendingAction} (h : Tracked actions table)
    (hstep : table.step config codec action = some next)
    (hdistinct : (insertedIds (actions ++ [action])).Nodup) :
    Tracked (actions ++ [action]) next := by
  obtain ⟨hages, hnonempty⟩ := PendingRequests.ages_step hstep
  rw [insertedIds_append] at hdistinct
  have hnew := (List.nodup_append.1 hdistinct).2.2
  constructor
  · obtain ⟨before, hbefore⟩ := h.retired
    obtain ⟨later, hlater⟩ := hages.retirements
    refine ⟨before ++ later, ?_⟩
    rw [hlater, hbefore, retiredAfter, retiredAfter, List.foldl_append]
  · intro id hid
    rw [insertedIds_append, List.mem_append]
    exact (hages.active id hid).imp_left (h.active id)
  · intro id hid
    rw [insertedIds_append, List.mem_append]
    rcases hages.remembered id hid with hid | hid
    · exact .inl (h.remembered id hid)
    · exact .inl (h.active id hid)
  · intro id hid
    rw [insertedIds_append] at hid
    rcases List.mem_append.1 hid with hid | hid
    · exact h.nonempty id hid
    · exact hnonempty id hid
  · intro id hid horder
    have hbefore := hages.apart id hid horder
    rcases hages.active id hid with hactive | hinserted
    · exact h.apart id hactive hbefore
    · exact hnew id (h.remembered id hbefore) id hinserted rfl

theorem tracked_after (hrun : pendingAfter config codec actions = some table)
    (hdistinct : (insertedIds actions).Nodup) : Tracked actions table := by
  refine Machine.run_induction (motive := fun actions table =>
    (insertedIds actions).Nodup → Tracked actions table) ?_ ?_ hrun hdistinct
  · intro _
    exact ⟨⟨[], rfl⟩, by simp [PendingRequests.new, PendingRequests.ids],
      by simp [PendingRequests.new], by simp [insertedIds],
      by simp [PendingRequests.new, PendingRequests.ids]⟩
  · intro actions action before after _ hstep ih hdistinct
    refine (ih ?_).step hstep hdistinct
    rw [insertedIds_append] at hdistinct
    exact (List.nodup_append.1 hdistinct).1

/-- An id that is neither active nor remembered. -/
structure Gone (table : PendingRequests) (requestId : String) : Prop where
  inactive : requestId ∉ table.ids
  forgotten : requestId ∉ table.retired.order

/-- A request that is gone stays gone while its id is not given again. -/
theorem Gone.run (h : Gone table requestId)
    (hrun : Machine.run (PendingRequests.step config codec) table actions = some next)
    (hnew : requestId ∉ insertedIds actions) : Gone next requestId := by
  induction actions generalizing table with
  | nil =>
    obtain rfl := Option.some.inj hrun
    exact h
  | cons action actions ih =>
    rw [Machine.run_cons] at hrun
    obtain ⟨middle, hstep, hrest⟩ := Option.bind_eq_some_iff.1 hrun
    have hsplit : requestId ∉ action.insertedIds ∧ requestId ∉ insertedIds actions := by
      rw [insertedIds, List.flatMap_cons, List.mem_append, not_or] at hnew
      exact hnew
    obtain ⟨hages, -⟩ := PendingRequests.ages_step hstep
    refine ih ⟨fun hactive => ?_, fun horder => ?_⟩ hrest hsplit.2
    · rcases hages.active requestId hactive with hactive | hinserted
      · exact h.inactive hactive
      · exact hsplit.1 hinserted
    · rcases hages.remembered requestId horder with horder | hactive
      · exact h.forgotten horder
      · exact h.inactive hactive

namespace RetiredRequests

def forget (retired : RetiredRequests) (requestId : String) : RetiredRequests where
  traces := retired.traces.filter (·.1 ≠ requestId)
  order := retired.order.filter (· ≠ requestId)

/-- The one response of a unary request. -/
def ValidLate (traceId : String) (metadata : Wire.ResponseMeta) (hasPayload : Bool) : Prop :=
  metadata.traceId = traceId ∧ metadata.sequence = 0 ∧ metadata.terminal = true ∧ hasPayload = true

theorem validate_eq_ok {hasPayload : Bool} :
    validate traceId metadata hasPayload = .ok () ↔ ValidLate traceId metadata hasPayload := by
  rw [validate, Outcome.bind_eq_ok]
  simp only [Outcome.rejectIf_eq_ok, exists_const, not_not, not_or, ValidLate]

theorem find?_of_mem {traces : List (String × String)} (hnodup : (traces.map Prod.fst).Nodup)
    (hmem : (requestId, traceId) ∈ traces) :
    traces.find? (·.1 = requestId) = some (requestId, traceId) := by
  induction traces with
  | nil => cases hmem
  | cons trace traces ih =>
    rw [List.map_cons, List.nodup_cons] at hnodup
    rcases List.mem_cons.1 hmem with rfl | hrest
    · simp
    · have hne : trace.1 ≠ requestId := by
        rintro rfl
        exact hnodup.1 (List.mem_map.2 ⟨_, hrest, rfl⟩)
      rw [List.find?_cons_of_neg (by simpa using hne)]
      exact ih hnodup.2 hrest

end RetiredRequests

/-- A late response to a remembered request changes nothing but the memory. -/
theorem routeResponse_late {response : Wire.ServerEnvelope} {metadata : Wire.ResponseMeta}
    {traceId : String} (htracked : Tracked actions table)
    (hmeta : response.responseMeta = some metadata)
    (hremembered : (metadata.requestId, traceId) ∈ table.retired.traces) :
    (table.routeResponse codec response).1 =
        { table with retired := table.retired.forget metadata.requestId } ∧
      ((table.routeResponse codec response).2 = .ok () ↔
        RetiredRequests.ValidLate traceId metadata response.payload.isSome) := by
  obtain ⟨retirements, hretired⟩ := htracked.retired
  have hmirrors := (remembering_after retirements).mirrors
  rw [← hretired] at hmirrors
  have horder : metadata.requestId ∈ table.retired.order := by
    rw [hmirrors.mem_iff]
    exact List.mem_map_of_mem hremembered
  have hsize := htracked.nonempty _ (htracked.remembered _ horder)
  have hinactive : table.find metadata.requestId = none := by
    rw [PendingRequests.find_eq_none_iff]
    exact fun hactive => htracked.apart _ hactive horder
  have haccept : table.retired.accept metadata response.payload.isSome =
      (table.retired.forget metadata.requestId,
        RetiredRequests.validate traceId metadata response.payload.isSome) := by
    rw [RetiredRequests.accept, RetiredRequests.find?_of_mem hmirrors.nodup hremembered]
    rfl
  have hroute : table.routeResponse codec response =
      ({ table with retired := table.retired.forget metadata.requestId },
        RetiredRequests.validate traceId metadata response.payload.isSome) := by
    unfold PendingRequests.routeResponse
    rw [hmeta]
    dsimp only
    rw [if_neg hsize, hinactive]
    dsimp only
    rw [haccept]
  rw [hroute]
  exact ⟨rfl, RetiredRequests.validate_eq_ok⟩

theorem routeResponse_gone {response : Wire.ServerEnvelope}
    (hmirrors : ∀ id, id ∈ table.retired.order ↔ id ∈ table.retired.ids)
    (hmeta : response.responseMeta = some metadata) (hgone : Gone table metadata.requestId) :
    (table.routeResponse codec response).2 ≠ .ok () := by
  unfold PendingRequests.routeResponse
  rw [hmeta]
  dsimp only
  split
  next => exact fun h => nomatch h
  next =>
    have hunknown : table.retired.traces.find? (·.1 = metadata.requestId) = none := by
      rw [List.find?_eq_none]
      intro trace htrace hsame
      exact hgone.forgotten
        ((hmirrors _).2 (List.mem_map.2 ⟨trace, htrace, of_decide_eq_true hsame⟩))
    rw [PendingRequests.find_eq_none_iff.2 hgone.inactive]
    dsimp only
    rw [RetiredRequests.accept, hunknown]
    exact fun h => nomatch h

theorem retirements_run (hretired : ∃ retirements, table.retired = retiredAfter retirements)
    (hrun : Machine.run (PendingRequests.step config codec) table actions = some next) :
    ∃ retirements, next.retired = retiredAfter retirements := by
  refine Machine.run_invariant (motive := fun table : PendingRequests =>
    ∃ retirements, table.retired = retiredAfter retirements) hretired ?_ hrun
  rintro before action after ⟨first, hfirst⟩ hstep
  obtain ⟨later, hlater⟩ := (PendingRequests.ages_step hstep).1.retirements
  exact ⟨first ++ later, by rw [hlater, hfirst, retiredAfter, retiredAfter, List.foldl_append]⟩

theorem gone_of_late (htracked : Tracked actions table) (horder : requestId ∈ table.retired.order) :
    Gone { table with retired := table.retired.forget requestId } requestId where
  inactive := fun hactive => htracked.apart requestId hactive horder
  forgotten := fun hmem => of_decide_eq_true (List.mem_filter.1 hmem).2 rfl

/-- Whatever retirements and responses there were, the queue holds the remembered ids
once each, at most as many as there is room for, and those that were forgotten are the
oldest. In a run in which no id is given twice, a valid late response to a remembered
request is taken, changes nothing but the memory, and is the last one that is taken. -/
theorem retired_requests_remembered (retirements : List RetiredAction)
    (hrun : pendingAfter config codec actions = some table)
    (hdistinct : (insertedIds actions).Nodup) :
    ((retiredAfter retirements).order.Nodup ∧ (retiredAfter retirements).ids.Nodup ∧
        (∀ id, id ∈ (retiredAfter retirements).order ↔ id ∈ (retiredAfter retirements).ids) ∧
        (retiredAfter retirements).order.length ≤ maxRetiredRequests ∧
        (retiredAfter retirements).order = (memoryAfter retirements).keys ∧
        (memoryAfter retirements).Sound maxRetiredRequests) ∧
      (∃ others, table.retired = retiredAfter others) ∧
      ∀ response metadata traceId, response.responseMeta = some metadata →
        (metadata.requestId, traceId) ∈ table.retired.traces →
        (table.routeResponse codec response).1 =
            { table with retired := table.retired.forget metadata.requestId } ∧
          ((table.routeResponse codec response).2 = .ok () ↔
            RetiredRequests.ValidLate traceId metadata response.payload.isSome) ∧
          ∀ later next, Machine.run (PendingRequests.step config codec)
              (table.routeResponse codec response).1 later = some next →
            metadata.requestId ∉ insertedIds later →
            ∀ again metadata', again.responseMeta = some metadata' →
              metadata'.requestId = metadata.requestId →
              (next.routeResponse codec again).2 ≠ .ok () := by
  obtain ⟨hmirrors, hsound⟩ := remembering_after retirements
  have htracked := tracked_after hrun hdistinct
  refine ⟨⟨?_, hmirrors.nodup, hmirrors.mem_iff, ?_, hmirrors.order_eq, hsound⟩,
    htracked.retired, ?_⟩
  · rw [hmirrors.order_eq]
    exact hsound.nodup
  · rw [hmirrors.order_eq]
    exact hsound.length_le
  · intro response metadata traceId hmeta hremembered
    have hlate := @routeResponse_late codec _ _ _ _ _ htracked hmeta hremembered
    refine ⟨hlate.1, hlate.2, ?_⟩
    intro later next hlater hnew again metadata' hagain hsame
    have hroute : table.step config codec (.route response) =
        some (table.routeResponse codec response).1 := rfl
    obtain ⟨others, hothers⟩ := htracked.retired
    have horder : metadata.requestId ∈ table.retired.order := by
      have hmem := (remembering_after others).mirrors.mem_iff metadata.requestId
      rw [← hothers] at hmem
      exact hmem.2 (List.mem_map_of_mem hremembered)
    have hgone : Gone next metadata.requestId := by
      rw [hlate.1] at hlater
      exact (gone_of_late htracked horder).run hlater hnew
    have hafterwards : Machine.run (PendingRequests.step config codec) table
        (.route response :: later) = some next := by
      rw [Machine.run_cons, hroute]
      exact hlater
    obtain ⟨after, hafter⟩ := retirements_run ⟨others, hothers⟩ hafterwards
    apply routeResponse_gone _ hagain
    · rw [hsame]
      exact hgone
    · rw [hafter]
      exact (remembering_after after).mirrors.mem_iff

def abandonedRequest : List PendingAction :=
  [.insert "1-3" "engine-1-3" none none 1000 .retireable, .retire "1-3"]

def lateResponse : Wire.ServerEnvelope where
  responseMeta := some
    { requestId := "1-3", traceId := "engine-1-3", sequence := 0, terminal := true }
  payload := some .operationCancelled

theorem abandonedRequest_absorbed :
    ∃ table, pendingAfter defaultConfig emptyCodec abandonedRequest = some table ∧
      (table.routeResponse emptyCodec lateResponse).2 = .ok () := by
  obtain ⟨table, hrun, hremembered⟩ : ∃ table,
      pendingAfter defaultConfig emptyCodec abandonedRequest = some table ∧
        ("1-3", "engine-1-3") ∈ table.retired.traces := ⟨_, rfl, by decide +kernel⟩
  obtain ⟨-, -, hlate⟩ := retired_requests_remembered [] hrun (by decide)
  exact ⟨table, hrun, (hlate lateResponse _ _ rfl hremembered).2.1.2 ⟨rfl, rfl, rfl, rfl⟩⟩

end Chat2DB.Supervisor
