import Chat2DB.Supervisor.Pending
import Chat2DB.Supervisor.StreamRules

/-! # Room for the events of a stream

The channel of a stream has a slot for every batch that the stream may still
send, for its start and for its end. So the table never meets a full channel.
What ends a stream reaches its consumer, unless the engine breaks the protocol.
-/

namespace Chat2DB.Supervisor

/-- An item after which nothing comes. -/
def Terminal : StreamItem → Prop
  | .ok (.completed _) | .error _ => True
  | .ok (.started _) | .ok (.batch _) => False

/-- What was sent last is the end. -/
def Ended (channel : Channel StreamItem) : Prop :=
  ∃ item, channel.sent.getLast? = some item ∧ Terminal item

theorem ended_of_trySend {channel next : Channel StreamItem} {item : StreamItem}
    (hterminal : Terminal item) (hsend : channel.trySend item = .ok next) : Ended next := by
  refine ⟨item, ?_, hterminal⟩
  rw [(Channel.trySend_ok hsend).1, List.getLast?_append]
  rfl

/-! ## One stream -/

namespace StreamPending

/-- The slots that the stream may still fill. -/
def need (stream : StreamPending) : Nat := stream.outstandingCredits + stream.reservedNonBatch

variable {codec : Wire.Codec} {stream next : StreamPending} {metadata : Wire.ResponseMeta}
  {payload : Wire.Payload} {channels : List (Channel StreamItem)}

theorem one_le_need : 1 ≤ stream.need := by
  unfold need reservedNonBatch
  omega

/-- The stream keeps to its credits, and its channel has room for it. -/
def Fits (channels : List (Channel StreamItem)) (stream : StreamPending) : Prop :=
  stream.outstandingCredits ≤ maxOutstandingCredits ∧
    ∀ number, stream.events = some number →
      ∃ channel, channels[number]? = some channel ∧ stream.need ≤ channel.free

theorem Fits.channel {number : Nat} (hfits : stream.Fits channels)
    (hevents : stream.events = some number) :
    ∃ channel, channels[number]? = some channel ∧ stream.need ≤ channel.free ∧
      0 < channel.free := by
  obtain ⟨channel, hchannel, hneed⟩ := hfits.2 number hevents
  exact ⟨channel, hchannel, hneed, Nat.lt_of_lt_of_le one_le_need hneed⟩

theorem Accepts.spends {item : StreamItem}
    (haccepts : stream.Accepts codec metadata payload next item false) :
    next.events = stream.events ∧ next.outstandingCredits ≤ stream.outstandingCredits ∧
      next.need + 1 ≤ stream.need ∧ ∃ event, item = .ok event := by
  cases haccepts with
  | started hfollows _ =>
    refine ⟨rfl, Nat.le_refl _, ?_, _, rfl⟩
    simp [need, reservedNonBatch, hfollows.first.1]
  | batch hfollows _ =>
    have hcredit := hfollows.credit
    refine ⟨rfl, Nat.sub_le _ _, ?_, _, rfl⟩
    simp only [need, reservedNonBatch]
    omega

theorem Accepts.terminal {item : StreamItem}
    (haccepts : stream.Accepts codec metadata payload next item true) :
    next = stream ∧ Terminal item := by
  cases haccepts with
  | completed _ hconverted =>
    obtain rfl := Except.ok.inj hconverted
    exact ⟨rfl, trivial⟩
  | failed _ => exact ⟨rfl, trivial⟩

/-- The stream has no consumer any more. -/
def Deserted (channels : List (Channel StreamItem)) (stream : StreamPending) : Prop :=
  ∀ number, stream.events = some number →
    ∃ channel, channels[number]? = some channel ∧ channel.closed = true

/-- The item is in the channel, or there is nobody to take it. -/
inductive Sent (stream : StreamPending) (channels : List (Channel StreamItem)) (item : StreamItem) :
    List (Channel StreamItem) → Prop where
  | delivered {number : Nat} {channel sent : Channel StreamItem}
      (hevents : stream.events = some number) (hchannel : channels[number]? = some channel)
      (hsend : channel.trySend item = .ok sent) : Sent stream channels item (channels.set number sent)
  | deserted (hdeserted : stream.Deserted channels) : Sent stream channels item channels

theorem deserted_of_none (hevents : stream.events = none) : stream.Deserted channels := by
  intro number hnumber
  rw [hevents] at hnumber
  cases hnumber

theorem deserted_of_closed {number : Nat} {channel : Channel StreamItem}
    (hevents : stream.events = some number) (hchannel : channels[number]? = some channel)
    (hclosed : channel.closed = true) : stream.Deserted channels := by
  intro other hother
  obtain rfl : number = other := Option.some.inj (hevents.symm.trans hother)
  exact ⟨channel, hchannel, hclosed⟩

theorem emit_of_fits (event : QueryEvent) (hfits : stream.Fits channels) :
    ∃ after changed, stream.emit channels event = .ok (after, changed) ∧
      stream.Sent channels (.ok event) changed ∧
        (after = stream ∨ (changed = channels ∧ after.events = none ∧ stream.Deserted channels ∧
          after.outstandingCredits = stream.outstandingCredits)) := by
  unfold emit
  cases hevents : stream.events with
  | none =>
    exact ⟨stream, channels, rfl, .deserted (deserted_of_none hevents), .inl rfl⟩
  | some number =>
    obtain ⟨channel, hchannel, -, hfree⟩ := hfits.channel hevents
    simp only [hchannel]
    cases hsend : channel.trySend (.ok event) with
    | ok sent => exact ⟨stream, _, rfl, .delivered hevents hchannel hsend, .inl rfl⟩
    | error error =>
      rcases Channel.trySend_error hsend with ⟨rfl, hclosed⟩ | ⟨-, hfull⟩
      · have hdeserted := deserted_of_closed hevents hchannel hclosed
        exact ⟨_, channels, rfl, .deserted hdeserted, .inr ⟨rfl, rfl, hdeserted, rfl⟩⟩
      · omega

theorem emitFailure_of_fits (failure : PendingFailure) (hfits : stream.Fits channels) :
    stream.Sent channels (.error failure) (stream.emitFailure channels failure) := by
  unfold emitFailure
  cases hevents : stream.events with
  | none => exact .deserted (deserted_of_none hevents)
  | some number =>
    obtain ⟨channel, hchannel, -, hfree⟩ := hfits.channel hevents
    simp only [hchannel]
    cases hsend : channel.trySend (.error failure) with
    | ok sent => exact .delivered hevents hchannel hsend
    | error error =>
      rcases Channel.trySend_error hsend with ⟨-, hclosed⟩ | ⟨-, hfull⟩
      · exact .deserted (deserted_of_closed hevents hchannel hclosed)
      · omega

end StreamPending

/-! ## All streams -/

namespace PendingRequest

def Fits (channels : List (Channel StreamItem)) (request : PendingRequest) : Prop :=
  ∀ stream ∈ request.streamPending, stream.Fits channels

variable {request : PendingRequest} {channels : List (Channel StreamItem)} {number : Nat}

theorem events_eq_some_iff :
    request.events = some number ↔
      ∃ stream ∈ request.streamPending, stream.events = some number := by
  simp [events, Option.bind_eq_some_iff]

theorem Fits.set {channel after : Channel StreamItem} (hfits : request.Fits channels)
    (hchannel : channels[number]? = some channel)
    (hfree : request.events = some number → channel.free ≤ after.free) :
    request.Fits (channels.set number after) := by
  intro stream hstream
  refine ⟨(hfits stream hstream).1, ?_⟩
  intro other hother
  obtain ⟨found, hfound, hneed⟩ := (hfits stream hstream).2 other hother
  by_cases heq : number = other
  · subst heq
    obtain rfl : channel = found := Option.some.inj (hchannel.symm.trans hfound)
    have hbound : number < channels.length := (List.getElem?_eq_some_iff.mp hchannel).1
    refine ⟨after, List.getElem?_set_self hbound, Nat.le_trans hneed (hfree ?_)⟩
    exact events_eq_some_iff.mpr ⟨stream, hstream, hother⟩
  · exact ⟨found, by rw [List.getElem?_set_ne heq]; exact hfound, hneed⟩

end PendingRequest

/-- Every stream has a channel of its own, with room in it. -/
structure Housed (active : List PendingRequest) (channels : List (Channel StreamItem)) : Prop where
  keyed : Rows.Keyed PendingRequest.requestId active
  apart : (active.filterMap PendingRequest.events).Nodup
  fits : ∀ request ∈ active, request.Fits channels

/-- An open channel has a stream that fills it, or its end was sent. -/
def Attended (active : List PendingRequest) (channels : List (Channel StreamItem)) : Prop :=
  ∀ number channel, channels[number]? = some channel → channel.closed = false →
    (∃ request ∈ active, request.events = some number) ∨ Ended channel

variable {active rest : List PendingRequest} {channels : List (Channel StreamItem)}
  {request : PendingRequest} {number : Nat} {channel after : Channel StreamItem}

namespace Housed

theorem perm {other : List PendingRequest} (hhoused : Housed active channels)
    (hperm : active.Perm other) : Housed other channels where
  keyed := (hperm.map _).nodup_iff.mp hhoused.keyed
  apart := (hperm.filterMap _).nodup_iff.mp hhoused.apart
  fits := fun request hrequest => hhoused.fits request (hperm.mem_iff.mpr hrequest)

theorem tail (hhoused : Housed (request :: rest) channels) : Housed rest channels where
  keyed := (List.nodup_cons.mp hhoused.keyed).2
  apart := hhoused.apart.sublist ((List.sublist_cons_self request rest).filterMap _)
  fits := fun other hother => hhoused.fits other (List.mem_cons_of_mem request hother)

theorem alone (hhoused : Housed (request :: rest) channels) (hevents : request.events = some number) :
    ∀ other ∈ rest, other.events ≠ some number := by
  intro other hother heq
  have hapart := hhoused.apart
  rw [List.filterMap_cons_some hevents, List.nodup_cons] at hapart
  exact hapart.1 (List.mem_filterMap.mpr ⟨other, hother, heq⟩)

theorem cons (hhoused : Housed rest channels)
    (hfresh : ∀ other ∈ rest, other.requestId ≠ request.requestId)
    (halone : ∀ number, request.events = some number → ∀ other ∈ rest, other.events ≠ some number)
    (hfits : request.Fits channels) : Housed (request :: rest) channels where
  keyed := by
    refine List.nodup_cons.mpr ⟨?_, hhoused.keyed⟩
    rintro hmem
    obtain ⟨other, hother, heq⟩ := List.mem_map.mp hmem
    exact hfresh other hother heq
  apart := by
    cases hevents : request.events with
    | none =>
      rw [List.filterMap_cons_none hevents]
      exact hhoused.apart
    | some number =>
      rw [List.filterMap_cons_some hevents]
      refine List.nodup_cons.mpr ⟨?_, hhoused.apart⟩
      intro hmem
      obtain ⟨other, hother, heq⟩ := List.mem_filterMap.mp hmem
      exact halone number hevents other hother heq
  fits := List.forall_mem_cons.mpr ⟨hfits, hhoused.fits⟩

theorem set (hhoused : Housed active channels) (hchannel : channels[number]? = some channel)
    (hfree : ∀ request ∈ active, request.events = some number → channel.free ≤ after.free) :
    Housed active (channels.set number after) where
  keyed := hhoused.keyed
  apart := hhoused.apart
  fits := fun request hrequest =>
    (hhoused.fits request hrequest).set hchannel (hfree request hrequest)

end Housed

namespace Attended

theorem perm {other : List PendingRequest} (hattended : Attended active channels)
    (hperm : active.Perm other) : Attended other channels := by
  intro number channel hchannel hopen
  rcases hattended number channel hchannel hopen with ⟨request, hrequest, hevents⟩ | hended
  · exact .inl ⟨request, hperm.mem_iff.mp hrequest, hevents⟩
  · exact .inr hended

theorem set (hattended : Attended active channels) (hchannel : channels[number]? = some channel)
    (hafter : after.closed = false →
      (∃ request ∈ active, request.events = some number) ∨ Ended after) :
    Attended active (channels.set number after) := by
  intro other found hfound hopen
  have hbound : number < channels.length := (List.getElem?_eq_some_iff.mp hchannel).1
  by_cases heq : number = other
  · subst heq
    rw [List.getElem?_set_self hbound] at hfound
    obtain rfl := Option.some.inj hfound
    exact hafter hopen
  · rw [List.getElem?_set_ne heq] at hfound
    exact hattended other found hfound hopen

theorem cons (hattended : Attended rest channels) (request : PendingRequest) :
    Attended (request :: rest) channels := by
  intro number channel hchannel hopen
  rcases hattended number channel hchannel hopen with ⟨other, hother, hevents⟩ | hended
  · exact .inl ⟨other, List.mem_cons_of_mem _ hother, hevents⟩
  · exact .inr hended

theorem tail (hattended : Attended (request :: rest) channels)
    (hgone : ∀ number channel, request.events = some number → channels[number]? = some channel →
      channel.closed = false → Ended channel) : Attended rest channels := by
  intro number channel hchannel hopen
  rcases hattended number channel hchannel hopen with ⟨other, hother, hevents⟩ | hended
  · rcases List.mem_cons.mp hother with rfl | hother
    · exact .inr (hgone number channel hevents hchannel hopen)
    · exact .inl ⟨other, hother, hevents⟩
  · exact .inr hended

end Attended

/-! ## Credits that come back -/

namespace PendingRequest

/-- The request is the same, but may fill fewer slots. -/
structure Eases (old new : PendingRequest) : Prop where
  requestId : new.requestId = old.requestId
  events : new.events = old.events
  fits : ∀ channels, old.Fits channels → new.Fits channels

theorem Eases.refl (request : PendingRequest) : request.Eases request :=
  ⟨rfl, rfl, fun _ hfits => hfits⟩

end PendingRequest

/-- One request after the other may fill fewer slots. -/
def Eased (active eased : List PendingRequest) : Prop :=
  List.Forall₂ PendingRequest.Eases active eased

namespace Eased

variable {eased : List PendingRequest}

theorem refl (active : List PendingRequest) : Eased active active :=
  List.forall₂_same.mpr fun request _ => .refl request

theorem map_requestId (heased : Eased active eased) :
    eased.map PendingRequest.requestId = active.map PendingRequest.requestId := by
  induction heased with
  | nil => rfl
  | cons hhead _ ih => rw [List.map_cons, List.map_cons, hhead.requestId, ih]

theorem filterMap_events (heased : Eased active eased) :
    eased.filterMap PendingRequest.events = active.filterMap PendingRequest.events := by
  induction heased with
  | nil => rfl
  | cons hhead _ ih => rw [List.filterMap_cons, List.filterMap_cons, hhead.events, ih]

theorem fits (heased : Eased active eased) (hfits : ∀ request ∈ active, request.Fits channels) :
    ∀ request ∈ eased, request.Fits channels := by
  induction heased with
  | nil => simp
  | cons hhead _ ih =>
    rw [List.forall_mem_cons] at hfits ⊢
    exact ⟨hhead.fits channels hfits.1, ih hfits.2⟩

theorem attends (heased : Eased active eased) :
    (∃ request ∈ active, request.events = some number) ↔
      ∃ request ∈ eased, request.events = some number := by
  have hmem := congrArg (number ∈ ·) heased.filterMap_events
  simpa [List.mem_filterMap] using Iff.of_eq hmem.symm

end Eased

theorem Housed.eased {eased : List PendingRequest} (hhoused : Housed active channels)
    (heased : Eased active eased) : Housed eased channels where
  keyed := by
    unfold Rows.Keyed
    rw [heased.map_requestId]
    exact hhoused.keyed
  apart := heased.filterMap_events ▸ hhoused.apart
  fits := heased.fits hhoused.fits

theorem Attended.eased {eased : List PendingRequest} (hattended : Attended active channels)
    (heased : Eased active eased) : Attended eased channels := by
  intro number channel hchannel hopen
  rcases hattended number channel hchannel hopen with hattends | hended
  · exact .inl (heased.attends.mp hattends)
  · exact .inr hended

/-! ## A request that leaves -/

namespace PendingRequest

/-- The channels after a request failed. -/
def failIn (channels : List (Channel StreamItem)) (request : PendingRequest)
    (failure : PendingFailure) : List (Channel StreamItem) :=
  match request.streamPending with
  | some stream => stream.emitFailure channels failure
  | none => channels

end PendingRequest

theorem events_of_stream {stream : StreamPending} (hstream : request.streamPending = some stream) :
    request.events = stream.events := by
  simp [PendingRequest.events, hstream]

section Sent

variable {stream : StreamPending} {item : StreamItem} {changed : List (Channel StreamItem)}

theorem Housed.sent (hhoused : Housed (request :: rest) channels)
    (hseat : request.events = stream.events) (hsent : stream.Sent channels item changed) :
    Housed rest changed := by
  cases hsent with
  | delivered hevents hchannel hsend =>
    apply hhoused.tail.set hchannel
    intro other hother heq
    exact absurd heq (hhoused.alone (hseat.trans hevents) other hother)
  | deserted _ => exact hhoused.tail

theorem Attended.desert (hattended : Attended (request :: rest) channels)
    (hseat : request.events = stream.events) (hdeserted : stream.Deserted channels) :
    Attended rest channels := by
  apply hattended.tail
  intro number channel hevents hchannel hopen
  obtain ⟨found, hfound, hclosed⟩ := hdeserted number (hseat.symm.trans hevents)
  obtain rfl : found = channel := Option.some.inj (hfound.symm.trans hchannel)
  rw [hclosed] at hopen
  cases hopen

theorem Attended.sent (hattended : Attended (request :: rest) channels)
    (hseat : request.events = stream.events) (hsent : stream.Sent channels item changed)
    (hterminal : Terminal item) : Attended rest changed := by
  cases hsent with
  | @delivered number channel sent hevents hchannel hsend =>
    have hended : Ended sent := ended_of_trySend hterminal hsend
    apply (hattended.set hchannel fun _ => .inr hended).tail
    intro other found hother hfound _
    obtain rfl : number = other :=
      Option.some.inj (hevents.symm.trans (hseat.symm.trans hother))
    have hbound : number < channels.length := (List.getElem?_eq_some_iff.mp hchannel).1
    rw [List.getElem?_set_self hbound] at hfound
    exact Option.some.inj hfound ▸ hended
  | deserted hdeserted => exact hattended.desert hseat hdeserted

theorem Attended.stays {moved : PendingRequest} (hattended : Attended (request :: rest) channels)
    (hseat : request.events = stream.events) (hmoved : moved.events = stream.events)
    (hsent : stream.Sent channels item changed) : Attended (moved :: rest) changed := by
  have hsame : Attended (moved :: rest) channels := by
    intro number channel hchannel hopen
    rcases hattended number channel hchannel hopen with ⟨other, hother, hevents⟩ | hended
    · rcases List.mem_cons.mp hother with rfl | hother
      · exact .inl ⟨moved, List.mem_cons_self, hmoved.trans (hseat.symm.trans hevents)⟩
      · exact .inl ⟨other, List.mem_cons_of_mem _ hother, hevents⟩
    · exact .inr hended
  cases hsent with
  | delivered hevents hchannel hsend =>
    apply hsame.set hchannel
    intro _
    exact .inl ⟨moved, List.mem_cons_self, hmoved.trans hevents⟩
  | deserted _ => exact hsame

theorem StreamPending.Fits.sent {before : StreamPending} (hfits : before.Fits channels)
    (hevents : stream.events = before.events)
    (hcredits : stream.outstandingCredits ≤ before.outstandingCredits)
    (hneed : stream.need + 1 ≤ before.need) (hsent : stream.Sent channels item changed) :
    stream.Fits changed := by
  refine ⟨Nat.le_trans hcredits hfits.1, fun number hnumber => ?_⟩
  obtain ⟨channel, hchannel, hroom⟩ := hfits.2 number (hevents.symm.trans hnumber)
  cases hsent with
  | @delivered other found sent hother hfound hsend =>
    obtain rfl : other = number := Option.some.inj (hother.symm.trans hnumber)
    obtain rfl : found = channel := Option.some.inj (hfound.symm.trans hchannel)
    have hbound : other < channels.length := (List.getElem?_eq_some_iff.mp hchannel).1
    have hfree := (Channel.trySend_ok hsend).2.2
    exact ⟨sent, List.getElem?_set_self hbound, by omega⟩
  | deserted _ => exact ⟨channel, hchannel, by omega⟩

end Sent

theorem Housed.failIn {failure : PendingFailure} (hhoused : Housed (request :: rest) channels) :
    Housed rest (request.failIn channels failure) := by
  unfold PendingRequest.failIn
  cases hstream : request.streamPending with
  | none => exact hhoused.tail
  | some stream =>
    have hfits := hhoused.fits request List.mem_cons_self stream hstream
    exact hhoused.sent (events_of_stream hstream)
      (StreamPending.emitFailure_of_fits failure hfits)

theorem Attended.failIn {failure : PendingFailure} (hhoused : Housed (request :: rest) channels)
    (hattended : Attended (request :: rest) channels) :
    Attended rest (request.failIn channels failure) := by
  unfold PendingRequest.failIn
  cases hstream : request.streamPending with
  | none =>
    refine hattended.tail ?_
    intro number channel hevents
    simp [PendingRequest.events, hstream] at hevents
  | some stream =>
    have hfits := hhoused.fits request List.mem_cons_self stream hstream
    exact hattended.sent (events_of_stream hstream)
      (StreamPending.emitFailure_of_fits failure hfits) trivial

end Chat2DB.Supervisor
