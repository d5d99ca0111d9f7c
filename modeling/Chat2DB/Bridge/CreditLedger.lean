import Chat2DB.Bridge.Credit

/-! # The two ledgers agree

What the bridge holds as outstanding is what the engine holds and what is in
flight, with one exception: a batch that is written before its credit is
consumed counts twice until then.
-/

namespace Chat2DB.Bridge

variable {reply : EngineReply}

/-- The credits that a request carries to the engine. -/
def EngineRequest.credits : EngineRequest → Nat
  | .executeQuery credits | .grantCredits credits => credits
  | .cancelOperation => 0

/-- The credits that a reply gives back to the bridge. -/
def EngineReply.rejected : EngineReply → Nat
  | .queryEnded credits | .creditsRejected credits => credits
  | .queryStarted | .rowBatch | .creditsGranted _ | .operationCancelled => 0

namespace BridgeState

def available (state : BridgeState) : Nat := (state.operation.map (·.credits)).getD 0

def reserved (state : BridgeState) : Nat := (state.operation.map (·.reservedCredits)).getD 0

def batchesInFlight (state : BridgeState) : Nat := state.replies.count .rowBatch

def grantsInFlight (state : BridgeState) : Nat := (state.requests.map EngineRequest.credits).sum

def rejectedInFlight (state : BridgeState) : Nat := (state.replies.map EngineReply.rejected).sum

/-- What the engine holds and what is in flight. -/
def accounted (state : BridgeState) : Nat :=
  state.available + state.reserved + state.batchesInFlight + state.grantsInFlight +
    state.rejectedInFlight

/-- The batch that counts twice. -/
def doubled (state : BridgeState) : Nat := if state.unconsumed then 1 else 0

/-- The terminal event is on its way, or was routed. -/
def Ended (state : BridgeState) : Prop :=
  state.stream = none ∨ ∃ credits, .queryEnded credits ∈ state.replies

/-- The operation fits the point its worker has reached. -/
def WorkerFits (worker : QueryWorker) (operation : Option QueryOperation) (unconsumed : Bool) :
    Prop :=
  match worker with
  | .unregistered => operation = none ∧ unconsumed = false
  | .starting | .awaiting =>
    unconsumed = false ∧ ∃ current, operation = some current ∧ current.reservedCredits = 0
  | .reading =>
    unconsumed = false ∧ ∃ current, operation = some current ∧ current.reservedCredits = 1
  | .writing =>
    unconsumed = true ∧ ∃ current, operation = some current ∧ current.reservedCredits = 1
  | .stopping broken =>
    unconsumed = broken ∧ ∃ current, operation = some current ∧ current.reservedCredits = 0 ∧
      (broken = true → 0 < current.credits)
  | .sealed broken =>
    unconsumed = broken ∧ ∃ current, operation = some current ∧ current.reservedCredits = 0 ∧
      (broken = true → 0 < current.credits) ∧ current.sealed = true
  | .done =>
    (∀ current, operation = some current → current.sealed = true) ∧
      (unconsumed = true → ∃ current, operation = some current ∧ 0 < current.credits)

structure Sound (state : BridgeState) : Prop where
  worker : WorkerFits state.worker state.operation state.unconsumed
  executing : ∀ credits, .executeQuery credits ∈ state.requests → state.worker = .unregistered
  once : ∀ credits, .executeQuery credits ∉ state.requests.tail
  ended : state.Ended → state.worker = .done ∧ state.unconsumed = false
  limit : ∀ stream, state.stream = some stream → stream.outstandingCredits ≤ maxOutstandingCredits
  ledger : ∀ stream, state.stream = some stream →
    stream.outstandingCredits + state.doubled = state.accounted

/-- The two ledgers agree when a query is registered. -/
theorem register_sound {eventCapacity initialCredits : Nat} {state : BridgeState}
    (hstate : register eventCapacity initialCredits = some state) : state.Sound := by
  unfold register at hstate
  split at hstate
  · rename_i hvalid
    obtain rfl := Option.some.inj hstate
    exact
      { worker := ⟨rfl, rfl⟩
        executing := by simp
        once := by simp
        ended := by simp [Ended]
        limit := by
          intro stream hstream
          obtain rfl := Option.some.inj hstream
          simp only [maxCreditGrant, maxOutstandingCredits] at hvalid ⊢
          omega
        ledger := by
          intro stream hstream
          obtain rfl := Option.some.inj hstream
          simp [doubled, accounted, available, reserved, batchesInFlight, grantsInFlight,
            rejectedInFlight, EngineRequest.credits] }
  · cases hstate

/-- The credit of a batch that counts twice is still in the engine. -/
theorem Sound.doubled_le {state : BridgeState} (hsound : state.Sound) :
    state.doubled ≤ state.available + state.reserved := by
  have hworker := hsound.worker
  unfold doubled available reserved
  split
  · rename_i hunconsumed
    rw [hunconsumed] at hworker
    cases hphase : state.worker with
    | writing =>
      rw [hphase] at hworker
      obtain ⟨_, current, hcurrent, hreserved⟩ := hworker
      simp [hcurrent, hreserved]
    | stopping broken =>
      rw [hphase] at hworker
      obtain ⟨rfl, current, hcurrent, _, hcredits⟩ := hworker
      have hpositive := hcredits rfl
      simp only [hcurrent, Option.map_some, Option.getD_some]
      omega
    | «sealed» broken =>
      rw [hphase] at hworker
      obtain ⟨rfl, current, hcurrent, _, hcredits, _⟩ := hworker
      have hpositive := hcredits rfl
      simp only [hcurrent, Option.map_some, Option.getD_some]
      omega
    | done =>
      rw [hphase] at hworker
      obtain ⟨current, hcurrent, hpositive⟩ := hworker.2 rfl
      simp only [hcurrent, Option.map_some, Option.getD_some]
      omega
    | unregistered =>
      rw [hphase] at hworker
      cases hworker.2
    | starting | awaiting | reading =>
      rw [hphase] at hworker
      cases hworker.1
  · exact Nat.zero_le _

section Steps

variable {state after : BridgeState}

/-- A request that starts no query joins the pipe. -/
theorem Sound.request (hsound : state.Sound) {stream : Option StreamPending}
    {request : EngineRequest} (hplain : ∀ credits, request ≠ .executeQuery credits)
    (hended : stream = none → state.stream = none)
    (hlimit : ∀ current, stream = some current →
      current.outstandingCredits ≤ maxOutstandingCredits)
    (hledger : ∀ current, stream = some current →
      current.outstandingCredits + state.doubled = state.accounted + request.credits) :
    ({ state with stream, requests := state.requests ++ [request] } : BridgeState).Sound where
  worker := hsound.worker
  executing := by
    intro credits hmem
    rcases List.mem_append.mp hmem with hold | hnew
    · exact hsound.executing credits hold
    · exact absurd (List.mem_singleton.mp hnew).symm (hplain credits)
  once := by
    intro credits hmem
    cases hrequests : state.requests with
    | nil => simp [hrequests] at hmem
    | cons first rest =>
      have honce := hsound.once credits
      simp only [hrequests, List.cons_append, List.tail_cons, List.mem_append,
        List.mem_singleton] at hmem honce
      rcases hmem with hold | hnew
      · exact honce hold
      · exact hplain credits hnew.symm
  ended := by
    rintro (hnone | hending)
    · exact hsound.ended (.inl (hended hnone))
    · exact hsound.ended (.inr hending)
  limit := hlimit
  ledger := by
    intro current hcurrent
    have hsum := hledger current hcurrent
    simp only [accounted, available, reserved, batchesInFlight, grantsInFlight, rejectedInFlight,
      doubled, List.map_append, List.sum_append, List.map_cons, List.map_nil, List.sum_cons,
      List.sum_nil] at hsum ⊢
    omega

/-- A grant leaves the ledgers in agreement, also when it is not delivered. -/
theorem Sound.grantCredits (hsound : state.Sound) {credits : Nat} {delivered : Bool}
    (hstep : state.grantCredits credits delivered = some after) : after.Sound := by
  unfold BridgeState.grantCredits at hstep
  simp only [Option.bind_eq_bind, Option.bind_eq_some_iff] at hstep
  obtain ⟨stream, hstream, granted, hreserve, hstep⟩ := hstep
  have hledger := hsound.ledger stream hstream
  unfold StreamPending.reserveCredits at hreserve
  split_ifs at hreserve with hinvalid hroom hlimit
  obtain rfl := Option.some.inj hreserve
  split at hstep
  · cases hstep
    refine hsound.request (by simp) (by simp) ?_ ?_
    · intro current hcurrent
      obtain rfl := Option.some.inj hcurrent
      simpa using hlimit
    · intro current hcurrent
      obtain rfl := Option.some.inj hcurrent
      simp only [EngineRequest.credits]
      omega
  · cases hstep
    -- the reservation is rolled back
    have hsame : ({ stream with
        outstandingCredits := stream.outstandingCredits + credits } :
        StreamPending).releaseReservedCredits credits = stream := by
      simp [StreamPending.releaseReservedCredits]
    rw [hsame, ← hstream]
    exact hsound

/-- The credits that leave the pipe with a reply. -/
def weight (reply : EngineReply) : Nat :=
  (if reply = .rowBatch then 1 else 0) + reply.rejected

/-- A reply leaves the pipe together with what it weighs. -/
theorem Sound.routed (hsound : state.Sound) {rest : List EngineReply}
    {stream : Option StreamPending} {queued : Nat} (hreplies : state.replies = reply :: rest)
    (hended : stream = none → state.Ended) (hlimit : ∀ current, stream = some current →
      current.outstandingCredits ≤ maxOutstandingCredits)
    (hledger : ∀ current, stream = some current →
      current.outstandingCredits + state.doubled + weight reply = state.accounted) :
    ({ state with stream, queued, replies := rest } : BridgeState).Sound where
  worker := hsound.worker
  executing := hsound.executing
  once := hsound.once
  ended := by
    rintro (hnone | ⟨credits, hmem⟩)
    · exact hsound.ended (hended hnone)
    · exact hsound.ended (.inr ⟨credits, by simp [hreplies, hmem]⟩)
  limit := hlimit
  ledger := by
    intro current hcurrent
    have hsum := hledger current hcurrent
    simp only [accounted, available, reserved, batchesInFlight, grantsInFlight, rejectedInFlight,
      doubled, weight, hreplies, List.count_cons, List.map_cons, List.sum_cons, beq_iff_eq]
      at hsum ⊢
    omega

theorem emit_eq {stream : StreamPending} (hstep : state.emit stream = some after) :
    ∃ queued, after = { state with stream := some stream, queued } := by
  unfold BridgeState.emit at hstep
  split_ifs at hstep
  · exact ⟨_, (Option.some.inj hstep).symm⟩
  · exact ⟨_, (Option.some.inj hstep).symm⟩

/-- The bridge routes a reply to the stream. -/
theorem Sound.routeStream (hsound : state.Sound) {rest : List EngineReply}
    {stream : StreamPending} (hreplies : state.replies = reply :: rest)
    (hstream : state.stream = some stream)
    (hstep : ({ state with replies := rest } : BridgeState).routeStream stream reply = some after) :
    after.Sound := by
  have hledger := hsound.ledger stream hstream
  have hlimit := hsound.limit stream hstream
  -- what the reply carries is part of what is accounted for
  have hweight : state.doubled + weight reply ≤ state.accounted := by
    have hdoubled := hsound.doubled_le
    simp only [accounted, batchesInFlight, rejectedInFlight, weight, hreplies, List.count_cons,
      List.map_cons, List.sum_cons, beq_iff_eq] at hdoubled ⊢
    omega
  cases reply with
  | queryStarted =>
    simp only [BridgeState.routeStream] at hstep
    split_ifs at hstep
    obtain ⟨queued, rfl⟩ := emit_eq hstep
    refine hsound.routed hreplies (by simp) ?_ ?_
    · simpa using hlimit
    · simpa [weight, EngineReply.rejected] using hledger
  | rowBatch =>
    simp only [BridgeState.routeStream] at hstep
    split_ifs at hstep with hcredit
    obtain ⟨queued, rfl⟩ := emit_eq hstep
    simp only [Bool.or_eq_true, Bool.not_eq_true', decide_eq_true_eq, not_or] at hcredit
    refine hsound.routed hreplies (by simp) ?_ ?_
    · intro current hcurrent
      obtain rfl := Option.some.inj hcurrent
      simp only
      omega
    · intro current hcurrent
      obtain rfl := Option.some.inj hcurrent
      simp only [weight, EngineReply.rejected, if_true]
      omega
  | queryEnded credits =>
    cases hstep
    refine hsound.routed hreplies ?_ (by simp) (by simp)
    exact fun _ => .inr ⟨credits, by simp [hreplies]⟩
  | creditsGranted requested =>
    cases hstep
    refine hsound.routed hreplies ?_ hsound.limit ?_
    · simp [hstream]
    · simpa [weight, EngineReply.rejected] using hsound.ledger
  | creditsRejected requested =>
    cases hstep
    refine hsound.routed hreplies (by simp) ?_ ?_
    · intro current hcurrent
      obtain rfl := Option.some.inj hcurrent
      simp only [StreamPending.releaseReservedCredits]
      omega
    · intro current hcurrent
      obtain rfl := Option.some.inj hcurrent
      simp only [weight, EngineReply.rejected, StreamPending.releaseReservedCredits] at hweight ⊢
      simp only [reduceCtorEq, if_false] at hweight ⊢
      omega
  | operationCancelled =>
    cases hstep
    refine hsound.routed hreplies ?_ hsound.limit ?_
    · simp [hstream]
    · simpa [weight, EngineReply.rejected] using hsound.ledger

/-- Routing a reply moves its weight from the pipe to the sink. -/
theorem Sound.route (hsound : state.Sound) (hstep : state.route = some after) : after.Sound := by
  unfold BridgeState.route at hstep
  split at hstep
  · cases hstep
  · rename_i reply rest hreplies
    split at hstep
    · rename_i hstream
      cases hstep
      obtain ⟨hdone, hconsumed⟩ := hsound.ended (.inl hstream)
      exact
        { worker := hsound.worker
          executing := hsound.executing
          once := hsound.once
          ended := fun _ => ⟨hdone, hconsumed⟩
          limit := by simp [hstream]
          ledger := by simp [hstream] }
    · rename_i stream hstream
      exact hsound.routeStream hreplies hstream hstep

theorem Sound.engine (hsound : state.Sound) {requests : List EngineRequest}
    {replies : List EngineReply} {operation : Option QueryOperation} {worker : QueryWorker}
    {unconsumed : Bool}
    (hworker : WorkerFits worker operation unconsumed)
    (hexecuting : ∀ credits, .executeQuery credits ∈ requests → worker = .unregistered)
    (honce : ∀ credits, .executeQuery credits ∉ requests.tail)
    (hended : ({ state with requests, replies, operation, worker, unconsumed } :
      BridgeState).Ended → worker = .done ∧ unconsumed = false)
    (hledger : ({ state with requests, replies, operation, worker, unconsumed } :
        BridgeState).accounted + state.doubled =
      state.accounted + (if unconsumed then 1 else 0)) :
    ({ state with requests, replies, operation, worker, unconsumed } : BridgeState).Sound where
  worker := hworker
  executing := hexecuting
  once := honce
  ended := hended
  limit := hsound.limit
  ledger := by
    intro stream hstream
    have hbefore := hsound.ledger stream hstream
    simp only [doubled] at hbefore hledger ⊢
    omega

/-- Cancelling changes neither the credits nor whether the operation is sealed. -/
theorem WorkerFits.congr {worker : QueryWorker} {operation changed : QueryOperation}
    {unconsumed : Bool} (hworker : WorkerFits worker (some operation) unconsumed)
    (hcredits : operation.credits ≤ changed.credits)
    (hreserved : changed.reservedCredits = operation.reservedCredits)
    (hsealed : changed.sealed = operation.sealed) :
    WorkerFits worker (some changed) unconsumed := by
  cases worker with
  | unregistered => cases hworker.1
  | starting | awaiting | reading | writing =>
    obtain ⟨hconsumed, current, hcurrent, hcount⟩ := hworker
    obtain rfl := Option.some.inj hcurrent
    exact ⟨hconsumed, changed, rfl, hreserved.trans hcount⟩
  | stopping broken =>
    obtain ⟨hconsumed, current, hcurrent, hcount, hbroken⟩ := hworker
    obtain rfl := Option.some.inj hcurrent
    exact ⟨hconsumed, changed, rfl, hreserved.trans hcount,
      fun h => Nat.lt_of_lt_of_le (hbroken h) hcredits⟩
  | «sealed» broken =>
    obtain ⟨hconsumed, current, hcurrent, hcount, hbroken, hclosed⟩ := hworker
    obtain rfl := Option.some.inj hcurrent
    exact ⟨hconsumed, changed, rfl, hreserved.trans hcount,
      fun h => Nat.lt_of_lt_of_le (hbroken h) hcredits, hsealed.trans hclosed⟩
  | done =>
    obtain ⟨hclosed, hbroken⟩ := hworker
    refine ⟨?_, fun h => ?_⟩
    · intro current hcurrent
      obtain rfl := Option.some.inj hcurrent
      exact hsealed.trans (hclosed operation rfl)
    · obtain ⟨current, hcurrent, hpositive⟩ := hbroken h
      obtain rfl := Option.some.inj hcurrent
      exact ⟨changed, rfl, Nat.lt_of_lt_of_le hpositive hcredits⟩

theorem addCredits_eq {operation granted : QueryOperation} {additional : Nat}
    (hgranted : operation.addCredits additional = some granted) :
    granted = { operation with credits := operation.credits + additional } := by
  unfold QueryOperation.addCredits at hgranted
  split_ifs at hgranted
  exact (Option.some.inj hgranted).symm

theorem ended_of_append (hreply : ∀ credits, reply ≠ .queryEnded credits)
    (hended : state.stream = none ∨ ∃ credits, .queryEnded credits ∈ state.replies ++ [reply]) :
    state.Ended := by
  rcases hended with hnone | ⟨credits, hmem⟩
  · exact .inl hnone
  · rcases List.mem_append.mp hmem with hold | hnew
    · exact .inr ⟨credits, hold⟩
    · exact absurd (List.mem_singleton.mp hnew).symm (hreply credits)

theorem Sound.answer (hsound : state.Sound) {request : EngineRequest}
    {rest : List EngineRequest} {operation : Option QueryOperation}
    (hrequests : state.requests = request :: rest) (hreply : ∀ credits, reply ≠ .queryEnded credits)
    (hworker : WorkerFits state.worker operation state.unconsumed)
    (hledger : ({ state with requests := rest, replies := state.replies ++ [reply], operation } :
      BridgeState).accounted = state.accounted) :
    ({ state with requests := rest, replies := state.replies ++ [reply], operation } :
      BridgeState).Sound := by
  refine hsound.engine hworker ?_ ?_ ?_ ?_
  · intro credits hmem
    exact hsound.executing credits (by simp [hrequests, hmem])
  · intro credits hmem
    exact hsound.once credits (by simpa [hrequests] using List.mem_of_mem_tail hmem)
  · intro hended
    exact hsound.ended (ended_of_append hreply hended)
  · rw [hledger]
    rfl

/-- The engine takes a request and answers it. -/
theorem Sound.dispatch (hsound : state.Sound) {accepted : Bool}
    (hstep : state.dispatch accepted = some after) : after.Sound := by
  unfold BridgeState.dispatch at hstep
  split at hstep
  · cases hstep
  · rename_i credits rest hrequests
    have hphase := hsound.executing credits (by simp [hrequests])
    have hfits := hsound.worker
    rw [hphase] at hfits
    obtain ⟨hnone, hconsumed⟩ := hfits
    have hrest : ∀ other, .executeQuery other ∉ rest := by
      intro other
      simpa [hrequests] using hsound.once other
    have hopen : ¬ state.Ended := by
      intro hended
      have hdone := (hsound.ended hended).1
      rw [hphase] at hdone
      cases hdone
    -- either the engine takes the query, or it ends at once with its credits
    split at hstep
    · cases hstep
      refine hsound.engine ?_ ?_ ?_ ?_ ?_
      · exact ⟨hconsumed, _, rfl, rfl⟩
      · exact fun other hmem => absurd hmem (hrest other)
      · exact fun other hmem => hrest other (List.mem_of_mem_tail hmem)
      · exact fun hended => absurd hended hopen
      · simp only [accounted, available, reserved, batchesInFlight, grantsInFlight,
          rejectedInFlight, doubled, hrequests, hnone, hconsumed, List.map_cons, List.sum_cons,
          EngineRequest.credits, Option.map_some, Option.map_none, Option.getD_some,
          Option.getD_none]
        omega
    · cases hstep
      refine hsound.engine ?_ ?_ ?_ ?_ ?_
      · simp [WorkerFits, hnone, hconsumed]
      · exact fun other hmem => absurd hmem (hrest other)
      · exact fun other hmem => hrest other (List.mem_of_mem_tail hmem)
      · exact fun _ => ⟨rfl, hconsumed⟩
      · simp only [accounted, available, reserved, batchesInFlight, grantsInFlight,
          rejectedInFlight, doubled, hrequests, List.map_cons, List.sum_cons, List.count_append,
          List.map_append, List.sum_append, EngineRequest.credits, EngineReply.rejected,
          List.count_singleton]
        simp
        omega
  · rename_i credits rest hrequests
    split at hstep
    · rename_i granted hgranted
      cases hstep
      obtain ⟨operation, hoperation, hadded⟩ := Option.bind_eq_some_iff.mp hgranted
      obtain rfl := addCredits_eq hadded
      have hfits := hsound.worker
      rw [hoperation] at hfits
      refine hsound.answer hrequests (by simp) ?_ ?_
      · exact hfits.congr (Nat.le_add_right _ _) rfl rfl
      · simp [accounted, available, reserved, batchesInFlight, grantsInFlight, rejectedInFlight,
          hrequests, hoperation, EngineRequest.credits, EngineReply.rejected]
        omega
    · cases hstep
      refine hsound.answer hrequests (by simp) hsound.worker ?_
      simp [accounted, available, reserved, batchesInFlight, grantsInFlight, rejectedInFlight,
        hrequests, EngineRequest.credits, EngineReply.rejected]
      omega
  · rename_i rest hrequests
    cases hstep
    cases hoperation : state.operation with
    | none =>
      refine hsound.answer hrequests (by simp) ?_ ?_
      · simpa [hoperation] using hsound.worker
      · simp [accounted, available, reserved, batchesInFlight, grantsInFlight, rejectedInFlight,
          hrequests, hoperation, EngineRequest.credits, EngineReply.rejected]
    | some operation =>
      have hfits := hsound.worker
      rw [hoperation] at hfits
      refine hsound.answer hrequests (by simp) ?_ ?_
      · simp only [Option.map_some]
        refine hfits.congr ?_ ?_ ?_ <;> split_ifs <;> simp
      · simp only [accounted, available, reserved, batchesInFlight, grantsInFlight,
          rejectedInFlight, hrequests, hoperation, Option.map_some, Option.getD_some]
        split_ifs <;> simp [EngineRequest.credits, EngineReply.rejected]

/-- A move of the worker that changes no weight keeps the ledgers in agreement. -/
theorem Sound.worked (hsound : state.Sound) {replies : List EngineReply}
    {operation : Option QueryOperation} {worker : QueryWorker} {unconsumed : Bool}
    (hactive : state.worker ≠ .unregistered) (hopen : state.worker ≠ .done)
    (hworker : WorkerFits worker operation unconsumed)
    (hended : (∃ credits, .queryEnded credits ∈ replies) →
      state.Ended ∨ worker = .done ∧ unconsumed = false)
    (hledger : ({ state with replies, operation, worker, unconsumed } :
        BridgeState).accounted + state.doubled =
      state.accounted + (if unconsumed then 1 else 0)) :
    ({ state with replies, operation, worker, unconsumed } : BridgeState).Sound := by
  have hlive : ¬ state.Ended := fun h => hopen (hsound.ended h).1
  refine hsound.engine hworker ?_ hsound.once ?_ hledger
  · exact fun credits hmem => absurd (hsound.executing credits hmem) hactive
  · rintro (hnone | hmem)
    · exact absurd (.inl hnone) hlive
    · exact (hended hmem).resolve_left hlive

/-! ### The worker -/

/-- What is known of the operation at the point that its worker has reached. -/
theorem Sound.fits (hsound : state.Sound) {operation : QueryOperation} {worker : QueryWorker}
    (hoperation : state.operation = some operation) (hphase : state.worker = worker) :
    WorkerFits worker (some operation) state.unconsumed := by
  rw [← hphase, ← hoperation]
  exact hsound.worker

/-- The worker goes on without a word to the bridge. -/
theorem Sound.moves (hsound : state.Sound) {operation changed : QueryOperation}
    {worker : QueryWorker} {unconsumed : Bool} (hoperation : state.operation = some operation)
    (hbusy : state.worker ≠ .unregistered ∧ state.worker ≠ .done)
    (hfits : WorkerFits worker (some changed) unconsumed)
    (hledger : changed.credits + changed.reservedCredits + state.doubled =
      operation.credits + operation.reservedCredits + (if unconsumed then 1 else 0)) :
    ({ state with operation := some changed, worker, unconsumed } : BridgeState).Sound := by
  refine hsound.worked hbusy.1 hbusy.2 hfits (fun h => .inl (.inr h)) ?_
  simp only [accounted, available, reserved, batchesInFlight, grantsInFlight, rejectedInFlight,
    hoperation, Option.map_some, Option.getD_some]
  omega

/-- The worker hands the writer an event that is not the last. -/
theorem Sound.emits (hsound : state.Sound) {operation : QueryOperation} {worker : QueryWorker}
    {unconsumed : Bool} {reply : EngineReply} (hoperation : state.operation = some operation)
    (hbusy : state.worker ≠ .unregistered ∧ state.worker ≠ .done)
    (hreply : ∀ credits, reply ≠ .queryEnded credits)
    (hfits : WorkerFits worker (some operation) unconsumed)
    (hledger : [reply].count .rowBatch + reply.rejected + state.doubled =
      if unconsumed then 1 else 0) :
    ({ state with replies := state.replies ++ [reply], worker, unconsumed } :
      BridgeState).Sound := by
  refine hsound.worked hbusy.1 hbusy.2 (hoperation.symm ▸ hfits) ?_ ?_
  · exact fun h => .inl (ended_of_append hreply (.inr h))
  · simp only [accounted, available, reserved, batchesInFlight, grantsInFlight, rejectedInFlight,
      List.count_append, List.map_append, List.sum_append, List.map_cons, List.map_nil,
      List.sum_cons, List.sum_nil]
    omega

theorem reserveCredit_eq {operation reserved : QueryOperation}
    (hreserved : operation.reserveCredit = some reserved) : 0 < operation.credits ∧
      reserved = { operation with
        credits := operation.credits - 1, reservedCredits := operation.reservedCredits + 1 } := by
  unfold QueryOperation.reserveCredit at hreserved
  split_ifs at hreserved with hnone
  exact ⟨Nat.pos_of_ne_zero hnone, (Option.some.inj hreserved).symm⟩

theorem returnCredit_eq {operation returned : QueryOperation}
    (hreturned : operation.returnCredit = some returned) :
    returned = { operation with
      reservedCredits := operation.reservedCredits - 1, credits := operation.credits + 1 } := by
  unfold QueryOperation.returnCredit at hreturned
  split_ifs at hreturned
  exact (Option.some.inj hreturned).symm

theorem consumeReservedCredit_eq {operation consumed : QueryOperation}
    (hconsumed : operation.consumeReservedCredit = some consumed) :
    consumed = { operation with reservedCredits := operation.reservedCredits - 1 } := by
  unfold QueryOperation.consumeReservedCredit at hconsumed
  split_ifs at hconsumed
  exact (Option.some.inj hconsumed).symm

section

variable {operation : QueryOperation} (hsound : state.Sound)
  (hoperation : state.operation = some operation)
include hsound hoperation

attribute [local simp] BridgeState.work

/-- The worker gives up before it has a credit. -/
theorem Sound.stops (hbusy : state.worker ≠ .unregistered ∧ state.worker ≠ .done)
    (hconsumed : state.unconsumed = false) (hcount : operation.reservedCredits = 0) :
    ({ state with worker := .stopping false } : BridgeState).Sound := by
  refine hsound.worked hbusy.1 hbusy.2 ?_ (fun h => .inl (.inr h)) rfl
  exact ⟨hconsumed, operation, hoperation, hcount, by simp⟩

theorem Sound.start {succeeds : Bool}
    (hstep : state.work operation (.start succeeds) = some after) : after.Sound := by
  simp only [BridgeState.work] at hstep
  split_ifs at hstep with hphase hsucceeds
  all_goals
    have hphase := not_not.mp hphase
    obtain ⟨hconsumed, _, ⟨⟩, hcount⟩ := hsound.fits hoperation hphase
    cases hstep
  · refine hsound.emits hoperation (by simp [hphase]) (by simp) ⟨hconsumed, _, rfl, hcount⟩ ?_
    simp [EngineReply.rejected, doubled, hconsumed]
  · exact hsound.stops hoperation (by simp [hphase]) hconsumed hcount

theorem Sound.awaitCredit {expired : Bool}
    (hstep : state.work operation (.awaitCredit expired) = some after) : after.Sound := by
  simp only [BridgeState.work] at hstep
  split_ifs at hstep with hphase hstops
  all_goals
    have hphase := not_not.mp hphase
    obtain ⟨hconsumed, _, ⟨⟩, hcount⟩ := hsound.fits hoperation hphase
  · cases hstep
    exact hsound.stops hoperation (by simp [hphase]) hconsumed hcount
  · simp only [Option.bind_eq_bind, Option.bind_eq_some_iff] at hstep
    obtain ⟨reserved, hreserved, hstep⟩ := hstep
    cases hstep
    obtain ⟨hpositive, rfl⟩ := reserveCredit_eq hreserved
    refine hsound.moves hoperation (by simp [hphase]) ⟨hconsumed, _, rfl, ?_⟩ ?_
    · simp [hcount]
    · simp only [doubled]
      omega

theorem Sound.returnCredit (hstep : state.work operation .returnCredit = some after) :
    after.Sound := by
  simp only [BridgeState.work] at hstep
  split_ifs at hstep with hphase
  have hphase := not_not.mp hphase
  obtain ⟨hconsumed, _, ⟨⟩, hcount⟩ := hsound.fits hoperation hphase
  simp only [Option.bind_eq_bind, Option.bind_eq_some_iff] at hstep
  obtain ⟨returned, hreturned, hstep⟩ := hstep
  cases hstep
  obtain rfl := returnCredit_eq hreturned
  refine hsound.moves hoperation (by simp [hphase]) ⟨hconsumed, _, rfl, ?_⟩ ?_
  · simp [hcount]
  · simp only [doubled]
    omega

theorem Sound.writeBatch (hstep : state.work operation .writeBatch = some after) :
    after.Sound := by
  simp only [BridgeState.work] at hstep
  split_ifs at hstep with hrefused
  have hphase : state.worker = .reading := by
    by_contra hother
    exact hrefused (.inl hother)
  obtain ⟨hconsumed, _, ⟨⟩, hcount⟩ := hsound.fits hoperation hphase
  cases hstep
  -- the batch is in flight while its credit is still reserved
  refine hsound.emits hoperation (by simp [hphase]) (by simp) ⟨rfl, _, rfl, hcount⟩ ?_
  simp [EngineReply.rejected, doubled, hconsumed]

theorem Sound.consumeCredit {exhausted : Bool}
    (hstep : state.work operation (.consumeCredit exhausted) = some after) : after.Sound := by
  simp only [BridgeState.work] at hstep
  have hphase : state.worker = .writing := by
    by_contra hother
    simp [hother] at hstep
  rw [if_neg (not_not.mpr hphase)] at hstep
  obtain ⟨hpending, _, ⟨⟩, hcount⟩ := hsound.fits hoperation hphase
  simp only [Option.bind_eq_bind, Option.bind_eq_some_iff] at hstep
  obtain ⟨consumed, hconsume, hstep⟩ := hstep
  cases hstep
  obtain rfl := consumeReservedCredit_eq hconsume
  refine hsound.moves hoperation (by simp [hphase]) ?_ ?_
  · cases exhausted
    · exact ⟨rfl, _, rfl, by simp [hcount]⟩
    · exact ⟨rfl, _, rfl, by simp [hcount]⟩
  · simp only [doubled, hpending, if_true, Bool.false_eq_true, if_false]
    omega

theorem Sound.interrupt (hstep : state.work operation .interrupt = some after) :
    after.Sound := by
  simp only [BridgeState.work] at hstep
  split_ifs at hstep with hphase
  have hphase := not_not.mp hphase
  obtain ⟨hpending, _, ⟨⟩, hcount⟩ := hsound.fits hoperation hphase
  simp only [Option.bind_eq_bind, Option.bind_eq_some_iff] at hstep
  obtain ⟨returned, hreturned, hstep⟩ := hstep
  cases hstep
  obtain rfl := returnCredit_eq hreturned
  refine hsound.moves hoperation (by simp [hphase]) ⟨hpending, _, rfl, ?_⟩ ?_
  · simp [hcount]
  · simp only [doubled]
    omega

theorem Sound.seal (hstep : state.work operation .seal = some after) : after.Sound := by
  simp only [BridgeState.work] at hstep
  split at hstep
  · next broken hphase =>
    obtain ⟨hpending, _, ⟨⟩, hcount, hbroken⟩ := hsound.fits hoperation hphase
    cases hstep
    exact hsound.moves hoperation (by simp [hphase]) ⟨hpending, _, rfl, hcount, hbroken, rfl⟩ rfl
  · cases hstep

theorem Sound.finish (hstep : state.work operation .finish = some after) : after.Sound := by
  simp only [BridgeState.work] at hstep
  split at hstep
  · next broken hphase =>
    obtain ⟨hpending, _, ⟨⟩, hcount, hbroken, hclosed⟩ := hsound.fits hoperation hphase
    cases hstep
    refine hsound.worked (by simp [hphase]) (by simp [hphase]) ?_ ?_ ?_
    · refine ⟨?_, fun h => ?_⟩
      · intro current hcurrent
        obtain rfl := Option.some.inj (hoperation.symm.trans hcurrent)
        exact hclosed
      · exact ⟨operation, hoperation, hbroken (hpending.symm.trans h)⟩
    · cases broken with
      | true => exact fun h => .inl (.inr h)
      | false => exact fun _ => .inr ⟨rfl, hpending⟩
    · cases broken <;>
        simp [accounted, available, reserved, batchesInFlight, grantsInFlight, rejectedInFlight,
          EngineReply.rejected, doubled]
  · cases hstep

theorem Sound.work {action : BridgeAction} (hstep : state.work operation action = some after) :
    after.Sound := by
  cases action with
  | start succeeds => exact hsound.start hoperation hstep
  | awaitCredit expired => exact hsound.awaitCredit hoperation hstep
  | returnCredit => exact hsound.returnCredit hoperation hstep
  | writeBatch => exact hsound.writeBatch hoperation hstep
  | consumeCredit exhausted => exact hsound.consumeCredit hoperation hstep
  | interrupt => exact hsound.interrupt hoperation hstep
  | «seal» => exact hsound.seal hoperation hstep
  | finish => exact hsound.finish hoperation hstep
  | grantCredits | cancel | abandon | takeEvent | route | dispatch => cases hstep

end

/-- A step preserves soundness. -/
theorem Sound.step (hsound : state.Sound) {action : BridgeAction}
    (hstep : state.step action = some after) : after.Sound := by
  have hwork : (do state.work (← state.operation) action) = some after → after.Sound := by
    intro hwork
    simp only [Option.bind_eq_bind, Option.bind_eq_some_iff] at hwork
    obtain ⟨operation, hoperation, hwork⟩ := hwork
    exact hsound.work hoperation hwork
  cases action with
  | grantCredits credits delivered => exact hsound.grantCredits hstep
  | cancel =>
    cases hstep
    exact hsound.request (by simp) id hsound.limit hsound.ledger
  | abandon =>
    cases hstep
    exact
      { worker := hsound.worker
        executing := hsound.executing
        once := hsound.once
        ended := by
          rintro (hnone | hmem)
          · exact hsound.ended (.inl (Option.map_eq_none_iff.mp hnone))
          · exact hsound.ended (.inr hmem)
        limit := by
          intro current hcurrent
          obtain ⟨stream, hstream, rfl⟩ := Option.map_eq_some_iff.mp hcurrent
          exact hsound.limit stream hstream
        ledger := by
          intro current hcurrent
          obtain ⟨stream, hstream, rfl⟩ := Option.map_eq_some_iff.mp hcurrent
          exact hsound.ledger stream hstream }
  | takeEvent =>
    simp only [BridgeState.step] at hstep
    split_ifs at hstep
    cases hstep
    exact ⟨hsound.worker, hsound.executing, hsound.once, hsound.ended, hsound.limit,
      hsound.ledger⟩
  | route => exact hsound.route hstep
  | dispatch accepted => exact hsound.dispatch hstep
  | start | awaitCredit | returnCredit | writeBatch | consumeCredit | interrupt | «seal» | finish =>
    exact hwork hstep

end Steps

/-! ## Every run -/

theorem sound_bridgeAfter {eventCapacity initialCredits : Nat} {actions : List BridgeAction}
    {state : BridgeState} (hrun : bridgeAfter eventCapacity initialCredits actions = some state) :
    state.Sound := by
  unfold bridgeAfter at hrun
  simp only [Option.bind_eq_bind, Option.bind_eq_some_iff] at hrun
  obtain ⟨start, hstart, hrun⟩ := hrun
  refine Machine.run_invariant (register_sound hstart) ?_ hrun
  exact fun _ _ _ hsound hstep => hsound.step hstep

/-- The bridge has the credit of the next batch that it routes. -/
def CreditForBatch (state : BridgeState) : Prop :=
  ∀ stream, state.stream = some stream → state.replies.head? = some .rowBatch →
    0 < stream.outstandingCredits

structure CreditsAgree (state : BridgeState) : Prop where
  ledger : ∀ stream, state.stream = some stream →
    stream.outstandingCredits =
      state.available + state.reserved + state.batchesInFlight + state.grantsInFlight +
        state.rejectedInFlight
  batch : state.CreditForBatch
  /-- A grant that reaches an operation that takes credits does not overflow. -/
  grant : ∀ operation credits, state.operation = some operation → operation.sealed = false →
    state.requests.head? = some (.grantCredits credits) → operation.overflows credits = false

/-- A batch that is under way has a credit. -/
theorem Sound.creditForBatch {state : BridgeState} (hsound : state.Sound) :
    state.CreditForBatch := by
  intro stream hstream hhead
  obtain ⟨rest, hreplies⟩ := List.head?_eq_some_iff.mp hhead
  have hledger := hsound.ledger stream hstream
  have hdoubled := hsound.doubled_le
  simp only [accounted, batchesInFlight, hreplies, List.count_cons_self] at hledger
  omega

/-- A grant that is in flight has room while every written batch is paid for. -/
theorem Sound.grant_fits {state : BridgeState} (hsound : state.Sound)
    (hconsumed : state.unconsumed = false) {operation : QueryOperation} {credits : Nat}
    (hoperation : state.operation = some operation) (hopen : operation.sealed = false)
    (hhead : state.requests.head? = some (.grantCredits credits)) :
    operation.overflows credits = false := by
  obtain ⟨rest, hrequests⟩ := List.head?_eq_some_iff.mp hhead
  have hworking : state.worker ≠ .done := by
    intro hdone
    have hfits := hsound.worker
    rw [hdone] at hfits
    have hclosed := hfits.1 operation hoperation
    rw [hopen] at hclosed
    cases hclosed
  -- the terminal event is not written, so the bridge still has the stream
  have hlive : ¬ state.Ended := fun h => hworking (hsound.ended h).1
  cases hstream : state.stream with
  | none => exact absurd (.inl hstream) hlive
  | some stream =>
    have hlimit := hsound.limit stream hstream
    have hledger := hsound.ledger stream hstream
    simp only [accounted, available, reserved, grantsInFlight, doubled, hconsumed, hoperation,
      hrequests, Option.map_some, Option.getD_some, List.map_cons, List.sum_cons,
      EngineRequest.credits, Bool.false_eq_true, if_false] at hledger
    simp only [QueryOperation.overflows, decide_eq_false_iff_not]
    omega

/-- The ledgers agree but for the credit of a batch that is written and not yet consumed. -/
theorem Sound.creditsAgree_iff {state : BridgeState} (hsound : state.Sound) :
    state.CreditsAgree ↔ state.unconsumed = false := by
  constructor
  · intro hagree
    by_contra hpending
    have hpending : state.unconsumed = true := by simpa using hpending
    cases hstream : state.stream with
    | none =>
      have hconsumed := (hsound.ended (.inl hstream)).2
      rw [hpending] at hconsumed
      cases hconsumed
    | some stream =>
      have hclaimed := hagree.ledger stream hstream
      have hledger := hsound.ledger stream hstream
      simp only [accounted, doubled, hpending, if_true] at hledger
      omega
  · intro hconsumed
    refine ⟨?_, hsound.creditForBatch, ?_⟩
    · intro stream hstream
      have hledger := hsound.ledger stream hstream
      simpa [accounted, doubled, hconsumed] using hledger
    · intro operation credits hoperation hopen hhead
      exact hsound.grant_fits hconsumed hoperation hopen hhead

end BridgeState

/-- In every state of every run the ledgers agree exactly as long as no batch is
written whose credit is not consumed, and no batch ever meets a stream without credit. -/
theorem bridgeAfter_creditsAgree_iff {eventCapacity initialCredits : Nat}
    {actions : List BridgeAction} {state : BridgeState}
    (hrun : bridgeAfter eventCapacity initialCredits actions = some state) :
    (state.CreditsAgree ↔ state.unconsumed = false) ∧ state.CreditForBatch := by
  have hsound := BridgeState.sound_bridgeAfter hrun
  exact ⟨hsound.creditsAgree_iff, hsound.creditForBatch⟩

/-- One batch is written and paid for. -/
def paidState : BridgeState where
  eventCapacity := 34
  stream := some { started := false, abandoned := false, outstandingCredits := 8 }
  queued := 0
  requests := []
  replies := [.queryStarted, .rowBatch]
  operation := some { credits := 7, reservedCredits := 0, cancelled := false, sealed := false }
  worker := .awaiting
  unconsumed := false

theorem bridgeAfter_paid :
    bridgeAfter 34 8 [.dispatch true, .start true, .awaitCredit false, .writeBatch,
      .consumeCredit false] = some paidState := by
  decide

theorem paidState_creditsAgree : paidState.CreditsAgree ∧ paidState.CreditForBatch :=
  ⟨(bridgeAfter_creditsAgree_iff bridgeAfter_paid).1.mpr rfl,
    (bridgeAfter_creditsAgree_iff bridgeAfter_paid).2⟩

/-- All 32 credits are granted and one batch is written and taken before its
credit is consumed; the credit that the bridge then grants reaches the engine. -/
def saturatedActions : List BridgeAction :=
  [.grantCredits 8 true, .grantCredits 8 true, .grantCredits 8 true, .dispatch true, .dispatch true,
    .dispatch true, .dispatch true, .start true, .awaitCredit false, .writeBatch, .route, .route,
    .route, .route, .route, .takeEvent, .takeEvent, .grantCredits 1 true]

def saturatedState : BridgeState where
  eventCapacity := 34
  stream := some { started := true, abandoned := false, outstandingCredits := 32 }
  queued := 0
  requests := [.grantCredits 1]
  replies := []
  operation := some { credits := 31, reservedCredits := 1, cancelled := false, sealed := false }
  worker := .writing
  unconsumed := true

theorem bridgeAfter_saturated : bridgeAfter 34 8 saturatedActions = some saturatedState := by
  decide

/-- The ledgers disagree and the engine raises its overflow error on the grant. -/
theorem saturated_overflows :
    ∃ state operation, bridgeAfter 34 8 saturatedActions = some state ∧ ¬ state.CreditsAgree ∧
      state.operation = some operation ∧ operation.sealed = false ∧
      state.requests.head? = some (.grantCredits 1) ∧ operation.overflows 1 = true := by
  refine ⟨saturatedState, _, bridgeAfter_saturated, ?_, rfl, rfl, rfl, rfl⟩
  intro hagree
  have hfits := hagree.grant _ 1 rfl rfl rfl
  revert hfits
  decide

end Chat2DB.Bridge
