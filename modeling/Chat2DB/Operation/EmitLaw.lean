import Chat2DB.Operation.Hub

/-! # Failed emissions

An emission that fails should leave the operation as it was. `emit` changes the state
before its last fallible part, so an event that is refused late leaves traces: a status
that has ended, a number without an event, or an end that cannot be evicted.
-/

namespace Chat2DB.Operation

open Chat2DB.Agent (u64Max)

/-- A failed emission changes nothing; one that succeeds has its event in the journal, under
the next number, and an end can be evicted. -/
structure EmitLaw (entry : HubEntry) (event : OperationEvent) (emitted : Emitted) : Prop where
  unchanged : emitted.succeeded = false → emitted.entry = entry
  recorded : emitted.succeeded = true →
    (∃ envelope ∈ emitted.entry.state.journal,
      envelope.event = event ∧ envelope.sequence = entry.state.sequence + 1) ∧
    emitted.entry.state.sequence = entry.state.sequence + 1 ∧
    (event.isTerminal = true → emitted.entry.terminalOrder ≠ 0)

/-- The operation runs, and no part of `emit` fails once something has changed. -/
def EmitsCleanly (entry : HubEntry) (counter : TerminalCounter) (event : OperationEvent)
    (clock : Option Int) : Prop :=
  entry.state.status = .running ∧
    match event with
    | .started => u64Max ≤ entry.state.sequence ∨ clock.isSome = true
    | .progress rowCount byteCount =>
      (rowCount < entry.state.rowCount ∨ byteCount < entry.state.byteCount) ∨
      (u64Max ≤ entry.state.sequence ∧ rowCount = entry.state.rowCount ∧
        byteCount = entry.state.byteCount) ∨
      (entry.state.sequence < u64Max ∧ clock.isSome = true)
    | .completed result =>
      ((parseContractU64 result.rowCount).isSome = true ∧
        (parseContractU64 result.byteCount).isSome = true) ∧
      entry.state.sequence < u64Max ∧ clock.isSome = true ∧ counter.next < u64Max
    | .failed _ | .cancelled _ =>
      entry.state.sequence < u64Max ∧ clock.isSome = true ∧ counter.next < u64Max

namespace HubEntry

variable {entry : HubEntry} {capacity call : Nat} {counter : TerminalCounter}
  {event : OperationEvent} {clock : Option Int}

/-! ## Where `emit` ends -/

theorem applyEvent_sequence (state : OperationState) (event : OperationEvent) :
    (state.applyEvent event).state.sequence = state.sequence ∧
      (state.applyEvent event).state.journal = state.journal := by
  cases event with
  | started => exact ⟨rfl, rfl⟩
  | progress rowCount byteCount =>
    by_cases hbehind : rowCount < state.rowCount ∨ byteCount < state.byteCount <;>
      simp [OperationState.applyEvent, hbehind]
  | completed result =>
    cases hrows : parseContractU64 result.rowCount with
    | none => simp [OperationState.applyEvent, hrows]
    | some rowCount =>
      cases hbytes : parseContractU64 result.byteCount <;>
        simp [OperationState.applyEvent, hrows, hbytes]
  | failed | cancelled => exact ⟨rfl, rfl⟩

/-- An operation that has ended takes no event, and says that it did. -/
theorem emit_ended (hended : entry.state.status ≠ .running) :
    entry.emit capacity call counter event clock = ⟨true, entry, counter⟩ := by
  unfold emit
  rw [if_pos hended]

theorem emit_refused (hrunning : entry.state.status = .running)
    (hrefused : (entry.state.applyEvent event).succeeded = false) :
    entry.emit capacity call counter event clock =
      ⟨false, entry.become call (entry.state.applyEvent event).state, counter⟩ := by
  unfold emit
  rw [if_neg (by simp [hrunning])]
  simp [hrefused]

theorem emit_unnumbered (hrunning : entry.state.status = .running)
    (haccepted : (entry.state.applyEvent event).succeeded = true)
    (hnumber : u64Max ≤ entry.state.sequence) :
    entry.emit capacity call counter event clock =
      ⟨false, entry.become call (entry.state.applyEvent event).state, counter⟩ := by
  unfold emit
  rw [if_neg (by simp [hrunning])]
  simp [haccepted, (applyEvent_sequence entry.state event).1, hnumber]

/-- Without a clock the state has moved although the event is not recorded. -/
theorem emit_clockless (hrunning : entry.state.status = .running)
    (haccepted : (entry.state.applyEvent event).succeeded = true)
    (hnumber : entry.state.sequence < u64Max) :
    entry.emit capacity call counter event none =
      ⟨false,
        entry.become call
          { (entry.state.applyEvent event).state with sequence := entry.state.sequence + 1 },
        counter⟩ := by
  unfold emit
  rw [if_neg (by simp [hrunning])]
  simp [haccepted, (applyEvent_sequence entry.state event).1, hnumber]

/-- The entry with the event in its journal. -/
def record (entry : HubEntry) (capacity call : Nat) (event : OperationEvent) (clock : Int) :
    HubEntry :=
  let envelope : OperationEventEnvelope :=
    { sequence := entry.state.sequence + 1, occurredAtMs := clock, event }
  { entry.become call
      { (entry.state.applyEvent event).state with
        sequence := entry.state.sequence + 1
        updatedAtMs := clock
        journal :=
          (if entry.state.journal.length = capacity then entry.state.journal.tail
            else entry.state.journal) ++ [envelope] } with
    sent := entry.sent ++ [envelope] }

/-- With a number and a clock the event is recorded. -/
theorem emit_recorded (hrunning : entry.state.status = .running)
    (haccepted : (entry.state.applyEvent event).succeeded = true)
    (hnumber : entry.state.sequence < u64Max) (clock : Int) :
    entry.emit capacity call counter event (some clock) =
      (entry.record capacity call event clock).drawOrder counter := by
  obtain ⟨hsequence, hjournal⟩ := applyEvent_sequence entry.state event
  unfold emit
  rw [if_neg (by simp [hrunning])]
  simp [haccepted, hsequence, hjournal, hnumber, record]

theorem become_eq_self_iff (hrunning : entry.state.status = .running) {state : OperationState} :
    entry.become call state = entry ↔ state = entry.state := by
  constructor
  · intro hself
    exact congrArg HubEntry.state hself
  · rintro rfl
    simp [become, hrunning]

/-! ## The law -/

/-- A refused event is lawful exactly if it has changed nothing. -/
theorem emitLaw_of_failed {changed : HubEntry} :
    EmitLaw entry event ⟨false, changed, counter⟩ ↔ changed = entry := by
  constructor
  · intro hlaw
    exact hlaw.unchanged rfl
  · rintro rfl
    exact ⟨fun _ => rfl, fun hsucceeded => absurd hsucceeded Bool.false_ne_true⟩

theorem not_emitLaw_of_ended : ¬ EmitLaw entry event ⟨true, entry, counter⟩ := by
  intro hlaw
  have hsequence := (hlaw.recorded rfl).2.1
  simp at hsequence

/-- An accepted event ends a running operation exactly if it is terminal. -/
theorem applyEvent_running (hrunning : entry.state.status = .running)
    (haccepted : (entry.state.applyEvent event).succeeded = true) :
    (entry.state.applyEvent event).state.status ≠ .running ↔ event.isTerminal = true := by
  cases event with
  | started => simp [OperationState.applyEvent, OperationEvent.isTerminal, hrunning]
  | progress rowCount byteCount =>
    by_cases hbehind : rowCount < entry.state.rowCount ∨ byteCount < entry.state.byteCount <;>
      simp [OperationState.applyEvent, hbehind, OperationEvent.isTerminal, hrunning]
  | completed result =>
    cases hrows : parseContractU64 result.rowCount with
    | none => simp [OperationState.applyEvent, hrows, OperationEvent.isTerminal]
    | some rowCount =>
      cases hbytes : parseContractU64 result.byteCount <;>
        simp [OperationState.applyEvent, hrows, hbytes, OperationEvent.isTerminal]
  | failed | cancelled => simp [OperationState.applyEvent, OperationEvent.isTerminal]

/-- An event that was recorded meets the law unless its end finds no order number. -/
theorem emitLaw_record_iff (hrunning : entry.state.status = .running)
    (haccepted : (entry.state.applyEvent event).succeeded = true) (clock : Int) :
    EmitLaw entry event ((entry.record capacity call event clock).drawOrder counter) ↔
      (event.isTerminal = true → counter.next < u64Max) := by
  have hjournal : ∃ envelope ∈ (entry.record capacity call event clock).state.journal,
      envelope.event = event ∧ envelope.sequence = entry.state.sequence + 1 :=
    ⟨_, List.mem_append_right _ (List.mem_singleton_self _), rfl, rfl⟩
  have hends : (entry.record capacity call event clock).state.status ≠ .running ↔
      event.isTerminal = true := applyEvent_running hrunning haccepted
  unfold drawOrder
  by_cases hstill : (entry.record capacity call event clock).state.status = .running
  · have hevent : event.isTerminal = false := by
      rw [← Bool.not_eq_true, ← hends]
      exact not_not.mpr hstill
    rw [if_pos hstill, hevent]
    simp only [Bool.false_eq_true, false_implies, iff_true]
    refine ⟨fun hfailed => absurd hfailed.symm Bool.false_ne_true, fun _ => ⟨hjournal, rfl, ?_⟩⟩
    intro hterminal
    rw [hevent] at hterminal
    cases hterminal
  · have hevent : event.isTerminal = true := hends.mp hstill
    rw [if_neg hstill]
    by_cases hexhausted : counter.next ≥ u64Max
    · rw [if_pos hexhausted, emitLaw_of_failed]
      constructor
      · intro hself
        have hsequence := congrArg (fun entry => entry.state.sequence) hself
        simp [record, become] at hsequence
      · intro hroom
        exact absurd (hroom hevent) (Nat.not_lt_of_le hexhausted)
    · rw [if_neg hexhausted]
      constructor
      · intro _ _
        exact Nat.lt_of_not_le hexhausted
      · intro _
        exact ⟨fun hfailed => absurd hfailed.symm Bool.false_ne_true,
          fun _ => ⟨hjournal, rfl, fun _ => Nat.pos_iff_ne_zero.mp counter.positive⟩⟩

/-- The law for an event that was accepted, by what happens behind the acceptance. -/
theorem emitLaw_accepted_iff (hrunning : entry.state.status = .running)
    (haccepted : (entry.state.applyEvent event).succeeded = true) :
    EmitLaw entry event (entry.emit capacity call counter event clock) ↔
      (u64Max ≤ entry.state.sequence ∧ (entry.state.applyEvent event).state = entry.state) ∨
      (entry.state.sequence < u64Max ∧ clock.isSome = true ∧
        (event.isTerminal = true → counter.next < u64Max)) := by
  rcases Nat.lt_or_ge entry.state.sequence u64Max with hnumber | hnumber
  · have hno : ¬ u64Max ≤ entry.state.sequence := Nat.not_le_of_lt hnumber
    cases clock with
    | none =>
      rw [emit_clockless hrunning haccepted hnumber, emitLaw_of_failed,
        become_eq_self_iff hrunning]
      constructor
      · intro hself
        have hsequence := congrArg OperationState.sequence hself
        simp at hsequence
      · rintro (⟨hmax, -⟩ | ⟨-, hclock, -⟩)
        · exact absurd hmax hno
        · cases hclock
    | some updatedAtMs =>
      rw [emit_recorded hrunning haccepted hnumber, emitLaw_record_iff hrunning haccepted]
      simp [hno, hnumber]
  · rw [emit_unnumbered hrunning haccepted hnumber, emitLaw_of_failed,
      become_eq_self_iff hrunning]
    simp [hnumber, Nat.not_lt_of_le hnumber]

theorem emitLaw_refused_iff (hrunning : entry.state.status = .running)
    (hrefused : (entry.state.applyEvent event).succeeded = false) :
    EmitLaw entry event (entry.emit capacity call counter event clock) ↔
      (entry.state.applyEvent event).state = entry.state := by
  rw [emit_refused hrunning hrefused, emitLaw_of_failed, become_eq_self_iff hrunning]

theorem state_ne_of_status {state other : OperationState} (hrunning : other.status = .running)
    (hstatus : state.status ≠ .running) : state ≠ other := by
  rintro rfl
  exact hstatus hrunning

end HubEntry

open HubEntry

/-- `emit` leaves an operation unchanged when it fails, and records the event when it
succeeds, exactly when the operation runs and nothing fails behind a change. -/
theorem emitLaw_iff (entry : HubEntry) (capacity call : Nat) (counter : TerminalCounter)
    (event : OperationEvent) (clock : Option Int) :
    EmitLaw entry event (entry.emit capacity call counter event clock) ↔
      EmitsCleanly entry counter event clock := by
  by_cases hrunning : entry.state.status = .running
  swap
  · rw [emit_ended hrunning]
    constructor
    · intro hlaw
      exact absurd hlaw not_emitLaw_of_ended
    · intro hclean
      exact absurd hclean.1 hrunning
  unfold EmitsCleanly
  rw [and_iff_right hrunning]
  cases event with
  | started =>
    rw [emitLaw_accepted_iff hrunning rfl]
    simp only [OperationState.applyEvent, OperationEvent.isTerminal, and_true,
      Bool.false_eq_true, false_implies]
    have hsplit := Nat.lt_or_ge entry.state.sequence u64Max
    tauto
  | progress rowCount byteCount =>
    by_cases hbehind : rowCount < entry.state.rowCount ∨ byteCount < entry.state.byteCount
    · have hrefused : entry.state.applyEvent (.progress rowCount byteCount) =
          ⟨entry.state, false⟩ := by
        simp [OperationState.applyEvent, hbehind]
      rw [emitLaw_refused_iff hrunning (by rw [hrefused]), hrefused]
      simp [hbehind]
    · have haccepted : entry.state.applyEvent (.progress rowCount byteCount) =
          ⟨{ entry.state with rowCount, byteCount }, true⟩ := by
        simp [OperationState.applyEvent, hbehind]
      have hsame : ({ entry.state with rowCount, byteCount } : OperationState) = entry.state ↔
          rowCount = entry.state.rowCount ∧ byteCount = entry.state.byteCount := by
        constructor
        · intro hself
          exact ⟨congrArg OperationState.rowCount hself,
            congrArg OperationState.byteCount hself⟩
        · rintro ⟨rfl, rfl⟩
          rfl
      rw [emitLaw_accepted_iff hrunning (by rw [haccepted]), haccepted]
      simp [hbehind, hsame, OperationEvent.isTerminal]
  | completed result =>
    cases hrows : parseContractU64 result.rowCount with
    | none =>
      -- a count that cannot be read: refused, with the status moved already
      have hrefused : entry.state.applyEvent (.completed result) =
          ⟨{ entry.state with status := .completed }, false⟩ := by
        simp [OperationState.applyEvent, hrows]
      rw [emitLaw_refused_iff hrunning (by rw [hrefused]), hrefused]
      simp [state_ne_of_status hrunning, hrows]
    | some rowCount =>
      cases hbytes : parseContractU64 result.byteCount with
      | none =>
        have hrefused : entry.state.applyEvent (.completed result) =
            ⟨{ entry.state with status := .completed, rowCount }, false⟩ := by
          simp [OperationState.applyEvent, hrows, hbytes]
        rw [emitLaw_refused_iff hrunning (by rw [hrefused]), hrefused]
        simp [state_ne_of_status hrunning, hbytes]
      | some byteCount =>
        have haccepted : entry.state.applyEvent (.completed result) =
            ⟨{ entry.state with
                status := .completed, rowCount, byteCount, result := some result },
              true⟩ := by
          simp [OperationState.applyEvent, hrows, hbytes]
        rw [emitLaw_accepted_iff hrunning (by rw [haccepted]), haccepted]
        simp [state_ne_of_status hrunning, OperationEvent.isTerminal, hrows, hbytes]
  | failed | cancelled =>
    rw [emitLaw_accepted_iff hrunning rfl]
    simp [OperationState.applyEvent, state_ne_of_status hrunning, OperationEvent.isTerminal]

/-- The clock fails while an operation that runs is cancelled: the call fails, and the
operation has ended without a terminal event. -/
theorem clocklessCancel_ends :
    let entry := HubEntry.create 0
    let emitted := entry.emit 4 0 ⟨1, Nat.one_pos⟩ (.cancelled none) none
    emitted.succeeded = false ∧ emitted.entry.state.status = .cancelled ∧
      emitted.entry.state.journal = [] ∧ emitted.entry.terminalOrder = 0 ∧
      ¬ EmitLaw entry (.cancelled none) emitted := by
  refine ⟨rfl, rfl, rfl, rfl, ?_⟩
  intro hlaw
  have hentry := hlaw.unchanged rfl
  revert hentry
  decide

end Chat2DB.Operation
