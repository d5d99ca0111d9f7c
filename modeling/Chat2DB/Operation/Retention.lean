import Chat2DB.Operation.EmitLaw

/-! # Retention of operations

The hub never holds more than its capacity, and makes room by leaving out the operation
that ended first, never one that runs, provided that no end of an operation fails behind
its change of the status: such an operation has ended and can never be evicted.
-/

namespace Chat2DB.Operation

open Chat2DB.Agent (u64Max)

variable {id : String}

/-! ## What holds of one operation -/

/-- The status, the order number and the history agree, and nothing was sent behind a
terminal event. -/
structure HubEntry.Consistent (counter : TerminalCounter) (calls : Nat) (entry : HubEntry) :
    Prop where
  ordered : entry.state.status ≠ .running ↔ entry.terminalOrder ≠ 0
  dated : entry.state.status ≠ .running ↔ entry.endedAt.isSome = true
  drawn : entry.terminalOrder < counter.next
  past : ∀ call ∈ entry.endedAt, call < calls
  quiet : entry.state.status = .running → ∀ event ∈ entry.sent, event.event.isTerminal = false
  single : ∀ event ∈ entry.sent.dropLast, event.event.isTerminal = false
  journal : entry.state.journal <:+ entry.sent

namespace HubEntry

variable {entry : HubEntry} {capacity call calls : Nat} {counter : TerminalCounter}
  {event : OperationEvent} {clock : Option Int}

/-- A new entry is running and has no place among the ended ones. -/
theorem create_consistent (counter : TerminalCounter) (calls : Nat) (timestamp : Int) :
    (create timestamp).Consistent counter calls where
  ordered := by simp [create, OperationState.create]
  dated := by simp [create, OperationState.create]
  drawn := counter.positive
  past := by simp [create]
  quiet := by simp [create]
  single := by simp [create]
  journal := List.suffix_rfl

/-- Later numbers take nothing from an entry. -/
theorem Consistent.later (hconsistent : entry.Consistent counter calls) {later : TerminalCounter}
    (hcounter : counter.next ≤ later.next) {laterCalls : Nat} (hcalls : calls ≤ laterCalls) :
    entry.Consistent later laterCalls :=
  { hconsistent with
    drawn := hconsistent.drawn.trans_le hcounter
    past := fun call hcall => (hconsistent.past call hcall).trans_le hcalls }

theorem Consistent.withSubscribers (hconsistent : entry.Consistent counter calls)
    (subscribers : List OperationSubscription) :
    ({ entry with subscribers } : HubEntry).Consistent counter calls :=
  { hconsistent with }

theorem Consistent.requestCancel (hconsistent : entry.Consistent counter calls)
    (reason : Option String) : (entry.requestCancel reason).Consistent counter calls := by
  unfold HubEntry.requestCancel
  split
  · exact { hconsistent with }
  · exact hconsistent

theorem Consistent.become_running (hconsistent : entry.Consistent counter calls)
    (hrunning : entry.state.status = .running) {state : OperationState}
    (hstatus : state.status = .running) (hjournal : state.journal = entry.state.journal) :
    (entry.become call state).Consistent counter calls where
  ordered := by
    have hzero : entry.terminalOrder = 0 := by
      by_contra hne
      exact hconsistent.ordered.mpr hne hrunning
    simp [become, hstatus, hzero]
  dated := by
    have hnone : entry.endedAt = none := by
      by_contra hne
      exact hconsistent.dated.mpr (Option.isSome_iff_ne_none.mpr hne) hrunning
    simp [become, hstatus, hnone]
  drawn := hconsistent.drawn
  past := by simpa [become, hstatus] using hconsistent.past
  quiet := fun _ => hconsistent.quiet hrunning
  single := hconsistent.single
  journal := by
    rw [become, hjournal]
    exact hconsistent.journal

/-- A bounded journal stays a suffix of what was sent. -/
theorem suffix_push {α : Type} {journal sent : List α} (hsuffix : journal <:+ sent)
    (capacity : Nat) (item : α) :
    (if journal.length = capacity then journal.tail else journal) ++ [item] <:+ sent ++ [item] := by
  have hkept : (if journal.length = capacity then journal.tail else journal) <:+ sent := by
    split
    · exact (List.tail_suffix journal).trans hsuffix
    · exact hsuffix
  obtain ⟨front, hfront⟩ := hkept
  exact ⟨front, by rw [← hfront, List.append_assoc]⟩

/-- An event that is recorded: the operation goes on, or has ended at this call with the next
order number. -/
theorem Consistent.record (hconsistent : entry.Consistent counter calls)
    (hrunning : entry.state.status = .running)
    (haccepted : (entry.state.applyEvent event).succeeded = true)
    (hcounter : event.isTerminal = true → counter.next < u64Max) (clock : Int) :
    let emitted := (entry.record capacity calls event clock).drawOrder counter
    emitted.entry.Consistent emitted.counter (calls + 1) := by
  have hends : (entry.record capacity calls event clock).state.status ≠ .running ↔
      event.isTerminal = true := applyEvent_running hrunning haccepted
  have hquiet := hconsistent.quiet hrunning
  have hjournal : (entry.record capacity calls event clock).state.journal <:+
      (entry.record capacity calls event clock).sent := suffix_push hconsistent.journal _ _
  have hsingle : ∀ sent ∈ (entry.record capacity calls event clock).sent.dropLast,
      sent.event.isTerminal = false := by
    intro sent hsent
    apply hquiet
    simpa [HubEntry.record] using hsent
  unfold drawOrder
  -- only an event that ends the operation draws a number
  by_cases hstill : (entry.record capacity calls event clock).state.status = .running
  · have hevent : event.isTerminal = false := by
      rw [← Bool.not_eq_true, ← hends]
      exact not_not.mpr hstill
    rw [if_pos hstill]
    have hbecome : (entry.become calls
        { (entry.record capacity calls event clock).state with
          journal := entry.state.journal }).Consistent counter (calls + 1) :=
      (hconsistent.later le_rfl (Nat.le_succ calls)).become_running hrunning hstill rfl
    exact
      { ordered := hbecome.ordered
        dated := hbecome.dated
        drawn := hbecome.drawn
        past := hbecome.past
        quiet := by
          intro _ sent hsent
          rcases List.mem_append.mp hsent with hbefore | hlast
          · exact hquiet sent hbefore
          · rw [List.mem_singleton.mp hlast]
            exact hevent
        single := hsingle
        journal := hjournal }
  · have hevent : event.isTerminal = true := hends.mp hstill
    rw [if_neg hstill, if_neg (Nat.not_le_of_lt (hcounter hevent))]
    have hended : (entry.record capacity calls event clock).endedAt = some calls := by
      have hstatus : (entry.state.applyEvent event).state.status ≠ .running := hstill
      simp [HubEntry.record, become, hrunning, hstatus]
    exact
      { ordered := by
          simp only [ne_eq, hstill, not_false_eq_true, true_iff]
          exact Nat.pos_iff_ne_zero.mp counter.positive
        dated := by
          simp only [ne_eq, hstill, not_false_eq_true, hended, Option.isSome_some]
        drawn := Nat.lt_succ_self counter.next
        past := by
          intro call hcall
          rw [hended, Option.mem_some_iff] at hcall
          rw [← hcall]
          exact Nat.lt_succ_self calls
        quiet := fun hrun => absurd hrun hstill
        single := hsingle
        journal := hjournal }

/-- The end of an operation does not fail once its status has changed. -/
def EndsCleanly (entry : HubEntry) (counter : TerminalCounter) (event : OperationEvent)
    (clock : Option Int) : Prop :=
  entry.state.status = .running → event.isTerminal = true →
    (∀ result, event = .completed result →
      (parseContractU64 result.rowCount).isSome = true ∧
        (parseContractU64 result.byteCount).isSome = true) ∧
    entry.state.sequence < u64Max ∧ clock.isSome = true ∧ counter.next < u64Max

instance (entry : HubEntry) (counter : TerminalCounter) (event : OperationEvent)
    (clock : Option Int) : Decidable (entry.EndsCleanly counter event clock) :=
  match event with
  | .started | .progress _ _ =>
    .isTrue (fun _ hterminal => absurd hterminal Bool.false_ne_true)
  | .completed result =>
    decidable_of_iff (entry.state.status = .running →
      ((parseContractU64 result.rowCount).isSome = true ∧
        (parseContractU64 result.byteCount).isSome = true) ∧
      entry.state.sequence < u64Max ∧ clock.isSome = true ∧ counter.next < u64Max)
      (by simp [EndsCleanly, OperationEvent.isTerminal])
  | .failed _ | .cancelled _ =>
    decidable_of_iff (entry.state.status = .running →
      entry.state.sequence < u64Max ∧ clock.isSome = true ∧ counter.next < u64Max)
      (by simp [EndsCleanly, OperationEvent.isTerminal])

theorem applyEvent_status (hrunning : entry.state.status = .running)
    (hevent : event.isTerminal = false) :
    (entry.state.applyEvent event).state.status = .running := by
  cases event with
  | started => exact hrunning
  | progress rowCount byteCount =>
    by_cases hbehind : rowCount < entry.state.rowCount ∨ byteCount < entry.state.byteCount <;>
      simp [OperationState.applyEvent, hbehind, hrunning]
  | completed | failed | cancelled => cases hevent

theorem applyEvent_accepted (hevent : event.isTerminal = true)
    (hparses : ∀ result, event = .completed result →
      (parseContractU64 result.rowCount).isSome = true ∧
        (parseContractU64 result.byteCount).isSome = true) :
    (entry.state.applyEvent event).succeeded = true := by
  cases event with
  | started | progress => cases hevent
  | completed result =>
    obtain ⟨hrows, hbytes⟩ := hparses result rfl
    obtain ⟨rowCount, hrowCount⟩ := Option.isSome_iff_exists.mp hrows
    obtain ⟨byteCount, hbyteCount⟩ := Option.isSome_iff_exists.mp hbytes
    simp [OperationState.applyEvent, hrowCount, hbyteCount]
  | failed | cancelled => rfl

/-- What an emission leaves of the history: an operation ends now, or nothing ends. -/
structure Ends (entry : HubEntry) (counter : TerminalCounter) (calls : Nat) (emitted : Emitted) :
    Prop where
  later : counter.next ≤ emitted.counter.next
  consistent : emitted.entry.Consistent emitted.counter (calls + 1)
  history : (emitted.entry.endedAt = entry.endedAt ∧
      emitted.entry.terminalOrder = entry.terminalOrder) ∨
    (emitted.entry.endedAt = some calls ∧ emitted.entry.terminalOrder = counter.next)

theorem Consistent.emit (hconsistent : entry.Consistent counter calls)
    (hclean : entry.EndsCleanly counter event clock) :
    Ends entry counter calls (entry.emit capacity calls counter event clock) := by
  have hlater : entry.Consistent counter (calls + 1) :=
    hconsistent.later le_rfl (Nat.le_succ calls)
  by_cases hrunning : entry.state.status = .running
  swap
  · rw [emit_ended hrunning]
    exact ⟨le_rfl, hlater, .inl ⟨rfl, rfl⟩⟩
  have hrecord : ∀ time, (entry.state.applyEvent event).succeeded = true →
      entry.state.sequence < u64Max → (event.isTerminal = true → counter.next < u64Max) →
      Ends entry counter calls (entry.emit capacity calls counter event (some time)) := by
    intro time haccepted hnumber hcounter
    rw [emit_recorded hrunning haccepted hnumber]
    refine ⟨?_, hconsistent.record hrunning haccepted hcounter time, ?_⟩
    · unfold drawOrder
      split_ifs
      · exact le_rfl
      · exact le_rfl
      · exact Nat.le_succ counter.next
    · have hends : (entry.record capacity calls event time).state.status ≠ .running ↔
          event.isTerminal = true := applyEvent_running hrunning haccepted
      unfold drawOrder
      by_cases hstill : (entry.record capacity calls event time).state.status = .running
      · left
        have hstatus : (entry.state.applyEvent event).state.status = .running := hstill
        rw [if_pos hstill]
        exact ⟨by simp [HubEntry.record, become, hstatus], rfl⟩
      · right
        have hstatus : (entry.state.applyEvent event).state.status ≠ .running := hstill
        rw [if_neg hstill, if_neg (Nat.not_le_of_lt (hcounter (hends.mp hstill)))]
        exact ⟨by simp [HubEntry.record, become, hrunning, hstatus], rfl⟩
  by_cases hevent : event.isTerminal = true
  · obtain ⟨hparses, hnumber, hclock, hcounter⟩ := hclean hrunning hevent
    obtain ⟨time, rfl⟩ := Option.isSome_iff_exists.mp hclock
    exact hrecord time (applyEvent_accepted hevent hparses) hnumber fun _ => hcounter
  · rw [Bool.not_eq_true] at hevent
    have hstatus := applyEvent_status hrunning hevent
    obtain ⟨-, hjournal⟩ := applyEvent_sequence entry.state event
    have hquiet : ∀ state : OperationState, state.status = .running →
        state.journal = entry.state.journal →
        Ends entry counter calls ⟨false, entry.become calls state, counter⟩ := by
      intro state hstate hkept
      exact ⟨le_rfl, hlater.become_running hrunning hstate hkept,
        .inl ⟨by simp [become, hstate], rfl⟩⟩
    cases haccepted : (entry.state.applyEvent event).succeeded with
    | false =>
      rw [emit_refused hrunning haccepted]
      exact hquiet _ hstatus hjournal
    | true =>
      rcases Nat.lt_or_ge entry.state.sequence u64Max with hnumber | hnumber
      · cases clock with
        | none =>
          rw [emit_clockless hrunning haccepted hnumber]
          exact hquiet _ hstatus hjournal
        | some time =>
          exact hrecord time haccepted hnumber fun hterminal =>
            absurd (hevent.symm.trans hterminal) Bool.false_ne_true
      · rw [emit_unnumbered hrunning haccepted hnumber]
        exact hquiet _ hstatus hjournal

end HubEntry

/-! ## The operation that ended first -/

namespace OperationHub

/-- There is no oldest ended operation exactly if none is numbered. -/
theorem oldestTerminal_eq_none {operations : List (String × HubEntry)} :
    oldestTerminal operations = none ↔ ∀ entry ∈ operations, entry.2.terminalOrder = 0 := by
  induction operations with
  | nil => simp [oldestTerminal]
  | cons first rest ih =>
    obtain ⟨id, entry⟩ := first
    unfold oldestTerminal
    cases holdest : oldestTerminal rest with
    | none =>
      have hrest := ih.mp holdest
      simp only [List.forall_mem_cons]
      by_cases hzero : entry.terminalOrder = 0
      · simpa [hzero] using fun id entry hentry => hrest (id, entry) hentry
      · simp [hzero]
    | some oldest =>
      have hrest : ¬ ∀ other ∈ rest, other.2.terminalOrder = 0 := by
        intro hall
        rw [ih.mpr hall] at holdest
        cases holdest
      simp only [List.forall_mem_cons, hrest, and_false, iff_false]
      split_ifs <;> simp

/-- The oldest ended operation has the least number. -/
theorem oldestTerminal_eq_some {operations : List (String × HubEntry)} {order : Nat}
    (holdest : oldestTerminal operations = some (order, id)) :
    ∃ entry, (id, entry) ∈ operations ∧ entry.terminalOrder = order ∧ order ≠ 0 ∧
      ∀ other ∈ operations, other.2.terminalOrder ≠ 0 → order ≤ other.2.terminalOrder := by
  induction operations generalizing order id with
  | nil => cases holdest
  | cons first rest ih =>
    obtain ⟨firstId, entry⟩ := first
    unfold oldestTerminal at holdest
    cases hrest : oldestTerminal rest with
    | none =>
      simp only [hrest] at holdest
      split_ifs at holdest with hended
      cases holdest
      refine ⟨entry, List.mem_cons_self .., rfl, hended, ?_⟩
      intro other hother hne
      rcases List.mem_cons.mp hother with rfl | hother
      · exact le_rfl
      · exact absurd (oldestTerminal_eq_none.mp hrest other hother) hne
    | some oldest =>
      obtain ⟨restOrder, restId⟩ := oldest
      obtain ⟨kept, hkept, horder, hne, hleast⟩ := ih hrest
      simp only [hrest] at holdest
      split_ifs at holdest with hfirst
      · cases holdest
        refine ⟨entry, List.mem_cons_self .., rfl, hfirst.1, ?_⟩
        intro other hother hended
        rcases List.mem_cons.mp hother with rfl | hother
        · exact le_rfl
        · have hrestLeast := hleast other hother hended
          omega
      · cases holdest
        refine ⟨kept, List.mem_cons_of_mem _ hkept, horder, hne, ?_⟩
        intro other hother hended
        rcases List.mem_cons.mp hother with rfl | hother
        · by_contra hless
          exact hfirst ⟨hended, .inl (Nat.lt_of_not_le hless)⟩
        · exact hleast other hother hended

/-! ## What holds of the hub -/

/-- The order numbers of two operations tell which one ended first. -/
def InOrder (first second : HubEntry) : Prop :=
  ∀ call ∈ first.endedAt, ∀ other ∈ second.endedAt,
    call ≠ other ∧ (first.terminalOrder < second.terminalOrder ↔ call < other)

structure Consistent (capacities : Capacities) (hub : OperationHub) : Prop where
  bounded : hub.operations.length ≤ capacities.operations
  keyed : (hub.operations.map Prod.fst).Nodup
  entries : ∀ entry ∈ hub.operations, entry.2.Consistent hub.counter hub.calls
  inOrder : ∀ first ∈ hub.operations, ∀ second ∈ hub.operations, first.1 ≠ second.1 →
    InOrder first.2 second.2

variable {capacities : Capacities} {hub next : OperationHub}

theorem new_consistent (capacities : Capacities) : Consistent capacities new where
  bounded := Nat.zero_le _
  keyed := List.nodup_nil
  entries := by simp [new]
  inOrder := by simp [new]

theorem Consistent.tick (hconsistent : Consistent capacities hub) :
    Consistent capacities { hub with calls := hub.calls + 1 } :=
  { hconsistent with
    entries := fun entry hentry =>
      (hconsistent.entries entry hentry).later le_rfl (Nat.le_succ hub.calls) }

theorem mem_of_entry {entry : HubEntry} (hentry : hub.entry id = some entry) :
    (id, entry) ∈ hub.operations := by
  unfold OperationHub.entry at hentry
  rw [Option.map_eq_some_iff] at hentry
  obtain ⟨⟨found, value⟩, hfind, rfl⟩ := hentry
  have hid := List.find?_some hfind
  simp only [decide_eq_true_eq] at hid
  rw [← hid]
  exact List.mem_of_find?_eq_some hfind

theorem entry_eq_none (hentry : hub.entry id = none) :
    ∀ held ∈ hub.operations, held.1 ≠ id := by
  unfold OperationHub.entry at hentry
  rw [Option.map_eq_none_iff, List.find?_eq_none] at hentry
  intro held hheld
  simpa using hentry held hheld

/-- Operations that are left out, and a new one behind the rest. -/
theorem Consistent.push (hconsistent : Consistent capacities hub) {keep : String × HubEntry → Bool}
    (hid : ∀ held ∈ hub.operations, held.1 ≠ id) (timestamp : Int)
    (hroom : (hub.operations.filter keep).length < capacities.operations) :
    Consistent capacities
      { hub with operations := hub.operations.filter keep ++ [(id, .create timestamp)] } where
  bounded := by
    simp only [List.length_append, List.length_singleton]
    omega
  keyed := by
    rw [List.map_append, List.map_singleton]
    apply List.Nodup.append
    · exact hconsistent.keyed.sublist (List.filter_sublist.map Prod.fst)
    · exact List.nodup_singleton _
    · rw [List.disjoint_singleton, List.mem_map]
      rintro ⟨held, hheld, hkey⟩
      exact hid held (List.mem_of_mem_filter hheld) hkey
  entries := by
    intro entry hentry
    rcases List.mem_append.mp hentry with hentry | hentry
    · exact hconsistent.entries entry (List.mem_of_mem_filter hentry)
    · rw [List.mem_singleton.mp hentry]
      exact HubEntry.create_consistent hub.counter hub.calls timestamp
  inOrder := by
    intro first hfirst second hsecond hne
    rcases List.mem_append.mp hfirst with hfirst | hfirst
    · rcases List.mem_append.mp hsecond with hsecond | hsecond
      · exact hconsistent.inOrder first (List.mem_of_mem_filter hfirst) second
          (List.mem_of_mem_filter hsecond) hne
      · rw [List.mem_singleton.mp hsecond]
        intro call _ other hother
        cases hother
    · rw [List.mem_singleton.mp hfirst]
      intro call hcall
      cases hcall

theorem filter_length_lt {entry : HubEntry} (hmem : (id, entry) ∈ hub.operations) :
    (hub.operations.filter fun held => held.1 ≠ id).length < hub.operations.length := by
  apply List.length_filter_lt_length_iff_exists.mpr
  exact ⟨(id, entry), hmem, by simp⟩

/-- A new operation takes the place of the oldest ended one, if the hub is full. -/
theorem Consistent.create (hconsistent : Consistent capacities hub)
    (hid : ∀ held ∈ hub.operations, held.1 ≠ id) (clock : Option Int) :
    Consistent capacities (hub.create capacities id clock).2 := by
  unfold OperationHub.create
  cases clock with
  | none => exact hconsistent
  | some timestamp =>
    simp only
    split_ifs with hfull
    · cases holdest : oldestTerminal hub.operations with
      | none => exact hconsistent
      | some oldest =>
        obtain ⟨order, oldest⟩ := oldest
        obtain ⟨entry, hmem, -⟩ := oldestTerminal_eq_some holdest
        have hroom := (filter_length_lt hmem).trans_le hconsistent.bounded
        exact hconsistent.push hid timestamp hroom
    · have hall : hub.operations.filter (fun _ => true) = hub.operations :=
        List.filter_true ..
      have hroom : (hub.operations.filter fun _ => true).length < capacities.operations := by
        rw [hall]
        exact Nat.lt_of_not_le hfull
      have hpush := hconsistent.push hid timestamp hroom
      rw [hall] at hpush
      exact hpush

/-- An operation is replaced: the others stay, and its history goes on as theirs allows. -/
theorem Consistent.replace (hconsistent : Consistent capacities hub)
    {entry changed : HubEntry} (hmem : (id, entry) ∈ hub.operations) {counter : TerminalCounter}
    (hcounter : hub.counter.next ≤ counter.next)
    (hchanged : changed.Consistent counter (hub.calls + 1))
    (hhistory : (changed.endedAt = entry.endedAt ∧
        changed.terminalOrder = entry.terminalOrder) ∨
      (changed.endedAt = some hub.calls ∧ changed.terminalOrder = hub.counter.next)) :
    Consistent capacities
      { hub.update id (fun _ => changed) with counter, calls := hub.calls + 1 } := by
  have hcases : ∀ held ∈ (hub.update id fun _ => changed).operations,
      held = (id, changed) ∨ (held ∈ hub.operations ∧ held.1 ≠ id) := by
    intro held hheld
    obtain ⟨before, hbefore, rfl⟩ := List.mem_map.mp hheld
    by_cases hid : before.1 = id
    · left
      rw [if_pos hid]
    · right
      rw [if_neg hid]
      exact ⟨hbefore, hid⟩
  refine ⟨?_, ?_, ?_, ?_⟩
  · simpa [update] using hconsistent.bounded
  · have hkeys : (hub.update id fun _ => changed).operations.map Prod.fst =
        hub.operations.map Prod.fst := by
      simp only [update, List.map_map]
      apply List.map_congr_left
      intro held _
      by_cases hid : held.1 = id <;> simp [hid]
    simpa only [hkeys] using hconsistent.keyed
  · intro held hheld
    rcases hcases held hheld with rfl | ⟨hheld, -⟩
    · exact hchanged
    · exact (hconsistent.entries held hheld).later hcounter (Nat.le_succ hub.calls)
  -- the order of two ended operations, with the changed one as either of them
  · intro first hfirst second hsecond hne
    rcases hcases first hfirst with rfl | ⟨hfirst, hfirstId⟩
    · rcases hcases second hsecond with rfl | ⟨hsecond, hsecondId⟩
      · exact absurd rfl hne
      · rcases hhistory with ⟨hended, horder⟩ | ⟨hended, horder⟩
        · intro call hcall other hother
          rw [horder]
          rw [hended] at hcall
          exact hconsistent.inOrder (id, entry) hmem second hsecond hne call hcall other hother
        · intro call hcall other hother
          have hpast := (hconsistent.entries second hsecond).past other hother
          have hdrawn := (hconsistent.entries second hsecond).drawn
          rw [hended, Option.mem_some_iff] at hcall
          rw [horder]
          omega
    · rcases hcases second hsecond with rfl | ⟨hsecond, hsecondId⟩
      · rcases hhistory with ⟨hended, horder⟩ | ⟨hended, horder⟩
        · intro call hcall other hother
          rw [horder]
          rw [hended] at hother
          exact hconsistent.inOrder first hfirst (id, entry) hmem hne call hcall other hother
        · intro call hcall other hother
          have hpast := (hconsistent.entries first hfirst).past call hcall
          have hdrawn := (hconsistent.entries first hfirst).drawn
          rw [hended, Option.mem_some_iff] at hother
          rw [horder]
          omega
      · exact hconsistent.inOrder first hfirst second hsecond hne

/-- A change that leaves the history of every operation as it is. -/
theorem Consistent.mapEntries (hconsistent : Consistent capacities hub)
    {change : HubEntry → HubEntry}
    (hchange : ∀ entry : HubEntry, entry.Consistent hub.counter hub.calls →
      (change entry).Consistent hub.counter hub.calls ∧ (change entry).endedAt = entry.endedAt ∧
        (change entry).terminalOrder = entry.terminalOrder) :
    Consistent capacities
      { hub with operations := hub.operations.map fun entry => (entry.1, change entry.2) } where
  bounded := by simpa using hconsistent.bounded
  keyed := by
    simp only [List.map_map]
    exact hconsistent.keyed
  entries := by
    intro held hheld
    obtain ⟨before, hbefore, rfl⟩ := List.mem_map.mp hheld
    exact (hchange before.2 (hconsistent.entries before hbefore)).1
  inOrder := by
    intro first hfirst second hsecond hne
    obtain ⟨before, hbefore, rfl⟩ := List.mem_map.mp hfirst
    obtain ⟨after, hafter, rfl⟩ := List.mem_map.mp hsecond
    obtain ⟨-, hended, horder⟩ := hchange before.2 (hconsistent.entries before hbefore)
    obtain ⟨-, hended', horder'⟩ := hchange after.2 (hconsistent.entries after hafter)
    have hbeforehand := hconsistent.inOrder before hbefore after hafter hne
    unfold InOrder
    rw [hended, hended', horder, horder']
    exact hbeforehand

theorem requestCancel_history (entry : HubEntry) (reason : Option String) :
    (entry.requestCancel reason).endedAt = entry.endedAt ∧
      (entry.requestCancel reason).terminalOrder = entry.terminalOrder := by
  unfold HubEntry.requestCancel
  split <;> exact ⟨rfl, rfl⟩

/-- No end of an operation fails behind its change of the status. -/
def EndsCleanly (hub : OperationHub) : HubCall → Prop
  | .emit id event clock =>
    ∀ entry ∈ hub.entry id, entry.EndsCleanly hub.counter event clock
  | .create _ _ | .subscribe _ _ | .cancel _ | .cancelAll _ => True

instance (hub : OperationHub) (call : HubCall) : Decidable (hub.EndsCleanly call) :=
  match call with
  | .emit id event clock =>
    match hentry : hub.entry id with
    | none => .isTrue (by simp [EndsCleanly, hentry])
    | some entry =>
      decidable_of_iff (entry.EndsCleanly hub.counter event clock)
        (by simp [EndsCleanly, hentry])
  | .create _ _ | .subscribe _ _ | .cancel _ | .cancelAll _ => .isTrue trivial

theorem Consistent.emit (hconsistent : Consistent capacities hub)
    {event : OperationEvent} {clock : Option Int}
    (hclean : ∀ entry ∈ hub.entry id, entry.EndsCleanly hub.counter event clock) :
    Consistent capacities
      { (hub.emit capacities id event clock).2 with calls := hub.calls + 1 } := by
  unfold OperationHub.emit
  cases hentry : hub.entry id with
  | none => exact hconsistent.tick
  | some entry =>
    have hmem := mem_of_entry hentry
    have hends : HubEntry.Ends entry hub.counter hub.calls
        (entry.emit capacities.replay hub.calls hub.counter event clock) :=
      (hconsistent.entries _ hmem).emit (hclean entry hentry)
    exact hconsistent.replace hmem hends.later hends.consistent hends.history

theorem Consistent.subscribe (hconsistent : Consistent capacities hub) (id : String)
    (afterSequence : Option Nat) :
    Consistent capacities { hub.subscribe id afterSequence with calls := hub.calls + 1 } := by
  unfold OperationHub.subscribe
  cases hentry : hub.entry id with
  | none => exact hconsistent.tick
  | some entry =>
    simp only
    have hmem := mem_of_entry hentry
    have hlater := (hconsistent.entries _ hmem).later le_rfl (Nat.le_succ hub.calls)
    unfold HubEntry.subscribe
    cases validateReplayCursor entry.state afterSequence with
    | error error => exact hconsistent.tick
    | ok _ =>
      exact hconsistent.replace hmem le_rfl (hlater.withSubscribers _) (.inl ⟨rfl, rfl⟩)

theorem Consistent.cancel (hconsistent : Consistent capacities hub) (id : String) :
    Consistent capacities { (hub.cancel id).2 with calls := hub.calls + 1 } := by
  unfold OperationHub.cancel
  cases hentry : hub.entry id with
  | none => exact hconsistent.tick
  | some entry =>
    have hmem := mem_of_entry hentry
    have hlater := (hconsistent.entries _ hmem).later le_rfl (Nat.le_succ hub.calls)
    exact hconsistent.replace hmem le_rfl (hlater.requestCancel none)
      (.inl (requestCancel_history entry none))

theorem Consistent.cancelAll (hconsistent : Consistent capacities hub) (reason : String) :
    Consistent capacities (hub.cancelAll reason) :=
  hconsistent.mapEntries fun entry hentry =>
    ⟨hentry.requestCancel (some reason), requestCancel_history entry (some reason)⟩

@[simp] theorem update_calls (id : String) (change : HubEntry → HubEntry) :
    (hub.update id change).calls = hub.calls := rfl

@[simp] theorem emit_calls (id : String) (event : OperationEvent) (clock : Option Int) :
    (hub.emit capacities id event clock).2.calls = hub.calls := by
  unfold OperationHub.emit
  cases hub.entry id <;> rfl

@[simp] theorem subscribe_calls (id : String) (afterSequence : Option Nat) :
    (hub.subscribe id afterSequence).calls = hub.calls := by
  unfold OperationHub.subscribe
  cases hub.entry id with
  | none => rfl
  | some entry =>
    simp only
    split <;> rfl

@[simp] theorem cancel_calls (id : String) : (hub.cancel id).2.calls = hub.calls := by
  unfold OperationHub.cancel
  cases hub.entry id <;> rfl

/-- The invariant of the hub, one case for each call. -/
theorem Consistent.step (hconsistent : Consistent capacities hub) {call : HubCall}
    (hclean : hub.EndsCleanly call) (hstep : hub.step capacities call = some next) :
    Consistent capacities next := by
  unfold OperationHub.step at hstep
  simp only [Option.map_eq_some_iff] at hstep
  obtain ⟨made, hmade, rfl⟩ := hstep
  cases call with
  | create id clock =>
    simp only at hmade
    split_ifs at hmade with hheld
    cases hmade
    have hnone : hub.entry id = none := by simpa using hheld
    exact (hconsistent.create (entry_eq_none hnone) clock).tick
  | emit id event clock =>
    cases hmade
    rw [emit_calls]
    exact hconsistent.emit hclean
  | subscribe id afterSequence =>
    cases hmade
    rw [subscribe_calls]
    exact hconsistent.subscribe id afterSequence
  | cancel id =>
    cases hmade
    rw [cancel_calls]
    exact hconsistent.cancel id
  | cancelAll reason =>
    cases hmade
    exact (hconsistent.cancelAll reason).tick

/-! ## The law -/

/-- How the next operation is taken in at capacity: the operation that ended first goes, all
others stay, and there is no room exactly when every operation runs. -/
structure MakesRoom (capacities : Capacities) (hub : OperationHub) (id : String)
    (timestamp : Int) : Prop where
  exhausted : (hub.create capacities id (some timestamp)).1 = .capacityExhausted ↔
    ∀ held ∈ hub.operations, held.2.state.status = .running
  unchanged : (hub.create capacities id (some timestamp)).1 = .capacityExhausted →
    (hub.create capacities id (some timestamp)).2 = hub
  evicted : (hub.create capacities id (some timestamp)).1 = .created →
    ∃ evicted ∈ hub.operations, evicted.2.state.status ≠ .running ∧
      (∀ other ∈ hub.operations, other.1 ≠ evicted.1 → other.2.state.status ≠ .running →
        ∃ first ∈ evicted.2.endedAt, ∃ second ∈ other.2.endedAt, first < second) ∧
      (hub.create capacities id (some timestamp)).2.operations =
        (hub.operations.filter fun held => held.1 ≠ evicted.1) ++ [(id, .create timestamp)]

/-- The retention of the hub in one state. -/
structure Retains (capacities : Capacities) (hub : OperationHub) : Prop where
  bounded : hub.operations.length ≤ capacities.operations
  room : ∀ id timestamp, hub.operations.length < capacities.operations →
    hub.create capacities id (some timestamp) =
      (.created, { hub with operations := hub.operations ++ [(id, .create timestamp)] })
  evicts : ∀ id timestamp, capacities.operations ≤ hub.operations.length →
    hub.MakesRoom capacities id timestamp
  ended : ∀ held ∈ hub.operations, held.2.state.journal <:+ held.2.sent ∧
    ∀ event ∈ held.2.sent.dropLast, event.event.isTerminal = false

/-- Nothing can be evicted exactly while every operation runs. -/
theorem Consistent.all_running_iff (hconsistent : Consistent capacities hub) :
    oldestTerminal hub.operations = none ↔
      ∀ held ∈ hub.operations, held.2.state.status = .running := by
  rw [oldestTerminal_eq_none]
  constructor
  · intro hzero held hheld
    by_contra hended
    exact (hconsistent.entries held hheld).ordered.mp hended (hzero held hheld)
  · intro hrunning held hheld
    by_contra hne
    exact (hconsistent.entries held hheld).ordered.mpr hne (hrunning held hheld)

/-- The least order number belongs to the operation that ended first. -/
theorem Consistent.ended_first (hconsistent : Consistent capacities hub) {order : Nat}
    (holdest : oldestTerminal hub.operations = some (order, id)) :
    ∃ entry, (id, entry) ∈ hub.operations ∧ entry.state.status ≠ .running ∧
      ∀ other ∈ hub.operations, other.1 ≠ id → other.2.state.status ≠ .running →
        ∃ first ∈ entry.endedAt, ∃ second ∈ other.2.endedAt, first < second := by
  obtain ⟨entry, hmem, horder, hne, hleast⟩ := oldestTerminal_eq_some holdest
  have hentry := hconsistent.entries (id, entry) hmem
  have hended : entry.state.status ≠ .running := by
    apply hentry.ordered.mpr
    rw [horder]
    exact hne
  refine ⟨entry, hmem, hended, ?_⟩
  intro other hother hid hotherEnded
  have hotherEntry := hconsistent.entries other hother
  obtain ⟨first, hfirst⟩ := Option.isSome_iff_exists.mp (hentry.dated.mp hended)
  obtain ⟨second, hsecond⟩ := Option.isSome_iff_exists.mp (hotherEntry.dated.mp hotherEnded)
  refine ⟨first, hfirst, second, hsecond, ?_⟩
  obtain ⟨hdistinct, hback⟩ :=
    hconsistent.inOrder other hother (id, entry) hmem hid second hsecond first hfirst
  have hle := hleast other hother (hotherEntry.ordered.mp hotherEnded)
  have hnot : ¬ second < first := by
    intro hbefore
    have hless := hback.mpr hbefore
    simp only [horder] at hless
    omega
  omega

/-- A full hub makes room with the operation that ended first. -/
theorem Consistent.makesRoom (hconsistent : Consistent capacities hub)
    (hfull : capacities.operations ≤ hub.operations.length) (id : String) (timestamp : Int) :
    hub.MakesRoom capacities id timestamp := by
  cases holdest : oldestTerminal hub.operations with
  | none =>
    have hcreate : hub.create capacities id (some timestamp) = (.capacityExhausted, hub) := by
      unfold OperationHub.create
      simp [hfull, holdest]
    refine ⟨?_, ?_, ?_⟩
    · rw [hcreate]
      simpa using hconsistent.all_running_iff.mp holdest
    · rw [hcreate]
      exact fun _ => rfl
    · rw [hcreate]
      intro hcreated
      cases hcreated
  | some oldest =>
    obtain ⟨order, oldest⟩ := oldest
    have hcreate : hub.create capacities id (some timestamp) =
        (.created,
          { hub with
            operations := (hub.operations.filter fun held => held.1 ≠ oldest) ++
              [(id, .create timestamp)] }) := by
      unfold OperationHub.create
      simp [hfull, holdest]
    refine ⟨?_, ?_, ?_⟩
    · rw [hcreate]
      simp only [reduceCtorEq, false_iff]
      intro hrunning
      rw [hconsistent.all_running_iff.mpr hrunning] at holdest
      cases holdest
    · rw [hcreate]
      intro hexhausted
      cases hexhausted
    · rw [hcreate]
      intro _
      obtain ⟨entry, hmem, hended, hfirst⟩ := hconsistent.ended_first holdest
      exact ⟨(oldest, entry), hmem, hended, hfirst, rfl⟩

theorem Consistent.retains (hconsistent : Consistent capacities hub) : hub.Retains capacities where
  bounded := hconsistent.bounded
  room := by
    intro id timestamp hroom
    unfold OperationHub.create
    simp [Nat.not_le_of_lt hroom]
  evicts := fun id timestamp hfull => hconsistent.makesRoom hfull id timestamp
  ended := fun held hheld =>
    ⟨(hconsistent.entries held hheld).journal, (hconsistent.entries held hheld).single⟩

end OperationHub

/-- The hub after the calls, if the ids of its operations were new. -/
def hubAfter (capacities : Capacities) (calls : List HubCall) : Option OperationHub :=
  Machine.run (OperationHub.step capacities) .new calls

/-- In every run in which no end of an operation fails halfway, the hub retains its
operations as it should. -/
theorem hubAfter_retains {capacities : Capacities} {calls : List HubCall} {hub : OperationHub}
    (hrun : hubAfter capacities calls = some hub)
    (hclean : Machine.Along OperationHub.EndsCleanly (OperationHub.step capacities) .new calls) :
    hub.Retains capacities := by
  have hconsistent : OperationHub.Consistent capacities hub :=
    Machine.run_invariant_along (OperationHub.new_consistent capacities)
      (fun _ _ _ hbefore hallowed hstep => hbefore.step hallowed hstep) hrun hclean
  exact hconsistent.retains

def pairCapacities : Capacities := ⟨4, 2, by decide, by decide⟩

/-- Two operations, of which the second ends first, and a third one in its place. -/
def evictingCalls : List HubCall :=
  [.create "a" (some 1), .create "b" (some 2), .emit "b" (.cancelled none) (some 3),
    .emit "a" (.failed ⟨"engine", "lost", false⟩) (some 4), .create "c" (some 5)]

theorem evictingCalls_retains :
    ∃ hub, hubAfter pairCapacities evictingCalls = some hub ∧
      hub.operations.map Prod.fst = ["a", "c"] ∧ hub.Retains pairCapacities := by
  have hclean : Machine.Along OperationHub.EndsCleanly (OperationHub.step pairCapacities) .new
      evictingCalls := by
    decide
  refine ⟨_, rfl, rfl, ?_⟩
  exact hubAfter_retains rfl hclean

def singleCapacity : Capacities := ⟨4, 1, by decide, by decide⟩

/-- An operation is cancelled while the clock cannot be read. -/
def stuckCalls : List HubCall :=
  [.create "a" (some 1), .emit "a" (.cancelled none) none]

/-- The cancelled operation holds its place for ever, although nothing runs. -/
theorem stuckCalls_exhausted :
    ∃ hub, hubAfter singleCapacity stuckCalls = some hub ∧
      (∀ held ∈ hub.operations, held.2.state.status = .cancelled) ∧
      (hub.create singleCapacity "b" (some 2)).1 = .capacityExhausted ∧
      ¬ hub.Retains singleCapacity := by
  refine ⟨_, rfl, ?_, rfl, ?_⟩
  · intro held hheld
    rw [List.mem_singleton.mp hheld]
    rfl
  · intro hretains
    have hrunning := (hretains.evicts "b" 2 (by decide)).exhausted.mp rfl _
      (List.mem_singleton_self _)
    cases hrunning

end Chat2DB.Operation
