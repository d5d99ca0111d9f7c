import Chat2DB.Results.Finishing
import Chat2DB.Results.Reopening

/-! # Invariants of the result store

Whatever is done with the store, and wherever it crashes, it stays durable, and a
finished result stays until the store reads a clock at which it has expired.
-/

namespace Chat2DB.Results

open Stepwise (Triple)

variable {config : StoreConfig} {session next : Session} {store : ResultStore}
  {keep : StoredResult → Prop} {codec : Wire.Codec}

/-! ## Actions -/

/-- What an operation relies on of the encoding of what it writes. -/
def Operation.Lawful (codec : Wire.Codec) : Operation → Prop
  | .begin _ schema _ _ _ => codec.decodeSchema (codec.encodeSchema schema) = some schema
  | .append _ batch _ => codec.decodeBatch (codec.encodeBatch batch) = some batch ∧
      ∀ row ∈ batch.rows, codec.rowLength row ≤ codec.batchLength batch
  | .openStore _ | .finish _ _ | .abort _ | .purge _ => True

instance (codec : Wire.Codec) : ∀ operation : Operation, Decidable (operation.Lawful codec)
  | .begin _ schema _ _ _ =>
    inferInstanceAs (Decidable (codec.decodeSchema (codec.encodeSchema schema) = some schema))
  | .append _ batch _ =>
    inferInstanceAs (Decidable (codec.decodeBatch (codec.encodeBatch batch) = some batch ∧
      ∀ row ∈ batch.rows, codec.rowLength row ≤ codec.batchLength batch))
  | .openStore _ | .finish _ _ | .abort _ | .purge _ => inferInstanceAs (Decidable True)

namespace StoreAction

/-- The operation that an action carries out, or that a crash interrupts. -/
def operation : StoreAction → Option Operation
  | .operate operation => some operation
  | .crash during _ _ => during

def clock (action : StoreAction) : List Int :=
  match action.operation with
  | none => []
  | some operation => operation.clock

def Lawful (codec : Wire.Codec) (action : StoreAction) : Prop :=
  ∀ operation ∈ action.operation, operation.Lawful codec

instance (codec : Wire.Codec) (action : StoreAction) : Decidable (action.Lawful codec) :=
  inferInstanceAs (Decidable (∀ operation ∈ action.operation, operation.Lawful codec))

end StoreAction

/-! ## Sessions -/

/-- How an operation changes the records. -/
structure Evolves (codec : Wire.Codec) (session next : Session) (store : ResultStore) : Prop where
  rows : (∀ id written, Rows.find Written.id id session.history = some written →
      RowsWithin codec written.batches) →
    ∀ id written, Rows.find Written.id id next.history = some written →
      RowsWithin codec written.batches
  finished : ∀ id written, Rows.find Written.id id next.history = some written →
    written.completion ≠ none →
    (∃ old, Rows.find Written.id id session.history = some old ∧ old.completion ≠ none ∧
      old.expiresAtMs = written.expiresAtMs) ∨
    ∃ result ∈ store.results, result.id = id ∧ result.state = .complete

theorem Evolves.of_history (hhistory : next.history = session.history) :
    Evolves codec session next store := by
  refine ⟨?_, ?_⟩
  · rw [hhistory]
    exact fun hrows => hrows
  · intro id written hwritten hcompletion
    exact .inl ⟨written, hhistory ▸ hwritten, hcompletion, rfl⟩

theorem Evolves.started {codec : Wire.Codec} (writer : ResultWriter)
    (schema : Wire.QueryStarted) : Evolves codec session (session.started writer schema) store := by
  refine ⟨fun hrows id written hwritten => ?_, fun id written hwritten hcompletion => ?_⟩
  all_goals
    have hfound := (Rows.find_append_singleton id session.history _).symm.trans hwritten
    rcases Option.or_eq_some_iff.mp hfound with hold | ⟨-, hnew⟩
  · exact hrows id written hold
  · split at hnew
    · obtain rfl := Option.some.inj hnew
      exact fun batch hbatch => absurd hbatch List.not_mem_nil
    · cases hnew
  · exact .inl ⟨written, hold, hcompletion, rfl⟩
  · split at hnew
    · obtain rfl := Option.some.inj hnew
      exact absurd rfl hcompletion
    · cases hnew

theorem Evolves.appended (writer : ResultWriter) {batch : Wire.RowBatch}
    (hbatch : ∀ row ∈ batch.rows, codec.rowLength row ≤ codec.batchLength batch) :
    Evolves codec session (session.appended writer batch) store := by
  have hfind : ∀ id, Rows.find Written.id id (session.appended writer batch).history =
      (Rows.find Written.id id session.history).map fun written =>
        if written.id = writer.id then { written with batches := written.batches ++ [batch] }
        else written := by
    refine find_record ?_
    exact fun _ => rfl
  refine ⟨fun hrows id written hwritten => ?_, fun id written hwritten hcompletion => ?_⟩
  all_goals
    rw [hfind] at hwritten
    obtain ⟨old, hold, rfl⟩ := Option.map_eq_some_iff.mp hwritten
  · have hwithin := hrows id old hold
    split
    · intro other hother
      rcases List.mem_append.mp hother with hother | hother
      · exact hwithin other hother
      · rw [List.mem_singleton.mp hother]
        exact hbatch
    · exact hwithin
  · refine .inl ⟨old, hold, ?_, ?_⟩
    · split at hcompletion
      · exact hcompletion
      · exact hcompletion
    · split
      · rfl
      · rfl

theorem Evolves.of_finished {writer : ResultWriter}
    {completed : Wire.QueryCompleted} (hfinished : Finished config session keep writer completed store) :
    Evolves codec session (session.finished writer.id completed) store := by
  have hfind : ∀ id, Rows.find Written.id id (session.finished writer.id completed).history =
      (Rows.find Written.id id session.history).map fun written =>
        if written.id = writer.id then { written with completion := some completed }
        else written := by
    refine find_record ?_
    exact fun _ => rfl
  refine ⟨fun hrows id written hwritten => ?_, fun id written hwritten hcompletion => ?_⟩
  all_goals
    rw [hfind] at hwritten
    obtain ⟨old, hold, rfl⟩ := Option.map_eq_some_iff.mp hwritten
  · have hwithin := hrows id old hold
    split
    · exact hwithin
    · exact hwithin
  · by_cases hid : old.id = writer.id
    · obtain ⟨result, hresult, hfound, hcomplete⟩ := hfinished.found
      refine .inr ⟨result, hresult, ?_, hcomplete⟩
      rw [hfound, ← hid]
      exact (Rows.find_mem hold).2
    · rw [if_neg hid] at hcompletion ⊢
      exact .inl ⟨old, hold, hcompletion, rfl⟩

/-! ## Operations -/

/-- What an operation leaves behind when it returns. -/
structure Operated (config : StoreConfig) (keep : StoredResult → Prop) (session next : Session)
    (store : ResultStore) : Prop where
  stable : Stable config next keep store
  opened : next.opened = true
  evolves : Evolves config.codec session next store

theorem Stable.operated (hstable : Stable config next keep store) (hopened : next.opened = true)
    (hhistory : next.history = session.history) : Operated config keep session next store :=
  ⟨hstable, hopened, .of_history hhistory⟩

theorem attempt_keeps {α : Type} {program : StoreM α} {returned : α → ResultStore → Prop}
    {failed : ResultError → ResultStore → Prop} {before : ResultStore → Prop}
    {finish : Except ResultError α → StoreM Session}
    (hprogram : Triple before program returned failed (Safe config session.history keep))
    (hok : ∀ value, ∃ next, finish (.ok value) = pure next ∧
      ∀ store, returned value store → Operated config keep session next store)
    (herror : ∀ error, ∃ next, finish (.error error) = pure next ∧
      ∀ store, failed error store → Operated config keep session next store) :
    Triple before (Stepwise.attempt program >>= finish)
      (fun next => Operated config keep session next) (fun _ _ => False)
      (Safe config session.history keep) := by
  apply Triple.bind _ hprogram.at_end.attempt
  intro result
  cases result with
  | ok value =>
    obtain ⟨next, hnext, hoperated⟩ := hok value
    rw [hnext]
    exact .of_pure (fun _ hstore => hstore.2) fun store hstore => hoperated store hstore.1
  | error error =>
    obtain ⟨next, hnext, hoperated⟩ := herror error
    rw [hnext]
    exact .of_pure (fun _ hstore => hstore.2) fun store hstore => hoperated store hstore.1

theorem findWriter_mem {id : ResultId} {writer : ResultWriter}
    (hwriter : session.findWriter id = some writer) : writer ∈ session.writers ∧ writer.id = id :=
  Rows.find_mem hwriter

/-- Every operation of an open store keeps it, and a crash on the way leaves it durable. -/
theorem Session.program_keeps {operation : Operation} (hopened : session.opened = true)
    (henabled : session.Enabled store operation) (hlawful : operation.Lawful config.codec)
    (hclock : ∀ timestampMs ∈ operation.clock, ∀ result, keep result →
      timestampMs < result.expiresAtMs) :
    Triple (Stable config session keep) (session.program config operation)
      (fun next => Operated config keep session next) (fun _ _ => False)
      (Safe config session.history keep) := by
  cases operation with
  | openStore timestampMs =>
    rw [Session.Enabled, hopened] at henabled
    cases henabled
  | begin id schema retention nowMs quotaMs =>
    apply attempt_keeps (beginResult_keeps (hclock quotaMs List.mem_cons_self)
      henabled.2.2.2 hlawful)
    · intro writer
      exact ⟨_, rfl, fun store hstable => ⟨hstable, hopened, .started writer schema⟩⟩
    · exact fun _ => ⟨_, rfl, fun store hstable => hstable.operated hopened rfl⟩
  | append id batch quotaMs =>
    cases hwriter : session.findWriter id with
    | none => exact absurd hwriter henabled.2
    | some writer =>
      obtain ⟨hmember, rfl⟩ := findWriter_mem hwriter
      simp only [Session.program, hwriter]
      apply attempt_keeps (appendBatch_keeps (hclock quotaMs List.mem_cons_self) hmember
        hlawful.1)
      · intro next
        exact ⟨_, rfl, fun store hstable => ⟨hstable, hopened, .appended next hlawful.2⟩⟩
      · exact fun _ => ⟨_, rfl, fun store hstable => hstable.operated hopened rfl⟩
  | finish id completed =>
    cases hwriter : session.findWriter id with
    | none => exact absurd hwriter henabled.2
    | some writer =>
      obtain ⟨hmember, rfl⟩ := findWriter_mem hwriter
      simp only [Session.program, hwriter]
      apply attempt_keeps (finish_keeps hmember)
      · exact fun _ => ⟨_, rfl, fun store hfinished =>
          ⟨hfinished.stable, hopened, .of_finished hfinished⟩⟩
      · exact fun _ => ⟨_, rfl, fun store hstable => hstable.operated hopened rfl⟩
  | abort id =>
    obtain ⟨writer, hwriter⟩ := Option.ne_none_iff_exists'.mp henabled.2
    obtain ⟨hmember, rfl⟩ := findWriter_mem hwriter
    apply Triple.bind _ (dropResult_keeps hmember)
    intro _
    apply Triple.of_pure
    · exact fun store hstable => hstable.safe
    · exact fun store hstable => hstable.operated hopened rfl
  | purge timestampMs =>
    apply Triple.bind _ (purgeExpiredAt_keeps (hclock timestampMs List.mem_cons_self))
    intro _
    apply Triple.of_pure
    · exact fun store hstable => hstable.safe
    · exact fun store hstable => hstable.operated hopened rfl

theorem Session.openStore_keeps {timestampMs : Int} (hclosed : session.writers = [])
    (hclock : ∀ result, keep result → timestampMs < result.expiresAtMs) :
    Triple (Safe config session.history keep) (session.program config (.openStore timestampMs))
      (fun next => Operated config keep session next) (fun _ _ => False)
      (Safe config session.history keep) := by
  apply Triple.of_state
  intro store hsafe
  apply attempt_keeps (hsafe.recoverAt_spec hclock)
  · intro report
    refine ⟨{ session with opened := true }, rfl, ?_⟩
    rintro state ⟨hstable, -⟩
    refine Stable.operated ?_ rfl rfl
    rw [hclosed]
    exact hstable
  · exact fun _ => ⟨_, rfl, fun _ hnever => hnever.elim⟩

/-! ## Runs -/

/-- What holds in every state of every run. -/
structure Consistent (config : StoreConfig) (state : StoreState) : Prop where
  durable : Durable config state.session.history state.store
  settled : state.session.opened = true → Settled config state.session state.store
  closed : state.session.opened = false → state.session.writers = []
  rows : ∀ id written, Rows.find Written.id id state.session.history = some written →
    RowsWithin config.codec written.batches

theorem consistent_initial : Consistent config StoreState.initial := by
  refine ⟨⟨List.nodup_nil, List.nodup_nil, ?_, ?_, ?_⟩, ?_, ?_, ?_⟩
  · exact fun chunk hchunk => absurd hchunk List.not_mem_nil
  · exact fun result hresult => absurd hresult List.not_mem_nil
  · exact fun result hresult => absurd hresult List.not_mem_nil
  · exact fun hopened => absurd hopened (by decide)
  · exact fun _ => rfl
  · exact fun id written hwritten => absurd hwritten (by simp [StoreState.initial, Rows.find])

/-- The completed results that an action cannot find expired. -/
def KeptBy (action : StoreAction) (store : ResultStore) (result : StoredResult) : Prop :=
  result ∈ store.results ∧ result.state = .complete ∧
    ∀ timestampMs ∈ action.clock, timestampMs < result.expiresAtMs

/-- One operation, from a state of a run. -/
theorem Consistent.program_keeps {state : StoreState} {operation : Operation}
    (hstate : Consistent config state)
    (henabled : state.session.Enabled state.store operation)
    (hlawful : operation.Lawful config.codec)
    (hkeep : Protects keep state.store)
    (hclock : ∀ timestampMs ∈ operation.clock, ∀ result, keep result →
      timestampMs < result.expiresAtMs) :
    Triple (fun store => store = state.store) (state.session.program config operation)
      (fun next => Operated config keep state.session next) (fun _ _ => False)
      (Safe config state.session.history keep) := by
  cases hopened : state.session.opened with
  | true =>
    refine (Session.program_keeps hopened henabled hlawful hclock).strengthen ?_
    rintro _ rfl
    exact ⟨hstate.settled hopened, hkeep⟩
  | false =>
    cases operation with
    | openStore timestampMs =>
      refine (Session.openStore_keeps (hstate.closed hopened)
        (hclock timestampMs List.mem_cons_self)).strengthen ?_
      rintro _ rfl
      exact ⟨hstate.durable, hkeep⟩
    | purge timestampMs =>
      rw [Session.Enabled, hopened] at henabled
      cases henabled
    | _ =>
      have hopen := henabled.1
      rw [hopened] at hopen
      cases hopen

/-- What one action keeps. -/
structure Advances (config : StoreConfig) (action : StoreAction) (before after : StoreState) :
    Prop where
  consistent : Consistent config after
  protects : Protects (KeptBy action before.store) after.store
  evolves : Evolves config.codec before.session after.session after.store

theorem Consistent.step {state next : StoreState} {action : StoreAction}
    (hstate : Consistent config state) (hlawful : action.Lawful config.codec)
    (hstep : state.step config action = some next) : Advances config action state next := by
  have hkeep : Protects (KeptBy action state.store) state.store :=
    fun result hresult => ⟨hresult.1, hresult.2.1⟩
  cases action with
  | operate operation =>
    simp only [StoreState.step] at hstep
    split at hstep
    · rename_i henabled
      have hprogram := hstate.program_keeps henabled (hlawful operation rfl) hkeep
        fun timestampMs hread result hresult => hresult.2.2 timestampMs hread
      rcases hprogram.ends rfl with ⟨session, store, hrun, hoperated⟩ | ⟨_, _, -, hnever⟩
      · rw [hrun] at hstep
        cases hstep
        have hstable := hoperated.stable
        refine ⟨⟨hstable.settled.durable, fun _ => hstable.settled, ?_,
          hoperated.evolves.rows hstate.rows⟩, hstable.protects, hoperated.evolves⟩
        intro hclosed
        exact absurd (hoperated.opened.symm.trans hclosed) (by decide)
      · exact hnever.elim
    · cases hstep
  | crash during steps image =>
    simp only [StoreState.step] at hstep
    split at hstep
    · rename_i hallowed
      obtain ⟨hstrays, henabled⟩ := hallowed
      cases hstep
      have hsafe : Safe config state.session.history (KeptBy (.crash during steps image) state.store)
          (state.interrupted config during steps) := by
        cases during with
        | none => exact ⟨hstate.durable, hkeep⟩
        | some operation =>
          have hprogram := hstate.program_keeps (henabled operation rfl)
            (hlawful operation rfl) hkeep
            fun timestampMs hread result hresult => hresult.2.2 timestampMs hread
          exact (hprogram state.store rfl).1 steps
      have hcrashed := hsafe.crash hstrays
      refine ⟨⟨hcrashed.durable, ?_, fun _ => rfl, hstate.rows⟩, hcrashed.protects,
        .of_history rfl⟩
      intro hopened
      cases hopened
    · cases hstep

/-- A finished result is there until the store reads a clock at which it has expired. -/
def FinishedPresent (actions : List StoreAction) (state : StoreState) : Prop :=
  ∀ id written, Rows.find Written.id id state.session.history = some written →
    written.completion ≠ none →
    (∀ action ∈ actions, ∀ timestampMs ∈ action.clock, timestampMs < written.expiresAtMs) →
    ∃ result ∈ state.store.results, result.id = id ∧ result.state = .complete

theorem FinishedPresent.step {actions : List StoreAction} {action : StoreAction}
    {before after : StoreState} (hbefore : Consistent config before)
    (hpresent : FinishedPresent actions before) (hadvances : Advances config action before after) :
    FinishedPresent (actions ++ [action]) after := by
  intro id written hwritten hcompletion hclock
  rcases hadvances.evolves.finished id written hwritten hcompletion with
    ⟨old, hold, hfinished, hexpires⟩ | hfound
  · obtain ⟨result, hresult, rfl, hcomplete⟩ := hpresent id old hold hfinished
      fun other hother => hexpires ▸ hclock other (List.mem_append_left _ hother)
    obtain ⟨known, hknown, hkept⟩ := hbefore.durable.complete result hresult hcomplete
    obtain rfl : known = old := Option.some.inj (hknown.symm.trans hold)
    have hkeep : KeptBy action before.store result := by
      refine ⟨hresult, hcomplete, fun timestampMs hread => ?_⟩
      rw [hkept.expires, hexpires]
      exact hclock action (List.mem_append_right _ List.mem_cons_self) timestampMs hread
    exact ⟨result, (hadvances.protects result hkeep).1, rfl, hcomplete⟩
  · exact hfound

theorem afterActions_consistent {actions : List StoreAction} {state : StoreState}
    (hrun : StoreState.afterActions config actions = some state)
    (hlawful : ∀ action ∈ actions, action.Lawful config.codec) :
    Consistent config state ∧ FinishedPresent actions state := by
  refine Machine.run_induction (motive := fun actions state =>
    (∀ action ∈ actions, action.Lawful config.codec) →
      Consistent config state ∧ FinishedPresent actions state) ?_ ?_ hrun hlawful
  · intro _
    refine ⟨consistent_initial, ?_⟩
    intro id written hwritten
    exact absurd hwritten (by simp [StoreState.initial, Rows.find])
  · intro actions action before after _ hstep ih hlawful
    obtain ⟨hbefore, hpresent⟩ := ih fun other hother =>
      hlawful other (List.mem_append_left _ hother)
    have hadvances := hbefore.step (hlawful action (List.mem_append_right _ List.mem_cons_self)) hstep
    exact ⟨hadvances.consistent, hpresent.step hbefore hadvances⟩

theorem Settled.holds {result : StoredResult} (hsettled : Settled config session store)
    (hresult : result ∈ store.results) (hcomplete : result.state = .complete) :
    ∃ written, Rows.find Written.id result.id session.history = some written ∧
      result.expiresAtMs = written.expiresAtMs ∧
      Holds config store result written.schema written.batches := by
  obtain ⟨written, hwritten, hkept⟩ := hsettled.durable.complete result hresult hcomplete
  obtain ⟨file, hfile, -, -, -, hholds⟩ := hkept.file
  refine ⟨written, hwritten, hkept.expires, hsettled.durable.find_of_mem hresult,
    hsettled.durable.versions result hresult, hcomplete, hkept.rows, file, hfile,
    hsettled.exact result hresult hcomplete file hfile, ?_⟩
  rw [hholds.loadAllChunks_eq]
  exact hholds

end Chat2DB.Results
