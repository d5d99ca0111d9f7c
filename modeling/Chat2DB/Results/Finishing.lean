import Chat2DB.Results.Appending

/-! # Finishing keeps the store

A result becomes complete in one statement, and is from then on among the
results that every later step leaves alone. A writer that fails to finish, or is
given up, takes its result with it.
-/

namespace Chat2DB.Results

open Stepwise (Triple)

variable {config : StoreConfig} {session : Session} {store : ResultStore} {id : ResultId}
  {keep : StoredResult → Prop} {writer : ResultWriter} {result : StoredResult} {written : Written}
  {file : ResultFile} {completed : Wire.QueryCompleted} {committedLength : Nat}

/-- A result when it is complete. -/
def StoredResult.completedBy (result : StoredResult) (completed : Wire.QueryCompleted) :
    StoredResult :=
  { result with
    state := .complete
    truncatedByMaxRows := completed.truncatedByMaxRows
    truncatedByMaxResultBytes := completed.truncatedByMaxResultBytes }

theorem ownsCompletion_eq_true :
    ResultStore.ownsCompletion id completed committedLength result = true ↔ result.id = id ∧
      result.state = .writing ∧ result.rowCount = completed.rowCount.toNat ∧
      result.committedLength = committedLength := by
  simp [ResultStore.ownsCompletion, StoredResult.matchesWriting, and_assoc]

theorem load_commitCompletion (other : ResultId) :
    (store.apply (.commitCompletion id completed committedLength)).loadStoredResult other =
      (store.loadStoredResult other).map fun row =>
        if ResultStore.ownsCompletion id completed committedLength row then
          row.completedBy completed
        else row := by
  refine load_updateResults ?_ other
  exact fun _ => rfl

theorem untouched_commitCompletion {other : ResultId} (hother : other ≠ id) :
    Untouched store (store.apply (.commitCompletion id completed committedLength)) other := by
  refine ⟨?_, rfl, rfl⟩
  rw [load_commitCompletion]
  cases hfound : store.loadStoredResult other with
  | none => rfl
  | some row =>
    rw [Option.map_some, if_neg]
    intro howns
    exact hother ((Rows.find_mem hfound).2.symm.trans (ownsCompletion_eq_true.mp howns).1)

theorem LiveAt.kept (hat : LiveAt config store writer result written file) {next : ResultStore}
    (hentries : next.entries writer.id = store.entries writer.id)
    (hfile : next.findFile writer.id = store.findFile writer.id) :
    Kept config next (result.completedBy completed) written := by
  have hid : result.id = writer.id := (Rows.find_mem hat.found).2
  refine ⟨hat.expires.1.trans hat.expires.2.symm, ?_, ?_, file, ?_, hat.linked, ?_, ?_, ?_⟩
  · exact Nat.le_trans (Nat.le_of_eq hat.length) hat.range.1
  · exact Nat.le_trans (Nat.le_of_eq hat.rows) hat.range.2
  · rw [show (result.completedBy completed).id = writer.id from hid, hfile]
    exact hat.opens
  · rw [hat.synced, hat.exact]
    exact Nat.le_of_eq hat.length
  · exact Nat.le_of_eq hat.synced
  · rw [show (result.completedBy completed).id = writer.id from hid, hentries]
    exact ⟨hat.holds.readsSchema, hat.holds.readsChunks⟩

theorem Settled.mem_commitCompletion (hsettled : Settled config session store)
    (hmember : writer ∈ session.writers) (hat : LiveAt config store writer result written file)
    {row : StoredResult}
    (hrow : row ∈ (store.apply (.commitCompletion writer.id completed
      writer.committedLength)).results) (hstate : row.state = .complete) :
    row = result.completedBy completed ∨ row ∈ store.results ∧ row.id ≠ writer.id := by
  obtain ⟨old, hold, rfl⟩ := Rows.mem_update.mp hrow
  by_cases howns : ResultStore.ownsCompletion writer.id completed writer.committedLength old = true
  · rw [if_pos howns]
    have hfound := hsettled.durable.find_of_mem hold
    rw [(ownsCompletion_eq_true.mp howns).1, hat.found] at hfound
    obtain rfl := Option.some.inj hfound
    exact .inl rfl
  · rw [if_neg howns] at hstate ⊢
    refine .inr ⟨hold, fun hid => ?_⟩
    have hfound := hsettled.durable.find_of_mem hold
    rw [hid] at hfound
    rw [hsettled.writing writer hmember old hfound] at hstate
    cases hstate

/-- Completing a result: the index now counts it among what has to be kept. -/
theorem Settled.commitCompletion (completed : Wire.QueryCompleted)
    (hsettled : Settled config session store) (hmember : writer ∈ session.writers) (hat : LiveAt config store writer result written file)
    (hwritten : Rows.find Written.id writer.id session.history = some written) :
    Settled config (session.dropWriter writer.id)
      (store.apply (.commitCompletion writer.id completed writer.committedLength)) := by
  have hid : result.id = writer.id := (Rows.find_mem hat.found).2
  have hexists : ∀ other, (store.apply (.commitCompletion writer.id completed
      writer.committedLength)).loadStoredResult other ≠ none ↔
        store.loadStoredResult other ≠ none := by
    intro other
    rw [load_commitCompletion]
    simp
  refine ⟨⟨?_, hsettled.durable.files, ?_, ?_, ?_⟩, ?_, ?_, hsettled.writers.filter _, ?_, ?_, ?_⟩
  · exact hsettled.durable.results.update fun _ => rfl
  · exact fun chunk hchunk => (hexists _).mpr (hsettled.durable.owned chunk hchunk)
  · intro row hrow
    obtain ⟨old, hold, rfl⟩ := Rows.mem_update.mp hrow
    have hversion := hsettled.durable.versions old hold
    split
    · exact hversion
    · exact hversion
  · intro row hrow hstate
    rcases hsettled.mem_commitCompletion hmember hat hrow hstate with rfl | ⟨hold, hother⟩
    · exact ⟨written, hid ▸ hwritten, hat.kept rfl rfl⟩
    · obtain ⟨record, hrecord, hkept⟩ := hsettled.durable.complete row hold hstate
      exact ⟨record, hrecord, hkept.untouched (untouched_commitCompletion hother)⟩
  · intro row hrow hstate other hother
    rcases hsettled.mem_commitCompletion hmember hat hrow hstate with rfl | ⟨hold, -⟩
    · obtain rfl := Option.some.inj (hat.opens.symm.trans (hid ▸ hother))
      exact hat.exact.trans hat.length.symm
    · exact hsettled.exact row hold hstate other hother
  · exact fun other hfound => hsettled.recorded other ((hexists other).mp hfound)
  · exact fun other hother => hsettled.known other (List.mem_of_mem_filter hother)
  · intro other hother row hrow
    obtain ⟨hother, hapart⟩ := List.mem_filter.mp hother
    rw [(untouched_commitCompletion (by simpa using hapart)).found] at hrow
    exact hsettled.writing other hother row hrow
  · intro other hother hpoisoned
    obtain ⟨hother, hapart⟩ := List.mem_filter.mp hother
    exact (hsettled.live other hother hpoisoned).untouched
      (untouched_commitCompletion (by simpa using hapart))

/-- Noting the completion in the record. -/
theorem Settled.record_completion (hsettled : Settled config session store)
    (hfree : ∀ writer ∈ session.writers, writer.id ≠ id) :
    Settled config (session.record id fun written =>
      { written with completion := some completed }) store := by
  have hchange : ∀ written : Written,
      { written with completion := some completed }.id = written.id := fun _ => rfl
  refine ⟨{ hsettled.durable with complete := ?_ }, hsettled.exact, ?_, hsettled.writers, ?_,
    hsettled.writing, ?_⟩
  · intro row hrow hstate
    obtain ⟨written, hwritten, hkept⟩ := hsettled.durable.complete row hrow hstate
    by_cases hrowId : row.id = id
    · subst hrowId
      exact ⟨_, find_record_self _ hchange hwritten, hkept.expires, hkept.length, hkept.rows,
        hkept.file⟩
    · exact ⟨written, (find_record_ne hchange hrowId).trans hwritten, hkept⟩
  · intro other hfound
    have hrecorded := hsettled.recorded other hfound
    unfold Session.record
    rw [find_record hchange]
    simpa using hrecorded
  · intro other hother
    have hknown := hsettled.known other hother
    unfold Session.record
    rw [find_record hchange]
    simpa using hknown
  · intro other hother hpoisoned
    obtain ⟨row, written, file, hwritten, hat⟩ := hsettled.live other hother hpoisoned
    exact ⟨row, written, file,
      (find_record_ne hchange (hfree other hother)).trans hwritten, hat⟩

/-- The store after a writer finished its result. -/
structure Finished (config : StoreConfig) (session : Session) (keep : StoredResult → Prop)
    (writer : ResultWriter) (completed : Wire.QueryCompleted) (store : ResultStore) : Prop where
  stable : Stable config (session.finished writer.id completed) keep store
  safe : Safe config session.history keep store
  found : ∃ result ∈ store.results, result.id = writer.id ∧ result.state = .complete

theorem found_commitCompletion
    (hchanged : Rows.changed (ResultStore.ownsCompletion id completed committedLength)
      store.results = 1) :
    ∃ result ∈ (store.apply (.commitCompletion id completed committedLength)).results,
      result.id = id ∧ result.state = .complete := by
  have hsome : 0 < store.results.countP (ResultStore.ownsCompletion id completed committedLength) := by
    unfold Rows.changed at hchanged
    omega
  obtain ⟨result, hresult, howns⟩ := List.countP_pos_iff.mp hsome
  exact ⟨_, Rows.mem_update_of_cond hresult howns, (ownsCompletion_eq_true.mp howns).1, rfl⟩

theorem Stable.commitCompletion (hstable : Stable config session keep store)
    (hmember : writer ∈ session.writers) (hpoisoned : writer.poisoned = false)
    (hchanged : Rows.changed (ResultStore.ownsCompletion writer.id completed writer.committedLength)
      store.results = 1) :
    Finished config session keep writer completed
      (store.apply (.commitCompletion writer.id completed writer.committedLength)) := by
  obtain ⟨result, written, file, hwritten, hat⟩ := hstable.settled.live writer hmember hpoisoned
  have hcompleted := hstable.settled.commitCompletion completed hmember hat hwritten
  have hprotects : Protects keep
      (store.apply (.commitCompletion writer.id completed writer.committedLength)) := by
    intro row hrow
    obtain ⟨hmem, hstate⟩ := hstable.protects row hrow
    refine ⟨Rows.mem_update_of_not hmem ?_, hstate⟩
    rw [Bool.eq_false_iff]
    intro howns
    rw [(ownsCompletion_eq_true.mp howns).2.1] at hstate
    cases hstate
  refine ⟨⟨hcompleted.record_completion fun other hother => ?_, hprotects⟩,
    ⟨hcompleted.durable, hprotects⟩, found_commitCompletion hchanged⟩
  simpa using (List.mem_filter.mp hother).2

theorem commitCompletion_keeps (hmember : writer ∈ session.writers)
    (hpoisoned : writer.poisoned = false) :
    Triple (Stable config session keep)
      (commitCompletion writer.id completed writer.committedLength)
      (fun _ => Finished config session keep writer completed)
      (fun _ => Stable config session keep) (Safe config session.history keep) := by
  refine Triple.check (fun _ hstore => hstore.safe) (fun _ _ hstore => hstore) fun _ _ => ?_
  refine Triple.check (fun _ hstore => hstore.safe) (fun _ _ hstore => hstore) fun _ _ => ?_
  refine .bind _ (.of_read fun _ hstore => hstore.safe) fun changed => ?_
  refine Triple.check (fun _ hstore => hstore.1.safe) (fun _ _ hstore => hstore.1) fun _ hone => ?_
  have hchanged := not_not.mp ((Outcome.rejectIf_eq_ok _ _ _).mp hone)
  have hfinished : ∀ store, Stable config session keep store ∧
      changed = Rows.changed (ResultStore.ownsCompletion writer.id completed writer.committedLength)
        store.results →
      Finished config session keep writer completed
        (store.apply (.commitCompletion writer.id completed writer.committedLength)) :=
    fun _ hstore => hstore.1.commitCompletion hmember hpoisoned (hstore.2 ▸ hchanged)
  exact .of_perform (fun _ hstore => hstore.1.safe) (fun _ hstore => (hfinished _ hstore).safe)
    hfinished

theorem completeResult_keeps (hmember : writer ∈ session.writers) :
    Triple (Stable config session keep) (completeResult writer completed)
      (fun _ => Finished config session keep writer completed)
      (fun _ => Stable config session keep) (Safe config session.history keep) := by
  refine Triple.check (fun _ hstore => hstore.safe) (fun _ _ hstore => hstore) fun _ hpoisoned => ?_
  refine Triple.check (fun _ hstore => hstore.safe) (fun _ _ hstore => hstore) fun _ _ => ?_
  refine .bind _ (.attempt (commitCompletion_keeps hmember
    (by simpa using (Outcome.rejectIf_eq_ok _ _ _).mp hpoisoned))) fun committed => ?_
  cases committed with
  | ok _ => exact .of_pure (fun _ hstore => hstore.safe) fun _ hstore => hstore
  | error error =>
    refine .bind _ (.of_read fun _ hstore => hstore.safe) fun stored => ?_
    have hfail : ∀ error : ResultError, Triple
        (fun store => Stable config session keep store ∧
          stored = store.loadStoredResult writer.id)
        (Stepwise.fail error : StoreM ResultMetadata)
        (fun _ => Finished config session keep writer completed)
        (fun _ => Stable config session keep) (Safe config session.history keep) := fun _ =>
      .of_fail (fun _ hstore => hstore.1.safe) fun _ hstore => hstore.1
    cases stored with
    | none => exact hfail _
    | some actual =>
      simp only
      split
      · -- The row of a live writer is not complete.
        rename_i hmatches
        rintro store ⟨hstable, hfound⟩
        have hwriting := hstable.settled.writing writer hmember actual hfound.symm
        simp [StoredResult.matchesCompletion, hwriting] at hmatches
      · split
        · exact hfail _
        · exact hfail _

theorem Stable.unprotected (hstable : Stable config session keep store)
    (hmember : writer ∈ session.writers) {row : StoredResult} (hrow : keep row) :
    row.id ≠ writer.id := by
  intro hid
  obtain ⟨hmem, hstate⟩ := hstable.protects row hrow
  have hfound := hstable.settled.durable.find_of_mem hmem
  rw [hid] at hfound
  rw [hstable.settled.writing writer hmember row hfound] at hstate
  cases hstate

theorem dropResult_keeps {failed : ResultError → ResultStore → Prop}
    (hmember : writer ∈ session.writers) :
    Triple (Stable config session keep) (deleteResult writer.id)
      (fun _ => Stable config (session.dropWriter writer.id) keep) failed
      (Safe config session.history keep) := by
  refine .of_state fun store hstable => ?_
  have hdelete : Triple (Stable config (session.dropWriter writer.id) keep)
      (deleteResult writer.id) (fun _ => Stable config (session.dropWriter writer.id) keep) failed
      (Safe config session.history keep) := by
    refine deleteResult_keeps ?_ fun row hrow => hstable.unprotected hmember hrow
    intro other hother _
    simpa using (List.mem_filter.mp hother).2
  refine hdelete.strengthen ?_
  rintro _ rfl
  exact ⟨hstable.settled.dropWriter writer.id, hstable.protects⟩

theorem finish_keeps (hmember : writer ∈ session.writers) :
    Triple (Stable config session keep) (finish writer completed)
      (fun _ => Finished config session keep writer completed)
      (fun _ => Stable config (session.dropWriter writer.id) keep)
      (Safe config session.history keep) := by
  refine .bind _ (.attempt (completeResult_keeps hmember)) fun result => ?_
  have hdrop : ∀ error : ResultError, Triple (Stable config session keep)
      (do deleteResult writer.id; Stepwise.fail error : StoreM ResultMetadata)
      (fun _ => Finished config session keep writer completed)
      (fun _ => Stable config (session.dropWriter writer.id) keep)
      (Safe config session.history keep) := by
    intro error
    refine .bind _ (dropResult_keeps hmember) fun _ => ?_
    exact .of_fail (fun _ hstore => hstore.safe) fun _ hstore => hstore
  cases result with
  | ok metadata => exact .of_pure (fun _ hstore => hstore.safe) fun _ hstore => hstore
  | error error =>
    cases error with
    | outcomeUnknown operation id =>
      exact .of_fail (fun _ hstore => hstore.safe)
        fun _ hstore => ⟨hstore.settled.dropWriter writer.id, hstore.protects⟩
    | _ => exact hdrop _

end Chat2DB.Results
