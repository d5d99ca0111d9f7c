import Chat2DB.Results.Accounting

/-! # Runs in which operations fail

A file or database error may end an operation at any of its steps, and a write
that fails may have written a part of its data. The destructors then take the
file or the result away again, as far as that does not fail in its turn.
-/

namespace Chat2DB.Results

variable {step : StoreStep}

/-- What a write leaves when it fails. Every other step is taken or not. -/
def StoreStep.tear (written : Nat) : StoreStep → List StoreStep
  | .writeFile id offset data => [.writeFile id offset (data.take written)]
  | _ => []

/-- What the destructors do after an operation failed: `PendingResultFile` removes the file that it
created, `ResultWriter` its result. -/
def Operation.cleanup : Operation → List StoreStep
  | .begin id _ _ _ _ => [.removeFile id, .syncDirectory]
  | .finish id _ | .abort id => [.deleteResult id, .removeFile id, .syncDirectory]
  | .openStore _ | .append _ _ _ | .purge _ => []

/-- The session after an operation failed. `finish` and `abort` consume their writer. -/
def Session.afterFailure (session : Session) : Operation → Session
  | .append id _ _ => session.poison id
  | .finish id _ | .abort id => session.dropWriter id
  | .openStore _ | .begin _ _ _ _ _ | .purge _ => session

/-- Of an operation that fails, how many steps it took, how much of the next one if that is a
write, and how many steps its destructors took. -/
inductive FaultyAction where
  | regular (action : StoreAction)
  | fail (operation : Operation) (steps written cleaned : Nat)

namespace StoreState

variable (config : StoreConfig)

def failedSteps (state : StoreState) (operation : Operation) (steps written cleaned : Nat) :
    List StoreStep :=
  Stepwise.cutShort StoreStep.tear steps written (state.stepsOf config operation) ++
    operation.cleanup.take cleaned

def faultyStep (state : StoreState) : FaultyAction → Option StoreState
  | .regular action => state.step config action
  | .fail operation steps written cleaned =>
    if state.session.Enabled state.store operation then
      some
        { store :=
            Stepwise.after state.store
              (state.failedSteps config operation steps written cleaned)
          session := state.session.afterFailure operation }
    else
      none

/-- The state that some actions lead to, failures among them. -/
def afterFaults (actions : List FaultyAction) : Option StoreState :=
  Machine.run (faultyStep config) initial actions

end StoreState

/-! ## What holds in every run -/

/-- The session has a record of the id, so that no result is begun under it again. -/
def Session.Knows (session : Session) (id : ResultId) : Prop :=
  Rows.find Written.id id session.history ≠ none

/-- A live writer has its row and its file. What it has not lost count of is in the row. -/
structure Held (store : ResultStore) (writer : ResultWriter) (result : StoredResult) : Prop where
  found : store.loadStoredResult writer.id = some result
  writing : result.state = .writing
  current : writer.poisoned = false → result.committedLength = writer.committedLength
  filed : store.findFile writer.id ≠ none

/-- What holds between the steps, too. The writers of `spoiled` were poisoned at some time. -/
structure Sound (spoiled : List ResultId) (session : Session) (store : ResultStore) : Prop where
  distinct : store.Distinct
  writers : Rows.Keyed ResultWriter.id session.writers
  known : ∀ writer ∈ session.writers, session.Knows writer.id
  held : ∀ writer ∈ session.writers, ∃ result, Held store writer result
  closed : session.opened = false → session.writers = []
  spoiledKnown : ∀ id ∈ spoiled, session.Knows id
  spoiledPoisoned : ∀ writer ∈ session.writers, writer.id ∈ spoiled → writer.poisoned = true
  spoiledWriting : ∀ result ∈ store.results, result.id ∈ spoiled → result.state = .writing

/-- A sound store that holds so many bytes at most. -/
structure Within (spoiled : List ResultId) (session : Session) (limit : Nat) (store : ResultStore) :
    Prop where
  sound : Sound spoiled session store
  accounted : store.accountedBytes ≤ limit

/-- What may be done to a store that is to stay within its limit. -/
def Permits (spoiled : List ResultId) (session : Session) (limit : Nat) (store : ResultStore) :
    StoreStep → Prop
  | .createFile id => store.findFile id = none
  | .writeFile id offset data =>
    ∃ grown, offset + data.length ≤ store.weight id + grown ∧
      store.accountedBytes + grown ≤ limit
  | .insertResult result =>
    store.loadStoredResult result.id = none ∧ result.state = .writing ∧
      result.committedLength ≤ store.weight result.id
  | .commitChunk chunk committedLength =>
    committedLength ≤ store.weight chunk.resultId ∧
      ∀ writer ∈ session.writers, writer.id = chunk.resultId → writer.poisoned = true
  | .commitCompletion id _ _ => (∀ writer ∈ session.writers, writer.id ≠ id) ∧ id ∉ spoiled
  | .deleteResult id | .removeFile id => ∀ writer ∈ session.writers, writer.id ≠ id
  | .syncFile _ | .truncateFile _ _ | .syncDirectory => True

variable {spoiled : List ResultId} {session next : Session} {limit : Nat}
  {store other : ResultStore} {id : ResultId}

theorem Permits.tear (written : Nat) (hpermits : Permits spoiled session limit store step) :
    Stepwise.Allows (Permits spoiled session limit) store (step.tear written) := by
  cases step with
  | writeFile id offset data =>
    obtain ⟨grown, hend, hlimit⟩ := hpermits
    have hpart : (data.take written).length ≤ data.length := by
      rw [List.length_take]
      exact Nat.min_le_right _ _
    exact ⟨⟨grown, by omega, hlimit⟩, trivial⟩
  | _ => trivial

/-! ## Steps that keep the store sound -/

theorem Held.frame {writer : ResultWriter} {result : StoredResult} (hheld : Held store writer result)
    (hfound : other.loadStoredResult writer.id = store.loadStoredResult writer.id)
    (hfiled : store.findFile writer.id ≠ none → other.findFile writer.id ≠ none) :
    Held other writer result :=
  ⟨hfound.trans hheld.found, hheld.writing, hheld.current, hfiled hheld.filed⟩

theorem Sound.frame_files (hsound : Sound spoiled session store)
    (hresults : other.results = store.results)
    (hfiles : Rows.Keyed ResultFile.id other.files)
    (hfiled : ∀ writer ∈ session.writers, store.findFile writer.id ≠ none →
      other.findFile writer.id ≠ none) : Sound spoiled session other where
  distinct := ⟨hresults ▸ hsound.distinct.results, hfiles⟩
  writers := hsound.writers
  known := hsound.known
  held := by
    intro writer hwriter
    obtain ⟨result, hheld⟩ := hsound.held writer hwriter
    refine ⟨result, hheld.frame ?_ (hfiled writer hwriter)⟩
    unfold ResultStore.loadStoredResult
    rw [hresults]
  closed := hsound.closed
  spoiledKnown := hsound.spoiledKnown
  spoiledPoisoned := hsound.spoiledPoisoned
  spoiledWriting := hresults ▸ hsound.spoiledWriting

theorem Sound.updateFile (hsound : Sound spoiled session store) {change : ResultFile → ResultFile}
    (hchange : ∀ file, (change file).id = file.id) :
    Sound spoiled session (store.updateFile id change) := by
  refine hsound.frame_files rfl ?_ ?_
  · exact hsound.distinct.files.update hchange
  · intro writer _ hfiled
    rw [findFile_updateFile hchange]
    simpa using hfiled

theorem Sound.syncDirectory (hsound : Sound spoiled session store) :
    Sound spoiled session (store.apply .syncDirectory) := by
  refine hsound.frame_files rfl ?_ ?_
  · have hfiles := hsound.distinct.files
    unfold Rows.Keyed at hfiles ⊢
    rw [ResultStore.apply, List.map_map]
    exact hfiles
  · intro writer _ hfiled
    rw [findFile_syncDirectory]
    simpa using hfiled

theorem Sound.createFile (hsound : Sound spoiled session store)
    (hfresh : store.findFile id = none) : Sound spoiled session (store.apply (.createFile id)) := by
  refine hsound.frame_files rfl ?_ ?_
  · exact hsound.distinct.files.append_singleton (Rows.find_eq_none_iff.mp hfresh)
  · intro writer _ hfiled
    unfold ResultStore.findFile at hfiled ⊢
    unfold ResultStore.apply
    rw [Rows.find_append_singleton]
    cases hfind : Rows.find ResultFile.id writer.id store.files with
    | none => exact absurd hfind hfiled
    | some file => simp

theorem Sound.removeFile (hsound : Sound spoiled session store)
    (hfree : ∀ writer ∈ session.writers, writer.id ≠ id) :
    Sound spoiled session (store.apply (.removeFile id)) := by
  refine hsound.frame_files rfl ?_ ?_
  · exact hsound.distinct.files.filter _
  · intro writer hwriter hfiled
    have hsame : (store.apply (.removeFile id)).findFile writer.id =
        store.findFile writer.id := by
      apply Rows.find_filter_of_keep
      intro file _ hid
      simpa [hid] using hfree writer hwriter
    rw [hsame]
    exact hfiled

theorem Sound.deleteResult (hsound : Sound spoiled session store)
    (hfree : ∀ writer ∈ session.writers, writer.id ≠ id) :
    Sound spoiled session (store.apply (.deleteResult id)) where
  distinct := ⟨hsound.distinct.results.filter _, hsound.distinct.files⟩
  writers := hsound.writers
  known := hsound.known
  held := by
    intro writer hwriter
    obtain ⟨result, hheld⟩ := hsound.held writer hwriter
    refine ⟨result, hheld.frame ?_ fun hfiled => hfiled⟩
    rw [load_apply_deleteResult, if_neg (hfree writer hwriter)]
  closed := hsound.closed
  spoiledKnown := hsound.spoiledKnown
  spoiledPoisoned := hsound.spoiledPoisoned
  spoiledWriting := fun result hresult => hsound.spoiledWriting result (List.mem_filter.mp hresult).1

/-- A new row comes, in the state of writing. -/
theorem Sound.insertResult (hsound : Sound spoiled session store) {result : StoredResult}
    (hfresh : store.loadStoredResult result.id = none) (hwriting : result.state = .writing) :
    Sound spoiled session (store.apply (.insertResult result)) where
  distinct :=
    ⟨hsound.distinct.results.append_singleton (Rows.find_eq_none_iff.mp hfresh),
      hsound.distinct.files⟩
  writers := hsound.writers
  known := hsound.known
  held := by
    intro writer hwriter
    obtain ⟨row, hheld⟩ := hsound.held writer hwriter
    refine ⟨row, hheld.frame ?_ fun hfiled => hfiled⟩
    have hfound := hheld.found
    unfold ResultStore.loadStoredResult at hfound ⊢
    unfold ResultStore.apply
    rw [Rows.find_append_singleton, hfound, Option.some_or]
  closed := hsound.closed
  spoiledKnown := hsound.spoiledKnown
  spoiledPoisoned := hsound.spoiledPoisoned
  spoiledWriting := by
    intro row hrow hspoiled
    rcases List.mem_append.mp hrow with hrow | hrow
    · exact hsound.spoiledWriting row hrow hspoiled
    · rw [List.mem_singleton.mp hrow]
      exact hwriting

/-- Rows are rewritten that no unpoisoned writer relies on; a spoiled one stays as it was. -/
theorem Sound.updateResults (hsound : Sound spoiled session store) {cond : StoredResult → Bool}
    {set : StoredResult → StoredResult} (hset : ∀ row, (set row).id = row.id)
    (hheld : ∀ writer ∈ session.writers, ∀ row, row.id = writer.id → cond row = true →
      writer.poisoned = true ∧ (set row).state = row.state)
    (hspoiled : ∀ row, row.id ∈ spoiled → cond row = true → (set row).state = row.state) :
    Sound spoiled session (store.updateResults cond set) where
  distinct := ⟨hsound.distinct.results.update hset, hsound.distinct.files⟩
  writers := hsound.writers
  known := hsound.known
  held := by
    intro writer hwriter
    obtain ⟨row, hrow⟩ := hsound.held writer hwriter
    have hid : row.id = writer.id := (Rows.find_mem hrow.found).2
    have hfound : (store.updateResults cond set).loadStoredResult writer.id =
        some (if cond row then set row else row) := by
      rw [load_updateResults hset, hrow.found]
      rfl
    by_cases hcond : cond row = true
    · obtain ⟨hpoisoned, hstate⟩ := hheld writer hwriter row hid hcond
      rw [if_pos hcond] at hfound
      refine ⟨set row, hfound, hstate.trans hrow.writing, ?_, hrow.filed⟩
      intro hclean
      rw [hpoisoned] at hclean
      cases hclean
    · rw [if_neg hcond] at hfound
      exact ⟨row, hfound, hrow.writing, hrow.current, hrow.filed⟩
  closed := hsound.closed
  spoiledKnown := hsound.spoiledKnown
  spoiledPoisoned := hsound.spoiledPoisoned
  spoiledWriting := by
    intro row hrow hid
    obtain ⟨old, hold, rfl⟩ := Rows.mem_update.mp hrow
    by_cases hcond : cond old = true
    · rw [if_pos hcond] at hid ⊢
      rw [hset] at hid
      rw [hspoiled old hid hcond]
      exact hsound.spoiledWriting old hold hid
    · rw [if_neg hcond] at hid ⊢
      exact hsound.spoiledWriting old hold hid

theorem Sound.commitChunk (hsound : Sound spoiled session store) {chunk : ResultChunk}
    {committedLength : Nat}
    (hpoisoned : ∀ writer ∈ session.writers, writer.id = chunk.resultId →
      writer.poisoned = true) :
    Sound spoiled session (store.apply (.commitChunk chunk committedLength)) := by
  have hrows : Sound spoiled session
      (store.updateResults (ResultStore.ownsChunk chunk) fun result =>
        { result with committedLength, rowCount := chunk.index.endRowExclusive }) := by
    apply hsound.updateResults
    · intro row
      rfl
    · intro writer hwriter row hid hcond
      have howner : row.id = chunk.resultId := by
        have hboth := Bool.and_eq_true_iff.mp hcond
        exact of_decide_eq_true hboth.1
      exact ⟨hpoisoned writer hwriter (hid.symm.trans howner), rfl⟩
    · intro row _ _
      rfl
  exact hrows.frame_files rfl hrows.distinct.files fun _ _ hfiled => hfiled

theorem Sound.commitCompletion (hsound : Sound spoiled session store)
    {completed : Wire.QueryCompleted} {committedLength : Nat}
    (hfree : ∀ writer ∈ session.writers, writer.id ≠ id) (hclean : id ∉ spoiled) :
    Sound spoiled session (store.apply (.commitCompletion id completed committedLength)) := by
  have howner : ∀ row, ResultStore.ownsCompletion id completed committedLength row = true →
      row.id = id := by
    intro row hcond
    exact of_decide_eq_true (Bool.and_eq_true_iff.mp hcond).1
  apply hsound.updateResults
  · intro row
    rfl
  · intro writer hwriter row hid hcond
    exact absurd (hid.symm.trans (howner row hcond)) (hfree writer hwriter)
  · intro row hspoiled hcond
    rw [howner row hcond] at hspoiled
    exact absurd hspoiled hclean

theorem Sound.apply (hsound : Sound spoiled session store)
    (hpermits : Permits spoiled session limit store step) :
    Sound spoiled session (store.apply step) := by
  cases step with
  | createFile id => exact hsound.createFile hpermits
  | writeFile | syncFile | truncateFile => exact hsound.updateFile fun _ => rfl
  | removeFile id => exact hsound.removeFile hpermits
  | syncDirectory => exact hsound.syncDirectory
  | insertResult result => exact hsound.insertResult hpermits.1 hpermits.2.1
  | commitChunk chunk committedLength => exact hsound.commitChunk hpermits.2
  | commitCompletion id completed committedLength =>
    exact hsound.commitCompletion hpermits.1 hpermits.2
  | deleteResult id => exact hsound.deleteResult hpermits

/-- A permitted step keeps the store within its limit. -/
theorem Within.apply (hwithin : Within spoiled session limit store)
    (hpermits : Permits spoiled session limit store step) :
    Within spoiled session limit (store.apply step) := by
  have hsound := hwithin.sound.apply hpermits
  refine ⟨hsound, ?_⟩
  have hshrinks : (∀ other, (store.apply step).weight other ≤ store.weight other) →
      (store.apply step).accountedBytes ≤ limit := fun hweight =>
    Nat.le_trans (accountedBytes_mono hwithin.sound.distinct hsound.distinct hweight)
      hwithin.accounted
  cases step with
  | createFile id => exact hshrinks fun other => Nat.le_of_eq (weight_createFile hpermits other)
  | writeFile id offset data =>
    -- the one step that makes a file longer, which is what the quota was asked for
    obtain ⟨grown, hend, hlimit⟩ := hpermits
    refine Nat.le_trans (@accountedBytes_le_add store _ id hwithin.sound.distinct
      hsound.distinct grown fun other => ?_) hlimit
    have hwrite := @weight_writeFile store id offset data other
    by_cases hother : other = id
    · subst hother
      rw [if_pos rfl] at hwrite ⊢
      omega
    · rw [if_neg hother] at hwrite ⊢
      omega
  | syncFile id =>
    exact hshrinks (weight_updateFile_le (fun _ => rfl) fun _ => Nat.le_refl _)
  | truncateFile id length =>
    refine hshrinks (weight_updateFile_le (fun _ => rfl) fun file => ?_)
    rw [ResultFile.truncate, List.length_take]
    exact Nat.min_le_right _ _
  | removeFile id => exact hshrinks weight_removeFile
  | syncDirectory => exact hshrinks fun other => Nat.le_of_eq (weight_syncDirectory other)
  | insertResult result => exact hshrinks (weight_insertResult hpermits.2.2)
  | commitChunk chunk committedLength =>
    apply hshrinks
    intro other
    have hlength := hpermits.1
    have hrows : (store.apply (.commitChunk chunk committedLength)).weight other ≤
        max (store.weight other) (if other = chunk.resultId then committedLength else 0) := by
      apply weight_updateResults
      · intro row
        rfl
      · intro row hcond
        exact ⟨of_decide_eq_true (Bool.and_eq_true_iff.mp hcond).1, Nat.le_max_right _ _⟩
    by_cases hother : other = chunk.resultId
    · rw [hother] at hrows ⊢
      rw [if_pos rfl] at hrows
      omega
    · rw [if_neg hother] at hrows
      omega
  | commitCompletion id completed committedLength =>
    apply hshrinks
    intro other
    have hrows : (store.apply (.commitCompletion id completed committedLength)).weight other ≤
        max (store.weight other) (if other = id then 0 else 0) := by
      apply weight_updateResults
      · intro row
        rfl
      · intro row hcond
        exact ⟨of_decide_eq_true (Bool.and_eq_true_iff.mp hcond).1, Nat.le_max_left _ _⟩
    rw [ite_self, Nat.max_zero] at hrows
    exact hrows
  | deleteResult id => exact hshrinks weight_deleteResult

end Chat2DB.Results
