import Chat2DB.Results.Purging
import Chat2DB.Results.Runs

/-! # Operations within the quota

Whatever a single operation does, step by step, is permitted: it removes what is
dead, asks whether its frame fits, and then writes no more than the frame. What
is shown of the steps holds wherever the operation fails.
-/

namespace Chat2DB.Results

open Stepwise (Guarded)

variable {config : StoreConfig} {spoiled activeResults kept : List ResultId} {session : Session}
  {limit : Nat} {store base : ResultStore} {id : ResultId} {writer : ResultWriter}
  {timestampMs : Int} {other next : ResultWriter} {committedLength : Nat} {batch : Wire.RowBatch}

/-! ## Sessions after failures -/

theorem of_mem_poison (hother : other ∈ (session.poison id).writers) :
    ∃ old ∈ session.writers, old.id = other.id ∧
      other = if old.id = id then { old with poisoned := true } else old := by
  obtain ⟨old, hold, rfl⟩ := Rows.mem_update.mp hother
  refine ⟨old, hold, ?_, ?_⟩
  · split <;> rfl
  · simp

/-- A poisoned writer relies on less. -/
theorem Sound.poison (hsound : Sound spoiled session store) (id : ResultId) :
    Sound spoiled (session.poison id) store where
  distinct := hsound.distinct
  writers := hsound.writers.update fun _ => rfl
  known := by
    intro other hother
    obtain ⟨old, hold, hid, -⟩ := of_mem_poison hother
    rw [← hid]
    exact hsound.known old hold
  held := by
    intro other hother
    obtain ⟨old, hold, hid, heq⟩ := of_mem_poison hother
    obtain ⟨result, hheld⟩ := hsound.held old hold
    refine ⟨result, hid ▸ hheld.found, hheld.writing, ?_, hid ▸ hheld.filed⟩
    intro hclean
    rw [heq] at hclean ⊢
    split at hclean
    · cases hclean
    · rename_i hne
      rw [if_neg hne]
      exact hheld.current hclean
  closed := by
    intro hopened
    have hnone := hsound.closed hopened
    unfold Session.poison Session.setWriter
    rw [hnone]
    rfl
  spoiledKnown := hsound.spoiledKnown
  spoiledPoisoned := by
    intro other hother hspoiled
    obtain ⟨old, hold, hid, heq⟩ := of_mem_poison hother
    rw [← hid] at hspoiled
    have hpoisoned := hsound.spoiledPoisoned old hold hspoiled
    rw [heq]
    split
    · rfl
    · exact hpoisoned
  spoiledWriting := hsound.spoiledWriting

theorem of_mem_dropWriter (hother : other ∈ (session.dropWriter id).writers) :
    other ∈ session.writers ∧ other.id ≠ id := by
  obtain ⟨hmem, hne⟩ := List.mem_filter.mp hother
  exact ⟨hmem, by simpa using hne⟩

theorem Sound.dropWriter (hsound : Sound spoiled session store) (id : ResultId) :
    Sound spoiled (session.dropWriter id) store where
  distinct := hsound.distinct
  writers := hsound.writers.filter _
  known := fun other hother => hsound.known other (of_mem_dropWriter hother).1
  held := fun other hother => hsound.held other (of_mem_dropWriter hother).1
  closed := by
    intro hopened
    have hnone := hsound.closed hopened
    unfold Session.dropWriter
    rw [hnone]
    rfl
  spoiledKnown := hsound.spoiledKnown
  spoiledPoisoned := fun other hother => hsound.spoiledPoisoned other (of_mem_dropWriter hother).1
  spoiledWriting := hsound.spoiledWriting

theorem Sound.afterFailure (hsound : Sound spoiled session store) (operation : Operation) :
    Sound spoiled (session.afterFailure operation) store := by
  cases operation with
  | append id batch quotaMs => exact hsound.poison id
  | finish id | abort id => exact hsound.dropWriter id
  | openStore | begin | purge => exact hsound

/-! ## Purges -/

theorem Sound.writer_kept (hsound : Sound spoiled session store) (hwriter : writer ∈ session.writers)
    (timestampMs : Int) :
    writer.id ∈ (store.keptResults timestampMs session.activeResults).map StoredResult.id := by
  obtain ⟨result, hheld⟩ := hsound.held writer hwriter
  obtain ⟨hmem, hid⟩ := Rows.find_mem hheld.found
  refine List.mem_map.mpr ⟨result, List.mem_filter.mpr ⟨hmem, decide_eq_true ?_⟩, hid⟩
  rintro ⟨-, hinactive⟩
  exact hinactive ⟨hheld.writing, hid ▸ List.mem_map.mpr ⟨writer, hwriter, rfl⟩⟩

theorem Discards.permits {step : StoreStep} (hdiscards : Discards kept step)
    (hkept : ∀ writer ∈ session.writers, writer.id ∈ kept) :
    Permits spoiled session limit store step := by
  have hfree : ∀ id, id ∉ kept → ∀ writer ∈ session.writers, writer.id ≠ id := by
    rintro id hid writer hwriter rfl
    exact hid (hkept writer hwriter)
  cases step with
  | deleteResult id | removeFile id => exact hfree id hdiscards
  | syncDirectory => trivial
  | _ => exact hdiscards.elim

/-- The quota check grants what fits, after a purge if need be. -/
theorem checkResultQuota_grants (hdistinct : base.Distinct) {requested : Nat}
    (hrequested : 0 < requested) :
    Guarded (fun _ step =>
        Discards ((base.keptResults timestampMs activeResults).map StoredResult.id) step)
      (fun store => store = base)
      (checkResultQuota config requested timestampMs activeResults)
      (fun _ store => store.accountedBytes + requested ≤ config.maxRetainedBytes ∧
        (store = base ∨
          store = (Stepwise.run (purgeExpiredAt timestampMs activeResults) base).2))
      (fun _ _ => True) := by
  have hretained : ∀ start, Guarded (fun _ step =>
        Discards ((base.keptResults timestampMs activeResults).map StoredResult.id) step)
      (fun store => store = start) retainedResultBytes
      (fun retained store => store = start ∧ retained = start.accountedBytes)
      (fun _ _ => True) := by
    intro start
    refine .read_at (.of_ofExcept ?_ fun _ _ _ _ => trivial)
    rintro retained store rfl hretained
    unfold ResultStore.retainedResultBytes at hretained
    simp only [Outcome.bind_eq_ok, Outcome.rejectIf_eq_ok, Outcome.pure_eq_ok] at hretained
    obtain ⟨-, -, rfl⟩ := hretained
    exact ⟨rfl, rfl⟩
  unfold checkResultQuota
  refine .bind _ (hretained base) fun retained => .of_fact fun hvalue => ?_
  subst hvalue
  by_cases hfits : requested > config.maxRetainedBytes - base.accountedBytes
  · rw [if_pos hfits]
    refine .bind _ (((purgeExpiredAt_purges hdistinct).at_run).weaken (fun _ hstart => hstart)
      (fun _ _ hnext => congrArg Prod.snd hnext.2) fun _ _ (hnever : False ∧ _) =>
        hnever.1.elim) fun report => .of_state fun middle hmiddle => ?_
    refine .bind _ (hretained middle) fun retained => .of_fact fun hvalue => ?_
    subst hvalue
    refine .of_ofExcept ?_ fun _ _ _ _ => trivial
    rintro _ store rfl hgranted
    rw [Outcome.rejectIf_eq_ok] at hgranted
    exact ⟨by omega, .inr hmiddle.symm⟩
  · rw [if_neg hfits]
    refine .of_pure ?_
    rintro store rfl
    exact ⟨by omega, .inl rfl⟩

theorem checkResultQuota_permits {failing : Session} (hwithin : Within spoiled session limit base)
    (hfailing : ∀ writer ∈ failing.writers, ∃ old ∈ session.writers, old.id = writer.id)
    {requested : Nat} (hrequested : 0 < requested) :
    Guarded (Permits spoiled failing limit) (fun store => store = base)
      (checkResultQuota config requested timestampMs session.activeResults)
      (fun _ store => store.accountedBytes + requested ≤ config.maxRetainedBytes ∧
        Within spoiled session limit store)
      (fun _ _ => True) := by
  have hkept : ∀ writer ∈ session.writers, writer.id ∈
      (base.keptResults timestampMs session.activeResults).map StoredResult.id :=
    fun writer hwriter => hwithin.sound.writer_kept hwriter timestampMs
  refine (((checkResultQuota_grants hwithin.sound.distinct hrequested).keeps
    (motive := Within spoiled session limit) ?_ ?_).mono ?_).weaken (fun _ hstart => hstart)
    (fun _ _ hnext => ⟨hnext.1.1, hnext.2⟩) fun _ _ _ => trivial
  · intro store step hstore hdiscards
    exact hstore.apply (hdiscards.permits hkept)
  · rintro store rfl
    exact hwithin
  · intro store step hdiscards
    refine hdiscards.permits fun writer hwriter => ?_
    obtain ⟨old, hold, hid⟩ := hfailing writer hwriter
    exact hid ▸ hkept old hold

theorem encodeFrame_positive {payload frame : List UInt8} {maximum : Nat}
    (hframe : encodeFrame payload maximum = .ok frame) : 0 < frame.length := by
  obtain ⟨hpositive, -, -, rfl⟩ := encodeFrame_eq_ok_iff.mp hframe
  rw [frameOf, List.length_append]
  omega

/-! ## Recovery -/

/-- A step that makes nothing longer and puts nothing into the index. -/
def Shrinks : StoreStep → Prop
  | .deleteResult _ | .removeFile _ | .truncateFile _ _ | .syncFile _ | .syncDirectory => True
  | _ => False

/-- A program all of whose steps shrink the store, whatever it meets. -/
abbrev Shrinking {α : Type} (program : StoreM α) : Prop :=
  Guarded (fun _ step => Shrinks step) (fun _ => True) program (fun _ _ => True) (fun _ _ => True)

theorem deleteResult_shrinks (id : ResultId) : Shrinking (deleteResult id) := by
  refine .bind (fun _ _ => True) (.of_perform (fun _ _ => trivial) fun _ _ => trivial) fun _ => ?_
  refine .bind (fun _ _ => True) (.of_perform (fun _ _ => trivial) fun _ _ => trivial) fun _ => ?_
  exact .of_perform (fun _ _ => trivial) fun _ _ => trivial

theorem truncateTail_shrinks (result : StoredResult) : Shrinking (truncateTail result) := by
  refine .read fun opened => .check (fun _ _ _ => trivial) fun file _ => ?_
  refine .check (fun _ _ _ => trivial) fun _ _ => ?_
  split
  · refine .bind (fun _ _ => True) (.of_perform (fun _ _ => trivial) fun _ _ => trivial) fun _ => ?_
    refine .bind (fun _ _ => True) (.of_perform (fun _ _ => trivial) fun _ _ => trivial) fun _ => ?_
    exact .of_pure fun _ _ => trivial
  · exact .of_pure fun _ _ => trivial

theorem validateCompletedResult_shrinks (result : StoredResult) :
    Shrinking (validateCompletedResult config result) := by
  refine .check (fun _ _ _ => trivial) fun _ _ => ?_
  refine .bind _ (truncateTail_shrinks result) fun truncated => ?_
  refine .read fun checked => .check (fun _ _ _ => trivial) fun _ _ => ?_
  exact .of_pure fun _ _ => trivial

theorem recoverResult_shrinks (progress : RecoveryProgress) (result : StoredResult) :
    Shrinking (recoverResult config timestampMs progress result) := by
  unfold recoverResult
  extract_lets report
  by_cases hwriting : result.state = .writing
  · rw [if_pos hwriting]
    exact .bind _ (deleteResult_shrinks result.id) fun _ => .of_pure fun _ _ => trivial
  rw [if_neg hwriting]
  by_cases hexpired : result.expiresAtMs ≤ timestampMs
  · rw [if_pos hexpired]
    exact .bind _ (deleteResult_shrinks result.id) fun _ => .of_pure fun _ _ => trivial
  rw [if_neg hexpired]
  refine .bind (fun _ _ => True) ((validateCompletedResult_shrinks result).attempt.weaken
    (fun _ hstart => hstart) (fun _ _ _ => trivial) fun _ _ hfailed => hfailed) fun validated => ?_
  split
  · exact .of_pure fun _ _ => trivial
  · exact .bind _ (deleteResult_shrinks result.id) fun _ => .of_pure fun _ _ => trivial
  · exact .of_fail fun _ _ => trivial

theorem removeOrphan_shrinks (referenced : List ResultId) (removed : Nat) (file : ResultFile) :
    Shrinking (removeOrphan referenced removed file) := by
  unfold removeOrphan
  split
  · exact .of_pure fun _ _ => trivial
  · refine .bind (fun _ _ => True) (.of_perform (fun _ _ => trivial) fun _ _ => trivial) fun _ => ?_
    exact .of_pure fun _ _ => trivial

theorem recoverAt_shrinks : Shrinking (recoverAt config timestampMs) := by
  refine .read fun unsupported => ?_
  split
  · exact .of_fail fun _ _ => trivial
  · refine .read fun results => ?_
    refine .bind (fun _ _ => True) (Guarded.fold (fun _ _ _ => True)
      (fun result _ progress => recoverResult_shrinks progress result) results _)
      fun progress => ?_
    refine .read fun files => ?_
    refine .bind (fun _ _ => True) (Guarded.fold (fun _ _ _ => True)
      (fun file _ removed => removeOrphan_shrinks progress.referencedFiles removed file) files _)
      fun removed => ?_
    refine .bind (fun _ _ => True) (.of_perform (fun _ _ => trivial) fun _ _ => trivial) fun _ => ?_
    exact .of_pure fun _ _ => trivial

theorem Shrinks.permits {step : StoreStep} (hshrinks : Shrinks step)
    (hnone : session.writers = []) : Permits spoiled session limit store step := by
  cases step with
  | deleteResult | removeFile => simp [Permits, hnone]
  | truncateFile | syncFile | syncDirectory => trivial
  | _ => exact hshrinks.elim

/-! ## Appending -/

/-- A result is being written, up to a length. -/
def Committed (id : ResultId) (length : Nat) (store : ResultStore) : Prop :=
  ∃ result, store.loadStoredResult id = some result ∧ result.state = .writing ∧
    result.committedLength = length

theorem committed_commitChunk (hdistinct : base.Distinct) {chunk : ResultChunk}
    (hchanged : Rows.changed (ResultStore.ownsChunk chunk) base.results = 1) :
    Committed chunk.resultId committedLength (base.apply (.commitChunk chunk committedLength)) := by
  have hpositive : 0 < base.results.countP (ResultStore.ownsChunk chunk) := by
    unfold Rows.changed at hchanged
    omega
  obtain ⟨result, hresult, howns⟩ := List.countP_pos_iff.mp hpositive
  obtain ⟨hid, hstate, -⟩ := ownsChunk_eq_true.mp howns
  have hfound : base.loadStoredResult chunk.resultId = some result :=
    hid ▸ hdistinct.results.find_of_mem hresult
  have hupdated : (base.apply (.commitChunk chunk committedLength)).loadStoredResult
      chunk.resultId =
        some { result with committedLength, rowCount := chunk.index.endRowExclusive } := by
    rw [load_commitChunk, hfound, Option.map_some, if_pos howns]
  exact ⟨_, hupdated, hstate, rfl⟩

theorem commitChunkVerified_commits {allowed : ResultStore → StoreStep → Prop}
    (hdistinct : base.Distinct) {chunk : ResultChunk}
    (hallowed : allowed base (.commitChunk chunk committedLength)) :
    Guarded allowed (fun store => store = base) (commitChunkVerified chunk committedLength)
      (fun _ store => Committed chunk.resultId committedLength store) (fun _ _ => True) := by
  have hcommit : Guarded allowed (fun store => store = base) (commitChunk chunk committedLength)
      (fun _ store => Committed chunk.resultId committedLength store)
      (fun _ store => store = base) := by
    refine .check (fun _ _ hstart => hstart) fun _ _ => ?_
    refine .check (fun _ _ hstart => hstart) fun _ _ => ?_
    refine .check (fun _ _ hstart => hstart) fun _ _ => ?_
    refine .check (fun _ _ hstart => hstart) fun _ _ => ?_
    refine .check (fun _ _ hstart => hstart) fun _ _ => ?_
    refine .check (fun _ _ hstart => hstart) fun _ _ => ?_
    refine .read_at (.check (fun _ _ hstart => hstart) fun _ _ => ?_)
    refine .check (fun _ _ hstart => hstart) fun _ _ => ?_
    refine .read_at (.check (fun _ _ hstart => hstart) fun _ hchanged => ?_)
    rw [Outcome.rejectIf_eq_ok, not_not] at hchanged
    refine .of_perform ?_ ?_
    · rintro store rfl
      exact hallowed
    · rintro store rfl
      exact committed_commitChunk hdistinct hchanged
  refine .bind _ hcommit.attempt fun committed => ?_
  cases committed with
  | ok _ => exact .of_pure fun _ hstore => hstore
  | error error =>
    refine .read_at ?_
    split
    · rename_i happlied
      refine .of_pure ?_
      rintro store rfl
      -- What was read back is a row that is as long as it should be.
      simp only [ResultStore.verifyChunkCommit, Outcome.bind_eq_ok] at happlied
      obtain ⟨-, -, happlied⟩ := happlied
      split at happlied
      · rename_i result stored hresult _
        split at happlied
        · rename_i hmatches
          have hwriting := hmatches.1
          simp only [StoredResult.matchesWriting, Bool.and_eq_true, decide_eq_true_eq] at hwriting
          exact ⟨result, hresult, hwriting.1.1, hwriting.2⟩
        · cases happlied
      · split at happlied <;> cases happlied
      · cases happlied
    · exact .of_fail fun _ _ => trivial
    · exact .of_fail fun _ _ => trivial
    · exact .of_fail fun _ _ => trivial

theorem length_le_weight_writeFile {offset : Nat} {data : List UInt8}
    (hfiled : base.findFile id ≠ none) :
    offset + data.length ≤ (base.apply (.writeFile id offset data)).weight id := by
  obtain ⟨file, hfile⟩ := Option.ne_none_iff_exists'.mp hfiled
  have hphysical : offset + data.length ≤
      (base.apply (.writeFile id offset data)).physicalLength id := by
    have hchange : ∀ file, (ResultFile.write offset data file).id = file.id := fun _ => rfl
    rw [ResultStore.apply, physicalLength_updateFile hchange, hfile, Option.elim_some,
      if_pos (Rows.find_mem hfile).2, length_write]
    exact Nat.le_max_right _ _
  exact Nat.le_trans hphysical (Nat.le_max_right _ _)

theorem weight_syncFile (other : ResultId) :
    (base.apply (.syncFile id)).weight other = base.weight other := by
  have hphysical : (base.apply (.syncFile id)).physicalLength other =
      base.physicalLength other := by
    have hchange : ∀ file, (ResultFile.sync file).id = file.id := fun _ => rfl
    rw [ResultStore.apply, physicalLength_updateFile hchange, ResultStore.physicalLength]
    cases base.findFile other with
    | none => rfl
    | some file =>
      simp only [Option.elim_some]
      split <;> rfl
  unfold ResultStore.weight
  rw [hphysical]
  rfl

/-- An append writes its frame behind what its writer committed, and no more. -/
theorem appendBatch_permits (hwithin : Within spoiled session limit base)
    (hlimit : config.maxRetainedBytes ≤ limit) (hwriter : writer ∈ session.writers)
    {quotaMs : Int} :
    Guarded (Permits spoiled (session.poison writer.id) limit) (fun store => store = base)
      (appendBatch config writer batch quotaMs session.activeResults)
      (fun next store => next.id = writer.id ∧ writer.poisoned = false ∧
        Committed writer.id next.committedLength store)
      (fun _ _ => True) := by
  refine .check (fun _ _ _ => trivial) fun _ hclean => ?_
  rw [Outcome.rejectIf_eq_ok, Bool.not_eq_true] at hclean
  refine .check (fun _ _ _ => trivial) fun _ _ => ?_
  refine .check (fun _ _ _ => trivial) fun frame hframe => ?_
  refine .check (fun _ _ _ => trivial) fun _ _ => ?_
  refine .check (fun _ _ _ => trivial) fun _ _ => ?_
  have hfailing : ∀ other ∈ (session.poison writer.id).writers,
      ∃ old ∈ session.writers, old.id = other.id := by
    intro other hother
    obtain ⟨old, hold, hid, -⟩ := of_mem_poison hother
    exact ⟨old, hold, hid⟩
  refine .bind _ (checkResultQuota_permits hwithin hfailing (encodeFrame_positive hframe))
    fun _ => .of_state fun granted hgranted => ?_
  obtain ⟨hroom, hgranted⟩ := hgranted
  obtain ⟨result, hheld⟩ := hgranted.sound.held writer hwriter
  -- The row is at the length that the writer knows, so the frame adds its own length at most.
  have hoffset : writer.committedLength ≤ granted.weight writer.id := by
    have hindexed : granted.indexedLength writer.id = writer.committedLength := by
      rw [ResultStore.indexedLength, hheld.found, Option.elim_some, hheld.current hclean]
    rw [← hindexed]
    exact Nat.le_max_left _ _
  have hwrite : Permits spoiled (session.poison writer.id) limit granted
      (.writeFile writer.id writer.committedLength frame) :=
    ⟨frame.length, by omega, by omega⟩
  have hsync : Permits spoiled (session.poison writer.id) limit
      (granted.apply (.writeFile writer.id writer.committedLength frame)) (.syncFile writer.id) :=
    trivial
  refine .perform_at hwrite (.perform_at hsync ?_)
  have hwritten := ((hgranted.sound.poison writer.id).apply hwrite).apply hsync
  refine .bind _ (commitChunkVerified_commits hwritten.distinct ⟨?_, ?_⟩) fun _ => ?_
  · exact Nat.le_trans (length_le_weight_writeFile hheld.filed)
      (Nat.le_of_eq (weight_syncFile writer.id).symm)
  · intro other hother hid
    obtain ⟨old, -, hold, heq⟩ := of_mem_poison hother
    have howner : old.id = writer.id := hold.trans hid
    rw [heq, if_pos howner]
  · refine .check (fun _ _ _ => trivial) fun _ _ => .of_pure fun store hcommitted => ?_
    exact ⟨rfl, hclean, hcommitted⟩

/-! ## Beginning -/

theorem findFile_createFile : (base.apply (.createFile id)).findFile id ≠ none := by
  unfold ResultStore.findFile ResultStore.apply
  rw [Rows.find_append_singleton, if_pos rfl]
  simp

theorem findFile_updateFile_ne_none {change : ResultFile → ResultFile} {other : ResultId}
    (hchange : ∀ file, (change file).id = file.id) (hfiled : base.findFile other ≠ none) :
    (base.updateFile id change).findFile other ≠ none := by
  rw [findFile_updateFile hchange]
  simpa using hfiled

theorem findFile_syncDirectory_ne_none (hfiled : base.findFile id ≠ none) :
    (base.apply .syncDirectory).findFile id ≠ none := by
  rw [findFile_syncDirectory]
  simpa using hfiled

theorem insertWritingResult_permits {result : StoredResult} (hwriting : result.state = .writing)
    (hlength : result.committedLength ≤ base.weight result.id)
    (hfiled : base.findFile result.id ≠ none) :
    Guarded (Permits spoiled session limit) (fun store => store = base)
      (insertWritingResult result)
      (fun _ store => Committed result.id result.committedLength store ∧
        store.findFile result.id ≠ none)
      (fun _ store => store = base) := by
  refine .check (fun _ _ hstart => hstart) fun _ _ => ?_
  refine .read_at (.check (fun _ _ hstart => hstart) fun _ hadmitted => ?_)
  rw [Outcome.rejectIf_eq_ok, Bool.not_eq_false, decide_eq_true_eq] at hadmitted
  refine .of_perform ?_ ?_
  · rintro store rfl
    exact ⟨hadmitted.1, hwriting, hlength⟩
  · rintro store rfl
    exact ⟨⟨result, load_insertResult hadmitted.1, hwriting, rfl⟩, hfiled⟩

/-- The file of a new result is as long as its frame, for which there is room. -/
theorem writeSchemaFile_permits (hwithin : Within spoiled session limit base) {frame : List UInt8}
    {createdAtMs expiresAtMs : Int} (hroom : base.accountedBytes + frame.length ≤ limit)
    (hfree : ∀ writer ∈ session.writers, writer.id ≠ id) :
    Guarded (Permits spoiled session limit) (fun store => store = base)
      (writeSchemaFile config id frame createdAtMs expiresAtMs)
      (fun _ store => Committed id frame.length store ∧ store.findFile id ≠ none)
      (fun _ _ => True) := by
  refine .read_at (.check (fun _ _ _ => trivial) fun _ hexisting => ?_)
  rw [Outcome.rejectIf_eq_ok, not_not] at hexisting
  have hcreated := hwithin.sound.createFile hexisting
  have hsame : (base.apply (.createFile id)).accountedBytes ≤ base.accountedBytes :=
    accountedBytes_mono hwithin.sound.distinct hcreated.distinct fun other =>
      Nat.le_of_eq (weight_createFile hexisting other)
  have hwrite : Permits spoiled session limit (base.apply (.createFile id))
      (.writeFile id 0 frame) :=
    ⟨frame.length, by omega, by omega⟩
  refine .perform_at hexisting (.perform_at hwrite (.perform_at trivial (.perform_at trivial ?_)))
  have hwritten := @length_le_weight_writeFile _ id 0 frame (@findFile_createFile base id)
  rw [Nat.zero_add, ← @weight_syncFile _ id, ← weight_syncDirectory] at hwritten
  have hfiled : ((((base.apply (.createFile id)).apply (.writeFile id 0 frame)).apply
      (.syncFile id)).apply .syncDirectory).findFile id ≠ none :=
    findFile_syncDirectory_ne_none (findFile_updateFile_ne_none (fun _ => rfl)
      (findFile_updateFile_ne_none (fun _ => rfl) findFile_createFile))
  refine .bind _ (insertWritingResult_permits rfl hwritten hfiled).attempt fun inserted => ?_
  cases inserted with
  | ok _ => exact .of_pure fun _ hstore => hstore
  | error error =>
    refine .read_at ?_
    split
    · rename_i actual hactual
      split
      · rename_i hmatches
        refine .of_pure ?_
        rintro store rfl
        exact ⟨⟨actual, hactual, hmatches.1, hmatches.2.1⟩, hfiled⟩
      · exact .of_fail fun _ _ => trivial
    · refine .perform_at hfree (.perform_at trivial ?_)
      exact .of_fail fun _ _ => trivial

theorem beginResult_permits (hwithin : Within spoiled session limit base)
    (hlimit : config.maxRetainedBytes ≤ limit) {schema : Wire.QueryStarted} {retention : Nat}
    {nowMs quotaMs : Int} (hfree : ∀ writer ∈ session.writers, writer.id ≠ id) :
    Guarded (Permits spoiled session limit) (fun store => store = base)
      (beginResult config id schema retention nowMs quotaMs session.activeResults)
      (fun writer store => writer.id = id ∧ Committed id writer.committedLength store ∧
        store.findFile id ≠ none)
      (fun _ _ => True) := by
  refine .check (fun _ _ _ => trivial) fun _ _ => ?_
  refine .check (fun _ _ _ => trivial) fun _ _ => ?_
  refine .check (fun _ _ _ => trivial) fun _ _ => ?_
  refine .check (fun _ _ _ => trivial) fun _ _ => ?_
  refine .check (fun _ _ _ => trivial) fun _ _ => ?_
  refine .check (fun _ _ _ => trivial) fun frame hframe => ?_
  refine .bind _ (checkResultQuota_permits hwithin (fun other hother => ⟨other, hother, rfl⟩)
    (encodeFrame_positive hframe)) fun _ => .of_state fun granted hgranted => ?_
  obtain ⟨hroom, hgranted⟩ := hgranted
  refine .bind _ (writeSchemaFile_permits hgranted (by omega) hfree) fun _ => ?_
  exact .of_pure fun store hstore => ⟨rfl, hstore⟩

/-! ## Finishing -/

theorem deleteResult_permits (hfree : ∀ writer ∈ session.writers, writer.id ≠ id)
    {before : ResultStore → Prop} {failed : ResultError → ResultStore → Prop} :
    Guarded (Permits spoiled session limit) before (deleteResult id) (fun _ _ => True) failed := by
  refine .bind (fun _ _ => True) (.of_perform (fun _ _ => hfree) fun _ _ => trivial) fun _ => ?_
  refine .bind (fun _ _ => True) (.of_perform (fun _ _ => hfree) fun _ _ => trivial) fun _ => ?_
  exact .of_perform (fun _ _ => trivial) fun _ _ => trivial

theorem commitCompletion_permits (hfree : ∀ writer ∈ session.writers, writer.id ≠ id)
    (hclean : id ∉ spoiled) {completed : Wire.QueryCompleted} :
    Guarded (Permits spoiled session limit) (fun _ => True)
      (commitCompletion id completed committedLength) (fun _ _ => True) (fun _ _ => True) := by
  refine .check (fun _ _ _ => trivial) fun _ _ => ?_
  refine .check (fun _ _ _ => trivial) fun _ _ => ?_
  refine .read fun changed => .check (fun _ _ _ => trivial) fun _ _ => ?_
  exact .of_perform (fun _ _ => ⟨hfree, hclean⟩) fun _ _ => trivial

/-- Only a writer that was never poisoned completes its result. -/
theorem finish_permits (hfree : ∀ other ∈ session.writers, other.id ≠ writer.id)
    (hclean : writer.poisoned = false → writer.id ∉ spoiled) {completed : Wire.QueryCompleted} :
    Guarded (Permits spoiled session limit) (fun _ => True) (finish writer completed)
      (fun _ _ => True) (fun _ _ => True) := by
  have hcomplete : Guarded (Permits spoiled session limit) (fun _ => True)
      (completeResult writer completed) (fun _ _ => True) (fun _ _ => True) := by
    refine .check (fun _ _ _ => trivial) fun _ hpoisoned => ?_
    rw [Outcome.rejectIf_eq_ok, Bool.not_eq_true] at hpoisoned
    refine .check (fun _ _ _ => trivial) fun _ _ => ?_
    refine .bind (fun _ _ => True) ((commitCompletion_permits hfree
      (hclean hpoisoned)).attempt.weaken (fun _ hstart => hstart) (fun _ _ _ => trivial)
        fun _ _ hfailed => hfailed) fun committed => ?_
    cases committed with
    | ok _ => exact .of_pure fun _ _ => trivial
    | error error =>
      refine .read fun stored => ?_
      split
      · split
        · exact .of_ofExcept (fun _ _ _ _ => trivial) fun _ _ _ _ => trivial
        · split <;> exact .of_fail fun _ _ => trivial
      · exact .of_fail fun _ _ => trivial
  refine .bind (fun _ _ => True) (hcomplete.attempt.weaken (fun _ hstart => hstart)
    (fun _ _ _ => trivial) fun _ _ hfailed => hfailed) fun result => ?_
  split
  · exact .of_pure fun _ _ => trivial
  · exact .of_fail fun _ _ => trivial
  · exact .bind _ (deleteResult_permits hfree) fun _ => .of_fail fun _ _ => trivial

/-! ## Sessions after success -/

theorem knows_record {change : Written → Written}
    (hchange : ∀ written, (change written).id = written.id) {other : ResultId} :
    (session.record id change).Knows other ↔ session.Knows other := by
  unfold Session.Knows Session.record
  rw [find_record hchange]
  simp

theorem Sound.record (hsound : Sound spoiled session store) {change : Written → Written}
    (hchange : ∀ written, (change written).id = written.id) :
    Sound spoiled (session.record id change) store where
  distinct := hsound.distinct
  writers := hsound.writers
  known := fun writer hwriter => (knows_record hchange).mpr (hsound.known writer hwriter)
  held := hsound.held
  closed := hsound.closed
  spoiledKnown := fun id hid => (knows_record hchange).mpr (hsound.spoiledKnown id hid)
  spoiledPoisoned := hsound.spoiledPoisoned
  spoiledWriting := hsound.spoiledWriting

theorem knows_appended {other : ResultId} :
    (session.appended next batch).Knows other ↔ session.Knows other := by
  apply @knows_record (session.setWriter next.id fun _ => next)
  intro written
  rfl

theorem of_mem_appended (hother : other ∈ (session.appended next batch).writers) :
    other = next ∨ other ∈ session.writers ∧ other.id ≠ next.id := by
  obtain ⟨old, hold, rfl⟩ := Rows.mem_update.mp hother
  by_cases howner : old.id = next.id
  · exact .inl (if_pos (by simpa using howner))
  · rw [if_neg (by simpa using howner)]
    exact .inr ⟨hold, howner⟩

theorem mem_poison_of_ne (hother : other ∈ session.writers) (hne : other.id ≠ id) :
    other ∈ (session.poison id).writers :=
  Rows.mem_update_of_not hother (by simpa using hne)

/-- The writer that an append returns is at the length that its row has now. -/
theorem Sound.appended (hbefore : Sound spoiled session base)
    (hsound : Sound spoiled (session.poison writer.id) store) (hwriter : writer ∈ session.writers)
    (hclean : writer.poisoned = false) (hid : next.id = writer.id)
    (hcommitted : Committed writer.id next.committedLength store) (batch : Wire.RowBatch) :
    Sound spoiled (session.appended next batch) store where
  distinct := hsound.distinct
  writers := hbefore.writers.update_at fun row hrow => (of_decide_eq_true hrow).symm
  known := by
    intro other hother
    rw [knows_appended]
    rcases of_mem_appended hother with rfl | ⟨hold, -⟩
    · rw [hid]
      exact hbefore.known writer hwriter
    · exact hbefore.known other hold
  held := by
    intro other hother
    rcases of_mem_appended hother with rfl | ⟨hold, hne⟩
    · obtain ⟨_, hheld⟩ := hsound.held _ (mem_poison hwriter)
      obtain ⟨row, hfound, hstate, hlength⟩ := hcommitted
      exact ⟨row, hid ▸ hfound, hstate, fun _ => hlength, hid ▸ hheld.filed⟩
    · exact hsound.held other (mem_poison_of_ne hold (hid ▸ hne))
  closed := by
    intro hopened
    rw [hbefore.closed hopened] at hwriter
    cases hwriter
  spoiledKnown := fun id hspoiled =>
    knows_appended.mpr (hbefore.spoiledKnown id hspoiled)
  spoiledPoisoned := by
    intro other hother hspoiled
    rcases of_mem_appended hother with rfl | ⟨hold, -⟩
    · rw [hid] at hspoiled
      have hpoisoned := hbefore.spoiledPoisoned writer hwriter hspoiled
      rw [hclean] at hpoisoned
      cases hpoisoned
    · exact hbefore.spoiledPoisoned other hold hspoiled
  spoiledWriting := hsound.spoiledWriting

theorem knows_started {schema : Wire.QueryStarted} {other : ResultId}
    (hknows : session.Knows other) : (session.started writer schema).Knows other := by
  unfold Session.Knows Session.started at *
  rw [Rows.find_append_singleton]
  cases hfind : Rows.find Written.id other session.history with
  | none => exact absurd hfind hknows
  | some written => simp

/-- A new writer has a row and a file of its own. -/
theorem Sound.started (hsound : Sound spoiled session store) (hopened : session.opened = true)
    (hfresh : ¬ session.Knows writer.id) (hcommitted : Committed writer.id writer.committedLength store)
    (hfiled : store.findFile writer.id ≠ none) (schema : Wire.QueryStarted) :
    Sound spoiled (session.started writer schema) store where
  distinct := hsound.distinct
  writers := hsound.writers.append_singleton fun old hold hid => hfresh (hid ▸ hsound.known old hold)
  known := by
    intro other hother
    rcases List.mem_append.mp hother with hold | hnew
    · exact knows_started (hsound.known other hold)
    · rw [List.mem_singleton.mp hnew]
      unfold Session.Knows Session.started
      rw [Rows.find_append_singleton, if_pos rfl]
      simp
  held := by
    intro other hother
    rcases List.mem_append.mp hother with hold | hnew
    · exact hsound.held other hold
    · rw [List.mem_singleton.mp hnew]
      obtain ⟨row, hfound, hstate, hlength⟩ := hcommitted
      exact ⟨row, hfound, hstate, fun _ => hlength, hfiled⟩
  closed := by
    intro hclosed
    change session.opened = false at hclosed
    rw [hopened] at hclosed
    cases hclosed
  spoiledKnown := fun id hspoiled => knows_started (hsound.spoiledKnown id hspoiled)
  spoiledPoisoned := by
    intro other hother hspoiled
    rcases List.mem_append.mp hother with hold | hnew
    · exact hsound.spoiledPoisoned other hold hspoiled
    · rw [List.mem_singleton.mp hnew] at hspoiled
      exact absurd (hsound.spoiledKnown writer.id hspoiled) hfresh
  spoiledWriting := hsound.spoiledWriting

/-! ## Every operation -/

/-- A program whose error goes to the caller: what it permits, and the sessions that it leads
to. -/
theorem attempt_permits {α : Type} {failing : Session} {program : StoreM α}
    {returned : α → ResultStore → Prop} {next : Except ResultError α → StoreM Session}
    (hwithin : Within spoiled failing limit store)
    (hprogram : Guarded (Permits spoiled failing limit) (fun state => state = store) program
      returned fun _ _ => True)
    (hreturned : ∀ value, ∃ after, next (.ok value) = pure after ∧
      ∀ last, returned value last → Sound spoiled failing last → Sound spoiled after last)
    (hfailed : ∀ error, next (.error error) = pure failing) :
    Guarded (Permits spoiled failing limit) (fun state => state = store)
      (Stepwise.attempt program >>= next) (fun after last => Sound spoiled after last)
      (fun _ _ => False) := by
  have hkept := hprogram.keeps (motive := Within spoiled failing limit)
    (fun _ _ hstate hpermits => hstate.apply hpermits)
    (by rintro state rfl; exact hwithin)
  refine .bind _ hkept.attempt fun result => ?_
  cases result with
  | error error =>
    rw [hfailed error]
    exact .of_pure fun last hlast => hlast.2.sound
  | ok value =>
    obtain ⟨after, hnext, hsound⟩ := hreturned value
    rw [hnext]
    exact .of_pure fun last hlast => hsound last hlast.1 hlast.2.sound

/-- From a store within its limit, every step of an operation is permitted to the session that a
failure would leave, and the operation itself ends soundly. -/
theorem Session.program_permits (hwithin : Within spoiled session limit store)
    (hlimit : config.maxRetainedBytes ≤ limit) {operation : Operation}
    (henabled : session.Enabled store operation) :
    Guarded (Permits spoiled (session.afterFailure operation) limit) (fun state => state = store)
      (session.program config operation) (fun next last => Sound spoiled next last)
      (fun _ _ => False) := by
  have hafter : Within spoiled (session.afterFailure operation) limit store :=
    ⟨hwithin.sound.afterFailure operation, hwithin.accounted⟩
  -- an operation is an attempt: what it permits, then what session it leaves
  cases operation with
  | openStore timestampMs =>
    have hnone := hwithin.sound.closed henabled
    apply attempt_permits hafter ((recoverAt_shrinks.mono fun _ _ hshrinks =>
      hshrinks.permits hnone).weaken (fun _ _ => trivial) (fun _ _ hnext => hnext)
        fun _ _ hfailed => hfailed)
    · refine fun report => ⟨{ session with opened := true }, rfl, fun last _ hsound => ?_⟩
      exact ⟨hsound.distinct, hsound.writers, hsound.known, hsound.held, fun _ => hnone,
        hsound.spoiledKnown, hsound.spoiledPoisoned, hsound.spoiledWriting⟩
    · exact fun error => rfl
  | begin id schema retention nowMs quotaMs =>
    obtain ⟨hopened, -, -, hfresh⟩ := henabled
    have hfree : ∀ writer ∈ session.writers, writer.id ≠ id := by
      rintro writer hwriter rfl
      exact hwithin.sound.known writer hwriter hfresh
    apply attempt_permits hafter (beginResult_permits hwithin hlimit hfree)
    · refine fun writer => ⟨session.started writer schema, rfl, ?_⟩
      rintro last ⟨rfl, hcommitted, hfiled⟩ hsound
      exact hsound.started hopened (not_not.mpr hfresh) hcommitted hfiled schema
    · exact fun error => rfl
  | append id batch quotaMs =>
    cases hfind : session.findWriter id with
    | none => exact absurd hfind henabled.2
    | some writer =>
      obtain ⟨hwriter, rfl⟩ := findWriter_mem hfind
      simp only [Session.program, hfind]
      apply attempt_permits hafter (appendBatch_permits hwithin hlimit hwriter)
      · refine fun next => ⟨session.appended next batch, rfl, ?_⟩
        rintro last ⟨hid, hclean, hcommitted⟩ hsound
        exact hwithin.sound.appended hsound hwriter hclean hid hcommitted batch
      · exact fun error => rfl
  | finish id completed =>
    cases hfind : session.findWriter id with
    | none => exact absurd hfind henabled.2
    | some writer =>
      obtain ⟨hwriter, rfl⟩ := findWriter_mem hfind
      simp only [Session.program, hfind]
      have hclean : writer.poisoned = false → writer.id ∉ spoiled := by
        intro hclean hspoiled
        have hpoisoned := hwithin.sound.spoiledPoisoned writer hwriter hspoiled
        rw [hclean] at hpoisoned
        cases hpoisoned
      apply attempt_permits hafter ((finish_permits
        (fun other hother => (of_mem_dropWriter hother).2) hclean).weaken (fun _ _ => trivial)
          (fun _ _ hnext => hnext) fun _ _ hfailed => hfailed)
      · exact fun metadata => ⟨_, rfl, fun last _ hsound => hsound.record fun _ => rfl⟩
      · exact fun error => rfl
  | abort id =>
    have hfree : ∀ other ∈ (session.dropWriter id).writers, other.id ≠ id :=
      fun other hother => (of_mem_dropWriter hother).2
    refine .bind (fun _ last => Within spoiled (session.dropWriter id) limit last)
      (((deleteResult_permits hfree).keeps (fun _ _ hstate hpermits => hstate.apply hpermits)
        ?_).weaken (fun _ hstate => hstate) (fun _ _ hlast => hlast.2) fun _ _ hlast => hlast.1)
        fun _ => ?_
    · rintro state rfl
      exact hafter
    · exact .of_pure fun last hlast => hlast.sound
  | purge timestampMs =>
    have hkept : ∀ writer ∈ session.writers, writer.id ∈
        (store.keptResults timestampMs session.activeResults).map StoredResult.id :=
      fun writer hwriter => hwithin.sound.writer_kept hwriter timestampMs
    refine .bind (fun _ last => Within spoiled session limit last)
      ((((purgeExpiredAt_purges hwithin.sound.distinct).mono fun _ _ hdiscards =>
        hdiscards.permits hkept).keeps (fun _ _ hstate hpermits => hstate.apply hpermits)
          ?_).weaken (fun _ hstate => hstate) (fun _ _ hlast => hlast.2)
            fun _ _ hlast => hlast.1) fun _ => ?_
    · rintro state rfl
      exact hafter
    · exact .of_pure fun last hlast => hlast.sound

end Chat2DB.Results
