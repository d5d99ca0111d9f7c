import Chat2DB.Results.RoundTrip

/-! # The store after a crash

Recovery makes of what a crash left a store in which every result is whole, and
it loses no finished result that is still alive.
-/

namespace Chat2DB.Results

variable {config : StoreConfig} {store base : ResultStore} {result : StoredResult}
  {timestampMs : Int} {history : List Written}

/-- Chunks that follow one another without a gap, in the file and in the rows. -/
def Contiguous : Nat → Nat → List ChunkIndex → Nat → Nat → Prop
  | offset, row, [], endOffset, endRow => offset = endOffset ∧ row = endRow
  | offset, row, chunk :: rest, endOffset, endRow =>
    chunk.fileOffset = offset ∧ chunk.startRow = row ∧
      Contiguous (chunk.fileOffset + chunk.frameLength) chunk.endRowExclusive rest endOffset endRow

theorem ChunksHold.contiguous {bytes : List UInt8} {id : ResultId}
    {columns ordinal offset row endOffset endRow : Nat} {chunks : List ChunkIndex}
    {batches : List Wire.RowBatch}
    (hholds : ChunksHold config bytes id columns ordinal offset row chunks batches endOffset endRow) :
    Contiguous offset row chunks endOffset endRow := by
  induction hholds with
  | nil => exact ⟨rfl, rfl⟩
  | cons _ _ ih => exact ⟨rfl, rfl, ih⟩

/-- A result after recovery: alive, with a file of the committed length, chunks without a gap, and
all rows that were accepted for it. -/
structure Whole (config : StoreConfig) (timestampMs : Int) (history : List Written)
    (store : ResultStore) (result : StoredResult) : Prop where
  complete : result.state = .complete
  live : timestampMs < result.expiresAtMs
  length : ∃ file, store.findFile result.id = some file ∧
    file.bytes.length = result.committedLength
  chunks : Contiguous result.schemaFrameLength 0 (store.loadAllChunks result.id)
    result.committedLength result.rowCount
  rows : ∃ written, Rows.find Written.id result.id history = some written ∧
    ∀ limits clock fuel, (∀ turn offset, (PageLimits.at (limits turn) offset).Admitted) →
      (∀ turn : Nat, clock turn < result.expiresAtMs) → 0 < fuel →
      (rowsOf written.batches).length ≤ fuel →
      readPages config store result.id limits clock fuel 0 0 = some (.ok (rowsOf written.batches))

theorem Holds.whole {written : Written}
    (hholds : Holds config store result written.schema written.batches)
    (hlive : timestampMs < result.expiresAtMs)
    (hwritten : Rows.find Written.id result.id history = some written)
    (hwithin : RowsWithin config.codec written.batches) :
    Whole config timestampMs history store result := by
  obtain ⟨file, hfile, hlength, hbytes⟩ := hholds.file
  refine ⟨hholds.complete, hlive, ⟨file, hfile, hlength⟩, hbytes.readsChunks.contiguous, written,
    hwritten, ?_⟩
  intro limits clock fuel hadmitted hclock hfuel henough
  refine hholds.readPages_eq hwithin hadmitted hclock (Nat.zero_le _) hfuel ?_
  rw [Nat.zero_add]
  exact henough

theorem recoverAt_recovers (hwellFormed : WellFormed base)
    (hversions : ∀ result ∈ base.results, result.formatVersion = resultFormatVersion) :
    ∃ report store, Stepwise.run (recoverAt config timestampMs) base = (.ok report, store) ∧
      Recovered config timestampMs base store ∧
      Stepwise.run (recoverAt config timestampMs) store =
        (.ok { writingRemoved := 0, expiredRemoved := 0, corruptRemoved := 0,
               orphanFilesRemoved := 0, tailsTruncated := 0 }, store) := by
  have hkept : KeptByRecovery config timestampMs fun _ => True := keptByRecovery_true
  have hspec := recoverAt_spec hkept trivial hwellFormed hversions
  rcases hspec.ends rfl with ⟨report, store, hrun, -, hrecovered⟩ | ⟨_, _, -, hnever⟩
  · exact ⟨report, store, hrun, hrecovered, (hrecovered.idle hversions).recoverAt_eq⟩
  · exact hnever.elim

theorem Consistent.recovers {state : StoreState} (hstate : Consistent config state) :
    ∃ report store, Stepwise.run (recoverAt config timestampMs) state.store = (.ok report, store) ∧
      Recovered config timestampMs state.store store ∧
      (∀ result ∈ store.results, Whole config timestampMs state.session.history store result) ∧
      ∀ result ∈ state.store.results, result.state = .complete →
        timestampMs < result.expiresAtMs → result ∈ store.results := by
  -- Every completed result that is alive is protected.
  let keep : StoredResult → Prop := fun result =>
    result ∈ state.store.results ∧ result.state = .complete ∧ timestampMs < result.expiresAtMs
  have hsafe : Safe config state.session.history keep state.store :=
    ⟨hstate.durable, fun result hresult => ⟨hresult.1, hresult.2.1⟩⟩
  have hclock : ∀ result, keep result → timestampMs < result.expiresAtMs :=
    fun result hresult => hresult.2.2
  have hspec := hsafe.recoverAt_spec hclock
  rcases hspec.ends rfl with ⟨report, store, hrun, hstable, hrecovered⟩ | ⟨_, _, -, hnever⟩
  · refine ⟨report, store, hrun, hrecovered, ?_, ?_⟩
    · intro result hresult
      have hsurvives := hrecovered.survives result hresult
      obtain ⟨written, hwritten, -, hholds⟩ := hstable.settled.holds hresult hsurvives.complete
      exact hholds.whole hsurvives.live hwritten (hstate.rows result.id written hwritten)
    · intro result hresult hcomplete hlive
      exact (hstable.protects result ⟨hresult, hcomplete, hlive⟩).1
  · exact hnever.elim

/-- Recovery after any run, however it was cut off: what survives is whole and alive, everything
else is gone, and recovering again changes nothing. The same is true of any store, damaged or not;
only an unknown format stops recovery, before it has changed anything. -/
theorem recovery_leaves_whole_results {actions : List StoreAction} {state : StoreState}
    (hrun : StoreState.afterActions config actions = some state)
    (hlawful : ∀ action ∈ actions, action.Lawful config.codec) (timestampMs : Int) :
    (∃ report store, Stepwise.run (recoverAt config timestampMs) state.store = (.ok report, store) ∧
      (∀ result ∈ store.results, Whole config timestampMs state.session.history store result) ∧
      (∀ result ∈ state.store.results, result ∈ store.results ↔
        result.state = .complete ∧ timestampMs < result.expiresAtMs) ∧
      (∀ id written, Rows.find Written.id id state.session.history = some written →
        written.completion ≠ none → timestampMs < written.expiresAtMs →
        (∀ action ∈ actions, ∀ reading ∈ action.clock, reading < written.expiresAtMs) →
        ∃ result ∈ store.results, result.id = id) ∧
      (∀ file ∈ store.files, ∃ result ∈ store.results, result.id = file.id) ∧
      Stepwise.run (recoverAt config timestampMs) store =
        (.ok { writingRemoved := 0, expiredRemoved := 0, corruptRemoved := 0,
               orphanFilesRemoved := 0, tailsTruncated := 0 }, store)) ∧
    (∀ base, WellFormed base →
      (∀ result ∈ base.results, result.formatVersion = resultFormatVersion) →
      ∃ report store, Stepwise.run (recoverAt config timestampMs) base = (.ok report, store) ∧
        Recovered config timestampMs base store ∧
        Stepwise.run (recoverAt config timestampMs) store =
          (.ok { writingRemoved := 0, expiredRemoved := 0, corruptRemoved := 0,
                 orphanFilesRemoved := 0, tailsTruncated := 0 }, store)) ∧
    ∀ base : ResultStore, (∃ result ∈ base.results, result.formatVersion ≠ resultFormatVersion) →
      ∃ error, recoverAt config timestampMs base = (.error error, []) := by
  obtain ⟨hstate, hpresent⟩ := afterActions_consistent hrun hlawful
  refine ⟨?_, fun base => recoverAt_recovers, ?_⟩
  · obtain ⟨report, store, hrecover, hrecovered, hwhole, hkept⟩ := hstate.recovers
    refine ⟨report, store, hrecover, hwhole, ?_, ?_, hrecovered.referenced,
      (hrecovered.idle hstate.durable.versions).recoverAt_eq⟩
    · intro result hresult
      constructor
      · exact fun hfound => ⟨(hwhole result hfound).complete, (hwhole result hfound).live⟩
      · exact fun hlive => hkept result hresult hlive.1 hlive.2
    · intro id written hwritten hfinished hlive hclock
      obtain ⟨result, hresult, rfl, hcomplete⟩ := hpresent id written hwritten hfinished hclock
      obtain ⟨known, hknown, hkeeps⟩ := hstate.durable.complete result hresult hcomplete
      obtain rfl : known = written := Option.some.inj (hknown.symm.trans hwritten)
      exact ⟨result, hkept result hresult hcomplete (hkeeps.expires ▸ hlive), rfl⟩
  · rintro base ⟨result, hresult, hversion⟩
    exact recoverAt_unsupported hresult hversion

/-- The small result is finished, a second one is begun, and the process dies between the two
writes of its batch; the file system keeps some bytes of it and an old file. -/
def interruptedActions : List StoreAction :=
  smallActions ++
    [.operate (.begin 2 smallSchema 60000000000 20 20),
      .crash (some (.append 2 smallBatch 30)) 1
        { tails := fun id => if id = 2 then [0, 0, 0] else [], strays := [(3, [1])] }]

theorem recovery_leaves_whole_results_interrupted :
    ∃ state report store,
      StoreState.afterActions smallConfig interruptedActions = some state ∧
      Stepwise.run (recoverAt smallConfig 100) state.store = (.ok report, store) ∧
      (∃ result ∈ store.results, result.id = 1) ∧
      (∀ file ∈ store.files, ∃ result ∈ store.results, result.id = file.id) ∧
      Stepwise.run (recoverAt smallConfig 100) store =
        (.ok { writingRemoved := 0, expiredRemoved := 0, corruptRemoved := 0,
               orphanFilesRemoved := 0, tailsTruncated := 0 }, store) := by
  obtain ⟨state, hrun, hwritten⟩ : ∃ state,
      StoreState.afterActions smallConfig interruptedActions = some state ∧
        Rows.find Written.id 1 state.session.history = some smallWritten :=
    ⟨_, rfl, rfl⟩
  obtain ⟨⟨report, store, hrecover, -, -, hfinished, hreferenced, hagain⟩, -⟩ :=
    recovery_leaves_whole_results hrun (by decide) 100
  exact ⟨state, report, store, hrun, hrecover,
    hfinished 1 smallWritten hwritten (by decide) (by decide) (by decide), hreferenced, hagain⟩

end Chat2DB.Results
