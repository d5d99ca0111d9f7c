import Chat2DB.Results.FaultyRuns

/-! # What a purge leaves readable

What is not dead keeps its row, its chunks and its bytes, and so its pages. The
result of a writer that was ever poisoned is never complete, in no run.
-/

namespace Chat2DB.Results

variable {config : StoreConfig} {store after : ResultStore} {id : ResultId}
  {timestampMs nowMs : Int} {activeResults : List ResultId} {state : StoreState}

/-! ## Pages -/

theorem readRows_congr {bytes : List UInt8} {schema : Wire.QueryStarted}
    {metadata : ResultMetadata} {request : PageRequest}
    (hchunks : after.loadAllChunks metadata.id = store.loadAllChunks metadata.id) :
    readRows config after bytes schema metadata request =
      readRows config store bytes schema metadata request := by
  unfold readRows ResultStore.loadPageChunks
  rw [hchunks]

/-- A page depends on the row, the bytes and the chunks of its result only. -/
theorem readResultPageAt_congr {request : PageRequest}
    (hrow : after.loadStoredResult id = store.loadStoredResult id)
    (hbytes : after.fileBytes id = store.fileBytes id)
    (hchunks : after.loadAllChunks id = store.loadAllChunks id) :
    readResultPageAt config after id request nowMs =
      readResultPageAt config store id request nowMs := by
  unfold readResultPageAt
  rw [hrow]
  cases hstored : (store.loadStoredResult id).filter fun result =>
    result.state = .complete && nowMs < result.expiresAtMs with
  | none => rfl
  | some stored =>
    have hid : stored.id = id :=
      (Rows.find_mem (Option.filter_eq_some_iff.mp hstored).1).2
    have hrows : ∀ bytes schema metadata, stored.metadata = .ok metadata →
        readRows config after bytes schema metadata request =
          readRows config store bytes schema metadata request := by
      intro bytes schema metadata hmetadata
      apply readRows_congr
      simp only [StoredResult.metadata, Outcome.bind_eq_ok, Outcome.pure_eq_ok] at hmetadata
      obtain ⟨-, -, rfl⟩ := hmetadata
      rw [hid]
      exact hchunks
    -- The files may differ in what is known of the disk, which a page does not look at.
    unfold ResultStore.fileBytes at hbytes
    unfold ResultStore.openResultFile
    cases hfile : store.findFile id with
    | none =>
      rw [hfile, Option.map_none, Option.map_eq_none_iff] at hbytes
      rw [hbytes]
      rfl
    | some file =>
      rw [hfile, Option.map_some, Option.map_eq_some_iff] at hbytes
      obtain ⟨other, hother, hsame⟩ := hbytes
      have hids : other.id = file.id :=
        (Rows.find_mem hother).2.trans (Rows.find_mem hfile).2.symm
      have hlength : ensureExactFileLength other stored.committedLength =
          ensureExactFileLength file stored.committedLength := by
        unfold ensureExactFileLength
        rw [hids, hsame]
      rw [hother]
      simp only [Outcome.orThrow, Outcome.ok_bind, hlength, hsame]
      cases hmetadata : stored.metadata with
      | error error => rfl
      | ok metadata => simp only [Outcome.ok_bind, hrows _ _ metadata hmetadata]

/-! ## What is not dead -/

theorem Purged.load (hpurged : Purged timestampMs activeResults store after)
    (halive : ∀ result ∈ store.results, result.id = id →
      ¬ result.Dead timestampMs activeResults) :
    after.loadStoredResult id = store.loadStoredResult id := by
  unfold ResultStore.loadStoredResult
  rw [hpurged.results]
  apply Rows.find_filter_of_keep
  intro result hresult hid
  exact decide_eq_true (halive result hresult hid)

theorem Purged.loadAllChunks (hpurged : Purged timestampMs activeResults store after)
    (halive : ∀ result ∈ store.results, result.id = id →
      ¬ result.Dead timestampMs activeResults) :
    after.loadAllChunks id = store.loadAllChunks id := by
  have hchunks : after.chunks.filter (fun chunk => chunk.resultId = id) =
      store.chunks.filter fun chunk => chunk.resultId = id := by
    rw [hpurged.chunks, List.filter_filter]
    apply List.filter_congr
    intro chunk _
    by_cases hid : chunk.resultId = id
    · simpa [hid] using halive
    · simp [hid]
  unfold ResultStore.loadAllChunks
  rw [hchunks]

theorem Purged.fileBytes (hpurged : Purged timestampMs activeResults store after)
    {result : StoredResult} (hresult : result ∈ store.results)
    (halive : ¬ result.Dead timestampMs activeResults) :
    after.fileBytes result.id = store.fileBytes result.id := by
  have hlinked : ∀ files : List ResultFile,
      (Rows.find ResultFile.id result.id (files.map ResultFile.link)).map ResultFile.bytes =
        (Rows.find ResultFile.id result.id files).map ResultFile.bytes := by
    intro files
    unfold Rows.find
    rw [List.find?_map, Option.map_map]
    rfl
  have hkept : result.id ∈
      (store.keptResults timestampMs activeResults).map StoredResult.id :=
    List.mem_map.mpr ⟨result, List.mem_filter.mpr ⟨hresult, decide_eq_true halive⟩, rfl⟩
  unfold ResultStore.fileBytes ResultStore.findFile
  rw [← hlinked, hpurged.files, hlinked, Rows.find_filter_of_keep]
  intro file _ hid
  rw [hid]
  exact decide_eq_true hkept

theorem Purged.readResultPageAt (hpurged : Purged timestampMs activeResults store after)
    (hlive : ∀ result ∈ store.results, result.id = id → timestampMs < result.expiresAtMs)
    (request : PageRequest) :
    readResultPageAt config after id request nowMs =
      readResultPageAt config store id request nowMs := by
  have halive : ∀ result ∈ store.results, result.id = id →
      ¬ result.Dead timestampMs activeResults := by
    intro result hresult hid hdead
    have hexpires := hlive result hresult hid
    have hexpired := hdead.1
    omega
  cases hfound : store.loadStoredResult id with
  | none =>
    -- A page of a result that is not there is not found in either store.
    have hafter := (hpurged.load halive).trans hfound
    unfold Chat2DB.Results.readResultPageAt
    rw [hfound, hafter]
    rfl
  | some result =>
    obtain ⟨hresult, rfl⟩ := Rows.find_mem hfound
    exact readResultPageAt_congr (hpurged.load halive)
      (hpurged.fileBytes hresult (halive result hresult rfl)) (hpurged.loadAllChunks halive)

/-! ## Every run -/

theorem Sound.spoil (hsound : Sound [] state.session state.store) {writer : ResultWriter}
    (hwriter : writer ∈ state.session.writers) (hpoisoned : writer.poisoned = true) :
    Sound [writer.id] state.session state.store where
  distinct := hsound.distinct
  writers := hsound.writers
  known := hsound.known
  held := hsound.held
  closed := hsound.closed
  spoiledKnown := by
    intro id hid
    rw [List.mem_singleton.mp hid]
    exact hsound.known writer hwriter
  spoiledPoisoned := by
    intro other hother hid
    rw [hsound.writers.eq_of_key_eq hother hwriter (List.mem_singleton.mp hid)]
    exact hpoisoned
  spoiledWriting := by
    intro result hresult hid
    obtain ⟨held, hheld⟩ := hsound.held writer hwriter
    obtain ⟨hmem, hheldId⟩ := Rows.find_mem hheld.found
    rw [hsound.distinct.results.eq_of_key_eq hresult hmem
      ((List.mem_singleton.mp hid).trans hheldId.symm)]
    exact hheld.writing

/-- In every run, failures among its actions: a purge at any time and under any leases ends well
and removes the dead results and what they leave, and no more. What has not expired reads the same,
what a live writer holds is not dead, and a poisoned writer's result is never complete. -/
theorem purge_removes_the_dead {actions : List FaultyAction}
    (hrun : StoreState.afterFaults config actions = some state) :
    (∀ timestampMs activeResults, ∃ report after,
      Stepwise.run (purgeExpiredAt timestampMs activeResults) state.store = (.ok report, after) ∧
      Purged timestampMs activeResults state.store after ∧
      (∀ result ∈ state.store.results, ¬ result.Dead timestampMs activeResults →
        result ∈ after.results ∧
          after.loadAllChunks result.id = state.store.loadAllChunks result.id ∧
          after.fileBytes result.id = state.store.fileBytes result.id) ∧
      ∀ id request nowMs, (∀ result ∈ state.store.results, result.id = id →
          timestampMs < result.expiresAtMs) →
        readResultPageAt config after id request nowMs =
          readResultPageAt config state.store id request nowMs) ∧
    (∀ writer ∈ state.session.writers, ∃ result ∈ state.store.results, result.id = writer.id ∧
      state.store.fileBytes writer.id ≠ none ∧
      ∀ timestampMs, ¬ result.Dead timestampMs state.session.activeResults) ∧
    ∀ writer ∈ state.session.writers, writer.poisoned = true → ∀ more later,
      Machine.run (StoreState.faultyStep config) state more = some later →
      ∀ result ∈ later.store.results, result.id = writer.id → result.state = .writing := by
  have hsound := afterFaults_sound hrun
  refine ⟨?_, ?_, ?_⟩
  · intro timestampMs activeResults
    have hpurge := @purgeExpiredAt_purges state.store timestampMs activeResults
      (fun _ _ => False) hsound.distinct
    rcases hpurge.ends rfl with ⟨report, after, hend, hpurged⟩ | ⟨_, _, -, hnever⟩
    · refine ⟨report, after, hend, hpurged, ?_, ?_⟩
      · intro result hresult halive
        have hids : ∀ other ∈ state.store.results, other.id = result.id →
            ¬ other.Dead timestampMs activeResults := by
          intro other hother hid
          rw [hsound.distinct.results.eq_of_key_eq hother hresult hid]
          exact halive
        refine ⟨?_, hpurged.loadAllChunks hids, hpurged.fileBytes hresult halive⟩
        rw [hpurged.results]
        exact List.mem_filter.mpr ⟨hresult, decide_eq_true halive⟩
      · intro id request nowMs hlive
        exact hpurged.readResultPageAt hlive request
    · exact hnever.elim
  · intro writer hwriter
    obtain ⟨result, hheld⟩ := hsound.held writer hwriter
    obtain ⟨hresult, hid⟩ := Rows.find_mem hheld.found
    refine ⟨result, hresult, hid, ?_, ?_⟩
    · unfold ResultStore.fileBytes
      simpa using hheld.filed
    · rintro timestampMs ⟨-, hinactive⟩
      exact hinactive ⟨hheld.writing, hid ▸ List.mem_map.mpr ⟨writer, hwriter, rfl⟩⟩
  -- a poisoned writer is spoiled for good, so its row stays as it is
  · intro writer hwriter hpoisoned more later hmore result hresult hid
    have hlater := (hsound.spoil hwriter hpoisoned).faultyRun hmore
    exact hlater.spoiledWriting result hresult (List.mem_singleton.mpr hid)

/-- The torn result has expired, but its writer, poisoned as it is, still holds it; without the
lease it goes. -/
theorem purge_removes_the_dead_torn :
    ∃ state report after, StoreState.afterFaults smallConfig tornActions = some state ∧
      Stepwise.run (purgeExpiredAt 100000 []) state.store = (.ok report, after) ∧
      after.results = state.store.keptResults 100000 [] ∧
      (∀ result ∈ state.store.results, result.id = 1 → result.state = .writing) ∧
      ∃ result ∈ state.store.results, ∀ timestampMs, ¬ result.Dead timestampMs [1] := by
  obtain ⟨state, writer, hrun, hwriters, hactive, hid, hpoisoned⟩ : ∃ state writer,
      StoreState.afterFaults smallConfig tornActions = some state ∧
        state.session.writers = [writer] ∧ state.session.activeResults = [1] ∧ writer.id = 1 ∧
          writer.poisoned = true :=
    ⟨_, _, rfl, rfl, rfl, rfl, rfl⟩
  have hwriter : writer ∈ state.session.writers := hwriters ▸ List.mem_singleton_self writer
  have hpurge := purge_removes_the_dead hrun
  obtain ⟨report, after, hend, hpurged, -⟩ := hpurge.1 100000 []
  refine ⟨state, report, after, hrun, hend, hpurged.results, ?_, ?_⟩
  · intro result hresult hresultId
    exact hpurge.2.2 writer hwriter hpoisoned [] state rfl result hresult
      (hresultId.trans hid.symm)
  · obtain ⟨result, hresult, -, -, halive⟩ := hpurge.2.1 writer hwriter
    exact ⟨result, hresult, hactive ▸ halive⟩

/-! ## Purges one after the other -/

theorem Purged.distinct (hpurged : Purged timestampMs activeResults store after)
    (hdistinct : store.Distinct) : after.Distinct := by
  have hids : ∀ files : List ResultFile,
      (files.map ResultFile.link).map ResultFile.id = files.map ResultFile.id := by
    intro files
    rw [List.map_map]
    rfl
  constructor
  · rw [hpurged.results]
    exact hdistinct.results.filter _
  · unfold Rows.Keyed
    rw [← hids, hpurged.files, hids]
    exact hdistinct.files.filter _

/-- What the later purge would remove may have been removed before. -/
theorem Purged.trans {middle : ResultStore} {laterMs : Int} {laterActive : List ResultId}
    (hearlier : Purged timestampMs activeResults store middle)
    (hlater : Purged laterMs laterActive middle after)
    (hdead : ∀ result : StoredResult, result.Dead timestampMs activeResults →
      result.Dead laterMs laterActive) : Purged laterMs laterActive store after := by
  have hkept : middle.keptResults laterMs laterActive = store.keptResults laterMs laterActive := by
    unfold ResultStore.keptResults
    rw [hearlier.results, ResultStore.keptResults, List.filter_filter]
    apply List.filter_congr
    intro result _
    have hresult := hdead result
    by_cases hgone : result.Dead timestampMs activeResults <;> simp_all
  constructor
  · rw [hlater.results, hkept]
  · rw [hlater.chunks, hearlier.chunks, List.filter_filter]
    apply List.filter_congr
    intro chunk _
    rw [hearlier.results, ← Bool.decide_and, decide_eq_decide]
    constructor
    · rintro ⟨hlate, hearly⟩ result hresult hid
      exact hlate result (List.mem_filter.mpr
        ⟨hresult, decide_eq_true (hearly result hresult hid)⟩) hid
    · intro hlate
      refine ⟨fun result hresult hid => ?_, fun result hresult hid hgone => ?_⟩
      · exact hlate result (List.mem_of_mem_filter hresult) hid
      · exact hlate result hresult hid (hdead result hgone)
  · have hlinked : ∀ files : List ResultFile,
        (files.filter fun file =>
          file.id ∈ (store.keptResults laterMs laterActive).map StoredResult.id).map
            ResultFile.link =
        (files.map ResultFile.link).filter fun file =>
          file.id ∈ (store.keptResults laterMs laterActive).map StoredResult.id := by
      intro files
      rw [List.filter_map]
      rfl
    rw [hlater.files, hkept, hlinked, hearlier.files, ← hlinked, List.filter_filter]
    congr 1
    apply List.filter_congr
    intro file _
    rw [← Bool.decide_and, decide_eq_decide, and_iff_left_iff_imp]
    intro hfile
    obtain ⟨result, hresult, hid⟩ := List.mem_map.mp hfile
    obtain ⟨hresult, halive⟩ := List.mem_filter.mp hresult
    exact List.mem_map.mpr ⟨result, List.mem_filter.mpr ⟨hresult, decide_eq_true fun hgone =>
      of_decide_eq_true halive (hdead result hgone)⟩, hid⟩

theorem purgeExpiredAt_ends (hdistinct : store.Distinct) (timestampMs : Int)
    (activeResults : List ResultId) : ∃ report after,
      Stepwise.run (purgeExpiredAt timestampMs activeResults) store = (.ok report, after) ∧
        Purged timestampMs activeResults store after := by
  have hpurge := @purgeExpiredAt_purges store timestampMs activeResults (fun _ _ => False) hdistinct
  rcases hpurge.ends rfl with ⟨report, after, hend, hpurged⟩ | ⟨_, _, -, hnever⟩
  · exact ⟨report, after, hend, hpurged⟩
  · exact hnever.elim

/-- Purges one after the other, whatever they report. -/
def purgesAt (store : ResultStore) (purges : List (Int × List ResultId)) : ResultStore :=
  purges.foldl (fun store purge => (Stepwise.run (purgeExpiredAt purge.1 purge.2) store).2) store

theorem purgeExpiredAt_absorbs {purges : List (Int × List ResultId)}
    (hpurges : ∀ purge ∈ purges, purge.1 ≤ timestampMs ∧ activeResults ⊆ purge.2)
    (hdistinct : store.Distinct) : ∃ report after,
      Stepwise.run (purgeExpiredAt timestampMs activeResults) (purgesAt store purges) =
        (.ok report, after) ∧ Purged timestampMs activeResults store after := by
  induction purges generalizing store with
  | nil => exact purgeExpiredAt_ends hdistinct timestampMs activeResults
  | cons purge purges ih =>
    obtain ⟨report, middle, hend, hpurged⟩ := purgeExpiredAt_ends hdistinct purge.1 purge.2
    obtain ⟨hearlier, hactive⟩ := hpurges purge (List.mem_cons_self ..)
    obtain ⟨last, after, hlast, hafter⟩ :=
      ih (fun other hother => hpurges other (List.mem_cons_of_mem _ hother))
        (hpurged.distinct hdistinct)
    refine ⟨last, after, ?_, hpurged.trans hafter ?_⟩
    · rw [purgesAt, List.foldl_cons, hend]
      exact hlast
    · rintro result ⟨hexpired, hinactive⟩
      exact ⟨hexpired.trans hearlier, fun hheld => hinactive ⟨hheld.1, hactive hheld.2⟩⟩

/-- How often a store was purged before does not matter: after any earlier purges, under leases
that may have been released since, a purge leaves what it would have left alone. -/
theorem purges_collapse {actions : List FaultyAction}
    (hrun : StoreState.afterFaults config actions = some state)
    {purges : List (Int × List ResultId)}
    (hpurges : ∀ purge ∈ purges, purge.1 ≤ timestampMs ∧ activeResults ⊆ purge.2) :
    ∃ report after lone direct,
      Stepwise.run (purgeExpiredAt timestampMs activeResults) (purgesAt state.store purges) =
        (.ok report, after) ∧
      Stepwise.run (purgeExpiredAt timestampMs activeResults) state.store = (.ok lone, direct) ∧
      after.results = direct.results ∧ after.chunks = direct.chunks ∧
      after.files.map ResultFile.link = direct.files.map ResultFile.link := by
  have hdistinct := (afterFaults_sound hrun).distinct
  obtain ⟨report, after, hend, hafter⟩ := purgeExpiredAt_absorbs hpurges hdistinct
  obtain ⟨lone, direct, hlone, hdirect⟩ :=
    purgeExpiredAt_ends hdistinct timestampMs activeResults
  exact ⟨report, after, lone, direct, hend, hlone, hafter.results.trans hdirect.results.symm,
    hafter.chunks.trans hdirect.chunks.symm, hafter.files.trans hdirect.files.symm⟩

/-- A purge while the torn result is still held, and one when it is not. -/
theorem purges_collapse_torn :
    ∃ state report after lone direct, StoreState.afterFaults smallConfig tornActions = some state ∧
      Stepwise.run (purgeExpiredAt 100000 []) (purgesAt state.store [(100000, [1])]) =
        (.ok report, after) ∧
      Stepwise.run (purgeExpiredAt 100000 []) state.store = (.ok lone, direct) ∧
      after.results = direct.results := by
  obtain ⟨state, hrun⟩ : ∃ state, StoreState.afterFaults smallConfig tornActions = some state :=
    ⟨_, rfl⟩
  have hpurges : ∀ purge ∈ [((100000 : Int), [(1 : ResultId)])],
      purge.1 ≤ 100000 ∧ [] ⊆ purge.2 := by simp
  obtain ⟨report, after, lone, direct, hend, hlone, hresults, -⟩ := purges_collapse hrun hpurges
  exact ⟨state, report, after, lone, direct, hrun, hend, hlone, hresults⟩

end Chat2DB.Results
