import Chat2DB.Results.Recovery
import Chat2DB.Results.Upkeep

/-! # Crashes and what recovery makes of them

A crash loses only what was not synced, and the index refers to nothing of that.
Recovery therefore finds every completed result whole, and leaves a store on which
a new process can work.
-/

namespace Chat2DB.Results

open Stepwise (Triple)

variable {config : StoreConfig} {store next : ResultStore} {history : List Written}
  {keep : StoredResult → Prop} {result : StoredResult} {written : Written} {timestampMs : Int}
  {file : ResultFile} {length : Nat} {id : ResultId} {image : CrashImage}

/-! ## Files that keep a length -/

/-- A file of which some bytes are on the disk. -/
structure ResultFile.Secures (file : ResultFile) (length : Nat) : Prop where
  linked : file.linked = true
  synced : length ≤ file.synced
  within : file.synced ≤ file.bytes.length

theorem ResultFile.Secures.le_length (hsecures : file.Secures length) :
    length ≤ file.bytes.length :=
  Nat.le_trans hsecures.synced hsecures.within

theorem ResultFile.Secures.truncate (hsecures : file.Secures length) :
    (file.truncate length).Secures length := by
  have hlength := hsecures.le_length
  refine ⟨hsecures.linked, ?_, ?_⟩
  · exact Nat.le_min.mpr ⟨hsecures.synced, Nat.le_refl _⟩
  · change min file.synced length ≤ (file.bytes.take length).length
    rw [List.length_take]
    omega

theorem ResultFile.Secures.sync (hsecures : file.Secures length) : file.sync.Secures length :=
  ⟨hsecures.linked, hsecures.le_length, Nat.le_refl _⟩

theorem ResultFile.Secures.link (hsecures : file.Secures length) : file.link.Secures length :=
  ⟨rfl, hsecures.synced, hsecures.within⟩

theorem Durable.frame (hdurable : Durable config history store)
    (hresults : Rows.Keyed StoredResult.id next.results)
    (hfiles : Rows.Keyed ResultFile.id next.files)
    (howned : ∀ chunk ∈ next.chunks, next.loadStoredResult chunk.resultId ≠ none)
    (hmembers : ∀ result ∈ next.results, result ∈ store.results)
    (hentries : ∀ result ∈ next.results, next.entries result.id = store.entries result.id)
    (hsecures : ∀ result ∈ next.results, ∀ file, store.findFile result.id = some file →
      file.Secures result.committedLength →
      ∃ other, next.findFile result.id = some other ∧ other.Secures result.committedLength ∧
        other.bytes.take result.committedLength = file.bytes.take result.committedLength) :
    Durable config history next := by
  refine ⟨hresults, hfiles, howned, ?_, ?_⟩
  · exact fun result hresult => hdurable.versions result (hmembers result hresult)
  · intro result hresult hcomplete
    obtain ⟨written, hwritten, hkept⟩ :=
      hdurable.complete result (hmembers result hresult) hcomplete
    obtain ⟨file, hfile, hlinked, hsynced, hwithin, hholds⟩ := hkept.file
    have hold : file.Secures result.committedLength := ⟨hlinked, hsynced, hwithin⟩
    obtain ⟨other, hother, hnew, hsame⟩ := hsecures result hresult file hfile hold
    refine ⟨written, hwritten, hkept.expires, hkept.length, hkept.rows, other, hother,
      hnew.linked, hnew.synced, hnew.within, ?_⟩
    rw [hentries result hresult]
    exact hholds.of_take hold.le_length hnew.le_length hsame

theorem Durable.frame_files (hdurable : Durable config history store)
    (hresults : next.results = store.results) (hchunks : next.chunks = store.chunks)
    (hfiles : Rows.Keyed ResultFile.id next.files)
    (hsecures : ∀ result ∈ store.results, ∀ file, store.findFile result.id = some file →
      file.Secures result.committedLength →
      ∃ other, next.findFile result.id = some other ∧ other.Secures result.committedLength ∧
        other.bytes.take result.committedLength = file.bytes.take result.committedLength) :
    Durable config history next := by
  refine hdurable.frame ?_ hfiles ?_ ?_ ?_ ?_
  · rw [hresults]
    exact hdurable.results
  · intro chunk hchunk
    unfold ResultStore.loadStoredResult
    rw [hresults]
    exact hdurable.owned chunk (hchunks ▸ hchunk)
  · exact fun result hresult => hresults ▸ hresult
  · intro result _
    unfold ResultStore.entries
    rw [hchunks]
  · rw [hresults]
    exact hsecures

/-! ## Recovery keeps the store -/

theorem Kept.intact (hkept : Kept config store result written) : Intact config store result := by
  obtain ⟨file, hfile, -, hsynced, hwithin, hholds⟩ := hkept.file
  have hlength : result.committedLength ≤ file.bytes.length := Nat.le_trans hsynced hwithin
  refine ⟨file.bytes, written.schema, written.batches, ?_, hlength, ?_⟩
  · unfold ResultStore.fileBytes
    rw [hfile]
    rfl
  · rw [hholds.loadAllChunks_eq]
    refine hholds.of_take hlength ?_ ?_
    · rw [List.length_take]
      omega
    · rw [List.take_take, Nat.min_self]

theorem Durable.wellFormed (hdurable : Durable config history store) : WellFormed store := by
  refine ⟨hdurable.results, hdurable.files, fun result hresult hcomplete => ?_⟩
  obtain ⟨_, -, hkept⟩ := hdurable.complete result hresult hcomplete
  exact hkept.length

theorem Safe.not_removed (hsafe : Safe config history keep store)
    (hclock : ∀ result, keep result → timestampMs < result.expiresAtMs) (hresult : keep result) :
    ¬ Removed config timestampMs store result := by
  obtain ⟨hmem, hcomplete⟩ := hsafe.protects result hresult
  obtain ⟨_, -, hkept⟩ := hsafe.durable.complete result hmem hcomplete
  rintro (hwriting | hexpired | hdamaged)
  · rw [hcomplete] at hwriting
    cases hwriting
  · exact absurd (hclock result hresult) (Int.not_lt.mpr hexpired)
  · exact hdamaged hkept.intact

theorem Safe.deleteResult (hsafe : Safe config history keep store)
    (hfree : ∀ result, keep result → result.id ≠ id) :
    Safe config history keep (store.apply (.deleteResult id)) := by
  constructor
  · have hmem : ∀ result ∈ (store.apply (.deleteResult id)).results,
        result ∈ store.results ∧ result.id ≠ id := by
      intro result hresult
      obtain ⟨hold, hother⟩ := List.mem_filter.mp hresult
      exact ⟨hold, by simpa using hother⟩
    refine hsafe.durable.frame (hsafe.durable.results.filter _) hsafe.durable.files ?_ ?_ ?_ ?_
    · intro chunk hchunk
      obtain ⟨hold, hother⟩ := List.mem_filter.mp hchunk
      rw [load_apply_deleteResult, if_neg (by simpa using hother)]
      exact hsafe.durable.owned chunk hold
    · exact fun result hresult => (hmem result hresult).1
    · exact fun result hresult => entries_apply_deleteResult (hmem result hresult).2
    · exact fun _ _ file hfile hsecures => ⟨file, hfile, hsecures, rfl⟩
  · intro result hresult
    obtain ⟨hmem, hcomplete⟩ := hsafe.protects result hresult
    exact ⟨List.mem_filter.mpr ⟨hmem, by simpa using hfree result hresult⟩, hcomplete⟩

theorem Safe.removeFile (hsafe : Safe config history keep store)
    (hnone : store.loadStoredResult id = none) :
    Safe config history keep (store.apply (.removeFile id)) := by
  refine ⟨hsafe.durable.frame_files rfl rfl (hsafe.durable.files.filter _) ?_, hsafe.protects⟩
  intro result hresult file hfile hsecures
  have hother : result.id ≠ id := Rows.find_eq_none_iff.mp hnone result hresult
  refine ⟨file, (Rows.find_filter_of_keep ?_).trans hfile, hsecures, rfl⟩
  rintro row _ hrow
  simpa [hrow] using hother

theorem Safe.syncDirectory (hsafe : Safe config history keep store) :
    Safe config history keep (store.apply .syncDirectory) := by
  refine ⟨hsafe.durable.frame_files rfl rfl ?_ ?_, hsafe.protects⟩
  · unfold Rows.Keyed ResultStore.apply
    rw [List.map_map]
    exact hsafe.durable.files
  · intro result _ file hfile hsecures
    refine ⟨file.link, ?_, hsecures.link, rfl⟩
    rw [findFile_syncDirectory, hfile, Option.map_some]

theorem Safe.updateFile (hsafe : Safe config history keep store)
    {change : ResultFile → ResultFile} (hchange : ∀ file, (change file).id = file.id)
    (hsecures : ∀ result ∈ store.results, result.id = id → ∀ file : ResultFile,
      file.Secures result.committedLength → (change file).Secures result.committedLength ∧
        (change file).bytes.take result.committedLength =
          file.bytes.take result.committedLength) :
    Safe config history keep (store.updateFile id change) := by
  refine ⟨hsafe.durable.frame_files rfl rfl (hsafe.durable.files.update hchange) ?_,
    hsafe.protects⟩
  intro result hresult file hfile hfound
  have hid : file.id = result.id := (Rows.find_mem hfile).2
  rw [findFile_updateFile hchange, hfile, Option.map_some]
  by_cases heq : file.id = id
  · obtain ⟨hnew, hsame⟩ := hsecures result hresult (hid.symm.trans heq) file hfound
    rw [if_pos heq]
    exact ⟨_, rfl, hnew, hsame⟩
  · rw [if_neg heq]
    exact ⟨file, rfl, hfound, rfl⟩

theorem Safe.truncateFile (hsafe : Safe config history keep store)
    (hresult : result ∈ store.results) :
    Safe config history keep (store.apply (.truncateFile result.id result.committedLength)) := by
  have hchange : ∀ file : ResultFile, (file.truncate result.committedLength).id = file.id :=
    fun _ => rfl
  refine hsafe.updateFile hchange ?_
  intro other hother hid file hsecures
  obtain rfl := hsafe.durable.results.eq_of_key_eq hother hresult hid
  refine ⟨hsecures.truncate, ?_⟩
  change (file.bytes.take other.committedLength).take other.committedLength = _
  rw [List.take_take, Nat.min_self]

theorem Safe.syncFile (hsafe : Safe config history keep store) (id : ResultId) :
    Safe config history keep (store.apply (.syncFile id)) := by
  have hchange : ∀ file : ResultFile, file.sync.id = file.id := fun _ => rfl
  exact hsafe.updateFile hchange fun _ _ _ _ hsecures => ⟨hsecures.sync, rfl⟩

theorem Safe.keptByRecovery
    (hclock : ∀ result, keep result → timestampMs < result.expiresAtMs) :
    KeptByRecovery config timestampMs (Safe config history keep) := by
  refine ⟨?_, ?_, ?_, ?_, ?_⟩
  · intro store id hsafe hremoved
    refine hsafe.deleteResult fun result hresult hid => ?_
    exact hsafe.not_removed hclock hresult
      (hremoved result (hsafe.protects result hresult).1 hid)
  · exact fun store id hsafe hnone => hsafe.removeFile hnone
  · exact fun store hsafe => hsafe.syncDirectory
  · exact fun store hsafe result hresult => hsafe.truncateFile hresult
  · exact fun store id hsafe => hsafe.syncFile id

theorem Recovered.settled {base : ResultStore} (hrecovered : Recovered config timestampMs base store)
    (hdurable : Durable config history store) :
    Settled config { opened := true, writers := [], history } store := by
  refine ⟨hdurable, ?_, ?_, ?_, ?_, ?_, ?_⟩
  · intro result hresult _ file hfile
    have hsurvives := hrecovered.survives result hresult
    obtain ⟨bytes, _, _, hbytes, hlength, -⟩ := hsurvives.intact
    have hfound := hsurvives.bytes
    unfold ResultStore.fileBytes at hfound
    rw [hfile, Option.map_some] at hfound
    unfold ResultStore.fileBytes at hbytes
    rw [hbytes, Option.map_some] at hfound
    rw [Option.some.inj hfound, List.length_take]
    omega
  · intro id hfound
    obtain ⟨result, hfound⟩ := Option.ne_none_iff_exists'.mp hfound
    obtain ⟨hresult, rfl⟩ := Rows.find_mem hfound
    obtain ⟨written, hwritten, -⟩ :=
      hdurable.complete result hresult (hrecovered.survives result hresult).complete
    simp [hwritten]
  · exact List.nodup_nil
  · exact fun writer hwriter => absurd hwriter List.not_mem_nil
  · exact fun writer hwriter => absurd hwriter List.not_mem_nil
  · exact fun writer hwriter => absurd hwriter List.not_mem_nil

theorem Safe.recoverAt_spec (hsafe : Safe config history keep store)
    (hclock : ∀ result, keep result → timestampMs < result.expiresAtMs) :
    Triple (fun state => state = store) (recoverAt config timestampMs)
      (fun _ state => Stable config { opened := true, writers := [], history } keep state ∧
        Recovered config timestampMs store state)
      (fun _ _ => False) (Safe config history keep) := by
  refine (Results.recoverAt_spec (Safe.keptByRecovery hclock) hsafe hsafe.durable.wellFormed
    hsafe.durable.versions).weaken ?_ (fun _ _ hnever => hnever) fun _ hcrashed => hcrashed
  rintro _ state ⟨hkept, hrecovered⟩
  exact ⟨⟨hrecovered.settled hkept.durable, hkept.protects⟩, hrecovered⟩

/-! ## Crashes -/

theorem crash_files (hfiles : Rows.Keyed ResultFile.id store.files)
    (hstrays : (image.strays.map Prod.fst).Nodup) :
    Rows.Keyed ResultFile.id (store.crash image).files := by
  unfold Rows.Keyed ResultStore.crash
  rw [List.map_append, List.map_map, List.map_map]
  refine List.nodup_append'.mpr ⟨?_, ?_, ?_⟩
  · exact hfiles.filter _
  · exact hstrays.sublist (List.filter_sublist.map _)
  · intro id hlinked hstray
    obtain ⟨stray, hmem, rfl⟩ := List.mem_map.mp hstray
    have hfree := (List.mem_filter.mp hmem).2
    exact of_decide_eq_true hfree hlinked

theorem crash_findFile (hfiles : Rows.Keyed ResultFile.id store.files)
    (hstrays : (image.strays.map Prod.fst).Nodup)
    (hfile : store.findFile id = some file) (hlinked : file.linked = true) :
    (store.crash image).findFile id =
      some (ResultFile.settled id (file.bytes.take file.synced ++ image.tails id)) := by
  obtain ⟨hmem, rfl⟩ := Rows.find_mem hfile
  have hcrashed : ResultFile.settled file.id (file.bytes.take file.synced ++ image.tails file.id) ∈
      (store.crash image).files :=
    List.mem_append_left _
      (List.mem_map_of_mem (f := fun file : ResultFile =>
        ResultFile.settled file.id (file.bytes.take file.synced ++ image.tails file.id))
        (List.mem_filter.mpr ⟨hmem, hlinked⟩))
  exact (crash_files hfiles hstrays).find_of_mem hcrashed

theorem Durable.crash (hdurable : Durable config history store)
    (hstrays : (image.strays.map Prod.fst).Nodup) :
    Durable config history (store.crash image) := by
  refine hdurable.frame_files rfl rfl (crash_files hdurable.files hstrays) ?_
  intro result _ file hfile hsecures
  refine ⟨_, crash_findFile hdurable.files hstrays hfile hsecures.linked, ⟨rfl, ?_, ?_⟩, ?_⟩
  · have hsynced := hsecures.synced
    have hwithin := hsecures.within
    simp only [ResultFile.settled, List.length_append, List.length_take]
    omega
  · exact Nat.le_refl _
  · -- The committed part is in what was synced.
    change (file.bytes.take file.synced ++ image.tails result.id).take result.committedLength = _
    have hsynced : (file.bytes.take file.synced).length = file.synced :=
      List.length_take_of_le hsecures.within
    rw [List.take_append_of_le_length (by rw [hsynced]; exact hsecures.synced), List.take_take,
      Nat.min_eq_left hsecures.synced]

theorem Safe.crash (hsafe : Safe config history keep store)
    (hstrays : (image.strays.map Prod.fst).Nodup) :
    Safe config history keep (store.crash image) :=
  ⟨hsafe.durable.crash hstrays, hsafe.protects⟩

end Chat2DB.Results
