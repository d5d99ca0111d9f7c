import Chat2DB.Results.Faults

/-! # What a purge removes

A purge removes the expired results that no live writer holds, and the files
that are then not referred to. What it does is followed exactly, so that the
store after it is a selection of the store before.
-/

namespace Chat2DB.Results

open Stepwise (Guarded)

variable {store base : ResultStore} {id : ResultId} {timestampMs : Int}
  {activeResults gone removed kept : List ResultId} {failed : ResultError → ResultStore → Prop}
  {files : List ResultFile}

/-- Expired, and not in the hands of a live writer. -/
def StoredResult.Dead (timestampMs : Int) (activeResults : List ResultId)
    (result : StoredResult) : Prop :=
  result.expiresAtMs ≤ timestampMs ∧ ¬ (result.state = .writing ∧ result.id ∈ activeResults)

instance (timestampMs : Int) (activeResults : List ResultId) (result : StoredResult) :
    Decidable (result.Dead timestampMs activeResults) :=
  inferInstanceAs (Decidable (_ ∧ _))

/-- The results that a purge keeps. -/
def ResultStore.keptResults (store : ResultStore) (timestampMs : Int)
    (activeResults : List ResultId) : List StoredResult :=
  store.results.filter fun result => ¬ result.Dead timestampMs activeResults

/-- What a purge leaves of a store. A file may have become known to be in its directory. -/
structure Purged (timestampMs : Int) (activeResults : List ResultId) (before after : ResultStore) :
    Prop where
  results : after.results = before.keptResults timestampMs activeResults
  chunks : after.chunks = before.chunks.filter fun chunk =>
    ∀ result ∈ before.results, result.id = chunk.resultId → ¬ result.Dead timestampMs activeResults
  files : after.files.map ResultFile.link =
    (before.files.filter fun file =>
      file.id ∈ (before.keptResults timestampMs activeResults).map StoredResult.id).map
        ResultFile.link

/-- A step that takes something away whose id is not among those to be kept. -/
def Discards (kept : List ResultId) : StoreStep → Prop
  | .deleteResult id | .removeFile id => id ∉ kept
  | .syncDirectory => True
  | _ => False

/-! ## Sweeping -/

/-- Rows and files of some ids are gone. -/
structure Swept (gone removed : List ResultId) (base store : ResultStore) : Prop where
  results : store.results = base.results.filter fun result => result.id ∉ gone
  chunks : store.chunks = base.chunks.filter fun chunk => chunk.resultId ∉ gone
  files : store.files.map ResultFile.link =
    (base.files.filter fun file => file.id ∉ removed).map ResultFile.link

theorem swept_self : Swept [] [] base base := by
  constructor <;> simp

theorem map_link_filter (files : List ResultFile) (keep : ResultId → Bool) :
    (files.filter fun file => keep file.id).map ResultFile.link =
      (files.map ResultFile.link).filter fun file => keep file.id := by
  rw [List.filter_map]
  rfl

theorem Swept.deleteResult (hswept : Swept gone removed base store) :
    Swept (id :: gone) removed base (store.apply (.deleteResult id)) := by
  refine ⟨?_, ?_, hswept.files⟩
  · rw [ResultStore.apply, hswept.results, List.filter_filter]
    apply List.filter_congr
    intro result _
    simp
  · rw [ResultStore.apply, hswept.chunks, List.filter_filter]
    apply List.filter_congr
    intro chunk _
    simp

theorem Swept.removeFile (hswept : Swept gone removed base store) :
    Swept gone (id :: removed) base (store.apply (.removeFile id)) := by
  refine ⟨hswept.results, hswept.chunks, ?_⟩
  have hfiles := hswept.files
  rw [ResultStore.apply, map_link_filter _ fun other => other ≠ id, hfiles,
    ← map_link_filter _ fun other => other ≠ id, List.filter_filter]
  congr 1
  apply List.filter_congr
  intro file _
  simp

theorem Swept.syncDirectory (hswept : Swept gone removed base store) :
    Swept gone removed base (store.apply .syncDirectory) := by
  refine ⟨hswept.results, hswept.chunks, ?_⟩
  rw [← hswept.files, ResultStore.apply, List.map_map]
  rfl

/-! ## Expired results -/

/-- Of the dead ids of the base, these are gone and the rest are still to come. -/
def Sweeping (timestampMs : Int) (activeResults : List ResultId) (base : ResultStore)
    (rest : List StoredResult) (store : ResultStore) : Prop :=
  ∃ gone, Swept gone gone base store ∧
    ∀ id, (id ∈ gone ∨ ∃ result ∈ rest, result.Dead timestampMs activeResults ∧ result.id = id) ↔
      ∃ result ∈ base.results, result.Dead timestampMs activeResults ∧ result.id = id

theorem not_mem_kept (hdistinct : base.Distinct)
    (hdead : ∃ result ∈ base.results, result.Dead timestampMs activeResults ∧ result.id = id) :
    id ∉ (base.keptResults timestampMs activeResults).map StoredResult.id := by
  obtain ⟨result, hresult, hdead, rfl⟩ := hdead
  intro hkept
  obtain ⟨other, hother, hid⟩ := List.mem_map.mp hkept
  obtain ⟨hmem, hlive⟩ := List.mem_filter.mp hother
  rw [hdistinct.results.eq_of_key_eq hmem hresult hid] at hlive
  exact of_decide_eq_true hlive hdead

theorem deleteResult_sweeps (hid : id ∉ kept) :
    Guarded (fun _ step => Discards kept step) (Swept gone gone base) (deleteResult id)
      (fun _ => Swept (id :: gone) (id :: gone) base) failed := by
  refine .bind (fun _ => Swept (id :: gone) gone base) ?_ fun _ => ?_
  · exact .of_perform (fun _ _ => hid) fun _ hswept => hswept.deleteResult
  refine .bind (fun _ => Swept (id :: gone) (id :: gone) base) ?_ fun _ => ?_
  · exact .of_perform (fun _ _ => hid) fun _ hswept => hswept.removeFile
  · exact .of_perform (fun _ _ => trivial) fun _ hswept => hswept.syncDirectory

theorem purgeResult_sweeps (hdistinct : base.Distinct)
    {result : StoredResult} {rest : List StoredResult} (report : PurgeReport)
    (hexpired : result.expiresAtMs ≤ timestampMs) :
    Guarded (fun _ step =>
        Discards ((base.keptResults timestampMs activeResults).map StoredResult.id) step)
      (Sweeping timestampMs activeResults base (result :: rest))
      (purgeResult activeResults report result)
      (fun _ => Sweeping timestampMs activeResults base rest) failed := by
  unfold purgeResult
  by_cases hactive : result.state = .writing ∧ result.id ∈ activeResults
  · rw [if_pos hactive]
    refine .of_pure ?_
    rintro store ⟨gone, hswept, hids⟩
    refine ⟨gone, hswept, fun id => ?_⟩
    rw [← hids id]
    simp [StoredResult.Dead, hactive]
  · rw [if_neg hactive]
    have hdead : result.Dead timestampMs activeResults := ⟨hexpired, hactive⟩
    refine .of_state fun start hstart => ?_
    obtain ⟨gone, hswept, hids⟩ := hstart
    have hbase := (hids result.id).mp (.inr ⟨result, List.mem_cons_self, hdead, rfl⟩)
    refine .bind (fun _ => Swept (result.id :: gone) (result.id :: gone) base) ?_ fun _ => ?_
    · refine (deleteResult_sweeps (not_mem_kept hdistinct hbase)).weaken ?_ (fun _ _ hnext => hnext)
        fun _ _ hfailed => hfailed
      rintro store rfl
      exact hswept
    · refine .of_pure fun store hnext => ⟨_, hnext, fun id => ?_⟩
      rw [← hids id]
      by_cases hid : id = result.id
      · simp [hid, hdead]
      · simp [hid, Ne.symm hid]

theorem purgeResults_sweeps (hdistinct : base.Distinct)
    (results : List StoredResult) (report : PurgeReport)
    (hexpired : ∀ result ∈ results, result.expiresAtMs ≤ timestampMs) :
    Guarded (fun _ step =>
        Discards ((base.keptResults timestampMs activeResults).map StoredResult.id) step)
      (Sweeping timestampMs activeResults base results)
      (Stepwise.fold (purgeResult activeResults) results report)
      (fun _ => Sweeping timestampMs activeResults base []) failed := by
  refine (Guarded.fold (fun rest _ store => Sweeping timestampMs activeResults base rest store ∧
    ∀ result ∈ rest, result.expiresAtMs ≤ timestampMs) ?_ results report).weaken
    (fun _ hstart => ⟨hstart, hexpired⟩) (fun _ _ hnext => hnext.1) fun _ _ hfailed => hfailed
  intro result rest report
  refine .of_fact fun hmembers => ?_
  exact (purgeResult_sweeps hdistinct report (hmembers result List.mem_cons_self)).weaken
    (fun _ hstart => hstart)
    (fun _ _ hnext => ⟨hnext, fun other hother =>
      hmembers other (List.mem_cons_of_mem result hother)⟩)
    fun _ _ hfailed => hfailed

/-! ## Orphans -/

/-- Of the files that nothing refers to, these are removed and the rest are still to come. -/
def Orphaning (gone referenced : List ResultId) (base : ResultStore) (files rest : List ResultFile)
    (store : ResultStore) : Prop :=
  ∃ removed, Swept gone removed base store ∧
    ∀ id, (id ∈ removed ∨ ∃ file ∈ rest, file.id = id ∧ id ∉ referenced) ↔
      id ∈ gone ∨ ∃ file ∈ files, file.id = id ∧ id ∉ referenced

theorem removeOrphan_sweeps {rest : List ResultFile} {file : ResultFile} (count : Nat) :
    Guarded (fun _ step => Discards kept step) (Orphaning gone kept base files (file :: rest))
      (removeOrphan kept count file) (fun _ => Orphaning gone kept base files rest) failed := by
  unfold removeOrphan
  by_cases hkept : file.id ∈ kept
  · rw [if_pos hkept]
    refine .of_pure ?_
    rintro store ⟨removed, hswept, hids⟩
    refine ⟨removed, hswept, fun id => ?_⟩
    rw [← hids id]
    constructor
    · rintro (hid | ⟨other, hother, hid⟩)
      · exact .inl hid
      · exact .inr ⟨other, List.mem_cons_of_mem file hother, hid⟩
    · rintro (hid | ⟨other, hother, rfl, hid⟩)
      · exact .inl hid
      · rcases List.mem_cons.mp hother with rfl | hother
        · exact absurd hkept hid
        · exact .inr ⟨other, hother, rfl, hid⟩
  · rw [if_neg hkept]
    refine .bind (fun _ => Orphaning gone kept base files rest) ?_ fun _ => ?_
    · refine .of_perform (fun _ _ => hkept) ?_
      rintro store ⟨removed, hswept, hids⟩
      refine ⟨file.id :: removed, hswept.removeFile, fun id => ?_⟩
      rw [← hids id]
      by_cases hid : id = file.id
      · simp [hid, hkept]
      · simp [hid, Ne.symm hid]
    · exact .of_pure fun _ hnext => hnext

theorem removeOrphans_sweeps (rest : List ResultFile) (count : Nat) :
    Guarded (fun _ step => Discards kept step) (Orphaning gone kept base files rest)
      (Stepwise.fold (removeOrphan kept) rest count)
      (fun _ => Orphaning gone kept base files []) failed :=
  Guarded.fold (fun rest _ => Orphaning gone kept base files rest)
    (fun _ _ count => removeOrphan_sweeps count) rest count

/-! ## The purge -/

theorem Swept.mem_files_iff (hswept : Swept gone removed base store) :
    (∃ file ∈ store.files, file.id = id) ↔ id ∉ removed ∧ ∃ file ∈ base.files, file.id = id := by
  have hids : store.files.map ResultFile.id =
      (base.files.filter fun file => file.id ∉ removed).map ResultFile.id := by
    have hmapped := congrArg (List.map ResultFile.id) hswept.files
    rwa [List.map_map, List.map_map] at hmapped
  have hmem := congrArg (id ∈ ·) hids
  simp only [List.mem_map, List.mem_filter, decide_eq_true_eq, eq_iff_iff] at hmem
  rw [hmem]
  constructor
  · rintro ⟨file, ⟨hfile, hremoved⟩, rfl⟩
    exact ⟨hremoved, file, hfile, rfl⟩
  · rintro ⟨hremoved, file, hfile, rfl⟩
    exact ⟨file, ⟨hfile, hremoved⟩, rfl⟩

theorem Sweeping.swept (hdistinct : base.Distinct)
    (hsweeping : Sweeping timestampMs activeResults base [] store) :
    ∃ gone, Swept gone gone base store ∧
      (∀ id, id ∈ gone ↔
        ∃ result ∈ base.results, result.Dead timestampMs activeResults ∧ result.id = id) ∧
      store.results = base.keptResults timestampMs activeResults := by
  obtain ⟨gone, hswept, hids⟩ := hsweeping
  have hgone : ∀ id, id ∈ gone ↔
      ∃ result ∈ base.results, result.Dead timestampMs activeResults ∧ result.id = id := by
    intro id
    rw [← hids id]
    simp
  refine ⟨gone, hswept, hgone, ?_⟩
  rw [hswept.results]
  apply List.filter_congr
  intro result hresult
  rw [decide_eq_decide, hgone]
  constructor
  · intro hnot hdead
    exact hnot ⟨result, hresult, hdead, rfl⟩
  · rintro hlive ⟨other, hother, hdead, hid⟩
    rw [hdistinct.results.eq_of_key_eq hother hresult hid] at hdead
    exact hlive hdead

/-- A store without dead rows and orphans is what a purge leaves. -/
theorem Orphaning.purged (hdistinct : base.Distinct) (hgone : ∀ id, id ∈ gone ↔
      ∃ result ∈ base.results, result.Dead timestampMs activeResults ∧ result.id = id)
    (hresults : base.results.filter (fun result => result.id ∉ gone) =
      base.keptResults timestampMs activeResults)
    (hfiles : ∀ id, (∃ file ∈ files, file.id = id) ↔ id ∉ gone ∧ ∃ file ∈ base.files, file.id = id)
    (horphaning : Orphaning gone
      ((base.keptResults timestampMs activeResults).map StoredResult.id) base files [] store) :
    Purged timestampMs activeResults base store := by
  obtain ⟨removed, hswept, hids⟩ := horphaning
  refine ⟨hswept.results.trans hresults, ?_, ?_⟩
  · rw [hswept.chunks]
    apply List.filter_congr
    intro chunk _
    rw [decide_eq_decide, hgone]
    constructor
    · intro hnot result hresult hid hdead
      exact hnot ⟨result, hresult, hdead, hid⟩
    · rintro hlive ⟨result, hresult, hdead, hid⟩
      exact hlive result hresult hid hdead
  · rw [hswept.files]
    congr 1
    apply List.filter_congr
    intro file hfile
    have hremoved : file.id ∈ removed ↔ file.id ∈ gone ∨
        ∃ other ∈ files, other.id = file.id ∧
          file.id ∉ (base.keptResults timestampMs activeResults).map StoredResult.id := by
      rw [← hids file.id]
      simp
    rw [decide_eq_decide, hremoved]
    constructor
    · intro hnot
      by_contra hunkept
      apply hnot
      by_cases hfree : file.id ∈ gone
      · exact .inl hfree
      · obtain ⟨other, hother, hid⟩ := (hfiles file.id).mpr ⟨hfree, file, hfile, rfl⟩
        exact .inr ⟨other, hother, hid, hunkept⟩
    · rintro hkept (hfree | ⟨_, _, _, hunkept⟩)
      · exact not_mem_kept hdistinct ((hgone _).mp hfree) hkept
      · exact hunkept hkept

theorem Purged.syncDirectory (hpurged : Purged timestampMs activeResults base store) :
    Purged timestampMs activeResults base (store.apply .syncDirectory) := by
  refine ⟨hpurged.results, hpurged.chunks, ?_⟩
  rw [← hpurged.files, ResultStore.apply, List.map_map]
  rfl

/-- A purge removes the dead results and the files that nothing refers to then. -/
theorem purgeExpiredAt_purges {failed : ResultError → ResultStore → Prop}
    (hdistinct : base.Distinct) :
    Guarded (fun _ step =>
        Discards ((base.keptResults timestampMs activeResults).map StoredResult.id) step)
      (fun store => store = base) (purgeExpiredAt timestampMs activeResults)
      (fun _ => Purged timestampMs activeResults base) failed := by
  unfold purgeExpiredAt
  refine .read_at ?_
  have hexpired : ∀ result ∈ base.loadAllResults.filter
      fun result => result.expiresAtMs ≤ timestampMs, result.expiresAtMs ≤ timestampMs := by
    intro result hresult
    exact of_decide_eq_true (List.mem_filter.mp hresult).2
  refine .bind _ ((purgeResults_sweeps hdistinct _ _ hexpired).weaken ?_ (fun _ _ hnext => hnext)
    fun _ _ hfailed => hfailed) fun report => ?_
  · -- Every dead result of the base is among the expired ones that were listed.
    rintro store rfl
    refine ⟨[], swept_self, fun id => ?_⟩
    constructor
    · rintro (hnone | ⟨result, hresult, hdead, hid⟩)
      · cases hnone
      · have hmem := (List.mem_filter.mp hresult).1
        rw [ResultStore.loadAllResults, List.mem_insertionSort] at hmem
        exact ⟨result, hmem, hdead, hid⟩
    · rintro ⟨result, hresult, hdead, hid⟩
      refine .inr ⟨result, List.mem_filter.mpr ⟨?_, decide_eq_true hdead.1⟩, hdead, hid⟩
      rw [ResultStore.loadAllResults, List.mem_insertionSort]
      exact hresult
  refine .of_state fun middle hmiddle => ?_
  obtain ⟨gone, hswept, hgone, hresults⟩ := Sweeping.swept hdistinct hmiddle
  refine .read_at (.read_at ?_)
  rw [hresults]
  refine .bind (fun _ => Orphaning gone
    ((base.keptResults timestampMs activeResults).map StoredResult.id) base middle.files [])
    ((removeOrphans_sweeps middle.files 0).weaken ?_ (fun _ _ hnext => hnext)
      fun _ _ hfailed => hfailed) fun removed => ?_
  · rintro store rfl
    exact ⟨gone, hswept, fun id => Iff.rfl⟩
  have hpurged : ∀ store, Orphaning gone
      ((base.keptResults timestampMs activeResults).map StoredResult.id) base middle.files []
        store → Purged timestampMs activeResults base store := fun store horphaning =>
    horphaning.purged hdistinct hgone (hswept.results.symm.trans hresults)
      fun id => hswept.mem_files_iff
  split
  · refine .bind (fun _ => Purged timestampMs activeResults base) ?_ fun _ => ?_
    · exact .of_perform (fun _ _ => trivial) fun store hstore => (hpurged store hstore).syncDirectory
    · exact .of_pure fun _ hstore => hstore
  · exact .of_pure hpurged

end Chat2DB.Results
