import Chat2DB.Results.Durability
import Chat2DB.Base.Guarded

/-! # What the store holds

The bytes of the store are accounted from two sources, the index and the
directory of files. A result that both know weighs the larger of its two
lengths, so that the accounted bytes are the sum of the weights of all ids,
each taken once.
-/

namespace Chat2DB.Results

open Outcome (rejectIf)
open Storage (u64Max)

variable {store next : ResultStore} {id : ResultId}

/-- No two results and no two files have one id. -/
structure ResultStore.Distinct (store : ResultStore) : Prop where
  results : Rows.Keyed StoredResult.id store.results
  files : Rows.Keyed ResultFile.id store.files

namespace ResultStore

/-- Zero for a file that no result refers to. -/
def indexedLength (store : ResultStore) (id : ResultId) : Nat :=
  (store.loadStoredResult id).elim 0 StoredResult.committedLength

/-- Zero for a result without a file. -/
def physicalLength (store : ResultStore) (id : ResultId) : Nat :=
  (store.findFile id).elim 0 fun file => file.bytes.length

def weight (store : ResultStore) (id : ResultId) : Nat :=
  max (store.indexedLength id) (store.physicalLength id)

/-- The ids that the index or the directory knows. -/
def heldIds (store : ResultStore) : Finset ResultId :=
  (store.files.map ResultFile.id).toFinset ∪ (store.results.map StoredResult.id).toFinset

end ResultStore

/-! ## The loop -/

/-- One file of the directory: its result, if it has one, is taken out of the index. -/
def accountFile (counted : List StoredResult × Nat) (file : ResultFile) :
    Except ResultError (List StoredResult × Nat) := do
  let accounted := (Rows.find StoredResult.id file.id counted.1).elim file.bytes.length
    fun result => max result.committedLength file.bytes.length
  rejectIf (counted.2 + accounted > u64Max) (.numericRange "retained result bytes")
  pure (counted.1.filter fun result => result.id ≠ file.id, counted.2 + accounted)

/-- One result that is left in the index. -/
def accountResult (retained : Nat) (result : StoredResult) : Except ResultError Nat := do
  rejectIf (retained + result.committedLength > u64Max) (.numericRange "retained result bytes")
  pure (retained + result.committedLength)

/-- The accounting, file by file and then over what is left of the index. -/
def ResultStore.countRetained (store : ResultStore) : Except ResultError Nat := do
  let counted ← store.files.foldlM accountFile (store.results, 0)
  counted.1.foldlM accountResult counted.2

theorem foldlM_accountResult (results : List StoredResult) (retained : Nat)
    (hretained : retained ≤ u64Max) :
    results.foldlM accountResult retained =
      (do
        rejectIf (retained + (results.map StoredResult.committedLength).sum > u64Max)
          (.numericRange "retained result bytes")
        pure (retained + (results.map StoredResult.committedLength).sum)) := by
  induction results generalizing retained with
  | nil =>
    simp only [List.map_nil, List.sum_nil, Nat.add_zero, rejectIf,
      if_neg (Nat.not_lt.mpr hretained)]
    rfl
  | cons result rest ih =>
    rw [List.foldlM_cons, accountResult, List.map_cons, List.sum_cons, ← Nat.add_assoc]
    by_cases hlarge : retained + result.committedLength > u64Max
    · have htotal : retained + result.committedLength +
          (rest.map StoredResult.committedLength).sum > u64Max := by omega
      simp [rejectIf, hlarge, htotal, Except.bind, bind]
    · simp only [rejectIf, if_neg hlarge]
      exact ih _ (by omega)

/-- What a file counts for beside the index. -/
def fileWeight (results : List StoredResult) (file : ResultFile) : Nat :=
  (Rows.find StoredResult.id file.id results).elim file.bytes.length
    fun result => max result.committedLength file.bytes.length

theorem fileWeight_filter {results : List StoredResult} {file other : ResultFile}
    (hother : other.id ≠ file.id) :
    fileWeight (results.filter fun result => result.id ≠ file.id) other =
      fileWeight results other := by
  unfold fileWeight
  rw [Rows.find_filter_of_keep]
  intro result _ hid
  simpa [hid] using hother

theorem foldlM_accountFile (files : List ResultFile) (results : List StoredResult)
    (retained : Nat) (hfiles : Rows.Keyed ResultFile.id files) (hretained : retained ≤ u64Max) :
    files.foldlM accountFile (results, retained) =
      (do
        rejectIf (retained + (files.map (fileWeight results)).sum > u64Max)
          (.numericRange "retained result bytes")
        pure (results.filter fun result => result.id ∉ files.map ResultFile.id,
          retained + (files.map (fileWeight results)).sum)) := by
  induction files generalizing results retained with
  | nil =>
    simp only [List.map_nil, List.sum_nil, Nat.add_zero, rejectIf,
      if_neg (Nat.not_lt.mpr hretained), List.not_mem_nil, not_false_eq_true, decide_true,
      List.filter_true]
    rfl
  | cons file rest ih =>
    obtain ⟨hfresh, hrest⟩ := List.nodup_cons.mp hfiles
    have hweights : rest.map (fileWeight (results.filter fun result => result.id ≠ file.id)) =
        rest.map (fileWeight results) := by
      apply List.map_congr_left
      intro other hother
      apply fileWeight_filter
      intro hid
      exact hfresh (List.mem_map.mpr ⟨other, hother, hid⟩)
    have hleft : (results.filter fun result => result.id ≠ file.id).filter
        (fun result => result.id ∉ rest.map ResultFile.id) =
        results.filter fun result => result.id ∉ (file :: rest).map ResultFile.id := by
      rw [List.filter_filter]
      apply List.filter_congr
      intro result _
      simp [Bool.and_comm]
    rw [List.foldlM_cons, accountFile, List.map_cons, List.sum_cons, ← Nat.add_assoc]
    change (do
      rejectIf (retained + fileWeight results file > u64Max) _
      pure _) >>= _ = _
    by_cases hlarge : retained + fileWeight results file > u64Max
    · have htotal : retained + fileWeight results file +
          (rest.map (fileWeight results)).sum > u64Max := by omega
      simp [rejectIf, hlarge, htotal, Except.bind, bind]
    · simp only [rejectIf, if_neg hlarge]
      have hnext := ih (results.filter fun result => result.id ≠ file.id)
        (retained + fileWeight results file) hrest (by omega)
      rw [hweights, hleft] at hnext
      exact hnext

theorem accountedBytes_eq (store : ResultStore) :
    store.accountedBytes = (store.files.map (fileWeight store.results)).sum +
      ((store.results.filter fun result => result.id ∉ store.files.map ResultFile.id).map
        StoredResult.committedLength).sum := by
  unfold ResultStore.accountedBytes
  congr 3
  · funext file
    unfold fileWeight ResultStore.loadStoredResult
    cases Rows.find StoredResult.id file.id store.results <;> rfl
  · apply List.filter_congr
    intro result _
    rw [decide_eq_decide]
    unfold ResultStore.findFile
    rw [Rows.find_eq_none_iff]
    simp

theorem countRetained_eq (hdistinct : store.Distinct) :
    store.countRetained = store.retainedResultBytes := by
  unfold ResultStore.countRetained ResultStore.retainedResultBytes
  rw [foldlM_accountFile _ _ 0 hdistinct.files (Nat.zero_le _), accountedBytes_eq, Nat.zero_add]
  by_cases hlarge : (store.files.map (fileWeight store.results)).sum > u64Max
  · have htotal : (store.files.map (fileWeight store.results)).sum +
        ((store.results.filter fun result => result.id ∉ store.files.map ResultFile.id).map
          StoredResult.committedLength).sum > u64Max := by omega
    simp only [rejectIf, if_pos hlarge, if_pos htotal]
    rfl
  · simp only [rejectIf, if_neg hlarge]
    exact foldlM_accountResult _ _ (by omega)

/-! ## The sum of the weights -/

theorem indexedLength_of_absent (habsent : id ∉ store.results.map StoredResult.id) :
    store.indexedLength id = 0 := by
  have hfind : store.loadStoredResult id = none := by
    apply Rows.find_eq_none_iff.mpr
    intro result hresult hid
    exact habsent (List.mem_map.mpr ⟨result, hresult, hid⟩)
  rw [ResultStore.indexedLength, hfind]
  rfl

theorem physicalLength_of_absent (habsent : id ∉ store.files.map ResultFile.id) :
    store.physicalLength id = 0 := by
  have hfind : store.findFile id = none := by
    apply Rows.find_eq_none_iff.mpr
    intro file hfile hid
    exact habsent (List.mem_map.mpr ⟨file, hfile, hid⟩)
  rw [ResultStore.physicalLength, hfind]
  rfl

theorem weight_of_not_held (hid : id ∉ store.heldIds) : store.weight id = 0 := by
  rw [ResultStore.heldIds, Finset.mem_union, List.mem_toFinset, List.mem_toFinset, not_or] at hid
  rw [ResultStore.weight, indexedLength_of_absent hid.2, physicalLength_of_absent hid.1,
    Nat.max_self]

theorem fileWeight_eq_weight (hdistinct : store.Distinct) {file : ResultFile}
    (hfile : file ∈ store.files) : fileWeight store.results file = store.weight file.id := by
  have hfind : store.findFile file.id = some file := hdistinct.files.find_of_mem hfile
  unfold fileWeight ResultStore.weight ResultStore.indexedLength ResultStore.physicalLength
    ResultStore.loadStoredResult
  rw [hfind]
  cases Rows.find StoredResult.id file.id store.results with
  | none => exact (Nat.zero_max _).symm
  | some result => rfl

theorem committedLength_eq_weight (hdistinct : store.Distinct) {result : StoredResult}
    (hresult : result ∈ store.results) (habsent : result.id ∉ store.files.map ResultFile.id) :
    result.committedLength = store.weight result.id := by
  have hfind : store.loadStoredResult result.id = some result :=
    hdistinct.results.find_of_mem hresult
  rw [ResultStore.weight, physicalLength_of_absent habsent, ResultStore.indexedLength, hfind]
  exact (Nat.max_zero _).symm

/-- Every id is accounted once, at its weight. -/
theorem accountedBytes_eq_sum (hdistinct : store.Distinct) :
    store.accountedBytes = ∑ id ∈ store.heldIds, store.weight id := by
  have hfiles : (store.files.map (fileWeight store.results)).sum =
      ∑ id ∈ (store.files.map ResultFile.id).toFinset, store.weight id := by
    rw [List.sum_toFinset _ hdistinct.files, List.map_map]
    congr 1
    apply List.map_congr_left
    intro file hfile
    exact fileWeight_eq_weight hdistinct hfile
  have hresults : ((store.results.filter fun result =>
      result.id ∉ store.files.map ResultFile.id).map StoredResult.committedLength).sum =
      ∑ id ∈ ((store.results.filter fun result =>
        result.id ∉ store.files.map ResultFile.id).map StoredResult.id).toFinset,
          store.weight id := by
    rw [List.sum_toFinset _ (hdistinct.results.filter _), List.map_map]
    congr 1
    apply List.map_congr_left
    intro result hresult
    obtain ⟨hmem, habsent⟩ := List.mem_filter.mp hresult
    exact committedLength_eq_weight hdistinct hmem (of_decide_eq_true habsent)
  have hdisjoint : Disjoint (store.files.map ResultFile.id).toFinset
      ((store.results.filter fun result =>
        result.id ∉ store.files.map ResultFile.id).map StoredResult.id).toFinset := by
    rw [Finset.disjoint_right]
    intro id hid
    obtain ⟨result, hresult, rfl⟩ := List.mem_map.mp (List.mem_toFinset.mp hid)
    rw [List.mem_toFinset]
    exact of_decide_eq_true (List.mem_filter.mp hresult).2
  have hheld : store.heldIds = (store.files.map ResultFile.id).toFinset ∪
      ((store.results.filter fun result =>
        result.id ∉ store.files.map ResultFile.id).map StoredResult.id).toFinset := by
    ext id
    simp only [ResultStore.heldIds, Finset.mem_union, List.mem_toFinset, List.mem_map,
      List.mem_filter, decide_eq_true_eq]
    grind
  rw [accountedBytes_eq, hfiles, hresults, hheld, Finset.sum_union hdisjoint]

theorem accountedBytes_eq_sum_of_subset (hdistinct : store.Distinct) {ids : Finset ResultId}
    (hids : store.heldIds ⊆ ids) : store.accountedBytes = ∑ id ∈ ids, store.weight id := by
  rw [accountedBytes_eq_sum hdistinct]
  apply Finset.sum_subset hids
  intro id _ hid
  exact weight_of_not_held hid

theorem accountedBytes_le_add (hstore : store.Distinct) (hnext : next.Distinct) {grown : Nat}
    (hweight : ∀ other, next.weight other ≤ store.weight other + if other = id then grown else 0) :
    next.accountedBytes ≤ store.accountedBytes + grown := by
  have hsubset : store.heldIds ⊆ insert id (store.heldIds ∪ next.heldIds) := by
    intro other hother
    simp [hother]
  have hsubsetNext : next.heldIds ⊆ insert id (store.heldIds ∪ next.heldIds) := by
    intro other hother
    simp [hother]
  rw [accountedBytes_eq_sum_of_subset hstore hsubset,
    accountedBytes_eq_sum_of_subset hnext hsubsetNext]
  calc ∑ other ∈ insert id (store.heldIds ∪ next.heldIds), next.weight other
      ≤ ∑ other ∈ insert id (store.heldIds ∪ next.heldIds),
          (store.weight other + if other = id then grown else 0) :=
        Finset.sum_le_sum fun other _ => hweight other
    _ = _ := by
        rw [Finset.sum_add_distrib, Finset.sum_ite_eq' _ id, if_pos (Finset.mem_insert_self _ _)]

theorem accountedBytes_mono (hstore : store.Distinct) (hnext : next.Distinct)
    (hweight : ∀ other, next.weight other ≤ store.weight other) :
    next.accountedBytes ≤ store.accountedBytes := by
  rw [← Nat.add_zero store.accountedBytes]
  apply @accountedBytes_le_add store next 0 hstore hnext 0
  intro other
  rw [ite_self, Nat.add_zero]
  exact hweight other

/-! ## Steps -/

theorem length_write (offset : Nat) (data : List UInt8) (file : ResultFile) :
    (file.write offset data).bytes.length = max file.bytes.length (offset + data.length) := by
  simp only [ResultFile.write, List.length_append, List.takeD_length, List.length_drop]
  omega

theorem physicalLength_updateFile {change : ResultFile → ResultFile}
    (hchange : ∀ file, (change file).id = file.id) (other : ResultId) :
    (store.updateFile id change).physicalLength other =
      (store.findFile other).elim 0 fun file =>
        if file.id = id then (change file).bytes.length else file.bytes.length := by
  rw [ResultStore.physicalLength, findFile_updateFile hchange]
  cases store.findFile other with
  | none => rfl
  | some file =>
    simp only [Option.map_some, Option.elim_some]
    split <;> rfl

theorem weight_writeFile (offset : Nat) (data : List UInt8) (other : ResultId) :
    (store.apply (.writeFile id offset data)).weight other ≤
      max (store.weight other) (if other = id then offset + data.length else 0) := by
  have hindexed : (store.apply (.writeFile id offset data)).indexedLength other =
      store.indexedLength other := rfl
  have hphysical : (store.apply (.writeFile id offset data)).physicalLength other ≤
      max (store.physicalLength other) (if other = id then offset + data.length else 0) := by
    have hchange : ∀ file, (ResultFile.write offset data file).id = file.id := fun _ => rfl
    rw [ResultStore.apply, physicalLength_updateFile hchange, ResultStore.physicalLength]
    cases hfind : store.findFile other with
    | none => exact Nat.zero_le _
    | some file =>
      have hid : file.id = other := (Rows.find_mem hfind).2
      simp only [Option.elim_some, hid, length_write]
      split
      · exact Nat.le_refl _
      · exact Nat.le_max_left _ _
  unfold ResultStore.weight
  omega

theorem weight_updateFile_le {change : ResultFile → ResultFile}
    (hchange : ∀ file, (change file).id = file.id)
    (hlength : ∀ file, (change file).bytes.length ≤ file.bytes.length) (other : ResultId) :
    (store.updateFile id change).weight other ≤ store.weight other := by
  have hindexed : (store.updateFile id change).indexedLength other =
      store.indexedLength other := rfl
  have hphysical : (store.updateFile id change).physicalLength other ≤
      store.physicalLength other := by
    rw [physicalLength_updateFile hchange, ResultStore.physicalLength]
    cases store.findFile other with
    | none => exact Nat.le_refl _
    | some file =>
      simp only [Option.elim_some]
      split
      · exact hlength file
      · exact Nat.le_refl _
  unfold ResultStore.weight
  omega

theorem weight_removeFile (other : ResultId) :
    (store.apply (.removeFile id)).weight other ≤ store.weight other := by
  have hindexed : (store.apply (.removeFile id)).indexedLength other =
      store.indexedLength other := rfl
  have hphysical : (store.apply (.removeFile id)).physicalLength other ≤
      store.physicalLength other := by
    unfold ResultStore.physicalLength
    by_cases hother : other = id
    · have hnone : (store.apply (.removeFile id)).findFile other = none := by
        apply Rows.find_eq_none_iff.mpr
        intro file hfile hid
        have hne := (List.mem_filter.mp hfile).2
        simp [hid, hother] at hne
      rw [hnone]
      exact Nat.zero_le _
    · have hsame : (store.apply (.removeFile id)).findFile other = store.findFile other := by
        apply Rows.find_filter_of_keep
        rintro file _ rfl
        simpa using hother
      rw [hsame]
  unfold ResultStore.weight
  omega

theorem weight_deleteResult (other : ResultId) :
    (store.apply (.deleteResult id)).weight other ≤ store.weight other := by
  have hphysical : (store.apply (.deleteResult id)).physicalLength other =
      store.physicalLength other := rfl
  have hindexed : (store.apply (.deleteResult id)).indexedLength other ≤
      store.indexedLength other := by
    rw [ResultStore.indexedLength, load_apply_deleteResult, ResultStore.indexedLength]
    split
    · exact Nat.zero_le _
    · exact Nat.le_refl _
  unfold ResultStore.weight
  omega

theorem weight_syncDirectory (other : ResultId) :
    (store.apply .syncDirectory).weight other = store.weight other := by
  have hphysical : (store.apply .syncDirectory).physicalLength other =
      store.physicalLength other := by
    rw [ResultStore.physicalLength, findFile_syncDirectory, ResultStore.physicalLength]
    cases store.findFile other <;> rfl
  unfold ResultStore.weight
  rw [hphysical]
  rfl

theorem weight_updateResults {cond : StoredResult → Bool} {set : StoredResult → StoredResult}
    {length : Nat} (hset : ∀ row, (set row).id = row.id)
    (hcond : ∀ row, cond row = true → row.id = id ∧
      (set row).committedLength ≤ max row.committedLength length) (other : ResultId) :
    (store.updateResults cond set).weight other ≤
      max (store.weight other) (if other = id then length else 0) := by
  have hphysical : (store.updateResults cond set).physicalLength other =
      store.physicalLength other := rfl
  have hindexed : (store.updateResults cond set).indexedLength other ≤
      max (store.indexedLength other) (if other = id then length else 0) := by
    rw [ResultStore.indexedLength, load_updateResults hset, ResultStore.indexedLength]
    cases hfind : store.loadStoredResult other with
    | none => exact Nat.zero_le _
    | some row =>
      simp only [Option.map_some, Option.elim_some]
      split
      · rename_i hrow
        obtain ⟨hid, hlength⟩ := hcond row hrow
        have hother : row.id = other := (Rows.find_mem hfind).2
        rw [if_pos (hother.symm.trans hid)]
        exact hlength
      · exact Nat.le_max_left _ _
  unfold ResultStore.weight
  omega

theorem weight_createFile (hfresh : store.findFile id = none) (other : ResultId) :
    (store.apply (.createFile id)).weight other = store.weight other := by
  have hphysical : (store.apply (.createFile id)).physicalLength other =
      store.physicalLength other := by
    unfold ResultStore.physicalLength ResultStore.findFile ResultStore.apply
    rw [Rows.find_append_singleton]
    by_cases hother : id = other
    · subst hother
      unfold ResultStore.findFile at hfresh
      rw [hfresh, Option.none_or, if_pos rfl]
      rfl
    · rw [if_neg hother, Option.or_none]
  unfold ResultStore.weight
  rw [hphysical]
  rfl

theorem weight_insertResult {result : StoredResult}
    (hlength : result.committedLength ≤ store.weight result.id) (other : ResultId) :
    (store.apply (.insertResult result)).weight other ≤ store.weight other := by
  have hphysical : (store.apply (.insertResult result)).physicalLength other =
      store.physicalLength other := rfl
  have hindexed : (store.apply (.insertResult result)).indexedLength other ≤
      max (store.indexedLength other) (store.weight other) := by
    unfold ResultStore.indexedLength ResultStore.loadStoredResult ResultStore.apply
    rw [Rows.find_append_singleton]
    cases Rows.find StoredResult.id other store.results with
    | some row => exact Nat.le_max_left _ _
    | none =>
      by_cases hother : result.id = other
      · subst hother
        rw [Option.none_or, if_pos rfl]
        exact Nat.le_trans hlength (Nat.le_max_right _ _)
      · rw [Option.none_or, if_neg hother]
        exact Nat.zero_le _
  unfold ResultStore.weight at hindexed ⊢
  omega

end Chat2DB.Results
