import Chat2DB.Base.Machine
import Chat2DB.LargeValue.Store

/-! # Retention of large values

The map, the queue and the total of the store describe the same entries. Whatever leaves
the store is a selection of its entries, so each operation is one of two things: the store
restricted to some of its entries, or one entry more behind them.
-/

namespace Chat2DB.LargeValue

variable {Uuid : Type} {ownerId : List Char} {value : StoredValue} {now : Nat}

namespace StoreState

/-- The tokens of the map are different, and the total is that of its entries. -/
structure Counted (state : StoreState Uuid) : Prop where
  keyed : Rows.Keyed StoredEntry.token state.entries
  total : state.totalBytes = (state.entries.map StoredEntry.sizeBytes).sum

/-- The queue holds the tokens of the map as well, in the order in which they came. -/
structure Aligned (state : StoreState Uuid) : Prop extends state.Counted where
  order : state.order = state.entries.map StoredEntry.token

/-- The store with a selection of its entries. -/
def restrict (keep : StoredEntry Uuid → Bool) (state : StoreState Uuid) : StoreState Uuid where
  entries := state.entries.filter keep
  order := (state.entries.filter keep).map StoredEntry.token
  totalBytes := ((state.entries.filter keep).map StoredEntry.sizeBytes).sum

variable {state : StoreState Uuid} {keep : StoredEntry Uuid → Bool}

theorem Counted.restrict (hcounted : state.Counted) (keep : StoredEntry Uuid → Bool) :
    (state.restrict keep).Aligned where
  order := rfl
  keyed := hcounted.keyed.filter keep
  total := rfl

theorem restrict_restrict (keep keep' : StoredEntry Uuid → Bool) :
    (state.restrict keep).restrict keep' =
      state.restrict fun entry => keep entry && keep' entry := by
  simp only [StoreState.restrict, List.filter_filter, Bool.and_comm]

/-- Nothing is dropped where every entry is kept. -/
theorem Aligned.restrict_eq_self (haligned : state.Aligned)
    (hkeep : ∀ entry ∈ state.entries, keep entry = true) : state.restrict keep = state := by
  obtain ⟨entries, order, totalBytes⟩ := state
  have horder := haligned.order
  have htotal := haligned.total
  simp only at horder htotal hkeep
  simp only [StoreState.restrict, List.filter_eq_self.mpr hkeep, horder, htotal]

theorem restrict_congr {keep' : StoredEntry Uuid → Bool}
    (hkeep : ∀ entry ∈ state.entries, keep entry = keep' entry) :
    state.restrict keep = state.restrict keep' := by
  unfold StoreState.restrict
  rw [List.filter_congr hkeep]

theorem Aligned.filter_order (haligned : state.Aligned) {queued : Uuid → Bool}
    (hqueued : ∀ entry ∈ state.entries, queued entry.token = keep entry) :
    state.order.filter queued = (state.entries.filter keep).map StoredEntry.token := by
  rw [haligned.order, List.filter_map]
  congr 1
  apply List.filter_congr
  intro entry hentry
  exact hqueued entry hentry

theorem Counted.mem_tokens_iff (hcounted : state.Counted) {entry : StoredEntry Uuid}
    (hentry : entry ∈ state.entries) :
    entry.token ∈ (state.entries.filter keep).map StoredEntry.token ↔ keep entry = true := by
  constructor
  · intro htoken
    obtain ⟨other, hother, hsame⟩ := List.mem_map.mp htoken
    obtain ⟨hmem, hkeep⟩ := List.mem_filter.mp hother
    rw [← hcounted.keyed.eq_of_key_eq hmem hentry hsame]
    exact hkeep
  · intro hkeep
    exact List.mem_map.mpr ⟨entry, List.mem_filter.mpr ⟨hentry, hkeep⟩, rfl⟩

/-- The store without its oldest entries. -/
def dropOldest (count : Nat) (state : StoreState Uuid) : StoreState Uuid where
  entries := state.entries.drop count
  order := (state.entries.drop count).map StoredEntry.token
  totalBytes := ((state.entries.drop count).map StoredEntry.sizeBytes).sum

theorem Counted.dropOldest (hcounted : state.Counted) (count : Nat) :
    (state.dropOldest count).Aligned where
  order := rfl
  keyed := List.Sublist.nodup ((List.drop_sublist count state.entries).map _) hcounted.keyed
  total := rfl

theorem Aligned.dropOldest_zero (haligned : state.Aligned) : state.dropOldest 0 = state := by
  obtain ⟨entries, order, totalBytes⟩ := state
  have horder := haligned.order
  have htotal := haligned.total
  simp only at horder htotal
  simp only [StoreState.dropOldest, List.drop_zero, horder, htotal]

theorem dropOldest_dropOldest (first second : Nat) :
    (state.dropOldest first).dropOldest second = state.dropOldest (first + second) := by
  simp only [StoreState.dropOldest, List.drop_drop]

/-- An empty store has room for every value that is admitted. -/
theorem full_of_empty (config : LargeValueStoreConfig) {sizeBytes : Nat}
    (hsize : sizeBytes ≤ config.maxTotalBytes) (hentries : config.maxEntries ≠ 0)
    (hempty : state.entries = []) (htotal : state.totalBytes = 0) :
    state.full config sizeBytes = false := by
  unfold full saturatingAdd
  simp only [hempty, htotal, List.length_nil, Nat.zero_add, Bool.or_eq_false_iff,
    decide_eq_false_iff_not, not_le, not_lt]
  exact ⟨Nat.pos_of_ne_zero hentries, (Nat.min_le_left _ _).trans hsize⟩

/-- The store with one entry more. -/
def push (state : StoreState Uuid) (entry : StoredEntry Uuid) : StoreState Uuid where
  entries := state.entries ++ [entry]
  order := state.order ++ [entry.token]
  totalBytes := state.totalBytes + entry.sizeBytes

theorem total_dropOldest_le (state : StoreState Uuid) (count : Nat) :
    (state.dropOldest count).totalBytes ≤ (state.entries.map StoredEntry.sizeBytes).sum :=
  ((List.drop_sublist count state.entries).map StoredEntry.sizeBytes).sum_le_sum
    (fun _ _ => Nat.zero_le _)

variable [DecidableEq Uuid]

/-! ## Taking entries out -/

/-- Taking an entry out drops it from the map, and leaves its token in the queue. -/
theorem Counted.take_eq (hcounted : state.Counted) (token : Uuid) :
    state.take token =
      { state.restrict (fun entry => entry.token ≠ token) with order := state.order } := by
  unfold take
  cases hfind : state.find token with
  | none =>
    have hall : state.entries.filter (fun entry => entry.token ≠ token) = state.entries := by
      apply List.filter_eq_self.mpr
      intro entry hentry
      simpa using Rows.find_eq_none_iff.mp hfind entry hentry
    obtain ⟨entries, order, totalBytes⟩ := state
    have htotal := hcounted.total
    simp only at htotal hall
    simp only [StoreState.restrict, hall, htotal]
  | some entry =>
    have hperm := hcounted.keyed.perm_cons_filter hfind
    have hsum := (hperm.map StoredEntry.sizeBytes).sum_eq
    simp only [StoreState.restrict, StoreState.mk.injEq, true_and]
    rw [hcounted.total, hsum, List.map_cons, List.sum_cons, Nat.add_sub_cancel_left]

theorem Counted.take (hcounted : state.Counted) (token : Uuid) : (state.take token).Counted := by
  rw [hcounted.take_eq]
  exact ⟨hcounted.keyed.filter _, rfl⟩

theorem Counted.foldl_take_eq (hcounted : state.Counted) (tokens : List Uuid) :
    tokens.foldl StoreState.take state =
      { state.restrict (fun entry => entry.token ∉ tokens) with order := state.order } := by
  induction tokens generalizing state with
  | nil =>
    obtain ⟨entries, order, totalBytes⟩ := state
    have htotal := hcounted.total
    simp only at htotal
    simp [StoreState.restrict, htotal]
  | cons token tokens ih =>
    rw [List.foldl_cons, ih (hcounted.take token), hcounted.take_eq token]
    simp only [StoreState.restrict, List.filter_filter, StoreState.mk.injEq, true_and]
    have hboth : ∀ entry : StoredEntry Uuid,
        (decide (entry.token ∉ tokens) && decide (entry.token ≠ token)) =
          decide (entry.token ∉ token :: tokens) := by
      intro entry
      by_cases htoken : entry.token = token <;> simp [htoken]
    simp only [hboth, and_self]

/-- Removing drops an entry from the map and from the queue. -/
theorem Aligned.remove_eq (haligned : state.Aligned) (token : Uuid) :
    state.remove token = state.restrict fun entry => entry.token ≠ token := by
  have horder : state.order.filter (fun queued => queued ≠ token) =
      (state.entries.filter fun entry => entry.token ≠ token).map StoredEntry.token :=
    haligned.filter_order fun entry _ => rfl
  unfold remove
  cases hfind : state.find token with
  | none =>
    have hall : ∀ entry ∈ state.entries, decide (entry.token ≠ token) = true := by
      intro entry hentry
      simpa using Rows.find_eq_none_iff.mp hfind entry hentry
    exact (haligned.restrict_eq_self hall).symm
  | some entry =>
    simp only [haligned.take_eq]
    simp only [StoreState.restrict, horder]

theorem Aligned.foldl_remove_eq (haligned : state.Aligned) (tokens : List Uuid) :
    tokens.foldl StoreState.remove state =
      state.restrict fun entry => entry.token ∉ tokens := by
  induction tokens generalizing state with
  | nil =>
    exact (haligned.restrict_eq_self fun entry _ => by simp).symm
  | cons token tokens ih =>
    rw [List.foldl_cons, haligned.remove_eq token, ih (haligned.restrict _), restrict_restrict]
    apply restrict_congr
    intro entry _
    by_cases htoken : entry.token = token <;> simp [htoken]

theorem mem_of_find {token : Uuid} {entry : StoredEntry Uuid}
    (hfind : state.find token = some entry) : entry ∈ state.entries ∧ entry.token = token :=
  Rows.find_mem hfind

theorem Counted.find_restrict (hcounted : state.Counted) {token : Uuid}
    {entry : StoredEntry Uuid} (hfind : state.find token = some entry)
    (hkeep : keep entry = true) : (state.restrict keep).find token = some entry := by
  obtain ⟨hmem, rfl⟩ := mem_of_find hfind
  exact (hcounted.keyed.filter keep).find_of_mem (List.mem_filter.mpr ⟨hmem, hkeep⟩)

/-- A cleanup keeps exactly the entries that have not expired. -/
theorem Aligned.cleanupExpired_eq (haligned : state.Aligned) (now : Nat) :
    state.cleanupExpired now = state.restrict fun entry => decide (now < entry.expiresAt) := by
  have hkept : ∀ entry ∈ state.entries,
      decide (entry.token ∉ (state.entries.filter fun entry => decide (entry.expiresAt ≤ now)).map
        StoredEntry.token) = decide (now < entry.expiresAt) := by
    intro entry hentry
    rw [decide_eq_decide, haligned.mem_tokens_iff hentry]
    simp
  have hselected := restrict_congr hkept
  unfold cleanupExpired
  simp only [haligned.foldl_take_eq, hselected]
  simp only [StoreState.restrict, StoreState.mk.injEq, true_and, and_true]
  apply haligned.filter_order
  intro entry hentry
  -- A token stays queued exactly when its entry is still in the map.
  cases hlive : decide (now < entry.expiresAt) with
  | true =>
    have hfound : Rows.find StoredEntry.token entry.token
        (state.entries.filter fun entry => decide (now < entry.expiresAt)) = some entry :=
      (haligned.keyed.filter _).find_of_mem (List.mem_filter.mpr ⟨hentry, hlive⟩)
    simp only [StoreState.find, hfound, Option.isSome_some]
  | false =>
    have hnone : Rows.find StoredEntry.token entry.token
        (state.entries.filter fun entry => decide (now < entry.expiresAt)) = none := by
      rw [Rows.find_eq_none_iff]
      intro other hother hsame
      obtain ⟨hmem, hother⟩ := List.mem_filter.mp hother
      rw [haligned.keyed.eq_of_key_eq hmem hentry hsame, hlive] at hother
      cases hother
    simp only [StoreState.find, hnone, Option.isSome_none]

/-- What is left without an owner: the live entries of the others. -/
theorem Aligned.removeOwner_eq (haligned : state.Aligned) (ownerId : List Char) (now : Nat) :
    state.removeOwner ownerId now =
      state.restrict fun entry => decide (now < entry.expiresAt) && entry.ownerId ≠ ownerId := by
  unfold removeOwner
  simp only [haligned.cleanupExpired_eq]
  have hcleaned := haligned.restrict fun entry => decide (now < entry.expiresAt)
  rw [hcleaned.foldl_remove_eq, ← restrict_restrict]
  apply restrict_congr
  intro entry hentry
  rw [decide_eq_decide, hcleaned.mem_tokens_iff hentry]
  simp

/-! ## Making room -/

theorem Aligned.evictOldest_nil (haligned : state.Aligned) (hempty : state.entries = []) :
    state.evictOldest state.order = (false, state) := by
  obtain ⟨entries, order, totalBytes⟩ := state
  have horder := haligned.order
  simp only at hempty horder
  subst hempty
  rw [List.map_nil] at horder
  subst horder
  rfl

/-- An eviction drops the entry at the head of the queue. -/
theorem Aligned.evictOldest_cons (haligned : state.Aligned) (hsome : state.entries ≠ []) :
    state.evictOldest state.order = (true, state.dropOldest 1) := by
  obtain ⟨entries, order, totalBytes⟩ := state
  have horder := haligned.order
  simp only at hsome horder
  obtain ⟨first, rest, rfl⟩ := List.exists_cons_of_ne_nil hsome
  rw [List.map_cons] at horder
  subst horder
  have hkeyed := haligned.keyed
  have hfresh : first.token ∉ rest.map StoredEntry.token := (List.nodup_cons.mp hkeyed).1
  have hfind : StoreState.find
      { entries := first :: rest
        order := first.token :: rest.map StoredEntry.token
        totalBytes := totalBytes } first.token = some first :=
    hkeyed.find_of_mem (List.mem_cons_self ..)
  have hothers : (first :: rest).filter (fun entry => entry.token ≠ first.token) = rest := by
    rw [List.filter_cons_of_neg (by simp), List.filter_eq_self]
    intro entry hentry
    have hne : entry.token ≠ first.token := by
      intro hsame
      exact hfresh (List.mem_map.mpr ⟨entry, hentry, hsame⟩)
    simpa using hne
  unfold evictOldest
  simp only [hfind, haligned.take_eq]
  simp only [StoreState.restrict, hothers, StoreState.dropOldest, List.drop_succ_cons,
    List.drop_zero]

/-- The loop drops the oldest entries, until there is room or nothing is left. -/
theorem Aligned.makeRoom_eq (config : LargeValueStoreConfig) (sizeBytes : Nat) {turns : Nat}
    (haligned : state.Aligned) (hturns : state.entries.length < turns) :
    ∃ count ≤ state.entries.length,
      state.makeRoom config sizeBytes turns = state.dropOldest count ∧
      (∀ fewer < count, (state.dropOldest fewer).full config sizeBytes = true) ∧
      ((state.dropOldest count).full config sizeBytes = false ∨ count = state.entries.length) := by
  induction turns generalizing state with
  | zero => exact absurd hturns (Nat.not_lt_zero _)
  | succ turns ih =>
    unfold StoreState.makeRoom
    cases hfull : state.full config sizeBytes with
    | false =>
      refine ⟨0, Nat.zero_le _, ?_, by simp, .inl ?_⟩
      · simp [haligned.dropOldest_zero]
      · rw [haligned.dropOldest_zero, hfull]
    | true =>
      by_cases hempty : state.entries = []
      · refine ⟨0, Nat.zero_le _, ?_, by simp, .inr ?_⟩
        · simp [haligned.evictOldest_nil hempty, haligned.dropOldest_zero]
        · simp [hempty]
      · have hlength : 0 < state.entries.length := List.length_pos_iff.mpr hempty
        have hrest : (state.dropOldest 1).entries.length < turns := by
          simp only [StoreState.dropOldest, List.length_drop]
          omega
        obtain ⟨count, hcount, hroom, hfewer, hend⟩ := ih (haligned.dropOldest 1) hrest
        simp only [dropOldest_dropOldest] at hroom hfewer hend
        have hdropped : (state.dropOldest 1).entries.length = state.entries.length - 1 := by
          simp [StoreState.dropOldest]
        rw [hdropped] at hcount hend
        refine ⟨1 + count, by omega, ?_, ?_, ?_⟩
        · simp [haligned.evictOldest_cons hempty, hroom]
        · intro fewer hless
          cases fewer with
          | zero => rw [haligned.dropOldest_zero, hfull]
          | succ fewer =>
            rw [Nat.add_comm fewer 1]
            exact hfewer fewer (by omega)
        · rcases hend with hend | hend
          · exact .inl hend
          · exact .inr (by omega)

theorem Aligned.push (haligned : state.Aligned) {entry : StoredEntry Uuid}
    (hfresh : state.find entry.token = none) : (state.push entry).Aligned where
  order := by
    simp only [StoreState.push, haligned.order, List.map_append, List.map_singleton]
  keyed := haligned.keyed.append_singleton fun other hother =>
    Rows.find_eq_none_iff.mp hfresh other hother
  total := by
    simp only [StoreState.push, haligned.total, List.map_append, List.map_singleton,
      List.sum_append, List.sum_singleton]

end StoreState

/-! ## What `retain` does -/

variable [DecidableEq Uuid]

/-- How a value was taken in: the expired entries are out, and then the oldest ones, as many
as it takes. -/
structure TakesIn (config : LargeValueStoreConfig) (state : StoreState Uuid)
    (ownerId : List Char) (value : StoredValue) (now : Nat) (token : Uuid) (evicted : Nat)
    (next : StoreState Uuid) : Prop where
  owner : validateOwner ownerId = .ok ()
  valueFits : value.sizeBytes ≤ config.maxValueBytes
  needed : ∀ fewer < evicted,
    ((state.cleanupExpired now).dropOldest fewer).full config value.sizeBytes = true
  room : ((state.cleanupExpired now).dropOldest evicted).full config value.sizeBytes = false
  fresh : ((state.cleanupExpired now).dropOldest evicted).find token = none
  pushed : next = ((state.cleanupExpired now).dropOldest evicted).push
    { token := token
      ownerId := ownerId
      value := value
      sizeBytes := value.sizeBytes
      sizeChars := value.sizeChars
      expiresAt := now + config.ttl }

theorem saturatingAdd_eq {first second : Nat} (hfits : first + second ≤ u64Max) :
    saturatingAdd first second = first + second := Nat.min_eq_left hfits

/-- A call of `retain` leaves the store as it is, or takes the value in. -/
theorem retain_cases {config : LargeValueStoreConfig} {state next : StoreState Uuid}
    {draws : List Uuid} {result : Except LargeValueError (Retained Uuid)} (haligned : state.Aligned)
    (hmemory : (state.entries.map StoredEntry.sizeBytes).sum + value.sizeBytes ≤ u64Max)
    (hretain : retain config state ownerId value now draws = some (result, next)) :
    (next = state ∧ ∀ retained, result = .ok retained → retained.token = none) ∨
    ∃ preview token evicted, result = .ok ⟨preview, some token⟩ ∧
      TakesIn config state ownerId value now token evicted next := by
  unfold retain at hretain
  cases howner : validateOwner ownerId with
  | error error =>
    rw [howner] at hretain
    cases hretain
    exact .inl ⟨rfl, fun retained hok => by cases hok⟩
  | ok _ =>
    rw [howner] at hretain
    simp only [Option.bind_eq_bind, Option.bind_eq_some_iff] at hretain
    obtain ⟨preview, -, hretain⟩ := hretain
    split_ifs at hretain with hwhole hlimits hfull
    · cases hretain
      refine .inl ⟨rfl, ?_⟩
      intro retained hok
      cases hok
      rfl
    · cases hretain
      exact .inl ⟨rfl, fun retained hok => by cases hok⟩
    -- room is made: expired entries go first, then the oldest
    all_goals
      have hcleaned : (state.cleanupExpired now).Aligned := by
        rw [haligned.cleanupExpired_eq]
        exact haligned.restrict _
      have hturns : (state.cleanupExpired now).entries.length <
          (state.cleanupExpired now).order.length + 1 := by
        rw [hcleaned.order, List.length_map]
        exact Nat.lt_succ_self _
      obtain ⟨evicted, hevicted, hroom, hneeded, hend⟩ :=
        hcleaned.makeRoom_eq config value.sizeBytes hturns
      push Not at hlimits
      obtain ⟨hvalue, htotal, hentries⟩ := hlimits
      have hfits : ((state.cleanupExpired now).dropOldest evicted).full config
          value.sizeBytes = false := by
        rcases hend with hend | hend
        · exact hend
        · apply StoreState.full_of_empty config htotal hentries
          · simp [StoreState.dropOldest, hend]
          · simp [StoreState.dropOldest, hend]
      rw [hroom] at hfull hretain
    · rw [hfits] at hfull
      cases hfull
    · simp only [Option.bind_eq_some_iff] at hretain
      obtain ⟨token, htoken, hretain⟩ := hretain
      cases hretain
      have hfresh : ((state.cleanupExpired now).dropOldest evicted).find token = none := by
        simpa using List.find?_some htoken
      have hsum : ((state.cleanupExpired now).dropOldest evicted).totalBytes ≤
          (state.entries.map StoredEntry.sizeBytes).sum := by
        refine (StoreState.total_dropOldest_le _ evicted).trans ?_
        rw [haligned.cleanupExpired_eq]
        exact (List.filter_sublist.map StoredEntry.sizeBytes).sum_le_sum fun _ _ => Nat.zero_le _
      refine .inr ⟨preview, token, evicted, rfl, howner, hvalue, hneeded, hfits, hfresh, ?_⟩
      rw [saturatingAdd_eq (by omega)]
      rfl

/-! ## Runs -/

/-- The store, and everything that was ever retained. -/
structure LargeValueStore (Uuid : Type) where
  state : StoreState Uuid
  /-- History: owner, token and value, in the order in which they were retained. -/
  history : List (List Char × Uuid × StoredValue)

inductive StoreCall (Uuid : Type) where
  | retain (ownerId : List Char) (value : StoredValue) (now : Nat) (draws : List Uuid)
  | read (ownerId : List Char) (token : Option Uuid) (offset limit now : Nat) (encoded : Bool)
  | removeToken (ownerId : List Char) (token : Option Uuid) (now : Nat)
  | removeOwner (ownerId : List Char) (now : Nat)
  | cleanupExpired (now : Nat)

namespace LargeValueStore

def empty : LargeValueStore Uuid := { state := .empty, history := [] }

/-- One call. The values of the store and the one that is retained are in memory at the same
time, so their bytes can be counted. -/
def step (config : LargeValueStoreConfig) (store : LargeValueStore Uuid) :
    StoreCall Uuid → Option (LargeValueStore Uuid)
  | .retain ownerId value now draws =>
    if u64Max < (store.state.entries.map StoredEntry.sizeBytes).sum + value.sizeBytes then none
    else do
      let (result, state) ← LargeValue.retain config store.state ownerId value now draws
      match result with
      | .ok ⟨_, some token⟩ =>
        return { state, history := store.history ++ [(ownerId, token, value)] }
      | _ => return { store with state }
  | .read ownerId token offset limit now encoded =>
    some { store with
      state := (readChunkInner config store.state ownerId token offset limit now encoded).2 }
  | .removeToken ownerId token now =>
    some { store with state := (LargeValue.removeToken store.state ownerId token now).2 }
  | .removeOwner ownerId now =>
    some { store with state := store.state.removeOwner ownerId now }
  | .cleanupExpired now => some { store with state := store.state.cleanupExpired now }

/-- What holds of the store after every run. -/
structure Sound (config : LargeValueStoreConfig) (store : LargeValueStore Uuid) : Prop extends
    store.state.Aligned where
  entries_le : store.state.entries.length ≤ config.maxEntries
  totalBytes_le : store.state.totalBytes ≤ config.maxTotalBytes
  sizes : ∀ entry ∈ store.state.entries, entry.sizeBytes = entry.value.sizeBytes ∧
    entry.sizeChars = entry.value.sizeChars ∧ entry.sizeBytes ≤ config.maxValueBytes
  owners : ∀ entry ∈ store.state.entries, validateOwner entry.ownerId = .ok ()
  inserted : List.Sublist
    (store.state.entries.map fun entry => (entry.ownerId, entry.token, entry.value)) store.history

variable {config : LargeValueStoreConfig} {store next : LargeValueStore Uuid}

omit [DecidableEq Uuid] in
theorem empty_sound (config : LargeValueStoreConfig) :
    Sound config (empty : LargeValueStore Uuid) where
  order := rfl
  keyed := List.nodup_nil
  total := rfl
  entries_le := Nat.zero_le _
  totalBytes_le := Nat.zero_le _
  sizes := by simp [empty, StoreState.empty]
  owners := by simp [empty, StoreState.empty]
  inserted := List.Sublist.refl _

omit [DecidableEq Uuid] in
/-- A store with fewer entries is as sound. -/
theorem Sound.sublist (hsound : Sound config store) {state : StoreState Uuid}
    (haligned : state.Aligned) (hsub : state.entries.Sublist store.state.entries) :
    Sound config { store with state } where
  toAligned := haligned
  entries_le := hsub.length_le.trans hsound.entries_le
  totalBytes_le := by
    refine le_trans ?_ hsound.totalBytes_le
    rw [haligned.total, hsound.total]
    exact (hsub.map StoredEntry.sizeBytes).sum_le_sum fun _ _ => Nat.zero_le _
  sizes := fun entry hentry => hsound.sizes entry (hsub.subset hentry)
  owners := fun entry hentry => hsound.owners entry (hsub.subset hentry)
  inserted := (hsub.map _).trans hsound.inserted

omit [DecidableEq Uuid] in
theorem Sound.restrict (hsound : Sound config store) (keep : StoredEntry Uuid → Bool) :
    Sound config { store with state := store.state.restrict keep } :=
  hsound.sublist (hsound.toAligned.restrict keep) List.filter_sublist

theorem Sound.remove (hsound : Sound config store) (token : Uuid) :
    Sound config { store with state := store.state.remove token } := by
  rw [hsound.toAligned.remove_eq]
  exact hsound.restrict _

theorem Sound.cleanupExpired (hsound : Sound config store) (now : Nat) :
    Sound config { store with state := store.state.cleanupExpired now } := by
  rw [hsound.toAligned.cleanupExpired_eq]
  exact hsound.restrict _

theorem Sound.read (hsound : Sound config store) (ownerId : List Char) (token : Option Uuid)
    (offset limit now : Nat) (encoded : Bool) :
    Sound config { store with
      state := (readChunkInner config store.state ownerId token offset limit now encoded).2 } := by
  unfold readChunkInner
  split
  case h_1 => exact hsound
  case h_2 =>
    split
    case isTrue => exact hsound
    case isFalse =>
      cases token with
      | none => exact hsound
      | some token =>
        simp only
        split
        case isTrue => exact hsound.remove token
        case isFalse =>
          split
          case h_1 => exact hsound.cleanupExpired now
          case h_2 =>
            split
            · exact hsound.cleanupExpired now
            · exact hsound.cleanupExpired now

theorem Sound.removeToken (hsound : Sound config store) (ownerId : List Char)
    (token : Option Uuid) (now : Nat) :
    Sound config { store with
      state := (LargeValue.removeToken store.state ownerId token now).2 } := by
  unfold LargeValue.removeToken
  split
  case h_1 => exact hsound
  case h_2 =>
    cases token with
    | none => exact hsound
    | some token =>
      simp only
      split
      case h_1 => exact hsound
      case h_2 =>
        split_ifs
        · exact hsound.remove token
        · exact hsound
        · exact hsound.remove token

/-- A value that is taken in keeps the store within its limits. -/
theorem Sound.takesIn (hsound : Sound config store)
    {evicted : Nat} {token : Uuid} {state : StoreState Uuid}
    (hmemory : (store.state.entries.map StoredEntry.sizeBytes).sum + value.sizeBytes ≤ u64Max)
    (htakes : TakesIn config store.state ownerId value now token evicted state) :
    Sound config { state, history := store.history ++ [(ownerId, token, value)] } := by
  have hcleaned := hsound.cleanupExpired now
  have hroomy : Sound config
      { store with state := (store.state.cleanupExpired now).dropOldest evicted } :=
    hcleaned.sublist (hcleaned.toAligned.dropOldest evicted) (List.drop_sublist ..)
  have hroom := htakes.room
  unfold StoreState.full at hroom
  simp only [Bool.or_eq_false_iff, decide_eq_false_iff_not, not_le, not_lt] at hroom
  have hsum : ((store.state.cleanupExpired now).dropOldest evicted).totalBytes ≤
      (store.state.entries.map StoredEntry.sizeBytes).sum := by
    refine (StoreState.total_dropOldest_le _ evicted).trans ?_
    rw [hsound.toAligned.cleanupExpired_eq]
    exact (List.filter_sublist.map StoredEntry.sizeBytes).sum_le_sum fun _ _ => Nat.zero_le _
  rw [saturatingAdd_eq (by omega)] at hroom
  rw [htakes.pushed]
  exact
    { toAligned := hroomy.toAligned.push htakes.fresh
      entries_le := by
        simp only [StoreState.push, List.length_append, List.length_singleton]
        exact hroom.1
      totalBytes_le := hroom.2
      sizes := by
        intro entry hentry
        rcases List.mem_append.mp hentry with hentry | hentry
        · exact hroomy.sizes entry hentry
        · rw [List.mem_singleton.mp hentry]
          exact ⟨rfl, rfl, htakes.valueFits⟩
      owners := by
        intro entry hentry
        rcases List.mem_append.mp hentry with hentry | hentry
        · exact hroomy.owners entry hentry
        · rw [List.mem_singleton.mp hentry]
          exact htakes.owner
      inserted := by
        simp only [StoreState.push, List.map_append, List.map_singleton]
        exact hroomy.inserted.append (List.Sublist.refl _) }

/-- Every call keeps the store sound. -/
theorem Sound.step (hsound : Sound config store) {call : StoreCall Uuid}
    (hstep : store.step config call = some next) : Sound config next := by
  cases call with
  | retain ownerId value now draws =>
    simp only [LargeValueStore.step] at hstep
    split_ifs at hstep with hmemory
    rw [not_lt] at hmemory
    simp only [Option.bind_eq_bind, Option.bind_eq_some_iff, Prod.exists] at hstep
    obtain ⟨result, state, hretain, hstep⟩ := hstep
    rcases retain_cases hsound.toAligned hmemory hretain with
      ⟨rfl, hnone⟩ | ⟨preview, token, evicted, rfl, htakes⟩
    · have hsame : next = { store with state := store.state } := by
        cases result with
        | error error =>
          cases hstep
          rfl
        | ok retained =>
          obtain ⟨preview, token⟩ := retained
          obtain rfl : token = none := hnone _ rfl
          cases hstep
          rfl
      rw [hsame]
      exact hsound
    · cases hstep
      exact hsound.takesIn hmemory htakes
  | read ownerId token offset limit now encoded =>
    cases hstep
    exact hsound.read ownerId token offset limit now encoded
  | removeToken ownerId token now =>
    cases hstep
    exact hsound.removeToken ownerId token now
  | removeOwner ownerId now =>
    cases hstep
    rw [hsound.toAligned.removeOwner_eq]
    exact hsound.restrict _
  | cleanupExpired now =>
    cases hstep
    exact hsound.cleanupExpired now

/-! ## The representation -/

/-- What the store is, in one state. -/
structure Represents (config : LargeValueStoreConfig) (store : LargeValueStore Uuid) : Prop where
  total : store.state.totalBytes = (store.state.entries.map StoredEntry.sizeBytes).sum
  distinct : store.state.order.Nodup
  keys : ∀ token, token ∈ store.state.order ↔ (store.state.find token).isSome = true
  insertion : List.Sublist store.state.order (store.history.map fun retained => retained.2.1)
  entries_le : store.state.entries.length ≤ config.maxEntries
  totalBytes_le : store.state.totalBytes ≤ config.maxTotalBytes
  /-- What is evicted for a value are the oldest entries that have not expired, and with fewer
  of them there would be no room. -/
  evicts : ∀ ownerId value now draws preview token state,
    (store.state.entries.map StoredEntry.sizeBytes).sum + value.sizeBytes ≤ u64Max →
    LargeValue.retain config store.state ownerId value now draws =
      some (.ok ⟨preview, some token⟩, state) →
    ∃ evicted, state.order = (store.state.cleanupExpired now).order.drop evicted ++ [token] ∧
      ∀ fewer < evicted,
        ((store.state.cleanupExpired now).dropOldest fewer).full config value.sizeBytes = true
  /-- A read gives a chunk of a value that the same owner retained under the token. -/
  owned : ∀ ownerId token offset limit now encoded chunk,
    (readChunkInner config store.state ownerId token offset limit now encoded).1 = .ok chunk →
    ∃ id value, token = some id ∧ (ownerId, id, value) ∈ store.history ∧
      (if encoded then
          value.encodedChunk offset (min limit config.maxChunkSize) value.sizeBytes value.sizeChars
        else value.chunk offset (min limit config.maxChunkSize) value.sizeBytes value.sizeChars) =
        .ok chunk

/-- The oldest live entries make way, and with fewer of them there would be no room. -/
theorem Sound.evicts (hsound : Sound config store)
    {draws : List Uuid} {preview : PreviewParts} {token : Uuid} {state : StoreState Uuid}
    (hmemory : (store.state.entries.map StoredEntry.sizeBytes).sum + value.sizeBytes ≤ u64Max)
    (hretain : LargeValue.retain config store.state ownerId value now draws =
      some (.ok ⟨preview, some token⟩, state)) :
    ∃ evicted, state.order = (store.state.cleanupExpired now).order.drop evicted ++ [token] ∧
      ∀ fewer < evicted,
        ((store.state.cleanupExpired now).dropOldest fewer).full config value.sizeBytes =
          true := by
  rcases retain_cases hsound.toAligned hmemory hretain with
    ⟨-, hnone⟩ | ⟨_, _, evicted, hresult, htakes⟩
  · have htoken := hnone _ rfl
    cases htoken
  · cases hresult
    have hcleaned := (hsound.cleanupExpired now).toAligned
    refine ⟨evicted, ?_, htakes.needed⟩
    rw [htakes.pushed, hcleaned.order, ← List.map_drop]
    rfl

/-- A read that succeeds has found an entry of the owner. -/
theorem readChunkInner_eq_ok {state : StoreState Uuid}
    {token : Option Uuid} {offset limit : Nat} {encoded : Bool} {chunk : LargeValueChunk}
    (hread : (readChunkInner config state ownerId token offset limit now encoded).1 =
      .ok chunk) :
    ∃ id entry, token = some id ∧ (state.cleanupExpired now).find id = some entry ∧
      entry.ownerId = ownerId ∧
      (if encoded then
          entry.value.encodedChunk offset (min limit config.maxChunkSize) entry.sizeBytes
            entry.sizeChars
        else entry.value.chunk offset (min limit config.maxChunkSize) entry.sizeBytes
          entry.sizeChars) = .ok chunk := by
  unfold readChunkInner at hread
  split at hread
  case h_1 => cases hread
  case h_2 =>
    split at hread
    case isTrue => cases hread
    case isFalse =>
      cases token with
      | none => cases hread
      | some id =>
        simp only at hread
        split at hread
        case isTrue => cases hread
        case isFalse =>
          cases hfind : (state.cleanupExpired now).find id with
          | none =>
            rw [hfind] at hread
            cases hread
          | some entry =>
            rw [hfind] at hread
            simp only at hread
            split at hread
            case isTrue => cases hread
            case isFalse howner =>
              rw [ne_eq, not_not] at howner
              exact ⟨id, entry, rfl, hfind, howner, hread⟩

/-- What is read was retained for the owner who reads it. -/
theorem Sound.owned (hsound : Sound config store) {token : Option Uuid}
    {offset limit : Nat} {encoded : Bool} {chunk : LargeValueChunk}
    (hread : (readChunkInner config store.state ownerId token offset limit now encoded).1 =
      .ok chunk) :
    ∃ id value, token = some id ∧ (ownerId, id, value) ∈ store.history ∧
      (if encoded then
          value.encodedChunk offset (min limit config.maxChunkSize) value.sizeBytes value.sizeChars
        else value.chunk offset (min limit config.maxChunkSize) value.sizeBytes value.sizeChars) =
        .ok chunk := by
  obtain ⟨id, entry, rfl, hfind, rfl, hchunk⟩ := readChunkInner_eq_ok hread
  have hcleaned := hsound.cleanupExpired now
  obtain ⟨hmem, rfl⟩ := StoreState.mem_of_find hfind
  obtain ⟨hbytes, hchars, -⟩ := hcleaned.sizes entry hmem
  refine ⟨entry.token, entry.value, rfl, ?_, ?_⟩
  · exact hcleaned.inserted.subset (List.mem_map.mpr ⟨entry, hmem, rfl⟩)
  · rw [← hbytes, ← hchars]
    exact hchunk

/-- What the store is, from the invariant. -/
theorem Sound.represents (hsound : Sound config store) : Represents config store where
  total := hsound.total
  distinct := by
    rw [hsound.order]
    exact hsound.keyed
  keys := by
    intro token
    rw [hsound.order]
    constructor
    · intro htoken
      obtain ⟨entry, hentry, rfl⟩ := List.mem_map.mp htoken
      have hfound : store.state.find entry.token = some entry := hsound.keyed.find_of_mem hentry
      rw [hfound, Option.isSome_some]
    · intro hsome
      obtain ⟨entry, hfind⟩ := Option.isSome_iff_exists.mp hsome
      obtain ⟨hentry, rfl⟩ := StoreState.mem_of_find hfind
      exact List.mem_map.mpr ⟨entry, hentry, rfl⟩
  insertion := by
    have hmapped := hsound.inserted.map fun retained => retained.2.1
    rw [List.map_map] at hmapped
    rw [hsound.order]
    exact hmapped
  entries_le := hsound.entries_le
  totalBytes_le := hsound.totalBytes_le
  evicts := fun _ _ _ _ _ _ _ hmemory hretain => hsound.evicts hmemory hretain
  owned := fun _ _ _ _ _ _ _ hread => hsound.owned hread

end LargeValueStore

/-- The store after the calls. -/
def storeAfter (config : LargeValueStoreConfig) (calls : List (StoreCall Uuid)) :
    Option (LargeValueStore Uuid) :=
  Machine.run (LargeValueStore.step config) .empty calls

theorem storeAfter_sound {config : LargeValueStoreConfig} {calls : List (StoreCall Uuid)}
    {store : LargeValueStore Uuid} (hrun : storeAfter config calls = some store) :
    store.Sound config :=
  Machine.run_invariant (LargeValueStore.empty_sound config)
    (fun _ _ _ hbefore hstep => hbefore.step hstep) hrun

/-- After every sequence of calls the three parts of the store describe the same entries,
within the limits. -/
theorem storeAfter_represents {config : LargeValueStoreConfig} {calls : List (StoreCall Uuid)}
    {store : LargeValueStore Uuid} (hrun : storeAfter config calls = some store) :
    store.Represents config :=
  (storeAfter_sound hrun).represents

/-- Two bytes of a preview, two entries, five bytes in all. -/
def smallConfig : LargeValueStoreConfig where
  previewBytes := 2
  maxChunkSize := 2
  maxValueBytes := 4
  maxTotalBytes := 5
  maxEntries := 2
  ttl := 10
  maxValueBytes_le := by decide
  maxTotalBytes_le := by decide

/-- The second value takes the place of the first. -/
def evictingCalls : List (StoreCall Nat) :=
  [.retain "a".toList (.binary [1, 2, 3]) 0 [7], .retain "b".toList (.binary [4, 5, 6]) 1 [8],
    .read "b".toList (some 8) 0 2 2 false]

theorem evictingCalls_represents :
    ∃ store, storeAfter smallConfig evictingCalls = some store ∧ store.state.order = [8] ∧
      store.Represents smallConfig := by
  refine ⟨_, rfl, rfl, ?_⟩
  have hrun : storeAfter smallConfig evictingCalls = some _ := rfl
  exact storeAfter_represents hrun

end Chat2DB.LargeValue
