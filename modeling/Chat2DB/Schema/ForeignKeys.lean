import Chat2DB.Schema.SchemaDiff

/-! # Foreign keys around the changes of their tables

All foreign keys that have to go are dropped before the first table changes, and added
after the last one. What is left in between was looked up among the changed tables by the
spelling of its reference, which need not be the spelling of the table.
-/

namespace Chat2DB.Schema

variable {owned : OwnedKey} {entry : List Char × SnapshotTable} {way : ForeignKeyDefinition → Bool}
  {statements creates : List Statement}

/-! ## Names -/

theorem foldText_of_compared {lowerCaseTableNames : Nat} {left right : List Char}
    (hsame : comparedName lowerCaseTableNames left = comparedName lowerCaseTableNames right) :
    foldText left = foldText right := by
  unfold comparedName at hsame
  split_ifs at hsame
  · rw [hsame]
  · exact hsame

namespace SchemaSnapshot

variable (snapshot : SchemaSnapshot)

theorem nodup_compared : ((snapshot.tables.map Prod.fst).map
    (comparedName snapshot.lowerCaseTableNames)).Nodup := by
  rw [List.map_map]
  exact snapshot.tableNames

theorem nodup_names : (snapshot.tables.map Prod.fst).Nodup := snapshot.nodup_compared.of_map _

variable {snapshot} {name other : List Char} {table : SnapshotTable}

theorem table?_eq_some : snapshot.table? name = some table ↔ (name, table) ∈ snapshot.tables := by
  unfold table?
  rw [Option.map_eq_some_iff]
  constructor
  · rintro ⟨⟨found, other⟩, hfind, rfl⟩
    have hname := List.find?_some hfind
    simp only [decide_eq_true_eq] at hname
    rw [← hname]
    exact List.mem_of_find?_eq_some hfind
  · intro hmem
    refine ⟨(name, table), ?_, rfl⟩
    exact (Placement.find?_key_eq_some snapshot.nodup_names).mpr ⟨hmem, rfl⟩

theorem table?_isNone : (snapshot.table? name).isNone = true ↔
    name ∉ snapshot.tables.map Prod.fst := by
  rw [Option.isNone_iff_eq_none, Option.eq_none_iff_forall_ne_some]
  constructor
  · intro hnone hmem
    obtain ⟨⟨found, table⟩, hfound, rfl⟩ := List.mem_map.mp hmem
    exact hnone table (table?_eq_some.mpr hfound)
  · intro habsent table hsome
    exact habsent (List.mem_map_of_mem (table?_eq_some.mp hsome))

theorem table_unique {table' : SnapshotTable} (hmem : (name, table) ∈ snapshot.tables)
    (hmem' : (name, table') ∈ snapshot.tables) : table = table' :=
  Option.some.inj ((table?_eq_some.mpr hmem).symm.trans (table?_eq_some.mpr hmem'))

theorem mem_keys : owned ∈ snapshot.keys ↔
    ∃ table, (owned.table, table) ∈ snapshot.tables ∧ owned.foreignKey ∈ table.foreignKeys := by
  unfold keys
  rw [List.mem_flatMap]
  constructor
  · rintro ⟨⟨name, table⟩, hentry, howned⟩
    obtain ⟨foreignKey, hkey, rfl⟩ := List.mem_map.mp howned
    exact ⟨table, hentry, hkey⟩
  · rintro ⟨table, hentry, hkey⟩
    exact ⟨(owned.table, table), hentry, List.mem_map.mpr ⟨owned.foreignKey, hkey, rfl⟩⟩

theorem compared_inj (hname : name ∈ snapshot.tables.map Prod.fst)
    (hother : other ∈ snapshot.tables.map Prod.fst)
    (hsame : comparedName snapshot.lowerCaseTableNames name =
      comparedName snapshot.lowerCaseTableNames other) : name = other := by
  exact List.inj_on_of_nodup_map snapshot.nodup_compared hname hother hsame

end SchemaSnapshot

theorem not_caseConflict_of_collision {names : List (List Char)} (hnone : hasCollision names = false) :
    ∀ left ∈ names, ∀ right ∈ names, foldText left = foldText right → left = right := by
  induction names with
  | nil => nofun
  | cons first rest ih =>
    rw [hasCollision, Bool.or_eq_false_iff] at hnone
    obtain ⟨hfirst, hrest⟩ := hnone
    have hdiffers : ∀ right ∈ rest, foldText first = foldText right → first = right := by
      intro right hright hfold
      have hconflict := List.any_eq_false.mp hfirst right hright
      simpa [caseConflict, hfold] using hconflict
    intro left hleft right hright hfold
    rcases List.mem_cons.mp hleft with rfl | hinside
    · rcases List.mem_cons.mp hright with rfl | hright
      · rfl
      · exact hdiffers right hright hfold
    · rcases List.mem_cons.mp hright with rfl | hright
      · exact (hdiffers left hinside hfold.symm).symm
      · exact ih hrest left hinside right hright hfold

section Schemas

variable {source target : SchemaSnapshot}

theorem source_compared_inj (hvalid : validateCaseOnlyObjectConflicts source target = .ok ())
    {name other : List Char} (hname : name ∈ source.tables.map Prod.fst)
    (hother : other ∈ source.tables.map Prod.fst)
    (hsame : comparedName target.lowerCaseTableNames name =
      comparedName target.lowerCaseTableNames other) : name = other := by
  unfold validateCaseOnlyObjectConflicts at hvalid
  unfold comparedName at hsame
  by_cases hlower : target.lowerCaseTableNames = 0
  · rw [if_pos hlower, if_pos hlower] at hsame
    exact hsame
  · rw [if_neg hlower, if_neg hlower] at hsame
    rw [if_neg hlower] at hvalid
    split_ifs at hvalid with hconflict
    rw [Bool.not_eq_true, Bool.or_eq_false_iff] at hconflict
    exact not_caseConflict_of_collision hconflict.1 name (List.mem_append_left _ hname) other
      (List.mem_append_left _ hother) hsame

/-! ## The tables of both -/

theorem mem_existingTables {name : List Char} {sourceTable targetTable : SnapshotTable} :
    (name, sourceTable, targetTable) ∈ existingTables source target ↔
      (name, sourceTable) ∈ source.tables ∧ (name, targetTable) ∈ target.tables := by
  unfold existingTables
  rw [List.mem_filterMap]
  constructor
  · rintro ⟨⟨other, table⟩, hmem, hmap⟩
    obtain ⟨found, hfound, hentry⟩ := Option.map_eq_some_iff.mp hmap
    obtain ⟨rfl, rfl, rfl⟩ := by simpa using hentry
    exact ⟨hmem, SchemaSnapshot.table?_eq_some.mp hfound⟩
  · rintro ⟨hsource, htarget⟩
    refine ⟨(name, sourceTable), hsource, ?_⟩
    simp [SchemaSnapshot.table?_eq_some.mpr htarget]

theorem mem_removedTables :
    entry ∈ removedTables source target ↔
      entry ∈ target.tables ∧ entry.1 ∉ source.tables.map Prod.fst := by
  rw [removedTables, List.mem_filter, SchemaSnapshot.table?_isNone]

theorem mem_createdTables :
    entry ∈ createdTables source target ↔
      entry ∈ source.tables ∧ entry.1 ∉ target.tables.map Prod.fst := by
  rw [createdTables, List.mem_filter, SchemaSnapshot.table?_isNone]

theorem existing_names : ((existingTables source target).map Prod.fst).Sublist
    (source.tables.map Prod.fst) := by
  unfold existingTables
  induction source.tables with
  | nil => exact List.Sublist.refl _
  | cons entry rest ih =>
    cases hfound : target.table? entry.1 with
    | none =>
      rw [List.filterMap_cons_none (by rw [hfound]; rfl), List.map_cons]
      exact ih.cons _
    | some table =>
      rw [List.filterMap_cons_some (b := (entry.1, entry.2, table)) (by rw [hfound]; rfl),
        List.map_cons, List.map_cons]
      exact ih.cons_cons _

/-! ## Dropping keys -/

section PushUnique

variable {α : Type} [DecidableEq α] {values others : List α}

theorem mem_pushUnique {value other : α} :
    other ∈ pushUnique values value ↔ other ∈ values ∨ other = value := by
  unfold pushUnique
  split_ifs with hmem
  · constructor
    · exact .inl
    · rintro (hother | rfl)
      · exact hother
      · exact hmem
  · rw [List.mem_append, List.mem_singleton]

theorem mem_foldl_pushUnique {value : α} :
    value ∈ others.foldl pushUnique values ↔ value ∈ values ∨ value ∈ others := by
  induction others generalizing values with
  | nil => simp
  | cons other others ih =>
    rw [List.foldl_cons, ih, mem_pushUnique, List.mem_cons, or_assoc]

theorem nodup_foldl_pushUnique (hnodup : values.Nodup) :
    (others.foldl pushUnique values).Nodup := by
  induction others generalizing values with
  | nil => exact hnodup
  | cons other others ih =>
    apply ih
    unfold pushUnique
    split_ifs with hmem
    · exact hnodup
    · rw [List.nodup_append]
      refine ⟨hnodup, List.nodup_singleton _, fun value hvalue next hnext => ?_⟩
      rw [List.mem_singleton.mp hnext]
      rintro rfl
      exact hmem hvalue

end PushUnique

namespace KeyServer

variable {server : KeyServer} {keys : List OwnedKey}

/-- The table of a key and its name, as the server compares them. -/
def pairKey (server : KeyServer) (pair : List Char × List Char) : List Char × List Char :=
  (comparedName server.lowerCaseTableNames pair.1, foldText pair.2)

theorem run_drops {drops : List (List Char × List Char)}
    (hnodup : (drops.map server.pairKey).Nodup)
    (hmem : ∀ drop ∈ drops, server.pairKey drop ∈ keys.map server.key) :
    Machine.run server.apply keys (drops.map fun drop => .dropForeignKey drop.1 drop.2) =
      some (Placement.withoutAll server.key (drops.map server.pairKey) keys) := by
  induction drops generalizing keys with
  | nil => simp [Machine.run]
  | cons drop drops ih =>
    rw [List.map_cons, List.nodup_cons] at hnodup
    have hpresent : server.pairKey drop ∈ keys.map server.key := hmem drop List.mem_cons_self
    have hstep : server.apply keys (.dropForeignKey drop.1 drop.2) =
        some (Placement.without server.key (server.pairKey drop) keys) := if_pos hpresent
    rw [List.map_cons, List.map_cons, Placement.withoutAll_cons, Machine.run_cons, hstep]
    apply ih hnodup.2
    intro other hother
    obtain ⟨owned, howned, hkey⟩ := List.mem_map.mp (hmem other (List.mem_cons_of_mem _ hother))
    refine List.mem_map.mpr ⟨owned, Placement.mem_without.mpr ⟨howned, ?_⟩, hkey⟩
    rw [hkey]
    intro hsame
    exact hnodup.1 (hsame ▸ List.mem_map_of_mem hother)

theorem run_adds {added : List OwnedKey}
    (hparse : ∀ owned ∈ added,
      parseForeignKeyDefinition owned.foreignKey.sql = .ok (some owned.foreignKey))
    (hnodup : ((keys ++ added).map server.key).Nodup) :
    Machine.run server.apply keys
      (added.map fun owned => .addForeignKey owned.table owned.foreignKey.sql) =
        some (keys ++ added) := by
  induction added generalizing keys with
  | nil => simp [Machine.run]
  | cons owned added ih =>
    obtain ⟨hfirst, hrest⟩ := List.forall_mem_cons.mp hparse
    have habsent : server.key owned ∉ keys.map server.key := by
      rw [List.map_append, List.nodup_append] at hnodup
      intro hmem
      exact hnodup.2.2 _ hmem _ List.mem_cons_self rfl
    have hstep : server.apply keys (.addForeignKey owned.table owned.foreignKey.sql) =
        some (keys ++ [owned]) := by
      simp only [apply, hfirst]
      rw [if_neg habsent]
    rw [List.map_cons, Machine.run_cons, hstep]
    have happend : keys ++ owned :: added = keys ++ [owned] ++ added := by simp
    rw [happend] at hnodup ⊢
    exact ih hrest hnodup

end KeyServer

theorem nodup_pairs {α : Type} {lowerCaseTableNames : Nat} {value : α → List Char}
    {entries : List (List Char × List α)}
    (htables : ((entries.map Prod.fst).map (comparedName lowerCaseTableNames)).Nodup)
    (hvalues : ∀ entry ∈ entries, (entry.2.map value).Nodup) :
    (entries.flatMap fun entry => entry.2.map fun item =>
      (comparedName lowerCaseTableNames entry.1, value item)).Nodup := by
  induction entries with
  | nil => exact List.nodup_nil
  | cons entry entries ih =>
    rw [List.map_cons, List.map_cons, List.nodup_cons] at htables
    obtain ⟨hfirst, hrest⟩ := List.forall_mem_cons.mp hvalues
    rw [List.flatMap_cons, List.nodup_append]
    refine ⟨?_, ih htables.2 hrest, ?_⟩
    · apply List.Nodup.of_map Prod.snd
      rw [List.map_map]
      exact hfirst
    · intro left hleft right hright hsame
      obtain ⟨item, -, rfl⟩ := List.mem_map.mp hleft
      obtain ⟨other, hother, hitem⟩ := List.mem_flatMap.mp hright
      obtain ⟨otherItem, -, rfl⟩ := List.mem_map.mp hitem
      apply htables.1
      rw [(Prod.mk.inj hsame).1]
      exact List.mem_map_of_mem (List.mem_map_of_mem hother)

variable (source target) in
/-- The tables with the names of the keys that they lose. -/
def dropEntries : List (List Char × List (List Char)) :=
  (removedTables source target).map (fun entry =>
      (entry.1, entry.2.foreignKeys.map ForeignKeyDefinition.name)) ++
    (existingTables source target).map fun entry =>
      (entry.1, keyDrops source.databaseName target.databaseName entry.2.1 entry.2.2
        (makesWay source target entry.1))

variable (source target) in
def dropPairs : List (List Char × List Char) :=
  (dropEntries source target).flatMap fun entry => entry.2.map (entry.1, ·)

theorem foreignKeyDrops_eq : foreignKeyDrops source target =
    (dropPairs source target).map fun drop => .dropForeignKey drop.1 drop.2 := by
  unfold foreignKeyDrops dropPairs dropEntries
  rw [List.flatMap_append, List.map_append, List.flatMap_map, List.flatMap_map, List.map_flatMap,
    List.map_flatMap]
  simp only [List.map_map]
  rfl

theorem nodup_target_names :
    ((removedTables source target).map Prod.fst ++
      (existingTables source target).map Prod.fst).Nodup := by
  rw [List.nodup_append]
  refine ⟨target.nodup_names.sublist (List.filter_sublist.map _),
    source.nodup_names.sublist existing_names, ?_⟩
  rintro name hremoved other hexisting rfl
  obtain ⟨entry, hentry, rfl⟩ := List.mem_map.mp hremoved
  exact (mem_removedTables.mp hentry).2 (existing_names.subset hexisting)

theorem nodup_source_names :
    ((createdTables source target).map Prod.fst ++
      (existingTables source target).map Prod.fst).Nodup := by
  rw [List.nodup_append]
  refine ⟨source.nodup_names.sublist (List.filter_sublist.map _),
    source.nodup_names.sublist existing_names, ?_⟩
  rintro name hcreated other hexisting rfl
  obtain ⟨entry, hentry, rfl⟩ := List.mem_map.mp hcreated
  obtain ⟨⟨name, sourceTable, targetTable⟩, hboth, hname⟩ := List.mem_map.mp hexisting
  apply (mem_createdTables.mp hentry).2
  rw [← hname]
  exact List.mem_map_of_mem (mem_existingTables.mp hboth).2

theorem mem_pushUnique_filters {keys : List ForeignKeyDefinition}
    {changed : ForeignKeyDefinition → Bool} {text : ForeignKeyDefinition → List Char}
    {found : List Char} :
    found ∈ ((keys.filter way).map text).foldl pushUnique ((keys.filter changed).map text) ↔
      ∃ foreignKey ∈ keys, text foreignKey = found ∧
        (changed foreignKey = true ∨ way foreignKey = true) := by
  rw [mem_foldl_pushUnique, List.mem_map, List.mem_map]
  simp only [List.mem_filter]
  constructor
  · rintro (⟨foreignKey, ⟨hmem, hchanged⟩, rfl⟩ | ⟨foreignKey, ⟨hmem, hway⟩, rfl⟩)
    · exact ⟨foreignKey, hmem, rfl, .inl hchanged⟩
    · exact ⟨foreignKey, hmem, rfl, .inr hway⟩
  · rintro ⟨foreignKey, hmem, rfl, hchanged | hway⟩
    · exact .inl ⟨foreignKey, ⟨hmem, hchanged⟩, rfl⟩
    · exact .inr ⟨foreignKey, ⟨hmem, hway⟩, rfl⟩

theorem mem_keyDrops {sourceDatabase targetDatabase name : List Char}
    {sourceTable targetTable : SnapshotTable} :
    name ∈ keyDrops sourceDatabase targetDatabase sourceTable targetTable way ↔
      ∃ foreignKey ∈ targetTable.foreignKeys, foreignKey.name = name ∧
        (targetKeyChanged sourceDatabase targetDatabase sourceTable foreignKey = true ∨
          way foreignKey = true) := by
  unfold keyDrops
  exact mem_pushUnique_filters

theorem key_unique {table : SnapshotTable} {foreignKey other : ForeignKeyDefinition}
    (hmem : foreignKey ∈ table.foreignKeys) (hother : other ∈ table.foreignKeys)
    (hkey : foreignKey.key = other.key) : foreignKey = other :=
  List.inj_on_of_nodup_map table.foreignKeyNames hmem hother hkey

theorem nodup_keyDrops {sourceDatabase targetDatabase : List Char}
    {sourceTable targetTable : SnapshotTable} :
    ((keyDrops sourceDatabase targetDatabase sourceTable targetTable way).map foldText).Nodup := by
  apply List.Nodup.map_on
  · intro left hleft right hright hsame
    obtain ⟨first, hfirst, rfl, -⟩ := mem_keyDrops.mp hleft
    obtain ⟨second, hsecond, rfl, -⟩ := mem_keyDrops.mp hright
    rw [key_unique hfirst hsecond hsame]
  · apply nodup_foldl_pushUnique
    have hnames : (targetTable.foreignKeys.map ForeignKeyDefinition.name).Nodup := by
      apply List.Nodup.of_map foldText
      rw [List.map_map]
      exact targetTable.foreignKeyNames
    exact hnames.sublist (List.filter_sublist.map _)

theorem mem_dropPairs {pair : List Char × List Char} : pair ∈ dropPairs source target ↔
    (∃ table, (pair.1, table) ∈ removedTables source target ∧
      ∃ foreignKey ∈ table.foreignKeys, foreignKey.name = pair.2) ∨
    ∃ sourceTable targetTable, (pair.1, sourceTable, targetTable) ∈ existingTables source target ∧
      pair.2 ∈ keyDrops source.databaseName target.databaseName sourceTable targetTable
        (makesWay source target pair.1) := by
  unfold dropPairs dropEntries
  rw [List.flatMap_append, List.mem_append, List.flatMap_map, List.flatMap_map, List.mem_flatMap,
    List.mem_flatMap]
  apply or_congr
  · constructor
    · rintro ⟨⟨name, table⟩, hentry, hpair⟩
      obtain ⟨drop, hdrop, rfl⟩ := List.mem_map.mp hpair
      obtain ⟨foreignKey, hkey, rfl⟩ := List.mem_map.mp hdrop
      exact ⟨table, hentry, foreignKey, hkey, rfl⟩
    · rintro ⟨table, hentry, foreignKey, hkey, hname⟩
      refine ⟨(pair.1, table), hentry, List.mem_map.mpr ⟨pair.2, ?_, rfl⟩⟩
      exact List.mem_map.mpr ⟨foreignKey, hkey, hname⟩
  · constructor
    · rintro ⟨⟨name, sourceTable, targetTable⟩, hentry, hpair⟩
      obtain ⟨drop, hdrop, rfl⟩ := List.mem_map.mp hpair
      exact ⟨sourceTable, targetTable, hentry, hdrop⟩
    · rintro ⟨sourceTable, targetTable, hentry, hdrop⟩
      exact ⟨(pair.1, sourceTable, targetTable), hentry, List.mem_map.mpr ⟨pair.2, hdrop, rfl⟩⟩

variable (source target) in
/-- A key of the target that no statement drops. -/
def Stays (owned : OwnedKey) : Prop :=
  ∃ sourceTable targetTable, (owned.table, sourceTable, targetTable) ∈ existingTables source target ∧
    owned.foreignKey ∈ targetTable.foreignKeys ∧
    targetKeyChanged source.databaseName target.databaseName sourceTable owned.foreignKey = false ∧
    makesWay source target owned.table owned.foreignKey = false

variable (source target) in
def keptKeys : List OwnedKey :=
  Placement.withoutAll target.server.key ((dropPairs source target).map target.server.pairKey)
    target.keys

/-- Every drop finds its key. -/
theorem run_foreignKeyDrops : Machine.run target.server.apply target.keys
    (foreignKeyDrops source target) = some (keptKeys source target) := by
  rw [foreignKeyDrops_eq]
  apply KeyServer.run_drops
  · have hpairs : (dropPairs source target).map target.server.pairKey =
        (dropEntries source target).flatMap fun entry => entry.2.map fun name =>
          (comparedName target.lowerCaseTableNames entry.1, foldText name) := by
      unfold dropPairs
      rw [List.map_flatMap]
      simp only [List.map_map]
      rfl
    rw [hpairs]
    apply nodup_pairs
    · have hnames : (dropEntries source target).map Prod.fst =
          (removedTables source target).map Prod.fst ++
            (existingTables source target).map Prod.fst := by
        unfold dropEntries
        rw [List.map_append, List.map_map, List.map_map]
        rfl
      rw [hnames]
      refine List.Nodup.map_on (fun left hleft right hright hsame => ?_) nodup_target_names
      have htarget : ∀ name ∈ (removedTables source target).map Prod.fst ++
          (existingTables source target).map Prod.fst, name ∈ target.tables.map Prod.fst := by
        intro name hname
        rcases List.mem_append.mp hname with hremoved | hexisting
        · obtain ⟨entry, hentry, rfl⟩ := List.mem_map.mp hremoved
          exact List.mem_map_of_mem (mem_removedTables.mp hentry).1
        · obtain ⟨⟨name, sourceTable, targetTable⟩, hentry, rfl⟩ := List.mem_map.mp hexisting
          exact List.mem_map_of_mem (f := Prod.fst) (mem_existingTables.mp hentry).2
      exact SchemaSnapshot.compared_inj (htarget left hleft) (htarget right hright) hsame
    · intro entry hentry
      rcases List.mem_append.mp hentry with hremoved | hexisting
      · obtain ⟨removed, -, rfl⟩ := List.mem_map.mp hremoved
        rw [List.map_map]
        exact removed.2.foreignKeyNames
      · obtain ⟨existing, -, rfl⟩ := List.mem_map.mp hexisting
        exact nodup_keyDrops
  · intro drop hdrop
    rcases mem_dropPairs.mp hdrop with ⟨table, hentry, foreignKey, hkey, hname⟩ |
      ⟨sourceTable, targetTable, hentry, hname⟩
    · refine List.mem_map.mpr ⟨⟨drop.1, foreignKey⟩,
        SchemaSnapshot.mem_keys.mpr ⟨table, (mem_removedTables.mp hentry).1, hkey⟩, ?_⟩
      rw [KeyServer.pairKey, ← hname]
      rfl
    · obtain ⟨foreignKey, hkey, hname, -⟩ := mem_keyDrops.mp hname
      refine List.mem_map.mpr ⟨⟨drop.1, foreignKey⟩,
        SchemaSnapshot.mem_keys.mpr ⟨targetTable, (mem_existingTables.mp hentry).2, hkey⟩, ?_⟩
      rw [KeyServer.pairKey, ← hname]
      rfl

/-- The keys that are kept are those that stay. -/
theorem mem_keptKeys :
    owned ∈ keptKeys source target ↔ Stays source target owned := by
  unfold keptKeys
  rw [Placement.mem_withoutAll, SchemaSnapshot.mem_keys]
  constructor
  · rintro ⟨⟨targetTable, htarget, hkey⟩, hnot⟩
    have hpair : (owned.table, owned.foreignKey.name) ∉ dropPairs source target :=
      fun hdrop => hnot (List.mem_map.mpr ⟨_, hdrop, rfl⟩)
    rw [mem_dropPairs, not_or] at hpair
    by_cases hname : owned.table ∈ source.tables.map Prod.fst
    · obtain ⟨⟨name, sourceTable⟩, hsource, rfl⟩ := List.mem_map.mp hname
      have hentry := mem_existingTables.mpr ⟨hsource, htarget⟩
      have hstays : ¬(targetKeyChanged source.databaseName target.databaseName sourceTable
          owned.foreignKey = true ∨ makesWay source target owned.table owned.foreignKey = true) :=
        fun hdrop => hpair.2 ⟨sourceTable, targetTable, hentry,
          mem_keyDrops.mpr ⟨owned.foreignKey, hkey, rfl, hdrop⟩⟩
      rw [not_or, Bool.not_eq_true, Bool.not_eq_true] at hstays
      exact ⟨sourceTable, targetTable, hentry, hkey, hstays.1, hstays.2⟩
    · exact absurd ⟨targetTable, mem_removedTables.mpr ⟨htarget, hname⟩, owned.foreignKey, hkey, rfl⟩
        hpair.1
  · rintro ⟨sourceTable, targetTable, hentry, hkey, hchanged, hway⟩
    obtain ⟨hsource, htarget⟩ := mem_existingTables.mp hentry
    refine ⟨⟨targetTable, htarget, hkey⟩, fun hdropped => ?_⟩
    obtain ⟨⟨table, name⟩, hdrop, hsame⟩ := List.mem_map.mp hdropped
    obtain ⟨htable, hfold⟩ := Prod.mk.inj hsame
    rcases mem_dropPairs.mp hdrop with ⟨removed, hremoved, -⟩ |
      ⟨otherSource, otherTarget, hother, hname⟩
    · obtain ⟨hinside, houtside⟩ := mem_removedTables.mp hremoved
      obtain rfl := SchemaSnapshot.compared_inj (List.mem_map_of_mem hinside)
        (List.mem_map_of_mem htarget) htable
      exact houtside (List.mem_map.mpr ⟨_, hsource, rfl⟩)
    · obtain ⟨hotherSource, hotherTarget⟩ := mem_existingTables.mp hother
      obtain rfl := SchemaSnapshot.compared_inj (List.mem_map_of_mem hotherTarget)
        (List.mem_map_of_mem htarget) htable
      obtain rfl := SchemaSnapshot.table_unique hsource hotherSource
      obtain rfl := SchemaSnapshot.table_unique htarget hotherTarget
      obtain ⟨foreignKey, hmem, rfl, hdropped⟩ := mem_keyDrops.mp hname
      obtain rfl := key_unique hmem hkey hfold
      rcases hdropped with hdropped | hdropped
      · rw [hchanged] at hdropped
        cases hdropped
      · rw [hway] at hdropped
        cases hdropped

/-! ## Changing tables -/

/-- The table that a statement creates, alters or drops. -/
def Statement.changedTable? : Statement → Option (List Char)
  | .createTable table _ | .dropTable table | .alterTable table _ => some table
  | _ => none

/-- Tables can change if and only if no key involves one of them. -/
theorem KeyServer.run_changes {server : KeyServer} {keys next : List OwnedKey}
    (hchanges : ∀ statement ∈ statements, statement.changedTable?.isSome = true) :
    Machine.run server.apply keys statements = some next ↔ next = keys ∧
      ∀ statement ∈ statements, ∀ table ∈ statement.changedTable?, ∀ owned ∈ keys,
        server.involves table owned = false := by
  induction statements with
  | nil =>
    simp only [Machine.run, List.foldlM_nil, Option.pure_def, Option.some.injEq, eq_comm]
    refine ⟨fun hsame => ⟨hsame, ?_⟩, And.left⟩
    intro statement hstatement
    cases hstatement
  | cons statement statements ih =>
    obtain ⟨hfirst, hrest⟩ := List.forall_mem_cons.mp hchanges
    obtain ⟨table, htable⟩ := Option.isSome_iff_exists.mp hfirst
    have hstep : server.apply keys statement =
        if keys.any (server.involves table) then none else some keys := by
      cases statement <;> first | (obtain rfl := Option.some.inj htable; rfl) | cases htable
    rw [Machine.run_cons, hstep, List.forall_mem_cons, htable]
    by_cases hinvolved : keys.any (server.involves table) = true
    · obtain ⟨owned, howned, hinvolves⟩ := List.any_eq_true.mp hinvolved
      rw [if_pos hinvolved]
      constructor
      · intro hrun
        cases hrun
      · rintro ⟨-, hnone, -⟩
        rw [hnone table rfl owned howned] at hinvolves
        cases hinvolves
    · rw [if_neg hinvolved, Option.bind_some, ih hrest]
      rw [Bool.not_eq_true, List.any_eq_false] at hinvolved
      constructor
      · rintro ⟨hsame, hall⟩
        refine ⟨hsame, ?_, hall⟩
        rintro _ ⟨⟩ owned howned
        exact Bool.not_eq_true _ ▸ hinvolved owned howned
      · rintro ⟨hsame, -, hall⟩
        exact ⟨hsame, hall⟩

theorem changed_createStatements {created : List (List Char × SnapshotTable)}
    (hcreates : createStatements target created = .ok creates) :
    creates.map Statement.changedTable? = created.map fun entry => some entry.1 := by
  induction created generalizing creates with
  | nil =>
    obtain rfl := Except.ok.inj hcreates
    rfl
  | cons entry created ih =>
    rw [createStatements] at hcreates
    split at hcreates
    · cases hcreates
    · split at hcreates
      · cases hcreates
      · rename_i statements hstatements
        obtain rfl := Except.ok.inj hcreates
        rw [List.map_cons, List.map_cons, ih hstatements]
        rfl

/-- The changed tables are those for which there is a statement. -/
theorem mem_changedTables {table : List Char}
    (hcreates : createStatements target (createdTables source target) = .ok creates) :
    table ∈ changedTables source target ↔
      ∃ statement ∈ creates ++ otherTableChanges source target,
        statement.changedTable? = some table := by
  have hcreated : some table ∈ creates.map Statement.changedTable? ↔
      table ∈ (createdTables source target).map Prod.fst := by
    rw [changed_createStatements hcreates]
    simp
  have hexists : (∃ statement ∈ creates ++ otherTableChanges source target,
      statement.changedTable? = some table) ↔
        some table ∈ creates.map Statement.changedTable? ∨
          some table ∈ (otherTableChanges source target).map Statement.changedTable? := by
    simp only [List.mem_append, List.mem_map, or_and_right, exists_or]
  rw [hexists, hcreated, changedTables, List.mem_append, List.mem_append, or_assoc]
  apply or_congr Iff.rfl
  unfold otherTableChanges
  rw [List.map_append, List.mem_append]
  apply or_congr
  · simp [Statement.changedTable?]
  · rw [List.mem_map, List.mem_map]
    constructor
    · rintro ⟨entry, hentry, rfl⟩
      obtain ⟨hmem, hchanged⟩ := List.mem_filter.mp hentry
      obtain ⟨change, hchange⟩ := List.exists_mem_of_ne_nil _ (of_decide_eq_true hchanged)
      exact ⟨.alterTable entry.1 change, List.mem_flatMap.mpr ⟨entry, hmem,
        List.mem_map_of_mem hchange⟩, rfl⟩
    · rintro ⟨statement, hstatement, htable⟩
      obtain ⟨entry, hmem, halter⟩ := List.mem_flatMap.mp hstatement
      obtain ⟨change, hchange, rfl⟩ := List.mem_map.mp halter
      obtain rfl := Option.some.inj htable
      exact ⟨entry, List.mem_filter.mpr ⟨hmem, decide_eq_true (List.ne_nil_of_mem hchange)⟩, rfl⟩

/-! ## Adding keys -/

/-- Every foreign key is one that the server shows, with a reference into its database. -/
def SchemaSnapshot.LocalKeys (snapshot : SchemaSnapshot) : Prop :=
  ∀ entry ∈ snapshot.tables, ∀ foreignKey ∈ entry.2.foreignKeys,
    ∃ parts : ForeignKeyParts, foreignKey = parts.definition ∧
      ∀ catalog ∈ parts.catalog, comparedName snapshot.lowerCaseTableNames catalog =
        comparedName snapshot.lowerCaseTableNames snapshot.databaseName

/-- The key that the server reads in a definition. -/
def readKey (sql : List Char) : ForeignKeyDefinition :=
  match parseForeignKeyDefinition sql with
  | .ok (some foreignKey) => foreignKey
  | _ => { name := [], sql, referencedTable := [] }

theorem readKey_sql (sql : List Char) : (readKey sql).sql = sql := by
  unfold readKey parseForeignKeyDefinition
  split
  · rename_i foreignKey hparse
    split at hparse
    · cases hparse
    · split at hparse
      · cases hparse
      · split at hparse
        · cases hparse
        · split at hparse
          · cases hparse
          · obtain rfl := Option.some.inj (Except.ok.inj hparse)
            rfl
  · rfl

namespace ForeignKeyParts

variable (parts : ForeignKeyParts) {sourceDatabase targetDatabase : List Char}

theorem readKey_text : readKey parts.text = parts.definition := by
  rw [readKey, parseForeignKeyDefinition_text]

theorem canonicalize_retarget
    (hlocal : ∀ catalog ∈ parts.catalog, foldText catalog = foldText sourceDatabase) :
    canonicalizeForeignKeySql (retargetForeignKeySql parts.text sourceDatabase targetDatabase)
        targetDatabase =
      canonicalizeForeignKeySql parts.text sourceDatabase := by
  rw [retarget_text, canonicalize_text, canonicalize_text]
  apply congrArg text
  cases hcatalog : parts.catalog with
  | none => simp [retarget, localTo, hcatalog]
  | some catalog =>
    have hown := hlocal catalog hcatalog
    by_cases hsame : foldText sourceDatabase = foldText targetDatabase
    · simp [retarget, localTo, hcatalog, hown, hsame]
    · simp [retarget, localTo, hcatalog, hown, hsame, Option.filter]

theorem same_of_canonical {other : ForeignKeyParts}
    (hsame : canonicalizeForeignKeySql parts.text sourceDatabase =
      canonicalizeForeignKeySql other.text targetDatabase) :
    parts.name = other.name ∧ parts.table = other.table := by
  rw [canonicalize_text, canonicalize_text] at hsame
  have hread := congrArg readKey hsame
  rw [readKey_text, readKey_text] at hread
  exact ⟨congrArg ForeignKeyDefinition.name hread, congrArg ForeignKeyDefinition.referencedTable hread⟩

end ForeignKeyParts

variable (source target) in
/-- The key of the source gets a statement. -/
def IsAdded (table : List Char) (foreignKey : ForeignKeyDefinition) : Prop :=
  ∀ targetTable, (table, targetTable) ∈ target.tables →
    sourceKeyChanged source.databaseName target.databaseName targetTable foreignKey = true ∨
      makesWay source target table foreignKey = true

variable (source target) in
def retargeted (foreignKey : ForeignKeyDefinition) : List Char :=
  retargetForeignKeySql foreignKey.sql source.databaseName target.databaseName

variable (source target) in
/-- The tables with the definitions of the keys that they get. -/
def addEntries : List (List Char × List (List Char)) :=
  (createdTables source target).map (fun entry =>
      (entry.1, entry.2.foreignKeys.map (retargeted source target))) ++
    (existingTables source target).map fun entry =>
      (entry.1, keyAdds source.databaseName target.databaseName entry.2.1 entry.2.2
        (makesWay source target entry.1))

variable (source target) in
def addedKeys : List OwnedKey :=
  (addEntries source target).flatMap fun entry => entry.2.map fun sql =>
    { table := entry.1, foreignKey := readKey sql }

theorem foreignKeyAdds_eq : foreignKeyAdds source target =
    (addedKeys source target).map fun owned =>
      .addForeignKey owned.table owned.foreignKey.sql := by
  unfold foreignKeyAdds addedKeys addEntries
  rw [List.flatMap_append, List.map_append, List.flatMap_map, List.flatMap_map, List.map_flatMap,
    List.map_flatMap]
  simp only [List.map_map, Function.comp_def, readKey_sql]
  rfl

theorem mem_keyAdds {sourceDatabase targetDatabase sql : List Char}
    {sourceTable targetTable : SnapshotTable} :
    sql ∈ keyAdds sourceDatabase targetDatabase sourceTable targetTable way ↔
      ∃ foreignKey ∈ sourceTable.foreignKeys,
        retargetForeignKeySql foreignKey.sql sourceDatabase targetDatabase = sql ∧
        (sourceKeyChanged sourceDatabase targetDatabase targetTable foreignKey = true ∨
          way foreignKey = true) := by
  unfold keyAdds
  exact mem_pushUnique_filters

theorem mem_addedKeys : owned ∈ addedKeys source target ↔
    ∃ sourceTable, (owned.table, sourceTable) ∈ source.tables ∧
      ∃ foreignKey ∈ sourceTable.foreignKeys, IsAdded source target owned.table foreignKey ∧
        owned.foreignKey = readKey (retargeted source target foreignKey) := by
  unfold addedKeys
  rw [List.mem_flatMap]
  constructor
  · rintro ⟨entry, hentry, howned⟩
    obtain ⟨sql, hsql, rfl⟩ := List.mem_map.mp howned
    rcases List.mem_append.mp hentry with hcreated | hexisting
    · obtain ⟨⟨name, sourceTable⟩, hmem, rfl⟩ := List.mem_map.mp hcreated
      obtain ⟨foreignKey, hkey, rfl⟩ := List.mem_map.mp hsql
      obtain ⟨hsource, habsent⟩ := mem_createdTables.mp hmem
      refine ⟨sourceTable, hsource, foreignKey, hkey, fun targetTable htarget => ?_, rfl⟩
      exact absurd (List.mem_map.mpr ⟨_, htarget, rfl⟩) habsent
    · obtain ⟨⟨name, sourceTable, targetTable⟩, hmem, rfl⟩ := List.mem_map.mp hexisting
      obtain ⟨foreignKey, hkey, rfl, hadded⟩ := mem_keyAdds.mp hsql
      obtain ⟨hsource, htarget⟩ := mem_existingTables.mp hmem
      refine ⟨sourceTable, hsource, foreignKey, hkey, fun other hother => ?_, rfl⟩
      obtain rfl := SchemaSnapshot.table_unique htarget hother
      exact hadded
  · rintro ⟨sourceTable, hsource, foreignKey, hkey, hadded, hread⟩
    have howned : owned = { table := owned.table
                            foreignKey := readKey (retargeted source target foreignKey) } := by
      rw [← hread]
    by_cases hname : owned.table ∈ target.tables.map Prod.fst
    · obtain ⟨⟨name, targetTable⟩, htarget, rfl⟩ := List.mem_map.mp hname
      refine ⟨_, List.mem_append_right _ (List.mem_map_of_mem
        (mem_existingTables.mpr ⟨hsource, htarget⟩)), List.mem_map.mpr ⟨_, ?_, howned.symm⟩⟩
      exact mem_keyAdds.mpr ⟨foreignKey, hkey, rfl, hadded targetTable htarget⟩
    · refine ⟨_, List.mem_append_left _ (List.mem_map_of_mem
        (mem_createdTables.mpr ⟨hsource, hname⟩)), List.mem_map.mpr ⟨_, ?_, howned.symm⟩⟩
      exact List.mem_map_of_mem hkey

theorem readKey_retargeted (hsource : source.LocalKeys) {table : List Char}
    {sourceTable : SnapshotTable} {foreignKey : ForeignKeyDefinition}
    (htable : (table, sourceTable) ∈ source.tables) (hkey : foreignKey ∈ sourceTable.foreignKeys) :
    parseForeignKeyDefinition (retargeted source target foreignKey) =
        .ok (some (readKey (retargeted source target foreignKey))) ∧
      (readKey (retargeted source target foreignKey)).name = foreignKey.name := by
  obtain ⟨parts, rfl, -⟩ := hsource _ htable _ hkey
  have htext : retargeted source target parts.definition =
      (parts.retarget source.databaseName target.databaseName).text := parts.retarget_text _ _
  rw [htext, ForeignKeyParts.readKey_text, ForeignKeyParts.parseForeignKeyDefinition_text]
  exact ⟨rfl, rfl⟩

theorem findForeignKey_eq_some {table : SnapshotTable} {name : List Char}
    {foreignKey : ForeignKeyDefinition} :
    findForeignKey table.foreignKeys name = some foreignKey ↔
      foreignKey ∈ table.foreignKeys ∧ foreignKey.key = foldText name :=
  Placement.find?_key_eq_some table.foreignKeyNames

section Comparison

variable {sourceDatabase targetDatabase : List Char} {sourceTable targetTable : SnapshotTable}
  {foreignKey : ForeignKeyDefinition}

theorem targetKeyChanged_eq_false :
    targetKeyChanged sourceDatabase targetDatabase sourceTable foreignKey = false ↔
      ∃ other ∈ sourceTable.foreignKeys, other.key = foreignKey.key ∧
        canonicalizeForeignKeySql other.sql sourceDatabase =
          canonicalizeForeignKeySql foreignKey.sql targetDatabase := by
  unfold targetKeyChanged
  rw [decide_eq_false_iff_not, ne_eq, not_not, Option.map_eq_some_iff]
  simp only [findForeignKey_eq_some, and_assoc]
  rfl

theorem sourceKeyChanged_eq_false :
    sourceKeyChanged sourceDatabase targetDatabase targetTable foreignKey = false ↔
      ∃ other ∈ targetTable.foreignKeys, other.key = foreignKey.key ∧
        canonicalizeForeignKeySql other.sql targetDatabase =
          canonicalizeForeignKeySql foreignKey.sql sourceDatabase := by
  unfold sourceKeyChanged
  rw [Bool.not_eq_false', Option.any_eq_true]
  simp only [findForeignKey_eq_some, and_assoc, decide_eq_true_eq]
  rfl

end Comparison

theorem referencedTable_of_canonical (hsource : source.LocalKeys) (htarget : target.LocalKeys)
    {other : List Char × SnapshotTable} {sourceKey targetKey : ForeignKeyDefinition}
    (hentry : entry ∈ source.tables) (hsourceKey : sourceKey ∈ entry.2.foreignKeys)
    (hother : other ∈ target.tables) (htargetKey : targetKey ∈ other.2.foreignKeys)
    (hsame : canonicalizeForeignKeySql sourceKey.sql source.databaseName =
      canonicalizeForeignKeySql targetKey.sql target.databaseName) :
    sourceKey.referencedTable = targetKey.referencedTable := by
  obtain ⟨sourceParts, rfl, -⟩ := hsource entry hentry sourceKey hsourceKey
  obtain ⟨targetParts, rfl, -⟩ := htarget other hother targetKey htargetKey
  exact (sourceParts.same_of_canonical hsame).2

theorem makesWay_congr {table : List Char} {foreignKey other : ForeignKeyDefinition}
    (hsame : foreignKey.referencedTable = other.referencedTable) :
    makesWay source target table foreignKey = makesWay source target table other := by
  rw [makesWay, makesWay, hsame]

theorem stays_not_added (hsource : source.LocalKeys) (htarget : target.LocalKeys)
    (hstays : Stays source target owned) :
    ∃ sourceTable, (owned.table, sourceTable) ∈ source.tables ∧
      ∃ foreignKey ∈ sourceTable.foreignKeys, foreignKey.key = owned.foreignKey.key ∧
        canonicalizeForeignKeySql foreignKey.sql source.databaseName =
          canonicalizeForeignKeySql owned.foreignKey.sql target.databaseName ∧
        ¬IsAdded source target owned.table foreignKey := by
  obtain ⟨sourceTable, targetTable, hentry, hkey, hchanged, hway⟩ := hstays
  obtain ⟨hsourceTable, htargetTable⟩ := mem_existingTables.mp hentry
  obtain ⟨foreignKey, hmem, hname, hsame⟩ := targetKeyChanged_eq_false.mp hchanged
  refine ⟨sourceTable, hsourceTable, foreignKey, hmem, hname, hsame, fun hadded => ?_⟩
  rcases hadded targetTable htargetTable with hsourceChanged | hsourceWay
  · rw [sourceKeyChanged_eq_false.mpr ⟨owned.foreignKey, hkey, hname.symm, hsame.symm⟩]
      at hsourceChanged
    cases hsourceChanged
  · have hreferenced := referencedTable_of_canonical hsource htarget hsourceTable hmem htargetTable
      hkey hsame
    rw [makesWay_congr hreferenced, hway] at hsourceWay
    cases hsourceWay

theorem stays_of_not_added (hsource : source.LocalKeys) (htarget : target.LocalKeys)
    {table : List Char} {sourceTable : SnapshotTable} {foreignKey : ForeignKeyDefinition}
    (htable : (table, sourceTable) ∈ source.tables) (hkey : foreignKey ∈ sourceTable.foreignKeys)
    (hadded : ¬IsAdded source target table foreignKey) :
    ∃ other, Stays source target { table, foreignKey := other } ∧ other.key = foreignKey.key ∧
      canonicalizeForeignKeySql other.sql target.databaseName =
        canonicalizeForeignKeySql foreignKey.sql source.databaseName := by
  unfold IsAdded at hadded
  push Not at hadded
  obtain ⟨targetTable, htargetTable, hchanged, hway⟩ := hadded
  rw [ne_eq, Bool.not_eq_true] at hchanged hway
  obtain ⟨other, hmem, hname, hsame⟩ := sourceKeyChanged_eq_false.mp hchanged
  refine ⟨other, ⟨sourceTable, targetTable, mem_existingTables.mpr ⟨htable, htargetTable⟩, hmem,
    targetKeyChanged_eq_false.mpr ⟨foreignKey, hkey, hname.symm, hsame.symm⟩, ?_⟩, hname, hsame⟩
  have hreferenced := referencedTable_of_canonical hsource htarget htable hkey htargetTable hmem
    hsame.symm
  rw [← makesWay_congr hreferenced]
  exact hway

theorem nodup_target_keys : (target.keys.map target.server.key).Nodup := by
  have hkeys : target.keys.map target.server.key =
      (target.tables.map fun entry => (entry.1, entry.2.foreignKeys)).flatMap fun entry =>
        entry.2.map fun foreignKey =>
          (comparedName target.lowerCaseTableNames entry.1, foreignKey.key) := by
    unfold SchemaSnapshot.keys
    rw [List.map_flatMap, List.flatMap_map]
    simp only [List.map_map]
    rfl
  rw [hkeys]
  apply nodup_pairs
  · simp only [List.map_map]
    exact target.tableNames
  · intro entry hentry
    obtain ⟨table, -, rfl⟩ := List.mem_map.mp hentry
    exact table.2.foreignKeyNames

theorem nodup_retargeted (hsource : source.LocalKeys) {table : List Char}
    {sourceTable : SnapshotTable} (htable : (table, sourceTable) ∈ source.tables) :
    ((sourceTable.foreignKeys.map (retargeted source target)).map fun sql =>
      (readKey sql).key).Nodup := by
  have hsame : ((sourceTable.foreignKeys.map (retargeted source target)).map fun sql =>
      (readKey sql).key) = sourceTable.foreignKeys.map ForeignKeyDefinition.key := by
    rw [List.map_map]
    apply List.map_congr_left
    intro foreignKey hkey
    exact congrArg foldText (readKey_retargeted hsource htable hkey).2
  rw [hsame]
  exact sourceTable.foreignKeyNames

/-- No key is added twice. -/
theorem nodup_added_keys (hvalid : validateCaseOnlyObjectConflicts source target = .ok ())
    (hsource : source.LocalKeys) : ((addedKeys source target).map target.server.key).Nodup := by
  have hkeys : (addedKeys source target).map target.server.key =
      (addEntries source target).flatMap fun entry => entry.2.map fun sql =>
        (comparedName target.lowerCaseTableNames entry.1, (readKey sql).key) := by
    unfold addedKeys
    rw [List.map_flatMap]
    simp only [List.map_map]
    rfl
  rw [hkeys]
  apply nodup_pairs
  · have hnames : (addEntries source target).map Prod.fst =
        (createdTables source target).map Prod.fst ++
          (existingTables source target).map Prod.fst := by
      unfold addEntries
      rw [List.map_append, List.map_map, List.map_map]
      rfl
    have hinside : ∀ name ∈ (createdTables source target).map Prod.fst ++
        (existingTables source target).map Prod.fst, name ∈ source.tables.map Prod.fst := by
      intro name hname
      rcases List.mem_append.mp hname with hcreated | hexisting
      · obtain ⟨entry, hentry, rfl⟩ := List.mem_map.mp hcreated
        exact List.mem_map_of_mem (mem_createdTables.mp hentry).1
      · exact existing_names.subset hexisting
    rw [hnames]
    refine List.Nodup.map_on (fun left hleft right hright hsame => ?_) nodup_source_names
    exact source_compared_inj hvalid (hinside left hleft) (hinside right hright) hsame
  · intro entry hentry
    rcases List.mem_append.mp hentry with hcreated | hexisting
    · obtain ⟨⟨name, sourceTable⟩, hmem, rfl⟩ := List.mem_map.mp hcreated
      exact nodup_retargeted hsource (mem_createdTables.mp hmem).1
    · obtain ⟨⟨name, sourceTable, targetTable⟩, hmem, rfl⟩ := List.mem_map.mp hexisting
      have htable := (mem_existingTables.mp hmem).1
      apply List.Nodup.map_on
      · intro left hleft right hright hsame
        obtain ⟨first, hfirst, rfl, -⟩ := mem_keyAdds.mp hleft
        obtain ⟨second, hsecond, rfl, -⟩ := mem_keyAdds.mp hright
        have hfirstName := (@readKey_retargeted source target hsource _ _ _ htable hfirst).2
        have hsecondName := (@readKey_retargeted source target hsource _ _ _ htable hsecond).2
        have hkey : first.key = second.key := by
          rw [ForeignKeyDefinition.key, ForeignKeyDefinition.key, ← hfirstName, ← hsecondName]
          exact hsame
        rw [key_unique hfirst hsecond hkey]
      · apply nodup_foldl_pushUnique
        exact (nodup_retargeted hsource htable).of_map.sublist (List.filter_sublist.map _)

theorem nodup_kept_added_keys (hvalid : validateCaseOnlyObjectConflicts source target = .ok ())
    (hsource : source.LocalKeys) (htarget : target.LocalKeys) :
    ((keptKeys source target ++ addedKeys source target).map target.server.key).Nodup := by
  rw [List.map_append, List.nodup_append]
  refine ⟨nodup_target_keys.sublist (List.filter_sublist.map _), nodup_added_keys hvalid hsource, ?_⟩
  intro _ hfirst _ hsecond hsame
  obtain ⟨kept, hkept, rfl⟩ := List.mem_map.mp hfirst
  obtain ⟨added, hmember, rfl⟩ := List.mem_map.mp hsecond
  obtain ⟨htable, hkey⟩ := Prod.mk.inj hsame
  obtain ⟨sourceTable, hsourceTable, foreignKey, hmem, hname, -, hnot⟩ :=
    stays_not_added hsource htarget (mem_keptKeys.mp hkept)
  obtain ⟨otherTable, hotherTable, other, hother, hadded, hread⟩ := mem_addedKeys.mp hmember
  have hsameTable : kept.table = added.table := source_compared_inj hvalid
    (List.mem_map.mpr ⟨_, hsourceTable, rfl⟩) (List.mem_map.mpr ⟨_, hotherTable, rfl⟩) htable
  rw [← hsameTable] at hotherTable hadded
  obtain rfl := SchemaSnapshot.table_unique hsourceTable hotherTable
  have hotherName := (@readKey_retargeted source target hsource _ _ _ hotherTable hother).2
  have hsameKey : foreignKey.key = other.key := by
    rw [hname, hkey, hread, ForeignKeyDefinition.key, ForeignKeyDefinition.key, hotherName]
  rw [key_unique hmem hother hsameKey] at hnot
  exact hnot hadded

/-! ## The whole difference -/

variable (source target) in
/-- The keys are those of the source, each once, with references into the target. -/
structure Restored (keys : List OwnedKey) : Prop where
  names : (keys.map target.server.key).Nodup
  sound : ∀ owned ∈ keys, ∃ sourceTable, (owned.table, sourceTable) ∈ source.tables ∧
    ∃ foreignKey ∈ sourceTable.foreignKeys, foreignKey.key = owned.foreignKey.key ∧
      canonicalizeForeignKeySql owned.foreignKey.sql target.databaseName =
        canonicalizeForeignKeySql foreignKey.sql source.databaseName
  complete : ∀ table sourceTable, (table, sourceTable) ∈ source.tables →
    ∀ foreignKey ∈ sourceTable.foreignKeys, ∃ owned ∈ keys, owned.table = table ∧
      foreignKey.key = owned.foreignKey.key ∧
      canonicalizeForeignKeySql owned.foreignKey.sql target.databaseName =
        canonicalizeForeignKeySql foreignKey.sql source.databaseName
  references : ∀ owned ∈ keys, ∃ catalog table,
    parseReference owned.foreignKey.sql = some (catalog, table) ∧
      ∀ database ∈ catalog, comparedName target.lowerCaseTableNames database =
        comparedName target.lowerCaseTableNames target.databaseName

variable (source target) in
/-- No key that stays names a changed table in another spelling, and where the databases
differ in case only, no added key is qualified by another name than the target's. -/
structure SafeKeys : Prop where
  spelling : ∀ owned, Stays source target owned → ∀ table ∈ changedTables source target,
    comparedName target.lowerCaseTableNames owned.foreignKey.referencedTable ≠
      comparedName target.lowerCaseTableNames table
  database : foldText source.databaseName = foldText target.databaseName →
    ∀ table sourceTable, (table, sourceTable) ∈ source.tables →
      ∀ foreignKey ∈ sourceTable.foreignKeys, IsAdded source target table foreignKey →
        ∀ catalog referenced, parseReference foreignKey.sql = some (some catalog, referenced) →
          comparedName target.lowerCaseTableNames catalog =
            comparedName target.lowerCaseTableNames target.databaseName

/-- A key that stays is in the way of a changed table only by its reference. -/
theorem involves_iff (hvalid : validateCaseOnlyObjectConflicts source target = .ok ())
    (htarget : target.LocalKeys) (hstays : Stays source target owned)
    {table : List Char} (htable : table ∈ changedTables source target) :
    target.server.involves table owned = true ↔
      comparedName target.lowerCaseTableNames owned.foreignKey.referencedTable =
        comparedName target.lowerCaseTableNames table := by
  obtain ⟨sourceTable, targetTable, hentry, hkey, -, hway⟩ := hstays
  obtain ⟨hsourceTable, htargetTable⟩ := mem_existingTables.mp hentry
  rw [makesWay, Bool.or_eq_false_iff, decide_eq_false_iff_not] at hway
  -- a key that stays belongs to a table that is not changed
  have howner : comparedName target.lowerCaseTableNames owned.table ≠
      comparedName target.lowerCaseTableNames table := by
    intro hsame
    apply hway.1
    have hboth : table ∈ source.tables.map Prod.fst ∨ table ∈ target.tables.map Prod.fst := by
      rcases List.mem_append.mp htable with hnew | hexisting
      · rcases List.mem_append.mp hnew with hcreated | hremoved
        · obtain ⟨entry, hmem, rfl⟩ := List.mem_map.mp hcreated
          exact .inl (List.mem_map_of_mem (mem_createdTables.mp hmem).1)
        · obtain ⟨entry, hmem, rfl⟩ := List.mem_map.mp hremoved
          exact .inr (List.mem_map_of_mem (mem_removedTables.mp hmem).1)
      · obtain ⟨entry, hmem, rfl⟩ := List.mem_map.mp hexisting
        exact .inl (existing_names.subset (List.mem_map_of_mem (List.mem_filter.mp hmem).1))
    rcases hboth with hinside | hinside
    · obtain rfl : owned.table = table :=
        source_compared_inj hvalid (List.mem_map.mpr ⟨_, hsourceTable, rfl⟩) hinside hsame
      exact htable
    · obtain rfl : owned.table = table :=
        SchemaSnapshot.compared_inj (List.mem_map.mpr ⟨_, htargetTable, rfl⟩) hinside hsame
      exact htable
  obtain ⟨parts, hparts, hlocal⟩ := htarget _ htargetTable _ hkey
  have hreference : parseReference owned.foreignKey.sql = some (parts.catalog, parts.table) := by
    rw [hparts]
    exact parts.parseReference_text
  have hall : (parts.catalog.all fun catalog => decide (comparedName target.lowerCaseTableNames
      catalog = comparedName target.lowerCaseTableNames target.databaseName)) = true := by
    cases hcatalog : parts.catalog with
    | none => rfl
    | some catalog => exact decide_eq_true (hlocal catalog hcatalog)
  have hrefers : target.server.refersTo owned table =
      decide (comparedName target.lowerCaseTableNames owned.foreignKey.referencedTable =
        comparedName target.lowerCaseTableNames table) := by
    unfold KeyServer.refersTo
    rw [hreference, hparts, Option.any_some]
    exact (congrArg (· && decide (comparedName target.lowerCaseTableNames parts.table =
      comparedName target.lowerCaseTableNames table)) hall).trans (Bool.true_and _)
  rw [KeyServer.involves, hrefers, Bool.or_eq_true, decide_eq_true_eq, decide_eq_true_eq]
  exact or_iff_right howner

section Restored

variable (hvalid : validateCaseOnlyObjectConflicts source target = .ok ())
  (hsource : source.LocalKeys) (htarget : target.LocalKeys)

include hsource in
/-- The database to which an added key refers. -/
theorem added_reference {table : List Char} {sourceTable : SnapshotTable}
    {foreignKey : ForeignKeyDefinition} (htable : (table, sourceTable) ∈ source.tables)
    (hkey : foreignKey ∈ sourceTable.foreignKeys) :
    ∃ catalog referenced,
      parseReference (readKey (retargeted source target foreignKey)).sql =
        some (some catalog, referenced) ∧
      (catalog = target.databaseName ∨
        foldText source.databaseName = foldText target.databaseName ∧
          parseReference foreignKey.sql = some (some catalog, referenced)) := by
  obtain ⟨parts, rfl, hlocal⟩ := hsource _ htable _ hkey
  rw [readKey_sql]
  have htext : retargeted source target parts.definition =
      (parts.retarget source.databaseName target.databaseName).text := parts.retarget_text _ _
  rw [htext, ForeignKeyParts.parseReference_text]
  have hsql : parts.definition.sql = parts.text := rfl
  rw [hsql, ForeignKeyParts.parseReference_text]
  cases hcatalog : parts.catalog with
  | none =>
    refine ⟨target.databaseName, parts.table, ?_, .inl rfl⟩
    simp [ForeignKeyParts.retarget, hcatalog]
  | some catalog =>
    have hown := foldText_of_compared (hlocal catalog hcatalog)
    by_cases hsame : foldText source.databaseName = foldText target.databaseName
    · refine ⟨catalog, parts.table, ?_, .inr ⟨hsame, rfl⟩⟩
      simp [ForeignKeyParts.retarget, hcatalog, hsame]
    · refine ⟨target.databaseName, parts.table, ?_, .inl rfl⟩
      simp [ForeignKeyParts.retarget, hcatalog, hsame, hown]

include hsource in
theorem added_canonical {table : List Char} {sourceTable : SnapshotTable}
    {foreignKey : ForeignKeyDefinition} (htable : (table, sourceTable) ∈ source.tables)
    (hkey : foreignKey ∈ sourceTable.foreignKeys) :
    canonicalizeForeignKeySql (readKey (retargeted source target foreignKey)).sql
        target.databaseName =
      canonicalizeForeignKeySql foreignKey.sql source.databaseName := by
  obtain ⟨parts, rfl, hlocal⟩ := hsource _ htable _ hkey
  rw [readKey_sql]
  exact parts.canonicalize_retarget fun catalog hcatalog =>
    foldText_of_compared (hlocal catalog hcatalog)

include hvalid hsource htarget in
/-- The keys at the end are those of the source; only their databases can be wrong. -/
theorem restored_of_database
    (hdatabase : ∀ table sourceTable, (table, sourceTable) ∈ source.tables →
      ∀ foreignKey ∈ sourceTable.foreignKeys, IsAdded source target table foreignKey →
        foldText source.databaseName = foldText target.databaseName →
        ∀ catalog referenced, parseReference foreignKey.sql = some (some catalog, referenced) →
          comparedName target.lowerCaseTableNames catalog =
            comparedName target.lowerCaseTableNames target.databaseName) :
    Restored source target (keptKeys source target ++ addedKeys source target) := by
  constructor
  · exact nodup_kept_added_keys hvalid hsource htarget
  · intro owned howned
    rcases List.mem_append.mp howned with hkept | hadded
    · obtain ⟨sourceTable, htable, foreignKey, hkey, hname, hsame, -⟩ :=
        stays_not_added hsource htarget (mem_keptKeys.mp hkept)
      exact ⟨sourceTable, htable, foreignKey, hkey, hname, hsame.symm⟩
    · obtain ⟨sourceTable, htable, foreignKey, hkey, -, hread⟩ := mem_addedKeys.mp hadded
      rw [hread]
      refine ⟨sourceTable, htable, foreignKey, hkey, ?_, added_canonical hsource htable hkey⟩
      exact congrArg foldText (readKey_retargeted hsource htable hkey).2.symm
  · intro table sourceTable htable foreignKey hkey
    by_cases hadded : IsAdded source target table foreignKey
    · refine ⟨{ table, foreignKey := readKey (retargeted source target foreignKey) },
        List.mem_append_right _ (mem_addedKeys.mpr
          ⟨sourceTable, htable, foreignKey, hkey, hadded, rfl⟩), rfl, ?_,
        added_canonical hsource htable hkey⟩
      exact congrArg foldText (readKey_retargeted hsource htable hkey).2.symm
    · obtain ⟨other, hstays, hname, hsame⟩ :=
        stays_of_not_added hsource htarget htable hkey hadded
      exact ⟨{ table, foreignKey := other }, List.mem_append_left _ (mem_keptKeys.mpr hstays), rfl,
        hname.symm, hsame⟩
  · intro owned howned
    rcases List.mem_append.mp howned with hkept | hadded
    · obtain ⟨sourceTable, targetTable, hentry, hkey, -⟩ := mem_keptKeys.mp hkept
      obtain ⟨parts, hparts, hlocal⟩ := htarget _ (mem_existingTables.mp hentry).2 _ hkey
      refine ⟨parts.catalog, parts.table, ?_, hlocal⟩
      rw [hparts]
      exact parts.parseReference_text
    · obtain ⟨sourceTable, htable, foreignKey, hkey, hadded, hread⟩ := mem_addedKeys.mp hadded
      obtain ⟨catalog, referenced, hreference, hcatalog⟩ :=
        @added_reference source target hsource _ _ _ htable hkey
      rw [hread]
      refine ⟨some catalog, referenced, hreference, ?_⟩
      rintro _ ⟨⟩
      rcases hcatalog with rfl | ⟨hfold, hown⟩
      · rfl
      · exact hdatabase _ _ htable _ hkey hadded hfold _ _ hown

include hsource in
theorem database_of_restored {keys : List OwnedKey}
    (hrestored : Restored source target (keys ++ addedKeys source target)) {table : List Char}
    {sourceTable : SnapshotTable} {foreignKey : ForeignKeyDefinition}
    (htable : (table, sourceTable) ∈ source.tables) (hkey : foreignKey ∈ sourceTable.foreignKeys)
    (hadded : IsAdded source target table foreignKey)
    (hfold : foldText source.databaseName = foldText target.databaseName)
    {catalog referenced : List Char}
    (hreference : parseReference foreignKey.sql = some (some catalog, referenced)) :
    comparedName target.lowerCaseTableNames catalog =
      comparedName target.lowerCaseTableNames target.databaseName := by
  have hmem : { table, foreignKey := readKey (retargeted source target foreignKey) } ∈
      keys ++ addedKeys source target :=
    List.mem_append_right _ (mem_addedKeys.mpr ⟨sourceTable, htable, foreignKey, hkey, hadded, rfl⟩)
  obtain ⟨shown, other, hshown, hinside⟩ := hrestored.references _ hmem
  obtain ⟨parts, rfl, hlocal⟩ := hsource _ htable _ hkey
  have hsql : parts.definition.sql = parts.text := rfl
  rw [hsql, ForeignKeyParts.parseReference_text] at hreference
  obtain ⟨hcatalog, -⟩ := Prod.mk.inj (Option.some.inj hreference)
  have htext : retargeted source target parts.definition =
      (parts.retarget source.databaseName target.databaseName).text := parts.retarget_text _ _
  rw [readKey_sql, htext, ForeignKeyParts.parseReference_text] at hshown
  obtain ⟨rfl, -⟩ := Prod.mk.inj (Option.some.inj hshown)
  apply hinside
  simp [ForeignKeyParts.retarget, hcatalog, hfold]

end Restored

theorem KeyServer.run_views {server : KeyServer} {keys : List OwnedKey}
    (hviews : ∀ statement ∈ statements, server.apply keys statement = some keys) :
    Machine.run server.apply keys statements = some keys := by
  induction statements with
  | nil => rfl
  | cons statement statements ih =>
    obtain ⟨hfirst, hrest⟩ := List.forall_mem_cons.mp hviews
    rw [Machine.run_cons, hfirst]
    exact ih hrest

theorem changes_isSome
    (hcreates : createStatements target (createdTables source target) = .ok creates) :
    ∀ statement ∈ creates ++ otherTableChanges source target,
      statement.changedTable?.isSome = true := by
  intro statement hstatement
  rcases List.mem_append.mp hstatement with hcreate | hother
  · have hmem := List.mem_map_of_mem (f := Statement.changedTable?) hcreate
    rw [changed_createStatements hcreates] at hmem
    obtain ⟨entry, -, hentry⟩ := List.mem_map.mp hmem
    rw [← hentry]
    rfl
  · rcases List.mem_append.mp hother with hdrop | halter
    · obtain ⟨entry, -, rfl⟩ := List.mem_map.mp hdrop
      rfl
    · obtain ⟨entry, -, hentry⟩ := List.mem_flatMap.mp halter
      obtain ⟨change, -, rfl⟩ := List.mem_map.mp hentry
      rfl

theorem run_viewDrops {targetOrder : List (List Char)} {keys : List OwnedKey} :
    Machine.run target.server.apply keys (viewDrops source targetOrder) = some keys := by
  apply KeyServer.run_views
  intro statement hstatement
  obtain ⟨name, -, rfl⟩ := List.mem_map.mp hstatement
  rfl

theorem run_viewUpserts {sourceOrder : List (List Char)} {keys : List OwnedKey} :
    Machine.run target.server.apply keys (viewUpserts source target sourceOrder) = some keys := by
  apply KeyServer.run_views
  intro statement hstatement
  obtain ⟨name, -, hview⟩ := List.mem_flatMap.mp hstatement
  split at hview
  · cases hview
  · extract_lets definition at hview
    split at hview
    · obtain rfl := List.mem_singleton.mp hview
      rfl
    · split_ifs at hview
      · obtain rfl := List.mem_singleton.mp hview
        rfl
      · cases hview

theorem valid_of_statements (hstatements : schemaDiffStatements source target = .ok statements) :
    validateCaseOnlyObjectConflicts source target = .ok () := by
  unfold schemaDiffStatements at hstatements
  split at hstatements
  · cases hstatements
  · rename_i hvalid
    exact hvalid

/-- The script runs to its end unless a key that stays involves a changed table. -/
theorem run_statements {keys : List OwnedKey}
    (hstatements : schemaDiffStatements source target = .ok statements)
    (hsource : source.LocalKeys) (htarget : target.LocalKeys) :
    Machine.run target.server.apply target.keys statements = some keys ↔
      (∀ owned, Stays source target owned → ∀ table ∈ changedTables source target,
        comparedName target.lowerCaseTableNames owned.foreignKey.referencedTable ≠
          comparedName target.lowerCaseTableNames table) ∧
      keys = keptKeys source target ++ addedKeys source target := by
  unfold schemaDiffStatements at hstatements
  split at hstatements
  · cases hstatements
  rename_i hvalid
  split at hstatements
  · cases hstatements
  · cases hstatements
  split at hstatements
  · cases hstatements
  rename_i creates hcreates
  obtain rfl := Except.ok.inj hstatements
  -- the keys are added to those that are kept
  have hadds : Machine.run target.server.apply (keptKeys source target)
      (foreignKeyAdds source target) = some (keptKeys source target ++ addedKeys source target) := by
    rw [foreignKeyAdds_eq]
    apply KeyServer.run_adds
    · intro owned howned
      obtain ⟨sourceTable, htable, foreignKey, hkey, -, hread⟩ := mem_addedKeys.mp howned
      rw [hread, readKey_sql]
      exact (readKey_retargeted hsource htable hkey).1
    · exact nodup_kept_added_keys hvalid hsource htarget
  rw [Machine.run_append, run_viewDrops, Option.bind_some, Machine.run_append, run_foreignKeyDrops,
    Option.bind_some, ← List.append_assoc creates, Machine.run_append, Option.bind_eq_some_iff]
  simp only [KeyServer.run_changes (changes_isSome hcreates)]
  constructor
  · rintro ⟨middle, ⟨rfl, hfree⟩, hrest⟩
    rw [Machine.run_append, hadds, Option.bind_some, run_viewUpserts] at hrest
    refine ⟨fun owned hstays table htable hsame => ?_, (Option.some.inj hrest).symm⟩
    obtain ⟨statement, hstatement, hchanged⟩ := (mem_changedTables hcreates).mp htable
    have hfree := hfree statement hstatement table hchanged owned (mem_keptKeys.mpr hstays)
    rw [(involves_iff hvalid htarget hstays htable).mpr hsame] at hfree
    cases hfree
  · rintro ⟨hspelling, rfl⟩
    refine ⟨keptKeys source target, ⟨rfl, fun statement hstatement table hchanged owned howned => ?_⟩,
      ?_⟩
    · have hstays := mem_keptKeys.mp howned
      have htable := (mem_changedTables hcreates).mpr ⟨statement, hstatement, hchanged⟩
      rw [← Bool.not_eq_true, involves_iff hvalid htarget hstays htable]
      exact hspelling owned hstays table htable
    · rw [Machine.run_append, hadds, Option.bind_some, run_viewUpserts]

/-- The script can be executed and leaves the foreign keys of the source if and only if no
key that it leaves in place names a changed table in another spelling, and no key that it
adds names another database. -/
theorem foreignKeys_safe_iff (source target : SchemaSnapshot) (statements : List Statement)
    (hstatements : schemaDiffStatements source target = .ok statements)
    (hsource : source.LocalKeys) (htarget : target.LocalKeys) :
    (∃ keys, Machine.run target.server.apply target.keys statements = some keys ∧
      Restored source target keys) ↔ SafeKeys source target := by
  simp only [run_statements hstatements hsource htarget]
  constructor
  · rintro ⟨keys, ⟨hspelling, rfl⟩, hrestored⟩
    refine ⟨hspelling, fun hfold table sourceTable htable foreignKey hkey hadded catalog referenced
      hreference => ?_⟩
    exact database_of_restored hsource hrestored htable hkey hadded hfold hreference
  · rintro ⟨hspelling, hdatabase⟩
    refine ⟨_, ⟨hspelling, rfl⟩, ?_⟩
    apply restored_of_database (valid_of_statements hstatements) hsource htarget
    intro table sourceTable htable foreignKey hkey hadded hfold
    exact hdatabase hfold table sourceTable htable foreignKey hkey hadded

end Schemas

/-! ## A parent and a child -/

def parentKey : ForeignKeyParts where
  name := "fk_parent".toList
  columns := ["parent_id".toList]
  catalog := none
  table := "parents".toList
  referencedColumns := ["id".toList]
  onDelete := some .cascade
  onUpdate := none

def parentsTable (idDefinition : String) : SnapshotTable where
  columns := [{ name := "id", sql := idDefinition, comparisonSql := idDefinition }]
  indexes := []
  options := { engine := some "InnoDB", charset := none, collation := none, comment := none }
  columnNames := List.nodup_singleton _
  indexNames := List.nodup_nil
  createSqlWithoutForeignKeys := []
  foreignKeys := []
  foreignKeyNames := List.nodup_nil

def childrenTable : SnapshotTable where
  columns := [{ name := "parent_id", sql := "`parent_id` bigint", comparisonSql := "`parent_id` bigint" }]
  indexes := []
  options := { engine := some "InnoDB", charset := none, collation := none, comment := none }
  columnNames := List.nodup_singleton _
  indexNames := List.nodup_nil
  createSqlWithoutForeignKeys := []
  foreignKeys := [parentKey.definition]
  foreignKeyNames := List.nodup_singleton _

/-- A database on a server that compares names without regard to case. -/
def familySnapshot (databaseName : String) (table : List Char × SnapshotTable)
    (hname : foldText table.1 = "parents".toList) : SchemaSnapshot where
  databaseName := databaseName.toList
  lowerCaseTableNames := 2
  tables := [table, ("children".toList, childrenTable)]
  views := []
  tableNames := by
    have hchildren : "parents".toList ≠ foldText "children".toList := by decide
    simpa [comparedName, hname] using hchildren
  viewNames := List.nodup_nil

theorem familySnapshot_local {databaseName : String} {name : List Char} {idDefinition : String}
    {hname : foldText name = "parents".toList} :
    (familySnapshot databaseName (name, parentsTable idDefinition) hname).LocalKeys := by
  intro entry hentry foreignKey hkey
  simp only [familySnapshot, List.mem_cons, List.not_mem_nil, or_false] at hentry
  rcases hentry with rfl | rfl
  · cases hkey
  · obtain rfl := List.mem_singleton.mp hkey
    exact ⟨parentKey, rfl, nofun⟩

def respelledSource : SchemaSnapshot :=
  familySnapshot "source_db" ("Parents".toList, parentsTable "`id` bigint") (by decide)

def respelledTarget : SchemaSnapshot :=
  familySnapshot "target_db" ("Parents".toList, parentsTable "`id` int") (by decide)

/-- The reference is spelled otherwise than the table, and the key stays while the table is
altered. -/
theorem respelledReference_blocks :
    ∃ statements, schemaDiffStatements respelledSource respelledTarget = .ok statements ∧
      respelledSource.LocalKeys ∧ respelledTarget.LocalKeys ∧
      Machine.run respelledTarget.server.apply respelledTarget.keys statements = none := by
  refine ⟨_, rfl, familySnapshot_local, familySnapshot_local, ?_⟩
  rfl

def spelledSource : SchemaSnapshot :=
  familySnapshot "source_db" ("parents".toList, parentsTable "`id` bigint") (by decide)

def spelledTarget : SchemaSnapshot :=
  familySnapshot "target_db" ("parents".toList, parentsTable "`id` int") (by decide)

/-- With the spelling of the table the key makes way and comes back. -/
theorem spelledReference_restored :
    ∃ statements, schemaDiffStatements spelledSource spelledTarget = .ok statements ∧
      ∃ keys, Machine.run spelledTarget.server.apply spelledTarget.keys statements = some keys ∧
        Restored spelledSource spelledTarget keys := by
  refine ⟨_, rfl, (foreignKeys_safe_iff spelledSource spelledTarget _ rfl familySnapshot_local
    familySnapshot_local).mpr ?_⟩
  have hchanged : "parents".toList ∈ changedTables spelledSource spelledTarget := by decide
  constructor
  · rintro owned ⟨sourceTable, targetTable, hentry, hkey, -, hway⟩
    obtain ⟨-, htable⟩ := mem_existingTables.mp hentry
    have hnever : ∀ foreignKey ∈ targetTable.foreignKeys,
        foreignKey.referencedTable = "parents".toList := by
      simp only [spelledTarget, familySnapshot, List.mem_cons, Prod.mk.injEq, List.not_mem_nil,
        or_false] at htable
      rcases htable with ⟨-, rfl⟩ | ⟨-, rfl⟩
      · nofun
      · intro foreignKey hmem
        rw [List.mem_singleton.mp hmem]
        rfl
    rw [makesWay, hnever _ hkey, decide_eq_true hchanged, Bool.or_true] at hway
    cases hway
  · have hother : foldText spelledSource.databaseName ≠ foldText spelledTarget.databaseName := by
      decide
    intro hsame
    exact absurd hsame hother

end Chat2DB.Schema
