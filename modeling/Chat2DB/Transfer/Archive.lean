import Chat2DB.Transfer.Tabular

/-! # Archives of tables

A table of an export of several tables gets a file of its own in a temporary directory.
The files go into an archive after the last of them. A file is named after its table,
with other characters than letters, digits, `-` and `_` replaced.
-/

namespace Chat2DB.Transfer

open Outcome
open Sql (AppError)

variable {c : Char} {table : List Char}

/-- `char::is_alphanumeric`, which is the usual one for ASCII. -/
structure CharClasses where
  isAlphanumeric : Char → Bool
  isAlphanumeric_ascii : ∀ c, c.toNat < 128 → isAlphanumeric c = c.isAlphanum

def asciiIsAlphanumeric (c : Char) : Bool := decide (c.toNat < 128) && c.isAlphanum

theorem asciiIsAlphanumeric_ascii (c : Char) (h : c.toNat < 128) :
    asciiIsAlphanumeric c = c.isAlphanum := by
  rw [asciiIsAlphanumeric, decide_eq_true h, Bool.true_and]

/-- Without letters outside of ASCII. -/
def CharClasses.ascii : CharClasses where
  isAlphanumeric := asciiIsAlphanumeric
  isAlphanumeric_ascii := asciiIsAlphanumeric_ascii

variable (classes : CharClasses)

def stemChar (c : Char) : Char :=
  if classes.isAlphanumeric c ∨ c = '-' ∨ c = '_' then c else '_'

def safeFileStem (value : List Char) : List Char :=
  let output := (value.map (stemChar classes)).take 128
  if output = [] then "mysql_export".toList else output

def exportFileError : AppError :=
  { kind := .unavailable
    code := "transfer_file_write_failed"
    message := "The export file could not be written" }

def zipError : AppError :=
  { kind := .unavailable
    code := "transfer_archive_failed"
    message := "The export archive could not be written" }

local instance lawfulFileName : LawfulBEq (List Char) := inferInstance

/-- Files, or entries, by their names. -/
abbrev Files := List (List Char × List UInt8)

/-- A new file, with `create_new(true)`. -/
def createNew (files : Files) (name : List Char) (data : List UInt8) : Except AppError Files := do
  rejectIf (name ∈ files.map Prod.fst) exportFileError
  return files ++ [(name, data)]

def entryName (extension table : List Char) : List Char :=
  safeFileStem classes table ++ '.' :: extension

def prepareTable (extension : List Char) (content : List Char → List UInt8)
    (prepared : Files × List (List Char)) (table : List Char) :
    Except AppError (Files × List (List Char)) := do
  let name := entryName classes extension table
  let directory ← createNew prepared.1 name (content table)
  return (directory, prepared.2 ++ [name])

/-- A second entry of a name is an error of the archive. -/
def addEntry (directory zip : Files) (name : List Char) : Except AppError Files := do
  rejectIf (name ∈ zip.map Prod.fst) zipError
  let data ← orThrow (directory.lookup name) exportFileError
  return zip ++ [(name, data)]

def writeZipEntries (directory : Files) (paths : List (List Char)) : Except AppError Files :=
  paths.foldlM (addEntry directory) []

/-- `content` is what is written for a table. -/
def writeZip (extension : List Char) (content : List Char → List UInt8)
    (tableNames : List (List Char)) : Except AppError Files := do
  let prepared ← tableNames.foldlM (prepareTable classes extension content) ([], [])
  writeZipEntries prepared.1 prepared.2

def writeTabularZip (format : TransferFileFormat) (content : List Char → List UInt8)
    (tableNames : List (List Char)) : Except AppError Files :=
  writeZip classes format.extension content tableNames

def writeSqlZip (content : List Char → List UInt8) (tableNames : List (List Char)) :
    Except AppError Files :=
  writeZip classes "sql".toList content tableNames

/-! ## Names -/

/-- A character that is not replaced, and that no other one is replaced by. -/
def Distinctive (c : Char) : Prop := classes.isAlphanumeric c = true ∨ c = '-'

instance (c : Char) : Decidable (Distinctive classes c) :=
  inferInstanceAs (Decidable (_ ∨ _))

/-- The name that a file is named after. -/
def namedAfter (table : List Char) : List Char :=
  if table = [] then "mysql_export".toList else table.take 128

/-- The names agree up to characters that are not distinctive. -/
def Alike (first second : List Char) : Prop :=
  List.Forall₂ (fun c d => c = d ∨ ¬ Distinctive classes c ∧ ¬ Distinctive classes d)
    (namedAfter first) (namedAfter second)

variable {classes}

theorem stemChar_eq_self (h : Distinctive classes c) : stemChar classes c = c := by
  apply if_pos
  rcases h with h | h
  · exact .inl h
  · exact .inr (.inl h)

theorem stemChar_eq_underscore (h : ¬ Distinctive classes c) :
    stemChar classes c = '_' := by
  rw [Distinctive, not_or] at h
  rw [stemChar]
  split
  next hkept =>
    rcases hkept with hkept | hkept | hkept
    · exact absurd hkept h.1
    · exact absurd hkept h.2
    · exact hkept
  next => rfl

theorem not_distinctive_underscore : ¬ Distinctive classes '_' := by
  rintro (h | h)
  · rw [classes.isAlphanumeric_ascii '_' (by decide)] at h
    exact absurd h (by decide)
  · exact absurd h (by decide)

/-- Two characters become one exactly if they are one, or neither is distinctive. -/
theorem stemChar_eq_iff (c d : Char) :
    stemChar classes c = stemChar classes d ↔
      c = d ∨ ¬ Distinctive classes c ∧ ¬ Distinctive classes d := by
  by_cases hc : Distinctive classes c <;> by_cases hd : Distinctive classes d
  · simp [stemChar_eq_self hc, stemChar_eq_self hd, hc]
  · have hne : c ≠ '_' := fun h => not_distinctive_underscore (h ▸ hc)
    have hcd : c ≠ d := fun h => hd (h ▸ hc)
    simp [stemChar_eq_self hc, stemChar_eq_underscore hd, hc, hne, hcd]
  · have hne : '_' ≠ d := fun h => not_distinctive_underscore (h ▸ hd)
    have hcd : c ≠ d := fun h => hc (h ▸ hd)
    simp [stemChar_eq_underscore hc, stemChar_eq_self hd, hd, hne, hcd]
  · simp [stemChar_eq_underscore hc, stemChar_eq_underscore hd, hc, hd]

/-- The stem of a file, character by character. -/
theorem safeFileStem_eq (table : List Char) :
    safeFileStem classes table = (namedAfter table).map (stemChar classes) := by
  have hdefault : "mysql_export".toList.map (stemChar classes) = "mysql_export".toList := by
    refine Eq.trans (List.map_congr_left fun c hc => ?_) (List.map_id _)
    by_cases hunderscore : c = '_'
    · rw [hunderscore]
      exact stemChar_eq_underscore not_distinctive_underscore
    · apply stemChar_eq_self
      have hplain : ("mysql_export".toList.all fun d =>
          d = '_' || decide (d.toNat < 128) && d.isAlphanum) = true := by
        decide
      have hletter := List.all_eq_true.1 hplain c hc
      simp only [hunderscore, decide_false, Bool.false_or, Bool.and_eq_true,
        decide_eq_true_eq] at hletter
      obtain ⟨hascii, halnum⟩ := hletter
      rw [Distinctive, classes.isAlphanumeric_ascii c hascii]
      exact .inl halnum
  rw [safeFileStem, namedAfter]
  cases table with
  | nil => rw [if_pos rfl, hdefault]; rfl
  | cons c table => rw [if_neg (by simp), if_neg (by simp), List.map_take]

theorem safeFileStem_eq_iff (first second : List Char) :
    safeFileStem classes first = safeFileStem classes second ↔ Alike classes first second := by
  rw [safeFileStem_eq, safeFileStem_eq, Alike, ← List.forall₂_eq_eq_eq]
  rw [List.forall₂_map_left_iff, List.forall₂_map_right_iff]
  simp only [stemChar_eq_iff]

/-- Two tables get one name exactly if they are alike. -/
theorem entryName_eq_iff {extension first second : List Char} :
    entryName classes extension first = entryName classes extension second ↔
      Alike classes first second := by
  rw [entryName, entryName, List.append_left_inj, safeFileStem_eq_iff]

theorem mem_safeFileStem (h : c ∈ safeFileStem classes table) :
    c = '_' ∨ Distinctive classes c := by
  rw [safeFileStem_eq, List.mem_map] at h
  obtain ⟨d, -, rfl⟩ := h
  by_cases hd : Distinctive classes d
  · rw [stemChar_eq_self hd]
    exact .inr hd
  · exact .inl (stemChar_eq_underscore hd)

theorem not_mem_safeFileStem (hascii : c.toNat < 128)
    (hplain : c.isAlphanum = false) (hdash : c ≠ '-') (hunderscore : c ≠ '_') :
    c ∉ safeFileStem classes table := by
  intro h
  rcases mem_safeFileStem h with h | h | h
  · exact hunderscore h
  · rw [classes.isAlphanumeric_ascii c hascii, hplain] at h
    exact absurd h (by decide)
  · exact hdash h

/-! ## Archives -/

/-- A name inside of the directory that it is put in. -/
structure Inside (name : List Char) : Prop where
  no_slash : '/' ∉ name
  no_backslash : '\\' ∉ name
  no_parent : ¬ "..".toList <:+: name

/-- One entry a table, with what was written for the table. -/
structure Archived (content : List Char → List UInt8)
    (tableNames : List (List Char)) (archive : Files) : Prop where
  entries : List.Forall₂ (fun table entry => entry.2 = content table) tableNames archive
  nodup : (archive.map Prod.fst).Nodup
  inside : ∀ entry ∈ archive, Inside entry.1

/-- The name of an entry leads to no other directory. -/
theorem inside_entryName (format : TransferFileFormat) (table : List Char) :
    Inside (entryName classes format.extension table) := by
  have hextension : '/' ∉ '.' :: format.extension ∧ '\\' ∉ '.' :: format.extension ∧
      '.' ∉ format.extension := by
    cases format <;> decide
  obtain ⟨hslash, hbackslash, hdot⟩ := hextension
  constructor
  · rw [entryName, List.mem_append, not_or]
    exact ⟨not_mem_safeFileStem (by decide) (by decide) (by decide) (by decide), hslash⟩
  · rw [entryName, List.mem_append, not_or]
    exact ⟨not_mem_safeFileStem (by decide) (by decide) (by decide) (by decide), hbackslash⟩
  · intro hparent
    have hcount := hparent.sublist.count_le '.'
    have hstem : (safeFileStem classes table).count '.' = 0 :=
      List.count_eq_zero.2 (not_mem_safeFileStem (by decide) (by decide) (by decide) (by decide))
    have htail : format.extension.count '.' = 0 := List.count_eq_zero.2 hdot
    rw [entryName, List.count_append, hstem, List.count_cons_self, htail] at hcount
    exact absurd hcount (by decide)

variable {extension : List Char} {content : List Char → List UInt8} {tables : List (List Char)}

/-- The files of tables. -/
def tableFiles (classes : CharClasses) (extension : List Char) (content : List Char → List UInt8)
    (tables : List (List Char)) : Files :=
  tables.map fun table => (entryName classes extension table, content table)

theorem map_fst_tableFiles :
    (tableFiles classes extension content tables).map Prod.fst =
      tables.map (entryName classes extension) := by
  rw [tableFiles, List.map_map]
  rfl

theorem tableFiles_concat {before : List (List Char)} :
    tableFiles classes extension content (before ++ [table]) =
      tableFiles classes extension content before ++
        [(entryName classes extension table, content table)] := by
  rw [tableFiles, List.map_append]
  rfl

/-- The tables are prepared if and only if none of them has the file of one before it. -/
theorem foldlM_prepareTable_iff {before : List (List Char)} {prepared : Files × List (List Char)}
    (hbefore : (before.map (entryName classes extension)).Nodup) :
    tables.foldlM (prepareTable classes extension content)
        (tableFiles classes extension content before, before.map (entryName classes extension)) =
          .ok prepared ↔
      ((before ++ tables).map (entryName classes extension)).Nodup ∧
        prepared = (tableFiles classes extension content (before ++ tables),
          (before ++ tables).map (entryName classes extension)) := by
  induction tables generalizing before with
  | nil =>
    rw [List.foldlM_nil, pure_eq_ok, List.append_nil, and_iff_right hbefore]
    exact eq_comm
  | cons table rest ih =>
    have hpaths : before.map (entryName classes extension) ++ [entryName classes extension table] =
        (before ++ [table]).map (entryName classes extension) := by
      rw [List.map_append]
      rfl
    rw [List.foldlM_cons, bind_eq_ok, List.append_cons]
    -- a name that is taken is refused by the file system
    by_cases hfresh : entryName classes extension table ∈
        (tableFiles classes extension content before).map Prod.fst
    · constructor
      · rintro ⟨_, hstep, -⟩
        obtain ⟨_, hcreate, -⟩ := (bind_eq_ok _ _ _).1 hstep
        obtain ⟨⟨⟩, hreject, -⟩ := (bind_eq_ok _ _ _).1 hcreate
        exact absurd hfresh ((rejectIf_eq_ok _ _ ()).1 hreject)
      · rintro ⟨hnodup, -⟩
        rw [List.map_append, ← hpaths, List.append_assoc] at hnodup
        rw [map_fst_tableFiles] at hfresh
        have hdisjoint := (List.nodup_append.1 hnodup).2.2
        exact absurd rfl (hdisjoint _ hfresh _ List.mem_cons_self)
    · have hstep : prepareTable classes extension content
          (tableFiles classes extension content before, before.map (entryName classes extension))
          table = .ok (tableFiles classes extension content (before ++ [table]),
            (before ++ [table]).map (entryName classes extension)) := by
        rw [prepareTable]
        dsimp only
        rw [createNew, (rejectIf_eq_ok _ _ ()).2 hfresh, tableFiles_concat, ← hpaths]
        rfl
      have hnodup : ((before ++ [table]).map (entryName classes extension)).Nodup := by
        rw [← hpaths, ← List.concat_eq_append, List.nodup_concat]
        rw [map_fst_tableFiles] at hfresh
        exact ⟨hfresh, hbefore⟩
      rw [← ih hnodup]
      constructor
      · rintro ⟨next, hnextStep, hrest⟩
        rw [hstep] at hnextStep
        rwa [← Except.ok.inj hnextStep] at hrest
      · exact fun hrest => ⟨_, hstep, hrest⟩

/-- With distinct names every table finds its own file. -/
theorem lookup_tableFiles
    (hnodup : (tables.map (entryName classes extension)).Nodup) (htable : table ∈ tables) :
    (tableFiles classes extension content tables).lookup (entryName classes extension table) =
      some (content table) := by
  induction tables with
  | nil => cases htable
  | cons first rest ih =>
    rw [List.map_cons, List.nodup_cons] at hnodup
    rw [tableFiles, List.map_cons]
    rcases List.mem_cons.1 htable with rfl | hrest
    · exact List.lookup_cons_self
    · have hne : (entryName classes extension table == entryName classes extension first) = false := by
        rw [beq_eq_false_iff_ne]
        intro hsame
        exact hnodup.1 (hsame ▸ List.mem_map_of_mem hrest)
      rw [List.lookup_cons, hne]
      exact ih hnodup.2 hrest

/-- With distinct names every entry is added, and each of them in its turn. -/
theorem foldlM_addEntry {before : List (List Char)}
    (hnodup : ((before ++ tables).map (entryName classes extension)).Nodup) :
    (tables.map (entryName classes extension)).foldlM
        (addEntry (tableFiles classes extension content (before ++ tables)))
        (tableFiles classes extension content before) =
      .ok (tableFiles classes extension content (before ++ tables)) := by
  induction tables generalizing before with
  | nil => rw [List.append_nil]; rfl
  | cons table rest ih =>
    have hfresh : entryName classes extension table ∉
        (tableFiles classes extension content before).map Prod.fst := by
      rw [map_fst_tableFiles]
      intro hmem
      rw [List.map_append] at hnodup
      exact (List.nodup_append.1 hnodup).2.2 _ hmem _ List.mem_cons_self rfl
    rw [List.map_cons, List.foldlM_cons, addEntry, (rejectIf_eq_ok _ _ ()).2 hfresh, ok_bind,
      lookup_tableFiles hnodup (by simp)]
    rw [List.append_cons] at hnodup ⊢
    rw [orThrow, ok_bind, ← tableFiles_concat]
    exact ih hnodup

/-- An archive is written exactly if no two entries have one name. -/
theorem writeZip_eq_ok_iff {archive : Files} :
    writeZip classes extension content tables = .ok archive ↔
      (tables.map (entryName classes extension)).Nodup ∧
        archive = tableFiles classes extension content tables := by
  rw [writeZip, bind_eq_ok]
  have hprepared := @foldlM_prepareTable_iff classes extension content tables []
  constructor
  · rintro ⟨prepared, hprepare, hentries⟩
    obtain ⟨hnodup, rfl⟩ := (hprepared List.nodup_nil).1 hprepare
    have hall := @foldlM_addEntry classes extension content tables [] hnodup
    exact ⟨hnodup, (Except.ok.inj (hall.symm.trans hentries)).symm⟩
  · rintro ⟨hnodup, rfl⟩
    exact ⟨_, (hprepared List.nodup_nil).2 ⟨hnodup, rfl⟩,
      @foldlM_addEntry classes extension content tables [] hnodup⟩

theorem nodup_entryName_iff :
    (tables.map (entryName classes extension)).Nodup ↔
      tables.Pairwise fun first second => ¬ Alike classes first second := by
  rw [List.Nodup, List.pairwise_map]
  simp only [ne_eq, entryName_eq_iff]

theorem archived_tableFiles {format : TransferFileFormat}
    (hnodup : (tables.map (entryName classes format.extension)).Nodup) :
    Archived content tables (tableFiles classes format.extension content tables) := by
  constructor
  · rw [tableFiles, List.forall₂_map_right_iff, List.forall₂_same]
    exact fun _ _ => rfl
  · rwa [map_fst_tableFiles]
  · intro entry hentry
    obtain ⟨table, -, rfl⟩ := List.mem_map.1 hentry
    exact inside_entryName format table

/-- An archive has its entries if and only if no two of the tables have names that are
alike, in SQL and in the other formats. -/
theorem writeZip_archived_iff (classes : CharClasses) (content : List Char → List UInt8)
    (tables : List (List Char)) :
    ((∃ archive, writeSqlZip classes content tables = .ok archive ∧
          Archived content tables archive) ↔
        tables.Pairwise fun first second => ¬ Alike classes first second) ∧
      ∀ format, (∃ archive, writeTabularZip classes format content tables = .ok archive ∧
          Archived content tables archive) ↔
        tables.Pairwise fun first second => ¬ Alike classes first second := by
  have hformat : ∀ format : TransferFileFormat,
      (∃ archive, writeZip classes format.extension content tables = .ok archive ∧
          Archived content tables archive) ↔
        tables.Pairwise fun first second => ¬ Alike classes first second := by
    intro format
    rw [← @nodup_entryName_iff classes format.extension tables]
    constructor
    · rintro ⟨archive, hwrite, -⟩
      exact (writeZip_eq_ok_iff.1 hwrite).1
    · exact fun hnodup => ⟨_, writeZip_eq_ok_iff.2 ⟨hnodup, rfl⟩, archived_tableFiles hnodup⟩
  exact ⟨hformat .sql, hformat⟩

/-- A space and `_` are the same in the name of a file. -/
theorem orderItems_collide :
    ["order items".toList, "order_items".toList].Nodup ∧
      writeSqlZip .ascii (fun _ => []) ["order items".toList, "order_items".toList] =
        .error exportFileError ∧
      writeTabularZip .ascii .csv (fun _ => []) ["order items".toList, "order_items".toList] =
        .error exportFileError := by
  decide +kernel

end Chat2DB.Transfer
