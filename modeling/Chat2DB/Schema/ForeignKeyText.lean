import Chat2DB.Schema.CatalogText

/-! # The text of a foreign key

The difference compares foreign keys by their text, without the database of a reference
that is the table's own, and writes that database out when a key is added to another one.
-/

namespace Chat2DB.Schema

variable {name : List Char}

inductive SchemaDiffError where
  | metadataInvalid
  | caseConflict
  | viewDependencyCycle
  | resourceLimit
deriving DecidableEq

structure ForeignKeyDefinition where
  name : List Char
  sql : List Char
  referencedTable : List Char
deriving DecidableEq

def referencesKeyword : List Char := "REFERENCES".toList

def trimStart (text : List Char) : List Char := text.dropWhile Text.blank

def stripAsciiPrefix (value start : List Char) : Option (List Char) :=
  if foldText (value.take start.length) = foldText start then some (value.drop start.length) else none

/-- The database of the reference, if there is one, and the table. -/
def parseReference (definition : List Char) : Option (Option (List Char) × List Char) :=
  match findUnquotedKeyword definition referencesKeyword with
  | none => none
  | some rest =>
    match parseQuotedIdentifier (trimStart rest) with
    | none => none
    | some (first, afterFirst) =>
      match trimStart afterFirst with
      | '.' :: afterDot =>
        (parseQuotedIdentifier (trimStart afterDot)).map fun (table, _) => (some first, table)
      | _ => some (none, first)

def parseReferencedTable (definition : List Char) : Option (List Char) :=
  (parseReference definition).map Prod.snd

def parseForeignKeyDefinition (definition : List Char) :
    Except SchemaDiffError (Option ForeignKeyDefinition) :=
  match stripAsciiPrefix definition "CONSTRAINT".toList with
  | none => .ok none
  | some rest =>
    match parseQuotedIdentifier (trimStart rest) with
    | none => .error .metadataInvalid
    | some (name, rest) =>
      match stripAsciiPrefix (trimStart rest) "FOREIGN KEY".toList with
      | none => .ok none
      | some _ =>
        match parseReferencedTable definition with
        | none => .error .metadataInvalid
        | some referencedTable => .ok (some { name, sql := definition, referencedTable })

/-- The definition up to a part of it at its end. -/
def upTo (definition ending : List Char) : List Char :=
  definition.take (definition.length - ending.length)

def retargetForeignKeySql (definition source target : List Char) : List Char :=
  match findUnquotedKeyword definition referencesKeyword with
  | none => Text.trim definition
  | some rest =>
    let table := skipAsciiWhitespace rest
    match parseQuotedIdentifier table with
    | none => Text.trim definition
    | some (_, afterFirst) =>
      if (skipAsciiWhitespace afterFirst).head? = some '.' then
        rewriteQualifiedCatalog definition source target
      else Text.trim (upTo definition table ++ quoteName target ++ '.' :: table)

def canonicalizeForeignKeySql (definition localCatalog : List Char) : List Char :=
  match findUnquotedKeyword definition referencesKeyword with
  | none => Text.trim definition
  | some rest =>
    let table := skipAsciiWhitespace rest
    match parseQuotedIdentifier table with
    | none => Text.trim definition
    | some (catalog, afterFirst) =>
      match skipAsciiWhitespace afterFirst with
      | '.' :: afterDot =>
        let object := skipAsciiWhitespace afterDot
        if foldText catalog = foldText localCatalog ∧ (parseQuotedIdentifier object).isSome then
          Text.trim (upTo definition table ++ object)
        else Text.trim definition
      | _ => Text.trim definition

/-! ## Keys as the server shows them -/

inductive ReferentialAction where
  | restrict
  | cascade
  | setNull
  | noAction
  | setDefault
deriving DecidableEq

def ReferentialAction.text : ReferentialAction → List Char
  | .restrict => "RESTRICT".toList
  | .cascade => "CASCADE".toList
  | .setNull => "SET NULL".toList
  | .noAction => "NO ACTION".toList
  | .setDefault => "SET DEFAULT".toList

/-- What SHOW CREATE TABLE says of a foreign key. -/
structure ForeignKeyParts where
  name : List Char
  columns : List (List Char)
  catalog : Option (List Char)
  table : List Char
  referencedColumns : List (List Char)
  onDelete : Option ReferentialAction
  onUpdate : Option ReferentialAction
deriving DecidableEq

def nameList : List (List Char) → List Char
  | [] => []
  | [name] => quoteName name
  | name :: next :: names => quoteName name ++ (", ".toList ++ nameList (next :: names))

namespace ForeignKeyParts

def front (parts : ForeignKeyParts) : List Char :=
  "CONSTRAINT ".toList ++ (quoteName parts.name ++
    (" FOREIGN KEY (".toList ++ (nameList parts.columns ++ ") REFERENCES ".toList)))

def reference (parts : ForeignKeyParts) : List Char :=
  (parts.catalog.map fun catalog => quoteName catalog ++ ['.']).getD [] ++ quoteName parts.table

def actions (parts : ForeignKeyParts) : List Char :=
  (parts.onDelete.map fun action => " ON DELETE ".toList ++ action.text).getD [] ++
    (parts.onUpdate.map fun action => " ON UPDATE ".toList ++ action.text).getD []

def ending (parts : ForeignKeyParts) : List Char :=
  " (".toList ++ (nameList parts.referencedColumns ++ (")".toList ++ parts.actions))

def text (parts : ForeignKeyParts) : List Char := parts.front ++ (parts.reference ++ parts.ending)

def definition (parts : ForeignKeyParts) : ForeignKeyDefinition where
  name := parts.name
  sql := parts.text
  referencedTable := parts.table

/-- Without the database of the reference where it is the given one. -/
def localTo (parts : ForeignKeyParts) (localCatalog : List Char) : ForeignKeyParts :=
  { parts with catalog := parts.catalog.filter fun catalog => foldText catalog ≠ foldText localCatalog }

/-- With the reference going to the target instead of the source. -/
def retarget (parts : ForeignKeyParts) (source target : List Char) : ForeignKeyParts :=
  { parts with
    catalog := some (match parts.catalog with
      | none => target
      | some catalog =>
        if foldText source ≠ foldText target ∧ foldText catalog = foldText source then target
        else catalog) }

variable (parts : ForeignKeyParts) {rest : List Char}

theorem afterKeyword_nameList {names : List (List Char)} {previous : Option Char}
    (hrest : rest.head? ≠ some backtick) :
    ∃ last, afterKeyword referencesKeyword .plain previous (nameList names ++ rest) =
      afterKeyword referencesKeyword .plain last rest := by
  induction names using nameList.induct generalizing previous with
  | case1 => exact ⟨previous, rfl⟩
  | case2 name =>
    rw [nameList, afterKeyword_quoteName hrest]
    exact ⟨_, rfl⟩
  | case3 name next names ih =>
    simp only [nameList, List.append_assoc]
    rw [afterKeyword_quoteName (head?_ne_backtick (by decide)), afterKeyword_plain (by decide)]
    exact ih

theorem front_append : parts.front ++ rest =
    "CONSTRAINT ".toList ++ (quoteName parts.name ++ (" FOREIGN KEY (".toList ++
      (nameList parts.columns ++ (") ".toList ++ (referencesKeyword ++ ' ' :: rest))))) := by
  have hsplit : ") REFERENCES ".toList = ") ".toList ++ (referencesKeyword ++ [' ']) := by decide
  unfold front
  rw [hsplit, List.append_assoc, List.append_assoc, List.append_assoc, List.append_assoc,
    List.append_assoc, List.append_assoc, List.singleton_append]

theorem findUnquotedKeyword_front :
    findUnquotedKeyword (parts.front ++ rest) referencesKeyword = some (' ' :: rest) := by
  have hconstraint : plainFor referencesKeyword "CONSTRAINT ".toList = true := by decide
  have hforeign : plainFor referencesKeyword " FOREIGN KEY (".toList = true := by decide
  have hclosing : plainFor referencesKeyword ") ".toList = true := by decide
  have hspace : ") ".toList.getLast? = some ' ' := by decide
  have hnames := fun previous => @afterKeyword_nameList
    (") ".toList ++ (referencesKeyword ++ ' ' :: rest)) parts.columns previous
    (head?_ne_backtick (by decide))
  rw [front_append, findUnquotedKeyword, afterKeyword_plain hconstraint,
    afterKeyword_quoteName (head?_ne_backtick (by decide)), afterKeyword_plain hforeign]
  obtain ⟨last, hlast⟩ := hnames _
  rw [hlast, afterKeyword_plain hclosing, hspace, Option.some_or]
  exact afterKeyword_found (by decide) (by decide) (by decide) (by decide)

theorem skip_space {text : List Char} :
    skipAsciiWhitespace (' ' :: text) = skipAsciiWhitespace text := by
  have hspace : asciiWhitespace ' ' = true := by decide
  rw [skipAsciiWhitespace, List.dropWhile_cons_of_pos hspace]
  rfl

theorem skip_quoteName :
    skipAsciiWhitespace (quoteName name ++ rest) = quoteName name ++ rest := by
  have hbacktick : asciiWhitespace backtick = false := by decide
  simp [skipAsciiWhitespace, quoteName, hbacktick]

theorem trimStart_quoteName :
    trimStart (quoteName name ++ rest) = quoteName name ++ rest := by
  have hbacktick : Text.blank backtick = false := by decide
  simp [trimStart, quoteName, hbacktick]

theorem ending_eq : ∃ more, parts.ending = ' ' :: '(' :: more := by
  refine ⟨nameList parts.referencedColumns ++ (")".toList ++ parts.actions), ?_⟩
  have hopen : " (".toList = [' ', '('] := by decide
  unfold ending
  rw [hopen]
  rfl

theorem reference_of_none (hcatalog : parts.catalog = none) :
    parts.reference = quoteName parts.table := by
  simp [reference, hcatalog]

theorem reference_of_some {catalog : List Char} (hcatalog : parts.catalog = some catalog) :
    parts.reference ++ rest = quoteName catalog ++ '.' :: (quoteName parts.table ++ rest) := by
  simp [reference, hcatalog]

theorem trim_text : Text.trim parts.text = parts.text := by
  apply Text.trim_eq_self
  · have hhead : parts.text.head? = some 'C' := by
      unfold text
      rw [front_append]
      rfl
    rw [hhead]
    rintro c ⟨⟩
    decide
  · have hclosing : ((")".toList ++ parts.actions).getLast?.any fun c => !Text.blank c) = true := by
      unfold actions
      rcases parts.onDelete with _ | ⟨⟨⟩⟩ <;> rcases parts.onUpdate with _ | ⟨⟨⟩⟩ <;> decide
    obtain ⟨last, hlast, hblank⟩ := (Option.any_eq_true _ _).mp hclosing
    rw [Bool.not_eq_true'] at hblank
    have hend : parts.text.getLast? = some last := by
      unfold text ending
      rw [List.getLast?_append, List.getLast?_append, List.getLast?_append, List.getLast?_append,
        Option.mem_def.mp hlast, Option.some_or, Option.some_or, Option.some_or, Option.some_or]
    rw [hend]
    rintro c ⟨⟩
    exact hblank

theorem ending_head : parts.ending.head? ≠ some backtick := by
  obtain ⟨more, hmore⟩ := parts.ending_eq
  rw [hmore, List.head?_cons]
  decide

theorem skip_ending : ∃ more, skipAsciiWhitespace parts.ending = '(' :: more := by
  obtain ⟨more, hmore⟩ := parts.ending_eq
  have hopen : asciiWhitespace '(' = false := by decide
  refine ⟨more, ?_⟩
  rw [hmore, skip_space, skipAsciiWhitespace, List.dropWhile_cons_of_neg (by rw [hopen]; decide)]

theorem skip_dot {text : List Char} : skipAsciiWhitespace ('.' :: text) = '.' :: text := by
  have hdot : asciiWhitespace '.' = false := by decide
  rw [skipAsciiWhitespace, List.dropWhile_cons_of_neg (by rw [hdot]; decide)]

theorem upTo_front {text : List Char} : upTo (parts.front ++ text) text = parts.front := by
  simp [upTo]

theorem text_localTo {localCatalog : List Char} :
    (parts.localTo localCatalog).text =
      parts.front ++ ((parts.localTo localCatalog).reference ++ parts.ending) := rfl

/-- The canonical text is that of the key without its own database. -/
theorem canonicalize_text (localCatalog : List Char) :
    canonicalizeForeignKeySql parts.text localCatalog = (parts.localTo localCatalog).text := by
  unfold canonicalizeForeignKeySql
  rw [show parts.text = parts.front ++ (parts.reference ++ parts.ending) from rfl,
    findUnquotedKeyword_front]
  simp only [skip_space]
  cases hcatalog : parts.catalog with
  | none =>
    have hlocal : parts.localTo localCatalog = parts := by
      rw [localTo, hcatalog, Option.filter_none, ← hcatalog]
    obtain ⟨more, hmore⟩ := parts.skip_ending
    rw [reference_of_none parts hcatalog, skip_quoteName,
      parseQuotedIdentifier_quoteName parts.ending_head]
    simp only [hmore]
    rw [hlocal, ← reference_of_none parts hcatalog]
    exact parts.trim_text
  | some catalog =>
    have hdot : ('.' :: (quoteName parts.table ++ parts.ending)).head? ≠ some backtick := by
      rw [List.head?_cons]
      decide
    rw [reference_of_some parts hcatalog, skip_quoteName, parseQuotedIdentifier_quoteName hdot]
    simp only [skip_dot, skip_quoteName, parseQuotedIdentifier_quoteName parts.ending_head,
      Option.isSome_some, and_true]
    by_cases hlocal : foldText catalog = foldText localCatalog
    · have hnone : (parts.localTo localCatalog).catalog = none := by
        simp [localTo, hcatalog, hlocal]
      rw [if_pos hlocal, upTo_front, ← trim_text, text_localTo,
        reference_of_none _ hnone]
      rfl
    · have hsame : parts.localTo localCatalog = parts := by
        rw [localTo, hcatalog, Option.filter_some, if_pos (by simpa using hlocal), ← hcatalog]
      rw [if_neg hlocal, hsame, ← reference_of_some parts hcatalog]
      exact parts.trim_text

theorem trimStart_space {text : List Char} : trimStart (' ' :: text) = trimStart text := by
  have hspace : Text.blank ' ' = true := by decide
  rw [trimStart, List.dropWhile_cons_of_pos hspace]
  rfl

theorem trimStart_ending : ∃ more, trimStart parts.ending = '(' :: more := by
  obtain ⟨more, hmore⟩ := parts.ending_eq
  have hopen : Text.blank '(' = false := by decide
  refine ⟨more, ?_⟩
  rw [hmore, trimStart_space, trimStart, List.dropWhile_cons_of_neg (by rw [hopen]; decide)]

theorem parseReference_text : parseReference parts.text = some (parts.catalog, parts.table) := by
  unfold parseReference
  rw [show parts.text = parts.front ++ (parts.reference ++ parts.ending) from rfl,
    findUnquotedKeyword_front]
  simp only [trimStart_space]
  cases hcatalog : parts.catalog with
  | none =>
    obtain ⟨more, hmore⟩ := parts.trimStart_ending
    rw [reference_of_none parts hcatalog, trimStart_quoteName,
      parseQuotedIdentifier_quoteName parts.ending_head]
    simp only [hmore]
    rfl
  | some catalog =>
    have hdot : ('.' :: (quoteName parts.table ++ parts.ending)).head? ≠ some backtick := by
      rw [List.head?_cons]
      decide
    have htrim : trimStart ('.' :: (quoteName parts.table ++ parts.ending)) =
        '.' :: (quoteName parts.table ++ parts.ending) := by
      rw [trimStart, List.dropWhile_cons_of_neg (by decide)]
    rw [reference_of_some parts hcatalog, trimStart_quoteName, parseQuotedIdentifier_quoteName hdot]
    simp only [htrim, trimStart_quoteName, parseQuotedIdentifier_quoteName parts.ending_head,
      Option.map_some]

theorem stripAsciiPrefix_append (start : List Char) :
    stripAsciiPrefix (start ++ rest) start = some rest := by
  rw [stripAsciiPrefix, List.take_left, if_pos rfl, List.drop_left]

theorem parseForeignKeyDefinition_text :
    parseForeignKeyDefinition parts.text = .ok (some parts.definition) := by
  have hconstraint : "CONSTRAINT ".toList = "CONSTRAINT".toList ++ [' '] := by decide
  have hforeign : " FOREIGN KEY (".toList = ' ' :: ("FOREIGN KEY".toList ++ " (".toList) := by decide
  have hspace : ∀ text : List Char, (' ' :: text).head? ≠ some backtick := by
    intro text
    rw [List.head?_cons]
    decide
  have hletter : ∀ text : List Char,
      trimStart ("FOREIGN KEY".toList ++ text) = "FOREIGN KEY".toList ++ text := fun _ => rfl
  have htext := @front_append parts (parts.reference ++ parts.ending)
  rw [hforeign, hconstraint, List.append_assoc, List.singleton_append, List.cons_append,
    List.append_assoc] at htext
  unfold parseForeignKeyDefinition parseReferencedTable
  rw [parseReference_text, show parts.text = parts.front ++ (parts.reference ++ parts.ending) from rfl,
    htext, stripAsciiPrefix_append]
  simp only [trimStart_space, trimStart_quoteName, parseQuotedIdentifier_quoteName (hspace _),
    hletter, stripAsciiPrefix_append, Option.map_some]
  rw [← htext]
  rfl

/-! ## Retargeting -/

section Retarget

variable {source target : List Char}

theorem rewriteCatalog_name (hrest : rest.head? ≠ some backtick)
    (hdot : (skipAsciiWhitespace rest).head? ≠ some '.') :
    rewriteCatalog source target none (quoteName name ++ rest) =
      quoteName name ++ rewriteCatalog source target none rest := by
  rw [rewriteCatalog_quoteName hrest, if_neg fun hboth => hdot hboth.2]

theorem rewriteCatalog_nameList {names : List (List Char)} (hrest : rest.head? ≠ some backtick)
    (hdot : (skipAsciiWhitespace rest).head? ≠ some '.') :
    rewriteCatalog source target none (nameList names ++ rest) =
      nameList names ++ rewriteCatalog source target none rest := by
  induction names using nameList.induct with
  | case1 => rfl
  | case2 name => exact rewriteCatalog_name hrest hdot
  | case3 name next names ih =>
    unfold nameList
    rw [List.append_assoc, List.append_assoc, rewriteCatalog_name
      (head?_ne_backtick (by decide)) (head?_skip_ne_dot (by decide)),
      rewriteCatalog_plain (by decide), ih, List.append_assoc, List.append_assoc]

theorem actions_plain : (")".toList ++ parts.actions).any isQuote = false := by
  unfold actions
  rcases parts.onDelete with _ | ⟨⟨⟩⟩ <;> rcases parts.onUpdate with _ | ⟨⟨⟩⟩ <;> decide

theorem rewriteCatalog_ending :
    rewriteCatalog source target none parts.ending = parts.ending := by
  have hopen : " (".toList.any isQuote = false := by decide
  have hend := @rewriteCatalog_plain [] source target _ parts.actions_plain
  rw [List.append_nil] at hend
  unfold ending
  rw [rewriteCatalog_plain hopen, rewriteCatalog_nameList
    (head?_ne_backtick (by decide)) (head?_skip_ne_dot (by decide)), hend, rewriteCatalog,
    List.append_nil]

theorem rewriteCatalog_front :
    rewriteCatalog source target none (parts.front ++ rest) =
      parts.front ++ rewriteCatalog source target none rest := by
  have hconstraint : "CONSTRAINT ".toList.any isQuote = false := by decide
  have hforeign : " FOREIGN KEY (".toList.any isQuote = false := by decide
  have hreferences : ") REFERENCES ".toList.any isQuote = false := by decide
  unfold front
  simp only [List.append_assoc]
  rw [rewriteCatalog_plain hconstraint, rewriteCatalog_name (head?_ne_backtick (by decide))
    (head?_skip_ne_dot (by decide)), rewriteCatalog_plain hforeign, rewriteCatalog_nameList
    (head?_ne_backtick (by decide)) (head?_skip_ne_dot (by decide)),
    rewriteCatalog_plain hreferences]

/-- A key is retargeted by its reference alone. -/
theorem retarget_text (source target : List Char) :
    retargetForeignKeySql parts.text source target = (parts.retarget source target).text := by
  have htext : (parts.retarget source target).text =
      parts.front ++ ((parts.retarget source target).reference ++ parts.ending) := rfl
  have htrim := (parts.retarget source target).trim_text
  unfold retargetForeignKeySql
  rw [show parts.text = parts.front ++ (parts.reference ++ parts.ending) from rfl,
    findUnquotedKeyword_front]
  simp only [skip_space]
  -- a reference without a database is qualified, one with it may be moved
  cases hcatalog : parts.catalog with
  | none =>
    have hnew : (parts.retarget source target).catalog = some target := by
      simp [retarget, hcatalog]
    obtain ⟨more, hmore⟩ := parts.skip_ending
    rw [htext, reference_of_some _ hnew] at htrim
    rw [htext, reference_of_some _ hnew, reference_of_none parts hcatalog, skip_quoteName,
      parseQuotedIdentifier_quoteName parts.ending_head]
    simp only [hmore, List.head?_cons]
    rw [if_neg (by decide), upTo_front, List.append_assoc]
    exact htrim
  | some catalog =>
    have hdot : ('.' :: (quoteName parts.table ++ parts.ending)).head? ≠ some backtick := by
      rw [List.head?_cons]
      decide
    rw [reference_of_some parts hcatalog, skip_quoteName, parseQuotedIdentifier_quoteName hdot]
    simp only [skip_dot, List.head?_cons, if_true]
    unfold rewriteQualifiedCatalog
    by_cases hsame : foldText source = foldText target
    · have hkept : parts.retarget source target = parts := by
        have hcase : ¬(foldText source ≠ foldText target ∧ foldText catalog = foldText source) :=
          fun hboth => hboth.1 hsame
        simp only [retarget, hcatalog, if_neg hcase]
        rw [← hcatalog]
      rw [if_pos hsame, hkept, ← reference_of_some parts hcatalog]
      exact parts.trim_text
    · have hnew : (parts.retarget source target).catalog =
          some (if foldText catalog = foldText source then target else catalog) := by
        simp [retarget, hcatalog, hsame]
      have hskip : (skipAsciiWhitespace ('.' :: (quoteName parts.table ++ parts.ending))).head? =
          some '.' := by rw [skip_dot, List.head?_cons]
      obtain ⟨more, hmore⟩ := parts.skip_ending
      have hbehind : (skipAsciiWhitespace parts.ending).head? ≠ some '.' := by
        rw [hmore, List.head?_cons]
        decide
      have htable : rewriteCatalog source target none
          ('.' :: (quoteName parts.table ++ parts.ending)) =
            '.' :: (quoteName parts.table ++ parts.ending) := by
        rw [← List.singleton_append, rewriteCatalog_plain (by decide),
          rewriteCatalog_name parts.ending_head hbehind, rewriteCatalog_ending]
      rw [htext, reference_of_some _ hnew] at htrim
      rw [if_neg hsame, rewriteCatalog_front, rewriteCatalog_quoteName hdot, hskip, htable, htext,
        reference_of_some _ hnew]
      simp only [and_true]
      split_ifs at htrim ⊢ with hown
      · exact htrim
      · exact htrim

end Retarget

end ForeignKeyParts

end Chat2DB.Schema
