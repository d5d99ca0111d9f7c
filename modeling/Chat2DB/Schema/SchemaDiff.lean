import Chat2DB.Schema.ForeignKeyText
import Chat2DB.Schema.TableDiff

/-! # The difference of two schemas

The statements that `build_schema_diff` generates: views that are gone, foreign keys that
have to go, the tables, the foreign keys again, and the views. A statement is kept as its
parts; its text is derived from them.
-/

namespace Chat2DB.Schema

/-! ## Snapshots -/

def ForeignKeyDefinition.key (foreignKey : ForeignKeyDefinition) : List Char :=
  foldText foreignKey.name

/-- `parse_table_snapshot` refuses names of foreign keys that are repeated. -/
structure SnapshotTable extends TableSnapshot where
  createSqlWithoutForeignKeys : List Char
  foreignKeys : List ForeignKeyDefinition
  foreignKeyNames : (foreignKeys.map ForeignKeyDefinition.key).Nodup

/-- The name as a server compares it that has this value of `lower_case_table_names`. -/
def comparedName (lowerCaseTableNames : Nat) (name : List Char) : List Char :=
  if lowerCaseTableNames = 0 then name else foldText name

/-- Names that a server takes for the same differ in case at most. -/
theorem foldText_of_comparedName {lowerCaseTableNames : Nat} {first second : List Char}
    (hsame : comparedName lowerCaseTableNames first = comparedName lowerCaseTableNames second) :
    foldText first = foldText second := by
  unfold comparedName at hsame
  split at hsame
  next => exact congrArg foldText hsame
  next => exact hsame

/-- The tables and the views in the order of their names. No server has two tables with
names that it takes for the same. -/
structure SchemaSnapshot where
  databaseName : List Char
  lowerCaseTableNames : Nat
  tables : List (List Char × SnapshotTable)
  views : List (List Char × List Char)
  tableNames : (tables.map fun entry => comparedName lowerCaseTableNames entry.1).Nodup
  viewNames : (views.map Prod.fst).Nodup

namespace SchemaSnapshot

def table? (snapshot : SchemaSnapshot) (name : List Char) : Option SnapshotTable :=
  (snapshot.tables.find? fun entry => entry.1 = name).map Prod.snd

def view? (snapshot : SchemaSnapshot) (name : List Char) : Option (List Char) :=
  (snapshot.views.find? fun entry => entry.1 = name).map Prod.snd

def objectNames (snapshot : SchemaSnapshot) : List (List Char) :=
  snapshot.tables.map Prod.fst ++ snapshot.views.map Prod.fst

end SchemaSnapshot

/-- Names that differ in case only. -/
def caseConflict (left right : List Char) : Bool := left ≠ right && foldText left = foldText right

def hasCollision : List (List Char) → Bool
  | [] => false
  | left :: rest => rest.any (caseConflict left) || hasCollision rest

def validateCaseOnlyObjectConflicts (source target : SchemaSnapshot) : Except SchemaDiffError Unit :=
  if target.lowerCaseTableNames = 0 then .ok ()
  else if hasCollision source.objectNames ||
      source.objectNames.any fun name => target.objectNames.any (caseConflict name) then
    .error .caseConflict
  else .ok ()

/-! ## Views -/

theorem length_skipAsciiWhitespace {text rest : List Char} {c : Char}
    (hskip : skipAsciiWhitespace text = c :: rest) : rest.length < text.length := by
  have hle := (List.dropWhile_suffix asciiWhitespace (l := text)).length_le
  rw [show text.dropWhile asciiWhitespace = c :: rest from hskip] at hle
  exact hle

/-- The objects of the catalog that a definition names. Literals are passed over. -/
def qualifiedCatalogObjects (catalog : List Char) (literal : Option (Char × Bool)) :
    List Char → List (List Char)
  | [] => []
  | c :: rest =>
    match literal with
    | some (delimiter, true) => qualifiedCatalogObjects catalog (some (delimiter, false)) rest
    | some (delimiter, false) =>
      if c = '\\' ∨ c = delimiter ∧ rest.head? = some delimiter then
        qualifiedCatalogObjects catalog (some (delimiter, true)) rest
      else if c = delimiter then qualifiedCatalogObjects catalog none rest
      else qualifiedCatalogObjects catalog literal rest
    | none =>
      if c = '\'' ∨ c = '"' then qualifiedCatalogObjects catalog (some (c, false)) rest
      else if c ≠ backtick then qualifiedCatalogObjects catalog none rest
      else
        match hname : quotedRest rest with
        | none => qualifiedCatalogObjects catalog none rest
        | some (name, after) =>
          have := length_quotedRest hname
          match hdot : skipAsciiWhitespace after with
          | '.' :: afterDot =>
            have := length_skipAsciiWhitespace hdot
            match hopen : skipAsciiWhitespace afterDot with
            | quote :: inner =>
              have := length_skipAsciiWhitespace hopen
              if foldText name = foldText catalog ∧ quote = backtick then
                match hobject : quotedRest inner with
                | some (object, behind) =>
                  have := length_quotedRest hobject
                  object :: qualifiedCatalogObjects catalog none behind
                | none => qualifiedCatalogObjects catalog none after
              else qualifiedCatalogObjects catalog none after
            | [] => qualifiedCatalogObjects catalog none after
          | _ => qualifiedCatalogObjects catalog none after
termination_by text => text.length
decreasing_by
  all_goals
    simp only [List.length_cons] at *
    omega

/-- The views that a definition depends on, each of them once. -/
def viewDependencies (snapshot : SchemaSnapshot) (definition : List Char) : List (List Char) :=
  ((qualifiedCatalogObjects snapshot.databaseName none definition).filterMap fun object =>
    (snapshot.views.map Prod.fst).find? fun candidate =>
      candidate = object ||
        snapshot.lowerCaseTableNames ≠ 0 && foldText candidate = foldText object).dedup

local instance lawfulName : LawfulBEq (List Char) := inferInstance

/-- The views that wait, with the number of views that each of them waits for. -/
structure ViewOrder where
  counts : List (List Char × Nat)
  ready : List (List Char)
  ordered : List (List Char)

/-- The view comes next; those that depend on it wait for one view less. -/
def ViewOrder.pop (snapshot : SchemaSnapshot) (order : ViewOrder) (view : List Char) : ViewOrder :=
  let children := (snapshot.views.filter fun entry =>
    view ∈ viewDependencies snapshot entry.2).map Prod.fst
  let counts := order.counts.map fun entry =>
    if entry.1 ∈ children then (entry.1, entry.2 - 1) else entry
  { counts
    ready := order.ready.erase view ++
      ((counts.filter fun entry => entry.1 ∈ children && entry.2 = 0).map Prod.fst)
    ordered := order.ordered ++ [view] }

/-- The first view that is ready, in the order of the names, until none is; no more views
can become ready than there are. -/
def ViewOrder.run (snapshot : SchemaSnapshot) : Nat → ViewOrder → ViewOrder
  | 0, order => order
  | fuel + 1, order =>
    match (snapshot.views.map Prod.fst).find? fun view => view ∈ order.ready with
    | none => order
    | some view => ViewOrder.run snapshot fuel (order.pop snapshot view)

def topologicallyOrderViews (snapshot : SchemaSnapshot) : Except SchemaDiffError (List (List Char)) :=
  let counts := snapshot.views.map fun entry =>
    (entry.1, (viewDependencies snapshot entry.2).length)
  let order := ViewOrder.run snapshot snapshot.views.length
    { counts
      ready := (counts.filter fun entry => entry.2 = 0).map Prod.fst
      ordered := [] }
  if order.ordered.length ≠ snapshot.views.length then .error .viewDependencyCycle
  else .ok order.ordered

/-! ## Statements -/

inductive Statement where
  | dropView (name : List Char)
  | dropForeignKey (table name : List Char)
  | createTable (table sql : List Char)
  | dropTable (table : List Char)
  | alterTable (table : List Char) (change : TableChange)
  | addForeignKey (table sql : List Char)
  | createView (name definition : List Char)
  | replaceView (name definition : List Char)

def qualifiedName (database name : List Char) : List Char :=
  quoteName database ++ '.' :: quoteName name

/-! ## Tables that both have -/

def findForeignKey (foreignKeys : List ForeignKeyDefinition) (name : List Char) :
    Option ForeignKeyDefinition :=
  foreignKeys.find? fun foreignKey => foldText foreignKey.name = foldText name

section Existing

variable (sourceDatabase targetDatabase : List Char) (source target : SnapshotTable)

/-- The key of the target is not the same in the source. -/
def targetKeyChanged (foreignKey : ForeignKeyDefinition) : Bool :=
  (findForeignKey source.foreignKeys foreignKey.name).map
      (fun other => canonicalizeForeignKeySql other.sql sourceDatabase) ≠
    some (canonicalizeForeignKeySql foreignKey.sql targetDatabase)

/-- The key of the source is not the same in the target. -/
def sourceKeyChanged (foreignKey : ForeignKeyDefinition) : Bool :=
  !(findForeignKey target.foreignKeys foreignKey.name).any fun other =>
    canonicalizeForeignKeySql other.sql targetDatabase =
      canonicalizeForeignKeySql foreignKey.sql sourceDatabase

/-- The statements that two keys of a table get are the same only if the keys are. -/
def pushUnique [DecidableEq α] (values : List α) (value : α) : List α :=
  if value ∈ values then values else values ++ [value]

/-- The names of the keys to drop: those that changed, then those that have to make way. -/
def keyDrops (makesWay : ForeignKeyDefinition → Bool) : List (List Char) :=
  ((target.foreignKeys.filter makesWay).map ForeignKeyDefinition.name).foldl pushUnique
    ((target.foreignKeys.filter (targetKeyChanged sourceDatabase targetDatabase source)).map
      ForeignKeyDefinition.name)

/-- The definitions of the keys to add. -/
def keyAdds (makesWay : ForeignKeyDefinition → Bool) : List (List Char) :=
  let retargeted (foreignKey : ForeignKeyDefinition) :=
    retargetForeignKeySql foreignKey.sql sourceDatabase targetDatabase
  ((source.foreignKeys.filter makesWay).map retargeted).foldl pushUnique
    ((source.foreignKeys.filter (sourceKeyChanged sourceDatabase targetDatabase target)).map
      retargeted)

end Existing

/-! ## The schema -/

def qualifyCreateTableSql (createSql targetDatabase tableName : List Char) :
    Except SchemaDiffError (List Char) :=
  match stripAsciiPrefix (Text.trim createSql) "CREATE TABLE".toList with
  | none => .error .metadataInvalid
  | some rest =>
    match parseQuotedIdentifier (trimStart rest) with
    | none => .error .metadataInvalid
    | some (parsedName, rest) =>
      if foldText parsedName ≠ foldText tableName then .error .metadataInvalid
      else .ok ("CREATE TABLE ".toList ++ qualifiedName targetDatabase tableName ++ rest)

section Schema

variable (source target : SchemaSnapshot)

/-- The tables that both have, with their two snapshots. -/
def existingTables : List (List Char × SnapshotTable × SnapshotTable) :=
  source.tables.filterMap fun entry =>
    (target.table? entry.1).map fun targetTable => (entry.1, entry.2, targetTable)

def createdTables : List (List Char × SnapshotTable) :=
  source.tables.filter fun entry => (target.table? entry.1).isNone

def removedTables : List (List Char × SnapshotTable) :=
  target.tables.filter fun entry => (source.table? entry.1).isNone

def changedTables : List (List Char) :=
  (createdTables source target).map Prod.fst ++ (removedTables source target).map Prod.fst ++
    ((existingTables source target).filter fun entry =>
      diffExistingTable entry.2.1.toTableSnapshot entry.2.2.toTableSnapshot ≠ []).map Prod.fst

/-- A key makes way if its table changes, or the one it references. -/
def makesWay (table : List Char) (foreignKey : ForeignKeyDefinition) : Bool :=
  table ∈ changedTables source target || foreignKey.referencedTable ∈ changedTables source target

def existingKeyDrops (entry : List Char × SnapshotTable × SnapshotTable) : List Statement :=
  (keyDrops source.databaseName target.databaseName entry.2.1 entry.2.2
    (makesWay source target entry.1)).map (.dropForeignKey entry.1)

def existingKeyAdds (entry : List Char × SnapshotTable × SnapshotTable) : List Statement :=
  (keyAdds source.databaseName target.databaseName entry.2.1 entry.2.2
    (makesWay source target entry.1)).map (.addForeignKey entry.1)

def dropAllForeignKeys (entry : List Char × SnapshotTable) : List Statement :=
  entry.2.foreignKeys.map fun foreignKey => .dropForeignKey entry.1 foreignKey.name

def addAllForeignKeys (entry : List Char × SnapshotTable) : List Statement :=
  entry.2.foreignKeys.map fun foreignKey => .addForeignKey entry.1
    (retargetForeignKeySql foreignKey.sql source.databaseName target.databaseName)

def foreignKeyDrops : List Statement :=
  (removedTables source target).flatMap dropAllForeignKeys ++
    (existingTables source target).flatMap (existingKeyDrops source target)

def createStatements : List (List Char × SnapshotTable) → Except SchemaDiffError (List Statement)
  | [] => .ok []
  | entry :: rest =>
    match qualifyCreateTableSql entry.2.createSqlWithoutForeignKeys target.databaseName entry.1 with
    | .error error => .error error
    | .ok sql =>
      match createStatements rest with
      | .error error => .error error
      | .ok statements => .ok (.createTable entry.1 sql :: statements)

/-- What becomes of tables after those were created that are missing. -/
def otherTableChanges : List Statement :=
  ((removedTables source target).map fun entry => .dropTable entry.1) ++
    (existingTables source target).flatMap fun entry =>
      (diffExistingTable entry.2.1.toTableSnapshot entry.2.2.toTableSnapshot).map
        (.alterTable entry.1)

def foreignKeyAdds : List Statement :=
  (createdTables source target).flatMap (addAllForeignKeys source target) ++
    (existingTables source target).flatMap (existingKeyAdds source target)

def viewDrops (targetOrder : List (List Char)) : List Statement :=
  (targetOrder.reverse.filter fun name => (source.view? name).isNone).map .dropView

def viewUpserts (sourceOrder : List (List Char)) : List Statement :=
  sourceOrder.flatMap fun name =>
    match source.view? name with
    | none => []
    | some sourceDefinition =>
      let definition :=
        rewriteQualifiedCatalog sourceDefinition source.databaseName target.databaseName
      match target.view? name with
      | none => [.createView name definition]
      | some targetDefinition =>
        if Text.trim targetDefinition ≠ definition then [.replaceView name definition] else []

/-- The statements of `build_schema_diff`, in their order. -/
def schemaDiffStatements : Except SchemaDiffError (List Statement) :=
  match validateCaseOnlyObjectConflicts source target with
  | .error error => .error error
  | .ok () =>
    match topologicallyOrderViews source, topologicallyOrderViews target with
    | .error error, _ => .error error
    | _, .error error => .error error
    | .ok sourceOrder, .ok targetOrder =>
      match createStatements target (createdTables source target) with
      | .error error => .error error
      | .ok creates =>
        .ok (viewDrops source targetOrder ++ (foreignKeyDrops source target ++
          (creates ++ (otherTableChanges source target ++
            (foreignKeyAdds source target ++ viewUpserts source target sourceOrder)))))

end Schema

/-! ## What the statements mean to foreign keys -/

/-- A foreign key with the table that it belongs to. -/
structure OwnedKey where
  table : List Char
  foreignKey : ForeignKeyDefinition
deriving DecidableEq

/-- The server and the database on which the statements are executed. -/
structure KeyServer where
  lowerCaseTableNames : Nat
  databaseName : List Char

namespace KeyServer

variable (server : KeyServer)

def key (owned : OwnedKey) : List Char × List Char :=
  (comparedName server.lowerCaseTableNames owned.table, owned.foreignKey.key)

/-- The reference goes to a table of the database. -/
def refersTo (owned : OwnedKey) (table : List Char) : Bool :=
  (parseReference owned.foreignKey.sql).any fun (catalog, referenced) =>
    (catalog.all fun catalog => comparedName server.lowerCaseTableNames catalog =
      comparedName server.lowerCaseTableNames server.databaseName) &&
      comparedName server.lowerCaseTableNames referenced =
        comparedName server.lowerCaseTableNames table

/-- The key belongs to the table or references it. -/
def involves (table : List Char) (owned : OwnedKey) : Bool :=
  comparedName server.lowerCaseTableNames owned.table =
      comparedName server.lowerCaseTableNames table ||
    server.refersTo owned table

/-- A key that is dropped has to be there, one that is added must not be, and no key may
involve a table that is created, altered or dropped. -/
def apply (keys : List OwnedKey) : Statement → Option (List OwnedKey)
  | .dropForeignKey table name =>
    let dropped := (comparedName server.lowerCaseTableNames table, foldText name)
    if dropped ∈ keys.map server.key then some (Placement.without server.key dropped keys)
    else none
  | .addForeignKey table sql =>
    match parseForeignKeyDefinition sql with
    | .ok (some foreignKey) =>
      let added : OwnedKey := { table, foreignKey }
      if server.key added ∈ keys.map server.key then none else some (keys ++ [added])
    | _ => none
  | .createTable table _ | .dropTable table | .alterTable table _ =>
    if keys.any (server.involves table) then none else some keys
  | .dropView _ | .createView _ _ | .replaceView _ _ => some keys

end KeyServer

def SchemaSnapshot.server (snapshot : SchemaSnapshot) : KeyServer :=
  { lowerCaseTableNames := snapshot.lowerCaseTableNames, databaseName := snapshot.databaseName }

def SchemaSnapshot.keys (snapshot : SchemaSnapshot) : List OwnedKey :=
  snapshot.tables.flatMap fun entry =>
    entry.2.foreignKeys.map fun foreignKey => { table := entry.1, foreignKey }

end Chat2DB.Schema
