import Chat2DB.Base.Machine
import Chat2DB.Results.Reading

/-! # Runs of the result store

A process opens the store, which recovers it, and then begins, writes, finishes
and removes results. It may crash after any step of an operation; the index is
then as of the last commit, and what was not synced of the files is arbitrary.
-/

namespace Chat2DB.Results

open Stepwise (attempt)

/-- A record of what was written to a result: the schema and batches that were accepted, and the
completion if the result was finished. -/
structure Written where
  id : ResultId
  schema : Wire.QueryStarted
  batches : List Wire.RowBatch
  createdAtMs : Int
  expiresAtMs : Int
  completion : Option Wire.QueryCompleted
deriving DecidableEq

/-- The live writers of a process. `history` has no counterpart in the program. -/
structure Session where
  opened : Bool
  writers : List ResultWriter
  history : List Written
deriving DecidableEq

inductive Operation where
  | openStore (timestampMs : Int)
  | begin (id : ResultId) (schema : Wire.QueryStarted) (retention : Nat) (nowMs quotaMs : Int)
  | append (id : ResultId) (batch : Wire.RowBatch) (quotaMs : Int)
  | finish (id : ResultId) (completed : Wire.QueryCompleted)
  | abort (id : ResultId)
  | purge (timestampMs : Int)
deriving DecidableEq

/-- The clock readings by which an operation decides what has expired. -/
def Operation.clock : Operation → List Int
  | .openStore timestampMs => [timestampMs]
  | .begin _ _ _ _ quotaMs => [quotaMs]
  | .append _ _ quotaMs => [quotaMs]
  | .finish _ _ => []
  | .abort _ => []
  | .purge timestampMs => [timestampMs]

namespace Session

variable (config : StoreConfig) (session : Session)

/-- The results that the process-local lease protects. -/
def activeResults : List ResultId := session.writers.map ResultWriter.id

def findWriter (id : ResultId) : Option ResultWriter :=
  Rows.find ResultWriter.id id session.writers

def dropWriter (id : ResultId) : Session :=
  { session with writers := session.writers.filter fun writer => writer.id ≠ id }

def setWriter (id : ResultId) (change : ResultWriter → ResultWriter) : Session :=
  { session with
    writers := Rows.update (fun writer => decide (writer.id = id)) change session.writers }

def record (id : ResultId) (change : Written → Written) : Session :=
  { session with
    history := Rows.update (fun written => decide (written.id = id)) change session.history }

/-- A failed append poisons its writer. -/
def poison (id : ResultId) : Session :=
  session.setWriter id fun writer => { writer with poisoned := true }

/-- A new writer with its record. -/
def started (writer : ResultWriter) (schema : Wire.QueryStarted) : Session :=
  { session with
    writers := session.writers ++ [writer]
    history := session.history ++
      [{ id := writer.id
         schema
         batches := []
         createdAtMs := writer.createdAtMs
         expiresAtMs := writer.expiresAtMs
         completion := none }] }

def appended (writer : ResultWriter) (batch : Wire.RowBatch) : Session :=
  (session.setWriter writer.id fun _ => writer).record writer.id fun written =>
    { written with batches := written.batches ++ [batch] }

def finished (id : ResultId) (completed : Wire.QueryCompleted) : Session :=
  (session.dropWriter id).record id fun written => { written with completion := some completed }

/-- A UUID is fresh: no result, file or record has it. -/
def Fresh (store : ResultStore) (id : ResultId) : Prop :=
  store.loadStoredResult id = none ∧ store.findFile id = none ∧
    Rows.find Written.id id session.history = none

instance (store : ResultStore) (id : ResultId) : Decidable (session.Fresh store id) :=
  inferInstanceAs (Decidable (_ ∧ _))

/-- An operation needs an open store, and a writer where it uses one. -/
def Enabled (store : ResultStore) : Operation → Prop
  | .openStore _ => session.opened = false
  | .begin id _ _ _ _ => session.opened = true ∧ session.Fresh store id
  | .append id _ _ => session.opened = true ∧ session.findWriter id ≠ none
  | .finish id _ => session.opened = true ∧ session.findWriter id ≠ none
  | .abort id => session.opened = true ∧ session.findWriter id ≠ none
  | .purge _ => session.opened = true

instance (store : ResultStore) : ∀ operation, Decidable (session.Enabled store operation)
  | .openStore _ => inferInstanceAs (Decidable (session.opened = false))
  | .begin id _ _ _ _ => inferInstanceAs (Decidable (session.opened = true ∧ session.Fresh store id))
  | .append id _ _ | .finish id _ | .abort id =>
    inferInstanceAs (Decidable (session.opened = true ∧ session.findWriter id ≠ none))
  | .purge _ => inferInstanceAs (Decidable (session.opened = true))

/-- What an operation does to the store and to the session. Errors go to the caller. -/
def program : Operation → StoreM Session
  | .openStore timestampMs => do
    let recovered ← attempt (recoverAt config timestampMs)
    match recovered with
    | .ok _ => pure { session with opened := true }
    | .error _ => pure session
  | .begin id schema retention nowMs quotaMs => do
    let begun ← attempt
      (beginResult config id schema retention nowMs quotaMs session.activeResults)
    match begun with
    | .ok writer => pure (session.started writer schema)
    | .error _ => pure session
  | .append id batch quotaMs =>
    match session.findWriter id with
    | none => pure session
    | some writer => do
      let appended ← attempt (appendBatch config writer batch quotaMs session.activeResults)
      match appended with
      | .ok next => pure (session.appended next batch)
      | .error _ => pure (session.poison id)
  | .finish id completed =>
    match session.findWriter id with
    | none => pure session
    | some writer => do
      let result ← attempt (finish writer completed)
      match result with
      | .ok _ => pure (session.finished id completed)
      | .error _ => pure (session.dropWriter id)
  | .abort id => do
    deleteResult id
    pure (session.dropWriter id)
  | .purge timestampMs => do
    let _ ← purgeExpiredAt timestampMs session.activeResults
    pure session

end Session

/-! ## Crashes -/

/-- What a crash leaves of the files beside what was synced: bytes behind the synced part of each
file, and files whose directory entry was not synced or whose removal was not. -/
structure CrashImage where
  tails : ResultId → List UInt8
  strays : List (ResultId × List UInt8)

/-- A file as a process finds it when it starts. -/
def ResultFile.settled (id : ResultId) (bytes : List UInt8) : ResultFile :=
  { id, bytes, synced := bytes.length, linked := true }

namespace ResultStore

variable (store : ResultStore)

local instance lawfulResultId : LawfulBEq ResultId := inferInstance

/-- The files whose directory entry is on the disk. -/
def linkedFiles : List ResultFile := store.files.filter ResultFile.linked

def crash (image : CrashImage) : ResultStore :=
  { store with
    files :=
      store.linkedFiles.map (fun file =>
        ResultFile.settled file.id (file.bytes.take file.synced ++ image.tails file.id)) ++
      (image.strays.filter fun stray =>
        decide (stray.1 ∉ store.linkedFiles.map ResultFile.id)).map fun stray =>
          ResultFile.settled stray.1 stray.2 }

end ResultStore

structure StoreState where
  store : ResultStore
  session : Session
deriving DecidableEq

inductive StoreAction where
  | operate (operation : Operation)
  | crash (during : Option Operation) (steps : Nat) (image : CrashImage)

namespace StoreState

variable (config : StoreConfig)

/-- Before the store is opened for the first time. -/
def initial : StoreState :=
  { store := emptyStore, session := { opened := false, writers := [], history := [] } }

/-- The steps that an operation takes from a state. -/
def stepsOf (state : StoreState) (operation : Operation) : List StoreStep :=
  (state.session.program config operation state.store).2

/-- The store after the first steps of an operation, if there is one. -/
def interrupted (state : StoreState) (during : Option Operation) (steps : Nat) : ResultStore :=
  match during with
  | none => state.store
  | some operation =>
    Stepwise.after state.store ((state.stepsOf config operation).take steps)

def step (state : StoreState) : StoreAction → Option StoreState
  | .operate operation =>
    if state.session.Enabled state.store operation then
      match Stepwise.run (state.session.program config operation) state.store with
      | (.ok session, store) => some { store, session }
      | (.error _, _) => none
    else
      none
  | .crash during steps image =>
    if (image.strays.map Prod.fst).Nodup ∧
        ∀ operation ∈ during, state.session.Enabled state.store operation then
      some
        { store := (state.interrupted config during steps).crash image
          session := { state.session with opened := false, writers := [] } }
    else
      none

/-- The state that some actions lead to. -/
def afterActions (actions : List StoreAction) : Option StoreState :=
  Machine.run (step config) initial actions

end StoreState

end Chat2DB.Results
