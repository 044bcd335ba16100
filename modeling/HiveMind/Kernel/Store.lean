import HiveMind.Kernel.Tables

/-!
# The event store

`appendBatch` is the one way events enter the store. Inside a transaction it looks at every entry
of the batch first. If some entries are stored already, all of them have to be, next to each other,
and the call is a retry that only reads. Otherwise the entries are chained to the last stored event
one after another, and the projections are rebuilt from the first event on, which also checks the
whole log once more.

Readers never trust the log. `readRow` checks a row against its predecessor before it hands the
event on, and every fold over the log goes through it.
-/

open Std (ExtTreeMap)
open Raise

namespace HiveMind

variable [Hash256]

/-! ## The digest of a projection -/

/-- A key that is in the dict only when its value is set. -/
def optionalMember (name : String) : Option String → List (String × Json)
  | some s => [(name, .str s)]
  | none => []

def WorkEntry.toJson (work : WorkEntry) : Json := .obj (
  optionalMember "evaluation_bundle_digest" work.evaluationBundleDigest ++
  optionalMember "evaluation_plan_digest" work.evaluationPlanDigest ++
  [("mission_id", .str work.missionId)] ++
  optionalMember "passed_evaluation_digest" work.passedEvaluationDigest ++
  [("status", .str work.status.value)])

def ProjectionState.toJson (s : ProjectionState) : Json := .obj [
  ("missions", .obj (s.missions.toList.map fun p ↦ (p.1, .str p.2.value))),
  ("work", .obj (s.work.toList.map fun p ↦ (p.1, p.2.toJson)))]

/-- `state_digest`. -/
def stateDigest (s : ProjectionState) : String := jsonDigest s.toJson

/-! ## Reading the log -/

/-- What `_events_locked` does with one row: the payload has to be the text of an object, the fields
have to make an event, and the row has to be linked to its predecessor. -/
def readRow (previous : Option String) (row : EventRow) : Except Exc Event := do
  let some (.obj payload) := Json.loads row.payloadJson
    | throw (kernelIntegrityError "event payload is corrupt")
  if !row.head.isValid then throw (kernelIntegrityError "event payload is corrupt")
  if row.previousDigest ≠ previous then throw (kernelIntegrityError "event chain is corrupt")
  let digest ← row.head.digestFor (.obj payload) previous
  if row.digest ≠ digest then throw (kernelIntegrityError "event chain is corrupt")
  return ⟨row.head, payload⟩

/-- `_events_locked`, run to its end. -/
def readRows (previous : Option String) : List EventRow → Except Exc (List Event)
  | [] => .ok []
  | row :: rows => do
    let e ← readRow previous row
    let es ← readRows (some row.digest) rows
    return e :: es

/-- `except (KeyError, TypeError, ValueError)` around the reducer. -/
def reduceOrFail (s : ProjectionState) (e : Event) : Except Exc ProjectionState :=
  match reduceEvent s e with
  | .ok s' => .ok s'
  | .error err =>
    if err.kind = .keyError ∨ err.kind = .typeError ∨ err.kind = .valueError then
      .error (kernelIntegrityError "event sequence cannot be reduced")
    else .error err

/-- The fold of `_replay_locked` through a sequence, or to the end. Rows are read one at a time,
each after the one before it has been reduced. -/
def replayRows (throughSequence : Option Nat) (s : ProjectionState) (previous : Option String) :
    List EventRow → Except Exc ProjectionState
  | [] => .ok s
  | row :: rows => do
    let e ← readRow previous row
    if throughSequence.any (· < row.sequence) then return s
    let s' ← reduceOrFail s e
    replayRows throughSequence s' (some row.digest) rows

/-- `events`. -/
def events : StoreM (List Event) := do
  let db ← get
  lift (readRows none db.events)

/-- `_replay_locked`. -/
def replayLocked (throughSequence : Option Nat) : StoreM ProjectionState := do
  let db ← get
  lift (replayRows throughSequence emptyState none db.events)

/-! ## Projections -/

/-- `INSERT OR REPLACE` of every mission and work item of the projection. -/
def writeProjection (sequence : Nat) (s : ProjectionState) (db : KernelDb) : KernelDb :=
  { db with
    missionProjection := s.missions.toList.foldl
      (fun t p ↦ t.insert p.1 ⟨p.2, sequence, stateDigest s⟩) db.missionProjection
    workProjection := s.work.toList.foldl
      (fun t p ↦ t.insert p.1 ⟨p.2.missionId, p.2.status, sequence, stateDigest s⟩)
      db.workProjection }

/-- The loop of `_rebuild_locked`. -/
def rebuildRows (s : ProjectionState) (previous : Option String) :
    List EventRow → StoreM ProjectionState
  | [] => pure s
  | row :: rows => do
    let e ← lift (readRow previous row)
    let s' ← lift (reduceOrFail s e)
    modify (writeProjection row.sequence s')
    rebuildRows s' (some row.digest) rows

/-- `_rebuild_locked`. -/
def rebuildLocked : StoreM ProjectionState := do
  modify fun db ↦ { db with missionProjection := ∅, workProjection := ∅ }
  let db ← get
  rebuildRows emptyState none db.events

/-- `projection`. A writable store reads the projection tables, which hold the mission and the
status of a work item and nothing else of it. -/
def projection (readOnly : Bool) : StoreM ProjectionState := do
  if readOnly then replayLocked none
  else do
    let db ← get
    return ⟨db.missionProjection.map fun _ row ↦ row.status,
      db.workProjection.map fun _ row ↦ { missionId := row.missionId, status := row.status }⟩

/-- What `status` returns. The source lists the work items in the order of the projection's dict,
which is not kept here. -/
structure MissionStatus where
  missionId : String
  status : MissionState
  work : ExtTreeMap String WorkState
  lastSequence : Nat
  stateDigest : String

/-- `SELECT COALESCE(MAX(sequence), 0)`. -/
def KernelDb.maxSequence (db : KernelDb) : Nat := (db.events.map EventRow.sequence).foldl max 0

/-- `status`. -/
def status (readOnly : Bool) (missionId : String) : StoreM MissionStatus := do
  let state ← projection readOnly
  let some missionState := state.missions[missionId]?
    | throw (keyError ("unknown kernel mission: " ++ missionId))
  let db ← get
  let work := (state.work.filter fun _ work ↦ work.missionId = missionId).map
    fun _ work ↦ work.status
  return ⟨missionId, missionState, work, db.maxSequence, stateDigest state⟩

/-- `write_snapshot`. -/
def writeSnapshot (readOnly : Bool) : StoreM Nat := do
  requireWritable readOnly
  let state ← projection readOnly
  let db ← get
  let sequence := db.maxSequence
  transaction do
    modify fun db ↦ { db with
      snapshots := db.snapshots.insert sequence ⟨state.toJson.dumps, stateDigest state⟩ }
  return sequence

/-! ## Appending -/

/-- `_stored_event_matches_locked`. The predecessor that the event names is not compared: the digest
is recomputed over the stored one. -/
def storedEventMatches (row : EventRow) (event : KernelEvent) : Except Exc Bool :=
  match Json.loads row.payloadJson with
  | none => .ok false
  | some payload =>
    if row.head = event.toEventHead then do
      let text ← canonicalBytes (.dict event.payload)
      if jsonBytes payload = text then do
        let digest ← event.digestFor row.previousDigest
        return decide (row.digest = digest)
      else return false
    else .ok false

/-- The sequence at which an entry of a batch is stored already, with the same event and key. -/
def existingSequence (db : KernelDb) (event : KernelEvent) (key : Option String) :
    Except Exc (Option Nat) := do
  let bound := key.bind fun k ↦ db.idempotency[k]?
  if bound.any (· ≠ event.eventId) then
    throw (kernelIntegrityError "idempotency key is already bound")
  match db.events.find? (·.head.eventId = event.eventId) with
  | none =>
    if bound.isSome then throw (kernelIntegrityError "idempotency record has no event")
    return none
  | some row =>
    if bound.isNone then throw (kernelIntegrityError "event id is already bound")
    if !(← storedEventMatches row event) then
      throw (kernelIntegrityError "idempotency key is bound to a different event")
    return some row.sequence

/-- One iteration of the insertion loop. -/
def insertEvent (recordedAt : String) (sequence : Nat) (previous : Option String)
    (event : KernelEvent) (key : Option String) : StoreM String := do
  if event.previousDigest ≠ previous then
    throw (kernelIntegrityError "event previous digest does not match batch chain head")
  let digest ← lift (event.digestFor previous)
  let payloadJson ← lift (canonicalBytes (.dict event.payload))
  insertEventRow ⟨sequence, event.toEventHead, recordedAt, payloadJson, previous, digest⟩
  if let some k := key then insertIdempotency k event.eventId
  return digest

def insertEvents (recordedAt : String) (sequence : Nat) (previous : Option String) :
    List (KernelEvent × Option String) → StoreM (List Nat)
  | [] => pure []
  | (event, key) :: batch => do
    let digest ← insertEvent recordedAt (sequence + 1) previous event key
    let inserted ← insertEvents recordedAt (sequence + 1) (some digest) batch
    return (sequence + 1) :: inserted

/-- A batch of which some entries are stored: all of them have to be, next to each other. -/
def retrySequences (batchLength : Nat) (stored : List Nat) : Except Exc (List Nat) := do
  if stored.length ≠ batchLength then
    throw (kernelIntegrityError "partial batch retry is not permitted")
  if stored ≠ List.range' (stored.headD 0) stored.length then
    throw (kernelIntegrityError "idempotent batch events are not contiguous")
  return stored

/-- The transaction of `append_batch`. -/
def appendLocked (batch : List (KernelEvent × Option String)) (expectedSequence : Option Int)
    (recordedAt : String) : StoreM (List Nat) := do
  let db ← get
  let last := db.events.getLast?
  let currentSequence := (last.map EventRow.sequence).getD 0
  if expectedSequence.any (· ≠ (currentSequence : Int)) then
    throw (kernelIntegrityError "optimistic sequence check failed")
  let existing ← lift (batch.mapM fun p ↦ existingSequence db p.1 p.2)
  let stored := existing.filterMap id
  if stored ≠ [] then lift (retrySequences batch.length stored)
  else do
    let inserted ← insertEvents recordedAt currentSequence (last.map EventRow.digest) batch
    let _ ← rebuildLocked
    return inserted

/-- `append_batch`. -/
def appendBatch (readOnly : Bool) (batch : List (KernelEvent × Option String))
    (expectedSequence : Option Int) (recordedAt : String) : StoreM (List Nat) := do
  requireWritable readOnly
  if batch.isEmpty then return []
  if ¬(batch.map (·.1.eventId)).Nodup then
    throw (kernelIntegrityError "batch event ids must be unique")
  if ¬(batch.filterMap Prod.snd).Nodup then
    throw (kernelIntegrityError "batch idempotency keys must be unique")
  transaction (appendLocked batch expectedSequence recordedAt)

/-- `append`. -/
def append (readOnly : Bool) (event : KernelEvent) (expectedSequence : Option Int)
    (recordedAt : String) (key : Option String) : StoreM Nat := do
  let sequences ← appendBatch readOnly [(event, key)] expectedSequence recordedAt
  return sequences.headD 0

end HiveMind
