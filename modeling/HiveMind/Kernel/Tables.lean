import HiveMind.Kernel.Projection

/-!
# The tables of the kernel database

A database is a record of its tables. Tables whose rows are only ever found by their primary key are
finite maps; the event log, the outbox and the two append-only effect tables are lists, in the order
in which their rows were inserted. A `status` or `state` column holds a member of the enumeration
whose values the code writes there.

Store code runs in `StoreM`, where an exception keeps what was written before it. Only
`Raise.transaction`, the `with connection` of the source, takes it back.
-/

open Std (ExtTreeMap)
open Raise

namespace HiveMind

/-! ## Rows -/

/-- A row of `events`. -/
structure EventRow where
  sequence : Nat
  head : EventHead
  recordedAt : String
  payloadJson : String
  previousDigest : Option String
  digest : String
  deriving DecidableEq

/-- A row of `mission_projection`, apart from its key. -/
structure MissionRow where
  status : MissionState
  lastSequence : Nat
  stateDigest : String
  deriving DecidableEq

/-- A row of `work_projection`, apart from its key. -/
structure WorkRow where
  missionId : String
  status : WorkState
  lastSequence : Nat
  stateDigest : String
  deriving DecidableEq

/-- A row of `snapshots`, apart from its key. -/
structure SnapshotRow where
  stateJson : String
  stateDigest : String
  deriving DecidableEq

inductive EffectState where
  | pending
  | executing
  | receiptRecorded
  | reconciliationRequired
  deriving DecidableEq, Repr

def EffectState.value : EffectState → String
  | pending => "pending"
  | executing => "executing"
  | receiptRecorded => "receipt_recorded"
  | reconciliationRequired => "reconciliation_required"

/-- A row of `effect_outbox`. -/
structure OutboxRow where
  idempotencyKey : String
  intentDigest : String
  intentJson : String
  state : EffectState
  attemptCount : Nat
  lastError : Option String
  reconciliationReason : Option String
  receiptDigest : Option String
  createdAt : String
  updatedAt : String
  deriving DecidableEq

/-- A row of `effect_receipts`. -/
structure ReceiptRow where
  receiptDigest : String
  intentDigest : String
  receiptJson : String
  recordedAt : String
  deriving DecidableEq

/-- A row of `effect_reconciliations`. -/
structure ReconciliationRow where
  reconciliationId : Nat
  intentDigest : String
  state : String
  reason : String
  evidenceJson : String
  recordedAt : String
  deriving DecidableEq

/-! ## The database -/

structure KernelDb where
  events : List EventRow
  missionProjection : ExtTreeMap String MissionRow
  workProjection : ExtTreeMap String WorkRow
  snapshots : ExtTreeMap Nat SnapshotRow
  idempotency : ExtTreeMap String String
  effectOutbox : List OutboxRow
  effectReceipts : List ReceiptRow
  effectReconciliations : List ReconciliationRow
  deriving DecidableEq

/-- The database that `_bootstrap_locked` creates. -/
def emptyDb : KernelDb := ⟨[], ∅, ∅, ∅, ∅, [], [], []⟩

/-- Store code, which reads and writes the database and can raise. -/
abbrev StoreM (α : Type) := EStateM Exc KernelDb α

def sqliteIntegrityError (column : String) : Exc :=
  ⟨.sqliteIntegrityError, "UNIQUE constraint failed: " ++ column⟩

/-- The first integer that a column cannot hold. -/
def sqliteIntegerBound : Nat := 2 ^ 63

def overflowError : Exc :=
  ⟨.overflowError, "Python int too large to convert to SQLite INTEGER"⟩

/-- `_require_writable`. -/
def requireWritable (readOnly : Bool) : StoreM Unit :=
  if readOnly then throw (kernelIntegrityError "read-only kernel store cannot be mutated")
  else pure ()

theorem requireWritable_eq_ok {readOnly : Bool} {db db' : KernelDb} {u : Unit} :
    requireWritable readOnly db = .ok u db' ↔ readOnly = false ∧ db = db' := by
  cases readOnly with
  | true => exact ⟨fun h ↦ (nomatch h), fun h ↦ (nomatch h.1)⟩
  | false => exact ⟨fun h ↦ ⟨rfl, (run_pure_eq_ok.mp h).2⟩, fun h ↦ run_pure_eq_ok.mpr ⟨rfl, h.2⟩⟩

theorem atomic_requireWritable (readOnly : Bool) : Atomic (requireWritable readOnly) :=
  atomic_ite (atomic_throw _) (atomic_pure _)

theorem reads_requireWritable (readOnly : Bool) : Reads (requireWritable readOnly) :=
  reads_ite (reads_throw _) (reads_pure _)

/-- `INSERT INTO events`. -/
def insertEventRow (row : EventRow) : StoreM Unit := do
  let db ← get
  if sqliteIntegerBound ≤ row.head.eventVersion ∨ sqliteIntegerBound ≤ row.sequence then
    throw overflowError
  if row.sequence ∈ db.events.map EventRow.sequence then
    throw (sqliteIntegrityError "events.sequence")
  if row.head.eventId ∈ db.events.map (·.head.eventId) then
    throw (sqliteIntegrityError "events.event_id")
  if row.digest ∈ db.events.map EventRow.digest then
    throw (sqliteIntegrityError "events.digest")
  set { db with events := db.events ++ [row] }

/-- `INSERT INTO idempotency`. -/
def insertIdempotency (key eventId : String) : StoreM Unit := do
  let db ← get
  if key ∈ db.idempotency then
    throw (sqliteIntegrityError "idempotency.idempotency_key")
  if eventId ∈ db.idempotency.toList.map Prod.snd then
    throw (sqliteIntegrityError "idempotency.event_id")
  set { db with idempotency := db.idempotency.insert key eventId }

/-- The row breaks no constraint of `events`. -/
structure EventRow.Fits (row : EventRow) (db : KernelDb) : Prop where
  bounds : row.head.eventVersion < sqliteIntegerBound ∧ row.sequence < sqliteIntegerBound
  sequence : row.sequence ∉ db.events.map EventRow.sequence
  eventId : row.head.eventId ∉ db.events.map (·.head.eventId)
  digest : row.digest ∉ db.events.map EventRow.digest

theorem insertEventRow_eq_ok {row : EventRow} {db db' : KernelDb} {u : Unit} :
    insertEventRow row db = .ok u db' ↔
      row.Fits db ∧ db' = { db with events := db.events ++ [row] } := by
  simp only [insertEventRow, run_bind_eq_ok, run_get_eq_ok, run_guard_eq_ok, run_set_eq_ok,
    not_or, not_le]
  constructor
  · rintro ⟨_, _, ⟨rfl, rfl⟩, hbounds, hsequence, hid, hdigest, hdb'⟩
    exact ⟨⟨hbounds, hsequence, hid, hdigest⟩, hdb'⟩
  · rintro ⟨⟨hbounds, hsequence, hid, hdigest⟩, hdb'⟩
    exact ⟨db, db, ⟨rfl, rfl⟩, hbounds, hsequence, hid, hdigest, hdb'⟩

theorem insertIdempotency_eq_ok {key eventId : String} {db db' : KernelDb} {u : Unit} :
    insertIdempotency key eventId db = .ok u db' ↔
      key ∉ db.idempotency ∧ eventId ∉ db.idempotency.toList.map Prod.snd ∧
        db' = { db with idempotency := db.idempotency.insert key eventId } := by
  simp only [insertIdempotency, run_bind_eq_ok, run_get_eq_ok, run_guard_eq_ok, run_set_eq_ok]
  constructor
  · rintro ⟨_, _, ⟨rfl, rfl⟩, h⟩
    exact h
  · intro h
    exact ⟨db, db, ⟨rfl, rfl⟩, h⟩

end HiveMind
