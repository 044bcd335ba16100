import HiveMind.Kernel.ReadModel
import HiveMind.Scheduler.Leases
import HiveMind.Workers.ScopeLocks

/-!
# Kernel workers

A worker claims a job, moves the job's work item along in the kernel, locks the paths it writes, runs
an executor, and completes or fails the job. Three stores take part: the queue, the locks and the
kernel's events. The first move in the kernel is made before anything is guarded. If the kernel
refuses it, the job stays leased; and it is refused at every attempt but the first, since the
identifier of the event is made of the job and the status only.

`Reachable` is the closure of all that can happen to the stores.
-/

open Raise

namespace HiveMind.Workers

/-! ## Exceptions -/

/-- An exception, as a failed job records it. -/
structure Raised where
  className : String
  text : String
  deriving DecidableEq

def className : ExcKind → String
  | .valueError => "ValueError"
  | .typeError => "TypeError"
  | .keyError => "KeyError"
  | .overflowError => "OverflowError"
  | .attributeError => "AttributeError"
  | .sqliteIntegrityError => "IntegrityError"
  | .kernelIntegrityError => "KernelIntegrityError"
  | .authorityDenied => "AuthorityDenied"
  | .effectReconciliationRequired => "EffectReconciliationRequired"

namespace Raised

def ofExc (e : Exc) : Raised := ⟨Workers.className e.kind, e.message⟩

def ofScheduler : SchedulerError → Raised
  | .staleLease message => ⟨"StaleLeaseError", message⟩
  | .assertion => ⟨"AssertionError", ""⟩
  | .other e => .ofExc e

def keyError (key : String) : Raised := ⟨"KeyError", "'" ++ key ++ "'"⟩

/-- `f"{type(error).__name__}: {error}"`. -/
def describe (e : Raised) : String := e.className ++ ": " ++ e.text

end Raised

/-! ## Payloads -/

variable {T : Type}

/-- A member of a job's payload. -/
def payloadMember (job : JobRow T) (name : String) : Option Json :=
  (Json.loads job.payloadJson).bind (·.get? name)

/-- `str(job.payload[name])`, where the member is a text. -/
def payloadText (job : JobRow T) (name : String) : Except Raised String :=
  match (payloadMember job name).bind Json.asStr? with
  | some text => .ok text
  | none => .error (.keyError name)

/-- `job.payload.get("write_scope", ())`, where the member is a list of texts. -/
def writeScope (job : JobRow T) : List String :=
  ((payloadMember job "write_scope").bind Json.asStrings?).getD []

/-- The payload of a kernel job, apart from its binding. The members are in the order in which they
are written. -/
def workPayload (missionId workId : String) (paths : List String) : List (String × PyValue) :=
  [("mission_id", .str missionId), ("work_id", .str workId),
    ("write_scope", .tuple ((paths.insertionSort (· ≤ ·)).map .str))]

/-! ## Workers -/

/-- A `KernelWorker`, apart from its executor. A store is given by whether it is read-only. -/
structure KernelWorker (T : Type) where
  scheduler : Scheduler T
  leaseSeconds : T
  owner : String
  store : Option Bool

/-- The three stores that workers share. -/
structure Stores (T : Type) where
  scheduler : SchedulerDb T
  locks : List (ScopeLock T)
  kernel : KernelDb

abbrev WorkerM (T α : Type) := EStateM Raised (Stores T) α

/-- What a call is given from outside: the token that `uuid4` makes, the times that the clock says,
and how the executor ends. -/
structure RunInputs (T : Type) where
  token : String
  claimedAt : T
  lockedAt : T
  completedAt : T
  failedAt : T
  raised : Option Raised

section Digests

variable [Hash256]

/-- The event of a move of a job's work item. -/
def KernelWorker.workEvent (w : KernelWorker T) (job : JobRow T) (status : WorkState)
    (previousDigest : Option String) : Except Raised KernelEvent := do
  let missionId ← payloadText job "mission_id"
  let workId ← payloadText job "work_id"
  let head : EventHead := ⟨"worker:" ++ job.id ++ ":" ++ status.value, missionId, "work.transition",
    w.owner, "1970-01-01T00:00:00Z", some workId, none, some "builder", 1⟩
  if valid : head.isValid = true then
    return ⟨head, [("status", .str status.value)], previousDigest, valid⟩
  else throw ⟨"ValueError", if missionId = "" then "mission_id is required" else "actor_id is required"⟩

/-- Kernel code, with its exceptions. -/
def onKernel {α : Type} (x : StoreM α) : EStateM Raised KernelDb α := fun db ↦
  match x db with
  | .ok a db' => .ok a db'
  | .error e db' => .error (.ofExc e) db'

/-- `_transition`. -/
def KernelWorker.transition (w : KernelWorker T) (job : JobRow T) (status : WorkState) :
    EStateM Raised KernelDb Unit :=
  match w.store with
  | none => pure ()
  | some readOnly => do
    let _ ← onKernel events
    let db ← get
    let event ← lift (w.workEvent job status (db.events.getLast?.map EventRow.digest))
    let _ ← onKernel (append readOnly event none "1970-01-01T00:00:00Z" none)

/-- What `enqueue` does after it has put the job into the queue. -/
def KernelWorker.propose (w : KernelWorker T) (job : JobRow T) (workId : String) :
    EStateM Raised KernelDb Unit :=
  match w.store with
  | none => pure ()
  | some readOnly => do
    let state ← onKernel (projection readOnly)
    match state.work[workId]? with
    | none => throw (.keyError workId)
    | some work => if work.status = .proposed then w.transition job .ready

variable [LinearOrder T]

/-- `enqueue`. -/
def KernelWorker.enqueue (w : KernelWorker T) (now : T) (jobId missionId workId : String)
    (paths : List String) (maxAttempts : Int) : WorkerM T (JobRow T) := fun s ↦
  let payload := workPayload missionId workId paths
  match canonicalDigest (.dict payload) with
  | .error e => .error (.ofExc e) s
  | .ok digest =>
    match HiveMind.enqueue now jobId "kernel-work" (("binding_digest", .str digest) :: payload)
      maxAttempts none (some missionId) s.scheduler with
    | .error e db => .error (.ofScheduler e) { s with scheduler := db }
    | .ok job db =>
      match w.propose job workId s.kernel with
      | .error e kernel => .error e { s with scheduler := db, kernel := kernel }
      | .ok _ kernel => .ok job { s with scheduler := db, kernel := kernel }

/-- `fail`, after which the call returns. -/
def KernelWorker.giveUp (w : KernelWorker T) (r : RunInputs T) (job : JobRow T)
    (token error : String) : WorkerM T Bool := fun s ↦
  match fail w.scheduler r.failedAt job.id token error none s.scheduler with
  | .ok _ db => .ok true { s with scheduler := db }
  | .error e db => .error (.ofScheduler e) { s with scheduler := db }

/-- The body of the `try`: the work item starts to run, the executor is called, and the job is
completed. -/
def KernelWorker.work (w : KernelWorker T) (r : RunInputs T) (job : JobRow T) (token : String) :
    WorkerM T Unit := fun s ↦
  match w.transition job .running s.kernel with
  | .error e kernel => .error e { s with kernel := kernel }
  | .ok _ kernel =>
    match r.raised with
    | some e => .error e { s with kernel := kernel }
    | none =>
      match w.transition job .awaitingVerification kernel with
      | .error e kernel => .error e { s with kernel := kernel }
      | .ok _ kernel =>
        match payloadText job "mission_id" with
        | .error e => .error e { s with kernel := kernel }
        | .ok missionId =>
          match complete r.completedAt job.id token missionId s.scheduler with
          | .error e db => .error (.ofScheduler e) { s with scheduler := db, kernel := kernel }
          | .ok _ db => .ok () { s with scheduler := db, kernel := kernel }

/-- The `try` statement. An exception of the body fails the job, and a stale lease is no exception
any more; the locks are released whatever happens. -/
def KernelWorker.attempt (w : KernelWorker T) (r : RunInputs T) (job : JobRow T)
    (token lockOwner : String) : WorkerM T Bool := fun s ↦
  match w.work r job token s with
  | .ok _ s => .ok true { s with locks := release lockOwner s.locks }
  | .error e s =>
    let locks := release lockOwner s.locks
    match fail w.scheduler r.failedAt job.id token e.describe none s.scheduler with
    | .ok _ db => .ok true { s with scheduler := db, locks := locks }
    | .error (.staleLease _) db => .ok true { s with scheduler := db, locks := locks }
    | .error e db => .error (.ofScheduler e) { s with scheduler := db, locks := locks }

variable [Add T]

/-- A kernel job, under its lease. -/
def KernelWorker.handle (w : KernelWorker T) (r : RunInputs T) (job : JobRow T) (token : String) :
    WorkerM T Bool := fun s ↦
  match w.transition job .leased s.kernel with
  | .error e kernel => .error e { s with kernel := kernel }
  | .ok _ kernel =>
    let lockOwner := w.owner ++ ":" ++ job.id ++ ":" ++ token
    let (taken, locks) := acquire (writeScope job) lockOwner r.lockedAt w.leaseSeconds s.locks
    let s := { s with kernel := kernel, locks := locks }
    if taken then w.attempt r job token lockOwner s
    else w.giveUp r job token "write scope is locked" s

/-- The claim of `run_once`, which takes any job. -/
def KernelWorker.claimJob (w : KernelWorker T) (r : RunInputs T) : SchedulerM T (Option (JobRow T)) :=
  claim w.scheduler r.claimedAt r.token ⟨w.owner, ⟨none, none, none⟩, []⟩

/-- `run_once`. -/
def KernelWorker.runOnce (w : KernelWorker T) (r : RunInputs T) : WorkerM T Bool := fun s ↦
  match w.claimJob r s.scheduler with
  | .error e db => .error (.ofScheduler e) { s with scheduler := db }
  | .ok none db => .ok false { s with scheduler := db }
  | .ok (some job) db =>
    let s := { s with scheduler := db }
    match job.leaseToken with
    | none => w.giveUp r job "" "unsupported kernel job" s
    | some token =>
      if job.kind ≠ "kernel-work" then w.giveUp r job token "unsupported kernel job" s
      else w.handle r job token s

/-- The state after a call, whether it returns or raises. -/
def after {ε σ α : Type} (x : EStateM ε σ α) (s : σ) : σ :=
  match x s with
  | .ok _ s' => s'
  | .error _ s' => s'

/-! ## Reachable stores -/

/-- The call puts a kernel job into the queue. -/
def enqueuesWork : SchedulerCall T → Bool
  | .enqueue _ kind _ _ _ _ => kind == "kernel-work"
  | _ => false

/-- What can happen to the stores. Kernel jobs come from workers; anything else may be done to the
queue, to the locks and to the kernel's events. -/
inductive Change (T : Type) where
  | enqueue (w : KernelWorker T) (now : T) (jobId missionId workId : String) (paths : List String)
      (maxAttempts : Int)
  | runOnce (w : KernelWorker T) (r : RunInputs T)
  | cancel (w : KernelWorker T) (job : JobRow T)
  | queue (i : Invocation T) (ordinary : enqueuesWork i.call = false)
  | acquire (paths : List String) (owner : String) (now ttl : T)
  | release (owner : String)
  | append (call : AppendCall)

def Change.apply (s : Stores T) : Change T → Stores T
  | enqueue w now jobId missionId workId paths maxAttempts =>
    after (w.enqueue now jobId missionId workId paths maxAttempts) s
  | runOnce w r => after (w.runOnce r) s
  | cancel w job =>
    { s with kernel := after (w.transition job .cancelled) s.kernel }
  | queue i _ => { s with scheduler := after i.run s.scheduler }
  | acquire paths owner now ttl =>
    { s with locks := (Workers.acquire paths owner now ttl s.locks).2 }
  | release owner => { s with locks := Workers.release owner s.locks }
  | append call => { s with kernel := call.after s.kernel }

def emptyStores (T : Type) : Stores T := ⟨emptySchedulerDb T, [], emptyDb⟩

def Reachable (s : Stores T) : Prop :=
  ∃ changes : List (Change T), changes.foldl Change.apply (emptyStores T) = s

end Digests

end HiveMind.Workers
