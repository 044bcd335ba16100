import HiveMind.Lib.Rows
import HiveMind.Kernel.Tables

/-!
# The job queue

Jobs are claimed under leases. A lease has a token and ends at a time, and the four calls that
change a leased job ask for both. A claim can also take resources, which it holds as long as the
lease.

Times are floats in the source. Only their order matters here, so they are the members of any linear
order, and a scheduler comes with two functions: when a lease ends that is granted or renewed now,
and when a job may be tried again that has failed now. The identifiers that `uuid4` makes are
arguments.
-/

open Raise

namespace HiveMind

/-! ## Tables -/

inductive JobState where
  | ready
  | leased
  | done
  | deadLetter
  deriving DecidableEq, Repr

/-- A row of `jobs`. -/
structure JobRow (T : Type) where
  id : String
  kind : String
  payloadJson : String
  payloadDigest : String
  state : JobState
  attempts : Nat
  maxAttempts : Nat
  notBefore : T
  leaseOwner : Option String
  leaseToken : Option String
  leaseExpiry : Option T
  missionId : Option String
  lastError : Option String
  createdAt : T
  updatedAt : T
  deriving DecidableEq

/-- A row of `resource_leases`. -/
structure ResourceRow (T : Type) where
  resourceId : String
  jobId : String
  leaseOwner : String
  leaseToken : String
  leaseExpiry : T
  createdAt : T
  updatedAt : T
  deriving DecidableEq

structure SchedulerDb (T : Type) where
  jobs : List (JobRow T)
  resourceLeases : List (ResourceRow T)
  deriving DecidableEq

def emptySchedulerDb (T : Type) : SchedulerDb T := ⟨[], []⟩

/-- What the queue raises: `StaleLeaseError`, a failed `assert`, or an exception of a class that the
kernel raises, too. -/
inductive SchedulerError where
  | staleLease (message : String)
  | assertion
  | other (e : Exc)
  deriving DecidableEq, Repr

/-- Queue code, which reads and writes the two tables and can raise. -/
abbrev SchedulerM (T α : Type) := EStateM SchedulerError (SchedulerDb T) α

/-- The part of a `Scheduler` that depends on `lease_seconds` and `backoff_seconds`. -/
structure Scheduler (T : Type) where
  /-- `now + lease_seconds`. -/
  leaseUntil : T → T
  /-- `now + backoff_seconds * 2 ** (attempts - 1)`, unless the power is too large for a float. -/
  retryAt : T → Nat → Option T

variable {T : Type} [LinearOrder T]

/-! ## Enqueueing -/

/-- `INSERT OR IGNORE`, where the identity and the payload digest of a job are unique. -/
def insertOrIgnore (row : JobRow T) (db : SchedulerDb T) : SchedulerDb T :=
  if db.jobs.any fun job ↦ job.id == row.id || job.payloadDigest == row.payloadDigest then db
  else { db with jobs := db.jobs ++ [row] }

/-- The two statements of `enqueue`: a row is inserted unless there is one, and then read back. -/
def insertJob (row : JobRow T) : SchedulerM T (JobRow T) := fun db ↦
  let db := insertOrIgnore row db
  match db.jobs.find? (·.payloadDigest == row.payloadDigest) with
  | some found => .ok found db
  | none => .error .assertion db

/-- `enqueue`. -/
def enqueue [Hash256] (now : T) (jobId kind : String) (payload : List (String × PyValue))
    (maxAttempts : Int) (notBefore : Option T) (missionId : Option String) :
    SchedulerM T (JobRow T) := do
  if !isRequired kind || maxAttempts < 1 then
    throw (.other (valueError "job kind and positive max_attempts are required"))
  let encoded ← lift ((canonicalBytes (.dict payload)).mapError .other)
  let digest := "sha256:" ++ Hash256.hexdigest (kind.toList ++ '\x00' :: encoded.toList)
  if sqliteIntegerBound ≤ maxAttempts then throw (.other overflowError)
  insertJob ⟨jobId, kind, encoded, digest, .ready, 0, maxAttempts.toNat, notBefore.getD now, none,
    none, none, missionId, none, now, now⟩

/-! ## Claims -/

/-- The optional selectors of a claim. A job with no mission is in no mission. -/
structure JobSelector where
  kind : Option String
  missionId : Option String
  jobId : Option String
  deriving DecidableEq

def JobSelector.selects (selector : JobSelector) (job : JobRow T) : Bool :=
  selector.kind.all (· == job.kind) && selector.missionId.all (some · == job.missionId) &&
    selector.jobId.all (· == job.id)

namespace JobRow

/-- The lease ended before now. -/
def isExpired (now : T) (job : JobRow T) : Bool :=
  job.state == .leased && job.leaseExpiry.any (· < now)

/-- The job is leased under the token, and the lease has not ended. -/
def isHeld (now : T) (token : String) (job : JobRow T) : Bool :=
  job.state == .leased && job.leaseToken == some token && job.leaseExpiry.any (now ≤ ·)

def isClaimable (now : T) (job : JobRow T) : Bool :=
  job.attempts < job.maxAttempts &&
    ((job.state == .ready && job.notBefore ≤ now) || job.isExpired now)

/-- The last lease ended before now. -/
def isExhausted (now : T) (selector : JobSelector) (job : JobRow T) : Bool :=
  job.isExpired now && job.maxAttempts ≤ job.attempts && selector.selects job

/-- The job without a lease, in another state. -/
def unleased (job : JobRow T) (state : JobState) (now : T) : JobRow T :=
  { job with
    state := state
    leaseOwner := none
    leaseToken := none
    leaseExpiry := none
    updatedAt := now }

def expireFinally (now : T) (job : JobRow T) : JobRow T :=
  { job.unleased .deadLetter now with
    lastError := some (job.lastError.getD "lease expired after final attempt") }

def grant (owner token : String) (expiry now : T) (job : JobRow T) : JobRow T :=
  { job with
    state := .leased
    attempts := job.attempts + 1
    leaseOwner := some owner
    leaseToken := some token
    leaseExpiry := some expiry
    updatedAt := now }

end JobRow

namespace SchedulerDb

/-- A resource is held as long as the lease of its job under the same token. -/
def isStale (db : SchedulerDb T) (now : T) (resource : ResourceRow T) : Bool :=
  resource.leaseExpiry < now ||
    !(db.jobs.any fun job ↦ job.id == resource.jobId && job.isHeld now resource.leaseToken)

def deleteStaleResources (now : T) (db : SchedulerDb T) : SchedulerDb T :=
  { db with resourceLeases := db.resourceLeases.filter (!db.isStale now ·) }

def deadLetterExhausted (now : T) (selector : JobSelector) (db : SchedulerDb T) : SchedulerDb T :=
  { db with jobs := Rows.update (·.isExhausted now selector) (·.expireFinally now) db.jobs }

/-- `ORDER BY created_at,id LIMIT 1`. -/
def firstClaimable (db : SchedulerDb T) (now : T) (selector : JobSelector) : Option (JobRow T) :=
  List.argmin (fun job ↦ toLex (job.createdAt, job.id))
    (db.jobs.filter fun job ↦ job.isClaimable now && selector.selects job)

def conflicts (db : SchedulerDb T) (now : T) (resources : List String) : Bool :=
  db.resourceLeases.any fun resource ↦
    resources.contains resource.resourceId && now ≤ resource.leaseExpiry

/-- `INSERT INTO resource_leases`, where the identity of a resource is unique. -/
def insertResources (db : SchedulerDb T) (resources : List String)
    (row : String → ResourceRow T) : Except SchedulerError (SchedulerDb T) :=
  if db.resourceLeases.any (resources.contains ·.resourceId) then
    .error (.other (sqliteIntegrityError "resource_leases.resource_id"))
  else .ok { db with resourceLeases := db.resourceLeases ++ resources.map row }

/-- The rows of `resource_leases` of a job and a token. -/
def ofLease (jobId token : String) (resource : ResourceRow T) : Bool :=
  resource.jobId == jobId && resource.leaseToken == token

end SchedulerDb

structure ClaimRequest where
  owner : String
  selector : JobSelector
  resourceIds : List String
  deriving DecidableEq

/-- `tuple(sorted(set(…)))`. -/
def ClaimRequest.resources (request : ClaimRequest) : List String :=
  request.resourceIds.dedup.insertionSort (· ≤ ·)

/-- The transaction of `claim`. -/
def claimBody (s : Scheduler T) (now : T) (token : String) (request : ClaimRequest) :
    SchedulerM T (Option (JobRow T)) := fun db ↦
  let db := (db.deleteStaleResources now).deadLetterExhausted now request.selector
  match db.firstClaimable now request.selector with
  | none => .ok none db
  | some candidate =>
    if db.conflicts now request.resources then .ok none db
    else
      let eligible := fun job : JobRow T ↦ job.id == candidate.id && job.isClaimable now
      let granted := JobRow.grant request.owner token (s.leaseUntil now) now
      let claimed := { db with jobs := Rows.update eligible granted db.jobs }
      match Rows.returning eligible granted db.jobs with
      | none => .ok none claimed
      | some job =>
        match claimed.insertResources request.resources fun resource ↦
          ⟨resource, candidate.id, request.owner, token, s.leaseUntil now, now, now⟩ with
        | .ok db => .ok (some job) db
        | .error e => .error e claimed

/-- `claim`. -/
def claim (s : Scheduler T) (now : T) (token : String) (request : ClaimRequest) :
    SchedulerM T (Option (JobRow T)) := do
  if !isRequired request.owner then throw (.other (valueError "worker owner is required"))
  if request.resourceIds.any (!isRequired ·) then
    throw (.other (valueError "resource identities must be non-empty strings"))
  transaction (claimBody s now token request)

/-! ## Calls under a lease -/

/-- What `heartbeat`, `complete` and `dead_letter` have in common: a leased job is changed, and with
it the rows of its resources, if the token is right and the lease has not ended. -/
def underLease (now : T) (jobId token message : String) (change : JobRow T → JobRow T)
    (resources : List (ResourceRow T) → List (ResourceRow T)) : SchedulerM T (JobRow T) := fun db ↦
  let held := fun job : JobRow T ↦ job.id == jobId && job.isHeld now token
  let changed := { db with jobs := Rows.update held change db.jobs }
  match Rows.returning held change db.jobs with
  | none => .error (.staleLease message) changed
  | some job => .ok job { changed with resourceLeases := resources changed.resourceLeases }

/-- `DELETE FROM resource_leases`. -/
def releaseResources (jobId token : String) (resources : List (ResourceRow T)) :
    List (ResourceRow T) :=
  resources.filter (!SchedulerDb.ofLease jobId token ·)

/-- `dead_letter`. -/
def deadLetter (now : T) (jobId token error : String) (missionId : Option String) :
    SchedulerM T (JobRow T) :=
  underLease now jobId token "dead-letter rejected for stale lease"
    (fun job ↦ { job.unleased .deadLetter now with
      missionId := missionId.or job.missionId
      lastError := some error })
    (releaseResources jobId token)

def JobRow.renew (expiry now : T) (job : JobRow T) : JobRow T :=
  { job with
    leaseExpiry := some expiry
    updatedAt := now }

def ResourceRow.renew (expiry now : T) (resource : ResourceRow T) : ResourceRow T :=
  { resource with
    leaseExpiry := expiry
    updatedAt := now }

/-- `heartbeat`. -/
def heartbeat (s : Scheduler T) (now : T) (jobId token : String) : SchedulerM T (JobRow T) :=
  underLease now jobId token "heartbeat rejected for stale lease"
    (JobRow.renew (s.leaseUntil now) now)
    (Rows.update (SchedulerDb.ofLease jobId token) (ResourceRow.renew (s.leaseUntil now) now))

/-- `complete`. -/
def complete (now : T) (jobId token missionId : String) : SchedulerM T (JobRow T) :=
  underLease now jobId token "completion rejected for stale lease"
    (fun job ↦ { job.unleased .done now with missionId := some missionId })
    (releaseResources jobId token)

/-- The job after a failure of its last attempt or of another one. -/
def JobRow.failed (now retry : T) (dead : Bool) (error : String) (missionId : Option String)
    (job : JobRow T) : JobRow T :=
  { job.unleased (if dead then .deadLetter else .ready) now with
    notBefore := retry
    missionId := missionId.or job.missionId
    lastError := some error }

/-- `fail`, which looks at the job before it changes it. -/
def fail (s : Scheduler T) (now : T) (jobId token error : String) (missionId : Option String) :
    SchedulerM T (JobRow T) :=
  transaction fun db ↦
    match db.jobs.find? (·.id == jobId) with
    | none => .error (.other (keyError jobId)) db
    | some current =>
      if !current.isHeld now token then
        .error (.staleLease "failure rejected for stale lease") db
      else
        match s.retryAt now current.attempts with
        | none => .error (.other ⟨.overflowError, "int too large to convert to float"⟩) db
        | some retry =>
          underLease now jobId token "failure rejected for stale lease"
            (JobRow.failed now retry (current.maxAttempts ≤ current.attempts) error missionId)
            (releaseResources jobId token) db

end HiveMind
