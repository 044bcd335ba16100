import HiveMind.Scheduler.Jobs

/-!
# Leases of jobs

The calls of a queue are logged with what they return. `Invocation.change` says what one call does to
the two tables; everything else is read off it.

The invariant is `QueueRun.Sound`: the attempts of a job are the leases that were granted to it, and
a leased job has the token of its latest claim and the end that its latest claim or heartbeat set.
The order of the clock readings does not matter for it.

* **`leases_are_sound`**: what holds of attempts, tokens and states after any calls.
-/

open Raise

namespace HiveMind

variable {T : Type} [LinearOrder T]

/-! ## Calls -/

inductive SchedulerCall (T : Type) where
  | enqueue (jobId kind : String) (payload : List (String × PyValue)) (maxAttempts : Int)
      (notBefore : Option T) (missionId : Option String)
  | claim (token : String) (request : ClaimRequest)
  | heartbeat (jobId token : String)
  | complete (jobId token missionId : String)
  | fail (jobId token error : String) (missionId : Option String)
  | deadLetter (jobId token error : String) (missionId : Option String)

/-- The job and the token that a call under a lease presents. -/
def SchedulerCall.presents : SchedulerCall T → Option (String × String)
  | heartbeat jobId token => some (jobId, token)
  | complete jobId token _ => some (jobId, token)
  | fail jobId token _ _ => some (jobId, token)
  | deadLetter jobId token _ _ => some (jobId, token)
  | _ => none

/-- The call can return a job with a lease that it has granted or renewed. -/
def SchedulerCall.leases : SchedulerCall T → Bool
  | claim _ _ => true
  | heartbeat _ _ => true
  | _ => false

/-- A call through one scheduler, with what the clock said. -/
structure Invocation (T : Type) where
  scheduler : Scheduler T
  now : T
  call : SchedulerCall T

def Invocation.run [Hash256] (i : Invocation T) : SchedulerM T (Option (JobRow T)) :=
  match i.call with
  | .enqueue jobId kind payload maxAttempts notBefore missionId =>
    some <$> enqueue i.now jobId kind payload maxAttempts notBefore missionId
  | .claim token request => claim i.scheduler i.now token request
  | .heartbeat jobId token => some <$> heartbeat i.scheduler i.now jobId token
  | .complete jobId token missionId => some <$> complete i.now jobId token missionId
  | .fail jobId token error missionId =>
    some <$> fail i.scheduler i.now jobId token error missionId
  | .deadLetter jobId token error missionId =>
    some <$> deadLetter i.now jobId token error missionId

/-! ## What a call does -/

/-- The rows that a claim leaves before it takes a job. -/
def SchedulerDb.swept (db : SchedulerDb T) (now : T) (selector : JobSelector) : SchedulerDb T :=
  (db.deleteStaleResources now).deadLetterExhausted now selector

/-- A call that raises changes nothing. Otherwise it adds a job or finds one, finds no job to claim,
grants or renews a lease, or ends one. -/
inductive QueueChange (i : Invocation T) (db : SchedulerDb T) :
    Except SchedulerError (Option (JobRow T)) → SchedulerDb T → Prop
  | raised (e : SchedulerError) : QueueChange i db (.error e) db
  | found (row : JobRow T) (mem : row ∈ db.jobs) (presents : i.call.presents = none)
      (quiet : i.call.leases = false) : QueueChange i db (.ok (some row)) db
  | enqueued (row : JobRow T) (presents : i.call.presents = none) (quiet : i.call.leases = false)
      (ready : row.state = .ready) (attempts : row.attempts = 0) (fresh : ∀ job ∈ db.jobs, job.id ≠ row.id) :
      QueueChange i db (.ok (some row)) { db with jobs := db.jobs ++ [row] }
  | idle (token : String) (request : ClaimRequest) (call : i.call = .claim token request) :
      QueueChange i db (.ok none) (db.swept i.now request.selector)
  | granted (token : String) (request : ClaimRequest) (call : i.call = .claim token request)
      (job : JobRow T) (mem : job ∈ db.jobs) (claimable : job.isClaimable i.now = true)
      (free : (db.swept i.now request.selector).conflicts i.now request.resources = false) :
      QueueChange i db
        (.ok (some (job.grant request.owner token (i.scheduler.leaseUntil i.now) i.now)))
        ⟨Rows.update (fun other ↦ other.id == job.id && other.isClaimable i.now)
            (JobRow.grant request.owner token (i.scheduler.leaseUntil i.now) i.now)
            (db.swept i.now request.selector).jobs,
          (db.swept i.now request.selector).resourceLeases ++
            request.resources.map fun resource ↦
              ⟨resource, job.id, request.owner, token, i.scheduler.leaseUntil i.now, i.now, i.now⟩⟩
  | renewed (token : String) (job : JobRow T) (call : i.call = .heartbeat job.id token)
      (mem : job ∈ db.jobs) (held : job.isHeld i.now token = true) :
      QueueChange i db (.ok (some (job.renew (i.scheduler.leaseUntil i.now) i.now)))
        ⟨Rows.update (fun other ↦ other.id == job.id && other.isHeld i.now token)
            (JobRow.renew (i.scheduler.leaseUntil i.now) i.now) db.jobs,
          Rows.update (SchedulerDb.ofLease job.id token)
            (ResourceRow.renew (i.scheduler.leaseUntil i.now) i.now) db.resourceLeases⟩
  | released (token : String) (job : JobRow T) (presents : i.call.presents = some (job.id, token))
      (quiet : i.call.leases = false) (mem : job ∈ db.jobs)
      (held : job.isHeld i.now token = true) (change : JobRow T → JobRow T)
      (same : ∀ other, (change other).id = other.id ∧ (change other).attempts = other.attempts ∧
        (change other).maxAttempts = other.maxAttempts ∧ (change other).state ≠ .leased) :
      QueueChange i db (.ok (some (change job)))
        ⟨Rows.update (fun other ↦ other.id == job.id && other.isHeld i.now token) change db.jobs,
          releaseResources job.id token db.resourceLeases⟩

/-- What a call has done, by its result. -/
def Invocation.Changes (i : Invocation T) (db : SchedulerDb T) :
    EStateM.Result SchedulerError (SchedulerDb T) (Option (JobRow T)) → Prop
  | .ok row db' => QueueChange i db (.ok row) db'
  | .error e db' => QueueChange i db (.error e) db'

private theorem underLease_cases (now : T) (jobId token message : String)
    (change : JobRow T → JobRow T) (resources : List (ResourceRow T) → List (ResourceRow T))
    (db : SchedulerDb T) :
    underLease now jobId token message change resources db = .error (.staleLease message) db ∨
      ∃ job ∈ db.jobs, job.id = jobId ∧ job.isHeld now token = true ∧
        underLease now jobId token message change resources db = .ok (change job)
          ⟨Rows.update (fun other ↦ other.id == job.id && other.isHeld now token) change db.jobs,
            resources db.resourceLeases⟩ := by
  rw [underLease]
  cases hrow : Rows.returning (fun job ↦ job.id == jobId && job.isHeld now token) change db.jobs with
  | none =>
    left
    dsimp only
    rw [Rows.update_eq_self (Rows.returning_eq_none.mp hrow)]
  | some row =>
    obtain ⟨job, hmem, hheld, rfl⟩ := Rows.exists_of_returning hrow
    simp only [Bool.and_eq_true, beq_iff_eq] at hheld
    obtain ⟨rfl, hheld⟩ := hheld
    exact .inr ⟨job, hmem, rfl, hheld, rfl⟩

private theorem changes_map {α : Type} {i : Invocation T} {db : SchedulerDb T}
    {x : SchedulerM T α} {f : α → Option (JobRow T)}
    (hok : ∀ a db', x db = .ok a db' → QueueChange i db (.ok (f a)) db')
    (herror : ∀ e db', x db = .error e db' → db' = db) : i.Changes db ((f <$> x) db) := by
  change i.Changes db (EStateM.map f x db)
  rw [EStateM.map]
  cases hx : x db with
  | ok a db' => exact hok a db' hx
  | error e db' =>
    obtain rfl := herror e db' hx
    exact .raised e

/-- A call that ends a lease. -/
private theorem changes_released {i : Invocation T} {db : SchedulerDb T} {x : SchedulerM T (JobRow T)}
    {jobId token : String} (hpresents : i.call.presents = some (jobId, token))
    (hquiet : i.call.leases = false)
    (hx : (∃ e, x db = .error e db) ∨ ∃ message, ∃ change : JobRow T → JobRow T,
      x db = underLease i.now jobId token message change (releaseResources jobId token) db ∧
      ∀ other, (change other).id = other.id ∧ (change other).attempts = other.attempts ∧
        (change other).maxAttempts = other.maxAttempts ∧ (change other).state ≠ .leased) :
    i.Changes db ((some <$> x) db) := by
  rcases hx with ⟨e, hx⟩ | ⟨message, change, hx, hsame⟩
  · refine changes_map (fun a db' h ↦ (nomatch h.symm.trans hx)) fun e' db' h ↦ ?_
    exact (EStateM.Result.error.inj (h.symm.trans hx)).2
  rcases underLease_cases i.now jobId token message change (releaseResources jobId token) db with
    hcase | ⟨job, hmem, rfl, hheld, hcase⟩ <;> rw [hcase] at hx
  · refine changes_map (fun a db' h ↦ (nomatch h.symm.trans hx)) fun e' db' h ↦ ?_
    exact (EStateM.Result.error.inj (h.symm.trans hx)).2
  · refine changes_map (fun a db' h ↦ ?_) fun e' db' h ↦ (nomatch h.symm.trans hx)
    obtain ⟨rfl, rfl⟩ := EStateM.Result.ok.inj (h.symm.trans hx)
    exact .released token job hpresents hquiet hmem hheld change hsame

/-- A claimable job is not one of those that a claim gives up. -/
private theorem isExhausted_of_isClaimable {now : T} {selector : JobSelector} {job : JobRow T}
    (h : job.isClaimable now = true) : job.isExhausted now selector = false := by
  simp only [JobRow.isClaimable, Bool.and_eq_true, decide_eq_true_eq] at h
  simp only [JobRow.isExhausted, Nat.not_le.mpr h.1, decide_false, Bool.and_false, Bool.false_and]

private theorem mem_of_mem_swept {now : T} {selector : JobSelector} {db : SchedulerDb T}
    {job : JobRow T} (hmem : job ∈ (db.swept now selector).jobs)
    (hclaimable : job.isClaimable now = true) : job ∈ db.jobs := by
  obtain ⟨old, hold, rfl⟩ := Rows.mem_update.mp hmem
  by_cases hexhausted : old.isExhausted now selector = true
  · -- a job that was given up cannot be claimed
    rw [if_pos hexhausted] at hclaimable
    simp [JobRow.isClaimable, JobRow.isExpired, JobRow.expireFinally, JobRow.unleased] at hclaimable
  · rw [if_neg hexhausted]
    exact hold

private theorem changes_claimBody {i : Invocation T} {db : SchedulerDb T} {token : String}
    {request : ClaimRequest} (hcall : i.call = .claim token request) :
    i.Changes db (transaction (claimBody i.scheduler i.now token request) db) := by
  rw [transaction]
  cases hresult : claimBody i.scheduler i.now token request db with
  | error e db' => exact .raised e
  | ok a db' =>
    change QueueChange i db (.ok a) db'
    rw [claimBody] at hresult
    dsimp only at hresult
    rw [show (db.deleteStaleResources i.now).deadLetterExhausted i.now request.selector =
      db.swept i.now request.selector from rfl] at hresult
    cases hfirst : (db.swept i.now request.selector).firstClaimable i.now request.selector with
    | none =>
      rw [hfirst] at hresult
      obtain ⟨rfl, rfl⟩ := EStateM.Result.ok.inj hresult
      exact .idle token request hcall
    | some candidate =>
    rw [hfirst] at hresult
    dsimp only at hresult
    by_cases hfree : (db.swept i.now request.selector).conflicts i.now request.resources = true
    · rw [if_pos hfree] at hresult
      obtain ⟨rfl, rfl⟩ := EStateM.Result.ok.inj hresult
      exact .idle token request hcall
    rw [if_neg hfree] at hresult
    cases hjob : Rows.returning (fun job ↦ job.id == candidate.id && job.isClaimable i.now)
      (JobRow.grant request.owner token (i.scheduler.leaseUntil i.now) i.now)
      (db.swept i.now request.selector).jobs with
    | none =>
      -- the candidate is one of the rows that are updated
      have hcandidate := List.argmin_mem hfirst
      rw [List.mem_filter, Bool.and_eq_true] at hcandidate
      have hnot := Rows.returning_eq_none.mp hjob candidate hcandidate.1
      rw [beq_self_eq_true, hcandidate.2.1] at hnot
      cases hnot
    | some job =>
    rw [hjob] at hresult
    obtain ⟨old, hold, heligible, rfl⟩ := Rows.exists_of_returning hjob
    simp only [Bool.and_eq_true, beq_iff_eq] at heligible
    dsimp only [SchedulerDb.insertResources] at hresult
    by_cases hheld : (db.swept i.now request.selector).resourceLeases.any
        (request.resources.contains ·.resourceId) = true
    · rw [if_pos hheld] at hresult
      cases hresult
    rw [if_neg hheld] at hresult
    obtain ⟨rfl, rfl⟩ := EStateM.Result.ok.inj hresult
    rw [← heligible.1]
    exact .granted token request hcall old (mem_of_mem_swept hold heligible.2) heligible.2
      (Bool.eq_false_iff.mpr hfree)

omit [LinearOrder T] in
private theorem insertJob_cases (row : JobRow T) (db : SchedulerDb T) :
    insertJob row db = .error .assertion db ∨
      (∃ found ∈ db.jobs, insertJob row db = .ok found db) ∨
      (∀ job ∈ db.jobs, job.id ≠ row.id) ∧
        insertJob row db = .ok row { db with jobs := db.jobs ++ [row] } := by
  rw [insertJob, insertOrIgnore]
  by_cases hknown : db.jobs.any fun job ↦
      job.id == row.id || job.payloadDigest == row.payloadDigest
  · rw [if_pos hknown]
    cases hfound : db.jobs.find? (·.payloadDigest == row.payloadDigest) with
    | none => exact .inl rfl
    | some found => exact .inr (.inl ⟨found, List.mem_of_find?_eq_some hfound, rfl⟩)
  · rw [if_neg hknown]
    simp only [List.any_eq_true, Bool.or_eq_true, beq_iff_eq, not_exists, not_and, not_or] at hknown
    have hfound : (db.jobs ++ [row]).find? (·.payloadDigest == row.payloadDigest) = some row := by
      have hnone : db.jobs.find? (·.payloadDigest == row.payloadDigest) = none := by
        refine List.find?_eq_none.mpr fun job hjob ↦ ?_
        rw [beq_iff_eq]
        exact (hknown job hjob).2
      rw [List.find?_append, hnone, Option.none_or, List.find?_singleton,
        if_pos (beq_self_eq_true row.payloadDigest)]
    dsimp only
    rw [hfound]
    exact .inr (.inr ⟨fun job hjob ↦ (hknown job hjob).1, rfl⟩)

private theorem changes_enqueue [Hash256] {i : Invocation T} {db : SchedulerDb T}
    {jobId kind : String} {payload : List (String × PyValue)} {maxAttempts : Int}
    {notBefore : Option T} {missionId : Option String}
    (hcall : i.call = .enqueue jobId kind payload maxAttempts notBefore missionId) :
    i.Changes db
      ((some <$> enqueue i.now jobId kind payload maxAttempts notBefore missionId) db) := by
  have hpresents : i.call.presents = none := by rw [hcall]; rfl
  have hquiet : i.call.leases = false := by rw [hcall]; rfl
  have hatomic : ∀ row : JobRow T, Atomic (insertJob row) := by
    intro row db e db' h
    rcases insertJob_cases row db with hcase | ⟨found, -, hcase⟩ | ⟨-, hcase⟩
    · exact (EStateM.Result.error.inj (h.symm.trans hcase)).2
    · exact nomatch h.symm.trans hcase
    · exact nomatch h.symm.trans hcase
  refine changes_map (fun row db' h ↦ ?_) fun e db' h ↦ ?_
  · simp only [enqueue, run_guard_eq_ok, run_bind_eq_ok, run_lift_eq_ok] at h
    obtain ⟨-, encoded, _, ⟨-, rfl⟩, hbound, h⟩ := h
    rcases insertJob_cases _ db with hcase | ⟨found, hfound, hcase⟩ | ⟨hfresh, hcase⟩
    · exact nomatch h.symm.trans hcase
    · obtain ⟨rfl, rfl⟩ := EStateM.Result.ok.inj (h.symm.trans hcase)
      exact .found row hfound hpresents hquiet
    · obtain ⟨rfl, rfl⟩ := EStateM.Result.ok.inj (h.symm.trans hcase)
      exact .enqueued _ hpresents hquiet rfl rfl hfresh
  · refine (show Atomic (enqueue i.now jobId kind payload maxAttempts notBefore missionId) from ?_)
      db e db' h
    exact atomic_guard (atomic_bind (atomic_lift _) (reads_lift _) fun encoded ↦
      atomic_guard (hatomic _))

/-- A failure is reported under a lease or raises. -/
private theorem fail_cases (s : Scheduler T) (now : T) (jobId token error : String)
    (missionId : Option String) (db : SchedulerDb T) :
    (∃ e, fail s now jobId token error missionId db = .error e db) ∨
      ∃ message, ∃ change : JobRow T → JobRow T,
        fail s now jobId token error missionId db =
          underLease now jobId token message change (releaseResources jobId token) db ∧
        ∀ other, (change other).id = other.id ∧ (change other).attempts = other.attempts ∧
          (change other).maxAttempts = other.maxAttempts ∧ (change other).state ≠ .leased := by
  simp only [fail, transaction]
  cases db.jobs.find? (·.id == jobId) with
  | none => exact .inl ⟨_, rfl⟩
  | some current =>
    dsimp only
    by_cases hheld : (!current.isHeld now token) = true
    · rw [if_pos hheld]
      exact .inl ⟨_, rfl⟩
    rw [if_neg hheld]
    cases s.retryAt now current.attempts with
    | none => exact .inl ⟨_, rfl⟩
    | some retry =>
      dsimp only
      rcases underLease_cases now jobId token "failure rejected for stale lease"
        (JobRow.failed now retry (current.maxAttempts ≤ current.attempts) error missionId)
        (releaseResources jobId token) db with hcase | ⟨job, -, -, -, hcase⟩
      · rw [hcase]
        exact .inl ⟨_, rfl⟩
      · refine .inr ⟨"failure rejected for stale lease",
          JobRow.failed now retry (current.maxAttempts ≤ current.attempts) error missionId, ?_,
          fun other ↦ ⟨rfl, rfl, rfl, ?_⟩⟩
        · rw [hcase]
        · dsimp only [JobRow.failed, JobRow.unleased]
          split <;> rintro ⟨⟩

/-- **What a call does**, whatever the tables hold. -/
theorem Invocation.change [Hash256] (i : Invocation T) (db : SchedulerDb T) :
    i.Changes db (i.run db) := by
  rw [Invocation.run]
  cases hcall : i.call with
  | enqueue jobId kind payload maxAttempts notBefore missionId => exact changes_enqueue hcall
  | claim token request =>
    dsimp only [claim]
    by_cases howner : (!isRequired request.owner) = true
    · rw [if_pos howner]
      exact .raised _
    rw [if_neg howner]
    by_cases hresources : request.resourceIds.any (!isRequired ·) = true
    · rw [if_pos hresources]
      exact .raised _
    rw [if_neg hresources]
    exact changes_claimBody hcall
  | heartbeat jobId token =>
    rcases underLease_cases i.now jobId token "heartbeat rejected for stale lease" _ _ db with
      hcase | ⟨job, hmem, rfl, hheld, hcase⟩
    · refine changes_map (fun a db' h ↦ (nomatch h.symm.trans hcase)) fun e db' h ↦ ?_
      exact (EStateM.Result.error.inj (h.symm.trans hcase)).2
    · refine changes_map (fun a db' h ↦ ?_) fun e db' h ↦ (nomatch h.symm.trans hcase)
      obtain ⟨rfl, rfl⟩ := EStateM.Result.ok.inj (h.symm.trans hcase)
      exact .renewed token job hcall hmem hheld
  | complete jobId token missionId =>
    exact changes_released (by rw [hcall]; rfl) (by rw [hcall]; rfl)
      (.inr ⟨_, _, rfl, fun other ↦ ⟨rfl, rfl, rfl, nofun⟩⟩)
  | deadLetter jobId token error missionId =>
    exact changes_released (by rw [hcall]; rfl) (by rw [hcall]; rfl)
      (.inr ⟨_, _, rfl, fun other ↦ ⟨rfl, rfl, rfl, nofun⟩⟩)
  | fail jobId token error missionId =>
    exact changes_released (by rw [hcall]; rfl) (by rw [hcall]; rfl)
      (fail_cases i.scheduler i.now jobId token error missionId db)

/-! ## Runs -/

/-- A call and what came of it. -/
structure Entry (T : Type) where
  invocation : Invocation T
  outcome : Except SchedulerError (Option (JobRow T))

/-- The tables and the calls that led to them. -/
structure QueueRun (T : Type) where
  db : SchedulerDb T
  log : List (Entry T)

def emptyRun (T : Type) : QueueRun T := ⟨emptySchedulerDb T, []⟩

def QueueRun.commit [Hash256] (run : QueueRun T) (i : Invocation T) : QueueRun T :=
  match i.run run.db with
  | .ok row db => ⟨db, run.log ++ [⟨i, .ok row⟩]⟩
  | .error e db => ⟨db, run.log ++ [⟨i, .error e⟩]⟩

/-- What comes of a call. -/
def Invocation.outcome [Hash256] (i : Invocation T) (db : SchedulerDb T) :
    Except SchedulerError (Option (JobRow T)) :=
  match i.run db with
  | .ok row _ => .ok row
  | .error e _ => .error e

/-- The tables and the log after some calls. -/
def QueueRun.commitAll [Hash256] (run : QueueRun T) (calls : List (Invocation T)) : QueueRun T :=
  calls.foldl QueueRun.commit run

/-- The job that the call has claimed, if it is the one with the identity. -/
def Entry.grant? (jobId : String) (entry : Entry T) : Option (JobRow T) :=
  match entry.invocation.call, entry.outcome with
  | .claim _ _, .ok (some row) => if row.id = jobId then some row else none
  | _, _ => none

/-- The job whose lease the call has granted or renewed, if it is the one with the identity. -/
def Entry.lease? (jobId : String) (entry : Entry T) : Option (JobRow T) :=
  match entry.invocation.call, entry.outcome with
  | .claim _ _, .ok (some row) => if row.id = jobId then some row else none
  | .heartbeat _ _, .ok (some row) => if row.id = jobId then some row else none
  | _, _ => none

/-- The leases that were granted to a job, in order. -/
def grants (log : List (Entry T)) (jobId : String) : List (JobRow T) := log.filterMap (·.grant? jobId)

/-- The leases that a job was returned with, granted or renewed, in order. -/
def leases (log : List (Entry T)) (jobId : String) : List (JobRow T) := log.filterMap (·.lease? jobId)

theorem QueueRun.commit_change [Hash256] (run : QueueRun T) (i : Invocation T) :
    ∃ outcome db, QueueChange i run.db outcome db ∧ run.commit i = ⟨db, run.log ++ [⟨i, outcome⟩]⟩ := by
  have hchange := i.change run.db
  rw [QueueRun.commit]
  cases hrun : i.run run.db with
  | ok row db =>
    rw [hrun] at hchange
    exact ⟨.ok row, db, hchange, rfl⟩
  | error e db =>
    rw [hrun] at hchange
    exact ⟨.error e, db, hchange, rfl⟩

/-! ## The log -/

section Log

variable {log : List (Entry T)} {entry : Entry T} {jobId : String}

omit [LinearOrder T]

theorem grants_concat : grants (log ++ [entry]) jobId =
    grants log jobId ++ (entry.grant? jobId).toList := by
  rw [grants, List.filterMap_append, List.filterMap_cons, List.filterMap_nil]
  cases entry.grant? jobId <;> rfl

theorem leases_concat : leases (log ++ [entry]) jobId =
    leases log jobId ++ (entry.lease? jobId).toList := by
  rw [leases, List.filterMap_append, List.filterMap_cons, List.filterMap_nil]
  cases entry.lease? jobId <;> rfl

/-- A call that grants a lease also returns one. -/
theorem Entry.grant?_eq_none (h : entry.lease? jobId = none) : entry.grant? jobId = none := by
  rw [Entry.lease?] at h
  rw [Entry.grant?]
  split
  · next hcall houtcome =>
    rw [hcall, houtcome] at h
    exact h
  · rfl

theorem grants_concat_of_quiet (h : entry.lease? jobId = none) :
    grants (log ++ [entry]) jobId = grants log jobId := by
  rw [grants_concat, Entry.grant?_eq_none h, Option.toList_none, List.append_nil]

theorem leases_concat_of_quiet (h : entry.lease? jobId = none) :
    leases (log ++ [entry]) jobId = leases log jobId := by
  rw [leases_concat, h, Option.toList_none, List.append_nil]

end Log

/-! ## The invariant -/

/-- The attempts of a job are the leases granted to it, and if it is leased, it has the token that it
was granted last and the end that it was returned with last. -/
structure JobRow.Sound (log : List (Entry T)) (job : JobRow T) : Prop where
  attempts : job.attempts = (grants log job.id).length
  bounded : job.attempts ≤ job.maxAttempts
  leased : job.state = .leased →
    (∃ grant, (grants log job.id).getLast? = some grant ∧ grant.leaseToken = job.leaseToken) ∧
    ∃ lease, (leases log job.id).getLast? = some lease ∧ lease.leaseExpiry = job.leaseExpiry

structure QueueRun.Sound (run : QueueRun T) : Prop where
  unique : Rows.Unique JobRow.id run.db.jobs
  known : ∀ jobId, grants run.log jobId ≠ [] → jobId ∈ run.db.jobs.map JobRow.id
  sound : ∀ job ∈ run.db.jobs, job.Sound run.log

omit [LinearOrder T] in
theorem sound_emptyRun : (emptyRun T).Sound := ⟨List.nodup_nil, fun _ h ↦ absurd rfl h, nofun⟩

omit [LinearOrder T] in
/-- A call that returns no lease of a job leaves its soundness alone. -/
theorem JobRow.Sound.concat {log : List (Entry T)} {entry : Entry T} {job : JobRow T}
    (h : job.Sound log) (hquiet : entry.lease? job.id = none) : job.Sound (log ++ [entry]) := by
  obtain ⟨hattempts, hbounded, hleased⟩ := h
  rw [← grants_concat_of_quiet hquiet] at hattempts hleased
  rw [← leases_concat_of_quiet hquiet] at hleased
  exact ⟨hattempts, hbounded, hleased⟩

omit [LinearOrder T] in
/-- A job that was changed and is not leased afterwards. -/
theorem JobRow.Sound.of_unleased {log : List (Entry T)} {job job' : JobRow T} (h : job.Sound log)
    (hid : job'.id = job.id) (hattempts : job'.attempts = job.attempts)
    (hmax : job'.maxAttempts = job.maxAttempts) (hstate : job'.state ≠ .leased) :
    job'.Sound log := by
  refine ⟨?_, ?_, fun hleased ↦ absurd hleased hstate⟩
  · rw [hattempts, hid]
    exact h.attempts
  · rw [hattempts, hmax]
    exact h.bounded

theorem sound_swept {db : SchedulerDb T} {log : List (Entry T)}
    (h : ∀ job ∈ db.jobs, job.Sound log) (now : T) (selector : JobSelector) :
    ∀ job ∈ (db.swept now selector).jobs, job.Sound log :=
  Rows.forall_mem_update (fun job hjob _ ↦ h job hjob) fun job hjob _ ↦
    (h job hjob).of_unleased rfl rfl rfl nofun

theorem ids_swept (db : SchedulerDb T) (now : T) (selector : JobSelector) :
    (db.swept now selector).jobs.map JobRow.id = db.jobs.map JobRow.id :=
  Rows.map_key_update fun _ ↦ rfl

omit [LinearOrder T] in
theorem Entry.lease?_eq_none_of_quiet {i : Invocation T}
    {outcome : Except SchedulerError (Option (JobRow T))} (h : i.call.leases = false)
    (jobId : String) : (⟨i, outcome⟩ : Entry T).lease? jobId = none := by
  rw [Entry.lease?]
  split
  · next hcall _ =>
    rw [hcall] at h
    exact nomatch h
  · next hcall _ =>
    rw [hcall] at h
    exact nomatch h
  · rfl

omit [LinearOrder T] in
theorem Entry.lease?_raised (i : Invocation T) (e : SchedulerError) (jobId : String) :
    (⟨i, .error e⟩ : Entry T).lease? jobId = none := by
  rw [Entry.lease?]
  split
  · next houtcome => exact nomatch houtcome
  · next houtcome => exact nomatch houtcome
  · rfl

omit [LinearOrder T] in
theorem Entry.lease?_idle (i : Invocation T) (jobId : String) :
    (⟨i, .ok none⟩ : Entry T).lease? jobId = none := by
  rw [Entry.lease?]
  split
  · next houtcome => exact nomatch houtcome
  · next houtcome => exact nomatch houtcome
  · rfl

omit [LinearOrder T] in
private theorem QueueRun.Sound.quiet {run : QueueRun T} (h : run.Sound) {entry : Entry T}
    {db : SchedulerDb T} (hquiet : ∀ jobId, entry.lease? jobId = none)
    (hids : db.jobs.map JobRow.id = run.db.jobs.map JobRow.id)
    (hsound : ∀ job ∈ db.jobs, job.Sound run.log) :
    QueueRun.Sound ⟨db, run.log ++ [entry]⟩ := by
  refine ⟨?_, fun jobId hgrants ↦ ?_, fun job hjob ↦ (hsound job hjob).concat (hquiet job.id)⟩
  · rw [Rows.Unique, hids]
    exact h.unique
  · rw [hids]
    rw [grants_concat_of_quiet (hquiet jobId)] at hgrants
    exact h.known jobId hgrants

section Entries

variable {i : Invocation T} {row : JobRow T} {token jobId : String}

omit [LinearOrder T]

theorem Entry.grant?_of_claim {request : ClaimRequest} (hcall : i.call = .claim token request) :
    (⟨i, .ok (some row)⟩ : Entry T).grant? jobId = if row.id = jobId then some row else none := by
  rw [Entry.grant?, hcall]

theorem Entry.lease?_of_claim {request : ClaimRequest} (hcall : i.call = .claim token request) :
    (⟨i, .ok (some row)⟩ : Entry T).lease? jobId = if row.id = jobId then some row else none := by
  rw [Entry.lease?, hcall]

theorem Entry.grant?_of_heartbeat {name : String} (hcall : i.call = .heartbeat name token) :
    (⟨i, .ok (some row)⟩ : Entry T).grant? jobId = none := by
  rw [Entry.grant?, hcall]

theorem Entry.lease?_of_heartbeat {name : String} (hcall : i.call = .heartbeat name token) :
    (⟨i, .ok (some row)⟩ : Entry T).lease? jobId = if row.id = jobId then some row else none := by
  rw [Entry.lease?, hcall]

end Entries

theorem JobRow.lt_of_isClaimable {now : T} {job : JobRow T} (h : job.isClaimable now = true) :
    job.attempts < job.maxAttempts := by
  simp only [JobRow.isClaimable, Bool.and_eq_true, decide_eq_true_eq] at h
  exact h.1

theorem JobRow.state_of_isHeld {now : T} {token : String} {job : JobRow T}
    (h : job.isHeld now token = true) : job.state = .leased := by
  simp only [JobRow.isHeld, Bool.and_eq_true, beq_iff_eq] at h
  exact h.1.1

theorem mem_swept_of_isClaimable {db : SchedulerDb T} {now : T} {job : JobRow T}
    (hjob : job ∈ db.jobs) (hclaimable : job.isClaimable now = true) (selector : JobSelector) :
    job ∈ (db.swept now selector).jobs :=
  Rows.mem_update_of_not hjob (isExhausted_of_isClaimable hclaimable)

theorem unique_swept {db : SchedulerDb T} (h : Rows.Unique JobRow.id db.jobs) (now : T)
    (selector : JobSelector) : Rows.Unique JobRow.id (db.swept now selector).jobs :=
  h.update fun _ ↦ rfl

/-- A step: every call keeps the invariant. -/
theorem QueueRun.Sound.commit [Hash256] {run : QueueRun T} (h : run.Sound) (i : Invocation T) :
    (run.commit i).Sound := by
  obtain ⟨outcome, db, hchange, hcommit⟩ := run.commit_change i
  rw [hcommit]
  cases hchange with
  | raised e => exact h.quiet (Entry.lease?_raised i e) rfl h.sound
  | found row mem presents quiet =>
    exact h.quiet (Entry.lease?_eq_none_of_quiet quiet) rfl h.sound
  | enqueued row presents quiet ready attempts fresh =>
    have hquiet : ∀ jobId, (⟨i, .ok (some row)⟩ : Entry T).lease? jobId = none :=
      Entry.lease?_eq_none_of_quiet quiet
    -- nothing was granted under an identity that no job had
    have hnone : grants run.log row.id = [] := by
      by_contra hgrants
      obtain ⟨job, hjob, hid⟩ := List.mem_map.mp (h.known row.id hgrants)
      exact fresh job hjob hid
    refine ⟨h.unique.concat fresh, fun jobId hgrants ↦ ?_, fun job hjob ↦ ?_⟩
    · rw [grants_concat_of_quiet (hquiet jobId)] at hgrants
      rw [List.map_append]
      exact List.mem_append_left _ (h.known jobId hgrants)
    · refine JobRow.Sound.concat ?_ (hquiet job.id)
      rcases List.mem_append.mp hjob with hjob | hjob
      · exact h.sound job hjob
      · obtain rfl := List.mem_singleton.mp hjob
        refine ⟨?_, ?_, fun hleased ↦ (nomatch ready.symm.trans hleased)⟩
        · rw [attempts, hnone]
          rfl
        · rw [attempts]
          exact Nat.zero_le _
  | idle token request call =>
    exact h.quiet (Entry.lease?_idle i) (ids_swept _ _ _) (sound_swept h.sound _ _)
  | granted token request call job mem claimable free =>
    have hjob := mem_swept_of_isClaimable mem claimable request.selector
    have hunique := unique_swept h.unique i.now request.selector
    have hids := ids_swept run.db i.now request.selector
    have hswept := sound_swept h.sound i.now request.selector
    generalize run.db.swept i.now request.selector = db at hjob hunique hids hswept
    have hquiet : ∀ jobId, job.id ≠ jobId → Entry.lease? jobId ⟨i, .ok (some (job.grant
        request.owner token (i.scheduler.leaseUntil i.now) i.now))⟩ = none := by
      intro jobId hne
      rw [Entry.lease?_of_claim call]
      exact if_neg hne
    refine ⟨hunique.update fun _ ↦ rfl, fun jobId hgrants ↦ ?_,
      Rows.forall_mem_update (fun other hother hnot ↦ ?_) fun other hother heligible ↦ ?_⟩
    · refine (Rows.mem_map_key_update ?_).mpr ?_
      · exact fun _ ↦ rfl
      rw [hids]
      by_cases hid : job.id = jobId
      · exact List.mem_map.mpr ⟨job, mem, hid⟩
      · rw [grants_concat_of_quiet (hquiet jobId hid)] at hgrants
        exact h.known jobId hgrants
    · -- a row that is not granted is not the row of the job
      refine (hswept other hother).concat (hquiet other.id fun hid ↦ ?_)
      obtain rfl := hunique.eq hjob hother hid
      rw [beq_self_eq_true, claimable] at hnot
      exact nomatch hnot
    · simp only [Bool.and_eq_true, beq_iff_eq] at heligible
      obtain rfl := hunique.eq hother hjob heligible.1
      refine ⟨?_, JobRow.lt_of_isClaimable claimable, fun _ ↦ ⟨⟨_, ?_, rfl⟩, _, ?_, rfl⟩⟩
      · rw [grants_concat, Entry.grant?_of_claim call, if_pos rfl, Option.toList_some,
          List.length_append, List.length_singleton]
        exact congrArg (· + 1) (hswept other hother).attempts
      · rw [grants_concat, Entry.grant?_of_claim call, if_pos rfl, Option.toList_some,
          List.getLast?_concat]
      · rw [leases_concat, Entry.lease?_of_claim call, if_pos rfl, Option.toList_some,
          List.getLast?_concat]
  | renewed token job call mem held =>
    have hquiet : ∀ jobId, job.id ≠ jobId →
        Entry.lease? jobId ⟨i, .ok (some (job.renew (i.scheduler.leaseUntil i.now) i.now))⟩ =
          none := by
      intro jobId hne
      rw [Entry.lease?_of_heartbeat call]
      exact if_neg hne
    have hgrants' : ∀ jobId, grants (run.log ++ [⟨i, .ok (some (job.renew
        (i.scheduler.leaseUntil i.now) i.now))⟩]) jobId = grants run.log jobId := by
      intro jobId
      rw [grants_concat, Entry.grant?_of_heartbeat call, Option.toList_none, List.append_nil]
    refine ⟨h.unique.update fun _ ↦ rfl, fun jobId hgrants ↦ ?_,
      Rows.forall_mem_update (fun other hother hnot ↦ ?_) fun other hother hheld ↦ ?_⟩
    · refine (Rows.mem_map_key_update ?_).mpr ?_
      · exact fun _ ↦ rfl
      rw [hgrants'] at hgrants
      exact h.known jobId hgrants
    · refine (h.sound other hother).concat (hquiet other.id fun hid ↦ ?_)
      obtain rfl := h.unique.eq mem hother hid
      rw [beq_self_eq_true, held] at hnot
      exact nomatch hnot
    · simp only [Bool.and_eq_true, beq_iff_eq] at hheld
      obtain rfl := h.unique.eq hother mem hheld.1
      obtain ⟨hattempts, hbounded, hleased⟩ := h.sound other hother
      obtain ⟨hgrant, -⟩ := hleased (JobRow.state_of_isHeld held)
      refine ⟨(hgrants' _).symm ▸ hattempts, hbounded, fun _ ↦ ⟨(hgrants' _).symm ▸ hgrant, _, ?_,
        rfl⟩⟩
      rw [leases_concat, Entry.lease?_of_heartbeat call, if_pos rfl, Option.toList_some,
        List.getLast?_concat]
  | released token job presents quiet mem held change same =>
    refine h.quiet (Entry.lease?_eq_none_of_quiet quiet)
      (Rows.map_key_update fun other ↦ (same other).1) (Rows.forall_mem_update
        (fun other hother _ ↦ h.sound other hother) fun other hother _ ↦ ?_)
    obtain ⟨hid, hattempts, hmax, hstate⟩ := same other
    exact (h.sound other hother).of_unleased hid hattempts hmax hstate

theorem QueueRun.Sound.commitAll [Hash256] {run : QueueRun T} (h : run.Sound)
    (calls : List (Invocation T)) : (run.commitAll calls).Sound := by
  induction calls generalizing run with
  | nil => exact h
  | cons i calls ih => exact ih (h.commit i)

/-! ## What follows -/

/-- A job that is done or given up is not one that any call looks for. -/
theorem JobRow.isExpired_eq_false {job : JobRow T} (h : job.state ≠ .leased) (now : T) :
    job.isExpired now = false := by
  simp only [JobRow.isExpired, beq_eq_false_iff_ne.mpr h, Bool.false_and]

theorem JobRow.isHeld_eq_false {job : JobRow T} (h : job.state ≠ .leased) (now : T)
    (token : String) : job.isHeld now token = false := by
  simp only [JobRow.isHeld, beq_eq_false_iff_ne.mpr h, Bool.false_and]

/-- A step: a job that is done or given up stays as it is. -/
theorem mem_commit_of_settled [Hash256] {run : QueueRun T} {job : JobRow T}
    (hjob : job ∈ run.db.jobs) (hready : job.state ≠ .ready) (hleased : job.state ≠ .leased)
    (i : Invocation T) : job ∈ (run.commit i).db.jobs := by
  have hexpired := JobRow.isExpired_eq_false hleased i.now
  have hswept : ∀ selector, job ∈ (run.db.swept i.now selector).jobs := by
    intro selector
    refine Rows.mem_update_of_not hjob ?_
    rw [JobRow.isExhausted, hexpired]
    rfl
  obtain ⟨outcome, db, hchange, hcommit⟩ := run.commit_change i
  rw [hcommit]
  cases hchange with
  | raised e => exact hjob
  | found row mem presents quiet => exact hjob
  | enqueued row presents quiet ready attempts fresh => exact List.mem_append_left _ hjob
  | idle token request call => exact hswept request.selector
  | granted token request call old mem claimable free =>
    refine Rows.mem_update_of_not (hswept request.selector) ?_
    rw [JobRow.isClaimable, hexpired, beq_eq_false_iff_ne.mpr hready, Bool.false_and,
      Bool.false_or, Bool.and_false, Bool.and_false]
  | renewed token old call mem held =>
    refine Rows.mem_update_of_not hjob ?_
    rw [JobRow.isHeld_eq_false hleased, Bool.and_false]
  | released token old presents quiet mem held change same =>
    refine Rows.mem_update_of_not hjob ?_
    rw [JobRow.isHeld_eq_false hleased, Bool.and_false]

theorem mem_commitAll_of_settled [Hash256] {run : QueueRun T} {job : JobRow T}
    (hjob : job ∈ run.db.jobs) (hready : job.state ≠ .ready) (hleased : job.state ≠ .leased)
    (calls : List (Invocation T)) : job ∈ (run.commitAll calls).db.jobs := by
  induction calls generalizing run with
  | nil => exact hjob
  | cons i calls ih => exact ih (mem_commit_of_settled hjob hready hleased i)

/-- A call under a lease that returns has found the job held under the token. -/
theorem exists_isHeld [Hash256] {i : Invocation T} {db db' : SchedulerDb T}
    {row : Option (JobRow T)} {jobId token : String}
    (hpresents : i.call.presents = some (jobId, token)) (hrun : i.run db = .ok row db') :
    ∃ job ∈ db.jobs, job.id = jobId ∧ job.isHeld i.now token = true := by
  have hchange := i.change db
  rw [hrun] at hchange
  cases hchange with
  | found row mem presents quiet => exact nomatch hpresents.symm.trans presents
  | enqueued row presents quiet ready attempts fresh => exact nomatch hpresents.symm.trans presents
  | idle name request call =>
    rw [call] at hpresents
    exact nomatch hpresents
  | granted name request call job mem claimable free =>
    rw [call] at hpresents
    exact nomatch hpresents
  | renewed name job call mem held =>
    rw [call] at hpresents
    obtain ⟨rfl, rfl⟩ := Prod.mk.inj (Option.some.inj hpresents)
    exact ⟨job, mem, rfl, held⟩
  | released name job presents quiet mem held change same =>
    obtain ⟨rfl, rfl⟩ := Prod.mk.inj (Option.some.inj (hpresents.symm.trans presents))
    exact ⟨job, mem, rfl, held⟩

/-- A claim that returns a job has found it ready, or under a lease that had ended. -/
theorem exists_isClaimable [Hash256] {i : Invocation T} {db db' : SchedulerDb T} {row : JobRow T}
    {token : String} {request : ClaimRequest} (hcall : i.call = .claim token request)
    (hrun : i.run db = .ok (some row) db') :
    ∃ job ∈ db.jobs, job.id = row.id ∧ job.isClaimable i.now = true := by
  have hchange := i.change db
  rw [hrun] at hchange
  cases hchange with
  | found _ mem presents quiet =>
    rw [hcall] at quiet
    exact nomatch quiet
  | enqueued _ presents quiet ready attempts fresh =>
    rw [hcall] at quiet
    exact nomatch quiet
  | granted name request call job mem claimable free => exact ⟨job, mem, rfl, claimable⟩
  | renewed name job call mem held => exact nomatch hcall.symm.trans call
  | released name job presents quiet mem held change same =>
    rw [hcall] at quiet
    exact nomatch quiet

/-- **Whatever calls were made, the leases are sound.** The attempts of a job are the leases granted
to it and at most as many as it may have. A job has one row and so one token, and a call under a
lease returns only with the token of the latest claim and at a time not after the end of the lease.
What is done or given up stays so. A live lease is not granted again, and a call that raises changes
nothing. -/
theorem leases_are_sound [Hash256] (calls : List (Invocation T)) :
    let run := (emptyRun T).commitAll calls
    (∀ job ∈ run.db.jobs,
      job.attempts = (grants run.log job.id).length ∧ job.attempts ≤ job.maxAttempts) ∧
    (∀ job ∈ run.db.jobs, ∀ other ∈ run.db.jobs, job.id = other.id → job = other) ∧
    (∀ (i : Invocation T) (jobId token : String) (row : Option (JobRow T)) (db : SchedulerDb T),
      i.call.presents = some (jobId, token) → i.run run.db = .ok row db →
      ∃ grant lease expiry, (grants run.log jobId).getLast? = some grant ∧
        grant.leaseToken = some token ∧ (leases run.log jobId).getLast? = some lease ∧
        lease.leaseExpiry = some expiry ∧ i.now ≤ expiry) ∧
    (∀ (later : List (Invocation T)), ∀ job ∈ run.db.jobs,
      job.state = .done ∨ job.state = .deadLetter → job ∈ (run.commitAll later).db.jobs) ∧
    (∀ (i : Invocation T) (token : String) (request : ClaimRequest) (row : JobRow T)
      (db : SchedulerDb T), i.call = .claim token request → i.run run.db = .ok (some row) db →
      ∀ job ∈ run.db.jobs, job.id = row.id → ∀ expiry,
        job.state = .leased → job.leaseExpiry = some expiry → expiry < i.now) ∧
    ∀ (i : Invocation T) (e : SchedulerError) (db : SchedulerDb T),
      i.run run.db = .error e db → db = run.db := by
  intro run
  have h : run.Sound := sound_emptyRun.commitAll calls
  refine ⟨fun job hjob ↦ ⟨(h.sound job hjob).attempts, (h.sound job hjob).bounded⟩,
    fun job hjob other hother ↦ h.unique.eq hjob hother, ?_, ?_, ?_, ?_⟩
  · intro i jobId token row db hpresents hrun
    obtain ⟨job, hjob, rfl, hheld⟩ := exists_isHeld hpresents hrun
    simp only [JobRow.isHeld, Bool.and_eq_true, beq_iff_eq, Option.any_eq_true,
      decide_eq_true_eq] at hheld
    obtain ⟨⟨hstate, htoken⟩, expiry, hexpiry, hnow⟩ := hheld
    obtain ⟨⟨grant, hgrant, hsame⟩, lease, hlease, hend⟩ := (h.sound job hjob).leased hstate
    exact ⟨grant, lease, expiry, hgrant, hsame.trans htoken, hlease, hend.trans hexpiry, hnow⟩
  · intro later job hjob hstate
    refine mem_commitAll_of_settled hjob ?_ ?_ later
    · rcases hstate with hstate | hstate <;> rw [hstate] <;> exact nofun
    · rcases hstate with hstate | hstate <;> rw [hstate] <;> exact nofun
  · intro i token request row db hcall hrun job hjob hid expiry hstate hexpiry
    obtain ⟨found, hfound, hname, hclaimable⟩ := exists_isClaimable hcall hrun
    obtain rfl := h.unique.eq hjob hfound (hid.trans hname.symm)
    simp only [JobRow.isClaimable, JobRow.isExpired, hstate, hexpiry, Bool.and_eq_true,
      Bool.or_eq_true, beq_iff_eq, reduceCtorEq, false_and, false_or, Option.any_some,
      decide_eq_true_eq, true_and] at hclaimable
    exact hclaimable.2
  · intro i e db hrun
    have hchange := i.change run.db
    rw [hrun] at hchange
    cases hchange with
    | raised e => rfl

/-! ## A sample -/

/-- Leases of thirty seconds and a backoff of one, in whole seconds. -/
def sampleScheduler : Scheduler ℕ where
  leaseUntil now := now + 30
  retryAt now attempts := some (now + 2 ^ (attempts - 1))

/-- A job is enqueued and claimed. -/
def claimedCalls : List (Invocation ℕ) :=
  [⟨sampleScheduler, 0, .enqueue "JOB-1" "build" [] 3 none none⟩,
    ⟨sampleScheduler, 1, .claim "TOKEN-1" ⟨"worker", ⟨none, none, none⟩, []⟩⟩]

set_option maxRecDepth 2000

/-- A heartbeat within the lease returns, and so with the token of the claim. -/
theorem claimedCalls_sound :
    let run := (emptyRun ℕ).commitAll claimedCalls
    ∃ row db, Invocation.run ⟨sampleScheduler, 31, .heartbeat "JOB-1" "TOKEN-1"⟩ run.db =
        .ok row db ∧
      ∃ grant lease expiry, (grants run.log "JOB-1").getLast? = some grant ∧
        grant.leaseToken = some "TOKEN-1" ∧ (leases run.log "JOB-1").getLast? = some lease ∧
        lease.leaseExpiry = some expiry ∧ 31 ≤ expiry := by
  obtain ⟨row, db, hrun⟩ := exists_eq_ok (show isOk (Invocation.run ⟨sampleScheduler, 31,
    .heartbeat "JOB-1" "TOKEN-1"⟩ ((emptyRun ℕ).commitAll claimedCalls).db) = true by
      decide)
  exact ⟨row, db, hrun, (leases_are_sound claimedCalls).2.2.1 _ "JOB-1" "TOKEN-1" row db rfl hrun⟩

end HiveMind
