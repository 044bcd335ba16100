import HiveMind.Workers.Worker

/-!
# What becomes of a claimed job

A worker that has claimed a job should leave it done, ready for another attempt, or given up. It
does so under the conditions of `KernelWorker.Settles`, which are about what the kernel's store
accepts, about the locks, and about the times at which the lease is looked at. The proof goes along
the code: `fail` and `complete` settle a job or leave the queue as it was, so what counts is which of
them is called and whether the lease has ended then.

That jobs have one row each, and that the payload of a kernel job can be read, are invariants of
everything that happens to the stores.

* **`runOnce_settles_iff`**: exactly when the job is settled that a call has claimed, and that with
  a kernel store no job is attempted twice.
-/

open Std (ExtTreeMap)
open Raise Trace

namespace HiveMind.Workers

section Digests

variable {T : Type} [Hash256] [LinearOrder T] [Add T]

/-! ## Jobs and their payloads -/

/-- What does not change about a job. -/
def task (job : JobRow T) : String × String × String := (job.id, job.kind, job.payloadJson)

def SameTasks (db db' : SchedulerDb T) : Prop := db'.jobs.map task = db.jobs.map task

omit [Hash256] [LinearOrder T] [Add T] in
theorem sameTasks_update {p : JobRow T → Bool} {f : JobRow T → JobRow T} {db : SchedulerDb T}
    {resources : List (ResourceRow T)} (h : ∀ job, task (f job) = task job) :
    SameTasks db ⟨Rows.update p f db.jobs, resources⟩ :=
  Rows.map_key_update h

omit [Hash256] [LinearOrder T] [Add T] in
theorem SameTasks.trans {db₁ db₂ db₃ : SchedulerDb T} (h : SameTasks db₁ db₂)
    (h' : SameTasks db₂ db₃) : SameTasks db₁ db₃ :=
  Eq.trans h' h

omit [Hash256] [LinearOrder T] [Add T] in
theorem after_map {ε σ α β : Type} (f : α → β) (x : EStateM ε σ α) (s : σ) :
    after (f <$> x) s = after x s := by
  change after (EStateM.map f x) s = _
  rw [after, after, EStateM.map]
  cases x s <;> rfl

omit [Hash256] [Add T] in
theorem sameTasks_underLease {now : T} {jobId token message : String}
    {change : JobRow T → JobRow T} {resources : List (ResourceRow T) → List (ResourceRow T)}
    (h : ∀ job, task (change job) = task job) (db : SchedulerDb T) :
    SameTasks db (after (underLease now jobId token message change resources) db) := by
  rw [after, underLease]
  cases Rows.returning (fun job ↦ job.id == jobId && job.isHeld now token) change db.jobs with
  | none => exact sameTasks_update h
  | some row => exact sameTasks_update h

omit [Hash256] [LinearOrder T] [Add T] in
theorem sameTasks_transaction {α : Type} {body : SchedulerM T α} {db : SchedulerDb T}
    (h : SameTasks db (after body db)) : SameTasks db (after (transaction body) db) := by
  rw [after, transaction]
  rw [after] at h
  cases hresult : body db with
  | ok a db' =>
    rw [hresult] at h
    exact h
  | error e db' => rfl

omit [Hash256] [Add T] in
theorem sameTasks_fail (scheduler : Scheduler T) (now : T) (jobId token error : String)
    (missionId : Option String) (db : SchedulerDb T) :
    SameTasks db (after (fail scheduler now jobId token error missionId) db) := by
  rw [fail]
  refine sameTasks_transaction ?_
  cases hfind : db.jobs.find? (·.id == jobId) with
  | none =>
    simp only [after, hfind]
    rfl
  | some current =>
    by_cases hheld : (!current.isHeld now token) = true
    · simp only [after, hfind, hheld, if_true]
      rfl
    · simp only [after, hfind, hheld, Bool.false_eq_true, if_false]
      cases scheduler.retryAt now current.attempts with
      | none => rfl
      | some retry =>
        have hsame : ∀ job : JobRow T, task (JobRow.failed now retry
          (decide (current.maxAttempts ≤ current.attempts)) error missionId job) = task job :=
          fun _ ↦ rfl
        exact sameTasks_underLease hsame db

omit [Add T] in
theorem sameTasks_claim (scheduler : Scheduler T) (now : T) (token : String)
    (request : ClaimRequest) (db : SchedulerDb T) :
    SameTasks db (after (claim scheduler now token request) db) := by
  have hswept : ∀ selector, SameTasks db (db.swept now selector) :=
    fun selector ↦ sameTasks_update fun _ ↦ rfl
  have hchange := (⟨scheduler, now, .claim token request⟩ : Invocation T).change db
  change Invocation.Changes _ db (claim scheduler now token request db) at hchange
  rw [after]
  cases hresult : claim scheduler now token request db with
  | error e db' =>
    rw [hresult] at hchange
    cases hchange
    rfl
  | ok row db' =>
    rw [hresult] at hchange
    cases hchange with
    | found row mem presents quiet => exact nomatch quiet
    | enqueued row presents quiet ready attempts fresh => exact nomatch quiet
    | idle token request call =>
      obtain ⟨rfl, rfl⟩ := SchedulerCall.claim.inj call
      exact hswept _
    | granted token request call job mem claimable free =>
      obtain ⟨rfl, rfl⟩ := SchedulerCall.claim.inj call
      exact (hswept _).trans (sameTasks_update fun _ ↦ rfl)
    | renewed token job call mem held => exact nomatch call
    | released token job presents quiet mem held change same => exact nomatch quiet

/-- A text with the members of a kernel job that a worker needs. -/
def Readable (payloadJson : String) : Prop :=
  ∃ missionId, ((Json.loads payloadJson).bind (·.get? "mission_id")).bind Json.asStr? =
    some missionId

/-- Jobs have one row each, and the payload of a kernel job is what a worker wrote. -/
structure TasksOk (tasks : List (String × String × String)) : Prop where
  unique : (tasks.map Prod.fst).Nodup
  readable : ∀ t ∈ tasks, t.2.1 = "kernel-work" → Readable t.2.2

omit [Hash256] [LinearOrder T] [Add T] in
theorem plain_workPayload (digest missionId workId : String) (paths : List String) :
    (PyValue.dict (("binding_digest", .str digest) :: workPayload missionId workId paths)).plain =
      .ok (.obj [("binding_digest", .str digest), ("mission_id", .str missionId),
        ("work_id", .str workId),
        ("write_scope", .arr ((paths.insertionSort (· ≤ ·)).map .str))]) := by
  rw [PyValue.plain, workPayload]
  simp only [PyValue.plainItems, PyValue.plain, plainList_str, Except.map]
  rw [Json.mkObj_of_pairwise]
  simp only [List.map_cons, List.map_nil]
  decide

omit [Hash256] [LinearOrder T] [Add T] in
/-- The text of a payload that a worker made can be read. -/
theorem readable_workPayload {digest missionId workId encoded : String} {paths : List String}
    (h : canonicalBytes (.dict (("binding_digest", .str digest) ::
      workPayload missionId workId paths)) = .ok encoded) : Readable encoded := by
  have hplain := plain_workPayload digest missionId workId paths
  rw [canonicalBytes, hplain] at h
  obtain rfl := Except.ok.inj h
  refine ⟨missionId, ?_⟩
  rw [Json.loads_dumps (PyValue.sorted_of_plain hplain)]
  rfl

omit [Hash256] [LinearOrder T] [Add T] in
theorem tasksOk_insertOrIgnore {row : JobRow T} {db : SchedulerDb T}
    (hdb : TasksOk (db.jobs.map task)) (hrow : row.kind = "kernel-work" → Readable row.payloadJson) :
    TasksOk ((insertOrIgnore row db).jobs.map task) := by
  rw [insertOrIgnore]
  split
  · exact hdb
  · next hnew =>
    rw [List.map_append, List.map_singleton]
    refine ⟨?_, ?_⟩
    · rw [List.map_append, List.nodup_append]
      refine ⟨hdb.unique, List.nodup_singleton _, ?_⟩
      rintro id hold _ hid rfl
      obtain rfl := List.mem_singleton.mp hid
      obtain ⟨_, ht, htask⟩ := List.mem_map.mp hold
      obtain ⟨job, hjob, rfl⟩ := List.mem_map.mp ht
      refine hnew (List.any_eq_true.mpr ⟨job, hjob, ?_⟩)
      rw [Bool.or_eq_true, beq_iff_eq]
      exact .inl htask
    · intro t ht hkind
      rcases List.mem_append.mp ht with ht | ht
      · exact hdb.readable t ht hkind
      · obtain rfl := List.mem_singleton.mp ht
        exact hrow hkind

omit [Hash256] [LinearOrder T] [Add T] in
theorem eq_of_insertJob {row row' : JobRow T} {db db' : SchedulerDb T}
    (h : insertJob row db = .ok row' db') : db' = insertOrIgnore row db := by
  rw [insertJob] at h
  cases hfind : (insertOrIgnore row db).jobs.find? (·.payloadDigest == row.payloadDigest) with
  | none =>
    simp only [hfind] at h
    cases h
  | some found =>
    simp only [hfind] at h
    exact (EStateM.Result.ok.inj h).2.symm

omit [Add T] in
/-- Enqueueing adds one job at most. -/
theorem tasksOk_enqueue {now : T} {jobId kind : String} {payload : List (String × PyValue)}
    {maxAttempts : Int} {notBefore : Option T} {missionId : Option String} {db : SchedulerDb T}
    (hdb : TasksOk (db.jobs.map task))
    (hpayload : kind = "kernel-work" → ∀ encoded, canonicalBytes (.dict payload) = .ok encoded →
      Readable encoded) :
    TasksOk ((after (enqueue now jobId kind payload maxAttempts notBefore missionId)
      db).jobs.map task) := by
  cases hresult : enqueue now jobId kind payload maxAttempts notBefore missionId db with
  | error e db' =>
    -- a call that raises changes nothing
    let i : Invocation T := ⟨⟨fun t ↦ t, fun _ _ ↦ none⟩, now,
      .enqueue jobId kind payload maxAttempts notBefore missionId⟩
    have hchange := i.change db
    have hrun : i.run db = .error e db' := by
      change EStateM.map some _ db = _
      rw [EStateM.map, hresult]
    rw [hrun] at hchange
    cases hchange
    rw [after, hresult]
    exact hdb
  | ok row db' =>
    have hstate : after (enqueue now jobId kind payload maxAttempts notBefore missionId) db = db' := by
      rw [after, hresult]
    rw [hstate]
    simp only [enqueue, run_guard_eq_ok, run_bind_eq_ok, run_lift_eq_ok, mapError_eq_ok] at hresult
    obtain ⟨-, encoded, _, ⟨hencoded, rfl⟩, -, hinsert⟩ := hresult
    rw [eq_of_insertJob hinsert]
    exact tasksOk_insertOrIgnore hdb fun hkind ↦ hpayload hkind encoded hencoded

omit [Add T] in
/-- No other call of the queue changes the jobs. -/
theorem tasksOk_run {i : Invocation T} (ordinary : enqueuesWork i.call = false)
    {db : SchedulerDb T} (hdb : TasksOk (db.jobs.map task)) :
    TasksOk ((after i.run db).jobs.map task) := by
  have hsame : ∀ {x : SchedulerM T (Option (JobRow T))}, SameTasks db (after x db) →
      TasksOk ((after x db).jobs.map task) := by
    intro x h
    rw [h]
    exact hdb
  rw [Invocation.run]
  cases hcall : i.call with
  | enqueue jobId kind payload maxAttempts notBefore missionId =>
    rw [hcall] at ordinary
    dsimp only
    rw [after_map]
    refine tasksOk_enqueue hdb fun hkind ↦ ?_
    rw [enqueuesWork, hkind] at ordinary
    cases ordinary
  | claim token request => exact hsame (sameTasks_claim _ _ _ _ _)
  | heartbeat jobId token =>
    refine hsame ?_
    rw [after_map, heartbeat]
    refine sameTasks_underLease ?_ db
    exact fun _ ↦ rfl
  | complete jobId token missionId =>
    refine hsame ?_
    rw [after_map, complete]
    refine sameTasks_underLease ?_ db
    exact fun _ ↦ rfl
  | fail jobId token error missionId =>
    refine hsame ?_
    rw [after_map]
    exact sameTasks_fail _ _ _ _ _ _ _
  | deadLetter jobId token error missionId =>
    refine hsame ?_
    rw [after_map, deadLetter]
    refine sameTasks_underLease ?_ db
    exact fun _ ↦ rfl

/-! ## Jobs under a lease -/

/-- The job is done, ready for another attempt, or given up. -/
def Settled (db : SchedulerDb T) (jobId : String) : Prop :=
  ∃ job ∈ db.jobs, job.id = jobId ∧ job.state ≠ .leased

/-- The job has the one row of its identity, and is leased. -/
structure LeasedUntil (db : SchedulerDb T) (job : JobRow T) (token : String) (expiry : T) : Prop where
  unique : Rows.Unique JobRow.id db.jobs
  mem : job ∈ db.jobs
  state : job.state = .leased
  token : job.leaseToken = some token
  expiry : job.leaseExpiry = some expiry

section Leased

variable {db db' : SchedulerDb T} {job : JobRow T} {token : String} {expiry now : T}

omit [Hash256] [LinearOrder T] [Add T] in
theorem LeasedUntil.not_settled (h : LeasedUntil db job token expiry) : ¬Settled db job.id := by
  rintro ⟨other, hother, hid, hstate⟩
  obtain rfl := h.unique.eq hother h.mem hid
  exact hstate h.state

omit [Hash256] [Add T] in
theorem LeasedUntil.isHeld (h : LeasedUntil db job token expiry) :
    job.isHeld now token = decide (now ≤ expiry) := by
  rw [JobRow.isHeld, h.state, h.token, h.expiry]
  simp

omit [Add T] in
/-- A call that ends a lease settles the job if it returns, and otherwise leaves the queue as it
was. -/
theorem run_cases {i : Invocation T} {x : SchedulerM T (JobRow T)} (hx : i.run = some <$> x)
    (hpresents : i.call.presents = some (job.id, token)) (hquiet : i.call.leases = false)
    (db : SchedulerDb T) :
    (isOk (x db) = true ∧ ∃ row db', x db = .ok row db' ∧ Settled db' job.id) ∨
      (isOk (x db) = false ∧ ∃ e, x db = .error e db) := by
  have hchange := i.change db
  have hrun : i.run db = EStateM.map some x db := by
    rw [hx]
    rfl
  cases hresult : x db with
  | error e db' =>
    rw [hrun, EStateM.map, hresult] at hchange
    cases hchange
    exact .inr ⟨rfl, e, rfl⟩
  | ok row db' =>
    refine .inl ⟨rfl, row, db', rfl, ?_⟩
    rw [hrun, EStateM.map, hresult] at hchange
    cases hchange with
    | found row mem presents quiet => exact nomatch hpresents.symm.trans presents
    | enqueued row presents quiet ready attempts fresh => exact nomatch hpresents.symm.trans presents
    | granted name request call other mem claimable free =>
      rw [call] at hquiet
      exact nomatch hquiet
    | renewed name other call mem held =>
      rw [call] at hquiet
      exact nomatch hquiet
    | released name other presents quiet mem held change same =>
      obtain ⟨hid, rfl⟩ := Prod.mk.inj (Option.some.inj (hpresents.symm.trans presents))
      refine ⟨change other, Rows.mem_update.mpr ⟨other, mem, ?_⟩, (same other).1.trans hid.symm,
        (same other).2.2.2⟩
      rw [beq_self_eq_true, held]
      rfl

omit [Hash256] [Add T] in
theorem LeasedUntil.isOk_underLease_iff (h : LeasedUntil db job token expiry) {message : String}
    {change : JobRow T → JobRow T} {resources : List (ResourceRow T) → List (ResourceRow T)} :
    isOk (underLease now job.id token message change resources db) = true ↔ now ≤ expiry := by
  have hreturning : (Rows.returning (fun other : JobRow T ↦ other.id == job.id &&
      other.isHeld now token) change db.jobs).isSome = true ↔ now ≤ expiry := by
    rw [← not_iff_not, Bool.not_eq_true, Option.isSome_eq_false_iff, Option.isNone_iff_eq_none,
      Rows.returning_eq_none]
    constructor
    · intro hnone hle
      have hjob := hnone job h.mem
      rw [beq_self_eq_true, h.isHeld, decide_eq_true hle] at hjob
      exact nomatch hjob
    · intro hlt other hother
      by_cases hid : other.id = job.id
      · obtain rfl := h.unique.eq hother h.mem hid
        rw [h.isHeld, decide_eq_false hlt, Bool.and_false]
      · rw [beq_eq_false_iff_ne.mpr hid, Bool.false_and]
  rw [← hreturning, underLease]
  cases Rows.returning (fun other ↦ other.id == job.id && other.isHeld now token) change db.jobs with
  | none => exact Iff.rfl
  | some row => exact Iff.rfl

omit [Hash256] [Add T] in
theorem LeasedUntil.isOk_fail_iff (h : LeasedUntil db job token expiry) {scheduler : Scheduler T}
    {error : String} {missionId : Option String} :
    isOk (fail scheduler now job.id token error missionId db) = true ↔
      now ≤ expiry ∧ (scheduler.retryAt now job.attempts).isSome = true := by
  have hfind : db.jobs.find? (·.id == job.id) = some job := h.unique.find?_eq h.mem
  rw [fail]
  refine (Eq.congr_left (isOk_transaction _ db)).trans ?_
  simp only [hfind, h.isHeld]
  by_cases hle : now ≤ expiry
  · simp only [hle, decide_true, Bool.not_true, Bool.false_eq_true, if_false, true_and]
    cases scheduler.retryAt now job.attempts with
    | none => exact ⟨by rintro ⟨⟩, by rintro ⟨⟩⟩
    | some retry => simp only [h.isOk_underLease_iff, hle, Option.isSome_some]
  · simp only [hle, decide_false, Bool.not_false, if_true, false_and, iff_false]
    rintro ⟨⟩

end Leased

/-! ## Moves of the work item -/

/-- The kernel accepts that the work item of a job is moved through the states. Without a store this
is always so. -/
def KernelWorker.Accepts (w : KernelWorker T) (job : JobRow T) (statuses : List WorkState)
    (db : KernelDb) : Prop :=
  ∃ db', statuses.forM (w.transition job) db = .ok () db'

section Runs

variable {w : KernelWorker T} {r : RunInputs T} {job : JobRow T} {s : Stores T}
  {token lockOwner error : String} {expiry : T} {db : KernelDb}

omit [LinearOrder T] [Add T] in
theorem accepts_nil : w.Accepts job [] db := ⟨db, rfl⟩

omit [LinearOrder T] [Add T] in
theorem accepts_cons {status : WorkState} {statuses : List WorkState} :
    w.Accepts job (status :: statuses) db ↔
      ∃ db', w.transition job status db = .ok () db' ∧ w.Accepts job statuses db' := by
  rw [KernelWorker.Accepts]
  constructor
  · rintro ⟨db', h⟩
    obtain ⟨_, t, hfirst, hrest⟩ := run_bind_eq_ok.mp h
    exact ⟨t, hfirst, db', hrest⟩
  · rintro ⟨t, hfirst, db', hrest⟩
    exact ⟨db', run_bind_eq_ok.mpr ⟨(), t, hfirst, hrest⟩⟩

omit [LinearOrder T] [Add T] in
theorem accepts_of_store_eq_none (h : w.store = none) (statuses : List WorkState) :
    w.Accepts job statuses db := by
  induction statuses with
  | nil => exact accepts_nil
  | cons status statuses ih =>
    refine accepts_cons.mpr ⟨db, ?_, ih⟩
    rw [KernelWorker.transition, h]
    rfl

omit [Hash256] [LinearOrder T] [Add T] in
theorem onKernel_eq_ok {α : Type} {x : StoreM α} {a : α} {db' : KernelDb} :
    onKernel x db = .ok a db' ↔ x db = .ok a db' := by
  rw [onKernel]
  cases x db with
  | ok b t => simp only [EStateM.Result.ok.injEq]
  | error e t => exact ⟨fun h ↦ (nomatch h), fun h ↦ (nomatch h)⟩

omit [Hash256] [LinearOrder T] [Add T] in
theorem eventId_of_workEvent {status : WorkState} {previousDigest : Option String}
    {event : KernelEvent} (h : w.workEvent job status previousDigest = .ok event) :
    event.eventId = "worker:" ++ job.id ++ ":" ++ status.value := by
  simp only [KernelWorker.workEvent, bind_eq_ok] at h
  obtain ⟨missionId, -, workId, -, h⟩ := h
  split at h
  · obtain rfl := Except.ok.inj h
    rfl
  · cases h

omit [LinearOrder T] [Add T] in
/-- An event without a key is new if it is accepted. -/
theorem fresh_of_append {readOnly : Bool} {event : KernelEvent} {recordedAt : String} {n : Nat}
    {db' : KernelDb} (h : append readOnly event none recordedAt none db = .ok n db') :
    event.eventId ∉ db.events.map (·.head.eventId) := by
  simp only [append, run_bind_eq_ok, appendBatch_ok_iff] at h
  obtain ⟨sequences, _, ⟨-, ⟨hnil, -⟩ | ⟨-, -, -, hlocked⟩⟩, -⟩ := h
  · cases hnil
  · simp only [appendLocked, run_bind_eq_ok, run_get_eq_ok, run_guard_eq_ok, run_lift_eq_ok,
      mapM_eq_ok] at hlocked
    obtain ⟨_, _, ⟨rfl, rfl⟩, -, existing, _, ⟨hexisting, rfl⟩, -⟩ := hlocked
    obtain ⟨found, -, hfound, -, -⟩ := List.forall₂_cons_left_iff.mp hexisting
    rcases existingSequence_eq_ok.mp hfound with ⟨-, hfresh⟩ | ⟨n, -, hstored⟩
    · exact hfresh.eventId
    · cases hstored.bound

omit [LinearOrder T] [Add T] in
/-- An event is recorded once. -/
theorem not_accepts_of_recorded {status : WorkState} {statuses : List WorkState}
    (hstore : w.store ≠ none)
    (hrecorded : "worker:" ++ job.id ++ ":" ++ status.value ∈ db.events.map (·.head.eventId)) :
    ¬w.Accepts job (status :: statuses) db := by
  obtain ⟨readOnly, hstore⟩ := Option.ne_none_iff_exists'.mp hstore
  intro h
  obtain ⟨db', htransition, -⟩ := accepts_cons.mp h
  simp only [KernelWorker.transition, hstore, events, run_bind_eq_ok, onKernel_eq_ok, run_get_eq_ok,
    run_lift_eq_ok] at htransition
  obtain ⟨_, _, ⟨_, _, ⟨rfl, rfl⟩, -, rfl⟩, _, _, ⟨rfl, rfl⟩, event, _, ⟨hevent, rfl⟩, n, _,
    happend, -⟩ := htransition
  refine fresh_of_append happend ?_
  rw [eventId_of_workEvent hevent]
  exact hrecorded

/-- The lease has not ended when the job is failed, and there is a time for the next attempt. -/
def KernelWorker.InTime (w : KernelWorker T) (r : RunInputs T) (job : JobRow T) (expiry : T) : Prop :=
  r.failedAt ≤ expiry ∧ (w.scheduler.retryAt r.failedAt job.attempts).isSome = true

/-- Nothing is in the way of completing the job: the work item is moved through all states, the
executor returns, and the lease has not ended then. -/
def KernelWorker.Finishes (w : KernelWorker T) (r : RunInputs T) (job : JobRow T) (expiry : T)
    (statuses : List WorkState) (db : KernelDb) : Prop :=
  w.Accepts job statuses db ∧ r.raised = none ∧ r.completedAt ≤ expiry

omit [Add T] in
/-- A failure settles the job if it comes in time. -/
theorem LeasedUntil.fail_cases {db : SchedulerDb T} (h : LeasedUntil db job token expiry)
    (w : KernelWorker T) (r : RunInputs T) (error : String) :
    (w.InTime r job expiry ∧ ∃ row db', fail w.scheduler r.failedAt job.id token error none db =
      .ok row db' ∧ Settled db' job.id) ∨
    (¬w.InTime r job expiry ∧ ∃ e, fail w.scheduler r.failedAt job.id token error none db =
      .error e db) := by
  have hcases := run_cases (i := ⟨w.scheduler, r.failedAt, .fail job.id token error none⟩)
    (x := fail w.scheduler r.failedAt job.id token error none) rfl rfl rfl db
  rw [← Bool.not_eq_true, h.isOk_fail_iff] at hcases
  exact hcases

omit [Add T] in
/-- So does a completion. -/
theorem LeasedUntil.complete_cases {db : SchedulerDb T} (h : LeasedUntil db job token expiry)
    (now : T) (missionId : String) :
    (now ≤ expiry ∧ ∃ row db', complete now job.id token missionId db = .ok row db' ∧
      Settled db' job.id) ∨
    (¬now ≤ expiry ∧ ∃ e, complete now job.id token missionId db = .error e db) := by
  have hcases := run_cases
    (i := ⟨⟨fun t ↦ t, fun _ _ ↦ none⟩, now, .complete job.id token missionId⟩)
    (x := complete now job.id token missionId) rfl rfl rfl db
  rw [← Bool.not_eq_true, complete, h.isOk_underLease_iff] at hcases
  exact hcases

omit [Add T] in
theorem settled_giveUp_iff (h : LeasedUntil s.scheduler job token expiry) :
    Settled (after (w.giveUp r job token error) s).scheduler job.id ↔ w.InTime r job expiry := by
  rw [after, KernelWorker.giveUp]
  rcases h.fail_cases w r error with ⟨htime, row, db, hfail, hsettled⟩ | ⟨htime, e, hfail⟩
  · simp only [hfail]
    exact iff_of_true hsettled htime
  · simp only [hfail]
    exact iff_of_false h.not_settled htime

omit [Add T] in
/-- The body of the `try` completes the job, or raises and leaves the queue as it was. -/
theorem work_cases (h : LeasedUntil s.scheduler job token expiry)
    (hmission : ∃ missionId, payloadText job "mission_id" = .ok missionId) :
    (w.Finishes r job expiry [.running, .awaitingVerification] s.kernel ∧
      ∃ s', w.work r job token s = .ok () s' ∧ Settled s'.scheduler job.id) ∨
    (¬w.Finishes r job expiry [.running, .awaitingVerification] s.kernel ∧
      ∃ e s', w.work r job token s = .error e s' ∧ s'.scheduler = s.scheduler) := by
  obtain ⟨missionId, hmission⟩ := hmission
  rw [KernelWorker.work]
  cases hrunning : w.transition job .running s.kernel with
  | error e kernel =>
    refine .inr ⟨?_, e, _, rfl, rfl⟩
    rintro ⟨haccepts, -⟩
    obtain ⟨db, hok, -⟩ := accepts_cons.mp haccepts
    exact nomatch hrunning.symm.trans hok
  | ok _ kernel =>
    dsimp only
    cases hraised : r.raised with
    | some e =>
      refine .inr ⟨?_, e, _, rfl, rfl⟩
      rintro ⟨-, hnone, -⟩
      exact nomatch hraised.symm.trans hnone
    | none =>
      dsimp only
      cases hawaiting : w.transition job .awaitingVerification kernel with
      | error e kernel' =>
        refine .inr ⟨?_, e, _, rfl, rfl⟩
        rintro ⟨haccepts, -⟩
        obtain ⟨db, hok, haccepts⟩ := accepts_cons.mp haccepts
        obtain ⟨-, rfl⟩ := EStateM.Result.ok.inj (hrunning.symm.trans hok)
        obtain ⟨db', hok', -⟩ := accepts_cons.mp haccepts
        exact nomatch hawaiting.symm.trans hok'
      | ok _ kernel' =>
        have haccepts : w.Accepts job [.running, .awaitingVerification] s.kernel :=
          accepts_cons.mpr ⟨kernel, hrunning, accepts_cons.mpr ⟨kernel', hawaiting, accepts_nil⟩⟩
        dsimp only
        rw [hmission]
        dsimp only
        rcases h.complete_cases r.completedAt missionId with
          ⟨hle, row, db, hcomplete, hsettled⟩ | ⟨hle, e, hcomplete⟩
        · rw [hcomplete]
          exact .inl ⟨⟨haccepts, hraised, hle⟩, _, rfl, hsettled⟩
        · rw [hcomplete]
          exact .inr ⟨fun hfinishes ↦ hle hfinishes.2.2, _, _, rfl, rfl⟩

omit [Add T] in
/-- The job is settled at the end of the `try` if it is completed or failed in time. -/
theorem settled_attempt_iff (h : LeasedUntil s.scheduler job token expiry)
    (hmission : ∃ missionId, payloadText job "mission_id" = .ok missionId) :
    Settled (after (w.attempt r job token lockOwner) s).scheduler job.id ↔
      w.Finishes r job expiry [.running, .awaitingVerification] s.kernel ∨
        w.InTime r job expiry := by
  rw [after, KernelWorker.attempt]
  rcases work_cases (w := w) (r := r) h hmission with
    ⟨hfinishes, s', hwork, hsettled⟩ | ⟨hfinishes, e, s', hwork, hsame⟩
  · simp only [hwork]
    exact ⟨fun _ ↦ .inl hfinishes, fun _ ↦ hsettled⟩
  · rw [or_iff_right hfinishes]
    rcases h.fail_cases w r e.describe with ⟨htime, row, db, hfail, hsettled⟩ | ⟨htime, e', hfail⟩
    · simp only [hwork, hsame, hfail]
      exact iff_of_true hsettled htime
    · simp only [hwork, hsame, hfail]
      refine iff_of_false ?_ htime
      cases e' <;> exact h.not_settled

/-- No path of the job has a lock that has not expired. -/
def Unlocked (r : RunInputs T) (job : JobRow T) (locks : List (ScopeLock T)) : Prop :=
  ∀ lock ∈ locks, lock.path ∈ writeScope job → lock.expiresAt < r.lockedAt

omit [Hash256] in
theorem acquire_fst_iff {ttl : T} {locks : List (ScopeLock T)} :
    (acquire (writeScope job) lockOwner r.lockedAt ttl locks).1 = true ↔ Unlocked r job locks := by
  have hheld : (locks.filter fun lock ↦ ¬lock.expiresAt < r.lockedAt).any
      (fun lock ↦ lock.path ∈ writeScope job) = true ↔ ¬Unlocked r job locks := by
    simp only [List.any_eq_true, List.mem_filter, Unlocked, decide_eq_true_eq, not_forall,
      exists_prop]
    exact exists_congr fun lock ↦ by tauto
  rw [acquire]
  split
  · next hany => exact iff_of_false Bool.false_ne_true (hheld.mp hany)
  · next hany => exact iff_of_true rfl (not_not.mp fun hnot ↦ hany (hheld.mpr hnot))

/-- A kernel job is settled if the kernel accepts the first move, and the job is failed in time, or
its paths are not locked and nothing is in the way of completing it. -/
theorem settled_handle_iff (h : LeasedUntil s.scheduler job token expiry)
    (hmission : ∃ missionId, payloadText job "mission_id" = .ok missionId) :
    Settled (after (w.handle r job token) s).scheduler job.id ↔
      w.Accepts job [.leased] s.kernel ∧ (w.InTime r job expiry ∨ Unlocked r job s.locks ∧
        w.Finishes r job expiry [.leased, .running, .awaitingVerification] s.kernel) := by
  rw [after, KernelWorker.handle]
  cases hleased : w.transition job .leased s.kernel with
  | error e kernel =>
    refine iff_of_false h.not_settled ?_
    rintro ⟨haccepts, -⟩
    obtain ⟨db, hok, -⟩ := accepts_cons.mp haccepts
    exact nomatch hleased.symm.trans hok
  | ok _ kernel =>
    have haccepts : w.Accepts job [.leased] s.kernel :=
      accepts_cons.mpr ⟨kernel, hleased, accepts_nil⟩
    have hfinishes : w.Finishes r job expiry [.leased, .running, .awaitingVerification] s.kernel ↔
        w.Finishes r job expiry [.running, .awaitingVerification] kernel := by
      refine and_congr_left fun _ ↦ ?_
      rw [accepts_cons]
      constructor
      · rintro ⟨db, hok, hrest⟩
        obtain ⟨-, rfl⟩ := EStateM.Result.ok.inj (hleased.symm.trans hok)
        exact hrest
      · intro hrest
        exact ⟨kernel, hleased, hrest⟩
    rw [and_iff_right haccepts, hfinishes]
    have hleasedUntil : ∀ locks, LeasedUntil ({ s with kernel := kernel, locks := locks } :
      Stores T).scheduler job token expiry := fun _ ↦ h
    dsimp only
    by_cases hfree : Unlocked r job s.locks
    · rw [if_pos (acquire_fst_iff.mpr hfree), and_iff_right hfree, or_comm]
      exact settled_attempt_iff (hleasedUntil _) hmission
    · rw [if_neg fun htaken ↦ hfree (acquire_fst_iff.mp htaken),
        or_iff_left fun hboth ↦ hfree hboth.1]
      exact settled_giveUp_iff (hleasedUntil _)

/-! ## Invariants of the queue -/

omit [Hash256] [Add T] in
theorem sameTasks_giveUp : SameTasks s.scheduler (after (w.giveUp r job token error) s).scheduler := by
  have hfail := sameTasks_fail w.scheduler r.failedAt job.id token error none s.scheduler
  rw [after] at hfail ⊢
  rw [KernelWorker.giveUp]
  cases hresult : fail w.scheduler r.failedAt job.id token error none s.scheduler with
  | ok row db =>
    rw [hresult] at hfail
    exact hfail
  | error e db =>
    rw [hresult] at hfail
    exact hfail

omit [Add T] in
theorem sameTasks_work : SameTasks s.scheduler (after (w.work r job token) s).scheduler := by
  rw [after, KernelWorker.work]
  cases w.transition job .running s.kernel with
  | error e kernel => rfl
  | ok _ kernel =>
    dsimp only
    cases r.raised with
    | some e => rfl
    | none =>
      dsimp only
      cases w.transition job .awaitingVerification kernel with
      | error e kernel => rfl
      | ok _ kernel =>
        dsimp only
        cases payloadText job "mission_id" with
        | error e => rfl
        | ok missionId =>
          have hcomplete : SameTasks s.scheduler
              (after (complete r.completedAt job.id token missionId) s.scheduler) := by
            rw [complete]
            refine sameTasks_underLease ?_ s.scheduler
            exact fun _ ↦ rfl
          dsimp only
          rw [after] at hcomplete
          cases hresult : complete r.completedAt job.id token missionId s.scheduler with
          | ok row db =>
            rw [hresult] at hcomplete
            exact hcomplete
          | error e db =>
            rw [hresult] at hcomplete
            exact hcomplete

omit [Add T] in
theorem sameTasks_attempt :
    SameTasks s.scheduler (after (w.attempt r job token lockOwner) s).scheduler := by
  have hwork : SameTasks s.scheduler (after (w.work r job token) s).scheduler := sameTasks_work
  rw [after] at hwork ⊢
  rw [KernelWorker.attempt]
  cases hresult : w.work r job token s with
  | ok _ s' =>
    rw [hresult] at hwork
    exact hwork
  | error e s' =>
    rw [hresult] at hwork
    refine hwork.trans ?_
    have hfail := sameTasks_fail w.scheduler r.failedAt job.id token e.describe none s'.scheduler
    dsimp only
    rw [after] at hfail
    cases hresult' : fail w.scheduler r.failedAt job.id token e.describe none s'.scheduler with
    | ok row db =>
      rw [hresult'] at hfail
      exact hfail
    | error e' db =>
      rw [hresult'] at hfail
      cases e' <;> exact hfail

theorem sameTasks_handle : SameTasks s.scheduler (after (w.handle r job token) s).scheduler := by
  rw [after, KernelWorker.handle]
  cases w.transition job .leased s.kernel with
  | error e kernel => rfl
  | ok _ kernel =>
    dsimp only
    by_cases hfree : Unlocked r job s.locks
    · rw [if_pos (acquire_fst_iff.mpr hfree)]
      exact sameTasks_attempt (s := { s with kernel := kernel, locks := _ })
    · rw [if_neg fun htaken ↦ hfree (acquire_fst_iff.mp htaken)]
      exact sameTasks_giveUp (s := { s with kernel := kernel, locks := _ })

theorem sameTasks_runOnce : SameTasks s.scheduler (after (w.runOnce r) s).scheduler := by
  have hclaim : SameTasks s.scheduler (after (w.claimJob r) s.scheduler) := sameTasks_claim _ _ _ _ _
  rw [after] at hclaim ⊢
  rw [KernelWorker.runOnce]
  cases hresult : w.claimJob r s.scheduler with
  | error e db =>
    rw [hresult] at hclaim
    exact hclaim
  | ok found db =>
    rw [hresult] at hclaim
    cases found with
    | none => exact hclaim
    | some job =>
      refine hclaim.trans ?_
      dsimp only
      cases job.leaseToken with
      | none => exact sameTasks_giveUp (s := { s with scheduler := db })
      | some token =>
        dsimp only
        by_cases hkind : job.kind ≠ "kernel-work"
        · rw [if_pos hkind]
          exact sameTasks_giveUp (s := { s with scheduler := db })
        · rw [if_neg hkind]
          exact sameTasks_handle (s := { s with scheduler := db })

omit [Add T] in
/-- What a worker puts into the queue can be read. -/
theorem tasksOk_workerEnqueue (h : TasksOk (s.scheduler.jobs.map task)) {now : T}
    {jobId missionId workId : String} {paths : List String} {maxAttempts : Int} :
    TasksOk ((after (w.enqueue now jobId missionId workId paths maxAttempts)
      s).scheduler.jobs.map task) := by
  rw [after, KernelWorker.enqueue]
  cases canonicalDigest (.dict (workPayload missionId workId paths)) with
  | error e => exact h
  | ok digest =>
    have henqueue : TasksOk ((after (enqueue now jobId "kernel-work" (("binding_digest", .str digest) ::
        workPayload missionId workId paths) maxAttempts none (some missionId))
        s.scheduler).jobs.map task) :=
      tasksOk_enqueue h fun _ encoded hencoded ↦ readable_workPayload hencoded
    rw [after] at henqueue
    dsimp only
    cases hresult : enqueue now jobId "kernel-work" (("binding_digest", .str digest) ::
        workPayload missionId workId paths) maxAttempts none (some missionId) s.scheduler with
    | error e db =>
      rw [hresult] at henqueue
      exact henqueue
    | ok job db =>
      rw [hresult] at henqueue
      dsimp only
      cases w.propose job workId s.kernel with
      | error e kernel => exact henqueue
      | ok _ kernel => exact henqueue

/-- Whatever happens, jobs have one row each and kernel jobs can be read. -/
theorem tasksOk_apply (h : TasksOk (s.scheduler.jobs.map task)) (change : Change T) :
    TasksOk ((change.apply s).scheduler.jobs.map task) := by
  cases change with
  | enqueue w now jobId missionId workId paths maxAttempts => exact tasksOk_workerEnqueue h
  | runOnce w r =>
    rw [Change.apply, sameTasks_runOnce]
    exact h
  | queue i ordinary => exact tasksOk_run ordinary h
  | cancel w job => exact h
  | acquire paths owner now ttl => exact h
  | release owner => exact h
  | append call => exact h

theorem Reachable.tasksOk (h : Reachable s) : TasksOk (s.scheduler.jobs.map task) := by
  obtain ⟨changes, rfl⟩ := h
  have hrun : ∀ s : Stores T, TasksOk (s.scheduler.jobs.map task) →
      TasksOk ((changes.foldl Change.apply s).scheduler.jobs.map task) := by
    induction changes with
    | nil => exact fun s h ↦ h
    | cons change changes ih => exact fun s h ↦ ih _ (tasksOk_apply h change)
  exact hrun _ ⟨List.nodup_nil, fun _ h ↦ absurd h List.not_mem_nil⟩

omit [Add T] in
/-- A job that was claimed is leased until the end of its lease. -/
theorem leasedUntil_of_claimJob {db : SchedulerDb T} (h : TasksOk (s.scheduler.jobs.map task))
    (hclaim : w.claimJob r s.scheduler = .ok (some job) db) :
    LeasedUntil db job r.token (w.scheduler.leaseUntil r.claimedAt) := by
  have hsame : SameTasks s.scheduler (after (w.claimJob r) s.scheduler) := sameTasks_claim _ _ _ _ _
  rw [after, hclaim] at hsame
  have hunique : Rows.Unique JobRow.id db.jobs := by
    have hids := h.unique
    rw [← hsame, List.map_map] at hids
    exact hids
  have hchange := (⟨w.scheduler, r.claimedAt, .claim r.token ⟨w.owner, ⟨none, none, none⟩, []⟩⟩ :
    Invocation T).change s.scheduler
  change Invocation.Changes _ s.scheduler (w.claimJob r s.scheduler) at hchange
  rw [hclaim] at hchange
  cases hchange with
  | found row mem presents quiet => exact nomatch quiet
  | enqueued row presents quiet ready attempts fresh => exact nomatch quiet
  | granted token request call old mem claimable free =>
    obtain ⟨rfl, rfl⟩ := SchedulerCall.claim.inj call
    refine ⟨hunique, ?_, rfl, rfl, rfl⟩
    refine Rows.mem_update.mpr ⟨old, mem_swept_of_isClaimable mem claimable _, ?_⟩
    rw [beq_self_eq_true, claimable]
    rfl
  | renewed token old call mem held => exact nomatch call
  | released token old presents quiet mem held change same => exact nomatch quiet

omit [Hash256] [LinearOrder T] [Add T] in
/-- The payload of a kernel job names its mission. -/
theorem exists_missionId {db : SchedulerDb T} (h : TasksOk (db.jobs.map task)) (hmem : job ∈ db.jobs)
    (hkind : job.kind = "kernel-work") :
    ∃ missionId, payloadText job "mission_id" = .ok missionId := by
  obtain ⟨missionId, hread⟩ := h.readable (task job) (List.mem_map_of_mem hmem) hkind
  refine ⟨missionId, ?_⟩
  have hmember : (payloadMember job "mission_id").bind Json.asStr? = some missionId := hread
  rw [payloadText, hmember]

/-! ## Settling jobs -/

/-- Exactly when a call settles the job that it has claimed. -/
def KernelWorker.Settles (w : KernelWorker T) (r : RunInputs T) (job : JobRow T) (s : Stores T) :
    Prop :=
  let expiry := w.scheduler.leaseUntil r.claimedAt
  if job.kind ≠ "kernel-work" then w.InTime r job expiry
  else w.Accepts job [.leased] s.kernel ∧ (w.InTime r job expiry ∨ Unlocked r job s.locks ∧
    w.Finishes r job expiry [.leased, .running, .awaitingVerification] s.kernel)

theorem runOnce_of_claimJob {db : SchedulerDb T} (hclaim : w.claimJob r s.scheduler = .ok (some job) db)
    (htoken : job.leaseToken = some token) :
    w.runOnce r s =
      if job.kind ≠ "kernel-work" then
        w.giveUp r job token "unsupported kernel job" { s with scheduler := db }
      else w.handle r job token { s with scheduler := db } := by
  simp only [KernelWorker.runOnce, hclaim, htoken]

theorem settled_runOnce_iff {db : SchedulerDb T} (hreachable : Reachable s)
    (hclaim : w.claimJob r s.scheduler = .ok (some job) db) :
    Settled (after (w.runOnce r) s).scheduler job.id ↔ w.Settles r job s := by
  have htasks := hreachable.tasksOk
  have hleased := leasedUntil_of_claimJob htasks hclaim
  have hrun := runOnce_of_claimJob hclaim hleased.token
  by_cases hkind : job.kind ≠ "kernel-work"
  · rw [if_pos hkind] at hrun
    rw [after, hrun, KernelWorker.Settles, if_pos hkind]
    exact settled_giveUp_iff (s := { s with scheduler := db }) hleased
  · have hsame : SameTasks s.scheduler (after (w.claimJob r) s.scheduler) :=
      sameTasks_claim _ _ _ _ _
    rw [after, hclaim] at hsame
    have hmission := exists_missionId (hsame ▸ htasks) hleased.mem (not_not.mp hkind)
    rw [if_neg hkind] at hrun
    rw [after, hrun, KernelWorker.Settles, if_neg hkind]
    exact settled_handle_iff (s := { s with scheduler := db }) hleased hmission

/-- An attempt that the kernel refuses raises, and the job stays leased. -/
theorem runOnce_of_not_accepts {db : SchedulerDb T} (hreachable : Reachable s)
    (hclaim : w.claimJob r s.scheduler = .ok (some job) db) (hkind : job.kind = "kernel-work")
    (hrefused : ¬w.Accepts job [.leased] s.kernel) :
    (∃ e s', w.runOnce r s = .error e s') ∧ ¬Settled (after (w.runOnce r) s).scheduler job.id := by
  refine ⟨?_, ?_⟩
  · have hleased := leasedUntil_of_claimJob hreachable.tasksOk hclaim
    rw [runOnce_of_claimJob hclaim hleased.token, if_neg (not_not.mpr hkind), KernelWorker.handle]
    dsimp only
    cases htransition : w.transition job .leased s.kernel with
    | error e kernel => exact ⟨e, _, rfl⟩
    | ok _ kernel => exact absurd (accepts_cons.mpr ⟨kernel, htransition, accepts_nil⟩) hrefused
  · rw [settled_runOnce_iff hreachable hclaim, KernelWorker.Settles, if_neg (not_not.mpr hkind)]
    exact fun hsettles ↦ hrefused hsettles.1

end Runs

end Digests

/-! ## A job that is attempted twice -/

/-- A job that is in the queue, with any payload. -/
def queuedRow (payloadJson payloadDigest : String) : JobRow ℕ :=
  ⟨"JOB-1", "kernel-work", payloadJson, payloadDigest, .ready, 0, 3, 0, none, none, none, some "M",
    none, 0, 0⟩

/-- The job while it is attempted for the first time. -/
def leasedRow (payloadJson payloadDigest : String) : JobRow ℕ :=
  (queuedRow payloadJson payloadDigest).grant "worker" "TOKEN-1" (sampleScheduler.leaseUntil 1) 1

/-- The job after an attempt that failed. -/
def failedRow (payloadJson payloadDigest : String) : JobRow ℕ :=
  { queuedRow payloadJson payloadDigest with
    attempts := 1
    notBefore := 3
    lastError := some "write scope is locked"
    updatedAt := 2 }

def sampleWorker (store : Option Bool) : KernelWorker ℕ := ⟨sampleScheduler, 30, "worker", store⟩

/-- A call in which the executor returns and no time is lost. -/
def sampleInputs (token : String) (now : ℕ) : RunInputs ℕ := ⟨token, now, now, now, now, none⟩

theorem claim_queuedRow (payloadJson payloadDigest : String) :
    claim sampleScheduler 1 "TOKEN-1" ⟨"worker", ⟨none, none, none⟩, []⟩
      ⟨[queuedRow payloadJson payloadDigest], []⟩ =
      .ok (some (leasedRow payloadJson payloadDigest)) ⟨[leasedRow payloadJson payloadDigest], []⟩ :=
  rfl

theorem claim_failedRow (payloadJson payloadDigest : String) :
    claim sampleScheduler 4 "TOKEN-2" ⟨"worker", ⟨none, none, none⟩, []⟩
      ⟨[failedRow payloadJson payloadDigest], []⟩ =
      .ok (some ((failedRow payloadJson payloadDigest).grant "worker" "TOKEN-2"
        (sampleScheduler.leaseUntil 4) 4))
        ⟨[(failedRow payloadJson payloadDigest).grant "worker" "TOKEN-2"
          (sampleScheduler.leaseUntil 4) 4], []⟩ :=
  rfl

def enqueueSample : Change ℕ := .enqueue (sampleWorker none) 0 "JOB-1" "M" "W" [] 3

theorem insertJob_empty (row : JobRow ℕ) :
    insertJob row (emptySchedulerDb ℕ) = .ok row ⟨[row], []⟩ := by
  have hinsert : insertOrIgnore row (emptySchedulerDb ℕ) = ⟨[row], []⟩ := rfl
  have hfind : [row].find? (·.payloadDigest == row.payloadDigest) = some row :=
    List.find?_cons_of_pos (beq_self_eq_true row.payloadDigest)
  simp only [insertJob, hinsert, hfind]

/-- A worker puts the job into the queue. -/
theorem apply_enqueueSample {s : Stores ℕ} (h : s.scheduler = emptySchedulerDb ℕ) :
    ∃ payloadJson payloadDigest,
      enqueueSample.apply s = { s with scheduler := ⟨[queuedRow payloadJson payloadDigest], []⟩ } := by
  obtain ⟨digest, hdigest⟩ : ∃ digest,
      canonicalDigest (.dict (workPayload "M" "W" [])) = .ok digest := ⟨_, rfl⟩
  have hencoded : ∃ encoded, canonicalBytes (.dict (("binding_digest", .str digest) ::
      workPayload "M" "W" [])) = .ok encoded := by
    rw [canonicalBytes, plain_workPayload]
    exact ⟨_, rfl⟩
  obtain ⟨encoded, hencoded⟩ := hencoded
  have henqueue : ∃ payloadDigest, enqueue 0 "JOB-1" "kernel-work" (("binding_digest", .str digest) ::
      workPayload "M" "W" []) 3 none (some "M") (emptySchedulerDb ℕ) =
        .ok (queuedRow encoded payloadDigest) ⟨[queuedRow encoded payloadDigest], []⟩ := by
    refine ⟨"sha256:" ++ Hash256.hexdigest ("kernel-work".toList ++ '\x00' :: encoded.toList), ?_⟩
    simp only [enqueue, run_guard_eq_ok, run_bind_eq_ok, run_lift_eq_ok, mapError_eq_ok]
    exact ⟨by decide, encoded, _, ⟨hencoded, rfl⟩, by decide, insertJob_empty _⟩
  obtain ⟨payloadDigest, henqueue⟩ := henqueue
  refine ⟨encoded, payloadDigest, ?_⟩
  have hpropose : (sampleWorker none).propose (queuedRow encoded payloadDigest) "W" s.kernel =
      .ok () s.kernel := rfl
  simp only [enqueueSample, Change.apply, after, KernelWorker.enqueue, hdigest, h, henqueue, hpropose]

/-- The events of the first attempt of a job with the work item `W` of the mission `M`. -/
def attemptEvents : List Event :=
  [lifecycleEvent "M" "W" "mission" "mission.created" "orchestrator" "orchestrator" [],
    lifecycleEvent "M" "W" "work" "work.created" "orchestrator" "orchestrator" [],
    lifecycleEvent "M" "W" "worker:JOB-1:READY" "work.transition" "worker" "builder"
      [("status", .str "READY")],
    lifecycleEvent "M" "W" "worker:JOB-1:LEASED" "work.transition" "worker" "builder"
      [("status", .str "LEASED")]]

theorem isValid_missionCreated :
    (lifecycleEvent "M" "W" "mission" "mission.created" "orchestrator" "orchestrator"
      []).toEventHead.isValid := by decide

theorem isValid_workCreated :
    (lifecycleEvent "M" "W" "work" "work.created" "orchestrator" "orchestrator"
      []).toEventHead.isValid := by decide

def attemptEntries : List KernelEvent :=
  [textEvent _ [] isValid_missionCreated, textEvent _ [] isValid_workCreated,
    textEvent (lifecycleEvent "M" "W" "worker:JOB-1:READY" "work.transition" "worker" "builder"
      []).toEventHead [("status", "READY")] (by decide),
    textEvent (lifecycleEvent "M" "W" "worker:JOB-1:LEASED" "work.transition" "worker" "builder"
      []).toEventHead [("status", "LEASED")] (by decide)]

theorem exists_attemptEvents :
    ∃ calls, readRows none (afterAppends calls).events = .ok attemptEvents := by
  have hreads : List.Forall₂ (fun event e ↦ ReadsAs (event, none) e) attemptEntries attemptEvents :=
    .cons (readsAs_textEvent (by decide)) <| .cons (readsAs_textEvent (by decide)) <|
      .cons (readsAs_textEvent (by decide)) <| .cons (readsAs_textEvent (by decide)) .nil
  have hcreated : ReduceStep emptyState (lifecycleEvent "M" "W" "mission" "mission.created"
      "orchestrator" "orchestrator" [])
      ⟨(∅ : ExtTreeMap String MissionState).insert "M" .created, ∅⟩ :=
    .missionCreated rfl (by simp [emptyState])
  have hproposed : ReduceStep ⟨(∅ : ExtTreeMap String MissionState).insert "M" .created, ∅⟩
      (lifecycleEvent "M" "W" "work" "work.created" "orchestrator" "orchestrator" [])
      (oneItem "M" "W" (.proposed "M")) :=
    .workCreated rfl "W" rfl (by decide) (by simp) (by simp [lifecycleEvent])
  have hmoved : ∀ (eventId : String) (old new : WorkState), new ∈ workNext old → new ≠ .accepted →
      reduceEvent (oneItem "M" "W" ⟨"M", old, none, none, none⟩) (lifecycleEvent "M" "W" eventId
        "work.transition" "worker" "builder" [("status", .str new.value)]) =
        .ok (oneItem "M" "W" ⟨"M", new, none, none, none⟩) := by
    intro eventId old new hnext hne
    refine reduceEvent_oneItem rfl (by decide) (.transition rfl ?_)
    refine transitionWork_eq_ok.mpr ⟨rfl, new, ?_, hnext, fun h ↦ absurd h hne, rfl⟩
    cases new <;> rfl
  have hreduce : reduceEvents emptyState attemptEvents =
      .ok (oneItem "M" "W" ⟨"M", .leased, none, none, none⟩) := by
    refine foldlM_cons_eq_ok.mpr ⟨_, reduceEvent_eq_ok.mpr hcreated, ?_⟩
    refine foldlM_cons_eq_ok.mpr ⟨_, reduceEvent_eq_ok.mpr hproposed, ?_⟩
    refine foldlM_cons_eq_ok.mpr ⟨_, hmoved _ .proposed .ready (by decide) (by decide), ?_⟩
    exact foldlM_cons_eq_ok.mpr ⟨_, hmoved _ .ready .leased (by decide) (by decide), rfl⟩
  exact exists_calls "1970-01-01T00:00:00Z" (List.cons_ne_nil _ _) hreads (by decide) (by decide)
    (by decide) (by decide +kernel) hreduce

theorem heads_of_readRows {previous : Option String} {rows : List EventRow} {es : List Event}
    (h : readRows previous rows = .ok es) : rows.map (·.head.eventId) = es.map (·.eventId) := by
  induction rows generalizing previous es with
  | nil =>
    obtain rfl := Except.ok.inj h
    rfl
  | cons row rows ih =>
    obtain ⟨e, es', he, hes', rfl⟩ := readRows_cons_eq_ok.mp h
    obtain ⟨payload, -, -, -, -, rfl⟩ := readRow_eq_ok.mp he
    rw [List.map_cons, List.map_cons, ih hes']

/-- Events that are appended to the kernel's store. -/
theorem foldl_append (calls : List AppendCall) (s : Stores ℕ) :
    (calls.map Change.append).foldl Change.apply s = { s with kernel := afterCalls s.kernel calls } := by
  induction calls generalizing s with
  | nil => rfl
  | cons call calls ih =>
    rw [List.map_cons, List.foldl_cons, ih]
    rfl

end HiveMind.Workers
