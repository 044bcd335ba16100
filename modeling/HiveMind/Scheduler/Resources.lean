import HiveMind.Lib.TwoPhase
import HiveMind.Scheduler.Leases

/-!
# Resources under leases

A claim reads the clock before it takes the write lock, and so does a heartbeat. By the time it
holds the lock, another call may have read the clock later and may have swept away rows that the
first call still counts on. A heartbeat that comes late in this way renews a lease whose resources
are gone, and nobody is told.

Every call is a reading of the clock and a transaction, and the clock never goes back. `Timely` is
what a transaction must meet so that nothing of this happens.

* **`resources_exclusive_of_timely`**: if all transactions are timely, then no resource of a lease is
  taken before the lease ends or is given up.
* **`resource_taken_under_lease`**: a resource that is taken under a lease after a late heartbeat.
-/

namespace HiveMind

variable {T : Type} [LinearOrder T]

/-! ## Calls in two phases -/

/-- The clock that all schedulers share, and their database with its log. -/
structure SharedQueue (T : Type) where
  clock : T
  run : QueueRun T

/-- The clock moves on, a call reads it, and a transaction that is admitted is committed. -/
def queueProtocol [Hash256] (admits : QueueRun T → Invocation T → Prop) :
    TwoPhase.Protocol (SharedQueue T) (Invocation T) where
  drift s s' := s.clock ≤ s'.clock ∧ s'.run = s.run
  reads s i := i.now = s.clock
  commits s i s' := admits s.run i ∧ s' = ⟨s.clock, s.run.commit i⟩

/-! ## Resources in the log -/

namespace Entry

/-- The resources that the call has asked for. -/
def resources (entry : Entry T) : List String :=
  match entry.invocation.call with
  | .claim _ request => request.resources
  | _ => []

/-- The call was a claim that has swept the tables. -/
def sweeps (entry : Entry T) : Bool :=
  match entry.invocation.call, entry.outcome with
  | .claim _ _, .ok _ => true
  | _, _ => false

/-- The call has ended the lease of a job. -/
def releases (jobId : String) (entry : Entry T) : Bool :=
  match entry.outcome with
  | .ok _ => !entry.invocation.call.leases &&
      entry.invocation.call.presents.any (·.1 == jobId)
  | .error _ => false

end Entry

/-- The resources of the latest lease that was granted to a job. -/
def claimedResources (log : List (Entry T)) (jobId : String) : List String :=
  match (log.filter fun entry ↦ (entry.grant? jobId).isSome).getLast? with
  | some entry => entry.resources
  | none => []

/-- After a job was returned with a lease, and unless the lease was ended by the job, no claim of
another job has taken a resource of the lease at a time not after its end. -/
def ResourcesExclusive (log : List (Entry T)) : Prop :=
  ∀ (before : List (Entry T)) (lease : Entry T) (between : List (Entry T)) (claim : Entry T)
    (after : List (Entry T)), log = before ++ lease :: between ++ claim :: after →
  ∀ (jobId : String) (row : JobRow T) (expiry : T), lease.lease? jobId = some row →
    row.leaseExpiry = some expiry → (∀ entry ∈ between, entry.releases jobId = false) →
  ∀ (other : String) (taken : JobRow T), claim.grant? other = some taken → other ≠ jobId →
    claim.invocation.now ≤ expiry →
    ∀ resource ∈ claim.resources, resource ∉ claimedResources (before ++ [lease]) jobId

/-! ## Timely transactions -/

/-- The clock was read not before any claim whose transaction came earlier has read it. -/
def ReadAfterSweeps (log : List (Entry T)) (now : T) : Prop :=
  ∀ entry ∈ log, entry.sweeps = true → entry.invocation.now ≤ now

/-- A claim for resources has read the clock after the claims before it, and so has a heartbeat of a
lease with resources, which also does not shorten the lease. -/
def Timely (run : QueueRun T) (i : Invocation T) : Prop :=
  match i.call with
  | .claim _ request => request.resources ≠ [] → ReadAfterSweeps run.log i.now
  | .heartbeat jobId token => claimedResources run.log jobId ≠ [] →
      ∀ job ∈ run.db.jobs, job.id = jobId → job.isHeld i.now token = true →
        ReadAfterSweeps run.log i.now ∧
          ∀ expiry ∈ job.leaseExpiry, expiry ≤ i.scheduler.leaseUntil i.now
  | _ => True

/-! ## Logs that grow -/

section Log

variable {log before rest : List (Entry T)} {entry lease : Entry T} {jobId : String}

omit [LinearOrder T]

/-- Where an entry stands in a log with one more entry. -/
theorem concat_eq_append_cons (h : log ++ [entry] = before ++ lease :: rest) :
    (rest = [] ∧ lease = entry ∧ before = log) ∨
      ∃ rest', rest = rest' ++ [entry] ∧ log = before ++ lease :: rest' := by
  rcases List.eq_nil_or_concat' rest with rfl | ⟨rest', last, rfl⟩
  · obtain ⟨rfl, hlast⟩ := List.append_inj' h rfl
    exact .inl ⟨rfl, (List.cons.inj hlast).1.symm, rfl⟩
  · rw [← List.cons_append, ← List.append_assoc] at h
    obtain ⟨rfl, hlast⟩ := List.append_inj' h rfl
    rw [(List.cons.inj hlast).1]
    exact .inr ⟨rest', rfl, rfl⟩

theorem claimedResources_concat_of_none (h : entry.grant? jobId = none) :
    claimedResources (log ++ [entry]) jobId = claimedResources log jobId := by
  rw [claimedResources, List.filter_append, List.filter_cons, h, Option.isSome_none, if_neg nofun,
    List.filter_nil, List.append_nil]
  rfl

theorem claimedResources_concat_of_some {row : JobRow T} (h : entry.grant? jobId = some row) :
    claimedResources (log ++ [entry]) jobId = entry.resources := by
  rw [claimedResources, List.filter_append, List.filter_cons, h, Option.isSome_some, if_pos rfl,
    List.filter_nil, List.getLast?_concat]

end Log

/-! ## The invariant -/

/-- What is known of the resources after timely transactions. -/
structure Guarded (run : QueueRun T) : Prop where
  sound : run.Sound
  /-- A leased job holds its resources, unless a claim was made after its lease has ended. -/
  present : ∀ job ∈ run.db.jobs, job.state = .leased →
    (∀ expiry, job.leaseExpiry = some expiry → ReadAfterSweeps run.log expiry) →
    ∀ name ∈ claimedResources run.log job.id, ∃ resource ∈ run.db.resourceLeases,
      resource.resourceId = name ∧ resource.jobId = job.id ∧
        job.leaseToken = some resource.leaseToken ∧ job.leaseExpiry = some resource.leaseExpiry
  /-- A job that was returned with a lease on resources still has it, unless the job has ended it or
  a claim was made after its end. -/
  promised : ∀ before lease rest, run.log = before ++ lease :: rest →
    ∀ jobId row expiry, lease.lease? jobId = some row → row.leaseExpiry = some expiry →
      claimedResources (before ++ [lease]) jobId ≠ [] →
      (∀ entry ∈ rest, entry.releases jobId = false) →
      (∃ entry ∈ rest, entry.sweeps = true ∧ expiry < entry.invocation.now) ∨
        (∃ job ∈ run.db.jobs, job.id = jobId ∧ job.state = .leased ∧
          ∃ expiry', job.leaseExpiry = some expiry' ∧ expiry ≤ expiry') ∧
        claimedResources run.log jobId = claimedResources (before ++ [lease]) jobId
  exclusive : ResourcesExclusive run.log

/-! ## A step -/

section Step

variable {i : Invocation T} {run : QueueRun T} {db : SchedulerDb T}
  {outcome : Except SchedulerError (Option (JobRow T))}

/-- A job under a lease that a claim does not take was not given up either, or its lease has ended. -/
theorem mem_swept_or_lt {selector : JobSelector} {job : JobRow T} (hjob : job ∈ run.db.jobs)
    {expiry now : T} (hexpiry : job.leaseExpiry = some expiry) :
    expiry < now ∨ job ∈ (run.db.swept now selector).jobs := by
  by_cases hexhausted : job.isExhausted now selector = true
  · simp only [JobRow.isExhausted, JobRow.isExpired, hexpiry, Option.any_some, Bool.and_eq_true,
      decide_eq_true_eq] at hexhausted
    exact .inl hexhausted.1.1.2
  · exact .inr (Rows.mem_update_of_not hjob (Bool.eq_false_iff.mpr hexhausted))

/-- A leased job that a claim has swept past is as it was. -/
theorem mem_of_mem_swept_of_leased {now : T} {selector : JobSelector} {job : JobRow T}
    (hjob : job ∈ (run.db.swept now selector).jobs) (hstate : job.state = .leased) :
    job ∈ run.db.jobs := by
  obtain ⟨old, hold, rfl⟩ := Rows.mem_update.mp hjob
  by_cases hexhausted : old.isExhausted now selector = true
  · rw [if_pos hexhausted] at hstate
    exact nomatch hstate
  · rw [if_neg hexhausted]
    exact hold

/-- A job under a lease keeps it, with an end that is not before, or a claim was made after its end. -/
private theorem QueueChange.kept (hchange : QueueChange i run.db outcome db) (hsound : run.Sound)
    (htimely : Timely run i) {job : JobRow T} (hjob : job ∈ run.db.jobs)
    (hstate : job.state = .leased) {expiry : T} (hexpiry : job.leaseExpiry = some expiry)
    (hclaimed : claimedResources run.log job.id ≠ [])
    (hrelease : (⟨i, outcome⟩ : Entry T).releases job.id = false) :
    ((⟨i, outcome⟩ : Entry T).sweeps = true ∧ expiry < i.now) ∨
      (⟨i, outcome⟩ : Entry T).grant? job.id = none ∧ ∃ job' ∈ db.jobs, job'.id = job.id ∧
        job'.state = .leased ∧ ∃ expiry', job'.leaseExpiry = some expiry' ∧ expiry ≤ expiry' := by
  have hsame : ∃ expiry', job.leaseExpiry = some expiry' ∧ expiry ≤ expiry' :=
    ⟨expiry, hexpiry, le_rfl⟩
  cases hchange with
  | raised e =>
    exact .inr ⟨Entry.grant?_eq_none (Entry.lease?_raised i e _), job, hjob, rfl, hstate, hsame⟩
  | found row mem presents quiet =>
    exact .inr ⟨Entry.grant?_eq_none (Entry.lease?_eq_none_of_quiet quiet _), job, hjob, rfl,
      hstate, hsame⟩
  | enqueued row presents quiet ready attempts fresh =>
    exact .inr ⟨Entry.grant?_eq_none (Entry.lease?_eq_none_of_quiet quiet _), job,
      List.mem_append_left _ hjob, rfl, hstate, hsame⟩
  | idle token request call =>
    rcases mem_swept_or_lt hjob hexpiry with hlt | hswept
    · refine .inl ⟨?_, hlt⟩
      rw [Entry.sweeps, call]
    · exact .inr ⟨Entry.grant?_eq_none (Entry.lease?_idle i _), job, hswept, rfl, hstate, hsame⟩
  | granted token request call old mem claimable free =>
    have hsweeps : Entry.sweeps ⟨i, .ok (some (old.grant request.owner token
        (i.scheduler.leaseUntil i.now) i.now))⟩ = true := by
      rw [Entry.sweeps, call]
    by_cases hid : old.id = job.id
    · -- the job itself was claimed, and so its lease had ended
      obtain rfl := hsound.unique.eq mem hjob hid
      simp only [JobRow.isClaimable, JobRow.isExpired, hstate, hexpiry, Bool.and_eq_true,
        Bool.or_eq_true, beq_iff_eq, reduceCtorEq, false_and, false_or, Option.any_some,
        decide_eq_true_eq, true_and] at claimable
      exact .inl ⟨hsweeps, claimable.2⟩
    rcases mem_swept_or_lt hjob hexpiry with hlt | hswept
    · exact .inl ⟨hsweeps, hlt⟩
    · refine .inr ⟨?_, job, Rows.mem_update_of_not hswept ?_, rfl, hstate, hsame⟩
      · rw [Entry.grant?_of_claim call]
        exact if_neg hid
      · rw [beq_eq_false_iff_ne.mpr (Ne.symm hid), Bool.false_and]
  | renewed token old call mem held =>
    refine .inr ⟨Entry.grant?_of_heartbeat call, ?_⟩
    by_cases hid : old.id = job.id
    · obtain rfl := hsound.unique.eq mem hjob hid
      rw [Timely, call] at htimely
      obtain ⟨-, hlonger⟩ := htimely hclaimed old mem rfl held
      refine ⟨old.renew (i.scheduler.leaseUntil i.now) i.now, Rows.mem_update.mpr ⟨old, mem, ?_⟩,
        rfl, hstate, _, rfl, hlonger expiry hexpiry⟩
      rw [beq_self_eq_true, held]
      rfl
    · refine ⟨job, Rows.mem_update_of_not hjob ?_, rfl, hstate, hsame⟩
      rw [beq_eq_false_iff_ne.mpr (Ne.symm hid), Bool.false_and]
  | released token old presents quiet mem held change same =>
    refine .inr ⟨Entry.grant?_eq_none (Entry.lease?_eq_none_of_quiet quiet _), job,
      Rows.mem_update_of_not hjob ?_, rfl, hstate, hsame⟩
    have hid : old.id ≠ job.id := by
      rw [Entry.releases, quiet, presents] at hrelease
      simpa using hrelease
    rw [beq_eq_false_iff_ne.mpr (Ne.symm hid), Bool.false_and]

/-- A resource of a lease that has not ended is not swept away. -/
theorem mem_resources_swept {now : T} {job : JobRow T} {resource : ResourceRow T} (hjob : job ∈ run.db.jobs) (hstate : job.state = .leased)
    (hresource : resource ∈ run.db.resourceLeases) (hid : resource.jobId = job.id)
    (htoken : job.leaseToken = some resource.leaseToken)
    (hexpiry : job.leaseExpiry = some resource.leaseExpiry) (hnow : now ≤ resource.leaseExpiry)
    (selector : JobSelector) : resource ∈ (run.db.swept now selector).resourceLeases := by
  have hheld : (run.db.jobs.any fun other ↦
      other.id == resource.jobId && other.isHeld now resource.leaseToken) = true := by
    refine List.any_eq_true.mpr ⟨job, hjob, ?_⟩
    simp [JobRow.isHeld, hid, hstate, htoken, hexpiry, hnow]
  refine List.mem_filter.mpr ⟨hresource, ?_⟩
  rw [SchedulerDb.isStale, hheld, decide_eq_false (not_lt.mpr hnow)]
  rfl

/-- The jobs that are leased after a call hold their resources. -/
private theorem QueueChange.present (hchange : QueueChange i run.db outcome db) (h : Guarded run)
    (htimely : Timely run i) {job : JobRow T} (hjob : job ∈ db.jobs) (hstate : job.state = .leased)
    (hlive : ∀ expiry, job.leaseExpiry = some expiry →
      ReadAfterSweeps (run.log ++ [⟨i, outcome⟩]) expiry)
    {name : String} (hname : name ∈ claimedResources (run.log ++ [⟨i, outcome⟩]) job.id) :
    ∃ resource ∈ db.resourceLeases, resource.resourceId = name ∧ resource.jobId = job.id ∧
      job.leaseToken = some resource.leaseToken ∧
        job.leaseExpiry = some resource.leaseExpiry := by
  -- where the job is as it was, what was known of it is still known
  have hbefore : job ∈ run.db.jobs → Entry.grant? job.id ⟨i, outcome⟩ = none →
      ∃ resource ∈ run.db.resourceLeases, resource.resourceId = name ∧ resource.jobId = job.id ∧
        job.leaseToken = some resource.leaseToken ∧
          job.leaseExpiry = some resource.leaseExpiry := by
    intro hmem hgrant
    rw [claimedResources_concat_of_none hgrant] at hname
    exact h.present job hmem hstate (fun expiry hexpiry entry hentry ↦
      hlive expiry hexpiry entry (List.mem_append_left _ hentry)) name hname
  have hnow : ∀ {expiry}, job.leaseExpiry = some expiry → Entry.sweeps ⟨i, outcome⟩ = true →
      i.now ≤ expiry :=
    fun hexpiry ↦ hlive _ hexpiry ⟨i, outcome⟩ (List.mem_append_right _ (List.mem_singleton_self _))
  cases hchange with
  | raised e => exact hbefore hjob (Entry.grant?_eq_none (Entry.lease?_raised i e _))
  | found row mem presents quiet =>
    exact hbefore hjob (Entry.grant?_eq_none (Entry.lease?_eq_none_of_quiet quiet _))
  | enqueued row presents quiet ready attempts fresh =>
    rcases List.mem_append.mp hjob with hjob | hjob
    · exact hbefore hjob (Entry.grant?_eq_none (Entry.lease?_eq_none_of_quiet quiet _))
    · obtain rfl := List.mem_singleton.mp hjob
      exact nomatch ready.symm.trans hstate
  | idle token request call =>
    have hmem := mem_of_mem_swept_of_leased hjob hstate
    obtain ⟨resource, hresource, hid, howner, htoken, hexpiry⟩ :=
      hbefore hmem (Entry.grant?_eq_none (Entry.lease?_idle i _))
    refine ⟨resource, mem_resources_swept hmem hstate hresource howner htoken hexpiry
      (hnow hexpiry ?_) _, hid, howner, htoken, hexpiry⟩
    rw [Entry.sweeps, call]
  | granted token request call old mem claimable free =>
    obtain ⟨other, hother, rfl⟩ := Rows.mem_update.mp hjob
    by_cases heligible : (other.id == old.id && other.isClaimable i.now) = true
    · rw [if_pos heligible] at hname ⊢
      simp only [Bool.and_eq_true, beq_iff_eq] at heligible
      have hgrant : Entry.grant? (other.grant request.owner token (i.scheduler.leaseUntil i.now)
          i.now).id ⟨i, .ok (some (old.grant request.owner token (i.scheduler.leaseUntil i.now)
            i.now))⟩ = some (old.grant request.owner token (i.scheduler.leaseUntil i.now) i.now) := by
        rw [Entry.grant?_of_claim call]
        exact if_pos heligible.1.symm
      rw [claimedResources_concat_of_some hgrant, Entry.resources, call] at hname
      exact ⟨_, List.mem_append_right _ (List.mem_map.mpr ⟨name, hname, rfl⟩), rfl,
        heligible.1.symm, rfl, rfl⟩
    · rw [if_neg heligible] at hbefore hnow hstate ⊢
      have hne : old.id ≠ other.id := by
        intro hid
        obtain rfl := (unique_swept h.sound.unique i.now request.selector).eq
          (mem_swept_of_isClaimable mem claimable _) hother hid
        rw [beq_self_eq_true, claimable] at heligible
        exact heligible rfl
      have hmem := mem_of_mem_swept_of_leased hother hstate
      have hgrant : Entry.grant? other.id ⟨i, .ok (some (old.grant request.owner token
          (i.scheduler.leaseUntil i.now) i.now))⟩ = none := by
        rw [Entry.grant?_of_claim call]
        exact if_neg hne
      obtain ⟨resource, hresource, hid, howner, htoken, hexpiry⟩ := hbefore hmem hgrant
      refine ⟨resource, List.mem_append_left _ (mem_resources_swept hmem hstate hresource howner
        htoken hexpiry (hnow hexpiry ?_) _), hid, howner, htoken, hexpiry⟩
      rw [Entry.sweeps, call]
  | renewed token old call mem held =>
    have hgrant : ∀ jobId, Entry.grant? jobId ⟨i, .ok (some (old.renew
        (i.scheduler.leaseUntil i.now) i.now))⟩ = none :=
      fun jobId ↦ Entry.grant?_of_heartbeat call
    obtain ⟨other, hother, rfl⟩ := Rows.mem_update.mp hjob
    by_cases hheld : (other.id == old.id && other.isHeld i.now token) = true
    · simp only [Bool.and_eq_true, beq_iff_eq] at hheld
      obtain rfl := h.sound.unique.eq hother mem hheld.1
      rw [beq_self_eq_true, held, Bool.and_self, if_pos rfl] at hname ⊢
      have hclaimed : name ∈ claimedResources run.log other.id := by
        rw [claimedResources_concat_of_none (hgrant _)] at hname
        exact hname
      -- the heartbeat is timely, so the resources are still there
      rw [Timely, call] at htimely
      obtain ⟨hread, -⟩ := htimely (List.ne_nil_of_mem hclaimed) other mem rfl held
      simp only [JobRow.isHeld, Bool.and_eq_true, beq_iff_eq, Option.any_eq_true,
        decide_eq_true_eq] at held
      obtain ⟨⟨hleased, htoken⟩, expiry, hexpiry, hnow'⟩ := held
      obtain ⟨resource, hresource, hid, howner, htoken', -⟩ := h.present other mem hleased
        (fun expiry' hexpiry' entry hentry hsweeps ↦ by
          obtain rfl := Option.some.inj (hexpiry.symm.trans hexpiry')
          exact (hread entry hentry hsweeps).trans hnow') name hclaimed
      have hsame : resource.leaseToken = token := Option.some.inj (htoken'.symm.trans htoken)
      refine ⟨resource.renew (i.scheduler.leaseUntil i.now) i.now,
        Rows.mem_update.mpr ⟨resource, hresource, ?_⟩, hid, howner, htoken', rfl⟩
      rw [SchedulerDb.ofLease, howner, hsame, beq_self_eq_true, beq_self_eq_true]
      rfl
    · rw [if_neg hheld] at hbefore ⊢
      have hne : other.id ≠ old.id := by
        intro hid
        obtain rfl := h.sound.unique.eq hother mem hid
        rw [beq_self_eq_true, held] at hheld
        exact hheld rfl
      obtain ⟨resource, hresource, hid, howner, htoken, hexpiry⟩ := hbefore hother (hgrant _)
      refine ⟨resource, Rows.mem_update_of_not hresource ?_, hid, howner, htoken, hexpiry⟩
      rw [SchedulerDb.ofLease, howner, beq_eq_false_iff_ne.mpr hne, Bool.false_and]
  | released token old presents quiet mem held change same =>
    obtain ⟨other, hother, rfl⟩ := Rows.mem_update.mp hjob
    by_cases hheld : (other.id == old.id && other.isHeld i.now token) = true
    · rw [if_pos hheld] at hstate
      exact absurd hstate (same other).2.2.2
    · rw [if_neg hheld] at hbefore ⊢
      have hne : other.id ≠ old.id := by
        intro hid
        obtain rfl := h.sound.unique.eq hother mem hid
        rw [beq_self_eq_true, held] at hheld
        exact hheld rfl
      obtain ⟨resource, hresource, hid, howner, htoken, hexpiry⟩ := hbefore hother
        (Entry.grant?_eq_none (Entry.lease?_eq_none_of_quiet quiet _))
      refine ⟨resource, List.mem_filter.mpr ⟨hresource, ?_⟩, hid, howner, htoken, hexpiry⟩
      rw [SchedulerDb.ofLease, howner, beq_eq_false_iff_ne.mpr hne, Bool.false_and]
      rfl

/-- A claim that takes resources finds those of no lease that it could have to respect. -/
private theorem QueueChange.exclusive (hchange : QueueChange i run.db outcome db) (h : Guarded run)
    (htimely : Timely run i) {before between : List (Entry T)} {lease : Entry T}
    (hlog : run.log = before ++ lease :: between) {jobId : String} {row : JobRow T} {expiry : T}
    (hlease : lease.lease? jobId = some row) (hexpiry : row.leaseExpiry = some expiry)
    (hrelease : ∀ entry ∈ between, entry.releases jobId = false) {other : String}
    {taken : JobRow T} (hgrant : (⟨i, outcome⟩ : Entry T).grant? other = some taken)
    (hnow : i.now ≤ expiry) {name : String}
    (hname : name ∈ (⟨i, outcome⟩ : Entry T).resources) :
    name ∉ claimedResources (before ++ [lease]) jobId := by
  intro hclaimed
  cases hchange with
  | granted token request call old mem claimable free =>
    rw [Entry.resources, call] at hname
    rw [Timely, call] at htimely
    have hread := htimely (List.ne_nil_of_mem hname)
    rcases h.promised before lease between hlog jobId row expiry hlease hexpiry
      (List.ne_nil_of_mem hclaimed) hrelease with
      ⟨entry, hentry, hsweeps, hlt⟩ | ⟨⟨job, hjob, rfl, hstate, expiry', hexpiry', hle⟩, hsame⟩
    · have hmem : entry ∈ run.log := by
        rw [hlog]
        exact List.mem_append_right _ (List.mem_cons_of_mem lease hentry)
      exact absurd (hlt.trans_le ((hread entry hmem hsweeps).trans hnow)) (lt_irrefl expiry)
    rw [← hsame] at hclaimed
    obtain ⟨resource, hresource, rfl, howner, htoken, hend⟩ := h.present job hjob hstate
      (fun expiry'' h'' entry hentry hsweeps ↦ by
        obtain rfl := Option.some.inj (hexpiry'.symm.trans h'')
        exact (hread entry hentry hsweeps).trans (hnow.trans hle)) name hclaimed
    obtain rfl := Option.some.inj (hexpiry'.symm.trans hend)
    -- the row is not swept away, and so the claim finds a conflict
    have hkept := mem_resources_swept hjob hstate hresource howner htoken hend (hnow.trans hle)
      request.selector
    rw [SchedulerDb.conflicts, List.any_eq_false] at free
    refine free resource hkept ?_
    rw [Bool.and_eq_true, decide_eq_true_eq]
    exact ⟨List.contains_iff_mem.mpr hname, hnow.trans hle⟩
  | raised e => exact nomatch hgrant.symm.trans (Entry.grant?_eq_none (Entry.lease?_raised i e _))
  | idle token request call =>
    exact nomatch hgrant.symm.trans (Entry.grant?_eq_none (Entry.lease?_idle i _))
  | renewed token old call mem held =>
    exact nomatch hgrant.symm.trans (Entry.grant?_of_heartbeat call)
  | found _ mem presents quiet | enqueued _ presents quiet ready attempts fresh
  | released token old presents quiet mem held change same =>
    exact nomatch hgrant.symm.trans
      (Entry.grant?_eq_none (Entry.lease?_eq_none_of_quiet quiet _))

/-- A job that is returned with a lease is leased. -/
private theorem QueueChange.leased (hchange : QueueChange i run.db outcome db) {jobId : String}
    {row : JobRow T} (hlease : (⟨i, outcome⟩ : Entry T).lease? jobId = some row) :
    row ∈ db.jobs ∧ row.id = jobId ∧ row.state = .leased := by
  have hif : ∀ {found : JobRow T}, (if found.id = jobId then some found else none) = some row →
      found.id = jobId ∧ found = row := by
    intro found hfound
    by_cases hid : found.id = jobId
    · rw [if_pos hid] at hfound
      exact ⟨hid, Option.some.inj hfound⟩
    · rw [if_neg hid] at hfound
      exact nomatch hfound
  cases hchange with
  | granted token request call old mem claimable free =>
    rw [Entry.lease?_of_claim call] at hlease
    obtain ⟨hid, rfl⟩ := hif hlease
    refine ⟨Rows.mem_update.mpr ⟨old, mem_swept_of_isClaimable mem claimable _, ?_⟩, hid, rfl⟩
    rw [beq_self_eq_true, claimable]
    rfl
  | renewed token old call mem held =>
    rw [Entry.lease?_of_heartbeat call] at hlease
    obtain ⟨hid, rfl⟩ := hif hlease
    have hstate : old.state = .leased := JobRow.state_of_isHeld held
    refine ⟨Rows.mem_update.mpr ⟨old, mem, ?_⟩, hid, hstate⟩
    rw [beq_self_eq_true, held]
    rfl
  | raised e => exact nomatch hlease.symm.trans (Entry.lease?_raised i e _)
  | idle token request call => exact nomatch hlease.symm.trans (Entry.lease?_idle i _)
  | found _ mem presents quiet | enqueued _ presents quiet ready attempts fresh
  | released token old presents quiet mem held change same =>
    exact nomatch hlease.symm.trans (Entry.lease?_eq_none_of_quiet quiet _)

private theorem QueueChange.promised (hchange : QueueChange i run.db outcome db) (h : Guarded run)
    (htimely : Timely run i) {before rest : List (Entry T)} {lease : Entry T}
    (hlog : run.log ++ [⟨i, outcome⟩] = before ++ lease :: rest) {jobId : String} {row : JobRow T}
    {expiry : T} (hlease : lease.lease? jobId = some row) (hexpiry : row.leaseExpiry = some expiry)
    (hclaimed : claimedResources (before ++ [lease]) jobId ≠ [])
    (hrelease : ∀ entry ∈ rest, entry.releases jobId = false) :
    (∃ entry ∈ rest, entry.sweeps = true ∧ expiry < entry.invocation.now) ∨
      (∃ job ∈ db.jobs, job.id = jobId ∧ job.state = .leased ∧
        ∃ expiry', job.leaseExpiry = some expiry' ∧ expiry ≤ expiry') ∧
      claimedResources (run.log ++ [⟨i, outcome⟩]) jobId =
        claimedResources (before ++ [lease]) jobId := by
  rcases concat_eq_append_cons hlog with ⟨rfl, rfl, rfl⟩ | ⟨rest, rfl, hbefore⟩
  · obtain ⟨hmem, hid, hstate⟩ := hchange.leased hlease
    exact .inr ⟨⟨row, hmem, hid, hstate, expiry, hexpiry, le_rfl⟩, rfl⟩
  have hlast : (⟨i, outcome⟩ : Entry T) ∈ rest ++ [⟨i, outcome⟩] :=
    List.mem_append_right _ (List.mem_singleton_self _)
  rcases h.promised before lease rest hbefore jobId row expiry hlease hexpiry hclaimed
    (fun entry hentry ↦ hrelease entry (List.mem_append_left _ hentry)) with
    ⟨entry, hentry, hsweep⟩ | ⟨⟨job, hjob, rfl, hstate, expiry₁, hexpiry₁, hle₁⟩, hsame⟩
  · exact .inl ⟨entry, List.mem_append_left _ hentry, hsweep⟩
  rcases hchange.kept h.sound htimely hjob hstate hexpiry₁ (hsame ▸ hclaimed)
    (hrelease _ hlast) with ⟨hsweeps, hlt⟩ | ⟨hgrant, job', hjob', hid, hstate', expiry₂, hexpiry₂,
      hle₂⟩
  · exact .inl ⟨_, hlast, hsweeps, hle₁.trans_lt hlt⟩
  · refine .inr ⟨⟨job', hjob', hid, hstate', expiry₂, hexpiry₂, hle₁.trans hle₂⟩, ?_⟩
    rw [claimedResources_concat_of_none hgrant]
    exact hsame

end Step

omit [LinearOrder T] in
private theorem nil_ne_append_cons {before rest : List (Entry T)} {entry : Entry T} :
    ([] : List (Entry T)) ≠ before ++ entry :: rest := by
  simp

theorem guarded_emptyRun : Guarded (emptyRun T) where
  sound := sound_emptyRun
  present := nofun
  promised := fun _ _ _ hlog ↦ absurd hlog nil_ne_append_cons
  exclusive := fun _ _ _ _ _ hlog ↦ absurd hlog nil_ne_append_cons

/-- A step: every timely call keeps the invariant. -/
theorem Guarded.commit [Hash256] {run : QueueRun T} (h : Guarded run) {i : Invocation T}
    (htimely : Timely run i) : Guarded (run.commit i) := by
  have hsound := h.sound.commit i
  obtain ⟨outcome, db, hchange, hcommit⟩ := run.commit_change i
  rw [hcommit] at hsound ⊢
  refine ⟨hsound, ?_, ?_, ?_⟩
  · intro job hjob hstate hlive name hname
    exact hchange.present h htimely hjob hstate hlive hname
  · intro before lease rest hlog jobId row expiry hlease hexpiry hclaimed hrelease
    exact hchange.promised h htimely hlog hlease hexpiry hclaimed hrelease
  · intro before lease between claim after hlog jobId row expiry hlease hexpiry hrelease other taken
      hgrant hother hnow name hname
    rcases concat_eq_append_cons hlog with ⟨rfl, rfl, hbefore⟩ | ⟨rest, -, hbefore⟩
    · exact hchange.exclusive h htimely hbefore.symm hlease hexpiry hrelease hgrant hnow hname
    · exact h.exclusive before lease between claim rest hbefore jobId row expiry hlease hexpiry
        hrelease other taken hgrant hother hnow name hname

/-- **If all transactions are timely, no resource of a lease is taken before the lease ends or is
given up**, however the clock readings and the transactions of the calls are interleaved. -/
theorem resources_exclusive_of_timely [Hash256] {start : T}
    {c : TwoPhase.System (SharedQueue T) (Invocation T)}
    (h : TwoPhase.Reaches (queueProtocol Timely) ⟨start, emptyRun T⟩ c) :
    ResourcesExclusive c.shared.run.log := by
  refine (h.invariant (fun s ↦ Guarded s.run) (fun _ _ ↦ True) guarded_emptyRun ?_ ?_ ?_).1.exclusive
  · rintro s s' hs ⟨-, hrun⟩
    exact ⟨hrun ▸ hs, fun _ _ ↦ trivial⟩
  · exact fun _ _ _ _ ↦ trivial
  · rintro s i s' hs - ⟨htimely, rfl⟩
    exact ⟨hs.commit htimely, fun _ _ ↦ trivial⟩

/-! ## A late heartbeat -/

section Calls

variable [Hash256] {admits : QueueRun T → Invocation T → Prop} {start : SharedQueue T}
  {run : QueueRun T} {clock : T} {pending : List (Invocation T)}

/-- A call reads the clock. -/
private theorem reaches_read
    (h : TwoPhase.Reaches (queueProtocol admits) start ⟨⟨clock, run⟩, pending⟩) (i : Invocation T)
    (hnow : clock ≤ i.now) :
    TwoPhase.Reaches (queueProtocol admits) start ⟨⟨i.now, run⟩, i :: pending⟩ := by
  have hdrift : (queueProtocol admits).drift ⟨clock, run⟩ ⟨i.now, run⟩ := ⟨hnow, rfl⟩
  have hreads : (queueProtocol admits).reads ⟨i.now, run⟩ i := rfl
  exact (h.tail (.drift hdrift)).tail (.read i hreads)

/-- The call that has read the clock last is completed. -/
private theorem reaches_commit {i : Invocation T}
    (h : TwoPhase.Reaches (queueProtocol admits) start ⟨⟨clock, run⟩, i :: pending⟩)
    (hadmits : admits run i) :
    TwoPhase.Reaches (queueProtocol admits) start ⟨⟨clock, run.commit i⟩, pending⟩ := by
  have hcommits : (queueProtocol admits).commits ⟨clock, run⟩ i ⟨clock, run.commit i⟩ :=
    ⟨hadmits, rfl⟩
  exact h.tail (.commit [] pending i hcommits)

/-- Every call of a sequence is admitted when its turn comes. -/
private def AdmitsAll (admits : QueueRun T → Invocation T → Prop) :
    QueueRun T → List (Invocation T) → Prop
  | _, [] => True
  | run, i :: calls => admits run i ∧ AdmitsAll admits (run.commit i) calls

private theorem reaches_calls {calls : List (Invocation T)}
    (h : TwoPhase.Reaches (queueProtocol admits) start ⟨⟨clock, run⟩, pending⟩)
    (hnow : ∀ i ∈ calls, i.now = clock) (hadmits : AdmitsAll admits run calls) :
    TwoPhase.Reaches (queueProtocol admits) start ⟨⟨clock, run.commitAll calls⟩, pending⟩ := by
  induction calls generalizing run with
  | nil => exact h
  | cons i calls ih =>
    obtain ⟨hi, hrest⟩ := List.forall_mem_cons.mp hnow
    have hread := reaches_read h i hi.ge
    rw [hi] at hread
    exact ih (reaches_commit hread hadmits.1) hrest hadmits.2

end Calls

/-- The log after a call, with its outcome. -/
theorem QueueRun.log_commit [Hash256] (run : QueueRun T) (i : Invocation T) :
    (run.commit i).log = run.log ++ [⟨i, i.outcome run.db⟩] := by
  rw [QueueRun.commit, Invocation.outcome]
  cases i.run run.db <;> rfl

/-- A lease is returned, and the next call takes one of its resources. -/
private theorem not_resourcesExclusive [Hash256] (run : QueueRun T) (i k : Invocation T)
    (jobId other name : String) (expiry : T)
    (hlease : ((⟨i, i.outcome run.db⟩ : Entry T).lease? jobId).any
      (·.leaseExpiry == some expiry) = true)
    (hgrant : ((⟨k, k.outcome (run.commit i).db⟩ : Entry T).grant? other).isSome = true)
    (hother : other ≠ jobId) (hnow : k.now ≤ expiry)
    (hname : name ∈ (⟨k, k.outcome (run.commit i).db⟩ : Entry T).resources)
    (hclaimed : name ∈ claimedResources (run.log ++ [⟨i, i.outcome run.db⟩]) jobId) :
    ¬ResourcesExclusive ((run.commit i).commit k).log := by
  intro h
  obtain ⟨row, hrow, hexpiry⟩ := (Option.any_eq_true _ _).mp hlease
  obtain ⟨taken, htaken⟩ := Option.isSome_iff_exists.mp hgrant
  have hlog : ((run.commit i).commit k).log = run.log ++ [⟨i, i.outcome run.db⟩] ++
      [⟨k, k.outcome (run.commit i).db⟩] := by
    rw [QueueRun.log_commit, QueueRun.log_commit]
  exact h run.log _ [] _ [] hlog jobId row expiry hrow (beq_iff_eq.mp hexpiry)
    (fun _ hentry ↦ absurd hentry List.not_mem_nil) other taken htaken hother hnow name hname
    hclaimed

/-- Two jobs of different kinds, the first of which is claimed with a resource. -/
def resourceCalls : List (Invocation ℕ) :=
  [⟨sampleScheduler, 0, .enqueue "JOB-1" "build" [] 3 none none⟩,
    ⟨sampleScheduler, 0, .enqueue "JOB-2" "review" [] 3 none none⟩,
    ⟨sampleScheduler, 0, .claim "TOKEN-1" ⟨"worker", ⟨some "build", none, none⟩, ["tree"]⟩⟩]

/-- A heartbeat of the first job, at the end of its lease. -/
def lateHeartbeat : Invocation ℕ := ⟨sampleScheduler, 30, .heartbeat "JOB-1" "TOKEN-1"⟩

/-- A claim that finds no job, just after the end of the lease. -/
def sweepingClaim : Invocation ℕ :=
  ⟨sampleScheduler, 31, .claim "TOKEN-2" ⟨"worker", ⟨some "deploy", none, none⟩, []⟩⟩

/-- A claim of the second job with the same resource. -/
def competingClaim : Invocation ℕ :=
  ⟨sampleScheduler, 32, .claim "TOKEN-3" ⟨"rival", ⟨some "review", none, none⟩, ["tree"]⟩⟩

private theorem reaches_resourceCalls {admits : QueueRun ℕ → Invocation ℕ → Prop}
    (hadmits : AdmitsAll admits (emptyRun ℕ) resourceCalls) :
    TwoPhase.Reaches (queueProtocol admits) ⟨0, emptyRun ℕ⟩
      ⟨⟨0, (emptyRun ℕ).commitAll resourceCalls⟩, []⟩ :=
  reaches_calls .refl (by decide) hadmits

set_option maxRecDepth 2000

/-- **Transactions need not be timely.** The heartbeat reads the clock before the claim that sweeps
the tables and is completed after it. The first job then has a lease until the sixtieth second, and
the second job takes the resource in the thirty-second. -/
theorem resource_taken_under_lease :
    ¬∀ c : TwoPhase.System (SharedQueue ℕ) (Invocation ℕ),
      TwoPhase.Reaches (queueProtocol fun _ _ ↦ True) ⟨0, emptyRun ℕ⟩ c →
        ResourcesExclusive c.shared.run.log := by
  intro h
  have hcalls : TwoPhase.Reaches (queueProtocol fun _ _ ↦ True) ⟨0, emptyRun ℕ⟩
      ⟨⟨0, (emptyRun ℕ).commitAll resourceCalls⟩, []⟩ :=
    reaches_resourceCalls ⟨trivial, trivial, trivial, trivial⟩
  have hheartbeat := reaches_read hcalls lateHeartbeat (by decide)
  have hsweep := reaches_commit (reaches_read hheartbeat sweepingClaim (by decide)) trivial
  have hlate := reaches_commit hsweep trivial
  have hfinal := reaches_commit (reaches_read hlate competingClaim (by decide)) trivial
  have hexclusive := h _ hfinal
  dsimp only at hexclusive
  exact not_resourcesExclusive (((emptyRun ℕ).commitAll resourceCalls).commit sweepingClaim)
    lateHeartbeat competingClaim "JOB-1" "JOB-2" "tree" 60 (by decide) (by decide)
    (by decide) (by decide) (by decide) (by decide) hexclusive

instance (log : List (Entry T)) (now : T) : Decidable (ReadAfterSweeps log now) :=
  inferInstanceAs (Decidable (∀ entry ∈ log, entry.sweeps = true → entry.invocation.now ≤ now))

/-- Where the heartbeat is not overtaken, the resource is not taken. -/
theorem resourceCalls_exclusive :
    ResourcesExclusive ((((emptyRun ℕ).commitAll resourceCalls).commit lateHeartbeat).commit
      competingClaim).log := by
  have hclaim : AdmitsAll Timely (emptyRun ℕ) resourceCalls :=
    ⟨trivial, trivial, fun _ ↦ by decide, trivial⟩
  have hheartbeat : Timely ((emptyRun ℕ).commitAll resourceCalls) lateHeartbeat := by
    have hjobs : ∀ job ∈ ((emptyRun ℕ).commitAll resourceCalls).db.jobs, job.id = "JOB-1" →
        job.isHeld 30 "TOKEN-1" = true →
        ReadAfterSweeps ((emptyRun ℕ).commitAll resourceCalls).log 30 ∧
          ∀ expiry ∈ job.leaseExpiry, expiry ≤ 60 := by decide
    exact fun _ ↦ hjobs
  have hrival : Timely (((emptyRun ℕ).commitAll resourceCalls).commit lateHeartbeat)
      competingClaim := fun _ ↦ by decide
  have hrenewed := reaches_commit (reaches_read (reaches_resourceCalls hclaim) lateHeartbeat
    (by decide)) hheartbeat
  have hfinal := reaches_commit (reaches_read hrenewed competingClaim (by decide)) hrival
  have hexclusive := resources_exclusive_of_timely hfinal
  dsimp only at hexclusive
  exact hexclusive

end HiveMind
