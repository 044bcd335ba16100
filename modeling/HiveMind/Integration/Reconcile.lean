import HiveMind.Dag.Replay
import HiveMind.Integration.Journal
import HiveMind.Lib.Sha256Window

/-!
# Reconciling an integration

When nobody knows whether an integration took effect, the target is asked. What it shows decides the
state of the transaction: the proposed identity means that it is committed, the expected one that it
can be tried again, and any other one that it has to be planned again. The answer is appended as an
event of its own, under the key of the call.

A call that is repeated asks again. A committed transaction is returned as it is. Otherwise the
event that the repeated call would append has the next number, so it is not the event that the key
is bound to.

* **`reconcile_repeated`**: a repeated call appends nothing and never finds another state, and it
  returns if the transaction is committed.
-/

open Raise HiveMind.Runtime

namespace HiveMind.Integration

/-! ## The target -/

/-- The exception that a call of the target raises: the name of its class, and whether the class is
one of `AttributeError`, `TypeError` and `ValueError`. -/
structure Raised where
  typeName : String
  isUnavailable : Bool
  deriving DecidableEq, Repr

/-- An `IntegrationError` of the coordinator's own. -/
def Raised.integrationError : Raised := ⟨"IntegrationError", false⟩

structure BindingFields where
  adapterId : String
  interface : String
  version : String
  configurationDigest : String
  trustDigest : String
  protectedTarget : Option Bool
  deriving DecidableEq

/-- What `IntegrationTargetBinding.__post_init__` raises. -/
def BindingFields.problem? (f : BindingFields) : Option String :=
  if Dag.isPortableIdentifier f.adapterId = false then
    some "adapter_id is not a portable identifier"
  else if Dag.isPortableIdentifier f.interface = false then
    some "adapter interface is not a portable identifier"
  else if Dag.isPortableIdentifier f.version = false then
    some "adapter version is not a portable identifier"
  else if isDigest f.configurationDigest = false then
    some "configuration_digest must be a lowercase sha256 digest"
  else if isDigest f.trustDigest = false then
    some "trust_digest must be a lowercase sha256 digest"
  else none

/-- `IntegrationTargetBinding`. -/
structure IntegrationTargetBinding extends BindingFields where
  valid : toBindingFields.problem? = none
  deriving DecidableEq

/-- `digest`, of a target binding. -/
def IntegrationTargetBinding.digest [Hash256] (b : IntegrationTargetBinding) : String :=
  jsonDigest (.obj [("adapter_id", .str b.adapterId),
    ("configuration_digest", .str b.configurationDigest),
    ("interface", .str b.interface),
    ("protected_target", match b.protectedTarget with
      | none => .null
      | some isProtected => .bool isProtected),
    ("trust_digest", .str b.trustDigest),
    ("version", .str b.version)])

/-- What a call of `binding` comes to. -/
inductive BindingCall where
  | binding (b : IntegrationTargetBinding)
  | other
  | raised (e : Raised)

/-- What the target shows while it is asked: its binding, its identity, and its binding again. -/
structure Observation where
  before : BindingCall
  identity : Except Raised CandidateIdentity
  after : BindingCall

/-- `_read_target_binding`. -/
def readTargetBinding : BindingCall → Except Raised IntegrationTargetBinding
  | .binding b => .ok b
  | .other => .error .integrationError
  | .raised e => .error (if e.isUnavailable then .integrationError else e)

/-! ## Authorization -/

/-- What is read of an `AuthorizedOneRun`, and whether it is the capability that was issued. -/
structure AuthorizedOneRun where
  isGenuine : Bool
  proofDigest : String
  planSha256 : String
  manifestSha256 : String
  targetBranch : String
  candidateParentCommit : String
  candidateParentTree : String
  candidateCommit : String
  candidateTree : String
  protectedMergeAuthorized : Bool

/-- `_validate_transaction_authorization`, of an authorization that need not be live. -/
def validateTransactionAuthorization (t : IntegrationTransaction)
    (authorization : AuthorizedOneRun) : Except IntegrationError Unit := do
  if ¬authorization.isGenuine then
    throw ⟨"integration requires a genuine AuthorizedOneRun capability"⟩
  if authorization.proofDigest ≠ t.leaseDigest then
    throw ⟨"integration authorization was substituted"⟩
  if authorization.planSha256 ≠ t.planDigest then
    throw ⟨"integration authorization plan was substituted"⟩
  if authorization.manifestSha256 ≠ t.activationManifestDigest then
    throw ⟨"integration activation manifest was substituted"⟩
  if authorization.targetBranch ≠ t.targetRef then
    throw ⟨"integration authorization target was substituted"⟩
  if authorization.candidateParentCommit ≠ t.expectedTarget.commit ∨
      authorization.candidateParentTree ≠ t.expectedTarget.tree then
    throw ⟨"integration authorization base was substituted"⟩
  if authorization.candidateCommit ≠ t.proposedTarget.commit ∨
      authorization.candidateTree ≠ t.proposedTarget.tree then
    throw ⟨"integration authorization candidate was substituted"⟩
  if authorization.protectedMergeAuthorized then
    throw ⟨"protected-target integration is not authorized"⟩

/-! ## The call -/

/-- The arguments of `reconcile`, and what the target shows in the call. -/
structure ReconcileCall where
  transactionId : String
  idempotencyKey : String
  reason : String
  authorization : Option AuthorizedOneRun
  observation : Observation

/-- What `_classify_observation` records about an identity: the state, and the reason. -/
def classify (t : IntegrationTransaction) (observed : CandidateIdentity) (reason : String) :
    IntegrationState × String :=
  if observed = t.proposedTarget then (.committed, "exact proposed target observed")
  else if observed = t.expectedTarget then (.recoverable, reason)
  else (.replanRequired, "target has an unrecognized identity")

section Digests

variable [Hash256]

/-- `_validate_target_binding`. -/
def validateTargetBinding (t : IntegrationTransaction) (call : BindingCall) :
    Except Raised Unit := do
  let binding ← readTargetBinding call
  if binding.digest ≠ t.targetBindingDigest then
    throw .integrationError
  if binding.protectedTarget ≠ some false then
    throw .integrationError

/-- The identity that is observed between two looks at the binding. -/
def observe (t : IntegrationTransaction) (o : Observation) : Except Raised CandidateIdentity := do
  validateTargetBinding t o.before
  let observed ← o.identity
  validateTargetBinding t o.after
  return observed

/-- `_record`. -/
def record (current : IntegrationTransaction) (state : IntegrationState) (idempotencyKey : String)
    (reason : Option String) : JournalM IntegrationTransaction := do
  let journal ← get
  match ← Raise.lift (latest current.transactionId journal) with
  | none => throw (.integration ⟨"integration transaction disappeared"⟩)
  | some last =>
    let t ← Raise.lift ((IntegrationTransaction.make { last.toTransactionFields with
      state, sequence := last.sequence + 1, reason }).mapError .valueError)
    append t idempotencyKey

/-- `reconcile`, once the transaction is known to be ambiguous. -/
def reconcileAmbiguous (call : ReconcileCall) (t : IntegrationTransaction) :
    JournalM IntegrationTransaction := do
  match call.authorization with
  | none => pure ()
  | some authorization =>
    Raise.lift ((validateTransactionAuthorization t authorization).mapError .integration)
  match observe t call.observation with
  | .error e =>
    record t .recoverable (call.idempotencyKey ++ ":observation-unavailable")
      (some ("target observation failed: " ++ e.typeName))
  | .ok observed =>
    let outcome := classify t observed call.reason
    record t outcome.1 call.idempotencyKey (some outcome.2)

/-- `reconcile`. -/
def reconcile (call : ReconcileCall) : JournalM IntegrationTransaction := do
  let journal ← get
  match ← Raise.lift (latest call.transactionId journal) with
  | none => throw (.integration ⟨"unknown integration transaction"⟩)
  | some t =>
    if t.state = .committed then return t
    else if t.state ∉ [.executing, .recoverable] then
      throw (.integration ⟨"transaction has no ambiguous outcome to reconcile"⟩)
    else reconcileAmbiguous call t

/-! ## A call that raises -/

variable {journal journal' : Journal} {t result : IntegrationTransaction}

theorem atomic_record (current : IntegrationTransaction) (state : IntegrationState)
    (key : String) (reason : Option String) : Atomic (record current state key reason) := by
  refine atomic_bind atomic_get reads_get fun journal ↦
    atomic_bind (atomic_lift _) (reads_lift _) fun last ↦ ?_
  rcases last with _ | last
  · exact atomic_throw _
  · exact atomic_bind (atomic_lift _) (reads_lift _) fun t ↦ atomic_append t key

/-- A call that raises appends nothing. -/
theorem atomic_reconcile (call : ReconcileCall) : Atomic (reconcile call) := by
  refine atomic_bind atomic_get reads_get fun journal ↦
    atomic_bind (atomic_lift _) (reads_lift _) fun t ↦ ?_
  rcases t with _ | t
  · exact atomic_throw _
  refine atomic_ite (atomic_pure _) (atomic_ite (atomic_throw _) ?_)
  have hrecorded : Atomic (match observe t call.observation with
      | .error e => record t .recoverable (call.idempotencyKey ++ ":observation-unavailable")
          (some ("target observation failed: " ++ e.typeName))
      | .ok observed =>
        record t (classify t observed call.reason).1 call.idempotencyKey
          (some (classify t observed call.reason).2)) := by
    rcases observe t call.observation with e | observed
    · exact atomic_record _ _ _ _
    · exact atomic_record _ _ _ _
  rw [reconcileAmbiguous]
  rcases call.authorization with _ | authorization
  · exact hrecorded
  · exact atomic_bind (atomic_lift _) (reads_lift _) fun _ ↦ hrecorded

/-! ## The latest event -/

theorem latest_eq_some {id : String} : latest id journal = .ok (some t) ↔
    isRequired id = true ∧ verify journal = .ok () ∧
      ∃ row, (journal.rowsOf id).getLast? = some row ∧ decode row = .ok t := by
  simp only [latest, guard_eq_ok, Bool.not_eq_false]
  refine and_congr_right fun _ ↦ ?_
  rcases hlast : (journal.rowsOf id).getLast? with _ | row
  · constructor
    · intro h
      exact nomatch h
    · rintro ⟨-, _, ⟨⟩, -⟩
  · simp only [bind_eq_ok, mapError_eq_ok, pure_eq_ok, Option.some.injEq, exists_eq_left']
    constructor
    · rintro ⟨_, hverify, _, hdecode, rfl⟩
      exact ⟨hverify, hdecode⟩
    · rintro ⟨hverify, hdecode⟩
      exact ⟨(), hverify, t, hdecode, rfl⟩

omit [Hash256] in
theorem mem_rowsOf {row : EventRow} {id : String} :
    row ∈ journal.rowsOf id ↔ row ∈ journal.events ∧ row.transactionId = id := by
  rw [Journal.rowsOf, List.mem_filter, decide_eq_true_iff]

theorem transactionId_of_latest {id : String} (h : latest id journal = .ok (some t)) :
    t.transactionId = id := by
  obtain ⟨-, -, row, hlast, hdecode⟩ := latest_eq_some.mp h
  rw [(index_of_decode hdecode).1]
  exact (mem_rowsOf.mp (List.mem_of_getLast? hlast)).2

/-- No event of a transaction has a larger number than the latest one. -/
theorem sequence_le_of_latest {id : String} (h : latest id journal = .ok (some t))
    {row : EventRow} {t' : IntegrationTransaction} (hrow : row ∈ journal.events)
    (hdecode : decode row = .ok t') (hid : t'.transactionId = id) : t'.sequence ≤ t.sequence := by
  obtain ⟨-, hverify, last, hlast, hlastDecode⟩ := latest_eq_some.mp h
  obtain ⟨scan, hscan⟩ := verify_eq_ok.mp hverify
  obtain ⟨entries, hrows, hseen⟩ := (scanned_of_foldlM hscan).exists_history id
  have hreads : ∀ e ∈ entries, ∀ s, decode e.1 = .ok s → e.2 = s := by
    intro e he s hs
    have hread := (hseen.reads e he).1
    rw [show transactions.read e.1 = (decode e.1).toOption from rfl, hs] at hread
    exact (Option.some.inj hread).symm
  rw [Journal.rowsOf, ← hrows, List.getLast?_map] at hlast
  obtain ⟨entry, hentry, rfl⟩ := Option.map_eq_some_iff.mp hlast
  have hmem : row ∈ entries.map Prod.fst := by
    rw [hrows]
    exact mem_rowsOf.mpr ⟨hrow, (index_of_decode hdecode).1.symm.trans hid⟩
  obtain ⟨e, he, rfl⟩ := List.mem_map.mp hmem
  rw [← hreads e he t' hdecode, ← hreads entry (List.mem_of_getLast? hentry) t hlastDecode]
  rcases hseen.eq_or_lt he hentry with rfl | hlt
  · exact le_rfl
  · exact hlt.le

/-! ## What a call records -/

/-- What a call finds out about a transaction: the state, the key of the event and the reason. -/
def ReconcileCall.outcome (call : ReconcileCall) (t : IntegrationTransaction) :
    IntegrationState × String × String :=
  match observe t call.observation with
  | .error e => (.recoverable, call.idempotencyKey ++ ":observation-unavailable",
      "target observation failed: " ++ e.typeName)
  | .ok observed => ((classify t observed call.reason).1, call.idempotencyKey,
      (classify t observed call.reason).2)

/-- The transaction after an event with an outcome. -/
def IntegrationTransaction.advance (t : IntegrationTransaction)
    (outcome : IntegrationState × String × String) : TransactionFields :=
  { t.toTransactionFields with
    state := outcome.1, sequence := t.sequence + 1, reason := some outcome.2.2 }

/-- What a call that does not find its transaction committed does. -/
structure Records (call : ReconcileCall) (journal : Journal) (t result : IntegrationTransaction)
    (journal' : Journal) : Prop where
  ambiguous : t.state ∈ [.executing, .recoverable]
  fields : result.toTransactionFields = t.advance (call.outcome t)
  unbound : ∀ row ∈ journal.events, row.idempotencyKey ≠ (call.outcome t).2.1
  appended : ∃ last, Continues journal result last ∧ journal' = { journal with
    events := journal.events ++
      [result.toRow (call.outcome t).2.1 (some last.eventDigest)] }

omit [Hash256] in
/-- A row with the text of a transaction is read as that transaction, if it is read. -/
theorem eq_of_payloadJson {row : EventRow} (hpayload : row.payloadJson = t.encoded)
    (hdecode : decode row = .ok result) : result = t := by
  have hread : strictJsonObject row.payloadJson =
      if t.Fits then .ok t.toDict else .error ⟨"JSON input is empty or exceeds the byte limit"⟩ := by
    rw [hpayload]
    exact strictJsonObject_dumps t.sorted_toJson t.jsonDepth_toJson_le
  rw [decode, hread] at hdecode
  by_cases hfits : t.Fits
  · simp only [if_pos hfits, IntegrationTransaction.fromDocument_toDict] at hdecode
    split at hdecode
    · cases hdecode
    · exact (Except.ok.inj hdecode).symm
  · rw [if_neg hfits] at hdecode
    cases hdecode

theorem records_of_record {call : ReconcileCall} (hlatest : latest call.transactionId journal = .ok (some t))
    (hambiguous : t.state ∈ [.executing, .recoverable])
    (h : record t (call.outcome t).1 (call.outcome t).2.1 (some (call.outcome t).2.2) journal =
      .ok result journal') : Records call journal t result journal' := by
  rw [record, run_bind_of_ok (run_get_eq_ok.mpr ⟨rfl, rfl⟩), transactionId_of_latest hlatest,
    hlatest] at h
  simp only [run_bind_eq_ok, run_lift_eq_ok] at h
  obtain ⟨last, start, ⟨hlast, rfl⟩, h⟩ := h
  obtain rfl := Except.ok.inj hlast
  simp only [run_bind_eq_ok, run_lift_eq_ok, mapError_eq_ok, IntegrationTransaction.make_eq_ok] at h
  obtain ⟨next, _, ⟨hnext, rfl⟩, happend⟩ := h
  have hsequence : next.sequence = t.sequence + 1 := congrArg TransactionFields.sequence hnext
  rcases of_append (by have := t.one_le_sequence; omega) happend with
    ⟨retry, hretry, hpayload, hdecode, -⟩ | ⟨hunbound, rfl, last, hcontinues, happended⟩
  · -- the event would be in the journal already, with a number that no event has
    obtain rfl := eq_of_payloadJson hpayload hdecode
    have hid : result.transactionId = call.transactionId :=
      (congrArg TransactionFields.transactionId hnext).trans (transactionId_of_latest hlatest)
    have hle := sequence_le_of_latest hlatest hretry hdecode hid
    omega
  · exact ⟨hambiguous, hnext, hunbound, last, hcontinues, happended⟩

theorem record_of_reconcileAmbiguous {call : ReconcileCall}
    (h : reconcileAmbiguous call t journal = .ok result journal') :
    record t (call.outcome t).1 (call.outcome t).2.1 (some (call.outcome t).2.2) journal =
      .ok result journal' := by
  have hrecord : (match observe t call.observation with
      | .error e => record t .recoverable (call.idempotencyKey ++ ":observation-unavailable")
          (some ("target observation failed: " ++ e.typeName))
      | .ok observed =>
        record t (classify t observed call.reason).1 call.idempotencyKey
          (some (classify t observed call.reason).2)) journal = .ok result journal' := by
    rw [reconcileAmbiguous] at h
    rcases hauthorization : call.authorization with _ | authorization
    · rw [hauthorization] at h
      exact h
    · rw [hauthorization] at h
      obtain ⟨_, _, hvalid, h⟩ := run_bind_eq_ok.mp h
      obtain ⟨-, rfl⟩ := run_lift_eq_ok.mp hvalid
      exact h
  rcases hobserve : observe t call.observation with e | observed
  · rw [hobserve] at hrecord
    simp only [ReconcileCall.outcome, hobserve]
    exact hrecord
  · rw [hobserve] at hrecord
    simp only [ReconcileCall.outcome, hobserve]
    exact hrecord

/-- A call that returns found its transaction committed, or it records what it finds out. -/
theorem of_reconcile {call : ReconcileCall} (h : reconcile call journal = .ok result journal') :
    ∃ t, latest call.transactionId journal = .ok (some t) ∧
      (t.state = .committed ∧ result = t ∧ journal' = journal ∨
        Records call journal t result journal') := by
  rw [reconcile, run_bind_of_ok (run_get_eq_ok.mpr ⟨rfl, rfl⟩)] at h
  simp only [run_bind_eq_ok, run_lift_eq_ok] at h
  obtain ⟨t, start, ⟨hlatest, rfl⟩, h⟩ := h
  rcases t with _ | t
  · exact nomatch h
  refine ⟨t, hlatest, ?_⟩
  dsimp only at h
  by_cases hcommitted : t.state = .committed
  · rw [if_pos hcommitted] at h
    obtain ⟨rfl, rfl⟩ := run_pure_eq_ok.mp h
    exact .inl ⟨hcommitted, rfl, rfl⟩
  rw [if_neg hcommitted] at h
  by_cases hambiguous : t.state ∈ [.executing, .recoverable]
  · rw [if_neg (not_not.mpr hambiguous)] at h
    exact .inr (records_of_record hlatest hambiguous (record_of_reconcileAmbiguous h))
  · rw [if_pos hambiguous] at h
    exact nomatch h

/-! ## A call that is repeated -/

theorem outcome_eq {call : ReconcileCall} {outcome : IntegrationState × String × String}
    (h : result.toTransactionFields = t.advance outcome) :
    call.outcome result = call.outcome t := by
  have hvalidate : ∀ binding, validateTargetBinding result binding =
      validateTargetBinding t binding := by
    intro binding
    simp only [validateTargetBinding, h, IntegrationTransaction.advance]
  have hclassify : ∀ observed, classify result observed call.reason =
      classify t observed call.reason := by
    intro observed
    simp only [classify, h, IntegrationTransaction.advance]
  simp only [ReconcileCall.outcome, observe, hvalidate, hclassify]

/-- The latest event after one was appended. -/
theorem eq_of_latest_concat {call : ReconcileCall} {key : String} {previous : Option String}
    (hid : result.transactionId = call.transactionId)
    (h : latest call.transactionId
      { journal with events := journal.events ++ [result.toRow key previous] } = .ok (some t)) :
    t = result := by
  obtain ⟨-, -, row, hlast, hdecode⟩ := latest_eq_some.mp h
  have hrow : (result.toRow key previous).transactionId = call.transactionId := hid
  rw [Journal.rowsOf, List.filter_append, List.filter_cons_of_pos (by simpa using hrow),
    List.filter_nil, List.getLast?_concat] at hlast
  obtain rfl := Option.some.inj hlast
  exact eq_of_payloadJson rfl hdecode

/-- After a call that has recorded something, the same call returns only if the transaction is
committed. -/
theorem committed_of_repeated {call : ReconcileCall} {repeated : IntegrationTransaction}
    {after : Journal} (hrecords : Records call journal t result journal')
    (hid : result.transactionId = call.transactionId)
    (h : reconcile call journal' = .ok repeated after) :
    result.state = .committed ∧ repeated = result ∧ after = journal' := by
  obtain ⟨last, -, rfl⟩ := hrecords.appended
  obtain ⟨current, hlatest, hcommitted | hagain⟩ := of_reconcile h
  · obtain rfl := eq_of_latest_concat hid hlatest
    exact hcommitted
  · -- the key of the repeated call is bound to the event of the first one
    obtain rfl := eq_of_latest_concat hid hlatest
    have hkey : call.outcome current = call.outcome t := outcome_eq hrecords.fields
    exact absurd (by rw [hkey]; rfl)
      (hagain.unbound _ (List.mem_append_right _ (List.mem_singleton_self _)))

/-- A committed transaction that can be read back is found by the same call. -/
theorem reconcile_of_committed {call : ReconcileCall}
    (hlatest : latest call.transactionId journal = .ok (some t)) (hstate : t.state = .committed) :
    reconcile call journal = .ok t journal := by
  rw [reconcile, run_bind_of_ok (run_get_eq_ok.mpr ⟨rfl, rfl⟩), hlatest,
    run_bind_of_ok (show lift (.ok (some t)) journal = .ok (some t) journal from rfl)]
  dsimp only
  rw [if_pos hstate]
  rfl

/-- The journal after any number of the same call. -/
def repeats (call : ReconcileCall) (journal : Journal) : ℕ → Journal
  | 0 => journal
  | n + 1 => final (reconcile call (repeats call journal n))

/-- What a call and all its repetitions come to: a call that raises appends nothing, and after a
call that returns each repetition appends nothing, returns nothing else, returns if the transaction
is committed and the event can be read back, and raises if it has to be planned again. -/
def SafelyRetried (call : ReconcileCall) (journal : Journal) :
    EStateM.Result JournalError Journal IntegrationTransaction → Prop
  | .error _ after => after = journal
  | .ok result after => ∀ n,
    repeats call after n = after ∧
      (∀ t after', reconcile call (repeats call after n) = .ok t after' → t = result) ∧
      (result.state = .committed → result.Fits →
        reconcile call (repeats call after n) = .ok result after) ∧
      (result.state = .replanRequired →
        isOk (reconcile call (repeats call after n)) = false)

/-- A repetition leaves the journal as the first call has left it. -/
theorem eq_of_repeated {call : ReconcileCall} (h : reconcile call journal = .ok result journal')
    {repeated : IntegrationTransaction} {after : Journal}
    (hrepeated : reconcile call journal' = .ok repeated after) :
    repeated = result ∧ result.state = .committed ∧ after = journal' := by
  obtain ⟨t, hlatest, ⟨hstate, rfl, rfl⟩ | hrecords⟩ := of_reconcile h
  · obtain ⟨rfl, rfl⟩ := EStateM.Result.ok.inj (h.symm.trans hrepeated)
    exact ⟨rfl, hstate, rfl⟩
  · have hid : result.transactionId = call.transactionId :=
      (congrArg TransactionFields.transactionId hrecords.fields).trans
        (transactionId_of_latest hlatest)
    obtain ⟨hstate, rfl, rfl⟩ := committed_of_repeated hrecords hid hrepeated
    exact ⟨rfl, hstate, rfl⟩

theorem repeats_eq {call : ReconcileCall} (h : reconcile call journal = .ok result journal')
    (n : ℕ) : repeats call journal' n = journal' := by
  induction n with
  | zero => rfl
  | succ n ih =>
    rw [repeats, ih]
    rcases hrun : reconcile call journal' with ⟨repeated, after⟩ | ⟨e, after⟩
    · exact (eq_of_repeated h hrun).2.2
    · exact atomic_reconcile call _ _ _ hrun

/-- The latest event of the transaction is the one that the call has recorded. -/
theorem latest_of_records {call : ReconcileCall}
    (hlatest : latest call.transactionId journal = .ok (some t))
    (hrecords : Records call journal t result journal') (hfits : result.Fits) :
    latest call.transactionId journal' = .ok (some result) := by
  obtain ⟨last, hcontinues, rfl⟩ := hrecords.appended
  obtain ⟨hrequired, hverify, -⟩ := latest_eq_some.mp hlatest
  obtain ⟨previous, hdecode, hfollows⟩ := hcontinues.follows
  have hid : result.transactionId = call.transactionId :=
    (congrArg TransactionFields.transactionId hrecords.fields).trans
      (transactionId_of_latest hlatest)
  refine latest_eq_some.mpr ⟨hrequired, verify_concat hverify hfits hcontinues.round
    hcontinues.lastRow hdecode hcontinues.sequence hfollows,
    result.toRow (call.outcome t).2.1 (some last.eventDigest), ?_, ?_⟩
  · have hrow : (result.toRow (call.outcome t).2.1 (some last.eventDigest)).transactionId =
        call.transactionId := hid
    rw [Journal.rowsOf, List.filter_append, List.filter_cons_of_pos (by simpa using hrow),
      List.filter_nil, List.getLast?_concat]
  · rw [decode_toRow, if_pos hfits]

/-- **Retries of a reconciliation are safe.** -/
theorem reconcile_repeated (call : ReconcileCall) (journal : Journal) :
    SafelyRetried call journal (reconcile call journal) := by
  rcases hrun : reconcile call journal with ⟨result, after⟩ | ⟨e, after⟩
  · intro n
    rw [repeats_eq hrun]
    refine ⟨rfl, fun t after' hrepeated ↦ ?_, fun hstate hfits ↦ ?_, fun hstate ↦ ?_⟩
    · exact (eq_of_repeated hrun hrepeated).1
    · obtain ⟨t, hlatest, ⟨-, rfl, rfl⟩ | hrecords⟩ := of_reconcile hrun
      · exact hrun
      · exact reconcile_of_committed (latest_of_records hlatest hrecords hfits) hstate
    · rcases hrepeated : reconcile call after with ⟨t, after'⟩ | ⟨e, after'⟩
      · exact nomatch hstate.symm.trans (eq_of_repeated hrun hrepeated).2.1
      · rfl
  · exact atomic_reconcile call _ _ _ hrun

end Digests

/-! ## A target with an identity that nobody knows -/

/-- Sixty-four hexadecimal digits. -/
private def zeros : List Char := List.replicate 64 '0'

private def base : CandidateIdentity :=
  ⟨"aaaaaaaaaaaaaaaaaaaaaaaaaaaaaaaaaaaaaaaa", "aaaaaaaaaaaaaaaaaaaaaaaaaaaaaaaaaaaaaaaa",
    digestOfHex zeros, by decide +kernel, by decide +kernel, by decide +kernel⟩

private def proposal : CandidateIdentity :=
  ⟨"bbbbbbbbbbbbbbbbbbbbbbbbbbbbbbbbbbbbbbbb", "bbbbbbbbbbbbbbbbbbbbbbbbbbbbbbbbbbbbbbbb",
    digestOfHex zeros, by decide +kernel, by decide +kernel, by decide +kernel⟩

private def stranger : CandidateIdentity :=
  ⟨"cccccccccccccccccccccccccccccccccccccccc", "cccccccccccccccccccccccccccccccccccccccc",
    digestOfHex zeros, by decide +kernel, by decide +kernel, by decide +kernel⟩

private def sampleBinding : IntegrationTargetBinding :=
  ⟨⟨"adapter", "integration.target", "v1", digestOfHex zeros, digestOfHex zeros, some false⟩,
    by decide +kernel⟩

private def sampleContribution : CandidateContribution :=
  ⟨⟨"c", "n", proposal, digestOfHex zeros⟩, by decide +kernel⟩

private def bindingText : List Char :=
  objectText [("adapter_id", Json.strChars "adapter"),
    ("configuration_digest", digestText zeros),
    ("interface", Json.strChars "integration.target"),
    ("protected_target", (Json.bool false).chars),
    ("trust_digest", digestText zeros), ("version", Json.strChars "v1")]

private def bindingHex : List Char :=
  "8bd66666b6c113bf9aaae91805ce0e281120d0e5819bf251d5c60871708f836c".toList

private theorem hexChars_bindingText : Hash256.hexChars bindingText = bindingHex := by
  decide +kernel

private theorem digest_sampleBinding : sampleBinding.digest = digestOfHex bindingHex := by
  rw [IntegrationTargetBinding.digest, jsonDigest, chars_obj]
  simp only [List.map_cons, List.map_nil, sampleBinding, chars_str, strChars_digestOfHex]
  exact congrArg digestOfHex hexChars_bindingText

private def sampleFields (state : IntegrationState) (sequence : Int) (reason : Option String) :
    TransactionFields where
  transactionId := "t"
  roundId := "r"
  targetRef := "main"
  expectedTarget := base
  proposedTarget := proposal
  contributions := [sampleContribution]
  planDigest := digestOfHex zeros
  activationManifestDigest := digestOfHex zeros
  manifestDigest := digestOfHex zeros
  targetBindingDigest := digestOfHex bindingHex
  integrationPolicyDigest := digestOfHex zeros
  integrationAuthorityExpiresAt := "2026-01-01T00:00:00Z"
  validationReceiptDigest := digestOfHex zeros
  leaseDigest := digestOfHex zeros
  state := state
  sequence := sequence
  reason := reason

private theorem problem?_sampleFields {state : IntegrationState} {sequence : Int}
    {reason : Option String} (hsequence : 1 ≤ sequence) (hreason : ∀ text ∈ reason, isRequired text)
    (hstate : state ∈ [.recoverable, .replanRequired, .cancelled] → reason ≠ none) :
    (sampleFields state sequence reason).problem? = none := by
  have hzeros : isDigest (digestOfHex zeros) = true := by decide
  have hbinding : isDigest (digestOfHex bindingHex) = true := by
    rw [← digest_sampleBinding]
    exact isDigest_jsonDigest _
  have hdigests : ∀ field ∈ (sampleFields state sequence reason).digests,
      isDigest field.2 = true := by
    simp [TransactionFields.digests, sampleFields, hzeros, hbinding]
  have hfind : (sampleFields state sequence reason).digests.find? (fun field ↦ !isDigest field.2) =
      none := by
    apply List.find?_eq_none.mpr
    intro field hfield
    simp [hdigests field hfield]
  have hsome : reason.bind (TransactionFields.problem?.required? · "reason") = none := by
    rcases reason with _ | text
    · rfl
    · exact if_pos (hreason text rfl)
  have htime : isTime "2026-01-01T00:00:00Z" = true := by decide
  simp only [TransactionFields.problem?, Option.orElse_eq_orElse, Option.orElse_eq_or,
    Option.or_eq_none_iff, hfind]
  have hid : TransactionFields.problem?.required? "t" "transaction_id" = none := by decide
  have hround : TransactionFields.problem?.required? "r" "round_id" = none := by decide
  have href : TransactionFields.problem?.required? "main" "target_ref" = none := by decide
  refine ⟨hid, hround, href, rfl, rfl, rfl, rfl, rfl, rfl, ?_, ?_, hsome, ?_⟩
  · exact if_neg (by rw [sampleFields, htime]; decide)
  · exact if_neg (not_lt.mpr hsequence)
  · exact if_neg fun h ↦ hstate h.1 h.2

private def prepared : IntegrationTransaction :=
  ⟨sampleFields .prepared 1 none, problem?_sampleFields (by decide) nofun (by decide)⟩

private def executing : IntegrationTransaction :=
  ⟨sampleFields .executing 2 none, problem?_sampleFields (by decide) nofun (by decide)⟩

private def replanned : IntegrationTransaction :=
  ⟨sampleFields .replanRequired 3 (some "target has an unrecognized identity"),
    problem?_sampleFields (by decide) (by decide) (by decide)⟩

private def identityText (sha : String) : List Char :=
  objectText [("commit", Json.strChars sha), ("subject_id", digestText zeros),
    ("tree", Json.strChars sha)]

private def contributionText : List Char :=
  objectText [("candidate_id", Json.strChars "c"),
    ("identity", identityText "bbbbbbbbbbbbbbbbbbbbbbbbbbbbbbbbbbbbbbbb"),
    ("node_id", Json.strChars "n"), ("verification_receipt_digest", digestText zeros)]

/-- The text of a transaction. -/
private def transactionText (state : IntegrationState) (sequence : Int) (reason : Option String) :
    List Char :=
  objectText [("activation_manifest_digest", digestText zeros),
    ("contributions", '[' :: (contributionText ++ [']'])),
    ("expected_target", identityText "aaaaaaaaaaaaaaaaaaaaaaaaaaaaaaaaaaaaaaaa"),
    ("integration_authority_expires_at", Json.strChars "2026-01-01T00:00:00Z"),
    ("integration_policy_digest", digestText zeros), ("lease_digest", digestText zeros),
    ("manifest_digest", digestText zeros), ("plan_digest", digestText zeros),
    ("proposed_target", identityText "bbbbbbbbbbbbbbbbbbbbbbbbbbbbbbbbbbbbbbbb"),
    ("reason", (Runtime.optionalText reason).chars), ("round_id", Json.strChars "r"),
    ("schema_version", Json.intChars 1), ("sequence", Json.intChars sequence),
    ("state", Json.strChars state.value), ("target_binding_digest", digestText bindingHex),
    ("target_ref", Json.strChars "main"), ("transaction_id", Json.strChars "t"),
    ("validation_receipt_digest", digestText zeros)]

/-- The text that the digest of an event covers. -/
private def eventText (previous : Option (List Char)) (state : IntegrationState) (sequence : Int)
    (reason : Option String) : List Char :=
  objectText [
    ("previous_digest", match previous with
      | none => Json.null.chars
      | some hex => digestText hex),
    ("transaction", transactionText state sequence reason)]

private theorem chars_identity {identity : CandidateIdentity} (hcommit : identity.commit = identity.tree)
    (hsubject : identity.subjectId = digestOfHex zeros) :
    identity.toJson.chars = identityText identity.commit := by
  rw [CandidateIdentity.toJson, Json.Dict.toJson, chars_obj]
  simp only [CandidateIdentity.toDict, List.map_cons, List.map_nil, ← hcommit, hsubject, chars_str,
    strChars_digestOfHex]
  rfl

private theorem chars_contribution : sampleContribution.toJson.chars = contributionText := by
  have hproposal : proposal.toJson.chars = identityText proposal.commit := chars_identity rfl rfl
  rw [CandidateContribution.toJson, Json.Dict.toJson, chars_obj]
  simp only [CandidateContribution.toDict, sampleContribution, List.map_cons, List.map_nil,
    chars_str, strChars_digestOfHex, hproposal]
  rfl

private theorem chars_toJson {t : IntegrationTransaction} {state : IntegrationState}
    {sequence : Int} {reason : Option String}
    (h : t.toTransactionFields = sampleFields state sequence reason) :
    t.toJson.chars = transactionText state sequence reason := by
  have hbase : base.toJson.chars = identityText base.commit := chars_identity rfl rfl
  have hproposal : proposal.toJson.chars = identityText proposal.commit := chars_identity rfl rfl
  have hcontributions : (Json.arr [sampleContribution.toJson]).chars =
      '[' :: (contributionText ++ [']']) := by
    rw [Json.chars, chars_contribution, Json.tailChars]
  rw [IntegrationTransaction.toJson, Json.Dict.toJson, chars_obj]
  simp only [IntegrationTransaction.toDict, h, sampleFields, List.map_cons, List.map_nil,
    hcontributions, hbase, hproposal, chars_str, chars_int, strChars_digestOfHex]
  rfl

private theorem eventDigest_eq {t : IntegrationTransaction} {state : IntegrationState}
    {sequence : Int} {reason : Option String}
    (h : t.toTransactionFields = sampleFields state sequence reason)
    (previous : Option (List Char)) : eventDigest (previous.map digestOfHex) t =
      digestOfHex (Hash256.hexChars (eventText previous state sequence reason)) := by
  have hprevious : (Runtime.optionalText (previous.map digestOfHex)).chars =
      match previous with
      | none => Json.null.chars
      | some hex => digestText hex := by
    rcases previous with _ | hex
    · rfl
    · rw [Option.map_some, Runtime.optionalText, chars_str, strChars_digestOfHex]
  rw [eventDigest, jsonDigest, chars_obj]
  simp only [List.map_cons, List.map_nil, hprevious, chars_toJson h]
  rfl

/-- The digests of the three events, as characters. -/
private def preparedHex : List Char := Hash256.hexChars (eventText none .prepared 1 none)

private def executingHex : List Char :=
  Hash256.hexChars (eventText (some preparedHex) .executing 2 none)

private def replannedHex : List Char :=
  Hash256.hexChars (eventText (some executingHex) .replanRequired 3
    (some "target has an unrecognized identity"))

private theorem nodup_hexes : [preparedHex, executingHex, replannedHex].Nodup := by
  rw [replannedHex, executingHex, preparedHex, instHash256_eq]
  decide +kernel

private def preparedRow : EventRow := prepared.toRow "first" none

private def executingRow : EventRow := executing.toRow "second" (some preparedRow.eventDigest)

/-- A journal in which the integration has begun. -/
private def begun : Journal := ⟨[preparedRow, executingRow], [("t", prepared.digest)]⟩

private def replannedRow : EventRow := replanned.toRow "third" (some executingRow.eventDigest)

private theorem eventDigest_prepared : preparedRow.eventDigest = digestOfHex preparedHex :=
  eventDigest_eq rfl none

private theorem eventDigest_executing : executingRow.eventDigest = digestOfHex executingHex := by
  rw [executingRow, eventDigest_prepared]
  exact eventDigest_eq rfl (some _)

private theorem eventDigest_replanned : replannedRow.eventDigest = digestOfHex replannedHex := by
  rw [replannedRow, eventDigest_executing]
  exact eventDigest_eq rfl (some _)

private theorem fits_of_length {t : IntegrationTransaction} {state : IntegrationState}
    {sequence : Int} {reason : Option String}
    (h : t.toTransactionFields = sampleFields state sequence reason)
    (hlength : (transactionText state sequence reason).length ≤ 262144) : t.Fits := by
  have hle := Json.utf8ByteSize_ofList_le t.toJson.chars
  rw [chars_toJson h] at hle
  have hsize : t.encoded.utf8ByteSize ≤ 4 * (transactionText state sequence reason).length := by
    rw [IntegrationTransaction.encoded, Json.dumps, chars_toJson h]
    exact hle
  have hbound : maximumJsonBytes = 4 * 262144 := rfl
  rw [IntegrationTransaction.Fits, hbound]
  omega

private theorem fits_sample : prepared.Fits ∧ executing.Fits :=
  ⟨fits_of_length rfl (by decide +kernel), fits_of_length rfl (by decide +kernel)⟩

private theorem decode_prepared : decode preparedRow = .ok prepared := by
  rw [preparedRow, decode_toRow, if_pos fits_sample.1]

private theorem decode_executing : decode executingRow = .ok executing := by
  rw [executingRow, decode_toRow, if_pos fits_sample.2]

private theorem encode_eq_ok {t : IntegrationTransaction} {state : IntegrationState} {n : Fin 4}
    {reason : Option String} (h : t.toTransactionFields = sampleFields state n reason) :
    t.encode = .ok t.encoded := by
  have hplain : ∀ n : Fin 4, (PyValue.int n).plain = .ok (.int n) := by decide
  have hsequence : t.sequence = n := congrArg TransactionFields.sequence h
  rw [IntegrationTransaction.encode, hsequence, hplain]
  rfl

private theorem intentDigest_eq {t t' : IntegrationTransaction} {state state' : IntegrationState}
    {sequence sequence' : Int} {reason reason' : Option String}
    (h : t.toTransactionFields = sampleFields state sequence reason)
    (h' : t'.toTransactionFields = sampleFields state' sequence' reason') :
    t.intentDigest = t'.intentDigest := by
  have hmembers : t.toDict.members.filter (·.1 ∉ ["state", "sequence", "reason"]) =
      t'.toDict.members.filter (·.1 ∉ ["state", "sequence", "reason"]) := by
    simp only [IntegrationTransaction.toDict, h, h', sampleFields]
    rfl
  rw [IntegrationTransaction.intentDigest, IntegrationTransaction.intentDigest, hmembers]

private theorem follows_prepared : prepared.Follows executing :=
  ⟨by decide, intentDigest_eq rfl rfl⟩

private theorem follows_executing : executing.Follows replanned :=
  ⟨by decide, intentDigest_eq rfl rfl⟩

private theorem verify_prepared : verify ⟨[preparedRow], begun.preparations⟩ = .ok () := by
  have hcheck : checkRow begun.preparations none preparedRow =
      .ok (some (transactions.seen preparedRow prepared)) :=
    checkRow_eq_ok.mpr ⟨prepared, decode_prepared, rfl, rfl, rfl, rfl, fun _ ↦ ⟨rfl, rfl⟩, nofun,
      rfl⟩
  refine verify_eq_ok.mpr ⟨⟨[("r", "t")], Function.update (fun _ ↦ none) "t"
    (some (transactions.seen preparedRow prepared))⟩, ?_⟩
  have hrow : scanRow begun.preparations ⟨[], fun _ ↦ none⟩ preparedRow = .ok ⟨[("r", "t")],
      Function.update (fun _ ↦ none) "t" (some (transactions.seen preparedRow prepared))⟩ := by
    simp only [scanRow, bind_eq_ok, guard_eq_ok, pure_eq_ok, not_not]
    exact ⟨prepared, decode_prepared, rfl, _, hcheck, rfl⟩
  rw [List.foldlM_cons, hrow]
  rfl

private theorem lastRow_prepared :
    Journal.lastRow ⟨[preparedRow], begun.preparations⟩ "t" = some preparedRow := rfl

private theorem verify_begun : verify begun = .ok () := by
  have hround : ∀ owner, [preparedRow].find? (·.roundId == executing.roundId) = some owner →
      owner.transactionId = executing.transactionId := by
    intro owner howner
    rw [List.mem_singleton.mp (List.mem_of_find?_eq_some howner)]
    rfl
  exact @verify_concat _ ⟨[preparedRow], begun.preparations⟩ executing _ _ _ verify_prepared
    fits_sample.2 hround lastRow_prepared decode_prepared rfl follows_prepared

private theorem latest_begun : latest "t" begun = .ok (some executing) :=
  latest_eq_some.mpr ⟨by decide, verify_begun, executingRow, rfl, decode_executing⟩

/-- The target shows a commit that no one has proposed. -/
private def sampleCall : ReconcileCall :=
  ⟨"t", "third", "reconciled", none, ⟨.binding sampleBinding, .ok stranger, .binding sampleBinding⟩⟩

private theorem observe_stranger : observe executing sampleCall.observation = .ok stranger := by
  have hdigest : sampleBinding.digest = executing.targetBindingDigest := digest_sampleBinding
  have hbinding : validateTargetBinding executing (.binding sampleBinding) = .ok () := by
    simp only [validateTargetBinding, readTargetBinding, ok_bind, guard_eq_ok, hdigest, not_not]
    exact ⟨trivial, rfl⟩
  simp only [observe, sampleCall, hbinding, ok_bind]
  rfl

private theorem lastRow_begun : begun.lastRow "t" = some executingRow := by
  have hincreasing : [preparedRow, executingRow].Pairwise fun old new ↦
      old.transactionSequence < new.transactionSequence := by
    simp [preparedRow, executingRow, IntegrationTransaction.toRow, prepared, executing, sampleFields]
  have hrows : begun.rowsOf "t" = [preparedRow, executingRow] := rfl
  rw [Journal.lastRow, hrows, Rows.orderBy_eq_of_perm (List.Perm.refl _) hincreasing]
  rfl

private theorem insertEvent_replanned : insertEvent replannedRow begun =
    .ok () { begun with events := begun.events ++ [replannedRow] } := by
  have hnodup := nodup_hexes.map digestOfHex_injective
  rw [List.map_cons, List.map_cons, List.map_singleton, ← eventDigest_prepared,
    ← eventDigest_executing, ← eventDigest_replanned] at hnodup
  have hdigest : begun.events.any (·.eventDigest == replannedRow.eventDigest) = false := by
    simp only [List.nodup_cons, List.mem_cons, not_or, List.not_mem_nil] at hnodup
    simp [begun, hnodup.1.2.1, hnodup.2.1.1]
  have hindex : (begun.events.any fun old ↦ old.transactionId == replannedRow.transactionId &&
      old.transactionSequence == replannedRow.transactionSequence) = false := rfl
  rw [insertEvent, run_bind_of_ok (run_get_eq_ok.mpr ⟨rfl, rfl⟩)]
  simp only [hdigest, hindex]
  rfl

private theorem append_replanned : append replanned "third" begun =
    .ok replanned { begun with events := begun.events ++ [replannedRow] } := by
  have hinsert : insertEvent (replanned.toRow "third" (some executingRow.eventDigest)) begun =
      .ok () { begun with events := begun.events ++ [replannedRow] } := insertEvent_replanned
  have hnext : appendNext replanned "third" executingRow begun =
      .ok (replanned, true) { begun with events := begun.events ++ [replannedRow] } := by
    simp only [appendNext, run_guard_eq_ok, run_bind_eq_ok, run_lift_eq_ok, mapError_eq_ok,
      not_not, run_pure_eq_ok]
    exact ⟨rfl, executing, begun, ⟨decode_executing, rfl⟩, follows_executing.state,
      follows_executing.intent, (), _, hinsert, trivial, rfl⟩
  have hround : (begun.events.find? (·.roundId == replanned.roundId)).any
      (·.transactionId ≠ replanned.transactionId) = false := rfl
  have hkey : begun.events.find? (·.idempotencyKey == "third") = none := rfl
  have hlast : begun.lastRow replanned.transactionId = some executingRow := lastRow_begun
  have hprepared : ¬(replanned.state = .prepared ∧ replanned.sequence = 1) := by
    rintro ⟨h, -⟩
    cases h
  have hevent : appendEvent replanned "third" replanned.encoded begun =
      .ok (replanned, true) { begun with events := begun.events ++ [replannedRow] } := by
    rw [appendEvent, run_bind_of_ok (run_get_eq_ok.mpr ⟨rfl, rfl⟩)]
    simp only [hkey, hround, hlast, if_neg hprepared, run_guard_eq_ok]
    exact ⟨Bool.false_ne_true, hnext⟩
  have hencode : replanned.encode = .ok replanned.encoded := encode_eq_ok (n := 3) rfl
  simp only [append, appendWithOwnership, run_bind_eq_ok, run_guard_eq_ok, run_lift_eq_ok,
    run_pure_eq_ok, transaction_eq_ok, mapError_eq_ok]
  exact ⟨(replanned, true), _, ⟨by decide, _, begun, ⟨hencode, rfl⟩, hevent⟩, rfl, rfl⟩

private theorem record_begun : record executing .replanRequired "third"
    (some "target has an unrecognized identity") begun =
      .ok replanned { begun with events := begun.events ++ [replannedRow] } := by
  have hlatest : latest executing.transactionId begun = .ok (some executing) := latest_begun
  rw [record, run_bind_of_ok (run_get_eq_ok.mpr ⟨rfl, rfl⟩), hlatest]
  simp only [run_bind_eq_ok, run_lift_eq_ok]
  refine ⟨some executing, begun, ⟨rfl, rfl⟩, ?_⟩
  simp only [run_bind_eq_ok, run_lift_eq_ok, mapError_eq_ok, IntegrationTransaction.make_eq_ok]
  exact ⟨replanned, begun, ⟨rfl, rfl⟩, append_replanned⟩

private theorem reconcile_begun : reconcile sampleCall begun =
    .ok replanned { begun with events := begun.events ++ [replannedRow] } := by
  have hlatest : latest sampleCall.transactionId begun = .ok (some executing) := latest_begun
  have hcommitted : executing.state ≠ .committed := nofun
  have hambiguous : executing.state ∈ [.executing, .recoverable] := by decide
  have hclassify : classify executing stranger sampleCall.reason =
      (.replanRequired, "target has an unrecognized identity") := by decide
  rw [reconcile, run_bind_of_ok (run_get_eq_ok.mpr ⟨rfl, rfl⟩), hlatest]
  simp only [run_bind_eq_ok, run_lift_eq_ok]
  refine ⟨some executing, begun, ⟨rfl, rfl⟩, ?_⟩
  simp only [if_neg hcommitted, if_neg (not_not.mpr hambiguous), reconcileAmbiguous,
    observe_stranger, hclassify]
  exact record_begun

/-- An integration that has begun is to be planned again, and the same call cannot say so twice. -/
theorem replanned_not_repeated : ∃ call journal t result after,
    latest call.transactionId journal = .ok (some t) ∧ t.state = .executing ∧
    reconcile call journal = .ok result after ∧
    ¬∃ repeated after', reconcile call after = .ok repeated after' ∧
      repeated.state = result.state := by
  refine ⟨sampleCall, begun, executing, replanned, _, latest_begun, rfl, reconcile_begun, ?_⟩
  rintro ⟨repeated, after', hrepeated, -⟩
  exact absurd (eq_of_repeated reconcile_begun hrepeated).2.1 (by decide)

end HiveMind.Integration
