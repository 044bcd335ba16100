import HiveMind.Lib.Interleave
import HiveMind.Kernel.EffectStore
import HiveMind.Kernel.Gateway

/-!
# The durable outbox

`DurableEffectOutbox.execute` is a program that shares the kernel database with other callers. Each
store operation is one step, and the clock, the registry and the adapter are what it asks the
outside world for.

The entry of an intent is claimed by `begin_effect`, and the adapter is invoked when the entry that
comes back is executing. An entry that another caller is executing comes back executing too, which
is why the claim does not tell a winner from a loser.
-/

open Std (ExtTreeMap)
open Raise Interleave

namespace HiveMind

/-! ## What the outbox asks for -/

/-- The places at which the clock is read. Each is passed at most once in a call. -/
inductive ClockUse where
  | validate
  | enqueueValidate
  | enqueue
  | interrupted
  | begin
  | started
  | failed
  | ended
  | recorded
  | unrecorded
  deriving DecidableEq

/-- What an adapter can do: raise, return a receipt, return a mapping, of which `get` is called for
two keys and may raise, or return anything else. -/
inductive AdapterOutcome where
  | raised (errorType : String)
  | receipt (receipt : EffectReceipt)
  | mapping (producedIdentifiers postconditionDigest : Except Exc PyValue)
  | other

inductive Query where
  | clock (use : ClockUse)
  | systemTime (use : ClockUse)
  | registry (use : ClockUse)
  | adapter (intentDigest : String)
  deriving DecidableEq

def Query.Answer : Query → Type
  | clock _ => String
  | systemTime _ => String
  | registry _ => AuthorityRegistry
  | adapter _ => AdapterOutcome

/-- The store operation that a step runs. -/
inductive StoreOp where
  | effectEntry
  | enqueueEffect
  | beginEffect (intentDigest : String)
  | recordEffectReceipt
  | markEffectReconciliationRequired
  | other
  deriving DecidableEq

abbrev OutboxM := Proc Exc KernelDb StoreOp Query Query.Answer

/-- `clock()`. -/
def clock (use : ClockUse) : OutboxM String := Proc.ask (Query.clock use)

/-- What the clock says. -/
def readingOf (env : ∀ query : Query, query.Answer) (use : ClockUse) : String := env (.clock use)

/-- What the adapter does with an intent. -/
def outcomeOf (env : ∀ query : Query, query.Answer) (intentDigest : String) : AdapterOutcome :=
  env (.adapter intentDigest)

/-- `_now()`. -/
def systemTime (use : ClockUse) : OutboxM String := Proc.ask (Query.systemTime use)

/-- The registry as a validation finds it. -/
def liveRegistry (use : ClockUse) : OutboxM AuthorityRegistry := Proc.ask (Query.registry use)

/-- `adapter(intent)`. -/
def invoke (intentDigest : String) : OutboxM AdapterOutcome := Proc.ask (Query.adapter intentDigest)

def effectReconciliationRequired (message : String) : Exc :=
  ⟨.effectReconciliationRequired, message⟩

def ExcKind.name : ExcKind → String
  | valueError => "ValueError"
  | typeError => "TypeError"
  | keyError => "KeyError"
  | overflowError => "OverflowError"
  | attributeError => "AttributeError"
  | sqliteIntegrityError => "IntegrityError"
  | kernelIntegrityError => "KernelIntegrityError"
  | authorityDenied => "AuthorityDenied"
  | effectReconciliationRequired => "EffectReconciliationRequired"

/-! ## The outbox -/

/-- An outbox over a store handle. Whether it has a registry is fixed; what is in it is read at each
validation. -/
structure DurableEffectOutbox where
  readOnly : Bool
  adapters : Adapters
  hasAuthority : Bool

namespace DurableEffectOutbox

open Proc

variable [Hash256] {key : String} (outbox : DurableEffectOutbox)

/-- `_validate`. -/
def validate (use : ClockUse) (intent : EffectIntent) (token : CapabilityToken key) :
    OutboxM Unit := do
  let now ← clock use
  let systemTime ← systemTime use
  let registry ← liveRegistry use
  Proc.lift (validateCapabilityToken intent token
    (if outbox.hasAuthority then some registry else none) now systemTime
    (outbox.adapters.hostsOf intent.targetAdapter))

/-- `enqueue`. -/
def enqueue (intent : EffectIntent) (token : CapabilityToken key) : OutboxM OutboxRow := do
  outbox.validate .enqueueValidate intent token
  if intent.targetAdapter ∉ outbox.adapters.names then
    raise (authorityDenied "adapter is not registered")
  else do
    let now ← clock .enqueue
    transact .enqueueEffect (enqueueEffect outbox.readOnly intent.idempotencyKey
      intent.intentDigest intent.toDocument now)

/-- `_result`. -/
def result (entry : OutboxRow) : Except Exc EffectResult :=
  match entry.receiptDigest with
  | none => .error (kernelIntegrityError "receipt-recorded effect has no receipt digest")
  | some digest =>
    if digest = "" then
      .error (kernelIntegrityError "receipt-recorded effect has no receipt digest")
    else .ok ⟨entry.intentDigest, digest, "SUCCEEDED"⟩

/-- A reconciliation mark, and the exception that tells the caller about it. -/
def reconcile {α : Type} (intent : EffectIntent) (use : ClockUse) (reason : String)
    (evidence : Option (List (String × PyValue))) (message : String) : OutboxM α := do
  let now ← clock use
  let _ ← transact .markEffectReconciliationRequired (markEffectReconciliationRequired
    outbox.readOnly intent.intentDigest reason now evidence "reconciliation_required")
  raise (effectReconciliationRequired ("effect " ++ intent.intentDigest ++ message))

/-- The identifiers that a mapping gives, if they are a list or a tuple of strings. -/
def producedIdentifiers : PyValue → List String
  | .list xs | .tuple xs =>
    if xs.all fun x ↦ match x with
      | .str _ => true
      | _ => false
    then xs.filterMap fun x ↦ match x with
      | .str s => some s
      | _ => none
    else []
  | _ => []

def textOf : PyValue → Option String
  | .str s => some s
  | _ => none

/-- The receipt of an outcome that is no exception. -/
def receiptOf (intent : EffectIntent) (startedAt : String) :
    AdapterOutcome → OutboxM EffectReceipt
  | .receipt receipt =>
    if receipt.intentDigest ≠ intent.intentDigest then
      raise (kernelIntegrityError "adapter receipt is bound to another intent")
    else pure receipt
  | .mapping produced postcondition => do
    let values ← Proc.lift produced
    let postcondition ← Proc.lift postcondition
    built (producedIdentifiers values) (textOf postcondition)
  | .other | .raised _ => built [] none
where
  built (produced : List String) (postcondition : Option String) : OutboxM EffectReceipt := do
    let endedAt ← clock .ended
    Proc.lift (buildEffectReceipt intent intent.targetAdapter
      (outbox.adapters.versions[intent.targetAdapter]?.getD "1") startedAt endedAt "SUCCEEDED"
      produced none postcondition none none)

/-- What follows the adapter: the receipt, its digest, and the record of it. Only a failure of the
record itself is caught. -/
def settle (intent : EffectIntent) (startedAt : String) (outcome : AdapterOutcome) :
    OutboxM EffectResult := do
  let receipt ← outbox.receiptOf intent startedAt outcome
  let receiptDigest ← Proc.lift (canonicalDigest (.dict receipt.toDocument))
  let recorded ← attempt do
    let now ← clock .recorded
    transact .recordEffectReceipt (recordEffectReceipt outbox.readOnly intent.intentDigest
      receiptDigest receipt.toDocument now)
  match recorded with
  | .ok entry => Proc.lift (result entry)
  | .error e =>
    outbox.reconcile intent .unrecorded "physical effect completed but receipt append failed"
      (some [("error_type", .str e.kind.name)]) " needs receipt reconciliation"

/-- The adapter call. Within another effect execution the adapter is not invoked. -/
def runAdapter (nested : Bool) (intent : EffectIntent) : OutboxM AdapterOutcome :=
  if nested then pure (.raised "AuthorityDenied") else invoke intent.intentDigest

/-- What follows the adapter, whatever it did. -/
def account (intent : EffectIntent) (startedAt : String) :
    AdapterOutcome → OutboxM EffectResult
  | .raised errorType =>
    outbox.reconcile intent .failed "adapter failed after durable execution began"
      (some [("error_type", .str errorType)]) " has an ambiguous adapter outcome"
  | outcome => outbox.settle intent startedAt outcome

/-- The part of `execute` that follows the claim of the entry. -/
def deliver (nested : Bool) (intent : EffectIntent) : OutboxM EffectResult := do
  let startedAt ← clock .started
  let outcome ← runAdapter nested intent
  outbox.account intent startedAt outcome

/-- The part of `execute` that claims a pending entry. -/
def claim (nested : Bool) (intent : EffectIntent) : OutboxM EffectResult := do
  let now ← clock .begin
  let entry ← transact (.beginEffect intent.intentDigest)
    (beginEffect outbox.readOnly intent.intentDigest now)
  match entry.state with
  | .executing => outbox.deliver nested intent
  | .receiptRecorded => Proc.lift (result entry)
  | state => raise (effectReconciliationRequired
      ("effect " ++ intent.intentDigest ++ " is not deliverable: " ++ state.value))

/-- The entry of the intent, which is enqueued if there is none yet. -/
def entryOf (intent : EffectIntent) (token : CapabilityToken key) :
    Option OutboxRow → OutboxM OutboxRow
  | none => outbox.enqueue intent token
  | some entry => do
    let encoded ← Proc.lift (canonicalBytes (.dict intent.toDocument))
    if entry.intentJson ≠ encoded then
      raise (kernelIntegrityError "durable intent does not match requested intent")
    else pure entry

/-- What is done with an entry depends on its state. -/
def proceed (nested : Bool) (intent : EffectIntent) (entry : OutboxRow) : OutboxM EffectResult :=
  match entry.state with
  | .receiptRecorded => Proc.lift (result entry)
  | .reconciliationRequired => raise (effectReconciliationRequired
      ("effect " ++ intent.intentDigest ++ " requires reconciliation"))
  | .executing =>
    outbox.reconcile intent .interrupted "previous delivery was interrupted before receipt" none
      " was interrupted before receipt"
  | .pending => outbox.claim nested intent

/-- `execute`. -/
def execute (nested : Bool) (intent : EffectIntent) (token : CapabilityToken key) :
    OutboxM EffectResult := do
  outbox.validate .validate intent token
  if intent.targetAdapter ∉ outbox.adapters.names then
    raise (authorityDenied "adapter is not registered")
  else do
    let found ← transact .effectEntry (effectEntry intent.intentDigest)
    let entry ← outbox.entryOf intent token found
    outbox.proceed nested intent entry

end DurableEffectOutbox

/-! ## Undisturbed runs -/

/-- A world in which nothing changes: one time, one registry, one outcome of every adapter call. -/
def steady (registry : AuthorityRegistry) (now : String) (outcome : AdapterOutcome) :
    ∀ query : Query, query.Answer
  | .clock _ => now
  | .systemTime _ => now
  | .registry _ => registry
  | .adapter _ => outcome

/-- What a delivery needs from the start: a handle that can write, a registered adapter without
network hosts, and a token that the registry stands behind. -/
structure DurableEffectOutbox.Admits [Hash256] {key : String} (outbox : DurableEffectOutbox)
    (intent : EffectIntent) (token : CapabilityToken key) (registry : AuthorityRegistry)
    (now : String) : Prop where
  writable : outbox.readOnly = false
  registered : intent.targetAdapter ∈ outbox.adapters.names
  authority : outbox.hasAuthority = true
  valid : validateCapabilityToken intent token (some registry) now now
    (outbox.adapters.hostsOf intent.targetAdapter) = .ok ()

namespace DurableEffectOutbox.Admits

variable [Hash256] {key : String} {outbox : DurableEffectOutbox} {intent : EffectIntent}
  {token : CapabilityToken key} {registry : AuthorityRegistry} {now : String}
  {admits : StoreOp → KernelDb → Prop} {db : KernelDb}

theorem validate (h : outbox.Admits intent token registry now) {outcome : AdapterOutcome}
    (use : ClockUse) (db : KernelDb) :
    Advances (steady registry now outcome) admits (outbox.validate use intent token) db
      [.clock use, .systemTime use, .registry use] (pure ()) db := by
  refine .call (.call (.call ?_))
  change Advances _ _ (Proc.done (validateCapabilityToken intent token
    (if outbox.hasAuthority then some registry else none) now now
    (outbox.adapters.hostsOf intent.targetAdapter))) _ _ _ _
  rw [if_pos h.authority, h.valid]
  exact .refl

/-- The first caller enqueues the intent and is then about to claim it. -/
theorem enqueued (h : outbox.Admits intent token registry now) (outcome : AdapterOutcome)
    (nested : Bool) (db : KernelDb)
    (hadmits : ∀ db, admits .effectEntry db ∧ admits .enqueueEffect db)
    (hkey : intent.idempotencyKey ∉ db.effectOutbox.map OutboxRow.idempotencyKey)
    (hdigest : intent.intentDigest ∉ db.effectOutbox.map OutboxRow.intentDigest) :
    ∃ row, row.intentDigest = intent.intentDigest ∧ row.state = .pending ∧
      canonicalBytes (.dict intent.toDocument) = .ok row.intentJson ∧
      ∃ calls, Advances (steady registry now outcome) admits (outbox.execute nested intent token) db
        calls (outbox.claim nested intent) { db with effectOutbox := db.effectOutbox ++ [row] } := by
  obtain ⟨encoded, hencoded⟩ := exists_canonicalBytes_toDocument intent
  have hnone : db.entry intent.intentDigest = none := by
    rw [KernelDb.entry, List.find?_eq_none]
    intro row hrow heq
    exact hdigest (List.mem_map.mpr ⟨row, hrow, of_decide_eq_true heq⟩)
  obtain ⟨row, hrow⟩ : ∃ row : OutboxRow, row = ⟨intent.idempotencyKey, intent.intentDigest,
    encoded, .pending, 0, none, none, none, now, now⟩ := ⟨_, rfl⟩
  have henqueue : ∃ calls, Advances (steady registry now outcome) admits
      (outbox.entryOf intent token none) db calls (pure row)
      { db with effectOutbox := db.effectOutbox ++ [row] } := by
    refine Advances.exists_andThen ⟨_, h.validate .enqueueValidate db⟩ ?_
    rw [if_neg (not_not.mpr h.registered)]
    refine Advances.exists_andThen ⟨_, .ask _ _⟩ ⟨_, .transact (hadmits db).2 ?_⟩
    rw [h.writable, hrow]
    exact enqueueEffect_of_fresh hencoded hkey hdigest
  have hpending : row.state = .pending := congrArg OutboxRow.state hrow
  refine ⟨row, congrArg OutboxRow.intentDigest hrow, hpending, ?_,
    Advances.exists_andThen ⟨_, h.validate .validate db⟩ ?_⟩
  · rw [hencoded, hrow]
  · rw [if_neg (not_not.mpr h.registered)]
    refine Advances.exists_andThen ⟨_, .transact (hadmits db).1 rfl⟩
      (Advances.exists_andThen (hnone ▸ henqueue) ?_)
    rw [DurableEffectOutbox.proceed, hpending]
    exact ⟨_, .refl⟩

/-- A caller that finds the entry pending is about to claim it. -/
theorem foundPending (h : outbox.Admits intent token registry now) (outcome : AdapterOutcome)
    (nested : Bool)
    (hadmits : ∀ db, admits .effectEntry db) {entry : OutboxRow}
    (hentry : db.entry intent.intentDigest = some entry) (hstate : entry.state = .pending)
    (hjson : canonicalBytes (.dict intent.toDocument) = .ok entry.intentJson) :
    ∃ calls, Advances (steady registry now outcome) admits (outbox.execute nested intent token) db
      calls (outbox.claim nested intent) db := by
  refine Advances.exists_andThen ⟨_, h.validate .validate db⟩ ?_
  rw [if_neg (not_not.mpr h.registered)]
  have hfound : Advances (steady registry now outcome) admits
      (outbox.entryOf intent token (some entry)) db [] (pure entry) db := by
    rw [DurableEffectOutbox.entryOf, hjson]
    change Advances _ _ (if entry.intentJson ≠ entry.intentJson then _ else _) _ _ _ _
    rw [if_neg (not_not.mpr rfl)]
    exact .refl
  refine Advances.exists_andThen ⟨_, .transact (hadmits db) rfl⟩
    (Advances.exists_andThen ⟨_, hentry ▸ hfound⟩ ?_)
  rw [DurableEffectOutbox.proceed, hstate]
  exact ⟨_, .refl⟩

/-- A claim that finds the entry pending or executing goes on to the adapter. -/
theorem claimed (h : outbox.Admits intent token registry now) (outcome : AdapterOutcome)
    (hadmits : admits (.beginEffect intent.intentDigest) db) {entry : OutboxRow}
    (hentry : db.entry intent.intentDigest = some entry)
    (hstate : entry.state = .pending ∨ entry.state = .executing) :
    ∃ entry' db', db'.entry intent.intentDigest = some entry' ∧ entry'.state = .executing ∧
      Advances (steady registry now outcome) admits (outbox.claim false intent) db
        [.clock .begin, .clock .started, .adapter intent.intentDigest]
        (outbox.account intent now outcome) db' ∧ db'.effectReceipts = db.effectReceipts := by
  have hbegin : ∃ entry' db', beginEffect false intent.intentDigest now db = .ok entry' db' ∧
      db'.entry intent.intentDigest = some entry' ∧ entry'.state = .executing ∧
      db'.effectReceipts = db.effectReceipts := by
    rcases hstate with hstate | hstate
    · exact ⟨_, _, beginEffect_of_pending hentry hstate, KernelDb.entry_begun hentry hstate, rfl,
        rfl⟩
    · refine ⟨_, _, beginEffect_of_not_pending hentry ?_, hentry, hstate, rfl⟩
      rw [hstate]
      exact nofun
  obtain ⟨entry', db', hbegin, hentry', hexecuting, hreceipts⟩ := hbegin
  have hdeliver : Advances (steady registry now outcome) admits (outbox.deliver false intent) db'
      [.clock .started, .adapter intent.intentDigest] (outbox.account intent now outcome) db' :=
    .call (.call .refl)
  refine ⟨entry', db', hentry', hexecuting, .call (.step hadmits ?_), hreceipts⟩
  change Advances _ _ (Proc.bind (Proc.done (Proc.resultOf
    (beginEffect outbox.readOnly intent.intentDigest now db))) _)
    (Proc.stateOf (beginEffect outbox.readOnly intent.intentDigest now db)) _ _ _
  rw [h.writable, hbegin]
  change Advances _ _ (match entry'.state with
    | .executing => outbox.deliver false intent
    | .receiptRecorded => _
    | state => _) _ _ _ _
  rw [hexecuting]
  exact hdeliver

/-- The only caller there is gets as far as the adapter. -/
theorem invoked (h : outbox.Admits intent token registry now) (outcome : AdapterOutcome)
    (hadmits : ∀ op db, admits op db) :
    ∃ calls entry db', .adapter intent.intentDigest ∈ calls ∧
      db'.entry intent.intentDigest = some entry ∧ entry.state = .executing ∧
      Advances (steady registry now outcome) admits (outbox.execute false intent token) emptyDb calls
        (outbox.account intent now outcome) db' ∧ db'.effectReceipts = [] := by
  obtain ⟨row, hdigest, hpending, -, calls, hclaim⟩ := h.enqueued outcome false emptyDb
    (fun db ↦ ⟨hadmits _ db, hadmits _ db⟩) List.not_mem_nil List.not_mem_nil
  have hentry : ({ emptyDb with effectOutbox := emptyDb.effectOutbox ++ [row] } : KernelDb).entry
      intent.intentDigest = some row := by
    rw [KernelDb.entry]
    exact List.find?_cons_of_pos (decide_eq_true hdigest)
  obtain ⟨entry, db', hentry', hexecuting, hadapter, hreceipts⟩ :=
    h.claimed outcome (hadmits _ _) hentry (.inl hpending)
  exact ⟨_, entry, db', List.mem_append_right _ (by simp), hentry', hexecuting,
    hclaim.trans hadapter, hreceipts⟩

end DurableEffectOutbox.Admits

/-- An outbox, an intent and a token that are ready for a delivery. -/
theorem exists_ready [Hash256] : ∃ (outbox : DurableEffectOutbox) (intent : EffectIntent)
    (token : CapabilityToken "KEY") (registry : AuthorityRegistry),
    outbox.Admits intent token registry sampleTime := by
  obtain ⟨intent, registry, token, -, -, hadapter, hvalid⟩ := exists_sample "KEY" "a" (by decide)
  refine ⟨⟨false, ⟨["files"], ∅, ∅⟩, true⟩, intent, token, registry, rfl, ?_, rfl, hvalid _⟩
  rw [hadapter]
  exact List.mem_singleton_self _

end HiveMind
