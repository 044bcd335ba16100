import HiveMind.Healing.Reconciler
import HiveMind.Kernel.Integrity

/-!
# The self-healing runtime

A pass derives the repairs of an observation and hands each of them to the handler for its kind, if
there is one and the pass has the authority that the repair needs. What was done goes into a receipt,
and with a store at hand the receipt is appended there as an event.

Handlers come from outside. What is known of them is that they use the store only through its own
operations, and so leave it intact. Which handlers have run is kept as a history next to the store.
-/

open Raise

namespace HiveMind.Healing

variable [Hash256]

/-! ## Handlers -/

/-- A handler is given a repair. It may raise, and change the store before that. -/
structure Handler where
  run : RepairAction → KernelDb → Option String × KernelDb
  intact : ∀ action db, Intact db → Intact (run action db).2

/-- `SelfHealingRuntime`. The store, if there is one, may be read-only. -/
structure SelfHealingRuntime where
  policy : ReconciliationPolicy
  handlers : RepairKind → Option Handler
  store : Option Bool
  actorId : String

inductive HealError where
  | reconcile (error : Exc)
  | handler (message : String)
  | store (error : Exc)

/-- The store, and the names of the repairs of which the handler has run. -/
structure World where
  db : KernelDb
  ran : List String

abbrev HealM (α : Type) := EStateM HealError World α

/-! ## Receipts -/

/-- `HealingOutcome`. -/
structure HealingOutcome where
  actionId : String
  kind : RepairKind
  status : String
  reason : String

/-- `ProgressLedger.advance`. -/
def advance (previous : ProgressUpdate) (current : Option String) : ProgressUpdate :=
  if current.isSome ∧ current = previous.signature then
    ⟨current, previous.noProgressCount + 1⟩
  else ⟨current, 0⟩

/-- `HealingReceipt`. -/
structure HealingReceipt where
  missionId : String
  observedDigest : String
  desiredDigest : String
  outcomes : List HealingOutcome
  quarantined : Bool
  escalations : List String
  progress : ProgressUpdate

def HealingOutcome.toDocument (outcome : HealingOutcome) : List (String × PyValue) :=
  [("action_id", .str outcome.actionId),
    ("kind", .str outcome.kind.value),
    ("status", .str outcome.status),
    ("reason", .str outcome.reason)]

/-- `HealingReceipt.to_document`. -/
def HealingReceipt.toDocument (receipt : HealingReceipt) : List (String × PyValue) :=
  [("mission_id", .str receipt.missionId),
    ("observed_digest", .str receipt.observedDigest),
    ("desired_digest", .str receipt.desiredDigest),
    ("outcomes", .list (receipt.outcomes.map fun outcome ↦ .dict outcome.toDocument)),
    ("quarantined", .bool receipt.quarantined),
    ("escalations", .list (receipt.escalations.map .str)),
    ("progress", .dict [("signature", ObservedState.optional receipt.progress.signature),
      ("no_progress_count", .int receipt.progress.noProgressCount)])]

/-- `HealingReceipt.digest`. -/
def HealingReceipt.digest (receipt : HealingReceipt) : Except Exc String :=
  canonicalDigest (.dict receipt.toDocument)

/-! ## A pass -/

/-- The handler runs. -/
def runHandler (handler : Handler) (action : RepairAction) : HealM Unit := fun world ↦
  match handler.run action world.db with
  | (none, db) => .ok () ⟨db, world.ran ++ [action.actionId]⟩
  | (some _, db) =>
    .error (.handler ("repair handler failed: " ++ action.actionId))
      ⟨db, world.ran ++ [action.actionId]⟩

/-- The loop of `heal` over the repairs: what became of each, and those that were escalated. -/
def dispatch (runtime : SelfHealingRuntime) (granted : List String) :
    List RepairAction → HealM (List HealingOutcome × List String)
  | [] => pure ([], [])
  | action :: actions => do
    let outcome := HealingOutcome.mk action.actionId action.kind
    match runtime.handlers action.kind with
    | none => do
      let (outcomes, escalations) ← dispatch runtime granted actions
      return (outcome "skipped-no-handler" "no handler registered; proposal retained" :: outcomes,
        escalations)
    | some handler =>
      if ¬∀ scope ∈ action.authorityScope, scope ∈ granted then do
        let (outcomes, escalations) ← dispatch runtime granted actions
        return (outcome "escalated-authority"
          "repair scope exceeds the authority granted to this pass" :: outcomes,
          action.actionId :: escalations)
      else do
        runHandler handler action
        let (outcomes, escalations) ← dispatch runtime granted actions
        return (outcome "applied" action.reason :: outcomes, escalations)

/-- A call of the store. -/
def onStore {α : Type} (call : StoreM α) : HealM α := fun world ↦
  match call world.db with
  | .ok a db => .ok a { world with db }
  | .error e db => .error (.store e) { world with db }

/-- A computation that raises an error of the planner. -/
def orReconcile {α : Type} (x : Except Exc α) : HealM α := Raise.lift (x.mapError .reconcile)

/-- The event of `_append_pass`. -/
def passHead (runtime : SelfHealingRuntime) (receipt : HealingReceipt) (digest : String) :
    EventHead where
  eventId := "self-healing:" ++ receipt.missionId ++ ":" ++ digest
  missionId := receipt.missionId
  eventType := "self_healing.pass"
  actorId := runtime.actorId
  occurredAt := "1970-01-01T00:00:00Z"
  workId := none
  attemptId := none
  actorRole := some "steward"
  eventVersion := 1

/-- `_append_pass`, at a store. -/
def appendPass (runtime : SelfHealingRuntime) (readOnly : Bool) (recordedAt : String)
    (receipt : HealingReceipt) : HealM Unit := do
  let _ ← onStore events
  let world ← get
  let digest ← orReconcile receipt.digest
  let head := passHead runtime receipt digest
  if valid : head.isValid = true then do
    let event : KernelEvent :=
      ⟨head, receipt.toDocument, world.db.events.getLast?.map EventRow.digest, valid⟩
    let _ ← onStore (append readOnly event none recordedAt (some digest))
  else throw (.reconcile (valueError "actor_id is required"))

/-- What came out of a pass. -/
def receiptOf (result : ReconciliationResult) (outcomes : List HealingOutcome)
    (escalations : List String) : HealingReceipt where
  missionId := result.observed.missionId
  observedDigest := result.desired.observedDigest
  desiredDigest := result.desiredDigest
  outcomes
  quarantined := result.desired.quarantined
  escalations
  progress := advance ⟨result.observed.progressSignature, result.observed.noProgressCount⟩
    (if result.desired.actions = [] then result.observed.progressSignature
    else some result.desiredDigest)

/-- `SelfHealingRuntime.heal`. -/
def heal [Builtins] (runtime : SelfHealingRuntime) (observed : ObservedState) (now : Moment)
    (granted : List String) (recordedAt : String) : HealM HealingReceipt := do
  let result ← orReconcile (reconcile runtime.policy observed now)
  let (outcomes, escalations) ← dispatch runtime granted result.desired.actions
  let receipt := receiptOf result outcomes escalations
  match runtime.store with
  | none => return receipt
  | some readOnly => do
    appendPass runtime readOnly recordedAt receipt
    return receipt

end HiveMind.Healing
