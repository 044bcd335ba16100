import HiveMind.Kernel.Contracts
import HiveMind.Kernel.Values
import HiveMind.Lib.Dicts
import HiveMind.Lib.Raise

/-!
# The desired-state reconciler

From an observation the reconciler derives a bounded list of repairs. Nothing is executed here.

An observation holds records that come from many adapters. The planner takes what it needs from them
with the conversions of the language: `str`, `int`, `bool`. These are written out for what has a
simple spelling. Upper case, numbers in texts, whole parts of floats and the spelling of containers
are parameters, of which nothing is assumed.

The repairs that are proposed do not depend on the two fields that say how often nothing has changed
(`propose_withProgress`); only the last check looks at them.
-/

open Raise

namespace HiveMind.Healing

/-! ## Conversions -/

/-- What the language makes of a value where no simple spelling is modelled. -/
class Builtins where
  /-- `str.upper`. -/
  upper : String → String
  /-- `str` of a list or a dict. -/
  repr : Json → String
  /-- `int` of a text, if it is a number. -/
  intOfText : String → Option Int
  /-- `int` of a float. -/
  intOfFloat : Decimal → Int

/-- A record of an observation. -/
abbrev Record := Json.Dict

section Conversions

variable [Builtins]

/-- `str(value)`. -/
def pyStr : Json → String
  | .null => "None"
  | .bool true => "True"
  | .bool false => "False"
  | .int n => toString n
  | .float x => String.ofList (Json.floatChars x)
  | .str s => s
  | .arr xs => Builtins.repr (.arr xs)
  | .obj ms => Builtins.repr (.obj ms)

/-- `int(value)`. -/
def pyInt : Json → Except Exc Int
  | .bool true => .ok 1
  | .bool false => .ok 0
  | .int n => .ok n
  | .float x => .ok (Builtins.intOfFloat x)
  | .str s =>
    match Builtins.intOfText s with
    | some n => .ok n
    | none => .error (valueError "invalid literal for int() with base 10")
  | .null | .arr _ | .obj _ => .error (typeError "int() argument must be a string or a number")

/-- `bool(value)`. -/
def pyBool : Json → Bool
  | .null => false
  | .bool b => b
  | .int n => n ≠ 0
  | .float x => x.whole ≠ 0 || x.frac.any (·.val ≠ 0)
  | .str s => s ≠ ""
  | .arr xs => !xs.isEmpty
  | .obj ms => !ms.isEmpty

/-- `str(value).upper()`. -/
def pyUpper (value : Json) : String := Builtins.upper (pyStr value)

/-- The texts of the items of a value: `str(item) for item in value`. -/
def pyTexts : Json → Except Exc (List String)
  | .str s => .ok (s.toList.map String.singleton)
  | .arr xs => .ok (xs.map pyStr)
  | .obj ms => .ok (ms.map Prod.fst)
  | .null | .bool _ | .int _ | .float _ => .error (typeError "object is not iterable")

end Conversions

/-- `record[name]`. -/
def item (record : Record) (name : String) : Except Exc Json :=
  match record.get? name with
  | some value => .ok value
  | none => .error (keyError name)

/-- `record.get(name, default)`. -/
def getD (record : Record) (name : String) (default : Json) : Json :=
  (record.get? name).getD default

def sorted (names : List String) : List String := names.insertionSort (· ≤ ·)

/-- `sorted(set(names))`. -/
def sortedSet (names : List String) : List String := sorted names.dedup

/-! ## Policies, observations, repairs -/

/-- `ReconciliationPolicy`. -/
structure ReconciliationPolicy where
  maxRetries : Nat
  noProgressLimit : Nat
  maxRepairsPerPass : Nat
  maxRetries_pos : 1 ≤ maxRetries
  noProgressLimit_pos : 1 ≤ noProgressLimit
  maxRepairsPerPass_pos : 1 ≤ maxRepairsPerPass

/-- `ObservedState`. -/
structure ObservedState where
  missionId : String
  missionStatus : String
  work : List Record
  leases : List Record
  intents : List Record
  workspaces : List Record
  providerFailures : List Record
  verifications : List Record
  noProgressCount : Int
  progressSignature : Option String
  authorityScope : List String

/-- `ProgressUpdate`. -/
structure ProgressUpdate where
  signature : Option String
  noProgressCount : Int
  deriving DecidableEq

namespace ObservedState

/-- A list of records as a value. -/
def records (rs : List Record) : PyValue :=
  .list (rs.map fun r ↦ .dict (PyValue.ofJsonItems r.members))

def optional : Option String → PyValue
  | none => .none
  | some s => .str s

/-- `ObservedState.to_document`. -/
def toDocument (state : ObservedState) : List (String × PyValue) :=
  [("mission_id", .str state.missionId),
    ("mission_status", .str state.missionStatus),
    ("work", records state.work),
    ("leases", records state.leases),
    ("intents", records state.intents),
    ("workspaces", records state.workspaces),
    ("provider_failures", records state.providerFailures),
    ("verifications", records state.verifications),
    ("no_progress_count", .int state.noProgressCount),
    ("progress_signature", optional state.progressSignature),
    ("authority_scope", .list (state.authorityScope.map .str))]

def digest [Hash256] (state : ObservedState) : Except Exc String :=
  canonicalDigest (.dict state.toDocument)

/-- The same observation with another progress. -/
def withProgress (state : ObservedState) (progress : ProgressUpdate) : ObservedState :=
  { state with
    noProgressCount := progress.noProgressCount
    progressSignature := progress.signature }

end ObservedState

inductive RepairKind where
  | releaseStaleLease
  | retry
  | remand
  | rebuildWorkspace
  | rollback
  | quarantine
  deriving DecidableEq, Repr

namespace RepairKind

def value : RepairKind → String
  | releaseStaleLease => "release-stale-lease"
  | retry => "retry"
  | remand => "remand"
  | rebuildWorkspace => "rebuild-workspace"
  | rollback => "rollback"
  | quarantine => "quarantine"

/-- `_priority`. -/
def priority : RepairKind → Nat
  | quarantine => 0
  | rollback => 1
  | releaseStaleLease => 2
  | rebuildWorkspace => 3
  | remand => 4
  | retry => 5

end RepairKind

/-- `RepairAction`. -/
structure RepairAction where
  kind : RepairKind
  targetId : String
  reason : String
  attempt : Int
  maxAttempts : Int
  authorityScope : List String
  named : isRequired targetId = true ∧ isRequired reason = true
  bounded : 0 ≤ attempt ∧ 1 ≤ maxAttempts ∧ attempt ≤ maxAttempts
  ordered : sortedSet authorityScope = authorityScope

namespace RepairAction

/-- `RepairAction(...)`, which raises where `__post_init__` does. -/
def make (kind : RepairKind) (targetId reason : String) (attempt maxAttempts : Int)
    (authorityScope : List String) : Except Exc RepairAction :=
  if named : isRequired targetId = true ∧ isRequired reason = true then
    if ¬(0 ≤ attempt ∧ 1 ≤ maxAttempts) then
      .error (valueError "repair attempts are out of bounds")
    else if bounded : 0 ≤ attempt ∧ 1 ≤ maxAttempts ∧ attempt ≤ maxAttempts then
      if ordered : sortedSet authorityScope = authorityScope then
        .ok ⟨kind, targetId, reason, attempt, maxAttempts, authorityScope, named, bounded, ordered⟩
      else .error (valueError "authority_scope must be sorted and unique")
    else .error (valueError "repair attempt exceeds its bound")
  else .error (valueError "repair target and reason are required")

def actionId (action : RepairAction) : String := action.kind.value ++ ":" ++ action.targetId

/-- `RepairAction.to_document`. -/
def toDocument (action : RepairAction) : List (String × PyValue) :=
  [("action_id", .str action.actionId),
    ("kind", .str action.kind.value),
    ("target_id", .str action.targetId),
    ("reason", .str action.reason),
    ("attempt", .int action.attempt),
    ("max_attempts", .int action.maxAttempts),
    ("authority_scope", .list (action.authorityScope.map .str))]

end RepairAction

/-- A point in time, known by whether it is negative and by the values that are due at it: those
that are a number, or the text of one, of no later time. An integer may be too large for a float. -/
structure Moment where
  negative : Bool
  due : Json → Except Exc Bool

/-! ## Planning -/

/-- `actions` and `desired_work` while the repairs are collected. -/
structure Plan where
  actions : List RepairAction
  desired : List (String × Record)

namespace Plan

/-- `actions.setdefault(action.action_id, action)`. -/
def setDefault (plan : Plan) (action : RepairAction) : Plan :=
  if plan.actions.any (·.actionId = action.actionId) then plan
  else { plan with actions := plan.actions ++ [action] }

/-- `add`, with a scope that is a list of texts already. -/
def addTexts (plan : Plan) (kind : RepairKind) (targetId reason : String)
    (attempt maxAttempts : Int) (scope : List String) : Except Exc Plan := do
  let action ← RepairAction.make kind targetId reason attempt maxAttempts (sortedSet scope)
  return plan.setDefault action

/-- `desired_work[work_id]["desired_status"] = status`, if the work item is there. -/
def setStatus (plan : Plan) (workId status : String) : Plan :=
  match plan.desired.lookup workId with
  | none => plan
  | some record =>
    { plan with
      desired := Dicts.setItem workId (record.set "desired_status" (.str status)) plan.desired }

end Plan

/-- The records under the texts of one of their fields, of which the last one counts. -/
def indexed [Builtins] (name : String) (records : List Record) :
    Except Exc (List (String × Record)) :=
  records.foldlM (fun index record ↦ do
    let key ← item record name
    return Dicts.setItem (pyStr key) record index) []

/-- `verifications`: the records under their work item or, if they name none, their own id. -/
def verificationIndex [Builtins] (records : List Record) : List (String × Record) :=
  records.foldl (fun index record ↦
    let workId := getD record "work_id" .null
    let key := if workId = .null then getD record "verification_id" .null else workId
    if key = .null then index else Dicts.setItem (pyStr key) record index) []

/-- The names of an index in order. -/
def keys (index : List (String × Record)) : List String := sorted (index.map Prod.fst)

def empty : Record := Json.Dict.ofMembers []

/-- `_record_key`. -/
def recordKey [Builtins] [Hash256] (record : Record) : Except Exc (String × String) := do
  let identifier := getD record "work_id" <| getD record "lease_id" <| getD record "intent_id" <|
    getD record "workspace_id" <| getD record "failure_id" <| getD record "verification_id" (.str "")
  let digest ← canonicalDigest (.dict (PyValue.ofJsonItems record.members))
  return (pyStr identifier, digest)

/-- `sorted(records, key=_record_key)`. -/
def sortedByKey [Builtins] [Hash256] (records : List Record) : Except Exc (List Record) := do
  let keyed ← records.mapM fun record ↦ do
    let key ← recordKey record
    return (key, record)
  let ordered := keyed.insertionSort fun p q ↦
    p.1.1 < q.1.1 ∨ p.1.1 = q.1.1 ∧ p.1.2 ≤ q.1.2
  return ordered.map Prod.snd

section Planner

variable [Builtins] (policy : ReconciliationPolicy) (state : ObservedState) (now : Moment)
  (work : List (String × Record))

/-- What is known of a work item. -/
def workOf (workId : String) : Record := (work.lookup workId).getD empty

/-- `record.get("authority_scope", state.authority_scope)`, as texts. -/
def scopeOf (record : Record) : Except Exc (List String) :=
  match record.get? "authority_scope" with
  | some scope => pyTexts scope
  | none => .ok state.authorityScope

/-- `add`, with the scope of a record. -/
def add (plan : Plan) (kind : RepairKind) (targetId reason : String) (attempt maxAttempts : Int)
    (record : Record) : Except Exc Plan := do
  let scope ← scopeOf state record
  plan.addTexts kind targetId reason attempt maxAttempts scope

/-- `_nonterminal`. -/
def nonterminal (status : Json) : Bool :=
  let text := if pyBool status then pyUpper status else Builtins.upper ""
  text ∉ ["COMPLETED", "CANCELLED", "INTEGRATED", "TERMINAL_FAILED", "QUARANTINED"]

/-- A lease that is held and has expired is released. -/
def planLease (plan : Plan) (leaseId : String) (lease : Record) : Except Exc Plan := do
  let expiry := getD lease "expires_at" (getD lease "lease_expiry" .null)
  let status := pyUpper (getD lease "state" (getD lease "status" (.str "ACTIVE")))
  if status ∉ ["ACTIVE", "LEASED"] then
    return plan
  let due ← now.due expiry
  if !due then
    return plan
  let workId := pyStr (getD lease "work_id" (.str leaseId))
  let record := workOf work workId
  let plan ← add state plan .releaseStaleLease leaseId
    "lease expired; release it before retrying work" 0 1 record
  return if nonterminal (getD record "status" .null) then plan.setStatus workId "READY" else plan

/-- The work item of an intent, if it is one of the mission. -/
def intentRecord (intent : Record) : Option Record :=
  let workId := getD intent "work_id" .null
  let record := if workId = .null then none else work.lookup (pyStr workId)
  record.filter fun record ↦ getD record "mission_id" (.str state.missionId) = .str state.missionId

/-- An intent without a work item of the mission is put aside, and one of open work is decided
again. -/
def planIntent (plan : Plan) (intent : Record) : Except Exc Plan := do
  let intentId ← item intent "intent_id"
  match intentRecord state work intent with
  | none =>
    plan.addTexts .quarantine (pyStr intentId)
      "orphaned intent is not bound to this mission's work projection" 0 1 state.authorityScope
  | some record =>
    if pyUpper (getD record "status" (.str "")) ∈
        ["PROPOSED", "READY", "LEASED", "RUNNING", "AWAITING_VERIFICATION"] then
      let attempts ← pyInt (getD record "attempts" (.int 0))
      add state plan .remand (pyStr (getD intent "work_id" .null))
        "intent requires a fresh bounded work decision" attempts policy.maxRetries record
    else return plan

/-- A workspace that is missing is rebuilt, as often as the policy lets it. -/
def planWorkspace (plan : Plan) (workspaceId : String) (workspace : Record) : Except Exc Plan := do
  let present := match getD workspace "exists" .null with
    | .null => getD workspace "present" (.bool true)
    | value => value
  if pyBool present then
    return plan
  let workId := pyStr (getD workspace "work_id" (.str workspaceId))
  let record := workOf work workId
  let attempts ← pyInt (getD workspace "rebuild_attempts" (getD record "attempts" (.int 0)))
  if attempts < policy.maxRetries then
    let plan ← add state plan .rebuildWorkspace workspaceId
      "workspace is missing; rebuild only the recorded workspace" attempts policy.maxRetries record
    return plan.setStatus workId "READY"
  else
    add state plan .quarantine workspaceId "workspace rebuild budget is exhausted" attempts
      policy.maxRetries record

/-- A failure of a provider is tried again, as often as the policy lets it. -/
def planFailure (plan : Plan) (failureId : String) (failure : Record) : Except Exc Plan := do
  if failure.get? "resolved" = some (.bool true) then
    return plan
  let workId := pyStr (getD failure "work_id" (.str failureId))
  let record := workOf work workId
  let attempts ← pyInt (getD failure "attempts" (getD record "attempts" (.int 0)))
  let retryable := pyBool (getD failure "retryable" (getD failure "transient" (.bool true)))
  if retryable ∧ attempts < policy.maxRetries then
    add state plan .retry workId "provider failure is retryable within the attempt budget" attempts
      policy.maxRetries record
  else
    add state plan .quarantine workId "provider failure is terminal or retry budget is exhausted"
      attempts policy.maxRetries record

/-- Work that waits for a verification that was interrupted goes back to it. -/
def planVerification (verifications : List (String × Record)) (plan : Plan) (workId : String)
    (record : Record) : Except Exc Plan := do
  let verification := (verifications.lookup workId).filter (·.members ≠ [])
  let status := match verification with
    | some verification => pyUpper (getD verification "status" (.str ""))
    | none => ""
  if pyUpper (getD record "status" (.str "")) ≠ "AWAITING_VERIFICATION" then
    return plan
  if status ∉ ["INTERRUPTED", "MISSING", "ABORTED"] then
    return plan
  let given := getD record "verification_attempts" (.int 0)
  let attempts ← pyInt (match verification with
    | some verification => getD verification "attempts" given
    | none => given)
  if attempts < policy.maxRetries then
    add state plan .remand workId
      "verification was interrupted; remand without re-running the effect" attempts
      policy.maxRetries record
  else
    add state plan .quarantine workId "verification retry budget is exhausted" attempts
      policy.maxRetries record

/-- Work of which the integration went wrong is rolled back. -/
def planRollback (plan : Plan) (workId : String) (record : Record) : Except Exc Plan := do
  let integration := pyUpper (getD record "integration_status" (.str ""))
  if record.get? "rollback_required" = some (.bool true) ∨
      pyUpper (getD record "status" (.str "")) = "INTEGRATING" ∧
        integration ∈ ["FAILED", "PARTIAL", "INTERRUPTED"] then
    let plan ← add state plan .rollback workId
      "integration diverged; restore the last recorded accepted state" 0 1 record
    return plan.setStatus workId "ROLLING_BACK"
  else return plan

/-- One loop over an index, in the order of its names. -/
def overIndex (index : List (String × Record)) (step : Plan → String → Record → Except Exc Plan)
    (plan : Plan) : Except Exc Plan :=
  (keys index).foldlM (fun plan key ↦ step plan key (workOf index key)) plan

/-- What is proposed before the progress is looked at. -/
def propose [Hash256] : Except Exc Plan := do
  let work ← indexed "work_id" state.work
  let leases ← indexed "lease_id" state.leases
  let workspaces ← indexed "workspace_id" state.workspaces
  let failures ← indexed "failure_id" state.providerFailures
  let verifications := verificationIndex state.verifications
  let plan ← overIndex leases (planLease state now work) ⟨[], work⟩
  let intents ← sortedByKey state.intents
  let plan ← intents.foldlM (planIntent policy state work) plan
  let plan ← overIndex workspaces (planWorkspace policy state work) plan
  let plan ← overIndex failures (planFailure policy state work) plan
  let plan ← overIndex work (planVerification policy state verifications) plan
  overIndex work (planRollback state) plan

/-- The check of the progress, after all others. -/
def planProgress (plan : Plan) : Except Exc Plan :=
  if policy.noProgressLimit ≤ state.noProgressCount then
    plan.addTexts .quarantine state.missionId "no progress repeated beyond the configured bound"
      state.noProgressCount policy.noProgressLimit state.authorityScope
  else .ok plan

/-- The order of the repairs in a plan: `(_priority(item.kind), item.action_id)`. -/
def Before (action other : RepairAction) : Prop :=
  action.kind.priority < other.kind.priority ∨
    action.kind.priority = other.kind.priority ∧ action.actionId ≤ other.actionId

instance : DecidableRel Before := fun _ _ ↦ inferInstanceAs (Decidable (_ ∨ _))

/-- The repairs in order, cut down to the budget of a pass. What is cut puts the mission aside. -/
def bounded (plan : Plan) : Except Exc (List RepairAction) := do
  let ordered := plan.actions.insertionSort Before
  if policy.maxRepairsPerPass < ordered.length then
    let action ← RepairAction.make .quarantine state.missionId
      "repair pass exceeded its bounded action budget" 0 1 state.authorityScope
    return ordered.take (policy.maxRepairsPerPass - 1) ++ [action]
  else return ordered

/-- `DesiredState`. -/
structure DesiredState where
  missionId : String
  missionStatus : String
  work : List Record
  actions : List RepairAction
  quarantined : Bool
  observedDigest : String

/-- The document that is digested. -/
def DesiredState.toDocument (desired : DesiredState) : List (String × PyValue) :=
  [("mission_id", .str desired.missionId),
    ("mission_status", .str desired.missionStatus),
    ("work", ObservedState.records desired.work),
    ("actions", .list (desired.actions.map fun action ↦ .dict action.toDocument)),
    ("quarantined", .bool desired.quarantined),
    ("observed_digest", .str desired.observedDigest)]

/-- `ReconciliationResult`, with the digest of the desired state. -/
structure ReconciliationResult where
  observed : ObservedState
  desired : DesiredState
  desiredDigest : String

/-- `DesiredStateReconciler.reconcile`. -/
def reconcile [Hash256] : Except Exc ReconciliationResult := do
  if now.negative then
    throw (valueError "reconciliation time cannot be negative")
  let proposed ← propose policy state now
  let plan ← planProgress policy state proposed
  let actions ← bounded policy state plan
  let quarantined := actions.any (·.kind = .quarantine)
  let work := (keys plan.desired).map (workOf plan.desired)
  let observedDigest ← state.digest
  let missionStatus := if quarantined then "QUARANTINED" else state.missionStatus
  let desired : DesiredState :=
    ⟨state.missionId, missionStatus, work, actions, quarantined, observedDigest⟩
  let desiredDigest ← canonicalDigest (.dict desired.toDocument)
  return ⟨state, desired, desiredDigest⟩

end Planner

/-! ## What is proposed -/

section Proposals

variable [Builtins] {policy : ReconciliationPolicy} {state : ObservedState} {now : Moment}
  {plan plan' : Plan}

/-- Whether a plan puts something aside. -/
def Plan.quarantines (plan : Plan) : Bool := plan.actions.any (·.kind = .quarantine)

omit [Builtins] in
theorem RepairAction.kind_of_make {kind : RepairKind} {targetId reason : String}
    {attempt maxAttempts : Int} {scope : List String} {action : RepairAction}
    (h : RepairAction.make kind targetId reason attempt maxAttempts scope = .ok action) :
    action.kind = kind ∧ attempt ≤ maxAttempts := by
  rw [RepairAction.make] at h
  split at h
  · split at h
    · exact nomatch h
    split at h
    · next hbounded =>
      split at h
      · obtain rfl := Except.ok.inj h
        exact ⟨rfl, hbounded.2.2⟩
      · exact nomatch h
    · exact nomatch h
  · exact nomatch h

omit [Builtins] in
theorem RepairKind.head_value (kind : RepairKind) (rest : List Char) :
    (kind.value.toList ++ rest).head? = if kind = .quarantine then some 'q' else some 'r' := by
  cases kind <;> rfl

omit [Builtins] in
/-- The name of a repair tells whether it puts something aside. -/
theorem RepairAction.kind_of_actionId {action other : RepairAction}
    (h : action.actionId = other.actionId) (hother : other.kind = .quarantine) :
    action.kind = .quarantine := by
  have hlist := congrArg (fun id : String ↦ id.toList.head?) h
  simp only [RepairAction.actionId, String.toList_append, List.append_assoc,
    RepairKind.head_value, hother, if_true] at hlist
  split at hlist
  · next hkind => exact hkind
  · exact absurd hlist (by decide)

omit [Builtins] in
theorem Plan.quarantines_setDefault {action : RepairAction} (h : action.kind = .quarantine) :
    (plan.setDefault action).quarantines = true := by
  rw [Plan.setDefault]
  split
  · next hany =>
    obtain ⟨other, hother, hid⟩ := List.any_eq_true.mp hany
    have hkind := RepairAction.kind_of_actionId (of_decide_eq_true hid) h
    exact List.any_eq_true.mpr ⟨other, hother, decide_eq_true hkind⟩
  · rw [Plan.quarantines, List.any_append, List.any_cons, decide_eq_true h, Bool.true_or,
      Bool.or_true]

omit [Builtins] in
/-- A mission without progress is put aside, if the count is not beyond the limit already. -/
theorem planProgress_eq_ok (h : planProgress policy state plan = .ok plan') :
    (state.noProgressCount = policy.noProgressLimit ∧ plan'.quarantines = true) ∨
      (state.noProgressCount < policy.noProgressLimit ∧ plan' = plan) := by
  rw [planProgress] at h
  split at h
  · next hlimit =>
    rw [Plan.addTexts, bind_eq_ok] at h
    obtain ⟨action, haction, hplan⟩ := h
    obtain ⟨hkind, hattempt⟩ := RepairAction.kind_of_make haction
    rw [pure_eq_ok] at hplan
    exact .inl ⟨le_antisymm hattempt hlimit, hplan ▸ Plan.quarantines_setDefault hkind⟩
  · next hlimit => exact .inr ⟨not_le.mp hlimit, (Except.ok.inj h).symm⟩

omit [Builtins] in
/-- A pass puts something aside if its plan does or is over the budget. -/
theorem bounded_eq_ok {actions : List RepairAction} (h : bounded policy state plan = .ok actions) :
    actions.any (·.kind = .quarantine) = true ↔
      plan.quarantines = true ∨ policy.maxRepairsPerPass < plan.actions.length := by
  have hperm := List.perm_insertionSort Before plan.actions
  rw [bounded, hperm.length_eq] at h
  split at h
  · next hover =>
    obtain ⟨action, haction, hactions⟩ := bind_eq_ok.mp h
    rw [pure_eq_ok] at hactions
    refine iff_of_true ?_ (.inr hover)
    rw [hactions, List.any_append, List.any_cons,
      decide_eq_true (RepairAction.kind_of_make haction).1, Bool.true_or, Bool.or_true]
  · next hover =>
    rw [pure_eq_ok] at h
    rw [h, or_iff_left hover, Plan.quarantines, hperm.any_eq]

omit [Builtins] in
theorem length_of_bounded {actions : List RepairAction}
    (h : bounded policy state plan = .ok actions) : actions = [] ↔ plan.actions = [] := by
  have hperm := List.perm_insertionSort Before plan.actions
  rw [bounded, hperm.length_eq] at h
  split at h
  · next hover =>
    obtain ⟨action, -, hactions⟩ := bind_eq_ok.mp h
    rw [pure_eq_ok] at hactions
    refine iff_of_false (by simp [hactions]) fun hnil ↦ ?_
    rw [hnil] at hover
    exact absurd hover (Nat.not_lt_zero _)
  · rw [pure_eq_ok] at h
    rw [h, ← List.length_eq_zero_iff, hperm.length_eq, List.length_eq_zero_iff]

variable [Hash256] {result : ReconciliationResult}

/-- What a reconciliation returns. -/
theorem reconcile_eq_ok (h : reconcile policy state now = .ok result) :
    ∃ proposed plan observedDigest, propose policy state now = .ok proposed ∧
      planProgress policy state proposed = .ok plan ∧
      bounded policy state plan = .ok result.desired.actions ∧
      state.digest = .ok observedDigest ∧ result.desired.observedDigest = observedDigest ∧
      result.desired.quarantined = result.desired.actions.any (·.kind = .quarantine) ∧
      result.observed = state ∧
      canonicalDigest (.dict result.desired.toDocument) = .ok result.desiredDigest := by
  rw [reconcile, guard_eq_ok] at h
  obtain ⟨proposed, hproposed, h⟩ := bind_eq_ok.mp h.2
  obtain ⟨plan, hplan, h⟩ := bind_eq_ok.mp h
  obtain ⟨actions, hactions, h⟩ := bind_eq_ok.mp h
  obtain ⟨observedDigest, hobserved, h⟩ := bind_eq_ok.mp h
  obtain ⟨desiredDigest, hdesired, h⟩ := bind_eq_ok.mp h
  rw [pure_eq_ok] at h
  subst h
  exact ⟨proposed, plan, observedDigest, hproposed, hplan, hactions, hobserved, rfl, rfl, rfl,
    hdesired⟩

/-- A pass puts something aside if its proposals do, if they are over its budget, or if the count
has come to the limit. -/
theorem quarantined_iff {proposed : Plan} (hproposed : propose policy state now = .ok proposed)
    (h : reconcile policy state now = .ok result) :
    result.desired.quarantined = true ↔ proposed.quarantines = true ∨
      policy.maxRepairsPerPass < proposed.actions.length ∨
      state.noProgressCount = policy.noProgressLimit := by
  obtain ⟨proposed', plan, -, hproposed', hplan, hactions, -, -, hquarantined, -⟩ :=
    reconcile_eq_ok h
  obtain rfl := Except.ok.inj (hproposed.symm.trans hproposed')
  rw [hquarantined, bounded_eq_ok hactions]
  rcases planProgress_eq_ok hplan with ⟨hcount, hplan⟩ | ⟨hcount, rfl⟩
  · exact iff_of_true (.inl hplan) (.inr (.inr hcount))
  · rw [or_iff_left hcount.ne]

end Proposals

end HiveMind.Healing
