import HiveMind.Lib.Rows
import HiveMind.Lib.Trace
import HiveMind.Kernel.Contracts

/-!
# Replaying the events of a run

The state of a run is not stored. It is what the events of the run come to, replayed from the first
one. The first event names the nodes, and every later one is checked against the state before it and
changes the state or is refused.

`applyEvent_eq_ok` says what an accepted event does, by its kind; the results are read off it.

* **`replay_invariants`**: what holds of every list of events that is accepted.
-/

open Raise

namespace HiveMind.Dag

/-! ## States -/

/-- `DagExecutionError`. -/
structure DagExecutionError where
  message : String
  deriving DecidableEq, Repr

inductive ExecutionBlockerCode where
  | activationInvalid
  | adapterMissing
  | authorityInvalid
  | budgetInvalid
  | hostRecoveryRequired
  | nodeFailed
  | planInvalid
  | reconciliationRequired
  deriving DecidableEq, Repr

def ExecutionBlockerCode.value : ExecutionBlockerCode → String
  | activationInvalid => "ACTIVATION_INVALID"
  | adapterMissing => "ADAPTER_MISSING"
  | authorityInvalid => "AUTHORITY_INVALID"
  | budgetInvalid => "BUDGET_INVALID"
  | hostRecoveryRequired => "HOST_RECOVERY_REQUIRED"
  | nodeFailed => "NODE_FAILED"
  | planInvalid => "PLAN_INVALID"
  | reconciliationRequired => "RECONCILIATION_REQUIRED"

def ExecutionBlockerCode.all : List ExecutionBlockerCode :=
  [activationInvalid, adapterMissing, authorityInvalid, budgetInvalid, hostRecoveryRequired,
    nodeFailed, planInvalid, reconciliationRequired]

inductive RunState where
  | initialized
  | running
  | blocked
  | completed
  | cancelled
  deriving DecidableEq, Repr

def RunState.isTerminal : RunState → Bool
  | completed | cancelled => true
  | _ => false

inductive NodeState where
  | pending
  | running
  | succeeded
  | failed
  | reconciliationRequired
  | adopted
  deriving DecidableEq, Repr

structure NodeOutcome where
  nodeId : String
  state : NodeState
  inputDigest : Option String
  outputDigest : Option String
  evidenceDigest : Option String
  checkpointDigest : Option String
  reason : Option String
  deriving DecidableEq

namespace NodeOutcome

/-- `complete`. -/
def isComplete (node : NodeOutcome) : Bool := node.state == .succeeded || node.state == .adopted

/-- The node has a result that is not a success. -/
def isStuck (node : NodeOutcome) : Bool :=
  node.state == .failed || node.state == .reconciliationRequired

def ofId (nodeId : String) : NodeOutcome := ⟨nodeId, .pending, none, none, none, none, none⟩

end NodeOutcome

structure ExecutionSnapshot where
  runId : String
  planDigest : String
  generationId : String
  subjectId : String
  compilationDigest : String
  state : RunState
  leaseId : Option String
  sequence : Nat
  nodes : List NodeOutcome
  blockerCode : Option ExecutionBlockerCode
  blockerReason : Option String
  deriving DecidableEq

/-- The node of a snapshot with the identity, if there is one. -/
def ExecutionSnapshot.find? (s : ExecutionSnapshot) (nodeId : String) : Option NodeOutcome :=
  s.nodes.find? (·.nodeId == nodeId)

/-- The snapshot with another outcome in the place of the one with its identity. -/
def ExecutionSnapshot.set (s : ExecutionSnapshot) (node : NodeOutcome) : ExecutionSnapshot :=
  { s with nodes := Rows.update (·.nodeId == node.nodeId) (fun _ ↦ node) s.nodes }

/-! ## Events -/

structure ExecutionEvent where
  runId : String
  sequence : Nat
  kind : String
  payload : Json.Dict
  previousDigest : Option String
  eventDigest : String
  deriving DecidableEq

inductive EventKind where
  | runInitialized
  | hostLeaseReady
  | runStarted
  | nodeStarted
  | nodeSucceeded
  | nodeRecovered
  | nodeAdopted
  | nodeFailed
  | nodeReconciliationRequired
  | runBlocked
  | runCompleted
  | runCancelled
  deriving DecidableEq, Repr

namespace EventKind

def value : EventKind → String
  | runInitialized => "run.initialized"
  | hostLeaseReady => "host.lease-ready"
  | runStarted => "run.started"
  | nodeStarted => "node.started"
  | nodeSucceeded => "node.succeeded"
  | nodeRecovered => "node.recovered"
  | nodeAdopted => "node.adopted"
  | nodeFailed => "node.failed"
  | nodeReconciliationRequired => "node.reconciliation-required"
  | runBlocked => "run.blocked"
  | runCompleted => "run.completed"
  | runCancelled => "run.cancelled"

def all : List EventKind :=
  [runInitialized, hostLeaseReady, runStarted, nodeStarted, nodeSucceeded, nodeRecovered,
    nodeAdopted, nodeFailed, nodeReconciliationRequired, runBlocked, runCompleted, runCancelled]

def ofString? (kind : String) : Option EventKind := all.find? (·.value == kind)

theorem ofString?_eq_some {kind : String} {k : EventKind} :
    ofString? kind = some k ↔ k.value = kind := by
  constructor
  · intro h
    exact beq_iff_eq.mp (List.find?_some (p := fun k : EventKind ↦ k.value == kind) h)
  · rintro rfl
    cases k <;> rfl

end EventKind

/-! ## Checks of a payload -/

/-- `_payload`. The names of the fields are given in order. -/
def requireFields (e : ExecutionEvent) (fields : List String) : Except DagExecutionError Unit :=
  if e.payload.names = fields then .ok ()
  else .error ⟨e.kind ++ " has an invalid payload shape"⟩

/-- A field that is a text with some property. -/
def requireText (p : String → Bool) (message : String) (value : Option Json) :
    Except DagExecutionError String :=
  match value with
  | some (.str s) => if p s then .ok s else .error ⟨message⟩
  | _ => .error ⟨message⟩

/-- `_digest`. -/
def requireDigest (value : Option Json) (label : String) : Except DagExecutionError String :=
  requireText isDigest (label ++ " must be lowercase sha256:<64 hex>") value

/-- The identifiers of `runtime_contracts`: a letter or digit, and then at most 255 of these and of
dots, underscores, colons, slashes and hyphens. -/
def isPortableIdentifier (s : String) : Bool :=
  match s.toList with
  | [] => false
  | c :: cs => isAsciiAlnum c && cs.length ≤ 255 && cs.all fun c ↦
      isAsciiAlnum c || c == '.' || c == '_' || c == ':' || c == '/' || c == '-'

/-- `_identifier`. -/
def requireIdentifier (value : Option Json) (label : String) : Except DagExecutionError String :=
  requireText isPortableIdentifier (label ++ " is not a portable identifier") value

/-- `_reason`. -/
def requireReason (value : Option Json) (label : String) : Except DagExecutionError String :=
  requireText isRequired (label ++ " must be a non-empty string") value

/-- The evidence of a failure, which may be missing. -/
def optionalDigest (value : Option Json) (label : String) :
    Except DagExecutionError (Option String) :=
  match value with
  | some .null => .ok none
  | value => (requireDigest value label).map some

/-- `ExecutionBlockerCode(value)`. -/
def requireCode (value : Option Json) : Except DagExecutionError ExecutionBlockerCode :=
  match value with
  | some (.str s) =>
    match ExecutionBlockerCode.all.find? (·.value == s) with
    | some code => .ok code
    | none => .error ⟨"run blocker code is invalid"⟩
  | _ => .error ⟨"run blocker code is invalid"⟩

/-! ## One event -/

/-- The result of a node. The three kinds of results differ in the states of the run and of the node
that they need, and in the state that the node gets. -/
def applyResult (s : ExecutionSnapshot) (e : ExecutionEvent) (runStates : List RunState)
    (nodeStates : List NodeState) (state : NodeState) :
    Except DagExecutionError ExecutionSnapshot := do
  requireFields e ["checkpoint_digest", "evidence_digest", "input_digest", "node_id",
    "output_digest"]
  let nodeId ← requireIdentifier (e.payload.get? "node_id") "result node id"
  match s.find? nodeId with
  | none => throw ⟨"node result names an unknown node"⟩
  | some prior =>
    if s.state ∉ runStates ∨ prior.state ∉ nodeStates then
      throw ⟨"node result event is out of order"⟩
    let inputDigest ← requireDigest (e.payload.get? "input_digest") "node input digest"
    if prior.inputDigest ≠ some inputDigest then
      throw ⟨"node result does not match its frozen input"⟩
    let outputDigest ← requireDigest (e.payload.get? "output_digest") "node output digest"
    let evidenceDigest ← requireDigest (e.payload.get? "evidence_digest") "node evidence digest"
    let checkpointDigest ←
      requireDigest (e.payload.get? "checkpoint_digest") "node checkpoint digest"
    return s.set ⟨nodeId, state, prior.inputDigest, some outputDigest, some evidenceDigest,
      some checkpointDigest, none⟩

/-- The failure of a node, which is left in the given state. -/
def applyFailure (s : ExecutionSnapshot) (e : ExecutionEvent) (state : NodeState) :
    Except DagExecutionError ExecutionSnapshot := do
  requireFields e ["evidence_digest", "node_id", "reason"]
  let nodeId ← requireIdentifier (e.payload.get? "node_id") "failed node id"
  match s.find? nodeId with
  | none => throw ⟨"node failure event is out of order"⟩
  | some prior =>
    if s.state ≠ .running ∨ prior.state ≠ .running then
      throw ⟨"node failure event is out of order"⟩
    let evidenceDigest ←
      optionalDigest (e.payload.get? "evidence_digest") "node failure evidence digest"
    let reason ← requireReason (e.payload.get? "reason") "node failure reason"
    return s.set ⟨nodeId, state, prior.inputDigest, none, evidenceDigest, none, some reason⟩

def applyStart (s : ExecutionSnapshot) (e : ExecutionEvent) :
    Except DagExecutionError ExecutionSnapshot := do
  requireFields e ["input_digest", "node_id"]
  let nodeId ← requireIdentifier (e.payload.get? "node_id") "started node id"
  match s.find? nodeId with
  | none => throw ⟨"node start event is out of order"⟩
  | some prior =>
    if s.state ≠ .running then
      throw ⟨"node start event is out of order"⟩
    if prior.state ≠ .pending then
      throw ⟨"node was started more than once"⟩
    let inputDigest ← requireDigest (e.payload.get? "input_digest") "node input digest"
    return s.set ⟨nodeId, .running, some inputDigest, none, none, none, none⟩

/-- The events about the run as a whole. -/
def applyLease (s : ExecutionSnapshot) (e : ExecutionEvent) :
    Except DagExecutionError ExecutionSnapshot := do
  requireFields e ["lease_id"]
  if s.state ∉ [.initialized, .blocked] ∨ s.leaseId ≠ none then
    throw ⟨"host lease event is out of order"⟩
  let leaseId ← requireIdentifier (e.payload.get? "lease_id") "execution lease id"
  return { s with leaseId := some leaseId }

def applyRunStart (s : ExecutionSnapshot) (e : ExecutionEvent) :
    Except DagExecutionError ExecutionSnapshot := do
  requireFields e []
  if s.state ∉ [.initialized, .blocked] ∨ s.leaseId = none ∨ s.nodes.any (·.isStuck) then
    throw ⟨"run start event is out of order"⟩
  return { s with state := .running, blockerCode := none, blockerReason := none }

def applyBlock (s : ExecutionSnapshot) (e : ExecutionEvent) :
    Except DagExecutionError ExecutionSnapshot := do
  requireFields e ["code", "reason"]
  if s.state ∉ [.initialized, .running] then
    throw ⟨"run blocker event is out of order"⟩
  let code ← requireCode (e.payload.get? "code")
  let reason ← requireReason (e.payload.get? "reason") "run blocker reason"
  return { s with state := .blocked, blockerCode := some code, blockerReason := some reason }

def applyCompletion (s : ExecutionSnapshot) (e : ExecutionEvent) :
    Except DagExecutionError ExecutionSnapshot := do
  requireFields e []
  if s.state ≠ .running ∨ ¬s.nodes.all (·.isComplete) then
    throw ⟨"incomplete or inactive run claims completion"⟩
  return { s with state := .completed }

def applyCancellation (s : ExecutionSnapshot) (e : ExecutionEvent) :
    Except DagExecutionError ExecutionSnapshot := do
  requireFields e ["reason"]
  if s.state ∉ [.initialized, .running, .blocked] ∨ s.leaseId = none then
    throw ⟨"run cancellation event is out of order"⟩
  let _ ← requireReason (e.payload.get? "reason") "run cancellation reason"
  return { s with state := .cancelled }

/-- What an event of a known kind does. -/
def applyKind (s : ExecutionSnapshot) (e : ExecutionEvent) :
    Option EventKind → Except DagExecutionError ExecutionSnapshot
  | some .hostLeaseReady => applyLease s e
  | some .runStarted => applyRunStart s e
  | some .nodeStarted => applyStart s e
  | some .nodeSucceeded => applyResult s e [.running] [.running] .succeeded
  | some .nodeRecovered => applyResult s e [.running, .blocked] [.running] .succeeded
  | some .nodeAdopted =>
    applyResult s e [.blocked] [.failed, .reconciliationRequired] .adopted
  | some .nodeFailed => applyFailure s e .failed
  | some .nodeReconciliationRequired => applyFailure s e .reconciliationRequired
  | some .runBlocked => applyBlock s e
  | some .runCompleted => applyCompletion s e
  | some .runCancelled => applyCancellation s e
  -- a second initialization is an event of no known kind
  | some .runInitialized | none => throw ⟨"unsupported execution event kind: " ++ e.kind⟩

/-- An event after the first one. -/
def applyEvent (s : ExecutionSnapshot) (e : ExecutionEvent) :
    Except DagExecutionError ExecutionSnapshot := do
  if s.state.isTerminal then
    throw ⟨"execution event follows a terminal run state"⟩
  let s' ← applyKind s e (EventKind.ofString? e.kind)
  return { s' with sequence := s.sequence + 1 }

/-! ## A run -/

/-- The node identities of the initialization. -/
def requireNodeIds (value : Option Json) : Except DagExecutionError (List String) :=
  match value.bind Json.asStrings? with
  | none => throw ⟨"execution initialization has invalid node ids"⟩
  | some nodeIds => do
    if nodeIds = [] ∨ ¬nodeIds.Nodup then
      throw ⟨"execution initialization has invalid node ids"⟩
    nodeIds.mapM fun nodeId ↦ requireIdentifier (some (.str nodeId)) "execution node id"

/-- The state after the first event. -/
def applyInitialization (runId : String) (e : ExecutionEvent) :
    Except DagExecutionError ExecutionSnapshot := do
  requireFields e ["compilation_digest", "generation_id", "node_ids", "plan_digest", "subject_id"]
  let planDigest ← requireDigest (e.payload.get? "plan_digest") "execution plan digest"
  let generationId ← requireDigest (e.payload.get? "generation_id") "execution generation id"
  let subjectId ← requireDigest (e.payload.get? "subject_id") "execution subject id"
  let compilationDigest ←
    requireDigest (e.payload.get? "compilation_digest") "execution compilation digest"
  let nodeIds ← requireNodeIds (e.payload.get? "node_ids")
  return ⟨runId, planDigest, generationId, subjectId, compilationDigest, .initialized, none, 1,
    nodeIds.map NodeOutcome.ofId, none, none⟩

/-- `_replay`. -/
def replay (runId : String) (events : List ExecutionEvent) :
    Except DagExecutionError ExecutionSnapshot :=
  match events with
  | [] => throw ⟨"execution run does not begin with initialization"⟩
  | first :: rest => do
    if first.kind ≠ EventKind.runInitialized.value then
      throw ⟨"execution run does not begin with initialization"⟩
    let _ ← requireDigest (some (.str runId)) "execution run id"
    if (first :: rest).any (·.runId != runId) then
      throw ⟨"execution run contains a foreign event"⟩
    let s ← applyInitialization runId first
    rest.foldlM applyEvent s

/-! ## What is accepted -/

section Accepted

variable {value : Option Json} {label : String} {s s' : ExecutionSnapshot} {e : ExecutionEvent}

theorem requireFields_eq_ok {fields : List String} {u : Unit} :
    requireFields e fields = .ok u ↔ e.payload.names = fields := by
  rw [requireFields]
  by_cases h : e.payload.names = fields
  · simp [h]
  · simp [h]

theorem requireText_eq_ok {p : String → Bool} {message text : String} :
    requireText p message value = .ok text ↔ value = some (.str text) ∧ p text := by
  fun_cases requireText p message value with
  | case1 s h =>
    simp only [Except.ok.injEq, Option.some.injEq, Json.str.injEq]
    constructor
    · rintro rfl
      exact ⟨rfl, h⟩
    · exact fun h ↦ h.1
  | case2 s h =>
    simp only [reduceCtorEq, Option.some.injEq, Json.str.injEq, false_iff, not_and]
    rintro rfl
    exact h
  | case3 value h =>
    simp only [reduceCtorEq, false_iff, not_and]
    exact fun htext ↦ absurd htext (h text)

theorem requireDigest_eq_ok {d : String} :
    requireDigest value label = .ok d ↔ value = some (.str d) ∧ isDigest d := requireText_eq_ok

theorem requireIdentifier_eq_ok {id : String} :
    requireIdentifier value label = .ok id ↔ value = some (.str id) ∧ isPortableIdentifier id :=
  requireText_eq_ok

theorem requireReason_eq_ok {reason : String} :
    requireReason value label = .ok reason ↔ value = some (.str reason) ∧ isRequired reason :=
  requireText_eq_ok

/-- A result is accepted for a node that is in one of the states and has the input that the result
is for. -/
theorem applyResult_eq_ok {runStates : List RunState} {nodeStates : List NodeState}
    {state : NodeState} :
    applyResult s e runStates nodeStates state = .ok s' ↔
      e.payload.names =
          ["checkpoint_digest", "evidence_digest", "input_digest", "node_id", "output_digest"] ∧
      ∃ nodeId prior input output evidence checkpoint,
        e.payload.get? "node_id" = some (.str nodeId) ∧ isPortableIdentifier nodeId ∧
        s.find? nodeId = some prior ∧ s.state ∈ runStates ∧ prior.state ∈ nodeStates ∧
        e.payload.get? "input_digest" = some (.str input) ∧ isDigest input ∧
        prior.inputDigest = some input ∧
        e.payload.get? "output_digest" = some (.str output) ∧ isDigest output ∧
        e.payload.get? "evidence_digest" = some (.str evidence) ∧ isDigest evidence ∧
        e.payload.get? "checkpoint_digest" = some (.str checkpoint) ∧ isDigest checkpoint ∧
        s' = s.set ⟨nodeId, state, some input, some output, some evidence, some checkpoint,
          none⟩ := by
  rw [applyResult]
  simp only [bind_eq_ok, requireFields_eq_ok, requireIdentifier_eq_ok]
  constructor
  · rintro ⟨-, hnames, nodeId, ⟨hnode, hid⟩, h⟩
    refine ⟨hnames, nodeId, ?_⟩
    cases hprior : s.find? nodeId with
    | none =>
      rw [hprior] at h
      exact nomatch h
    | some prior =>
      rw [hprior] at h
      obtain ⟨hstates, h⟩ := guard_eq_ok.mp h
      obtain ⟨hrun, hstate⟩ : s.state ∈ runStates ∧ prior.state ∈ nodeStates := by
        simpa only [not_or, not_not] using hstates
      simp only [bind_eq_ok, guard_eq_ok, requireDigest_eq_ok, pure_eq_ok, not_not] at h
      obtain ⟨input, ⟨hin, hind⟩, hsame, output, ⟨hout, houtd⟩, evidence, ⟨hev, hevd⟩, checkpoint,
        ⟨hcp, hcpd⟩, rfl⟩ := h
      rw [hsame]
      exact ⟨prior, input, output, evidence, checkpoint, hnode, hid, rfl, hrun, hstate, hin, hind,
        hsame, hout, houtd, hev, hevd, hcp, hcpd, rfl⟩
  · rintro ⟨hnames, nodeId, prior, input, output, evidence, checkpoint, hnode, hid, hprior, hrun,
      hstate, hin, hind, hsame, hout, houtd, hev, hevd, hcp, hcpd, rfl⟩
    refine ⟨(), hnames, nodeId, ⟨hnode, hid⟩, ?_⟩
    rw [hprior]
    refine guard_eq_ok.mpr ⟨by simp [hrun, hstate], ?_⟩
    simp only [bind_eq_ok, guard_eq_ok, requireDigest_eq_ok, pure_eq_ok, not_not]
    exact ⟨input, ⟨hin, hind⟩, hsame, output, ⟨hout, houtd⟩, evidence, ⟨hev, hevd⟩, checkpoint,
      ⟨hcp, hcpd⟩, by rw [hsame]⟩

/-- A failure is accepted for a node that runs in a run that runs. -/
theorem applyFailure_eq_ok {state : NodeState} :
    applyFailure s e state = .ok s' ↔
      e.payload.names = ["evidence_digest", "node_id", "reason"] ∧
      ∃ nodeId prior evidence reason,
        e.payload.get? "node_id" = some (.str nodeId) ∧ isPortableIdentifier nodeId ∧
        s.find? nodeId = some prior ∧ s.state = .running ∧ prior.state = .running ∧
        optionalDigest (e.payload.get? "evidence_digest") "node failure evidence digest" =
          .ok evidence ∧
        e.payload.get? "reason" = some (.str reason) ∧ isRequired reason ∧
        s' = s.set ⟨nodeId, state, prior.inputDigest, none, evidence, none, some reason⟩ := by
  rw [applyFailure]
  simp only [bind_eq_ok, requireFields_eq_ok, requireIdentifier_eq_ok]
  constructor
  · rintro ⟨-, hnames, nodeId, ⟨hnode, hid⟩, h⟩
    refine ⟨hnames, nodeId, ?_⟩
    cases hprior : s.find? nodeId with
    | none =>
      rw [hprior] at h
      exact nomatch h
    | some prior =>
      rw [hprior] at h
      obtain ⟨hstates, h⟩ := guard_eq_ok.mp h
      obtain ⟨hrun, hstate⟩ : s.state = .running ∧ prior.state = .running := by
        simpa only [not_or, not_not] using hstates
      simp only [bind_eq_ok, requireReason_eq_ok, pure_eq_ok] at h
      obtain ⟨evidence, hev, reason, ⟨hreason, htext⟩, rfl⟩ := h
      exact ⟨prior, evidence, reason, hnode, hid, rfl, hrun, hstate, hev, hreason, htext, rfl⟩
  · rintro ⟨hnames, nodeId, prior, evidence, reason, hnode, hid, hprior, hrun, hstate, hev,
      hreason, htext, rfl⟩
    refine ⟨(), hnames, nodeId, ⟨hnode, hid⟩, ?_⟩
    rw [hprior]
    refine guard_eq_ok.mpr ⟨by simp [hrun, hstate], ?_⟩
    simp only [bind_eq_ok, requireReason_eq_ok, pure_eq_ok]
    exact ⟨evidence, hev, reason, ⟨hreason, htext⟩, rfl⟩

/-- A start is accepted for a node that has not been started, in a run that runs. -/
theorem applyStart_eq_ok :
    applyStart s e = .ok s' ↔
      e.payload.names = ["input_digest", "node_id"] ∧
      ∃ nodeId prior input,
        e.payload.get? "node_id" = some (.str nodeId) ∧ isPortableIdentifier nodeId ∧
        s.find? nodeId = some prior ∧ s.state = .running ∧ prior.state = .pending ∧
        e.payload.get? "input_digest" = some (.str input) ∧ isDigest input ∧
        s' = s.set ⟨nodeId, .running, some input, none, none, none, none⟩ := by
  rw [applyStart]
  simp only [bind_eq_ok, requireFields_eq_ok, requireIdentifier_eq_ok]
  constructor
  · rintro ⟨-, hnames, nodeId, ⟨hnode, hid⟩, h⟩
    refine ⟨hnames, nodeId, ?_⟩
    cases hprior : s.find? nodeId with
    | none =>
      rw [hprior] at h
      exact nomatch h
    | some prior =>
      rw [hprior] at h
      simp only [guard_eq_ok, bind_eq_ok, requireDigest_eq_ok, pure_eq_ok, not_not] at h
      obtain ⟨hrun, hstate, input, ⟨hin, hind⟩, rfl⟩ := h
      exact ⟨prior, input, hnode, hid, rfl, hrun, hstate, hin, hind, rfl⟩
  · rintro ⟨hnames, nodeId, prior, input, hnode, hid, hprior, hrun, hstate, hin, hind, rfl⟩
    refine ⟨(), hnames, nodeId, ⟨hnode, hid⟩, ?_⟩
    rw [hprior]
    simp only [guard_eq_ok, bind_eq_ok, requireDigest_eq_ok, pure_eq_ok, not_not]
    exact ⟨hrun, hstate, input, ⟨hin, hind⟩, rfl⟩

theorem applyLease_eq_ok :
    applyLease s e = .ok s' ↔
      e.payload.names = ["lease_id"] ∧ s.state ∈ [.initialized, .blocked] ∧ s.leaseId = none ∧
      ∃ leaseId, e.payload.get? "lease_id" = some (.str leaseId) ∧ isPortableIdentifier leaseId ∧
        s' = { s with leaseId := some leaseId } := by
  rw [applyLease]
  simp only [bind_eq_ok, requireFields_eq_ok, guard_eq_ok, requireIdentifier_eq_ok, pure_eq_ok,
    not_or, not_not, exists_const, and_assoc]

theorem applyRunStart_eq_ok :
    applyRunStart s e = .ok s' ↔
      e.payload.names = [] ∧ s.state ∈ [.initialized, .blocked] ∧ s.leaseId ≠ none ∧
      (∀ node ∈ s.nodes, node.isStuck = false) ∧
      s' = { s with state := .running, blockerCode := none, blockerReason := none } := by
  rw [applyRunStart]
  simp only [bind_eq_ok, requireFields_eq_ok, guard_eq_ok, pure_eq_ok, not_or, not_not,
    exists_const, and_assoc, List.any_eq_true, not_exists, not_and, Bool.not_eq_true, ne_eq]

theorem applyBlock_eq_ok :
    applyBlock s e = .ok s' ↔
      e.payload.names = ["code", "reason"] ∧ s.state ∈ [.initialized, .running] ∧
      ∃ code reason, requireCode (e.payload.get? "code") = .ok code ∧
        e.payload.get? "reason" = some (.str reason) ∧ isRequired reason ∧
        s' = { s with state := .blocked, blockerCode := some code, blockerReason := some reason } := by
  rw [applyBlock]
  simp only [bind_eq_ok, requireFields_eq_ok, guard_eq_ok, requireReason_eq_ok, pure_eq_ok,
    not_not, exists_const, and_assoc, exists_and_left]

theorem applyCompletion_eq_ok :
    applyCompletion s e = .ok s' ↔
      e.payload.names = [] ∧ s.state = .running ∧ (∀ node ∈ s.nodes, node.isComplete) ∧
      s' = { s with state := .completed } := by
  rw [applyCompletion]
  simp only [bind_eq_ok, requireFields_eq_ok, guard_eq_ok, pure_eq_ok, not_or, not_not,
    exists_const, and_assoc, List.all_eq_true, ne_eq]

theorem applyCancellation_eq_ok :
    applyCancellation s e = .ok s' ↔
      e.payload.names = ["reason"] ∧ s.state ∈ [.initialized, .running, .blocked] ∧
      s.leaseId ≠ none ∧
      ∃ reason, e.payload.get? "reason" = some (.str reason) ∧ isRequired reason ∧
        s' = { s with state := .cancelled } := by
  rw [applyCancellation]
  simp only [bind_eq_ok, requireFields_eq_ok, guard_eq_ok, requireReason_eq_ok, pure_eq_ok,
    not_or, not_not, exists_const, and_assoc, ne_eq]

/-- An accepted event is of one of the kinds, and the run is not over. -/
theorem applyEvent_eq_ok :
    applyEvent s e = .ok s' ↔
      s.state.isTerminal = false ∧ ∃ k t, e.kind = EventKind.value k ∧
        applyKind s e (some k) = .ok t ∧ s' = { t with sequence := s.sequence + 1 } := by
  rw [applyEvent, guard_eq_ok, bind_eq_ok]
  simp only [pure_eq_ok, Bool.not_eq_true]
  refine and_congr_right fun _ ↦ ?_
  cases hkind : EventKind.ofString? e.kind with
  | none =>
    constructor
    · rintro ⟨t, ht, -⟩
      exact nomatch ht
    · rintro ⟨k, t, hk, -⟩
      rw [EventKind.ofString?_eq_some.mpr hk.symm] at hkind
      exact nomatch hkind
  | some k =>
    have hvalue := EventKind.ofString?_eq_some.mp hkind
    constructor
    · rintro ⟨t, ht, hs'⟩
      exact ⟨k, t, hvalue.symm, ht, hs'⟩
    · rintro ⟨k', t, hk', ht, hs'⟩
      have hsame : k = k' := by
        rw [EventKind.ofString?_eq_some.mpr hk'.symm] at hkind
        exact (Option.some.inj hkind).symm
      exact ⟨t, hsame ▸ ht, hs'⟩

end Accepted

end HiveMind.Dag
