import HiveMind.Cohort.Runtime
import HiveMind.Kernel.Contracts

/-!
# Executing a cohort

Around its loop an execution has a beginning and an end. At the beginning the graph is compiled and
the journal, if there is one, is replayed: results that it holds are taken over, and a journal that
says that the run was completed ends the execution there. At the end the results converge and are
verified, unless the journal says how they did.
-/

open Raise

namespace HiveMind.Cohort

/-! ## Arguments -/

def OutcomeWorkPackage.toPyValue (p : OutcomeWorkPackage) : PyValue :=
  .dict [("package_id", .str p.packageId), ("outcome_ids", .tuple (p.outcomeIds.map .str)),
    ("dependencies", .tuple (p.dependencies.map .str)),
    ("allowed_paths", .tuple (p.allowedPaths.map .str)),
    ("semantic_locks", .tuple (p.semanticLocks.map .str)),
    ("acceptance_ids", .tuple (p.acceptanceIds.map .str)), ("risk_tier", .str p.riskTier),
    ("required_roles", .tuple (p.requiredRoles.map .str)), ("effort", .int p.effort),
    ("rollback", .str p.rollback), ("state", .str p.state)]

def OutcomeGraphSpec.toPyValue (graph : OutcomeGraphSpec) : PyValue :=
  .dict [("packages", .tuple (graph.packages.map (·.toPyValue))),
    ("base_snapshot", .str graph.baseSnapshot), ("contract_version", .int graph.contractVersion),
    ("maximum_concurrent", .int graph.maximumConcurrent), ("court_receipt", .str graph.courtReceipt)]

/-- `to_document` of a policy. -/
def CohortExecutionPolicy.toPyValue (policy : CohortExecutionPolicy) : PyValue :=
  .dict [("schema_version", .int 1), ("execution_mode", .str "cohort"),
    ("max_parallel_packages", .int policy.maxParallelPackages),
    ("convergence_gate", .str "all_runnable_packages_terminal")]

/-- The arguments of `execute`. -/
structure CohortRequest where
  graph : OutcomeGraphSpec
  policy : CohortExecutionPolicy
  runId : String
  context : List (String × PyValue)
  effectClasses : List (String × EffectClass)
  classified : (effectClasses.map Prod.fst).Nodup
  callbacks : Callbacks
  clock : ℕ → String
  dated : ∀ n, clock n ≠ ""

section Arguments

variable [Hash256]

/-- `_kickoff`. -/
def CohortRequest.makeKickoff (r : CohortRequest) (graph : OutcomeGraphSpec) :
    Except RunError CohortKickoff := do
  if isRequired r.runId = false then
    throw (.runtime "cohort run id must be nonempty")
  let context ← (PyValue.reread r.context).mapError fun _ ↦
    .runtime "cohort kickoff context must be canonical JSON"
  let graphDigest ← (canonicalDigest graph.toPyValue).mapError .encoding
  let policyDigest ← (canonicalDigest r.policy.toPyValue).mapError .encoding
  return ⟨r.runId, graphDigest, policyDigest, jsonDigest context.toJson, context⟩

/-- The run of a request. -/
def CohortRequest.toRun (r : CohortRequest) (h : Compiled r.graph) (kickoff : CohortKickoff) :
    CohortRun where
  graph := r.graph
  compiled := h
  policy := r.policy
  kickoff := kickoff
  effectClasses := r.effectClasses
  classified := r.classified
  callbacks := r.callbacks
  clock := r.clock
  dated := r.dated

/-- `execute`, up to where it looks at the journal. -/
def CohortRequest.prepare (r : CohortRequest) : Except RunError CohortRun :=
  match hcompile : compileOutcomeGraph r.graph with
  | .error e => .error (.graph e)
  | .ok graph => do
    let kickoff ← r.makeKickoff graph
    if ∃ key ∈ r.effectClasses.map Prod.fst, key ∉ graph.ids then
      throw (.runtime "effect classification names an unknown package")
    return { graph, compiled := compiled_of_compile hcompile, policy := r.policy, kickoff
             effectClasses := r.effectClasses, classified := r.classified, callbacks := r.callbacks
             clock := r.clock, dated := r.dated }

theorem CohortRequest.prepare_eq_ok {r : CohortRequest} {x : CohortRun} :
    r.prepare = .ok x ↔ ∃ h : compileOutcomeGraph r.graph = .ok r.graph, ∃ kickoff,
      r.makeKickoff r.graph = .ok kickoff ∧
      (∀ key ∈ r.effectClasses.map Prod.fst, key ∈ r.graph.ids) ∧
      x = r.toRun (compiled_of_compile h) kickoff := by
  rw [prepare]
  split
  · next e he =>
    exact ⟨fun h ↦ (nomatch h), fun ⟨h, _⟩ ↦ nomatch he.symm.trans h⟩
  · next graph hgraph =>
    obtain rfl := (compileOutcomeGraph_eq_ok.mp hgraph).1
    simp only [bind_eq_ok, guard_eq_ok, pure_eq_ok, not_exists, not_and, not_not]
    exact ⟨fun ⟨kickoff, hkickoff, hknown, hx⟩ ↦ ⟨hgraph, kickoff, hkickoff, hknown, hx⟩,
      fun ⟨_, kickoff, hkickoff, hknown, hx⟩ ↦ ⟨kickoff, hkickoff, hknown, hx⟩⟩

theorem CohortRequest.makeKickoff_eq_ok {r : CohortRequest} {graph : OutcomeGraphSpec}
    {kickoff : CohortKickoff} : r.makeKickoff graph = .ok kickoff ↔
      isRequired r.runId = true ∧ PyValue.reread r.context = .ok kickoff.context ∧
      canonicalDigest graph.toPyValue = .ok kickoff.graphDigest ∧
      canonicalDigest r.policy.toPyValue = .ok kickoff.policyDigest ∧
      kickoff.runId = r.runId ∧ kickoff.contextDigest = jsonDigest kickoff.context.toJson := by
  simp only [makeKickoff, bind_eq_ok, guard_eq_ok, mapError_eq_ok, pure_eq_ok,
    Bool.not_eq_false]
  constructor
  · rintro ⟨hid, context, hcontext, graphDigest, hgraph, policyDigest, hpolicy, rfl⟩
    exact ⟨hid, hcontext, hgraph, hpolicy, rfl, rfl⟩
  · rintro ⟨hid, hcontext, hgraph, hpolicy, hrunId, hdigest⟩
    refine ⟨hid, _, hcontext, _, hgraph, _, hpolicy, ?_⟩
    cases kickoff
    simp only at hrunId hdigest
    rw [hrunId, hdigest]

end Arguments

/-! ## Replay -/

def textOf? (document : Json.Dict) (name : String) : Option String :=
  (document.get? name).bind Json.asStr?

/-- An object, at any depth, as the mapping that `_thaw` makes of it. -/
def mappingOf? (document : Json.Dict) (name : String) : Option (List (String × PyValue)) :=
  ((document.get? name).bind Json.asObj?).map PyValue.ofJsonItems

def textsOf? (document : Json.Dict) (name : String) : Option (List String) :=
  (document.get? name).bind Json.asStrings?

def boolOf? (document : Json.Dict) (name : String) : Option Bool :=
  match document.get? name with
  | some (.bool b) => some b
  | _ => none

def natOf? (document : Json.Dict) (name : String) : Option ℕ :=
  (document.get? name).bind Json.asNat?

/-- `_package_result_from_document`. -/
def packageResultFromDocument (document : Json.Dict) : Except RunError PackageRunResult := do
  let invalid := RunError.runtime "retained package result is invalid"
  let packageId ← required (textOf? document "package_id") invalid
  let state ← required ((textOf? document "state").bind PackageRunState.ofValue?) invalid
  let output ← required (mappingOf? document "output") invalid
  let evidenceRefs ← required (textsOf? document "evidence_refs") invalid
  let message ← required (textOf? document "message") invalid
  if hnamed : packageId = "" then
    throw (.runtime "package result identity and state must be typed")
  else if hdistinct : evidenceRefs.Nodup then
    return ⟨packageId, state, output, evidenceRefs, message, hnamed, hdistinct⟩
  else throw (.runtime "package evidence references must be unique")

/-- `_convergence_from_document`. -/
def convergenceFromDocument (document : Json.Dict) : Except RunError ConvergenceResult := do
  let invalid := RunError.runtime "retained convergence is invalid"
  let accepted ← required (boolOf? document "accepted") invalid
  let output ← required (mappingOf? document "output") invalid
  let message ← required (textOf? document "message") invalid
  return ⟨accepted, output, message⟩

/-- `_verification_from_document`. -/
def verificationFromDocument (document : Json.Dict) : Except RunError VerificationResult := do
  let invalid := RunError.runtime "retained verification is invalid"
  let passed ← required (boolOf? document "passed") invalid
  let checks ← required (textsOf? document "checks") invalid
  let message ← required (textOf? document "message") invalid
  if hdistinct : checks.Nodup then
    return ⟨passed, checks, message, hdistinct⟩
  else throw (.runtime "terminal verification checks must be unique")

/-- The variables of `_replay`. -/
structure Retained where
  results : Results
  batches : List (List String)
  dispatched : List String
  maxParallelism : ℕ
  convergence : Option ConvergenceResult
  verification : Option VerificationResult
  completion : Option CohortRunStatus

def Retained.empty : Retained := ⟨fun _ ↦ none, [], [], 0, none, none, none⟩

/-- `set(results) == set(by_id)`, where there are no results of other packages. -/
def Retained.Full (graph : OutcomeGraphSpec) (r : Retained) : Prop :=
  ∀ id ∈ graph.ids, r.results id ≠ none

instance (graph : OutcomeGraphSpec) (r : Retained) : Decidable (r.Full graph) :=
  decidable_of_iff (∀ id ∈ graph.ids, (r.results id).isSome = true) <| by
    simp only [Retained.Full, Option.isSome_iff_ne_none]

/-- One of the documents of a repair. -/
def replayRepair (graph : OutcomeGraphSpec) (r : Retained) (document : Json) :
    Except RunError Retained := do
  let members ← required document.asObj? (.runtime "retained repair result is invalid")
  let result ← packageResultFromDocument (.ofMembers members)
  if result.packageId ∉ graph.ids then
    throw (.runtime "retained repair result names an unknown package")
  return { r with results := Function.update r.results result.packageId (some result) }

/-- `_replay`, at a result. -/
def replayResult (graph : OutcomeGraphSpec) (r : Retained) (payload : Json.Dict) :
    Except RunError Retained := do
  let result ← packageResultFromDocument payload
  if result.packageId ∉ graph.ids then
    throw (.runtime "retained result names an unknown package")
  if (r.results result.packageId).isSome then
    throw (.runtime "retained package result is duplicated")
  let source := textOf? payload "source"
  if source = some "executor" ∧ result.packageId ∉ r.dispatched then
    throw (.runtime "retained package result has no dispatch evidence")
  if source ≠ some "executor" ∧ source ≠ some "policy" ∧ source ≠ some "dependency" then
    throw (.runtime "retained package result source is invalid")
  if (source = some "policy" ∧ result.state ≠ .blockedPolicy) ∨
      (source = some "dependency" ∧ result.state ≠ .blockedDependency) then
    throw (.runtime "retained package result source contradicts its state")
  return { r with results := Function.update r.results result.packageId (some result) }

/-- `_replay`, at a dispatch. -/
def replayDispatch (graph : OutcomeGraphSpec) (r : Retained) (payload : Json.Dict) :
    Except RunError Retained := do
  let invalid := RunError.runtime "retained cohort dispatch is invalid"
  let packageIds ← required (textsOf? payload "package_ids") invalid
  let activeCount ← required (natOf? payload "active_count") invalid
  if packageIds = [] ∨ (∃ id ∈ packageIds, id ∉ graph.ids) ∨ activeCount < 1 then
    throw invalid
  return { r with
    batches := r.batches ++ [packageIds]
    dispatched := r.dispatched ++ packageIds
    maxParallelism := max r.maxParallelism activeCount }

/-- One turn of the loop of `_replay`. -/
def replayEvent (graph : OutcomeGraphSpec) (r : Retained) (event : CohortJournalEvent) :
    Except RunError Retained :=
  match event.kind with
  | .kickoff | .terminalEvidence => .ok r
  | .dispatch => replayDispatch graph r event.payload
  | .packageResult => replayResult graph r event.payload
  | .convergence => do
    if ¬r.Full graph then
      throw (.runtime "retained convergence precedes package completion")
    return { r with convergence := some (← convergenceFromDocument event.payload) }
  | .verification => do
    if r.convergence.isNone then
      throw (.runtime "retained verification precedes convergence")
    return { r with verification := some (← verificationFromDocument event.payload) }
  | .runCompleted => do
    if r.verification.isNone then
      throw (.runtime "retained completion precedes verification")
    let status ← required ((textOf? event.payload "status").bind CohortRunStatus.ofValue?)
      (.runtime "retained completion status is invalid")
    return { r with completion := some status }
  | .repairAttempt => .ok { r with convergence := none, verification := none }
  | .repairResult => do
    let invalid := RunError.runtime "retained repair result is invalid"
    match event.payload.get? "package_results" with
    | some (.arr (document :: documents)) =>
      let r ← (document :: documents).foldlM (replayRepair graph) r
      return { r with convergence := none, verification := none }
    | _ => throw invalid

/-- `_replay`. -/
def replay (graph : OutcomeGraphSpec) (retained : List CohortJournalEvent) :
    Except RunError Retained := do
  let r ← retained.tail.foldlM (replayEvent graph) .empty
  if r.completion.isSome ∧ ¬r.Full graph then
    throw (.runtime "retained completed cohort is missing results")
  return r

/-! ## The beginning -/

/-- An execution before its loop: what the loop starts from, and what was retained of its end. -/
structure Beginning where
  state : RunState
  convergence : Option ConvergenceResult
  verification : Option VerificationResult
  completion : Option CohortRunStatus

/-- The variables that the loop starts with. -/
def initialState (graph : OutcomeGraphSpec) (r : Retained) (journal : Option RunJournal) : RunState where
  pending := graph.ids.filter fun id ↦ (r.results id).isNone
  results := r.results
  batches := r.batches
  maxParallelism := r.maxParallelism
  active := []
  activePaths := []
  activeLocks := []
  journal := journal
  executed := []

variable [Hash256]

namespace CohortRun

variable (x : CohortRun)

/-- The kickoff that is retained is the one of this execution. -/
def matchesKickoff (event : CohortJournalEvent) : Except RunError Bool := do
  let retained ← (canonicalBytes (.dict (PyValue.ofJsonItems event.payload.members))).mapError
    .encoding
  let expected ← (canonicalBytes (.dict x.kickoffRecord)).mapError .encoding
  return event.kind = .kickoff ∧ retained = expected

/-- What `execute` does with its journal at first. -/
def reread (resume : Bool) (journal : RunJournal) : Except RunError (Retained × RunJournal) := do
  let (retained, journal) ← journal.read x.kickoff.runId
  match retained with
  | [] =>
    let journal ← journal.append x.kickoff.runId (x.clock journal.files.length)
      ⟨.kickoff, x.kickoffRecord⟩
    return (.empty, journal)
  | first :: _ =>
    if resume = false then
      throw (.runtime "cohort journal already exists and resume was disabled")
    if (← x.matchesKickoff first) = false then
      throw (.runtime "retained cohort kickoff does not match this execution")
    return (← replay x.graph retained, journal)

/-- What `execute` knows when it has looked at its journal, if it has one. -/
def recollect (resume : Bool) : Option RunJournal → Except RunError (Retained × Option RunJournal)
  | none => .ok (.empty, none)
  | some journal => do
    let (retained, journal) ← x.reread resume journal
    return (retained, some journal)

/-- One turn of the loop over the packages that the policy may block. -/
def gate (s : RunState) (p : OutcomeWorkPackage) : Except RunError RunState :=
  let decision := x.policy.checkpoint (x.effectClass p.packageId) .implementation
  if decision.1 = .blocked then do
    let (result, journal) ← x.recordPackageResult s.journal
      (p.refused .blockedPolicy decision.2) "policy"
    return { s with
      results := Function.update s.results p.packageId (some result)
      journal := journal }
  else .ok s

/-- `execute`, from where it looks at the journal to its loop. -/
def start (resume : Bool) (journal : Option RunJournal) : Except RunError Beginning := do
  let (retained, journal) ← x.recollect resume journal
  let s := initialState x.graph retained journal
  let s ← (s.pendingPackages x.graph).foldlM x.gate s
  return { state := { s with pending := s.pending.filter fun id ↦ (s.results id).isNone }
           convergence := retained.convergence
           verification := retained.verification
           completion := retained.completion }

/-! ## The end -/

/-- The result of an execution. -/
def result (s : RunState) (ordered : List PackageRunResult) (convergence : ConvergenceResult)
    (verification : VerificationResult) : CohortRunResult where
  runId := x.kickoff.runId
  status := runStatus ordered convergence verification
  kickoff := x.kickoff
  packageResults := ordered
  convergence := convergence
  verification := verification
  dispatchBatches := s.batches
  maxParallelism := s.maxParallelism

/-- The answer of `execute` to a journal that says that the run was completed. -/
def retainedResult (b : Beginning) (completion : CohortRunStatus) :
    Except RunError CohortRunResult := do
  let convergence ← required b.convergence .assertion
  let verification ← required b.verification .assertion
  let ordered ← b.state.ordered x.graph
  if runStatus ordered convergence verification ≠ completion then
    throw (.runtime "retained cohort completion contradicts replayed results")
  return x.result b.state ordered convergence verification

/-- The convergence of an execution, with its journal after it. -/
def converge (retained : Option ConvergenceResult) (ordered : List PackageRunResult)
    (journal : Option RunJournal) : Except RunError (ConvergenceResult × Option RunJournal) :=
  match retained with
  | some convergence => .ok (convergence, journal)
  | none => do
    let convergence := settleConvergence (x.callbacks.converge x.kickoff ordered)
    match journal with
    | none => return (convergence, none)
    | some _ =>
      let output ← canonicalOutput convergence.output
      let convergence := { convergence with output := output }
      return (convergence, ← x.record journal (convergenceEntry convergence))

/-- The verification of an execution, with its journal after it. -/
def verify (retained : Option VerificationResult) (ordered : List PackageRunResult)
    (convergence : ConvergenceResult) (journal : Option RunJournal) :
    Except RunError (VerificationResult × Option RunJournal) :=
  match retained with
  | some verification => .ok (verification, journal)
  | none => do
    let verification := settleVerification (x.callbacks.verify x.kickoff ordered convergence)
    return (verification, ← x.record journal (verificationEntry verification))

/-- `record_completion`. -/
def recordCompletion (r : CohortRunResult) (journal : Option RunJournal) :
    Except RunError (Option RunJournal) :=
  match journal with
  | none => .ok none
  | some j => do
    let (retained, j) ← j.read r.runId
    if (retained.getLast?.map (·.kind)) = some .runCompleted then
      return some j
    x.record (some j) (completionEntry r)

/-- `execute`, after its loop. -/
def conclude (finalize : Bool) (b : Beginning) (s : RunState) :
    Except RunError (CohortRunResult × Option RunJournal) := do
  let ordered ← s.ordered x.graph
  let (convergence, journal) ← x.converge b.convergence ordered s.journal
  let (verification, journal) ← x.verify b.verification ordered convergence journal
  let r := x.result s ordered convergence verification
  if finalize then
    return (r, ← x.recordCompletion r journal)
  return (r, journal)

/-- `execute`, from where it looks at the journal. There is no answer as long as its loop waits for
packages that the signals do not bring. -/
def execute (resume finalize : Bool) (journal : Option RunJournal) (signals : List Signal) :
    Except RunError (Option (CohortRunResult × Option RunJournal)) := do
  let b ← x.start resume journal
  match b.completion with
  | some completion => return some (← x.retainedResult b completion, b.state.journal)
  | none =>
    let m := x.run b.state signals
    match m.position with
    | .finished => return some (← x.conclude finalize b m.state)
    | .raised e => throw e
    | _ => return none

end CohortRun

end HiveMind.Cohort
