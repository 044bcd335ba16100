import HiveMind.Cohort.Journal

/-!
# The cohort runtime

A run goes round a loop. A pass first blocks the packages with a dependency that has not succeeded,
then hands the packages whose dependencies all have to the executor, as long as there is room and
none of the running ones has a path or a lock in common with them. After a pass the runtime waits
for at least one of the running packages, and records the results of those that have come to an end.
When nothing is left, all results converge and the outcome is verified.

Which packages come to an end, and in what order, is not for the runtime to say. A run is therefore
followed along a list of `Signal`s: that the runtime goes on, or that a package has come to an end.

The packages that a pass blocks are found before any of them is blocked. A package that only depends
on one of these is left for the next pass, and if nothing runs there is none.
-/

open Raise

namespace HiveMind.Cohort

/-! ## Runs -/

structure CohortKickoff where
  runId : String
  graphDigest : String
  policyDigest : String
  contextDigest : String
  context : Json.Dict
  deriving DecidableEq

/-- The callbacks of a run. The executor is given the results of the dependencies of its package. -/
structure Callbacks where
  executePackage : OutcomeWorkPackage → CohortKickoff → List (String × PackageRunResult) →
    Answer PackageRunResult
  converge : CohortKickoff → List PackageRunResult → Answer ConvergenceResult
  verify : CohortKickoff → List PackageRunResult → ConvergenceResult → Answer VerificationResult

/-- A run whose arguments have been checked. The clock gives the text of the time at which an event
with some number is appended. -/
structure CohortRun where
  graph : OutcomeGraphSpec
  compiled : Compiled graph
  policy : CohortExecutionPolicy
  kickoff : CohortKickoff
  effectClasses : List (String × EffectClass)
  classified : (effectClasses.map Prod.fst).Nodup
  callbacks : Callbacks
  clock : ℕ → String
  dated : ∀ n, clock n ≠ ""

abbrev Results := String → Option PackageRunResult

namespace Results

def succeeded (results : Results) (id : String) : Bool :=
  match results id with
  | some r => r.state = .succeeded
  | none => false

/-- There is a result, and it is another one than success. -/
def failed (results : Results) (id : String) : Bool :=
  match results id with
  | some r => r.state ≠ .succeeded
  | none => false

end Results

/-- A package that was handed to the executor, with what the executor will answer. -/
structure Future where
  package : OutcomeWorkPackage
  answer : Answer PackageRunResult

/-- The variables of `execute`. `executed` is not one of them: it is the packages that the executor
was called with, in order. -/
structure RunState where
  pending : List String
  results : Results
  batches : List (List String)
  maxParallelism : ℕ
  active : List Future
  activePaths : List String
  activeLocks : List String
  journal : Option RunJournal
  executed : List String

def sorted (names : List String) : List String := names.insertionSort (· ≤ ·)

namespace RunState

def activeIds (s : RunState) : List String := s.active.map (·.package.packageId)

/-- `[by_id[package_id] for package_id in sorted(pending)]`. -/
def pendingPackages (graph : OutcomeGraphSpec) (s : RunState) : List OutcomeWorkPackage :=
  (sorted s.pending).filterMap graph.package?

/-- `blocked`. -/
def blocked (graph : OutcomeGraphSpec) (s : RunState) : List OutcomeWorkPackage :=
  (s.pendingPackages graph).filter fun p ↦ p.dependencies.any s.results.failed

/-- `ready`. -/
def ready (graph : OutcomeGraphSpec) (s : RunState) : List OutcomeWorkPackage :=
  (s.pendingPackages graph).filter fun p ↦ p.dependencies.all s.results.succeeded

/-- A running package has a path or a lock in common with the package. -/
def Conflicts (s : RunState) (p : OutcomeWorkPackage) : Prop :=
  (∃ path ∈ s.activePaths, path ∈ p.allowedPaths) ∨ ∃ lock ∈ s.activeLocks, lock ∈ p.semanticLocks

instance (s : RunState) (p : OutcomeWorkPackage) : Decidable (s.Conflicts p) :=
  inferInstanceAs (Decidable (_ ∨ _))

/-- `dependency_results`. -/
def dependencyResults (s : RunState) (p : OutcomeWorkPackage) : List (String × PackageRunResult) :=
  p.dependencies.filterMap fun d ↦ (s.results d).map (d, ·)

/-- The results in the order of the graph. -/
def ordered (graph : OutcomeGraphSpec) (s : RunState) : Except RunError (List PackageRunResult) :=
  graph.packages.mapM fun p ↦ required (s.results p.packageId) (.keyError p.packageId)

end RunState

namespace CohortRun

variable (x : CohortRun)

/-- `maximum_workers`. -/
def maximumWorkers : ℕ := (min x.graph.maximumConcurrent x.policy.maxParallelPackages).toNat

/-- `classifications.get(package_id, EffectClass.ROUTINE_REVERSIBLE)`. -/
def effectClass (id : String) : EffectClass :=
  (x.effectClasses.lookup id).getD .routineReversible

/-- `kickoff_record`. -/
def kickoffRecord : List (String × PyValue) :=
  [("graph_digest", .str x.kickoff.graphDigest), ("policy_digest", .str x.kickoff.policyDigest),
    ("context_digest", .str x.kickoff.contextDigest),
    ("context", .dict (PyValue.ofJsonItems x.kickoff.context.members)),
    ("effect_classes", .dict (x.effectClasses.map fun c ↦ (c.1, .str c.2.value)))]

end CohortRun

/-! ## Entries -/

/-- The event of `_record_package_result`. -/
def resultEntry (r : PackageRunResult) (source : String) : Entry where
  kind := .packageResult
  payload := [("package_id", .str r.packageId), ("state", .str r.state.value),
    ("output", .dict r.output), ("evidence_refs", .list (r.evidenceRefs.map .str)),
    ("message", .str r.message), ("source", .str source)]

def dispatchEntry (batchIndex : ℕ) (launched : List String) (activeCount : ℕ) : Entry where
  kind := .dispatch
  payload := [("batch_index", .int batchIndex), ("package_ids", .list (launched.map .str)),
    ("active_count", .int activeCount)]

/-- The event with `_convergence_document`. -/
def convergenceEntry (r : ConvergenceResult) : Entry where
  kind := .convergence
  payload := [("accepted", .bool r.accepted), ("output", .dict r.output), ("message", .str r.message)]

/-- The event with `_verification_document`. -/
def verificationEntry (r : VerificationResult) : Entry where
  kind := .verification
  payload := [("passed", .bool r.passed), ("checks", .list (r.checks.map .str)),
    ("message", .str r.message)]

structure CohortRunResult where
  runId : String
  status : CohortRunStatus
  kickoff : CohortKickoff
  packageResults : List PackageRunResult
  convergence : ConvergenceResult
  verification : VerificationResult
  dispatchBatches : List (List String)
  maxParallelism : ℕ

def completionEntry (r : CohortRunResult) : Entry where
  kind := .runCompleted
  payload := [("status", .str r.status.value), ("package_count", .int r.packageResults.length),
    ("dispatch_batch_count", .int r.dispatchBatches.length),
    ("max_parallelism", .int r.maxParallelism)]

variable [Hash256]

namespace CohortRun

variable (x : CohortRun)

/-- An append, if there is a journal. -/
def record (journal : Option RunJournal) (entry : Entry) : Except RunError (Option RunJournal) :=
  match journal with
  | none => .ok none
  | some j => (j.append x.kickoff.runId (x.clock j.files.length) entry).map some

/-- `_record_package_result`. -/
def recordPackageResult (journal : Option RunJournal) (result : PackageRunResult)
    (source : String) : Except RunError (PackageRunResult × Option RunJournal) :=
  match journal with
  | none => .ok (result, none)
  | some _ => do
    let output ← canonicalOutput result.output
    let normalized := { result with output := output }
    let journal ← x.record journal (resultEntry normalized source)
    return (normalized, journal)

/-! ## A pass -/

/-- One turn of the loop over the blocked packages. -/
def block (s : RunState) (p : OutcomeWorkPackage) : Except RunError RunState :=
  match p.dependencies.find? s.results.failed with
  | none => .ok s
  | some dependency => do
    let (result, journal) ← x.recordPackageResult s.journal
      (p.refused .blockedDependency ("dependency " ++ dependency ++ " did not succeed")) "dependency"
    return { s with
      results := Function.update s.results p.packageId (some result)
      pending := s.pending.erase p.packageId
      journal := journal }

/-- A ready package is handed to the executor. -/
def launch (s : RunState) (p : OutcomeWorkPackage) : RunState :=
  { s with
    active := s.active ++
      [⟨p, x.callbacks.executePackage p x.kickoff (s.dependencyResults p)⟩]
    activePaths := s.activePaths ++ p.allowedPaths
    activeLocks := s.activeLocks ++ p.semanticLocks
    pending := s.pending.erase p.packageId
    executed := s.executed ++ [p.packageId] }

/-- The loop over the ready packages: the state after it, and `launched`. -/
def launchAll : List OutcomeWorkPackage → ℕ → RunState → RunState × List String
  | [], _, s | _ :: _, 0, s => (s, [])
  | p :: ready, capacity + 1, s =>
    if s.Conflicts p then launchAll ready (capacity + 1) s
    else
      let (s', launched) := launchAll ready capacity (x.launch s p)
      (s', p.packageId :: launched)

/-- What is done with `launched`. -/
def dispatch (s : RunState) (launched : List String) : Except RunError RunState :=
  if launched = [] then .ok s
  else do
    let batches := s.batches ++ [launched]
    let journal ← x.record s.journal (dispatchEntry batches.length launched s.active.length)
    return { s with
      batches := batches
      maxParallelism := max s.maxParallelism s.active.length
      journal := journal }

/-- One turn of the loop over the completed packages. -/
def complete (s : RunState) (f : Future) : Except RunError RunState := do
  let (result, journal) ← x.recordPackageResult s.journal (f.package.settle f.answer) "executor"
  return { s with
    active := s.active.eraseP (·.package.packageId = f.package.packageId)
    activePaths := s.activePaths.filter (· ∉ f.package.allowedPaths)
    activeLocks := s.activeLocks.filter (· ∉ f.package.semanticLocks)
    results := Function.update s.results f.package.packageId (some result)
    journal := journal }

/-! ## The loop -/

end CohortRun

/-- Where a run is in its loop. -/
inductive Position where
  | scheduling
  | launched (ids : List String)
  | waiting
  | draining
  | finished
  | raised (error : RunError)
  deriving DecidableEq

inductive Signal where
  | tick
  | completes (id : String)
  deriving DecidableEq

structure Machine where
  state : RunState
  position : Position

def noProgress : RunError := .runtime "cohort cannot make dependency or resource progress"

/-- Where the loop goes on after the dispatch. -/
def goOn (s : RunState) : Machine where
  state := s
  position :=
    if s.active ≠ [] then .waiting
    else if s.pending ≠ [] then .raised noProgress
    else .finished

namespace CohortRun

variable (x : CohortRun)

/-- The loop from its head to the dispatch, in a state where there is something left. -/
def pass (s : RunState) : Machine :=
  if s.pending = [] ∧ s.active = [] then ⟨s, .finished⟩
  else
    match (s.blocked x.graph).foldlM x.block s with
    | .error e => ⟨s, .raised e⟩
    | .ok s' =>
      let after := x.launchAll (s'.ready x.graph) (x.maximumWorkers - s'.active.length) s'
      ⟨after.1, .launched after.2⟩

/-- The loop from the dispatch to the waiting. -/
def await (s : RunState) (launched : List String) : Machine :=
  match x.dispatch s launched with
  | .error e => ⟨s, .raised e⟩
  | .ok s' => goOn s'

/-- The loop where it has waited for a package. -/
def drain (m : Machine) (id : String) : Machine :=
  match m.state.active.find? (·.package.packageId = id) with
  | none => m
  | some f =>
    match x.complete m.state f with
    | .error e => { m with position := .raised e }
    | .ok s => ⟨s, .draining⟩

/-- What a run does at a signal. A signal that it does not wait for leaves it where it is. -/
def advance (m : Machine) (signal : Signal) : Machine :=
  match m.position, signal with
  | .scheduling, .tick => x.pass m.state
  | .launched ids, .tick => x.await m.state ids
  | .waiting, .completes id | .draining, .completes id => x.drain m id
  | .draining, .tick => ⟨m.state, .scheduling⟩
  | _, _ => m

/-- The run after a list of signals. -/
def run (s : RunState) (signals : List Signal) : Machine := signals.foldl x.advance ⟨s, .scheduling⟩

end CohortRun

end HiveMind.Cohort
