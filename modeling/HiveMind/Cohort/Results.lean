import HiveMind.Cohort.Graph
import HiveMind.Kernel.Values

/-!
# The results of a cohort

What the callbacks of a cohort may answer, and what is kept of an answer. A package has one of four
results; the two that say that it is blocked do not come from a callback. A journal keeps the output
of a result as it is read back from its canonical text, which need not be what the callback has
returned.
-/

open Raise

namespace HiveMind.Cohort

/-- What a caller of the cohort runtime can be told. -/
inductive RunError where
  | graph (error : GraphError)
  | runtime (message : String)
  | journal (message : String)
  | encoding (error : Exc)
  | keyError (key : String)
  | assertion
  deriving DecidableEq

/-! ## The policy -/

inductive CohortPhase where
  | implementation
  | convergence
  | closeout
  deriving DecidableEq

inductive EffectClass where
  | routineReversible
  | secretAccess
  | destructive
  | irreversible
  | missingAuthority
  | spending
  | deployment
  | protectedMerge
  deriving DecidableEq

def EffectClass.value : EffectClass → String
  | routineReversible => "routine_reversible"
  | secretAccess => "secret_access"
  | destructive => "destructive"
  | irreversible => "irreversible"
  | missingAuthority => "missing_authority"
  | spending => "spending"
  | deployment => "deployment"
  | protectedMerge => "protected_merge"

/-- `HARD_GATE_EFFECTS`. -/
def EffectClass.hardGate : EffectClass → Bool
  | routineReversible => false
  | _ => true

inductive CheckpointDisposition where
  | deferToCohortEnd
  | requireNow
  | blocked
  deriving DecidableEq

/-- `CohortExecutionPolicy`, in the only mode that the runtime takes. -/
structure CohortExecutionPolicy where
  maxParallelPackages : Int
  positive : 1 ≤ maxParallelPackages
  deriving DecidableEq

/-- `checkpoint`, where there is authority: the disposition and the reason. -/
def CohortExecutionPolicy.checkpoint (_ : CohortExecutionPolicy) (effect : EffectClass)
    (phase : CohortPhase) : CheckpointDisposition × String :=
  if effect.hardGate then
    (.blocked, effect.value ++ " requires an immediate fail-closed gate")
  else if phase = .implementation then
    (.deferToCohortEnd, "routine reversible assurance is batched at cohort convergence")
  else (.requireNow, "routine assurance is required at this checkpoint")

/-! ## Results -/

inductive PackageRunState where
  | succeeded
  | failed
  | blockedDependency
  | blockedPolicy
  deriving DecidableEq

def PackageRunState.value : PackageRunState → String
  | succeeded => "succeeded"
  | failed => "failed"
  | blockedDependency => "blocked_dependency"
  | blockedPolicy => "blocked_policy"

/-- `PackageRunState(value)`. -/
def PackageRunState.ofValue? : String → Option PackageRunState
  | "succeeded" => some succeeded
  | "failed" => some failed
  | "blocked_dependency" => some blockedDependency
  | "blocked_policy" => some blockedPolicy
  | _ => none

inductive CohortRunStatus where
  | succeeded
  | failed
  | blocked
  deriving DecidableEq

def CohortRunStatus.value : CohortRunStatus → String
  | succeeded => "succeeded"
  | failed => "failed"
  | blocked => "blocked"

/-- `CohortRunStatus(value)`. -/
def CohortRunStatus.ofValue? : String → Option CohortRunStatus
  | "succeeded" => some succeeded
  | "failed" => some failed
  | "blocked" => some blocked
  | _ => none

/-- `PackageRunResult`. The output is a mapping, given by its items. -/
structure PackageRunResult where
  packageId : String
  state : PackageRunState
  output : List (String × PyValue)
  evidenceRefs : List String
  message : String
  named : packageId ≠ ""
  distinct : evidenceRefs.Nodup

structure ConvergenceResult where
  accepted : Bool
  output : List (String × PyValue)
  message : String

/-- `VerificationResult`. -/
structure VerificationResult where
  passed : Bool
  checks : List String
  message : String
  distinct : checks.Nodup

/-- What a callback does: it returns a result, returns something else, or raises an error of a
class, with a message. -/
inductive Answer (α : Type) where
  | returned (result : α)
  | untyped
  | raised (className message : String)

theorem OutcomeWorkPackage.named (p : OutcomeWorkPackage) : p.packageId ≠ "" := by
  intro hempty
  have hvalid := p.valid
  rw [PackageFields.problem?, if_pos (.inl hempty)] at hvalid
  exact absurd hvalid (by simp)

/-- A result that the runtime gives a package itself. -/
def OutcomeWorkPackage.refused (p : OutcomeWorkPackage) (state : PackageRunState)
    (message : String) : PackageRunResult :=
  ⟨p.packageId, state, [], [], message, p.named, List.nodup_nil⟩

/-- The result of a package from the answer of its executor. -/
def OutcomeWorkPackage.settle (p : OutcomeWorkPackage) : Answer PackageRunResult → PackageRunResult
  | .returned result =>
    if result.packageId = p.packageId then result
    else p.refused .failed "CohortRuntimeError: package executor returned a cross-package result"
  | .untyped =>
    p.refused .failed "CohortRuntimeError: package executor returned an untyped result"
  | .raised className message => p.refused .failed (className ++ ": " ++ message)

/-- The convergence from the answer of the converger. -/
def settleConvergence : Answer ConvergenceResult → ConvergenceResult
  | .returned result => result
  | .untyped => ⟨false, [], "CohortRuntimeError: converger returned an untyped result"⟩
  | .raised className message => ⟨false, [], className ++ ": " ++ message⟩

/-- The verification from the answer of the terminal verifier. -/
def settleVerification : Answer VerificationResult → VerificationResult
  | .returned result => result
  | .untyped =>
    ⟨false, [], "CohortRuntimeError: terminal verifier returned an untyped result", List.nodup_nil⟩
  | .raised className message => ⟨false, [], className ++ ": " ++ message, List.nodup_nil⟩

theorem OutcomeWorkPackage.packageId_settle (p : OutcomeWorkPackage)
    (answer : Answer PackageRunResult) : (p.settle answer).packageId = p.packageId := by
  cases answer with
  | returned result =>
    rw [settle]
    split
    · assumption
    · rfl
  | untyped | raised => rfl

/-! ## Outputs -/

/-- `_canonical_output`. -/
def canonicalOutput (value : List (String × PyValue)) : Except RunError (List (String × PyValue)) :=
  match PyValue.reread value with
  | .error _ => .error (.runtime "cohort output must be canonical JSON")
  | .ok document => .ok (PyValue.ofJsonItems document.members)

/-- The output has a canonical text. -/
def Encodable (value : List (String × PyValue)) : Prop := (PyValue.reread value).toOption ≠ none

instance (value : List (String × PyValue)) : Decidable (Encodable value) :=
  decidable_of_iff ((PyValue.reread value).toOption.isSome = true) Option.isSome_iff_ne_none

theorem encodable_iff {value : List (String × PyValue)} :
    Encodable value ↔ ∃ document, PyValue.reread value = .ok document := by
  rw [Encodable]
  cases PyValue.reread value with
  | error e => exact ⟨fun h ↦ absurd rfl h, fun ⟨_, h⟩ ↦ nomatch h⟩
  | ok document => exact ⟨fun _ ↦ ⟨document, rfl⟩, fun _ h ↦ (nomatch h)⟩

/-- The output as a journal keeps it; one that a journal cannot keep is left as it is. -/
def normalize (value : List (String × PyValue)) : List (String × PyValue) :=
  match PyValue.reread value with
  | .error _ => value
  | .ok document => PyValue.ofJsonItems document.members

theorem canonicalOutput_eq_ok {value value' : List (String × PyValue)} :
    canonicalOutput value = .ok value' ↔ Encodable value ∧ value' = normalize value := by
  rw [canonicalOutput, encodable_iff, normalize]
  cases PyValue.reread value with
  | error e => exact ⟨fun h ↦ (nomatch h), fun ⟨⟨_, h⟩, _⟩ ↦ nomatch h⟩
  | ok document =>
    constructor
    · exact fun h ↦ ⟨⟨document, rfl⟩, (Except.ok.inj h).symm⟩
    · rintro ⟨-, rfl⟩
      rfl

theorem canonicalOutput_eq_error {value : List (String × PyValue)} (h : ¬Encodable value) :
    canonicalOutput value = .error (.runtime "cohort output must be canonical JSON") := by
  rw [encodable_iff] at h
  rw [canonicalOutput]
  cases hreread : PyValue.reread value with
  | error e => rfl
  | ok document => exact absurd ⟨document, hreread⟩ h

theorem encodable_nil : Encodable [] := fun h ↦ nomatch h

/-- What a journal has kept is kept as it is. -/
theorem reread_normalize {value : List (String × PyValue)} {document : Json.Dict}
    (h : PyValue.reread value = .ok document) : PyValue.reread (normalize value) = .ok document := by
  rw [normalize, h]
  exact PyValue.reread_ofJsonItems h

def PackageRunResult.normalized (r : PackageRunResult) : PackageRunResult :=
  { r with output := normalize r.output }

def ConvergenceResult.normalized (r : ConvergenceResult) : ConvergenceResult :=
  { r with output := normalize r.output }

@[simp] theorem PackageRunResult.state_normalized (r : PackageRunResult) :
    r.normalized.state = r.state := rfl

@[simp] theorem PackageRunResult.packageId_normalized (r : PackageRunResult) :
    r.normalized.packageId = r.packageId := rfl

/-! ## The status of a run -/

/-- `_status`. -/
def runStatus (ordered : List PackageRunResult) (convergence : ConvergenceResult)
    (verification : VerificationResult) : CohortRunStatus :=
  if (∃ r ∈ ordered, r.state = .failed) ∨ convergence.accepted = false ∨
      verification.passed = false then .failed
  else if ∃ r ∈ ordered, r.state = .blockedDependency ∨ r.state = .blockedPolicy then .blocked
  else .succeeded

/-- The status depends on the states, the acceptance and the verification only. -/
theorem runStatus_congr {ordered ordered' : List PackageRunResult}
    {convergence convergence' : ConvergenceResult} {verification verification' : VerificationResult}
    (hstates : ordered'.map (·.state) = ordered.map (·.state))
    (haccepted : convergence'.accepted = convergence.accepted)
    (hpassed : verification'.passed = verification.passed) :
    runStatus ordered' convergence' verification' = runStatus ordered convergence verification := by
  have hexists : ∀ P : PackageRunState → Prop,
      (∃ r ∈ ordered', P r.state) ↔ ∃ r ∈ ordered, P r.state := by
    intro P
    have hmap : ∀ rs : List PackageRunResult,
        (∃ r ∈ rs, P r.state) ↔ ∃ state ∈ rs.map (·.state), P state := fun rs ↦ by simp
    rw [hmap, hmap, hstates]
  simp only [runStatus, haccepted, hpassed, hexists (· = .failed),
    hexists fun state ↦ state = .blockedDependency ∨ state = .blockedPolicy]

end HiveMind.Cohort
