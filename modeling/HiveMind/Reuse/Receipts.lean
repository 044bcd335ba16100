import HiveMind.Runtime.Contracts

/-!
# Task fingerprints and receipts

A fingerprint holds everything that must be the same for the result of a task to be used again. A
receipt says how far the work on a task has come, and for the states that claim a result the receipt
carries the evidence: a candidate, its validation, and the target it was integrated into. Both are
structures that carry the checks of their constructors.

* **`TaskReceipt.fromDocument_toDict`**: a receipt is read back from its document.
-/

open HiveMind.Runtime

namespace HiveMind.Reuse

/-- `TaskReuseError`. -/
structure TaskReuseError where
  message : String
  deriving DecidableEq, Repr

/-! ## States -/

/-- `TaskRecordState`. -/
inductive TaskState where
  | active
  | checkpointed
  | candidateSealed
  | verified
  | integrated
  | failed
  | blocked
  | cancelled
  deriving DecidableEq, Repr

namespace TaskState

def value : TaskState → String
  | active => "ACTIVE"
  | checkpointed => "CHECKPOINTED"
  | candidateSealed => "CANDIDATE_SEALED"
  | verified => "VERIFIED"
  | integrated => "INTEGRATED"
  | failed => "FAILED"
  | blocked => "BLOCKED"
  | cancelled => "CANCELLED"

def all : List TaskState :=
  [active, checkpointed, candidateSealed, verified, integrated, failed, blocked, cancelled]

def ofValue (text : String) : Option TaskState := all.find? (·.value == text)

theorem ofValue_value (state : TaskState) : ofValue state.value = some state := by
  cases state <;> decide

/-- `_STATE_RANK.get(state, 0)`. -/
def rank : TaskState → Nat
  | active => 1
  | checkpointed => 2
  | candidateSealed => 3
  | verified => 4
  | integrated => 5
  | _ => 0

/-- `_TERMINAL_TASK_STATES`. -/
def isTerminal : TaskState → Bool
  | integrated | failed | blocked | cancelled => true
  | _ => false

/-- `_valid_state_successor`. -/
def validSuccessor (previous current : TaskState) : Bool :=
  if previous.isTerminal then current == previous
  else if current == failed || current == blocked || current == cancelled then true
  else previous.rank ≤ current.rank

end TaskState

/-! ## Fingerprints -/

structure FingerprintFields where
  planDigest : String
  nodeId : String
  subjectId : String
  subjectSnapshotDigest : String
  relevantSurfaceDigest : String
  directDependencyReceiptDigests : List String
  authorityDigest : String
  compilerDigest : String
  policyDigest : String
  environmentDigest : String
  taskContractDigest : String
  deriving DecidableEq

/-- The checks of `TaskFingerprint.__post_init__`. -/
def FingerprintFields.isValid (f : FingerprintFields) : Bool :=
  isRequired f.nodeId && isRequired f.subjectId &&
    [f.planDigest, f.subjectSnapshotDigest, f.relevantSurfaceDigest, f.authorityDigest,
      f.compilerDigest, f.policyDigest, f.environmentDigest, f.taskContractDigest].all isDigest &&
    f.directDependencyReceiptDigests.all isDigest &&
    decide f.directDependencyReceiptDigests.Nodup

/-- `TaskFingerprint`. -/
structure TaskFingerprint extends FingerprintFields where
  valid : toFingerprintFields.isValid = true
  deriving DecidableEq

namespace TaskFingerprint

/-- `to_document`. -/
def toDict (f : TaskFingerprint) : Json.Dict where
  members := [("authority_digest", .str f.authorityDigest),
    ("compiler_digest", .str f.compilerDigest),
    ("direct_dependency_receipt_digests",
      .arr (f.directDependencyReceiptDigests.map .str)),
    ("environment_digest", .str f.environmentDigest),
    ("node_id", .str f.nodeId),
    ("plan_digest", .str f.planDigest),
    ("policy_digest", .str f.policyDigest),
    ("relevant_surface_digest", .str f.relevantSurfaceDigest),
    ("schema_version", .int 1),
    ("subject_id", .str f.subjectId),
    ("subject_snapshot_digest", .str f.subjectSnapshotDigest),
    ("task_contract_digest", .str f.taskContractDigest)]
  ordered := by simp only [List.map_cons, List.map_nil]; decide

def toJson (f : TaskFingerprint) : Json := f.toDict.toJson

def fieldNames : List String :=
  ["authority_digest", "compiler_digest", "direct_dependency_receipt_digests",
    "environment_digest", "node_id", "plan_digest", "policy_digest", "relevant_surface_digest",
    "schema_version", "subject_id", "subject_snapshot_digest", "task_contract_digest"]

/-- The fields of a document, if they are texts. -/
def fieldsOf (d : Json.Dict) (dependencies : List String) : Option FingerprintFields := do
  return ⟨← textOf d "plan_digest", ← textOf d "node_id", ← textOf d "subject_id",
    ← textOf d "subject_snapshot_digest", ← textOf d "relevant_surface_digest", dependencies,
    ← textOf d "authority_digest", ← textOf d "compiler_digest", ← textOf d "policy_digest",
    ← textOf d "environment_digest", ← textOf d "task_contract_digest"⟩

/-- `from_document`. -/
def fromDocument (d : Json.Dict) : Except TaskReuseError TaskFingerprint :=
  match (d.get? "direct_dependency_receipt_digests").bind Json.asStrings? with
  | none => .error ⟨"task fingerprint has an unknown shape"⟩
  | some dependencies =>
    if d.names ≠ fieldNames ∨ d.get? "schema_version" ≠ some (.int 1) then
      .error ⟨"task fingerprint has an unknown shape"⟩
    else
      match fieldsOf d dependencies with
      | none => .error ⟨"task fingerprint is invalid"⟩
      | some fields =>
        if h : fields.isValid = true then .ok ⟨fields, h⟩
        else .error ⟨"task fingerprint is invalid"⟩

theorem sorted_toJson (f : TaskFingerprint) : f.toJson.Sorted := by
  refine ⟨f.toDict.ordered, trivial, trivial, ?_, trivial, trivial, trivial, trivial, trivial,
    trivial, trivial, trivial, trivial, trivial⟩
  refine Json.sortedList_iff.mpr fun x hx ↦ ?_
  obtain ⟨text, -, rfl⟩ := List.mem_map.mp hx
  trivial

theorem fromDocument_toDict (f : TaskFingerprint) : fromDocument f.toDict = .ok f := by
  have hdependencies : (f.toDict.get? "direct_dependency_receipt_digests").bind Json.asStrings? =
      some f.directDependencyReceiptDigests := Json.asStrings?_eq_some.mpr rfl
  have hfields : fieldsOf f.toDict f.directDependencyReceiptDigests =
      some f.toFingerprintFields := rfl
  have hshape : ¬(f.toDict.names ≠ fieldNames ∨
      f.toDict.get? "schema_version" ≠ some (.int 1)) := by
    rintro (h | h)
    · exact h rfl
    · exact h rfl
  simp only [fromDocument, hdependencies, if_neg hshape, hfields, dif_pos f.valid]

theorem jsonDepth_toJson_le (f : TaskFingerprint) : jsonDepth f.toJson ≤ 3 := by
  have hlist : depthOfList (f.directDependencyReceiptDigests.map .str) ≤ 1 := by
    induction f.directDependencyReceiptDigests with
    | nil => exact Nat.zero_le 1
    | cons text texts ih =>
      rw [List.map_cons, depthOfList]
      exact max_le le_rfl ih
  simp only [toJson, Json.Dict.toJson, toDict, jsonDepth, depthOfMembers]
  omega

end TaskFingerprint

/-! ## Receipts -/

structure ReceiptFields where
  receiptId : String
  fingerprint : TaskFingerprint
  state : TaskState
  sequence : Int
  candidate : Option CandidateIdentity
  validationReceiptDigest : Option String
  integratedTarget : Option CandidateIdentity
  blockerDigest : Option String
  previousReceiptDigest : Option String
  deriving DecidableEq

/-- The checks of `TaskReceipt.__post_init__`. -/
def ReceiptFields.isValid (r : ReceiptFields) : Bool :=
  isRequired r.receiptId && decide (1 ≤ r.sequence) &&
    [r.validationReceiptDigest, r.blockerDigest, r.previousReceiptDigest].all (·.all isDigest) &&
    (match r.state with
      | .candidateSealed => r.candidate.isSome
      | .verified => r.candidate.isSome && r.validationReceiptDigest.isSome
      | .integrated =>
        r.candidate.isSome && r.validationReceiptDigest.isSome && r.integratedTarget.isSome
      | .blocked | .failed => r.blockerDigest.isSome
      | _ => true) &&
    r.candidate.all (·.subjectId == r.fingerprint.subjectId) &&
    r.integratedTarget.all (·.subjectId == r.fingerprint.subjectId)

/-- `TaskReceipt`. -/
structure TaskReceipt extends ReceiptFields where
  valid : toReceiptFields.isValid = true
  deriving DecidableEq

section Digests

variable [Hash256]

namespace TaskFingerprint

/-- `digest`. -/
def digest (f : TaskFingerprint) : String := jsonDigest f.toJson

end TaskFingerprint

namespace TaskReceipt

/-- `to_document`. -/
def toDict (r : TaskReceipt) : Json.Dict where
  members := [("blocker_digest", Runtime.optionalText r.blockerDigest),
    ("candidate", optionalCandidate r.candidate),
    ("fingerprint", r.fingerprint.toJson),
    ("fingerprint_digest", .str r.fingerprint.digest),
    ("integrated_target", optionalCandidate r.integratedTarget),
    ("previous_receipt_digest", Runtime.optionalText r.previousReceiptDigest),
    ("receipt_id", .str r.receiptId),
    ("schema_version", .int 1),
    ("sequence", .int r.sequence),
    ("state", .str r.state.value),
    ("validation_receipt_digest", Runtime.optionalText r.validationReceiptDigest)]
  ordered := by simp only [List.map_cons, List.map_nil]; decide

def toJson (r : TaskReceipt) : Json := r.toDict.toJson

/-- `digest`. -/
def digest (r : TaskReceipt) : String := jsonDigest r.toJson

/-- `canonical_bytes(receipt.to_document())`. -/
def encoded (r : TaskReceipt) : String := r.toJson.dumps

def fieldNames : List String :=
  ["blocker_digest", "candidate", "fingerprint", "fingerprint_digest", "integrated_target",
    "previous_receipt_digest", "receipt_id", "schema_version", "sequence", "state",
    "validation_receipt_digest"]

/-- The fields of a document, if they have the types they should have. -/
def fieldsOf (d : Json.Dict) (fingerprint : TaskFingerprint)
    (candidate integratedTarget : Option CandidateIdentity) : Option ReceiptFields := do
  let receiptId ← textOf d "receipt_id"
  let state ← (textOf d "state").bind TaskState.ofValue
  let sequence ← match d.get? "sequence" with
    | some (.int n) => some n
    | _ => none
  return ⟨receiptId, fingerprint, state, sequence, candidate,
    ← optionalTextOf d "validation_receipt_digest", integratedTarget,
    ← optionalTextOf d "blocker_digest", ← optionalTextOf d "previous_receipt_digest"⟩

/-- `from_document`. -/
def fromDocument (d : Json.Dict) : Except TaskReuseError TaskReceipt :=
  if d.names ≠ fieldNames ∨ d.get? "schema_version" ≠ some (.int 1) then
    .error ⟨"task receipt has an unknown shape"⟩
  else
    match d.get? "fingerprint" with
    | some (.obj ms) =>
      if isObjectOrNull (d.get? "candidate") = false then
        .error ⟨"task receipt candidate is malformed"⟩
      else if isObjectOrNull (d.get? "integrated_target") = false then
        .error ⟨"task receipt target is malformed"⟩
      else
        match TaskFingerprint.fromDocument (.ofMembers ms) with
        | .error e => .error e
        | .ok fingerprint =>
          if d.get? "fingerprint_digest" ≠ some (.str fingerprint.digest) then
            .error ⟨"task receipt fingerprint digest is invalid"⟩
          else
            match optionalCandidateOf (d.get? "candidate"),
              optionalCandidateOf (d.get? "integrated_target") with
            | .ok candidate, .ok integratedTarget =>
              match fieldsOf d fingerprint candidate integratedTarget with
              | none => .error ⟨"task receipt is invalid"⟩
              | some fields =>
                if h : fields.isValid = true then .ok ⟨fields, h⟩
                else .error ⟨"task receipt is invalid"⟩
            | _, _ => .error ⟨"task receipt is invalid"⟩
    | _ => .error ⟨"task receipt fingerprint is malformed"⟩

theorem sorted_toJson (r : TaskReceipt) : r.toJson.Sorted :=
  ⟨r.toDict.ordered, sorted_optionalText _, sorted_optionalCandidate _,
    r.fingerprint.sorted_toJson, trivial, sorted_optionalCandidate _, sorted_optionalText _,
    trivial, trivial, trivial, trivial, sorted_optionalText _, trivial⟩

theorem jsonDepth_toJson_le (r : TaskReceipt) : jsonDepth r.toJson ≤ maximumJsonDepth := by
  have hfingerprint := r.fingerprint.jsonDepth_toJson_le
  have hcandidate := jsonDepth_optionalCandidate_le r.candidate
  have htarget := jsonDepth_optionalCandidate_le r.integratedTarget
  simp only [toJson, Json.Dict.toJson, toDict, jsonDepth, depthOfMembers, jsonDepth_optionalText,
    maximumJsonDepth]
  omega

theorem fieldsOf_toDict (r : TaskReceipt) :
    fieldsOf r.toDict r.fingerprint r.candidate r.integratedTarget = some r.toReceiptFields := by
  have hid : textOf r.toDict "receipt_id" = some r.receiptId := rfl
  have hstate : (textOf r.toDict "state").bind TaskState.ofValue = some r.state :=
    TaskState.ofValue_value r.state
  have hsequence : r.toDict.get? "sequence" = some (.int r.sequence) := rfl
  have hvalidation : optionalTextOf r.toDict "validation_receipt_digest" =
      some r.validationReceiptDigest := optionalTextOf_eq rfl
  have hblocker : optionalTextOf r.toDict "blocker_digest" = some r.blockerDigest :=
    optionalTextOf_eq rfl
  have hprevious : optionalTextOf r.toDict "previous_receipt_digest" =
      some r.previousReceiptDigest := optionalTextOf_eq rfl
  simp only [fieldsOf, hid, hstate, hsequence, hvalidation, hblocker, hprevious,
    Option.bind_eq_bind, Option.bind_some]
  rfl

/-- **A receipt is read back from its document.** -/
theorem fromDocument_toDict (r : TaskReceipt) : fromDocument r.toDict = .ok r := by
  have hshape : ¬(r.toDict.names ≠ fieldNames ∨
      r.toDict.get? "schema_version" ≠ some (.int 1)) := by
    rintro (h | h)
    · exact h rfl
    · exact h rfl
  have hfingerprint : r.toDict.get? "fingerprint" = some (.obj r.fingerprint.toDict.members) := rfl
  have hmembers : Json.Dict.ofMembers r.fingerprint.toDict.members = r.fingerprint.toDict :=
    Json.Dict.ofMembers_members _
  have hdigest : r.toDict.get? "fingerprint_digest" = some (.str r.fingerprint.digest) := rfl
  have hcandidate : r.toDict.get? "candidate" = some (optionalCandidate r.candidate) := rfl
  have htarget : r.toDict.get? "integrated_target" =
      some (optionalCandidate r.integratedTarget) := rfl
  simp only [fromDocument, if_neg hshape, hfingerprint, hcandidate, htarget,
    isObjectOrNull_optionalCandidate, hmembers, TaskFingerprint.fromDocument_toDict, hdigest,
    optionalCandidateOf_optionalCandidate, fieldsOf_toDict, dif_pos r.valid, ne_eq, not_true_eq_false,
    if_false, Bool.true_eq_false]

end TaskReceipt

end Digests

end HiveMind.Reuse
