import HiveMind.Runtime.Contracts

/-!
# Snapshots of a candidate

The life of a candidate is a sequence of snapshots. A snapshot carries the checks of its
constructor: states that claim a sealed candidate have its identity, and states that end or
interrupt the life have a reason.

* **`CandidateSnapshot.fromDocument_toDict`**: a snapshot is read back from its document.
-/

open HiveMind.Runtime

namespace HiveMind.Candidates

/-- `CandidateStateError`. -/
structure CandidateStateError where
  message : String
  deriving DecidableEq, Repr

/-! ## States -/

/-- `WaveState`. -/
inductive WaveState where
  | planned
  | running
  | checkpointed
  | candidateSealed
  | verifying
  | integrationReady
  | recoverable
  | replanRequired
  | integrated
  | failed
  | cancelled
  deriving DecidableEq, Repr

namespace WaveState

def value : WaveState → String
  | planned => "PLANNED"
  | running => "RUNNING"
  | checkpointed => "CHECKPOINTED"
  | candidateSealed => "CANDIDATE_SEALED"
  | verifying => "VERIFYING"
  | integrationReady => "INTEGRATION_READY"
  | recoverable => "RECOVERABLE"
  | replanRequired => "REPLAN_REQUIRED"
  | integrated => "INTEGRATED"
  | failed => "FAILED"
  | cancelled => "CANCELLED"

def all : List WaveState :=
  [planned, running, checkpointed, candidateSealed, verifying, integrationReady, recoverable,
    replanRequired, integrated, failed, cancelled]

def ofValue (text : String) : Option WaveState := all.find? (·.value == text)

theorem ofValue_value (state : WaveState) : ofValue state.value = some state := by
  cases state <;> decide

/-- `_TERMINAL_STATES`. -/
def isTerminal : WaveState → Bool
  | integrated | failed | cancelled => true
  | _ => false

/-- `_TRANSITIONS`. A candidate is never planned or running, so what follows these is not asked. -/
def next : WaveState → List WaveState
  | checkpointed =>
    [checkpointed, candidateSealed, recoverable, replanRequired, failed, cancelled]
  | candidateSealed =>
    [candidateSealed, verifying, recoverable, replanRequired, failed, cancelled]
  | verifying => [verifying, integrationReady, recoverable, replanRequired, failed, cancelled]
  | integrationReady =>
    [integrationReady, recoverable, replanRequired, integrated, failed, cancelled]
  | recoverable =>
    [recoverable, candidateSealed, verifying, integrationReady, replanRequired, integrated, failed,
      cancelled]
  | replanRequired => [replanRequired, cancelled]
  | integrated => [integrated]
  | failed => [failed]
  | cancelled => [cancelled]
  | planned | running => []

end WaveState

/-! ## Snapshots -/

structure SnapshotFields where
  candidateId : String
  waveId : String
  nodeId : String
  generation : Int
  state : WaveState
  manifestDigest : String
  authorityDigest : String
  checkpointDigest : String
  identity : Option CandidateIdentity
  sequence : Int
  reason : Option String
  deriving DecidableEq

/-- What `CandidateSnapshot.__post_init__` raises. -/
def SnapshotFields.problem? (f : SnapshotFields) : Option String :=
  if isRequired f.candidateId = false then some "candidate_id is required"
  else if isRequired f.waveId = false then some "wave_id is required"
  else if isRequired f.nodeId = false then some "node_id is required"
  else if f.generation < 1 then some "generation must be a positive integer"
  else if isDigest f.manifestDigest = false then
    some "manifest_digest must be a lowercase sha256 digest"
  else if isDigest f.authorityDigest = false then
    some "authority_digest must be a lowercase sha256 digest"
  else if isDigest f.checkpointDigest = false then
    some "checkpoint_digest must be a lowercase sha256 digest"
  else if f.sequence < 1 then some "sequence must be a positive integer"
  else if f.state ∈ [.candidateSealed, .verifying, .integrationReady, .integrated] ∧
      f.identity = none then
    some "sealed and adoption states require an exact candidate identity"
  else if f.reason.any (isRequired · == false) then some "reason is required"
  else if f.state ∈ [.recoverable, .replanRequired, .failed, .cancelled] ∧ f.reason = none then
    some (f.state.value ++ " candidate state requires a reason")
  else none

/-- `CandidateSnapshot`. -/
structure CandidateSnapshot extends SnapshotFields where
  valid : toSnapshotFields.problem? = none
  deriving DecidableEq

namespace CandidateSnapshot

/-- The constructor, with the text of the `ValueError`. -/
def make (f : SnapshotFields) : Except String CandidateSnapshot :=
  match h : f.problem? with
  | some problem => .error problem
  | none => .ok ⟨f, h⟩

theorem make_eq_ok {f : SnapshotFields} {snapshot : CandidateSnapshot} :
    make f = .ok snapshot ↔ snapshot.toSnapshotFields = f := by
  rw [make]
  split
  · next problem h =>
    refine ⟨fun h' ↦ (nomatch h'), ?_⟩
    rintro rfl
    exact nomatch h.symm.trans snapshot.valid
  · next h =>
    constructor
    · intro h'
      rw [← Except.ok.inj h']
    · rintro rfl
      rfl

/-- `to_document`. -/
def toDict (s : CandidateSnapshot) : Json.Dict where
  members := [("authority_digest", .str s.authorityDigest),
    ("candidate_id", .str s.candidateId),
    ("checkpoint_digest", .str s.checkpointDigest),
    ("generation", .int s.generation),
    ("identity", optionalCandidate s.identity),
    ("manifest_digest", .str s.manifestDigest),
    ("node_id", .str s.nodeId),
    ("reason", Runtime.optionalText s.reason),
    ("schema_version", .int 1),
    ("sequence", .int s.sequence),
    ("state", .str s.state.value),
    ("wave_id", .str s.waveId)]
  ordered := by simp only [List.map_cons, List.map_nil]; decide

def toJson (s : CandidateSnapshot) : Json := s.toDict.toJson

/-- The text of the document. -/
def encoded (s : CandidateSnapshot) : String := s.toJson.dumps

/-- `canonical_bytes(snapshot.to_document())`, which refuses numbers that are too long. -/
def encode (s : CandidateSnapshot) : Except Exc String := do
  let _ ← (PyValue.int s.generation).plain
  let _ ← (PyValue.int s.sequence).plain
  return s.encoded

def fieldNames : List String :=
  ["authority_digest", "candidate_id", "checkpoint_digest", "generation", "identity",
    "manifest_digest", "node_id", "reason", "schema_version", "sequence", "state", "wave_id"]

/-- A member that is a whole number. -/
def intOf (d : Json.Dict) (name : String) : Option Int :=
  match d.get? name with
  | some (.int n) => some n
  | _ => none

/-- The fields of a document, if they have the types they should have. -/
def fieldsOf (d : Json.Dict) (identity : Option CandidateIdentity) : Option SnapshotFields := do
  return ⟨← textOf d "candidate_id", ← textOf d "wave_id", ← textOf d "node_id",
    ← intOf d "generation", ← (textOf d "state").bind WaveState.ofValue,
    ← textOf d "manifest_digest", ← textOf d "authority_digest", ← textOf d "checkpoint_digest",
    identity, ← intOf d "sequence", ← optionalTextOf d "reason"⟩

/-- `from_document`. -/
def fromDocument (d : Json.Dict) : Except CandidateStateError CandidateSnapshot :=
  if d.names ≠ fieldNames ∨ d.get? "schema_version" ≠ some (.int 1) then
    .error ⟨"candidate snapshot has an unknown shape"⟩
  else if isObjectOrNull (d.get? "identity") = false then
    .error ⟨"candidate identity is malformed"⟩
  else
    match optionalCandidateOf (d.get? "identity") with
    | .error _ => .error ⟨"candidate snapshot is invalid"⟩
    | .ok identity =>
      match fieldsOf d identity with
      | none => .error ⟨"candidate snapshot is invalid"⟩
      | some fields => (make fields).mapError fun _ ↦ ⟨"candidate snapshot is invalid"⟩

theorem sorted_toJson (s : CandidateSnapshot) : s.toJson.Sorted :=
  ⟨s.toDict.ordered, trivial, trivial, trivial, trivial, sorted_optionalCandidate _, trivial,
    trivial, sorted_optionalText _, trivial, trivial, trivial, trivial, trivial⟩

theorem jsonDepth_toJson_le (s : CandidateSnapshot) : jsonDepth s.toJson ≤ maximumJsonDepth := by
  have hidentity := jsonDepth_optionalCandidate_le s.identity
  simp only [toJson, Json.Dict.toJson, toDict, jsonDepth, depthOfMembers, jsonDepth_optionalText,
    maximumJsonDepth]
  omega

theorem fieldsOf_toDict (s : CandidateSnapshot) :
    fieldsOf s.toDict s.identity = some s.toSnapshotFields := by
  have hstate : (textOf s.toDict "state").bind WaveState.ofValue = some s.state :=
    WaveState.ofValue_value s.state
  have hreason : optionalTextOf s.toDict "reason" = some s.reason := optionalTextOf_eq rfl
  have hgeneration : intOf s.toDict "generation" = some s.generation := rfl
  have hsequence : intOf s.toDict "sequence" = some s.sequence := rfl
  have htexts : textOf s.toDict "candidate_id" = some s.candidateId ∧
      textOf s.toDict "wave_id" = some s.waveId ∧ textOf s.toDict "node_id" = some s.nodeId ∧
      textOf s.toDict "manifest_digest" = some s.manifestDigest ∧
      textOf s.toDict "authority_digest" = some s.authorityDigest ∧
      textOf s.toDict "checkpoint_digest" = some s.checkpointDigest :=
    ⟨rfl, rfl, rfl, rfl, rfl, rfl⟩
  simp only [fieldsOf, htexts, hstate, hreason, hgeneration, hsequence, Option.bind_eq_bind,
    Option.bind_some]
  rfl

/-- **A snapshot is read back from its document.** -/
theorem fromDocument_toDict (s : CandidateSnapshot) : fromDocument s.toDict = .ok s := by
  have hshape : ¬(s.toDict.names ≠ fieldNames ∨
      s.toDict.get? "schema_version" ≠ some (.int 1)) := by
    rintro (h | h)
    · exact h rfl
    · exact h rfl
  have hidentity : s.toDict.get? "identity" = some (optionalCandidate s.identity) := rfl
  have hmake : make s.toSnapshotFields = .ok s := make_eq_ok.mpr rfl
  simp only [fromDocument, if_neg hshape, hidentity, isObjectOrNull_optionalCandidate,
    Bool.true_eq_false, if_false, optionalCandidateOf_optionalCandidate, fieldsOf_toDict, hmake]
  rfl

end CandidateSnapshot

end HiveMind.Candidates
