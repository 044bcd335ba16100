import HiveMind.Evidence.Ledger
import HiveMind.Kernel.Values
import HiveMind.Lib.Dicts
import HiveMind.Lib.Folders
import HiveMind.Missions.Updates
import HiveMind.Runtime.Contracts

/-!
# The prompt registry

Prompts are files that are named by the digests of their contents. For each role one of them is the
champion, and the index of champions is one document that is replaced as a whole. What admitted a
champion is kept in a manifest of its own, and each time a champion is read its admission is checked
once more: against the registration of the prompt, the decision in the ledger, and the evidence that
the decision refers to.

The modules that evaluate prompts and authenticate principals are given, as functions of what they
are asked about (`Outside`).
-/

open Raise

namespace HiveMind.Prompts

open HiveMind.Evidence (LedgerRow LedgerError EventTable AppendArgs)
open HiveMind.Missions (Role)

/-! ## Errors -/

/-- What a caller of the registry can be told. `refused` is a `PromotionAdmissionError`, `pending` a
`PromotionCommittedEvidencePending` and `unrecorded` a `RejectionPersistenceError`. -/
inductive RegistryError where
  | refused (code message : String)
  | pending (admission : String) (prior after : Option String) (operation : String)
  | unrecorded (message : String)
  | runtime (message : String)
  | value (message : String)
  | key (name : String)
  | os
  | ledger (e : LedgerError)
  | evidence (message : String)
  deriving DecidableEq

/-! ## Prompts -/

/-- `text.replace("\r\n", "\n").replace("\r", "\n")`. -/
def unifyLineEnds : List Char → List Char
  | '\r' :: '\n' :: cs => '\n' :: unifyLineEnds cs
  | '\r' :: cs => '\n' :: unifyLineEnds cs
  | c :: cs => c :: unifyLineEnds cs
  | [] => []

/-- `canonical_prompt_bytes`, of a text. -/
def canonicalPrompt (text : String) : String :=
  String.ofList ((unifyLineEnds text.toList).rdropWhile (· = '\n'))

def promptDigest [Hash256] (text : String) : String :=
  "sha256:" ++ Hash256.hexdigest (canonicalPrompt text).toList

theorem isDigest_promptDigest [Hash256] (content : String) : isDigest (promptDigest content) = true :=
  isDigest_hexdigest (canonicalPrompt content).toList

/-- `_role_value`. -/
def roleValue (role : String) : Except RegistryError Role :=
  match Role.all.find? (·.value = role) with
  | some role => .ok role
  | none => .error (.value (role ++ " is not a valid Role"))

/-- `RoleContract`, as far as prompts go. -/
structure RoleContract where
  mission : String
  requiredOutputs : List String
  qualityGates : List String

/-- `ROLE_CONTRACTS`. -/
def roleContracts : Role → RoleContract
  | .orchestrator =>
    ⟨"Translate outcomes into bounded work, coordinate specialists, and manage tradeoffs.",
      ["objective decomposition", "execution plan", "risk register"],
      ["acceptance criteria are testable", "dependencies are explicit"]⟩
  | .explorer =>
    ⟨"Find the highest-value problems using repository, user, product, and external evidence.",
      ["problem statement", "evidence map", "ranked opportunities"],
      ["problem is evidence-backed", "alternatives were considered"]⟩
  | .architect =>
    ⟨"Design scalable, secure, evolvable solutions and explicit decision records.",
      ["architecture", "interfaces", "threat model", "migration plan"],
      ["constraints are satisfied", "failure modes are addressed"]⟩
  | .builder =>
    ⟨"Implement the smallest complete change and ship it with executable verification.",
      ["implementation", "tests", "change summary"],
      ["tests pass", "change is traceable to the objective"]⟩
  | .curator =>
    ⟨"Protect quality, trust, compliance, and factual integrity.",
      ["verification report", "defect findings", "release recommendation"],
      ["claims have evidence", "critical regressions are absent"]⟩
  | .optimizer =>
    ⟨"Measure outcomes, run controlled experiments, and improve the system.",
      ["metrics", "experiment result", "improvement proposal"],
      ["improvement beats baseline", "regressions stay within budget"]⟩
  | .steward =>
    ⟨"Keep code, infrastructure, dependencies, and operational knowledge healthy.",
      ["health report", "maintenance change", "operational runbook"],
      ["system remains recoverable", "maintenance reduces measured risk"]⟩
  | .integrator =>
    ⟨"Connect systems, data, tools, and workflows through stable contracts.",
      ["integration contract", "compatibility result", "data lineage"],
      ["contracts are versioned", "provenance is preserved"]⟩

def generationZeroPrompt (role : Role) : String :=
  "You are the Hive Mind OS specialist for role " ++ role.value ++ ". Mission: " ++
    (roleContracts role).mission ++ "\n" ++
    "Return only a JSON object with summary, outputs, proposed_actions, lessons, " ++
    "and success. outputs must contain exactly these keys: " ++
    String.intercalate ", " (roleContracts role).requiredOutputs ++ ". Quality gates: " ++
    String.intercalate "; " (roleContracts role).qualityGates

/-- `_GENERATION_ZERO_PROMOTERS`. -/
def generationZeroPromoters : List String := ["repository:generation-0", "model-backend:generation-0"]

/-! ## Documents -/

/-- A dict that was read from a file or is written to one. -/
@[ext]
structure Record where
  dict : Json.Dict
  sorted : dict.toJson.Sorted

instance : DecidableEq Record := fun _ _ ↦ decidable_of_iff _ Record.ext_iff.symm

namespace Record

/-- The record with the given members. -/
def ofMembers (ms : List (String × Json)) (h : ∀ m ∈ ms, m.2.Sorted) : Record where
  dict := .ofMembers ms
  sorted := by
    rw [Json.Dict.toJson_ofMembers]
    exact Json.sorted_mkObj h

/-- `record.get(name)`. -/
def get (record : Record) (name : String) : Json := (record.dict.get? name).getD .null

theorem get_ofMembers {ms : List (String × Json)} {h : ∀ m ∈ ms, m.2.Sorted}
    (hnodup : (ms.map Prod.fst).Nodup) (name : String) :
    (ofMembers ms h).get name = (ms.lookup name).getD .null := by
  rw [get, ofMembers, Json.Dict.get?_ofMembers hnodup]

end Record

/-- `payload.get(name)`. -/
def field (payload : Json) (name : String) : Json := (payload.get? name).getD .null

theorem field_mkObj {ms : List (String × Json)} (hnodup : (ms.map Prod.fst).Nodup)
    (name : String) : field (.mkObj ms) name = (ms.lookup name).getD .null :=
  congrArg (Option.getD · Json.null) (Json.Dict.get?_ofMembers hnodup name)

/-- `payload[name]`. -/
def item (payload : Json) (name : String) : Except RegistryError Json :=
  match payload.get? name with
  | some value => .ok value
  | none => .error (.key name)

theorem item_of_field {payload value : Json} {name : String} (h : field payload name = value)
    (hvalue : value ≠ .null) : item payload name = .ok value := by
  rw [field] at h
  rw [item]
  cases hget : payload.get? name with
  | none => exact absurd (h.symm.trans (by rw [hget]; rfl)) hvalue
  | some found =>
    rw [hget] at h
    exact congrArg Except.ok h

/-- Whether a value counts as true. -/
def truthy : Json → Bool
  | .null => false
  | .bool b => b
  | .int n => n ≠ 0
  | .str s => s ≠ ""
  | .arr xs => !xs.isEmpty
  | .obj ms => !ms.isEmpty
  | .float x => x.whole ≠ 0 || x.frac.any (·.val ≠ 0)

/-- A value with a member counts as true. -/
theorem truthy_of_field {j : Json} {name : String} (h : field j name ≠ .null) : truthy j = true := by
  match j with
  | .obj [] => exact absurd rfl h
  | .obj (_ :: _) => rfl
  | .null | .bool _ | .int _ | .float _ | .str _ | .arr _ => exact absurd rfl h

/-! ## Admissions -/

/-- `EvaluationRecordReference`. -/
structure Reference where
  evaluationId : String
  recordPath : String
  recordDigest : String
  deriving DecidableEq

def Reference.document (r : Reference) : Json :=
  .mkObj [("schema_version", .int 1), ("evaluation_id", .str r.evaluationId),
    ("record_path", .str r.recordPath), ("record_digest", .str r.recordDigest)]

/-- A `prompt-promotion-admission`. -/
structure PromotionManifest where
  role : String
  candidateDigest : String
  parentDigest : Option String
  experimentId : String
  decisionEventSequence : Int
  decisionEventDigest : String
  evaluationSubjectDigest : String
  evaluationRecord : Reference
  contractFingerprint : String
  evaluatorId : String
  judgeId : String
  promoterId : String
  artifactRefs : List String
  rollbackDigest : Option String
  admittedAt : String
  authorityPolicyDigest : String
  authorizationDigest : String
  authorizationNonces : List String
  deriving DecidableEq

/-- A `prompt-bootstrap-admission`. -/
structure BootstrapManifest where
  role : String
  candidateDigest : String
  parentDigest : Option String
  experimentId : String
  promoterId : String
  admittedAt : String
  rollbackDigest : Option String
  decisionEventSequence : Option Int
  registration : Record
  deriving DecidableEq

/-- What an adverse decision does. -/
inductive AdverseAction where
  | rollback
  | apply
  deriving DecidableEq, Repr

def AdverseAction.value : AdverseAction → String
  | rollback => "rollback"
  | apply => "apply"

/-- A `prompt-adverse-admission`. -/
structure AdverseManifest where
  action : AdverseAction
  role : String
  candidateDigest : String
  priorDigest : Option String
  pointerAfter : Option String
  targetBinding : Option String
  experimentId : String
  decisionEventSequence : Int
  decisionEventDigest : String
  evaluationSubjectDigest : String
  evaluationRecord : Reference
  authorizationDigest : String
  authorizationNonces : List String
  authorityPolicyDigest : String
  promoterId : String
  admittedAt : String
  deriving DecidableEq

inductive Manifest where
  | promotion (m : PromotionManifest)
  | bootstrap (m : BootstrapManifest)
  | adverse (m : AdverseManifest)
  deriving DecidableEq

/-- The document of a manifest. -/
def Manifest.document : Manifest → Json
  | promotion m => .mkObj [("schema_version", .int 1), ("kind", .str "prompt-promotion-admission"),
      ("role", .str m.role), ("candidate_digest", .str m.candidateDigest),
      ("parent_digest", Runtime.optionalText m.parentDigest), ("experiment_id", .str m.experimentId),
      ("decision_event_sequence", .int m.decisionEventSequence),
      ("decision_event_digest", .str m.decisionEventDigest),
      ("evaluation_subject_digest", .str m.evaluationSubjectDigest),
      ("evaluation_record", m.evaluationRecord.document),
      ("contract_fingerprint", .str m.contractFingerprint), ("evaluator_id", .str m.evaluatorId),
      ("judge_id", .str m.judgeId), ("promoter_id", .str m.promoterId),
      ("artifact_refs", .arr (m.artifactRefs.map .str)),
      ("rollback_digest", Runtime.optionalText m.rollbackDigest), ("admitted_at", .str m.admittedAt),
      ("authority_policy_digest", .str m.authorityPolicyDigest),
      ("authorization_digest", .str m.authorizationDigest),
      ("authorization_nonces", .arr (m.authorizationNonces.map .str))]
  | bootstrap m => .mkObj [("schema_version", .int 1), ("kind", .str "prompt-bootstrap-admission"),
      ("role", .str m.role), ("candidate_digest", .str m.candidateDigest),
      ("parent_digest", Runtime.optionalText m.parentDigest), ("experiment_id", .str m.experimentId),
      ("promoter_id", .str m.promoterId), ("admitted_at", .str m.admittedAt),
      ("rollback_digest", Runtime.optionalText m.rollbackDigest),
      ("decision_event_sequence", (m.decisionEventSequence.map Json.int).getD .null),
      ("registration", m.registration.dict.toJson)]
  | adverse m => .mkObj [("schema_version", .int 1), ("kind", .str "prompt-adverse-admission"),
      ("action", .str m.action.value), ("role", .str m.role),
      ("candidate_digest", .str m.candidateDigest), ("prior_digest", Runtime.optionalText m.priorDigest),
      ("pointer_after", Runtime.optionalText m.pointerAfter),
      ("target_binding", Runtime.optionalText m.targetBinding), ("experiment_id", .str m.experimentId),
      ("decision_event_sequence", .int m.decisionEventSequence),
      ("decision_event_digest", .str m.decisionEventDigest),
      ("evaluation_subject_digest", .str m.evaluationSubjectDigest),
      ("evaluation_record", m.evaluationRecord.document),
      ("authorization_digest", .str m.authorizationDigest),
      ("authorization_nonces", .arr (m.authorizationNonces.map .str)),
      ("authority_policy_digest", .str m.authorityPolicyDigest),
      ("promoter_id", .str m.promoterId), ("admitted_at", .str m.admittedAt)]

/-- A file among the admissions. `isCanonical` says that the file is the canonical encoding of the
manifest and a line end. -/
inductive AdmissionFile where
  | manifest (m : Manifest) (isCanonical : Bool)
  | other
  deriving DecidableEq

/-! ## Pointers -/

/-- The document of the champion index. A map that the document does not have is empty. -/
structure Pointers where
  schemaVersion : Int
  champions : List (String × String)
  promotionBindings : List (String × String)
  consumedEvaluations : List (String × String)
  consumedNonces : List (String × String)
  quarantinedArtifacts : List (String × String)
  bootstrapBindings : List (String × String)
  deriving DecidableEq

namespace Pointers

/-- The index before it is first written. -/
def initial : Pointers := ⟨1, [], [], [], [], [], []⟩

def bindRoles (map : List (String × String)) : Bool :=
  map.all fun entry ↦ Role.all.any (·.value = entry.1) && isDigest entry.2

def bindDigests (map : List (String × String)) : Bool :=
  map.all fun entry ↦ isDigest entry.1 && isDigest entry.2

/-- The identities that `_read_pointers` checks. -/
def isValid (p : Pointers) : Bool :=
  bindRoles p.champions && bindRoles p.promotionBindings && bindRoles p.bootstrapBindings &&
    bindDigests p.consumedEvaluations && bindDigests p.consumedNonces &&
    bindDigests p.quarantinedArtifacts &&
    p.promotionBindings.all fun binding ↦ p.champions.any (·.1 = binding.1)

/-- Nothing but champions, as in a document of the first schema. -/
def isLegacy (p : Pointers) : Bool :=
  p.promotionBindings.isEmpty && p.consumedEvaluations.isEmpty && p.consumedNonces.isEmpty &&
    p.quarantinedArtifacts.isEmpty && p.bootstrapBindings.isEmpty

end Pointers

/-- `champions.json`. A file that is not an index, by its syntax, its fields or the types of its
values, is `malformed`. -/
inductive PointerFile where
  | absent
  | malformed
  | document (p : Pointers)
  deriving DecidableEq

/-! ## The registry -/

/-- The files of a registry, and its ledger. A prompt that is not UTF-8 has no text, and a file that
is not a JSON object has no record. -/
structure Registry where
  artifacts : List (String × Option String)
  lineage : Folder (Option Record)
  events : Folder (Option Record)
  admissions : List (String × AdmissionFile)
  pointerFile : PointerFile
  unknownCommit : Bool
  ledger : EventTable

namespace Registry

variable (s : Registry)

/-- `_ensure_known_commit`. -/
def ensureKnownCommit : Except RegistryError Unit :=
  if s.unknownCommit then
    throw (.refused "commit-state-unknown" "registry has an unresolved pointer commit")
  else return ()

/-- `_read_pointers`. -/
def readPointers : Except RegistryError Pointers :=
  match s.pointerFile with
  | .absent => return .initial
  | .malformed => throw (.runtime "prompt champion index is malformed")
  | .document p =>
    if p.schemaVersion ≠ 1 ∧ p.schemaVersion ≠ 2 then
      throw (.runtime "prompt champion index is malformed")
    else if p.schemaVersion = 1 ∧ !p.isLegacy then
      throw (.refused "downgrade-unsupported"
        "legacy schema cannot carry or discard admission state")
    else if !p.isValid then
      throw (.runtime "prompt champion index contains invalid identities")
    else return p

/-- `artifact_path(digest)`, and what is there. -/
def artifact (digest : String) : Except RegistryError (Option (Option String)) :=
  if isDigest digest then return s.artifacts.lookup digest
  else throw (.value "prompt digest must be canonical sha256:<64 lowercase hex>")

/-- `read`. -/
def read [Hash256] (digest : String) : Except RegistryError String := do
  match ← s.artifact digest with
  | none => throw (.key digest)
  | some none => throw (.value "invalid start byte")
  | some (some content) =>
    if content ≠ canonicalPrompt content then
      throw (.refused "artifact-noncanonical" <| "prompt artifact digest cannot authorize " ++
        "noncanonical bytes; preserve retained bytes for explicit migration review")
    if promptDigest content ≠ digest then
      throw (.runtime "prompt artifact digest does not match its path")
    return content

/-- `_read_records`. -/
def readRecords (folder : Folder (Option Record)) : Except RegistryError (List Record) :=
  folder.contents.mapM fun
    | some record => return record
    | none => throw (.runtime "prompt registry record is malformed")

/-- `lineage`. -/
def lineageOf (digest : String) : Except RegistryError (List Record) := do
  let records ← readRecords s.lineage
  return records.filter (·.get "artifact_digest" = .str digest)

/-- `self.ledger.events(run_id)`. -/
def ledgerEvents [Hash256] (runId : String) : Except RegistryError (List (LedgerRow × Json)) :=
  (Evidence.events (some runId) s.ledger).mapError .ledger

end Registry

end HiveMind.Prompts
