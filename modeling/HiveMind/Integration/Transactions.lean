import HiveMind.Candidates.Snapshots
import HiveMind.Lib.Raise

/-!
# Integration transactions

An integration advances a target from one exact identity to another, once. Its transaction says
which identities these are, which sealed candidates it brings in and what authorizes it, and it says
how far it has come. Only the last part ever changes.

* **`IntegrationTransaction.fromDocument_toDict`**: a transaction is read back from its document.
-/

open Raise HiveMind.Runtime

namespace HiveMind.Integration

/-- `IntegrationError`. -/
structure IntegrationError where
  message : String
  deriving DecidableEq, Repr

/-! ## States -/

/-- `IntegrationState`. -/
inductive IntegrationState where
  | prepared
  | executing
  | committed
  | recoverable
  | replanRequired
  | cancelled
  deriving DecidableEq, Repr

namespace IntegrationState

def value : IntegrationState → String
  | prepared => "PREPARED"
  | executing => "EXECUTING"
  | committed => "COMMITTED"
  | recoverable => "RECOVERABLE"
  | replanRequired => "REPLAN_REQUIRED"
  | cancelled => "CANCELLED"

def all : List IntegrationState :=
  [prepared, executing, committed, recoverable, replanRequired, cancelled]

def ofValue (text : String) : Option IntegrationState := all.find? (·.value == text)

theorem ofValue_value (state : IntegrationState) : ofValue state.value = some state := by
  cases state <;> decide

/-- `_TRANSITIONS`. -/
def next : IntegrationState → List IntegrationState
  | prepared => [executing, replanRequired, cancelled]
  | executing => [committed, recoverable, replanRequired]
  | recoverable => [committed, recoverable, replanRequired, cancelled]
  | committed => [committed]
  | replanRequired => [replanRequired, cancelled]
  | cancelled => [cancelled]

end IntegrationState

/-! ## Contributions -/

structure ContributionFields where
  candidateId : String
  nodeId : String
  identity : CandidateIdentity
  verificationReceiptDigest : String
  deriving DecidableEq

/-- What `CandidateContribution.__post_init__` raises. -/
def ContributionFields.problem? (f : ContributionFields) : Option String :=
  if isRequired f.candidateId = false then some "candidate_id is required"
  else if isRequired f.nodeId = false then some "node_id is required"
  else if isDigest f.verificationReceiptDigest = false then
    some "verification_receipt_digest must be a lowercase sha256 digest"
  else none

/-- `CandidateContribution`. -/
structure CandidateContribution extends ContributionFields where
  valid : toContributionFields.problem? = none
  deriving DecidableEq

/-- The members of an object. -/
def objectOf : Json → Option (List (String × Json))
  | .obj ms => some ms
  | _ => none

namespace CandidateContribution

/-- `to_document`. -/
def toDict (c : CandidateContribution) : Json.Dict where
  members := [("candidate_id", .str c.candidateId),
    ("identity", c.identity.toJson),
    ("node_id", .str c.nodeId),
    ("verification_receipt_digest", .str c.verificationReceiptDigest)]
  ordered := by simp only [List.map_cons, List.map_nil]; decide

def toJson (c : CandidateContribution) : Json := c.toDict.toJson

def fieldNames : List String :=
  ["candidate_id", "identity", "node_id", "verification_receipt_digest"]

/-- `from_document`. -/
def fromDocument (d : Json.Dict) : Except IntegrationError CandidateContribution :=
  match (d.get? "identity").bind objectOf with
  | none => .error ⟨"candidate contribution is malformed"⟩
  | some identity =>
    if d.names ≠ fieldNames then .error ⟨"candidate contribution is malformed"⟩
    else
      match textOf d "candidate_id", textOf d "node_id", textOf d "verification_receipt_digest",
        CandidateIdentity.fromDocument (.ofMembers identity) with
      | some candidateId, some nodeId, some receipt, .ok identity =>
        if h : ContributionFields.problem? ⟨candidateId, nodeId, identity, receipt⟩ = none then
          .ok ⟨⟨candidateId, nodeId, identity, receipt⟩, h⟩
        else .error ⟨"candidate contribution is invalid"⟩
      | _, _, _, _ => .error ⟨"candidate contribution is invalid"⟩

theorem sorted_toJson (c : CandidateContribution) : c.toJson.Sorted :=
  ⟨c.toDict.ordered, trivial, c.identity.sorted_toJson, trivial, trivial, trivial⟩

theorem jsonDepth_toJson (c : CandidateContribution) : jsonDepth c.toJson = 3 := rfl

/-- A contribution is read back from its document. -/
theorem fromDocument_toDict (c : CandidateContribution) : fromDocument c.toDict = .ok c := by
  have hidentity : (c.toDict.get? "identity").bind objectOf = some c.identity.toDict.members := rfl
  have hnames : c.toDict.names = fieldNames := rfl
  have htexts : textOf c.toDict "candidate_id" = some c.candidateId ∧
      textOf c.toDict "node_id" = some c.nodeId ∧
      textOf c.toDict "verification_receipt_digest" = some c.verificationReceiptDigest :=
    ⟨rfl, rfl, rfl⟩
  simp only [fromDocument, hidentity, hnames, ne_eq, not_true_eq_false, if_false, htexts,
    Json.Dict.ofMembers_members, CandidateIdentity.fromDocument_toDict]
  rw [dif_pos c.valid]

end CandidateContribution

/-! ## Transactions -/

structure TransactionFields where
  transactionId : String
  roundId : String
  targetRef : String
  expectedTarget : CandidateIdentity
  proposedTarget : CandidateIdentity
  contributions : List CandidateContribution
  planDigest : String
  activationManifestDigest : String
  manifestDigest : String
  targetBindingDigest : String
  integrationPolicyDigest : String
  integrationAuthorityExpiresAt : String
  validationReceiptDigest : String
  leaseDigest : String
  state : IntegrationState
  sequence : Int
  reason : Option String
  deriving DecidableEq

/-- The digests of a transaction, with their labels, in the order in which they are checked. -/
def TransactionFields.digests (f : TransactionFields) : List (String × String) :=
  [("plan_digest", f.planDigest), ("activation_manifest_digest", f.activationManifestDigest),
    ("manifest_digest", f.manifestDigest), ("target_binding_digest", f.targetBindingDigest),
    ("integration_policy_digest", f.integrationPolicyDigest),
    ("validation_receipt_digest", f.validationReceiptDigest), ("lease_digest", f.leaseDigest)]

/-- What `IntegrationTransaction.__post_init__` raises. -/
def TransactionFields.problem? (f : TransactionFields) : Option String :=
  required? f.transactionId "transaction_id" <|>
  required? f.roundId "round_id" <|>
  required? f.targetRef "target_ref" <|>
  (if f.expectedTarget.subjectId ≠ f.proposedTarget.subjectId then
    some "integration cannot cross subject identity" else none) <|>
  (if f.contributions = [] then some "integration requires at least one candidate" else none) <|>
  (if ¬(f.contributions.map (·.candidateId)).Nodup then
    some "integration candidates must be unique" else none) <|>
  (if ¬(f.contributions.map (·.nodeId)).Nodup then
    some "integration node order must be unique" else none) <|>
  (if f.contributions.any (·.identity.subjectId ≠ f.expectedTarget.subjectId) then
    some "candidate belongs to another subject" else none) <|>
  (f.digests.find? fun field ↦ !isDigest field.2).map
    (fun field ↦ field.1 ++ " must be a lowercase sha256 digest") <|>
  (if isTime f.integrationAuthorityExpiresAt = false then
    some "integration authority expiry must be an RFC 3339 timestamp" else none) <|>
  (if f.sequence < 1 then some "sequence must be a positive integer" else none) <|>
  f.reason.bind (required? · "reason") <|>
  (if f.state ∈ [.recoverable, .replanRequired, .cancelled] ∧ f.reason = none then
    some (f.state.value ++ " integration state requires a reason") else none)
where
  required? (value label : String) : Option String :=
    if isRequired value then none else some (label ++ " is required")

/-- `IntegrationTransaction`. -/
structure IntegrationTransaction extends TransactionFields where
  valid : toTransactionFields.problem? = none
  deriving DecidableEq

namespace IntegrationTransaction

/-- The constructor, with the text of the `ValueError`. -/
def make (f : TransactionFields) : Except String IntegrationTransaction :=
  match h : f.problem? with
  | some problem => .error problem
  | none => .ok ⟨f, h⟩

theorem make_eq_ok {f : TransactionFields} {transaction : IntegrationTransaction} :
    make f = .ok transaction ↔ transaction.toTransactionFields = f := by
  rw [make]
  split
  · next problem h =>
    refine ⟨fun h' ↦ (nomatch h'), ?_⟩
    rintro rfl
    exact nomatch h.symm.trans transaction.valid
  · next h =>
    constructor
    · intro h'
      rw [← Except.ok.inj h']
    · rintro rfl
      rfl

theorem one_le_sequence (t : IntegrationTransaction) : 1 ≤ t.sequence := by
  have hvalid := t.valid
  simp only [TransactionFields.problem?, Option.orElse_eq_orElse, Option.orElse_eq_or,
    Option.or_eq_none_iff] at hvalid
  obtain ⟨-, -, -, -, -, -, -, -, -, -, hsequence, -⟩ := hvalid
  by_contra hlt
  rw [if_pos (not_le.mp hlt)] at hsequence
  exact nomatch hsequence

/-- `to_document`. -/
def toDict (t : IntegrationTransaction) : Json.Dict where
  members := [("activation_manifest_digest", .str t.activationManifestDigest),
    ("contributions", .arr (t.contributions.map (·.toJson))),
    ("expected_target", t.expectedTarget.toJson),
    ("integration_authority_expires_at", .str t.integrationAuthorityExpiresAt),
    ("integration_policy_digest", .str t.integrationPolicyDigest),
    ("lease_digest", .str t.leaseDigest),
    ("manifest_digest", .str t.manifestDigest),
    ("plan_digest", .str t.planDigest),
    ("proposed_target", t.proposedTarget.toJson),
    ("reason", Runtime.optionalText t.reason),
    ("round_id", .str t.roundId),
    ("schema_version", .int 1),
    ("sequence", .int t.sequence),
    ("state", .str t.state.value),
    ("target_binding_digest", .str t.targetBindingDigest),
    ("target_ref", .str t.targetRef),
    ("transaction_id", .str t.transactionId),
    ("validation_receipt_digest", .str t.validationReceiptDigest)]
  ordered := by simp only [List.map_cons, List.map_nil]; decide

def toJson (t : IntegrationTransaction) : Json := t.toDict.toJson

/-- The text of the document. -/
def encoded (t : IntegrationTransaction) : String := t.toJson.dumps

/-- `canonical_bytes(transaction.to_document())`, which refuses a number that is too long. -/
def encode (t : IntegrationTransaction) : Except Exc String := do
  let _ ← (PyValue.int t.sequence).plain
  return t.encoded

def fieldNames : List String :=
  ["activation_manifest_digest", "contributions", "expected_target",
    "integration_authority_expires_at", "integration_policy_digest", "lease_digest",
    "manifest_digest", "plan_digest", "proposed_target", "reason", "round_id", "schema_version",
    "sequence", "state", "target_binding_digest", "target_ref", "transaction_id",
    "validation_receipt_digest"]

/-- The fields of a document, if they have the types they should have. -/
def fieldsOf (d : Json.Dict) (expected proposed : CandidateIdentity)
    (contributions : List CandidateContribution) : Option TransactionFields := do
  return ⟨← textOf d "transaction_id", ← textOf d "round_id", ← textOf d "target_ref", expected,
    proposed, contributions, ← textOf d "plan_digest", ← textOf d "activation_manifest_digest",
    ← textOf d "manifest_digest", ← textOf d "target_binding_digest",
    ← textOf d "integration_policy_digest", ← textOf d "integration_authority_expires_at",
    ← textOf d "validation_receipt_digest", ← textOf d "lease_digest",
    ← (textOf d "state").bind IntegrationState.ofValue,
    ← Candidates.CandidateSnapshot.intOf d "sequence", ← optionalTextOf d "reason"⟩

/-- The constructor, called with what a document holds. -/
def ofDocument (d : Json.Dict) (expected proposed : List (String × Json))
    (contributions : List (List (String × Json))) :
    Except IntegrationError IntegrationTransaction := do
  let invalid : IntegrationError := ⟨"integration transaction is invalid"⟩
  let expected ← (CandidateIdentity.fromDocument (.ofMembers expected)).mapError fun _ ↦ invalid
  let proposed ← (CandidateIdentity.fromDocument (.ofMembers proposed)).mapError fun _ ↦ invalid
  let contributions ← contributions.mapM fun ms ↦ CandidateContribution.fromDocument (.ofMembers ms)
  match fieldsOf d expected proposed contributions with
  | none => throw invalid
  | some fields => (make fields).mapError fun _ ↦ invalid

/-- The objects of an array. -/
def objectsOf : Json → Option (List (List (String × Json)))
  | .arr items => items.mapM objectOf
  | _ => none

/-- `from_document`. -/
def fromDocument (d : Json.Dict) : Except IntegrationError IntegrationTransaction :=
  if d.names ≠ fieldNames ∨ d.get? "schema_version" ≠ some (.int 1) then
    .error ⟨"integration transaction has an unknown shape"⟩
  else
    match (d.get? "expected_target").bind objectOf, (d.get? "proposed_target").bind objectOf with
    | some expected, some proposed =>
      match (d.get? "contributions").bind objectsOf with
      | none => .error ⟨"integration contributions are malformed"⟩
      | some contributions => ofDocument d expected proposed contributions
    | _, _ => .error ⟨"integration target identity is malformed"⟩

theorem sortedList_contributions (cs : List CandidateContribution) :
    Json.SortedList (cs.map (·.toJson)) := by
  induction cs with
  | nil => trivial
  | cons c cs ih => exact ⟨c.sorted_toJson, ih⟩

theorem depthOfList_contributions_le (cs : List CandidateContribution) :
    depthOfList (cs.map (·.toJson)) ≤ 3 := by
  induction cs with
  | nil => exact Nat.zero_le 3
  | cons c cs ih => exact max_le c.jsonDepth_toJson.le ih

theorem sorted_toJson (t : IntegrationTransaction) : t.toJson.Sorted :=
  ⟨t.toDict.ordered, trivial, sortedList_contributions _, t.expectedTarget.sorted_toJson, trivial,
    trivial, trivial, trivial, trivial, t.proposedTarget.sorted_toJson, sorted_optionalText _,
    trivial, trivial, trivial, trivial, trivial, trivial, trivial, trivial, trivial⟩

theorem jsonDepth_toJson_le (t : IntegrationTransaction) :
    jsonDepth t.toJson ≤ maximumJsonDepth := by
  have hcontributions := depthOfList_contributions_le t.contributions
  have hexpected : jsonDepth t.expectedTarget.toJson = 2 := rfl
  have hproposed : jsonDepth t.proposedTarget.toJson = 2 := rfl
  simp only [toJson, Json.Dict.toJson, toDict, jsonDepth, depthOfMembers, jsonDepth_optionalText,
    hexpected, hproposed, maximumJsonDepth]
  omega

theorem objectsOf_contributions (cs : List CandidateContribution) :
    objectsOf (.arr (cs.map (·.toJson))) = some (cs.map (·.toDict.members)) := by
  rw [objectsOf]
  induction cs with
  | nil => rfl
  | cons c cs ih =>
    have hc : objectOf c.toJson = some c.toDict.members := rfl
    rw [List.map_cons, List.map_cons, List.mapM_cons, hc, ih]
    rfl

theorem mapM_fromDocument (cs : List CandidateContribution) :
    (cs.map (·.toDict.members)).mapM
      (fun ms ↦ CandidateContribution.fromDocument (.ofMembers ms)) = .ok cs := by
  rw [mapM_eq_ok, List.forall₂_map_left_iff]
  refine List.forall₂_same.mpr fun c _ ↦ ?_
  rw [Json.Dict.ofMembers_members, CandidateContribution.fromDocument_toDict]

theorem fieldsOf_toDict (t : IntegrationTransaction) :
    fieldsOf t.toDict t.expectedTarget t.proposedTarget t.contributions =
      some t.toTransactionFields := by
  have hstate : (textOf t.toDict "state").bind IntegrationState.ofValue = some t.state :=
    IntegrationState.ofValue_value t.state
  have hreason : optionalTextOf t.toDict "reason" = some t.reason := optionalTextOf_eq rfl
  have hsequence : Candidates.CandidateSnapshot.intOf t.toDict "sequence" = some t.sequence := rfl
  have htexts : textOf t.toDict "transaction_id" = some t.transactionId ∧
      textOf t.toDict "round_id" = some t.roundId ∧
      textOf t.toDict "target_ref" = some t.targetRef ∧
      textOf t.toDict "plan_digest" = some t.planDigest ∧
      textOf t.toDict "activation_manifest_digest" = some t.activationManifestDigest ∧
      textOf t.toDict "manifest_digest" = some t.manifestDigest ∧
      textOf t.toDict "target_binding_digest" = some t.targetBindingDigest ∧
      textOf t.toDict "integration_policy_digest" = some t.integrationPolicyDigest ∧
      textOf t.toDict "integration_authority_expires_at" = some t.integrationAuthorityExpiresAt ∧
      textOf t.toDict "validation_receipt_digest" = some t.validationReceiptDigest ∧
      textOf t.toDict "lease_digest" = some t.leaseDigest :=
    ⟨rfl, rfl, rfl, rfl, rfl, rfl, rfl, rfl, rfl, rfl, rfl⟩
  simp only [fieldsOf, htexts, hstate, hreason, hsequence, Option.bind_eq_bind, Option.bind_some]
  rfl

/-- **A transaction is read back from its document.** -/
theorem fromDocument_toDict (t : IntegrationTransaction) : fromDocument t.toDict = .ok t := by
  have hshape : ¬(t.toDict.names ≠ fieldNames ∨
      t.toDict.get? "schema_version" ≠ some (.int 1)) := by
    rintro (h | h)
    · exact h rfl
    · exact h rfl
  have hexpected : (t.toDict.get? "expected_target").bind objectOf =
      some t.expectedTarget.toDict.members := rfl
  have hproposed : (t.toDict.get? "proposed_target").bind objectOf =
      some t.proposedTarget.toDict.members := rfl
  have hcontributions : (t.toDict.get? "contributions").bind objectsOf =
      some (t.contributions.map (·.toDict.members)) := objectsOf_contributions t.contributions
  have hmake : make t.toTransactionFields = .ok t := make_eq_ok.mpr rfl
  rw [fromDocument, if_neg hshape]
  simp only [hexpected, hproposed, hcontributions, ofDocument, Json.Dict.ofMembers_members,
    CandidateIdentity.fromDocument_toDict, mapM_fromDocument, Except.mapError, ok_bind,
    fieldsOf_toDict, hmake]

end IntegrationTransaction

section Digests

variable [Hash256]

/-- `intent_digest`. -/
def IntegrationTransaction.intentDigest (t : IntegrationTransaction) : String :=
  jsonDigest (.obj (t.toDict.members.filter (·.1 ∉ ["state", "sequence", "reason"])))

/-- The transaction's own digest, which its preparation is kept under. -/
def IntegrationTransaction.digest (t : IntegrationTransaction) : String := jsonDigest t.toJson

end Digests

end HiveMind.Integration
