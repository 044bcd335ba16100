import HiveMind.Prompts.Registry

/-!
# Champions

A champion is read through the admission that its role is bound to, and the admission is checked
each time. That of a prompt from generation zero is checked against the registration that the
manifest holds. That of any other prompt is checked against the registration of the experiment,
which is the last one of the lineage by the name of its file.
-/

open Raise

namespace HiveMind.Prompts

open HiveMind.Evidence (LedgerRow LedgerError EventTable)
open HiveMind.Missions (Role)

/-! ## Evaluation and authority -/

/-- `PromptEvaluationSubject`, as far as the registry reads it. -/
structure Subject where
  candidateId : String
  role : String
  experimentId : String
  artifactDigest : String
  parentChampionDigest : Option String
  proposerId : String
  builderId : String
  evidenceRefs : List String
  contractFingerprint : String
  subjectDigest : String

namespace Subject

/-- What the payload of a decision has to say of the subject. -/
def expected (subject : Subject) : List (String × Json) := [
  ("candidate_id", .str subject.candidateId), ("role", .str subject.role),
  ("candidate_digest", .str subject.artifactDigest),
  ("current_digest", Runtime.optionalText subject.parentChampionDigest),
  ("registration_experiment_id", .str subject.experimentId),
  ("proposer_id", .str subject.proposerId), ("builder_id", .str subject.builderId),
  ("contract_fingerprint", .str subject.contractFingerprint),
  ("retained_artifact_refs", .arr (subject.evidenceRefs.map .str)),
  ("evaluation_subject_digest", .str subject.subjectDigest)]

def candidateBinding (subject : Subject) : Json := .mkObj [
  ("candidate_id", .str subject.candidateId), ("role", .str subject.role),
  ("experiment_id", .str subject.experimentId), ("artifact_digest", .str subject.artifactDigest),
  ("parent_champion_digest", Runtime.optionalText subject.parentChampionDigest),
  ("proposer_id", .str subject.proposerId), ("builder_id", .str subject.builderId),
  ("evidence_refs", .arr (subject.evidenceRefs.map .str))]

end Subject

/-- `VerifiedAuthorization`, as far as the registry reads it. -/
structure Authorization where
  authorizationDigest : String
  policyDigest : String
  nonceIds : List String

/-- The arguments of `verify_authorization`. -/
structure AuthorizationRequest where
  authorization : Json
  subjectDigest : String
  recordDigest : String
  builderId : String
  evaluatorId : Json
  judgeId : Json
  promoterId : String
  decisionDigest : String
  now : String

/-- The principal verifier of a registry. -/
structure Verifier where
  policyDigest : String
  verifyAuthorization : AuthorizationRequest → Except RegistryError Authorization
  signRejection : Record → Except RegistryError Record

/-- What the registry relies on: the readers of subjects and of references to evaluation records,
the resolution of the evidence that a decision refers to and its recheck, the verifier if there is
one, and the time of a verification that is not given one. -/
structure Outside where
  subject : Json → Except String Subject
  reference : Json → Except String Reference
  resolve : Subject → Reference → Json → Json → Except RegistryError Unit
  recheck : Subject → Reference → Except RegistryError Unit
  verifier : Option Verifier
  now : String

section Checks

variable [Hash256]

/-- `_verify_principals`. -/
def verifyPrincipals (verifier : Verifier) (payload : Json) (subject : Subject)
    (reference : Reference) (promotedBy now : String) : Except RegistryError Authorization := do
  if field payload "promoter_id" ≠ .str promotedBy ∨ promotedBy = subject.proposerId then
    throw (.refused "identity-mismatch" "promotion requires an explicit authenticated promoter")
  verifier.verifyAuthorization {
    authorization := field payload "authorization"
    subjectDigest := subject.subjectDigest
    recordDigest := reference.recordDigest
    builderId := subject.builderId
    evaluatorId := ← item payload "evaluator_id"
    judgeId := ← item payload "judge_id"
    promoterId := promotedBy
    decisionDigest := jsonDigest
      (.obj (((payload.asObj?).getD []).filter (·.1 ≠ "authorization")))
    now }

/-- The prompt that a subject names is there and is what its name says. -/
def checkArtifact (s : Registry) (digest : String) : Except RegistryError Unit := do
  match ← s.artifact digest with
  | none => throw .os
  | some none => throw (.value "invalid start byte")
  | some (some content) =>
    if content ≠ canonicalPrompt content ∨ promptDigest content ≠ digest then
      throw (.refused "artifact-mismatch"
        "registered prompt bytes do not match the bound artifact")

/-- `_resolve_event_evidence`. -/
def resolveEventEvidence (out : Outside) (s : Registry) (payload : Json) (promotedBy : String)
    (admittedAt : Option String) :
    Except RegistryError (Subject × Reference × Authorization) := do
  if !truthy (field payload "evaluation_subject") || !truthy (field payload "evaluation_record") then
    throw (.refused "evaluation-missing"
      "promotion requires an exact evaluation subject and record")
  let subject ← (out.subject (field payload "evaluation_subject")).mapError
    (.refused "evaluation-malformed")
  let reference ← (out.reference (field payload "evaluation_record")).mapError
    (.refused "evaluation-malformed")
  if subject.expected.any fun (name, value) ↦ field payload name ≠ value then
    throw (.refused "subject-mismatch" "evaluation subject does not match decision candidate")
  if field payload "decision_binding_digest" ≠ .str (jsonDigest subject.candidateBinding) then
    throw (.refused "decision-binding-mismatch" "candidate decision binding was substituted")
  out.resolve subject reference (← item payload "evaluator_id") (← item payload "verdict")
  match out.verifier with
  | none => throw (.refused "authority-unconfigured"
      "promotion requires a trusted principal verifier")
  | some verifier =>
    let authorization ← verifyPrincipals verifier payload subject reference promotedBy
      ((admittedAt.filter (· ≠ "")).getD out.now)
    out.recheck subject reference
    checkArtifact s subject.artifactDigest
    subject.parentChampionDigest.forM (checkArtifact s)
    return (subject, reference, authorization)

/-! ## Registrations and decisions -/

/-- Whether a record of the lineage of a prompt is the registration that a promotion is made from. -/
def isRegistration (role experimentId : String) (expectedCurrent : Option String)
    (promotedBy : String) (record : Record) : Bool :=
  record.get "kind" = .str "registration" && record.get "role" = .str role &&
    record.get "parent_digest" = Runtime.optionalText expectedCurrent &&
    (experimentId = "generation-0" && record.get "created_by" = .str promotedBy ||
      record.get "experiment_id" = .str experimentId)

omit [Hash256] in
/-- `_promotion_registration`. -/
def promotionRegistration (s : Registry) (role digest experimentId : String)
    (expectedCurrent : Option String) (promotedBy : String) : Except RegistryError Record := do
  let registrations := (← s.lineageOf digest).filter
    (isRegistration role experimentId expectedCurrent promotedBy)
  match registrations.getLast? with
  | none => throw (.runtime "promotion lacks a matching artifact registration")
  | some registration => return registration

/-- A text that is not blank. -/
def isIdentity : Json → Bool
  | .str text => isRequired text
  | _ => false

/-- The fields that `_validate_decision_event` expects in a payload. -/
def expectedFields (role digest experimentId : String) (expectedCurrent : Option String)
    (registration : Record) : List (String × Json) := [
  ("verdict", .str "keep"), ("action", .str "apply"), ("role", .str role),
  ("candidate_digest", .str digest), ("current_digest", Runtime.optionalText expectedCurrent),
  ("registration_experiment_id", .str experimentId), ("registration_role", .str role),
  ("registration_author", registration.get "created_by"),
  ("registration_parent_digest", Runtime.optionalText expectedCurrent)]

/-- `_validate_decision_event`, of the event that was found and its registration. -/
def validateDecision (role digest experimentId : String) (expectedCurrent : Option String)
    (registration : Record) (event : LedgerRow × Json) : Except RegistryError Unit := do
  let payload := event.2
  if event.1.runId ≠ experimentId ∨ event.1.eventType ≠ "experiment.decision" then
    throw (.runtime "promotion decision event has the wrong binding")
  if payload.asObj?.isNone then throw (.runtime "promotion decision payload is malformed")
  (expectedFields role digest experimentId expectedCurrent registration).forM fun (name, value) ↦ do
    if field payload name ≠ value then
      throw (.runtime ("promotion decision has mismatched " ++ name))
  if registration.get "experiment_id" ≠ .str experimentId ∨ registration.get "role" ≠ .str role ∨
      registration.get "parent_digest" ≠ Runtime.optionalText expectedCurrent then
    throw (.runtime "promotion registration is not experiment-bound")
  let identities := ["proposer_id", "builder_id", "evaluator_id", "judge_id"].map (field payload)
  if !identities.all isIdentity ∨ ¬identities.Nodup then
    throw (.runtime <| "promotion requires four distinct proposer, builder, evaluator, " ++
      "and judge identities")
  if .str event.1.actor ≠ field payload "judge_id" then
    throw (.runtime "promotion event actor must be the decision judge")
  if field payload "registration_author" ≠ field payload "proposer_id" then
    throw (.runtime "promotion proposer must be the registered artifact author")
  match field payload "retained_artifact_refs" with
  | .arr refs =>
    if refs.isEmpty ∨ ¬refs.Nodup ∨ !refs.all isIdentity then
      throw (.runtime "promotion decision requires retained artifact references")
  | _ => throw (.runtime "promotion decision requires retained artifact references")
  if !isIdentity (field payload "contract_fingerprint") then
    throw (.runtime "promotion decision requires a contract fingerprint")

/-- `_validate_decision_event`. -/
def validateDecisionEvent (s : Registry) (role digest experimentId : String)
    (expectedCurrent : Option String) (registration : Record) (sequence : Option Int) :
    Except RegistryError (LedgerRow × Json) := do
  match sequence.filter (1 ≤ ·) with
  | none => throw (.runtime
      "non-generation-zero promotion requires an experiment.decision event")
  | some sequence =>
    match (← s.ledgerEvents experimentId).filter (·.1.sequence = sequence) with
    | [event] =>
      validateDecision role digest experimentId expectedCurrent registration event
      return event
    | _ => throw (.runtime "promotion decision event sequence does not resolve")

/-! ## Committed admissions -/

omit [Hash256] in
/-- The file of an admission. -/
def admissionFile (s : Registry) (digest : String) : Except RegistryError AdmissionFile :=
  if !isDigest digest then
    throw (.value "prompt digest must be canonical sha256:<64 lowercase hex>")
  else
    match s.admissions.lookup digest with
    | none => throw .os
    | some file => return file

/-- The manifest of an admission, which is what its digest says. -/
def readManifest (s : Registry) (digest : String) : Except RegistryError Manifest := do
  match ← admissionFile s digest with
  | .other => throw (.refused "admission-mismatch" "unsupported admission schema or kind")
  | .manifest m isCanonical =>
    if jsonDigest m.document ≠ digest ∨ !isCanonical then
      throw (.refused "admission-mismatch" "admission manifest does not resolve")
    return m

/-- The payload of the event that prepares an admission. -/
def preparedPayload (digest : String) (m : Manifest) : Json :=
  .mkObj [("admission_digest", .str digest), ("manifest", m.document)]

def isPrepared (digest : String) (m : Manifest) (events : List (LedgerRow × Json)) : Bool :=
  events.any fun event ↦
    event.1.eventType = "prompt.promotion_prepared" && event.2 = preparedPayload digest m

/-- An event as the dict that its digest is computed of. -/
def eventDocument (event : LedgerRow × Json) : Json := .mkObj [
  ("sequence", .int event.1.sequence), ("run_id", .str event.1.runId),
  ("event_type", .str event.1.eventType), ("actor", .str event.1.actor), ("payload", event.2),
  ("created_at", .str event.1.createdAt),
  ("prev_digest", Runtime.optionalText event.1.prevDigest),
  ("row_digest", Runtime.optionalText event.1.rowDigest)]

/-- `_committed_manifest`, of an admission from generation zero. -/
def committedBootstrap (s : Registry) (digest : String) (m : BootstrapManifest)
    (pointers : Pointers) : Except RegistryError Unit := do
  let mismatch := RegistryError.refused "admission-mismatch" "bootstrap admission does not resolve"
  if pointers.bootstrapBindings.lookup m.role ≠ some digest ∨ m.parentDigest ≠ none ∨
      m.rollbackDigest ≠ none ∨ m.experimentId ≠ "generation-0" ∨
      m.decisionEventSequence ≠ none ∨ m.promoterId ∉ generationZeroPromoters then throw mismatch
  if (← s.read m.candidateDigest) ≠ generationZeroPrompt (← roleValue m.role) then throw mismatch
  if m.registration ∉ (← s.lineageOf m.candidateDigest) then throw mismatch
  if m.registration.get "kind" ≠ .str "registration" ∨
      m.registration.get "parent_digest" ≠ .null ∨ m.registration.get "role" ≠ .str m.role ∨
      m.registration.get "created_by" ≠ .str m.promoterId then throw mismatch
  if !isPrepared digest (.bootstrap m) (← s.ledgerEvents "generation-0") then throw mismatch

namespace PromotionManifest

/-- The authorization is the one that the promotion consumed. -/
def isAuthorized (m : PromotionManifest) (digest : String) (pointers : Pointers)
    (authorization : Authorization) : Bool :=
  authorization.authorizationDigest = m.authorizationDigest &&
    authorization.nonceIds = m.authorizationNonces &&
    authorization.nonceIds.all (pointers.consumedNonces.lookup · = some digest)

/-- The manifest says what the subject, the evaluation record and the decision say. -/
def isBound (m : PromotionManifest) (payload : Json) (subject : Subject) (reference : Reference) :
    Bool :=
  subject.subjectDigest = m.evaluationSubjectDigest && reference = m.evaluationRecord &&
    subject.artifactDigest = m.candidateDigest && subject.role = m.role &&
    subject.parentChampionDigest = m.parentDigest && subject.experimentId = m.experimentId &&
    subject.contractFingerprint = m.contractFingerprint && subject.evidenceRefs = m.artifactRefs &&
    m.rollbackDigest = m.parentDigest && field payload "evaluator_id" = .str m.evaluatorId &&
    field payload "judge_id" = .str m.judgeId

end PromotionManifest

/-- `_committed_manifest`, of a promotion. -/
def committedPromotion (out : Outside) (s : Registry) (digest : String) (m : PromotionManifest)
    (pointers : Pointers) : Except RegistryError Unit := do
  if pointers.consumedEvaluations.lookup m.evaluationRecord.recordDigest ≠ some digest then
    throw (.refused "admission-uncommitted" "preparation has no committed consumption")
  let events ← s.ledgerEvents m.experimentId
  if !isPrepared digest (.promotion m) events then
    throw (.refused "admission-unprepared" "committed admission has no preparation")
  match events.find? (·.1.sequence = m.decisionEventSequence) with
  | none => throw (.refused "decision-binding-mismatch" "admission decision does not resolve")
  | some event =>
    if jsonDigest (eventDocument event) ≠ m.decisionEventDigest then
      throw (.refused "decision-binding-mismatch" "admission decision does not resolve")
    if out.verifier.map (·.policyDigest) ≠ some m.authorityPolicyDigest then
      throw (.refused "authority-policy-mismatch"
        "committed admission requires its trusted policy")
    let registration ← promotionRegistration s m.role m.candidateDigest m.experimentId
      m.parentDigest m.promoterId
    let _ ← validateDecisionEvent s m.role m.candidateDigest m.experimentId m.parentDigest
      registration (some m.decisionEventSequence)
    let (subject, reference, authorization) ←
      resolveEventEvidence out s event.2 m.promoterId (some m.admittedAt)
    if !m.isAuthorized digest pointers authorization then
      throw (.refused "authorization-mismatch"
        "committed principal authorization does not resolve")
    if !m.isBound event.2 subject reference then
      throw (.refused "admission-mismatch" "admission cross-binding is invalid")

/-- `_committed_manifest`, of an admission that makes a champion: its role and its prompt. The
callers that need one refuse an adverse admission, whether or not it resolves. -/
def committedActivation (out : Outside) (s : Registry) (digest : String) (pointers : Pointers) :
    Except RegistryError (String × String) := do
  match ← readManifest s digest with
  | .promotion m =>
    committedPromotion out s digest m pointers
    return (m.role, m.candidateDigest)
  | .bootstrap m =>
    committedBootstrap s digest m pointers
    return (m.role, m.candidateDigest)
  | .adverse _ => throw (.refused "legacy-promotion-evidence-required"
      "champion pointer lacks a resolving promotion record; explicit migration required")

/-- `_bootstrap_promotion_resolves`. -/
def bootstrapPromotionResolves (s : Registry) (role : Role) (digest : String) :
    Except RegistryError Bool := do
  let promotions := (← s.lineageOf digest).filter fun record ↦
    record.get "kind" = .str "promotion" && record.get "role" = .str role.value
  promotions.reverse.anyM fun record ↦ do
    if record.get "experiment_id" ≠ .str "generation-0" ∨
        record.get "decision_event_sequence" ≠ .null then
      return false
    else if record.get "created_by" ∉ generationZeroPromoters.map Json.str ∨
        record.get "parent_digest" ≠ .null then
      return false
    else if (← s.read digest) ≠ generationZeroPrompt role then return false
    else
      let events ← s.ledgerEvents "generation-0"
      return events.any fun event ↦
        event.1.eventType = "prompt.promoted" && event.2 = record.dict.toJson

/-- `_champion_promotion_resolves`. -/
def championPromotionResolves (out : Outside) (s : Registry) (role : Role) (digest : String) :
    Except RegistryError Bool := do
  s.ensureKnownCommit
  let pointers ← s.readPointers
  match pointers.promotionBindings.lookup role.value with
  | some binding =>
    let activation ← committedActivation out s binding pointers
    return activation = (role.value, digest)
  | none => bootstrapPromotionResolves s role digest

/-- `champion_digest`. -/
def championDigest (out : Outside) (s : Registry) (role : String) :
    Except RegistryError (Option String) := do
  let role ← roleValue role
  s.ensureKnownCommit
  let pointers ← s.readPointers
  match pointers.champions.lookup role.value with
  | none => return none
  | some digest =>
    if (← s.artifact digest).isNone then
      throw (.runtime "champion pointer does not resolve to an artifact")
    if !(← championPromotionResolves out s role digest) then
      throw (.refused "legacy-promotion-evidence-required"
        "champion pointer lacks a resolving promotion record; explicit migration required")
    return some digest

end Checks

end HiveMind.Prompts
