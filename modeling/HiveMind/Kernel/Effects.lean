import HiveMind.Kernel.Authority
import HiveMind.Lib.Sha256Window

/-!
# Effects

An effect is asked for by an `EffectIntent` and accounted for by an `EffectReceipt`. Before anything
is delivered, `validateCapabilityToken` binds a token to the intent and asks the registry whether it
still issues that token.
-/

open Std (ExtTreeMap)
open Raise

namespace HiveMind

/-! ## Intents -/

structure EffectIntent where
  missionId : String
  workId : String
  attemptId : String
  actorId : String
  role : String
  action : String
  riskTier : String
  targetAdapter : String
  target : String
  parametersDigest : String
  idempotencyKey : String
  authorityEnvelopeDigest : String
  expectedPreconditions : List String
  rollbackDescription : String
  policyDecisionRef : String
  intentDigest : String
  valid : isIdentifier .mission missionId ∧ isIdentifier .work workId ∧
    isIdentifier .attempt attemptId ∧ isRequired actorId ∧ isRole role ∧ isRequired action ∧
    isRequired targetAdapter ∧ isRequired target ∧ isRequired rollbackDescription ∧
    isRequired policyDecisionRef ∧ normalizePortablePath target = .ok target ∧
    isDigest parametersDigest ∧ isDigest idempotencyKey ∧ isDigest authorityEnvelopeDigest ∧
    isDigest intentDigest

namespace EffectIntent

/-- `to_document` without the member that holds the seal. -/
def sealedMembers (i : EffectIntent) : List (String × PyValue) := [
  ("mission_id", .str i.missionId),
  ("work_id", .str i.workId),
  ("attempt_id", .str i.attemptId),
  ("actor_id", .str i.actorId),
  ("role", .str i.role),
  ("action", .str i.action),
  ("risk_tier", .str i.riskTier),
  ("target_adapter", .str i.targetAdapter),
  ("target", .str i.target),
  ("parameters_digest", .str i.parametersDigest),
  ("idempotency_key", .str i.idempotencyKey),
  ("authority_envelope_digest", .str i.authorityEnvelopeDigest),
  ("expected_preconditions", .list (i.expectedPreconditions.map .str)),
  ("rollback_description", .str i.rollbackDescription),
  ("policy_decision_ref", .str i.policyDecisionRef)]

/-- `to_document`. -/
def toDocument (i : EffectIntent) : List (String × PyValue) :=
  i.sealedMembers ++ [("intent_digest", .str i.intentDigest)]

/-- `replace(intent, intent_digest=…)`. -/
def withDigest (i : EffectIntent) (digest : String) (h : isDigest digest = true) : EffectIntent :=
  { i with
    intentDigest := digest
    valid := by
      obtain ⟨h₁, h₂, h₃, h₄, h₅, h₆, h₇, h₈, h₉, h₁₀, h₁₁, h₁₂, h₁₃, h₁₄, -⟩ := i.valid
      exact ⟨h₁, h₂, h₃, h₄, h₅, h₆, h₇, h₈, h₉, h₁₀, h₁₁, h₁₂, h₁₃, h₁₄, h⟩ }

end EffectIntent

section Seal

variable [Hash256]

/-- `intent_seal`. -/
def intentSeal (i : EffectIntent) : Except Exc String := canonicalDigest (.dict i.sealedMembers)

omit [Hash256] in
/-- The members of the document of an intent can all be written. -/
theorem exists_plainItems_sealedMembers (i : EffectIntent) :
    ∃ ms, PyValue.plainItems i.sealedMembers = .ok ms := by
  simp only [EffectIntent.sealedMembers, PyValue.plainItems, PyValue.plain, plainList_str,
    Except.map, Except.ok.injEq, exists_eq']

omit [Hash256] in
theorem exists_canonicalBytes_toDocument (i : EffectIntent) :
    ∃ text, canonicalBytes (.dict i.toDocument) = .ok text := by
  simp only [canonicalBytes, EffectIntent.toDocument, EffectIntent.sealedMembers,
    List.cons_append, List.nil_append, PyValue.plain, PyValue.plainItems, plainList_str,
    Except.map, Except.ok.injEq, exists_eq']

theorem exists_intentSeal (i : EffectIntent) :
    ∃ digest, intentSeal i = .ok digest ∧ isDigest digest = true := by
  obtain ⟨ms, hms⟩ := exists_plainItems_sealedMembers i
  refine ⟨jsonDigest (Json.mkObj ms), ?_, isDigest_jsonDigest _⟩
  rw [intentSeal, canonicalDigest, PyValue.plain, hms]
  rfl

/-- `sealed_intent`. -/
def sealedIntent (i : EffectIntent) : Except Exc EffectIntent := do
  let digest ← intentSeal i
  if h : isDigest digest then return i.withDigest digest h
  else throw (valueError "digest must be lowercase sha256:<64 hex>")

/-- Sealing an intent gives it the digest that the seal asks for. -/
theorem exists_sealedIntent (i : EffectIntent) :
    ∃ digest, ∃ h : isDigest digest = true, intentSeal i = .ok digest ∧
      sealedIntent i = .ok (i.withDigest digest h) := by
  obtain ⟨digest, hseal, hdigest⟩ := exists_intentSeal i
  refine ⟨digest, hdigest, hseal, ?_⟩
  rw [sealedIntent, bind_eq_ok]
  refine ⟨digest, hseal, ?_⟩
  rw [dif_pos hdigest, pure_eq_ok]

end Seal

/-! ## Receipts -/

/-- A receipt. Its constructor does not look at the produced identifiers. -/
structure EffectReceipt where
  intentDigest : String
  startedAt : String
  endedAt : String
  adapterIdentity : String
  adapterVersion : String
  observedPreconditionDigest : String
  status : String
  stdoutDigest : Option String
  stderrDigest : Option String
  producedIdentifiers : PyValue
  postconditionDigest : String
  retryOf : Option String
  rollbackReceipt : Option String
  valid : isDigest intentDigest ∧ isDigest observedPreconditionDigest ∧
    isDigest postconditionDigest ∧ isTime startedAt ∧ isTime endedAt ∧
    isRequired adapterIdentity ∧ isRequired adapterVersion ∧
    status ∈ ["SUCCEEDED", "FAILED", "ABSTAINED"] ∧
    ∀ digest? ∈ [stdoutDigest, stderrDigest, retryOf, rollbackReceipt], ∀ d ∈ digest?, isDigest d

def PyValue.ofOption : Option String → PyValue
  | Option.some s => .str s
  | Option.none => .none

/-- `to_document`, before it is made plain. -/
def EffectReceipt.toDocument (r : EffectReceipt) : List (String × PyValue) := [
  ("intent_digest", .str r.intentDigest),
  ("started_at", .str r.startedAt),
  ("ended_at", .str r.endedAt),
  ("adapter_identity", .str r.adapterIdentity),
  ("adapter_version", .str r.adapterVersion),
  ("observed_precondition_digest", .str r.observedPreconditionDigest),
  ("status", .str r.status),
  ("stdout_digest", .ofOption r.stdoutDigest),
  ("stderr_digest", .ofOption r.stderrDigest),
  ("produced_identifiers", r.producedIdentifiers),
  ("postcondition_digest", .str r.postconditionDigest),
  ("retry_of", .ofOption r.retryOf),
  ("rollback_receipt", .ofOption r.rollbackReceipt)]

def digestError (label : String) : Exc :=
  valueError (label ++ " must be lowercase sha256:<64 hex>")

def timeError (label : String) : Exc := valueError (label ++ " must be an RFC 3339 time")

def requiredError (label : String) : Exc := valueError (label ++ " is required")

/-- The first of some checks that fails decides which exception is raised. -/
def firstFailure : List (Bool × Exc) → Option Exc
  | [] => none
  | (passed, e) :: checks => if passed then firstFailure checks else some e

def isOptionalDigest : Option String → Bool
  | some d => isDigest d
  | none => true

/-- The constructor with its checks, in their order. -/
def EffectReceipt.make (intentDigest startedAt endedAt adapterIdentity adapterVersion
    observedPreconditionDigest status : String) (stdoutDigest stderrDigest : Option String)
    (producedIdentifiers : PyValue) (postconditionDigest : String)
    (retryOf rollbackReceipt : Option String) : Except Exc EffectReceipt :=
  if valid : isDigest intentDigest ∧ isDigest observedPreconditionDigest ∧
      isDigest postconditionDigest ∧ isTime startedAt ∧ isTime endedAt ∧
      isRequired adapterIdentity ∧ isRequired adapterVersion ∧
      status ∈ ["SUCCEEDED", "FAILED", "ABSTAINED"] ∧
      ∀ digest? ∈ [stdoutDigest, stderrDigest, retryOf, rollbackReceipt], ∀ d ∈ digest?, isDigest d
  then .ok ⟨intentDigest, startedAt, endedAt, adapterIdentity, adapterVersion,
    observedPreconditionDigest, status, stdoutDigest, stderrDigest, producedIdentifiers,
    postconditionDigest, retryOf, rollbackReceipt, valid⟩
  else .error ((firstFailure [
    (isDigest intentDigest, digestError "intent_digest"),
    (isDigest observedPreconditionDigest, digestError "observed_precondition_digest"),
    (isDigest postconditionDigest, digestError "postcondition_digest"),
    (isTime startedAt, timeError "started_at"),
    (isTime endedAt, timeError "ended_at"),
    (isRequired adapterIdentity, requiredError "adapter_identity"),
    (isRequired adapterVersion, requiredError "adapter_version"),
    (["SUCCEEDED", "FAILED", "ABSTAINED"].contains status, valueError "invalid receipt status")]
    ).getD (digestError "digest"))

section Receipt

variable [Hash256]

/-- `or` of an optional text and a default: an empty text counts as absent. -/
def orElse (value : Option String) (default : String) : String :=
  match value with
  | some s => if s = "" then default else s
  | none => default

/-- `build_effect_receipt`. -/
def buildEffectReceipt (intent : EffectIntent)
    (adapterIdentity adapterVersion startedAt endedAt status : String)
    (producedIdentifiers : List String)
    (observedPreconditionDigest postconditionDigest retryOf rollbackReceipt : Option String) :
    Except Exc EffectReceipt :=
  EffectReceipt.make intent.intentDigest startedAt endedAt adapterIdentity adapterVersion
    (orElse observedPreconditionDigest (jsonDigest (Json.ofStrings intent.expectedPreconditions)))
    status none none (.tuple (producedIdentifiers.map .str))
    (orElse postconditionDigest
      (jsonDigest (.obj [("intent", .str intent.intentDigest), ("status", .str status)])))
    retryOf rollbackReceipt

end Receipt

/-! ## The boundary -/

section Boundary

variable [Hash256] {key : String}

/-- `validate_capability_token`. The system time stands in for a time that was given as an empty
text. -/
def validateCapabilityToken (intent : EffectIntent) (token : CapabilityToken key)
    (authority : Option AuthorityRegistry) (now systemTime : String) (networkHosts : List String) :
    Except Exc Unit := do
  if token.tokenDigest ≠ tokenDigest token.envelopeDigest token.action token.target ∨
      token.envelopeDigest ≠ intent.authorityEnvelopeDigest ∨ token.action ≠ intent.action ∨
      token.target ≠ intent.target then
    throw (authorityDenied "capability token does not bind this intent")
  let sealDigest ← intentSeal intent
  if intent.intentDigest ≠ sealDigest then
    throw (authorityDenied "intent digest does not seal this intent")
  match authority with
  | none => throw (authorityDenied "effect execution requires an authority-bound gateway")
  | some registry => do
    let issued ← registry.authorize key token.envelopeDigest token.action token.target
      (if now = "" then systemTime else now)
    if issued ≠ token then
      throw (authorityDenied "capability token was not issued by this authority")
    if networkHosts ≠ [] then
      let envelope ← registry.envelope token.envelopeDigest
      let outside := (networkHosts.filter (· ∉ envelope.networkAllowlist)).dedup.mergeSort
      if outside ≠ [] then
        throw (authorityDenied ("effect reaches a host outside the network allowlist: " ++
          ", ".intercalate outside))

variable {intent : EffectIntent} {token : CapabilityToken key} {authority : Option AuthorityRegistry}
  {now systemTime : String} {networkHosts : List String}

/-- The parts of a validation that passes. -/
theorem validateCapabilityToken_eq_ok :
    validateCapabilityToken intent token authority now systemTime networkHosts = .ok () ↔
      (token.tokenDigest = tokenDigest token.envelopeDigest token.action token.target ∧
        token.envelopeDigest = intent.authorityEnvelopeDigest ∧ token.action = intent.action ∧
        token.target = intent.target) ∧
      intentSeal intent = .ok intent.intentDigest ∧
      ∃ registry, authority = some registry ∧
        registry.authorize key token.envelopeDigest token.action token.target
          (if now = "" then systemTime else now) = .ok token ∧
        (networkHosts ≠ [] → ∃ envelope, registry.envelope token.envelopeDigest = .ok envelope ∧
          ∀ host ∈ networkHosts, host ∈ envelope.networkAllowlist) := by
  have houtside : ∀ allowlist : List String,
      (networkHosts.filter (· ∉ allowlist)).dedup.mergeSort = [] ↔
        ∀ host ∈ networkHosts, host ∈ allowlist := by
    intro allowlist
    rw [← List.length_eq_zero_iff, List.length_mergeSort, List.length_eq_zero_iff,
      List.dedup_eq_nil, List.filter_eq_nil_iff]
    simp
  simp only [validateCapabilityToken, guard_eq_ok, bind_eq_ok, not_or, not_not]
  refine and_congr_right fun hbinds ↦ ?_
  constructor
  · rintro ⟨digest, hseal, hdigest, h⟩
    refine ⟨hdigest ▸ hseal, ?_⟩
    cases authority with
    | none => exact nomatch h
    | some registry =>
      simp only [guard_eq_ok, bind_eq_ok, not_not] at h
      obtain ⟨issued, hissued, rfl, h⟩ := h
      refine ⟨registry, rfl, hissued, fun hhosts ↦ ?_⟩
      rw [if_pos hhosts] at h
      simp only [bind_eq_ok] at h
      obtain ⟨envelope, henvelope, h⟩ := h
      refine ⟨envelope, henvelope, (houtside _).mp ?_⟩
      by_contra hne
      rw [if_pos hne] at h
      exact nomatch h
  · rintro ⟨hseal, registry, rfl, hissued, hhosts⟩
    refine ⟨_, hseal, rfl, ?_⟩
    simp only [guard_eq_ok, bind_eq_ok, not_not]
    refine ⟨token, hissued, rfl, ?_⟩
    split
    · next hne =>
      obtain ⟨envelope, henvelope, hall⟩ := hhosts hne
      rw [henvelope, ok_bind, if_neg (not_not.mpr ((houtside _).mpr hall))]
      rfl
    · rfl

/-- A registry that knows an envelope issues a token for a sealed intent that the envelope grants,
and the boundary accepts it. -/
theorem exists_token {registry : AuthorityRegistry} {envelope : ConstraintEnvelope} (key : String)
    (intent : EffectIntent)
    (hknown : registry.envelope intent.authorityEnvelopeDigest = .ok envelope)
    (hgrants : AuthorityRegistry.Grants envelope intent.action intent.target now)
    (hseal : intentSeal intent = .ok intent.intentDigest) (hnow : now ≠ "") :
    ∃ token : CapabilityToken key,
      ∀ systemTime, validateCapabilityToken intent token (some registry) now systemTime [] =
        .ok () := by
  obtain ⟨-, -, -, -, -, -, -, -, -, -, hpath, -⟩ := intent.valid
  refine ⟨⟨intent.authorityEnvelopeDigest, intent.action, intent.target,
    tokenDigest intent.authorityEnvelopeDigest intent.action intent.target,
    issuanceWitness key intent.authorityEnvelopeDigest intent.action intent.target, rfl⟩,
    fun systemTime ↦ validateCapabilityToken_eq_ok.mpr
      ⟨⟨rfl, rfl, rfl, rfl⟩, hseal, registry, rfl, ?_, fun h ↦ absurd rfl h⟩⟩
  rw [if_neg hnow]
  exact AuthorityRegistry.authorize_eq_ok.mpr ⟨envelope, intent.target, hknown, hpath, hgrants, rfl⟩

end Boundary

/-! ## A sample -/

section Sample

variable [Hash256]

def sampleTime : String := "2029-01-01T00:00:00Z"

/-- A root that grants writing below one directory. -/
def sampleEnvelope : ConstraintEnvelope where
  envelopeId := "AUTH-1"
  missionId := "MISSION-1"
  workId := "WORK-1"
  parentEnvelopeDigest := none
  actorRole := "builder"
  riskTier := "R1"
  allowedActions := ["write"]
  deniedActions := []
  pathReadScope := []
  pathWriteScope := ["out"]
  networkAllowlist := []
  dataScopes := []
  secretScopes := []
  humanGates := []
  budgets := ⟨0, 0, 0, 0, 0, 0, 0, 0⟩
  expiresAt := "2030-01-01T00:00:00Z"
  policyFingerprint := "sha256:0000000000000000000000000000000000000000000000000000000000000000"
  digestValue := "sha256:0000000000000000000000000000000000000000000000000000000000000000"
  valid := by decide +kernel

/-- An intent under the root, not sealed yet. -/
def sampleIntent (rollback : String) (h : isRequired rollback = true) : EffectIntent where
  missionId := "MISSION-1"
  workId := "WORK-1"
  attemptId := "ATTEMPT-1"
  actorId := "builder"
  role := "builder"
  action := "write"
  riskTier := "R1"
  targetAdapter := "files"
  target := "out"
  parametersDigest := "sha256:0000000000000000000000000000000000000000000000000000000000000000"
  idempotencyKey := "sha256:1111111111111111111111111111111111111111111111111111111111111111"
  authorityEnvelopeDigest := sampleEnvelope.contentDigest
  expectedPreconditions := []
  rollbackDescription := rollback
  policyDecisionRef := "POLICY-1"
  intentDigest := "sha256:0000000000000000000000000000000000000000000000000000000000000000"
  valid := ⟨by decide +kernel, by decide +kernel, by decide +kernel, by decide +kernel,
    by decide +kernel, by decide +kernel, by decide +kernel, by decide +kernel, h,
    by decide +kernel, by decide +kernel, by decide +kernel, by decide +kernel,
    isDigest_jsonDigest _, by decide +kernel⟩

omit [Hash256] in
theorem grants_sampleEnvelope :
    AuthorityRegistry.Grants sampleEnvelope "write" "out" sampleTime where
  live := ⟨_, _, rfl, rfl, by decide⟩
  allowed := by decide
  notDenied := by decide
  inScope := by decide

/-- The sample intent is sealed, the root minted and a token issued, and the boundary accepts it. -/
theorem exists_sample (key rollback : String) (h : isRequired rollback = true) :
    ∃ (intent : EffectIntent) (registry : AuthorityRegistry) (token : CapabilityToken key),
      intentSeal (sampleIntent rollback h) = .ok intent.intentDigest ∧
      intent.idempotencyKey = (sampleIntent rollback h).idempotencyKey ∧
      intent.targetAdapter = "files" ∧
      ∀ systemTime, validateCapabilityToken intent token (some registry) sampleTime systemTime [] =
        .ok () := by
  obtain ⟨registry, -, henvelopes, hrevoked, hauthorities⟩ :=
    AuthorityRegistry.exists_mintRoot (show emptyRegistry.revoked = [] from rfl) rfl
      sampleEnvelope "owner" "REF-1" sampleTime rfl (by decide) (by decide) (by decide)
  have hknown : registry.envelope sampleEnvelope.contentDigest = .ok sampleEnvelope.sealed := by
    refine AuthorityRegistry.envelope_eq_ok.mpr
      ⟨?_, AuthorityRegistry.isRevoked_eq_false hrevoked hauthorities _⟩
    rw [henvelopes]
    exact Std.ExtTreeMap.getElem?_insert_self
  obtain ⟨digest, hdigest, hseal, -⟩ := exists_sealedIntent (sampleIntent rollback h)
  obtain ⟨token, htoken⟩ := exists_token key ((sampleIntent rollback h).withDigest digest hdigest)
    hknown grants_sampleEnvelope.sealed hseal (by decide)
  exact ⟨(sampleIntent rollback h).withDigest digest hdigest, registry, token, hseal, rfl, rfl,
    htoken⟩

end Sample

theorem contentDigest_sampleEnvelope : sampleEnvelope.contentDigest =
    "sha256:6e4b36ceba770a07363b103e2fa81b12ef09b09538ba72944769edbe6d162dcd" := by
  rw [instHash256_eq]
  decide +kernel

end HiveMind
