import HiveMind.Lib.Raise
import HiveMind.Lib.Walk
import HiveMind.Kernel.Documents

/-!
# Authority envelopes and capability tokens

A registry holds the envelopes that were admitted to it. An envelope is admitted under the digest
of its contents, and a capability token is what `authorize` issues for an action on a target that
an envelope covers. The registry is the live state behind a token: what it no longer issues, the
effect boundary no longer accepts.

The issuance key of the process is a parameter. A token carries the seal that is made with the key,
so that a token of another origin cannot be built.
-/

open Std (ExtTreeMap)
open Raise

namespace HiveMind

/-! ## Envelopes -/

/-- Every limit is at most the other one's. -/
def Budget.isWithin (b limit : Budget) : Bool :=
  b.maxWallSeconds ≤ limit.maxWallSeconds && b.maxModelCalls ≤ limit.maxModelCalls &&
    b.maxInputTokens ≤ limit.maxInputTokens && b.maxOutputTokens ≤ limit.maxOutputTokens &&
    b.maxCostMicrounits ≤ limit.maxCostMicrounits && b.maxToolCalls ≤ limit.maxToolCalls &&
    b.maxWorkItems ≤ limit.maxWorkItems && b.maxDepth ≤ limit.maxDepth

structure ConstraintEnvelope where
  envelopeId : String
  missionId : String
  workId : String
  parentEnvelopeDigest : Option String
  actorRole : String
  riskTier : String
  allowedActions : List String
  deniedActions : List String
  pathReadScope : List String
  pathWriteScope : List String
  networkAllowlist : List String
  dataScopes : List String
  secretScopes : List String
  humanGates : List String
  budgets : Budget
  expiresAt : String
  policyFingerprint : String
  digestValue : String
  valid : isIdentifier .authority envelopeId ∧ isIdentifier .mission missionId ∧
    isIdentifier .work workId ∧ (∀ d ∈ parentEnvelopeDigest, isDigest d) ∧ isRole actorRole ∧
    riskTier ∈ ["R0", "R1", "R2", "R3", "R4"] ∧
    (∀ p ∈ pathReadScope, normalizePortablePath p = .ok p) ∧
    (∀ p ∈ pathWriteScope, normalizePortablePath p = .ok p) ∧ isTime expiresAt ∧
    isDigest policyFingerprint ∧ isDigest digestValue
  deriving DecidableEq

namespace ConstraintEnvelope

/-- The document without the members that identify the envelope, in name order. -/
def authorityDocument (e : ConstraintEnvelope) : Json := .obj [
  ("actor_role", .str e.actorRole),
  ("allowed_actions", Json.ofStrings e.allowedActions),
  ("budgets", e.budgets.toJson),
  ("data_scopes", Json.ofStrings e.dataScopes),
  ("denied_actions", Json.ofStrings e.deniedActions),
  ("expires_at", .str e.expiresAt),
  ("human_gates", Json.ofStrings e.humanGates),
  ("mission_id", .str e.missionId),
  ("network_allowlist", Json.ofStrings e.networkAllowlist),
  ("path_read_scope", Json.ofStrings e.pathReadScope),
  ("path_write_scope", Json.ofStrings e.pathWriteScope),
  ("policy_fingerprint", .str e.policyFingerprint),
  ("risk_tier", .str e.riskTier),
  ("secret_scopes", Json.ofStrings e.secretScopes),
  ("work_id", .str e.workId)]

/-- The document without the seal, in name order. -/
def contentDocument (e : ConstraintEnvelope) : Json := .obj [
  ("actor_role", .str e.actorRole),
  ("allowed_actions", Json.ofStrings e.allowedActions),
  ("budgets", e.budgets.toJson),
  ("data_scopes", Json.ofStrings e.dataScopes),
  ("denied_actions", Json.ofStrings e.deniedActions),
  ("envelope_id", .str e.envelopeId),
  ("expires_at", .str e.expiresAt),
  ("human_gates", Json.ofStrings e.humanGates),
  ("mission_id", .str e.missionId),
  ("network_allowlist", Json.ofStrings e.networkAllowlist),
  ("parent_envelope_digest", match e.parentEnvelopeDigest with
    | some digest => .str digest
    | none => .null),
  ("path_read_scope", Json.ofStrings e.pathReadScope),
  ("path_write_scope", Json.ofStrings e.pathWriteScope),
  ("policy_fingerprint", .str e.policyFingerprint),
  ("risk_tier", .str e.riskTier),
  ("secret_scopes", Json.ofStrings e.secretScopes),
  ("work_id", .str e.workId)]

/-- `is_no_broader_than`. The times of envelopes are times. -/
def isNoBroaderThan (e parent : ConstraintEnvelope) : Bool :=
  e.allowedActions.all parent.allowedActions.contains &&
    parent.deniedActions.all e.deniedActions.contains &&
    e.pathReadScope.all parent.pathReadScope.contains &&
    e.pathWriteScope.all parent.pathWriteScope.contains &&
    e.networkAllowlist.all parent.networkAllowlist.contains &&
    e.dataScopes.all parent.dataScopes.contains &&
    e.secretScopes.all parent.secretScopes.contains &&
    parent.humanGates.all e.humanGates.contains &&
    decide ((instantOf e.expiresAt).getD 0 ≤ (instantOf parent.expiresAt).getD 0) &&
    e.budgets.isWithin parent.budgets

variable [Hash256]

/-- `content_digest`. -/
def contentDigest (e : ConstraintEnvelope) : String := jsonDigest e.contentDocument

/-- `authority_key`. -/
def authorityKey (e : ConstraintEnvelope) : String := jsonDigest e.authorityDocument

/-- `sealed`. -/
def sealed (e : ConstraintEnvelope) : ConstraintEnvelope :=
  { e with
    digestValue := e.contentDigest
    valid := by
      obtain ⟨h₁, h₂, h₃, h₄, h₅, h₆, h₇, h₈, h₉, h₁₀, -⟩ := e.valid
      exact ⟨h₁, h₂, h₃, h₄, h₅, h₆, h₇, h₈, h₉, h₁₀, isDigest_jsonDigest _⟩ }

end ConstraintEnvelope

/-! ## Tokens -/

section Token

variable [Hash256]

/-- `_issuance_witness`, with the issuance key of the process. -/
def issuanceWitness (key envelopeDigest action target : String) : String :=
  jsonDigest (.obj [("action", .str action), ("envelope", .str envelopeDigest),
    ("issuance_key", .str key), ("target", .str target)])

/-- The digest that binds a token to its envelope, action and target. -/
def tokenDigest (envelopeDigest action target : String) : String :=
  jsonDigest (.obj [("action", .str action), ("envelope", .str envelopeDigest),
    ("target", .str target)])

/-- A token that was issued in a process with the given key. -/
structure CapabilityToken (key : String) where
  envelopeDigest : String
  action : String
  target : String
  tokenDigest : String
  issuanceWitness : String
  issued : issuanceWitness = HiveMind.issuanceWitness key envelopeDigest action target
  deriving DecidableEq

end Token

/-! ## External roots -/

/-- The text is more than blanks and is a time with an offset: `_rfc3339`. -/
def rfc3339 (value label : String) : Except Exc Int :=
  match instantOf value with
  | some moment => .ok moment
  | none => .error (authorityDenied (label ++ " requires an RFC 3339 time"))

section External

variable [Hash256]

/-- The claims that an attestation seals. -/
def attestationPayload (envelopeDigest issuer authorityRef issuedAt expiresAt : String) : Json :=
  .obj [("authority_ref", .str authorityRef), ("envelope", .str envelopeDigest),
    ("expires_at", .str expiresAt), ("issued_at", .str issuedAt), ("issuer", .str issuer)]

/-- A statement of the owner of a root, sealed. -/
structure ExternalRootAttestation where
  envelopeDigest : String
  issuer : String
  authorityRef : String
  issuedAt : String
  expiresAt : String
  attestationDigest : String
  valid : envelopeDigest ≠ "" ∧ isRequired issuer ∧ isRequired authorityRef ∧
    (∃ issued expires, instantOf issuedAt = some issued ∧ instantOf expiresAt = some expires ∧
      issued < expires) ∧
    attestationDigest = jsonDigest (attestationPayload envelopeDigest issuer authorityRef issuedAt
      expiresAt)

/-- The decision of a verifier, sealed. -/
structure ExternalRootVerification where
  attestationDigest : String
  verifierId : String
  receiptRef : String
  verifiedAt : String
  accepted : Bool
  verificationDigest : String
  valid : attestationDigest ≠ "" ∧ isRequired verifierId ∧ isRequired receiptRef ∧
    isTime verifiedAt ∧ verificationDigest = jsonDigest (.obj [("accepted", .bool accepted),
      ("attestation", .str attestationDigest), ("receipt_ref", .str receiptRef),
      ("verified_at", .str verifiedAt), ("verifier", .str verifierId)])

/-- What a verifier can do with an attestation: raise, return something else, or decide. -/
inductive VerifierOutcome where
  | raised (errorType : String)
  | other
  | verification (verification : ExternalRootVerification)

/-- A verifier as a registry sees it: an identity, if it has a textual one, and an answer, if it can
be asked. -/
structure ExternalRootVerifier where
  verifierId : Option String
  verify : Option VerifierOutcome

end External

/-! ## The registry -/

structure RootProvenance where
  envelopeDigest : String
  issuer : String
  authorityRef : String
  recordedAt : String
  recordDigest : String
  deriving DecidableEq

structure AuthorityRegistry where
  envelopes : ExtTreeMap String ConstraintEnvelope
  roots : ExtTreeMap String RootProvenance
  externalRoots : ExtTreeMap String (String × String)
  revoked : List String
  revokedAuthorities : List String

def emptyRegistry : AuthorityRegistry := ⟨∅, ∅, ∅, [], []⟩

def readActions : List String := ["read"]

namespace AuthorityRegistry

variable [Hash256]

/-- The admitted envelope that an envelope names as its parent. -/
def parentOf (registry : AuthorityRegistry) (envelope : ConstraintEnvelope) :
    Option ConstraintEnvelope :=
  envelope.parentEnvelopeDigest.bind (registry.envelopes[·]?)

/-- The envelope itself, or what it grants, is revoked. -/
def isMarked (registry : AuthorityRegistry) (envelope : ConstraintEnvelope) : Bool :=
  registry.revoked.contains envelope.digestValue ||
    registry.revokedAuthorities.contains envelope.authorityKey

/-- `_is_revoked`, which follows the parents of an envelope until it meets one again. Every round
sees another digest, and but for the first one these are digests of admitted envelopes. -/
def isRevoked (registry : AuthorityRegistry) (envelope : ConstraintEnvelope) : Bool :=
  Walk.guarded registry.parentOf registry.isMarked ConstraintEnvelope.digestValue
    (registry.envelopes.size + 2) [] envelope

/-- `_admit`. -/
def admitEnvelope (registry : AuthorityRegistry) (envelope : ConstraintEnvelope) :
    Except Exc AuthorityRegistry := do
  if envelope.digestValue ≠ envelope.contentDigest then
    throw (authorityDenied "envelope digest does not seal its contents")
  if registry.isRevoked envelope then throw (authorityDenied "authority is revoked")
  return { registry with envelopes := registry.envelopes.insert envelope.digestValue envelope }

/-- The record of an admitted root. -/
def provenance (envelope : ConstraintEnvelope) (issuer authorityRef recordedAt : String) :
    RootProvenance :=
  ⟨envelope.digestValue, issuer, authorityRef, recordedAt,
    jsonDigest (.obj [("authority_ref", .str authorityRef), ("envelope", .str envelope.digestValue),
      ("issuer", .str issuer), ("recorded_at", .str recordedAt)])⟩

/-- `mint_root`. -/
def mintRoot (registry : AuthorityRegistry) (envelope : ConstraintEnvelope)
    (issuer authorityRef recordedAt : String) : Except Exc AuthorityRegistry := do
  if envelope.parentEnvelopeDigest.isSome then
    throw (authorityDenied "root authority must not declare a parent")
  if !isRequired issuer then
    throw (authorityDenied "root authority requires a recorded issuer")
  if !isRequired authorityRef then
    throw (authorityDenied "root authority requires a recorded authority reference")
  if !isTime recordedAt then
    throw (authorityDenied "root provenance requires an RFC 3339 time")
  let registry ← registry.admitEnvelope envelope
  return { registry with
    roots := registry.roots.insert envelope.digestValue
      (provenance envelope issuer authorityRef recordedAt) }

/-- What a verifier has to say for its decision to count. -/
def verifiedBy (verifier : ExternalRootVerifier) (attestation : ExternalRootAttestation) :
    Except Exc ExternalRootVerification :=
  match verifier.verifierId, verifier.verify with
  | some verifierId, some outcome =>
    if !isRequired verifierId then
      .error (authorityDenied "external root requires a configured verifier")
    else match outcome with
      | .raised errorType =>
        .error (authorityDenied ("external root verifier failed closed: " ++ errorType))
      | .other => .error (authorityDenied "external root verifier returned no sealed verification")
      | .verification verification =>
        if verification.attestationDigest ≠ attestation.attestationDigest ∨
            verification.verifierId ≠ verifierId ∨ verification.accepted = false then
          .error (authorityDenied "external root verification does not accept this attestation")
        else .ok verification
  | _, _ => .error (authorityDenied "external root requires a configured verifier")

/-- The text has no blanks at its ends: `value == value.strip()`. -/
def isStripped (value : String) : Bool :=
  !(value.toList.head?.any isSpace) && !(value.toList.getLast?.any isSpace)

/-- `admit_external_root`. The evidence is kept as the digests that identify it. -/
def admitExternalRoot (registry : AuthorityRegistry) (envelope : ConstraintEnvelope)
    (attestation : ExternalRootAttestation) (verifier : ExternalRootVerifier) :
    Except Exc AuthorityRegistry := do
  if envelope.parentEnvelopeDigest.isSome then
    throw (authorityDenied "external root authority must not declare a parent")
  if attestation.envelopeDigest ≠ envelope.digestValue ∨ !isStripped attestation.issuer ∨
      !isStripped attestation.authorityRef then
    throw (authorityDenied "external root attestation does not bind this authority")
  let verification ← verifiedBy verifier attestation
  let verifiedAt ← rfc3339 verification.verifiedAt "external root verification verified_at"
  let issuedAt ← rfc3339 attestation.issuedAt "external root attestation issued_at"
  let expiresAt ← rfc3339 attestation.expiresAt "external root attestation expires_at"
  if verifiedAt < issuedAt ∨ expiresAt ≤ verifiedAt then
    throw (authorityDenied "external root verification is outside attestation validity")
  let registry ← registry.admitEnvelope envelope
  return { registry with
    roots := registry.roots.insert envelope.digestValue
      (provenance envelope attestation.issuer attestation.authorityRef verification.verifiedAt)
    externalRoots := registry.externalRoots.insert envelope.digestValue
      (attestation.attestationDigest, verification.verificationDigest) }

/-- `register`, which also checks the envelope against its parent as `intersect_envelopes` does. -/
def register (registry : AuthorityRegistry) (envelope : ConstraintEnvelope)
    (parent : Option ConstraintEnvelope) : Except Exc AuthorityRegistry :=
  match envelope.parentEnvelopeDigest with
  | none => .error (authorityDenied "root envelope requires an explicit mint ceremony")
  | some digest =>
    match registry.envelopes[digest]? with
    | none => .error (authorityDenied "parent envelope is required")
    | some admitted => do
      if parent.any (· ≠ admitted) then
        throw (authorityDenied "parent envelope is not the admitted authority")
      if digest ≠ admitted.digestValue ∨ !envelope.isNoBroaderThan admitted then
        throw (authorityDenied "child envelope broadens or is not bound to its parent")
      registry.admitEnvelope envelope

/-- `revoke`. -/
def revoke (registry : AuthorityRegistry) (digest : String) : AuthorityRegistry :=
  { registry with
    revoked := digest :: registry.revoked
    revokedAuthorities := match registry.envelopes[digest]? with
      | some envelope => envelope.authorityKey :: registry.revokedAuthorities
      | none => registry.revokedAuthorities }

/-- `envelope`. -/
def envelope (registry : AuthorityRegistry) (digest : String) : Except Exc ConstraintEnvelope :=
  match registry.envelopes[digest]? with
  | none => .error (authorityDenied "authority envelope is unavailable")
  | some found =>
    if registry.isRevoked found then
      .error (authorityDenied "authority envelope is unavailable")
    else .ok found

/-- `datetime.fromisoformat`, after a final `Z` was spelled out. -/
def instant (value : String) : Except Exc Int :=
  match instantOf value with
  | some moment => .ok moment
  | none => .error (valueError ("Invalid isoformat string: " ++ value))

/-- A path is in scope if it is one of the paths or below one of them. -/
def inScope (scope : List String) (path : String) : Bool :=
  scope.any fun p ↦ path == p || (p.toList ++ ['/']).isPrefixOf path.toList

/-- `authorize`. -/
def authorize (registry : AuthorityRegistry) (key digest action target now : String) :
    Except Exc (CapabilityToken key) := do
  let envelope ← registry.envelope digest
  let moment ← instant now
  let expiry ← instant envelope.expiresAt
  if expiry ≤ moment then throw (authorityDenied "authority envelope is expired")
  let normalized ← normalizePortablePath target
  if action ∉ envelope.allowedActions ∨ action ∈ envelope.deniedActions then
    throw (authorityDenied "action is not granted")
  let reading := readActions.contains action
  if !inScope (if reading then envelope.pathReadScope else envelope.pathWriteScope) normalized then
    throw (authorityDenied
      (if reading then "target is outside read scope" else "target is outside write scope"))
  return ⟨digest, action, normalized, tokenDigest digest action normalized,
    issuanceWitness key digest action normalized, rfl⟩

/-! ## What the registry answers -/

variable {registry : AuthorityRegistry} {key digest action target now : String}

theorem envelope_eq_ok {envelope : ConstraintEnvelope} :
    registry.envelope digest = .ok envelope ↔
      registry.envelopes[digest]? = some envelope ∧ registry.isRevoked envelope = false := by
  rw [AuthorityRegistry.envelope]
  cases registry.envelopes[digest]? with
  | none => exact ⟨fun h ↦ (nomatch h), fun h ↦ (nomatch h.1)⟩
  | some found =>
    dsimp only
    split
    · next hrevoked =>
      refine ⟨fun h ↦ (nomatch h), fun ⟨hfound, hnot⟩ ↦ ?_⟩
      rw [Option.some.inj hfound, hnot] at hrevoked
      exact nomatch hrevoked
    · next hrevoked =>
      rw [Except.ok.injEq, Option.some.injEq]
      refine ⟨fun h ↦ ⟨h, ?_⟩, And.left⟩
      rw [← h]
      exact Bool.eq_false_iff.mpr hrevoked

omit [Hash256] in
theorem instant_eq_ok {value : String} {moment : Int} :
    instant value = .ok moment ↔ instantOf value = some moment := by
  rw [instant]
  cases instantOf value with
  | none => exact ⟨fun h ↦ (nomatch h), fun h ↦ (nomatch h)⟩
  | some found => rw [Except.ok.injEq, Option.some.injEq]

/-- What an envelope has to grant for a token. -/
structure Grants (envelope : ConstraintEnvelope) (action path now : String) : Prop where
  live : ∃ moment expiry, instantOf now = some moment ∧
    instantOf envelope.expiresAt = some expiry ∧ moment < expiry
  allowed : action ∈ envelope.allowedActions
  notDenied : action ∉ envelope.deniedActions
  inScope : AuthorityRegistry.inScope
    (if readActions.contains action then envelope.pathReadScope else envelope.pathWriteScope) path

theorem Grants.sealed {envelope : ConstraintEnvelope} {path : String}
    (h : Grants envelope action path now) : Grants envelope.sealed action path now :=
  ⟨h.live, h.allowed, h.notDenied, h.inScope⟩

/-- A token is issued exactly when a live envelope grants the action on the normalized target. -/
theorem authorize_eq_ok {token : CapabilityToken key} :
    registry.authorize key digest action target now = .ok token ↔
      ∃ envelope path, registry.envelope digest = .ok envelope ∧
        normalizePortablePath target = .ok path ∧ Grants envelope action path now ∧
        token = ⟨digest, action, path, tokenDigest digest action path,
          issuanceWitness key digest action path, rfl⟩ := by
  simp only [authorize, bind_eq_ok, instant_eq_ok, guard_eq_ok, pure_eq_ok, not_or, not_not, not_le,
    Bool.not_eq_true', Bool.not_eq_false]
  constructor
  · rintro ⟨envelope, henvelope, moment, hmoment, expiry, hexpiry, hlive, path, hpath,
      ⟨hallowed, hdenied⟩, hscope, rfl⟩
    exact ⟨envelope, path, henvelope, hpath,
      ⟨⟨moment, expiry, hmoment, hexpiry, hlive⟩, hallowed, hdenied, hscope⟩, rfl⟩
  · rintro ⟨envelope, path, henvelope, hpath,
      ⟨⟨moment, expiry, hmoment, hexpiry, hlive⟩, hallowed, hdenied, hscope⟩, rfl⟩
    exact ⟨envelope, henvelope, moment, hmoment, expiry, hexpiry, hlive, path, hpath,
      ⟨hallowed, hdenied⟩, hscope, rfl⟩

theorem admitEnvelope_eq_ok {envelope : ConstraintEnvelope} {registry' : AuthorityRegistry} :
    registry.admitEnvelope envelope = .ok registry' ↔
      envelope.digestValue = envelope.contentDigest ∧ registry.isRevoked envelope = false ∧
        registry' = { registry with
          envelopes := registry.envelopes.insert envelope.digestValue envelope } := by
  simp only [admitEnvelope, guard_eq_ok, pure_eq_ok, not_not, Bool.not_eq_true]

/-- Where nothing was revoked, no envelope counts as revoked. -/
theorem isRevoked_eq_false (hrevoked : registry.revoked = [])
    (hauthorities : registry.revokedAuthorities = []) (envelope : ConstraintEnvelope) :
    registry.isRevoked envelope = false := by
  by_contra hrevoked'
  obtain ⟨marked, -, hmarked⟩ := Walk.exists_bad_of_guarded (Bool.not_eq_false _ ▸ hrevoked')
  rw [isMarked, hrevoked, hauthorities] at hmarked
  exact nomatch hmarked

/-- Where nothing was revoked, a sealed root is minted. -/
theorem exists_mintRoot (hrevoked : registry.revoked = [])
    (hauthorities : registry.revokedAuthorities = []) (envelope : ConstraintEnvelope)
    (issuer authorityRef recordedAt : String) (hroot : envelope.parentEnvelopeDigest = none)
    (hissuer : isRequired issuer) (href : isRequired authorityRef) (htime : isTime recordedAt) :
    ∃ registry', registry.mintRoot envelope.sealed issuer authorityRef recordedAt = .ok registry' ∧
      registry'.envelopes = registry.envelopes.insert envelope.contentDigest envelope.sealed ∧
      registry'.revoked = [] ∧ registry'.revokedAuthorities = [] := by
  have hnone : envelope.sealed.parentEnvelopeDigest.isSome = false := by
    rw [show envelope.sealed.parentEnvelopeDigest = envelope.parentEnvelopeDigest from rfl, hroot]
    rfl
  have hlive := isRevoked_eq_false hrevoked hauthorities envelope.sealed
  simp only [mintRoot, guard_eq_ok, bind_eq_ok, pure_eq_ok, hnone, hissuer, href, htime,
    admitEnvelope_eq_ok]
  exact ⟨_, ⟨nofun, nofun, nofun, nofun, _, ⟨rfl, hlive, rfl⟩, rfl⟩, rfl, hrevoked, hauthorities⟩

/-- Where nothing was revoked, a sealed child is registered under an admitted parent. -/
theorem exists_register (hrevoked : registry.revoked = [])
    (hauthorities : registry.revokedAuthorities = []) {parent : ConstraintEnvelope}
    (hparent : registry.envelopes[parent.digestValue]? = some parent) (child : ConstraintEnvelope)
    (hchild : child.parentEnvelopeDigest = some parent.digestValue)
    (hbroader : child.isNoBroaderThan parent = true) :
    ∃ registry', registry.register child.sealed none = .ok registry' ∧
      registry'.envelopes = registry.envelopes.insert child.contentDigest child.sealed ∧
      registry'.revoked = [] ∧ registry'.revokedAuthorities = [] := by
  have hlive := isRevoked_eq_false hrevoked hauthorities child.sealed
  have hsame : child.sealed.parentEnvelopeDigest = some parent.digestValue := hchild
  rw [register, hsame]
  dsimp only
  rw [hparent]
  simp only [guard_eq_ok, admitEnvelope_eq_ok, not_or, not_not, Bool.not_eq_true',
    Bool.not_eq_false]
  exact ⟨_, ⟨nofun, ⟨trivial, hbroader⟩, rfl, hlive, rfl⟩, rfl, hrevoked, hauthorities⟩

end AuthorityRegistry

end HiveMind
