import HiveMind.Kernel.Commutation
import HiveMind.Kernel.ReadModel

/-!
# Technical closeout

A mission declares once which roles have to report and which earlier evidence it rests on. The
declaration is an event like any other, appended under an idempotency key. The key is the digest of
the declared roles and evidence, and of nothing else: the mission is in the id of the event and not
in the key.

`deriveTechnicalCloseout` reads the whole log again and goes through it event by event, leaving out
the events of other missions, and through the work items of the projection, leaving out those of
other missions. What it finds of the mission is a `CloseoutFinding`. The report adds where the log
stood, so two reports with one finding can differ in their digests.

The bundles are outside the store. They are handed in by reference, and verifying one of them
returns its digest or raises.
-/

open Std (ExtTreeMap)
open Raise

namespace HiveMind

/-! ## Exceptions -/

/-- What a closeout call raises: an exception of its own, one that verifying a bundle raises, or one
that comes from the store and the contracts. -/
inductive CloseoutExc where
  | technicalCloseoutError (message : String)
  | osError (message : String)
  | attributeError (message : String)
  | other (e : Exc)
  deriving DecidableEq

abbrev CloseoutM (α : Type) := EStateM CloseoutExc KernelDb α

/-- A call of the store, whose exceptions are passed on. -/
def fromStore {α : Type} (x : StoreM α) : CloseoutM α := x.adaptExcept .other

/-! ## Declaring -/

/-- `KERNEL_IMPLEMENTED_ROLES`. -/
def kernelImplementedRoles : List String := roleNames

/-- `HistoricalEvidenceReference.to_document`. -/
def HistoricalEvidenceReference.toDocument (r : HistoricalEvidenceReference) :
    List (String × String) := [
  ("provenance_label", r.provenanceLabel),
  ("receipt_digest", r.receiptDigest),
  ("receipt_ref", r.receiptRef),
  ("retention_note", r.retentionNote)]

def obligationsPayload (requiredRoles : List String)
    (historicalEvidence : List HistoricalEvidenceReference) : List (String × PyValue) := [
  ("required_roles", .list (requiredRoles.map .str)),
  ("historical_evidence", .list (historicalEvidence.map fun r ↦
    .dict (r.toDocument.map fun m ↦ (m.1, .str m.2))))]

/-- The head of the event that declares obligations with the given digest. -/
def obligationsHead (missionId actorId digest : String) : EventHead where
  eventId := "closeout-obligations:" ++ missionId ++ ":" ++ digest
  missionId := missionId
  eventType := "closeout.obligations.declared"
  actorId := actorId
  occurredAt := "1970-01-01T00:00:00Z"
  workId := none
  attemptId := none
  actorRole := some "orchestrator"
  eventVersion := 1

/-- The mission was created in the history. -/
def isCreated (missionId : String) (es : List Event) : Bool :=
  es.any fun e ↦ e.missionId = missionId ∧ e.eventType = "mission.created"

/-- `events[-1]["digest"]`. -/
def KernelDb.headDigest (db : KernelDb) : Option String := db.events.getLast?.map EventRow.digest

section

variable [Hash256]

/-- `declare_closeout_obligations`. -/
def declareCloseoutObligations (readOnly : Bool) (missionId : String)
    (requiredRoles : List String := kernelImplementedRoles)
    (historicalEvidence : List HistoricalEvidenceReference := [])
    (actorId : String := "orchestrator:local-closeout") : CloseoutM Nat := do
  if requiredRoles = [] ∨ ¬ requiredRoles.Nodup then
    throw (.technicalCloseoutError "closeout roles must be non-empty and unique")
  if requiredRoles.any fun role ↦ role ∉ kernelImplementedRoles then
    throw (.technicalCloseoutError "closeout role is not registered")
  if ¬ (historicalEvidence.map HistoricalEvidenceReference.receiptRef).Nodup then
    throw (.technicalCloseoutError "historical evidence references must be unique")
  let es ← fromStore events
  if ¬ isCreated missionId es then
    throw (.technicalCloseoutError "closeout mission is unknown")
  let payload := obligationsPayload requiredRoles historicalEvidence
  let digest ← fromStore (lift (canonicalDigest (.dict payload)))
  let db ← get
  let head := obligationsHead missionId actorId digest
  -- the event of a mission that was created can lack nothing but its actor
  if valid : head.isValid then
    fromStore (append readOnly ⟨head, payload, db.headDigest, valid⟩ none "1970-01-01T00:00:00Z"
      (some digest))
  else throw (.other (valueError "actor_id is required"))

end

/-! ## What is missing -/

/-- The list of missing obligations as it grows, and whether one of them blocks the closeout. -/
structure Shortfall where
  missing : List String := []
  blocked : Bool := false

def Shortfall.lacks (f : Shortfall) (what : List String) : Shortfall :=
  { f with missing := f.missing ++ what }

def Shortfall.blocks (f : Shortfall) (what : String) : Shortfall :=
  { missing := f.missing ++ [what], blocked := true }

/-! ## The declared obligations -/

/-- `tuple(payload["required_roles"])`. The reducer lets in names of roles only. -/
def declaredRoles (e : Event) : Except Exc (List String) := do
  let roles ← pyTuple (← e.getItem "required_roles")
  orRaise "role is not registered" (roles.mapM Json.asStr?)

def checkDeclaration (e : Event) (requiredRoles : List String) : Except Exc Unit := do
  let historical ← pyTuple (← e.getItem "historical_evidence")
  let references ← historical.mapM HistoricalEvidenceReference.fromDocument
  if requiredRoles = [] ∨ ¬ requiredRoles.Nodup then
    throw (valueError "invalid role declaration")
  if ¬ (references.map HistoricalEvidenceReference.receiptRef).Nodup then
    throw (valueError "duplicate historical receipt reference")

/-- The declarations of a mission. -/
def declarationsOf (missionId : String) (es : List Event) : List Event :=
  es.filter fun e ↦ e.missionId = missionId ∧ e.eventType = "closeout.obligations.declared"

/-- The roles that have to report. A declaration whose evidence is malformed still gives the roles,
since these are assigned first. -/
def readDeclarations (missionId : String) (es : List Event) : List String × Shortfall :=
  match declarationsOf missionId es with
  | [e] => match declaredRoles e with
    | .error _ =>
      (kernelImplementedRoles, Shortfall.blocks {} "valid closeout obligation declaration")
    | .ok roles => match checkDeclaration e roles with
      | .error _ => (roles, Shortfall.blocks {} "valid closeout obligation declaration")
      | .ok () => (roles, {})
  | _ => (kernelImplementedRoles,
      Shortfall.blocks {} "exactly one closeout obligation declaration")

/-! ## Role results -/

section

variable [Hash256]

/-- `document[key] = tuple(document[key])`. -/
def requireTuple (document : List (String × Json)) (name : String) :
    Except Exc (List (String × Json)) :=
  match document.lookup name with
  | some j => (pyTuple j).map fun xs ↦ Json.insertMember name (.arr xs) document
  | none => .error (keyError name)

def roleResultOf (e : Event) : Except Exc RoleResult := do
  let .obj document ← e.getItem "result" | throw (typeError "object is not a mapping")
  let values ← roleListFields.foldlM requireTuple document
  let role ← orRaise "role result contract is invalid" (RoleResult.ofMembers values)
  if role.resultDigest ≠ jsonDigest role.bound then throw (valueError "role result digest mismatch")
  return role

/-- The results by role, and what is missing. -/
abbrev RoleResults := ExtTreeMap String RoleResult × Shortfall

/-- One iteration of the loop over the role results. -/
def readRoleResult (missionId : String) (acc : RoleResults) (e : Event) : RoleResults :=
  if e.missionId ≠ missionId ∨ e.eventType ≠ "role.result" then acc
  else match roleResultOf e with
    | .error _ => (acc.1, acc.2.blocks "valid role result")
    | .ok role =>
      if role.role ∈ acc.1 then (acc.1, acc.2.blocks "valid role result")
      else (acc.1.insert role.role role, acc.2)

def readRoleResults (missionId : String) (es : List Event) (f : Shortfall) : RoleResults :=
  es.foldl (readRoleResult missionId) (∅, f)

end

/-! ## Verdicts and bundles -/

/-- `str(value)`, where a payload that was let in has a text or nothing. -/
def strOf : Json → String
  | .str s => s
  | .null => "None"
  | j => j.dumps

/-- What the second loop over the log collects: the digests of the passed results by work item, the
recorded bundles by result digest, each with its reference, and what is missing. -/
structure Verdicts where
  passed : ExtTreeMap String (List String)
  bundles : ExtTreeMap String (String × String)
  shortfall : Shortfall

/-- `passed_results.setdefault(work_id, set()).add(digest)`. -/
def Verdicts.pass (v : Verdicts) (workId digest : String) : Verdicts :=
  { v with passed := v.passed.insert workId ((v.passed.getD workId []).insert digest) }

/-- One iteration of the loop over verdicts and bundles. -/
def readVerdict (missionId : String) (v : Verdicts) (e : Event) : Except CloseoutExc Verdicts :=
  if e.missionId ≠ missionId then .ok v
  else if e.eventType = "evaluation.result" then
    match (e.payload.lookup "result").getD (.obj []) with
    | .obj document =>
      if document.lookup "state" = some (.str EvaluationState.passed.value) then
        match e.workId, document.lookup "result_digest" with
        | some workId, some (.str digest) => .ok (v.pass workId digest)
        | _, _ => .ok v
      else .ok v
    | _ => .error (.attributeError "object has no attribute 'get'")
  else if e.eventType = "evaluation.bundle.recorded" then
    match e.payload.lookup "result_digest", e.payload.lookup "bundle_digest",
      e.payload.lookup "bundle_ref" with
    | some result, some bundle, some ref =>
      .ok { v with bundles := v.bundles.insert (strOf result) (strOf bundle, strOf ref) }
    | _, _, _ => .ok { v with shortfall := v.shortfall.blocks "valid evaluation bundle record" }
  else .ok v

def readVerdicts (missionId : String) (es : List Event) (f : Shortfall) :
    Except CloseoutExc Verdicts :=
  es.foldlM (readVerdict missionId) ⟨∅, ∅, f⟩

/-! ## The bundles of the integrated work -/

structure BundleTally where
  shortfall : Shortfall
  resultDigests : List String := []
  bundleDigests : List String := []

def BundleTally.blocks (t : BundleTally) (what : String) : BundleTally :=
  { t with shortfall := t.shortfall.blocks what }

section Bundles

variable {Directory : Type} (verifiedBundleDigest : Directory → Except CloseoutExc String)
  (directories : String → Option Directory)

/-- One iteration of the loop over the integrated work. -/
def tallyWork (v : Verdicts) (t : BundleTally) (workId : String) :
    Except CloseoutExc BundleTally :=
  match v.passed.getD workId [] with
  | [digest] =>
    let t := { t with resultDigests := t.resultDigests ++ [digest] }
    match v.bundles[digest]? with
    | none => .ok (t.blocks ("bundle-record:" ++ workId))
    | some (expected, bundleRef) =>
      let t := { t with bundleDigests := t.bundleDigests ++ [expected] }
      match directories bundleRef with
      | none => .ok (t.blocks ("bundle-available:" ++ bundleRef))
      | some directory => match verifiedBundleDigest directory with
        | .ok digest =>
          if digest = expected then .ok t else .ok (t.blocks ("bundle-valid:" ++ bundleRef))
        | .error (.osError _) | .error (.technicalCloseoutError _) =>
          .ok (t.blocks ("bundle-valid:" ++ bundleRef))
        | .error e => .error e
  | _ => .ok (t.blocks ("passed-evaluation:" ++ workId))

/-! ## The finding -/

inductive TechnicalCloseoutState where
  | technicallyVerified
  | partially
  | blocked
  deriving DecidableEq, Repr

def TechnicalCloseoutState.value : TechnicalCloseoutState → String
  | technicallyVerified => "TECHNICALLY_VERIFIED"
  | partially => "PARTIAL"
  | blocked => "BLOCKED"

/-- The fields of a report that are about the mission. -/
structure CloseoutFinding where
  requiredRoles : List String
  fulfilledRoles : List String
  missingObligations : List String
  integratedWorkIds : List String
  evaluationResultDigests : List String
  evidenceBundleDigests : List String
  state : TechnicalCloseoutState
  deriving DecidableEq

/-- `sorted`, of texts. -/
def sortedTexts (xs : List String) : List String := xs.mergeSort (· ≤ ·)

/-- What the closeout finds from the log and from the mission's own work items. -/
def closeoutFinding [Hash256] (missionId : String) (es : List Event)
    (missionWork : ExtTreeMap String WorkState) : Except CloseoutExc CloseoutFinding := do
  let (requiredRoles, f) := readDeclarations missionId es
  let (roleResults, f) := readRoleResults missionId es f
  let fulfilled := requiredRoles.filter (· ∈ roleResults)
  let f := f.lacks ((requiredRoles.filter (· ∉ roleResults)).map ("role:" ++ ·))
  let executorIds := fulfilled.filterMap fun role ↦ (roleResults[role]?).map RoleResult.executorId
  let f := if executorIds.Nodup then f else f.blocks "distinct required role identities"
  let integrated := (missionWork.toList.filter (·.2 = .integrated)).map Prod.fst
  let f :=
    if missionWork.toList = [] then f.lacks ["integrated local work"]
    else f.lacks ((missionWork.toList.filter (·.2 ≠ .integrated)).map ("integrated:" ++ ·.1))
  let v ← readVerdicts missionId es f
  let t ← integrated.foldlM (tallyWork verifiedBundleDigest directories v) ⟨v.shortfall, [], []⟩
  return {
    requiredRoles
    fulfilledRoles := fulfilled
    missingObligations := sortedTexts t.shortfall.missing.dedup
    integratedWorkIds := integrated
    evaluationResultDigests := sortedTexts t.resultDigests
    evidenceBundleDigests := sortedTexts t.bundleDigests
    state := if t.shortfall.blocked then .blocked
      else if t.shortfall.missing ≠ [] then .partially
      else .technicallyVerified }

/-! ## The report -/

structure CloseoutFields extends CloseoutFinding where
  missionId : String
  eventHeadDigest : String
  projectionDigest : String
  reportDigest : String

def malformedDigest : Exc := valueError "digest must be lowercase sha256:<64 hex>"

/-- `_identifier`, raising. -/
def checkIdentifier (kind : IdKind) (name value : String) : Except Exc Unit :=
  if !isRequired value then .error (valueError (name ++ " id is required"))
  else if !isIdentifier kind value then .error (valueError ("invalid " ++ name ++ " id"))
  else .ok ()

/-- `TechnicalCloseoutReport.__post_init__`. -/
def CloseoutFields.check (r : CloseoutFields) : Except Exc Unit := do
  checkIdentifier .mission "mission" r.missionId
  if ¬ (isDigest r.eventHeadDigest ∧ isDigest r.projectionDigest ∧ isDigest r.reportDigest) then
    throw malformedDigest
  if r.requiredRoles = [] ∨ ¬ r.requiredRoles.Nodup then
    throw (valueError "required_roles must be non-empty and unique")
  if ¬ r.fulfilledRoles.Nodup then throw (valueError "fulfilled_roles must be unique")
  if !(r.requiredRoles ++ r.fulfilledRoles).all isRole then
    throw (valueError "role is not registered")
  if ¬ r.fulfilledRoles ⊆ r.requiredRoles then
    throw (valueError "fulfilled_roles must be required roles")
  r.integratedWorkIds.forM (checkIdentifier .work "work")
  if !(r.evaluationResultDigests ++ r.evidenceBundleDigests).all isDigest then throw malformedDigest

structure TechnicalCloseoutReport extends CloseoutFields where
  valid : toCloseoutFields.check = .ok ()

def TechnicalCloseoutReport.make (fields : CloseoutFields) :
    Except Exc TechnicalCloseoutReport :=
  match valid : fields.check with
  | .ok () => .ok ⟨fields, valid⟩
  | .error e => .error e

variable [Hash256]

/-- `technical_closeout_digest`. -/
def technicalCloseoutDigest (r : CloseoutFields) : String := jsonDigest (.obj [
  ("evaluation_result_digests", Json.ofStrings r.evaluationResultDigests),
  ("event_head_digest", .str r.eventHeadDigest),
  ("evidence_bundle_digests", Json.ofStrings r.evidenceBundleDigests),
  ("fulfilled_roles", Json.ofStrings r.fulfilledRoles),
  ("integrated_work_ids", Json.ofStrings r.integratedWorkIds),
  ("missing_obligations", Json.ofStrings r.missingObligations),
  ("mission_id", .str r.missionId),
  ("projection_digest", .str r.projectionDigest),
  ("required_roles", Json.ofStrings r.requiredRoles),
  ("state", .str r.state.value)])

/-- The digest that a report has before its own is computed. -/
def provisionalDigest : String := "sha256:" ++ String.ofList (List.replicate 64 '0')

/-- The report is built twice, the second time with its digest. -/
def closeoutReport (missionId head projectionDigest : String) (finding : CloseoutFinding) :
    Except Exc TechnicalCloseoutReport := do
  let fields : CloseoutFields :=
    { finding with
      missionId, eventHeadDigest := head, projectionDigest, reportDigest := provisionalDigest }
  let provisional ← TechnicalCloseoutReport.make fields
  TechnicalCloseoutReport.make { fields with
    reportDigest := technicalCloseoutDigest provisional.toCloseoutFields }

/-- `derive_technical_closeout`. -/
def deriveTechnicalCloseout (readOnly : Bool) (missionId : String) :
    CloseoutM TechnicalCloseoutReport := do
  let es ← fromStore events
  if ¬ isCreated missionId es then
    throw (.technicalCloseoutError "closeout mission is unknown")
  let state ← fromStore (projection readOnly)
  let db ← get
  let some head := db.headDigest
    | throw (.technicalCloseoutError "closeout requires a non-empty event spine")
  let finding ← lift (closeoutFinding verifiedBundleDigest directories missionId es
    (state.workOf missionId))
  fromStore (lift (closeoutReport missionId head (stateDigest state) finding))

end Bundles

end HiveMind
