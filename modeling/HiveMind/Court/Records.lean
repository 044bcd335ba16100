import HiveMind.Kernel.Schema
import HiveMind.Lib.AppendOnly
import HiveMind.Lib.Raise

/-!
# Records of a court

A court record binds a case, the briefs of the seats and a verdict. A record is built by a
constructor that checks the panel, and a history takes it at its end. An appeal is a record that
names its parent by the id of the case, and the history compares it with this parent.

A record is a value that passed its checks. The history is a log that is only appended to, and each
record stands in the relation `Admissible` to the records before it.
-/

open Raise AppendOnly

namespace HiveMind.Court

structure CourtProtocolError where
  message : String
deriving DecidableEq, Repr

inductive CourtSeat where
  | advocate
  | crossExaminer
  | expertWitness
  | judge
  | appealsJudge
deriving DecidableEq, Repr

inductive CourtDisposition where
  | adopt
  | adapt
  | defer
  | reject
  | quarantine
deriving DecidableEq, Repr

inductive CourtClaimKind where
  | ordinary
  | cheating
  | superiority
deriving DecidableEq, Repr

/-- `_APPROVING`. -/
def CourtDisposition.isApproving (d : CourtDisposition) : Bool := d == .adopt || d == .adapt

/-- `_ADVERSE`. -/
def CourtDisposition.isAdverse (d : CourtDisposition) : Bool := d == .reject || d == .quarantine

/-- `_text`. -/
def courtText (value label : String) : Except CourtProtocolError Unit :=
  if !isRequired value then .error ⟨label ++ " is required"⟩ else .ok ()

/-- `dict.fromkeys`: the first occurrence of each value. -/
def fromKeys (values : List String) : List String := values.eraseDups

@[simp] theorem mem_fromKeys {value : String} {values : List String} :
    value ∈ fromKeys values ↔ value ∈ values := List.mem_eraseDups

/-- What `_references` returns: at least one reference, and none that is blank. -/
structure References where
  refs : List String
  valid : refs ≠ [] ∧ ∀ ref ∈ refs, isRequired ref

/-- `_references`. -/
def references (values : List String) (label : String) : Except CourtProtocolError References :=
  if valid : values ≠ [] ∧ ∀ value ∈ values, isRequired value then
    .ok ⟨fromKeys values, by
      obtain ⟨value, hvalue⟩ := List.exists_mem_of_ne_nil values valid.1
      exact ⟨List.ne_nil_of_mem (mem_fromKeys.mpr hvalue), by simpa using valid.2⟩⟩
  else .error ⟨label ++ " require at least one retained reference"⟩

/-! ## Consultations -/

inductive ConsultationReason where
  | ambiguousDesign
  | missingEvidence
  | missingExternalAuthority
  | unsafeEffect
  | independenceConcern
  | suspectedCheating
  | noProgress
deriving DecidableEq, Repr

inductive ConsultationDecision where
  | resolved
  | remand
  | replan
  | blockedEvidence
  | trueAuthorityRequired
  | quarantine
deriving DecidableEq, Repr

inductive CheatingDisposition where
  | notApplicable
  | confirmed
  | disproved
  | unresolved
deriving DecidableEq, Repr

/-- An entry of `identity_records`. -/
structure IdentityRecord where
  identity : String
  identityKind : String
  role : String

/-- `AUTHORITY_CLASSES`. -/
def authorityClasses : List String :=
  ["credential_or_secret", "legal_or_regulatory", "financial_spend", "production_access",
    "protected_branch_merge", "owner_value_choice", "personal_consent",
    "external_contractual_commitment"]

/-- The identities that do not pretend to be human. -/
def isIdentityKind (kind : String) : Bool := kind == "model_role" || kind == "procedural_role"

/-- The arguments of `ConsultationResult`. -/
structure ConsultationFields where
  requestId : String
  missionId : String
  question : String
  reasonCode : ConsultationReason
  requestingRole : String
  consultedRoles : List String
  round : Int
  suspectedCheating : Bool
  evidenceRefs : List String
  decision : ConsultationDecision
  answer : Option String
  dissent : List String
  humanEscalation : Bool
  authorityClass : Option String
  roleFirstExhausted : Bool
  cheatingDisposition : CheatingDisposition
  identityRecords : List IdentityRecord

namespace ConsultationFields

def requireText (value label : String) : Except Exc Unit :=
  if !isRequired value then .error (valueError (label ++ " is required")) else .ok ()

/-- `_role`. -/
def requireRole (value label : String) : Except Exc Unit := do
  requireText value label
  if !isRole value then throw (valueError (label ++ " is not a registered role"))

/-- `_strings`. -/
def requireStrings (values : List String) (label : String) : Except Exc Unit :=
  if values.any fun value ↦ !isRequired value then
    .error (valueError (label ++ " must contain non-empty strings"))
  else .ok ()

/-- The concerns that a quarantine needs. -/
def isQuarantineConcern (fields : ConsultationFields) : Bool :=
  fields.suspectedCheating || fields.reasonCode == .suspectedCheating ||
    fields.reasonCode == .noProgress || fields.reasonCode == .unsafeEffect

/-- `ConsultationResult.__post_init__`. -/
def postInit (fields : ConsultationFields) : Except Exc Unit := do
  requireText fields.requestId "request_id"
  requireText fields.missionId "mission_id"
  requireText fields.question "question"
  requireRole fields.requestingRole "requesting_role"
  forM fields.consultedRoles (requireRole · "consulted role")
  if fields.consultedRoles.eraseDups.length < 2 then
    throw (valueError "at least two distinct roles must be consulted")
  if ¬(1 ≤ fields.round ∧ fields.round ≤ 3) then
    throw (valueError "round is outside the bounded consultation range")
  requireStrings fields.evidenceRefs "evidence_refs"
  match fields.answer with
  | some answer => requireText answer "answer"
  | none => pure ()
  requireStrings fields.dissent "dissent"
  if fields.authorityClass.any fun name ↦ !authorityClasses.contains name then
    throw (valueError "authority_class is not a genuine human authority class")
  if fields.humanEscalation != (fields.decision == .trueAuthorityRequired) then
    throw (valueError "human escalation is reserved for genuine authority need")
  if !fields.roleFirstExhausted then
    throw (valueError "role-first consultation must be exhausted before a result")
  if fields.identityRecords.length < 2 then
    throw (valueError "identity records are required for every consulted role")
  forM fields.identityRecords fun record ↦ do
    requireText record.identity "identity"
    requireRole record.role "identity role"
    if !isIdentityKind record.identityKind then
      throw (valueError "identity records cannot claim independent human status")
  if fields.decision == .quarantine && !fields.isQuarantineConcern then
    throw (valueError "quarantine requires a typed safety or progress concern")
  if fields.cheatingDisposition == .confirmed && fields.decision != .quarantine then
    throw (valueError "confirmed cheating must quarantine")
  if fields.cheatingDisposition == .unresolved && fields.decision != .quarantine then
    throw (valueError "unresolved cheating cannot become ordinary success")
  if fields.decision == .trueAuthorityRequired then
    if fields.authorityClass.isNone then
      throw (valueError "genuine authority class is required for escalation")
    if fields.evidenceRefs.isEmpty then
      throw (valueError "authority escalation requires retained evidence")
  else if fields.authorityClass.isSome then
    throw (valueError "authority class is only valid for genuine authority escalation")

end ConsultationFields

/-- A retained result of a consultation passed the checks of its constructor. -/
structure ConsultationResult extends ConsultationFields where
  checked : toConsultationFields.postInit = .ok ()

/-! ## Cases, briefs and verdicts -/

structure CourtParticipant where
  seat : CourtSeat
  identity : String
  task : String
  identityKind : String
  valid : isRequired identity ∧ isRequired task ∧ isIdentityKind identityKind

/-- `CourtParticipant(seat, identity, task, identity_kind)`. -/
def CourtParticipant.make (seat : CourtSeat) (identity task : String)
    (identityKind : String := "procedural_role") : Except CourtProtocolError CourtParticipant :=
  if hidentity : isRequired identity then
    if htask : isRequired task then
      if hkind : isIdentityKind identityKind then
        .ok ⟨seat, identity, task, identityKind, hidentity, htask, hkind⟩
      else .error ⟨"court participants cannot claim independent human status"⟩
    else .error ⟨"participant task is required"⟩
  else .error ⟨"participant identity is required"⟩

structure CourtBrief where
  participant : CourtParticipant
  conclusion : String
  evidenceRefs : References
  roleResultRefs : List String
  consultationRefs : List String
  dissent : Option String

/-- `CourtBrief(participant, conclusion, evidence_refs, ...)`. -/
def CourtBrief.make (participant : CourtParticipant) (conclusion : String)
    (evidenceRefs : List String) (roleResultRefs consultationRefs : List String := [])
    (dissent : Option String := none) : Except CourtProtocolError CourtBrief := do
  courtText conclusion "brief conclusion"
  let evidenceRefs ← references evidenceRefs "brief evidence"
  match dissent with
  | some text => courtText text "dissent"
  | none => pure ()
  return ⟨participant, conclusion, evidenceRefs, fromKeys roleResultRefs,
    fromKeys consultationRefs, dissent⟩

structure CourtCase where
  caseId : String
  claimKind : CourtClaimKind
  subject : String
  affectedIdentities : List String
  roleResults : List RoleResult
  consultations : List ConsultationResult

namespace CourtCase

/-- `CourtCase(case_id, claim_kind, subject, affected_identities, ...)`. -/
def make (caseId : String) (claimKind : CourtClaimKind) (subject : String)
    (affectedIdentities : List String) (roleResults : List RoleResult := [])
    (consultations : List ConsultationResult := []) : Except CourtProtocolError CourtCase := do
  courtText caseId "case id"
  courtText subject "case subject"
  if affectedIdentities.any fun identity ↦ !isRequired identity then
    throw ⟨"affected identities must be non-empty strings"⟩
  return ⟨caseId, claimKind, subject, fromKeys affectedIdentities, roleResults, consultations⟩

/-- Every identity whose affected output must not judge this case. -/
def sourceIdentities (courtCase : CourtCase) : List String :=
  fromKeys (courtCase.affectedIdentities ++ courtCase.roleResults.map (·.executorId))

/-- References retained by the upstream result and consultation contracts. -/
def evidenceRefs (courtCase : CourtCase) : List String :=
  fromKeys (courtCase.roleResults.map (·.resultDigest) ++
    courtCase.consultations.flatMap (·.evidenceRefs))

end CourtCase

structure CourtVerdict where
  caseId : String
  disposition : CourtDisposition
  decidedBy : String
  reasons : References
  evidenceRefs : References
  dissent : List String

/-- `CourtVerdict(case_id, disposition, decided_by, reasons, evidence_refs, dissent)`. -/
def CourtVerdict.make (caseId : String) (disposition : CourtDisposition) (decidedBy : String)
    (reasons evidenceRefs : List String) (dissent : List String := []) :
    Except CourtProtocolError CourtVerdict := do
  courtText caseId "verdict case id"
  courtText decidedBy "judge identity"
  let reasons ← references reasons "verdict reasons"
  let evidenceRefs ← references evidenceRefs "verdict evidence"
  if dissent.any fun item ↦ !isRequired item then
    throw ⟨"dissent must contain non-empty strings"⟩
  return ⟨caseId, disposition, decidedBy, reasons, evidenceRefs, fromKeys dissent⟩

/-! ## The panel -/

/-- `by_seat.get(seat)`. -/
def bySeat (briefs : List CourtBrief) (seat : CourtSeat) : Option CourtParticipant :=
  (briefs.map (·.participant)).reverse.find? (·.seat == seat)

/-- What an approving verdict on a claim of cheating or of superiority needs. -/
def validateApproval (courtCase : CourtCase) (briefs : List CourtBrief) (verdict : CourtVerdict) :
    Except CourtProtocolError Unit := do
  let evidence := courtCase.evidenceRefs ++ briefs.flatMap (·.evidenceRefs.refs)
  if verdict.disposition.isApproving &&
      (courtCase.claimKind == .cheating || courtCase.claimKind == .superiority) then
    if evidence.isEmpty then
      throw ⟨"cheating and superiority claims cannot be approved without evidence"⟩
    if !briefs.any fun brief ↦ brief.participant.seat == .crossExaminer then
      throw ⟨"approval requires adversarial cross-examination"⟩

/-- `_validate_panel`. -/
def validatePanel (courtCase : CourtCase) (briefs : List CourtBrief) (verdict : CourtVerdict) :
    Except CourtProtocolError Unit := do
  let participants := briefs.map (·.participant)
  let seats := (participants.map (·.seat)).eraseDups
  let required : List CourtSeat := [.advocate, .crossExaminer, .expertWitness, .judge]
  if !required.all seats.contains then
    throw ⟨"court requires advocate, cross-examiner, expert witness, and judge briefs"⟩
  if seats.length != participants.length then
    throw ⟨"each court seat may submit only one brief"⟩
  if (participants.map (·.identity)).eraseDups.length != participants.length then
    throw ⟨"each court brief requires a distinct identity"⟩
  if (bySeat briefs .advocate).map (·.task) == (bySeat briefs .crossExaminer).map (·.task) then
    throw ⟨"advocate and cross-examiner require distinct tasks"⟩
  let deciding := (bySeat briefs .appealsJudge).or (bySeat briefs .judge)
  if deciding.map (·.identity) != some verdict.decidedBy then
    throw ⟨"verdict must be issued by the assigned deciding participant"⟩
  if deciding.any fun participant ↦ courtCase.sourceIdentities.contains participant.identity then
    throw ⟨"judge cannot adjudicate an affected generator, builder, or evaluator"⟩
  validateApproval courtCase briefs verdict
  let unresolvedCheating := courtCase.consultations.any fun consultation ↦
    consultation.cheatingDisposition == .unresolved
  if unresolvedCheating && verdict.disposition.isApproving then
    throw ⟨"unresolved cheating cannot receive an approving verdict"⟩

/-- One record of the court. It is bound to its case and its panel is in order. -/
structure CourtRecord where
  courtCase : CourtCase
  briefs : List CourtBrief
  verdict : CourtVerdict
  appealOf : Option String
  bound : verdict.caseId = courtCase.caseId
  panel : validatePanel courtCase briefs verdict = .ok ()

namespace CourtRecord

/-- `CourtRecord(case, briefs, verdict, appeal_of)`. -/
def make (courtCase : CourtCase) (briefs : List CourtBrief) (verdict : CourtVerdict)
    (appealOf : Option String) : Except CourtProtocolError CourtRecord :=
  if bound : verdict.caseId = courtCase.caseId then
    if briefs.isEmpty then .error ⟨"record requires court briefs"⟩
    else
      match panel : validatePanel courtCase briefs verdict with
      | .error e => .error e
      | .ok () =>
        if appealOf.any fun parent ↦ !isRequired parent then
          .error ⟨"appeal parent case id is required"⟩
        else .ok ⟨courtCase, briefs, verdict, appealOf, bound, panel⟩
  else .error ⟨"verdict is not bound to the court case"⟩

/-- Those who held a seat. -/
def identities (record : CourtRecord) : List String := record.briefs.map (·.participant.identity)

/-- The evidence of the case, of the verdict and of the briefs. -/
def evidence (record : CourtRecord) : List String :=
  record.courtCase.evidenceRefs ++ record.verdict.evidenceRefs.refs ++
    record.briefs.flatMap (·.evidenceRefs.refs)

end CourtRecord

end HiveMind.Court
