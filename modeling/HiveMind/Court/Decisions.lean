import HiveMind.Court.History

/-!
# Decisions on promotions

A promotion is decided by a judge, and the decision goes into a log. `append` takes a decision for
which the caller shows a court record: of the case that the decision names, on the artifact of the
candidate, decided by the judge of the decision. A decision that is not for a retest closes its
candidate.

A decision carries its candidate with it, and the court record is compared with that. What an
earlier decision said of the artifact of the candidate is not looked at, so a candidate that was
sent back for a retest may return with another artifact.

* **`decisions_sound`**: what holds of every log, whatever the callers hand in.
-/

open Raise AppendOnly

namespace HiveMind.Court

structure PromotionAuthorityError where
  message : String
deriving DecidableEq, Repr

inductive ExperimentVerdict where
  | keep
  | retest
  | discard
  | quarantine
  | stop
deriving DecidableEq, Repr

/-- `_TERMINAL_VERDICTS`: the verdicts that close a candidate. -/
def ExperimentVerdict.isTerminal (verdict : ExperimentVerdict) : Bool :=
  [.keep, .discard, .quarantine, .stop].contains verdict

/-- `_COMPATIBLE_DISPOSITIONS`. -/
def ExperimentVerdict.compatible : ExperimentVerdict → List CourtDisposition
  | .keep => [.adopt, .adapt]
  | .retest => [.defer]
  | .discard => [.reject]
  | .quarantine => [.quarantine]
  | .stop => [.defer, .reject]

/-! ## Candidates and decisions -/

/-- `_text`. -/
def promotionText (value label : String) : Except PromotionAuthorityError Unit :=
  if !isRequired value then .error ⟨label ++ " is required"⟩ else .ok ()

/-- `_refs`. -/
def promotionRefs (values : List String) (label : String) : Except PromotionAuthorityError Unit := do
  if values.isEmpty || values.any fun value ↦ !isRequired value then
    throw ⟨label ++ " require at least one retained reference"⟩
  if values.eraseDups.length != values.length then
    throw ⟨label ++ " must be unique"⟩

/-- `_artifact_digest`. -/
def promotionDigest (value label : String) : Except PromotionAuthorityError Unit := do
  promotionText value label
  if !isDigest value then
    throw ⟨label ++ " must be a canonical sha256:<64 lowercase hex> digest"⟩

/-- The arguments of `PromotionCandidate`. -/
structure CandidateFields where
  candidateId : String
  role : String
  experimentId : String
  artifactDigest : String
  parentChampionDigest : Option String
  proposerId : String
  builderId : String
  evidenceRefs : List String

/-- `PromotionCandidate.__post_init__`. -/
def CandidateFields.postInit (fields : CandidateFields) : Except PromotionAuthorityError Unit := do
  promotionText fields.candidateId "candidate id"
  if !isRole fields.role then
    throw ⟨"candidate role is not a kernel role"⟩
  promotionText fields.experimentId "experiment id"
  promotionDigest fields.artifactDigest "candidate artifact digest"
  match fields.parentChampionDigest with
  | some parent => promotionDigest parent "parent champion digest"
  | none => pure ()
  promotionText fields.proposerId "proposer id"
  promotionText fields.builderId "builder id"
  if some fields.artifactDigest = fields.parentChampionDigest then
    throw ⟨"a challenger cannot mutate the live champion in place"⟩
  if fields.proposerId = fields.builderId then
    throw ⟨"proposer and builder identities must be distinct"⟩
  promotionRefs fields.evidenceRefs "candidate evidence refs"

/-- A challenger, with the champion that it intends to replace. -/
structure PromotionCandidate extends CandidateFields where
  checked : toCandidateFields.postInit = .ok ()

/-- The arguments of `PromotionDecision` that the log reads or that the constructor checks. -/
structure DecisionFields where
  decisionId : String
  courtCaseId : String
  candidate : PromotionCandidate
  verdict : ExperimentVerdict
  judgeId : String
  evaluatorId : String
  reasons : List String
  contractFingerprint : String
  decidedAt : String
  promoterId : Option String
  action : String

namespace DecisionFields

/-- Those whose interests have to be apart. -/
def identities (fields : DecisionFields) : List String :=
  [fields.candidate.proposerId, fields.candidate.builderId, fields.evaluatorId, fields.judgeId]

/-- A promoter who is named has to be none of them. -/
def checkPromoter (fields : DecisionFields) : Except PromotionAuthorityError Unit :=
  match fields.promoterId with
  | some promoter => do
    promotionText promoter "promoter id"
    if fields.identities.contains promoter then
      throw ⟨"promoter must be independent of proposer, builder, evaluator, and judge"⟩
  | none => .ok ()

/-- `PromotionDecision.__post_init__`. The time of a decision that comes without one is filled in by
`PromotionDecision.make`. -/
def postInit (fields : DecisionFields) : Except PromotionAuthorityError Unit := do
  if fields.action != "apply" && fields.action != "rollback" then
    throw ⟨"unknown promotion action"⟩
  promotionText fields.decisionId "decision id"
  promotionText fields.courtCaseId "court case id"
  promotionText fields.judgeId "judge id"
  promotionText fields.evaluatorId "evaluator id"
  promotionRefs fields.reasons "decision reasons"
  promotionText fields.contractFingerprint "contract fingerprint"
  fields.checkPromoter
  if fields.identities.eraseDups.length != 4 then
    throw ⟨"promotion requires four distinct proposer, builder, evaluator, and judge identities"⟩

end DecisionFields

/-- The verdict of a judge on one candidate, bound to one case of the court. -/
structure PromotionDecision extends DecisionFields where
  checked : toDecisionFields.postInit = .ok ()

/-- `PromotionDecision(...)`, where `now` is what the clock says. -/
def PromotionDecision.make (fields : DecisionFields) (now : String) :
    Except PromotionAuthorityError PromotionDecision :=
  let stamped : DecisionFields :=
    { fields with decidedAt := if isRequired fields.decidedAt then fields.decidedAt else now }
  match checked : stamped.postInit with
  | .ok () => .ok ⟨stamped, checked⟩
  | .error e => .error e

private theorem length_eraseDups_le (values : List String) : values.eraseDups.length ≤ values.length := by
  induction hn : values.length using Nat.strong_induction_on generalizing values with
  | _ n ih =>
    cases values with
    | nil => exact Nat.zero_le n
    | cons value values =>
      rw [List.eraseDups_cons, List.length_cons]
      have hle := List.length_filter_le (fun b ↦ !b == value) values
      rw [List.length_cons] at hn
      have := ih _ (by omega) (values.filter fun b ↦ !b == value) rfl
      omega

/-- A list from which nothing is removed has no duplicates. -/
theorem nodup_of_length_eraseDups {values : List String}
    (h : values.eraseDups.length = values.length) : values.Nodup := by
  induction values with
  | nil => exact List.nodup_nil
  | cons value values ih =>
    rw [List.eraseDups_cons, List.length_cons, List.length_cons] at h
    have hfilter := length_eraseDups_le (values.filter fun b ↦ !b == value)
    have hle := List.length_filter_le (fun b ↦ !b == value) values
    have hall : values.filter (fun b ↦ !b == value) = values :=
      List.filter_eq_self.mpr (List.length_filter_eq_length_iff.mp (by omega))
    rw [hall] at h
    refine List.nodup_cons.mpr ⟨?_, ih (by omega)⟩
    intro hmem
    rw [← hall] at hmem
    simpa using (List.mem_filter.mp hmem).2

/-- The judge is none of those who worked on the candidate. -/
theorem PromotionDecision.judge_independent (decision : PromotionDecision) :
    decision.judgeId ∉
      [decision.candidate.proposerId, decision.candidate.builderId, decision.evaluatorId] := by
  have hchecked := decision.checked
  rw [DecisionFields.postInit] at hchecked
  obtain ⟨-, hchecked⟩ := guard_eq_ok.mp hchecked
  obtain ⟨-, -, hchecked⟩ := bind_eq_ok.mp hchecked
  obtain ⟨-, -, hchecked⟩ := bind_eq_ok.mp hchecked
  obtain ⟨-, -, hchecked⟩ := bind_eq_ok.mp hchecked
  obtain ⟨-, -, hchecked⟩ := bind_eq_ok.mp hchecked
  obtain ⟨-, -, hchecked⟩ := bind_eq_ok.mp hchecked
  obtain ⟨-, -, hchecked⟩ := bind_eq_ok.mp hchecked
  obtain ⟨-, -, hchecked⟩ := bind_eq_ok.mp hchecked
  have hfour : decision.identities.eraseDups.length = 4 := by simpa using check_eq_ok.mp hchecked
  have hnodup : ([decision.candidate.proposerId, decision.candidate.builderId,
      decision.evaluatorId] ++ [decision.judgeId]).Nodup :=
    nodup_of_length_eraseDups hfour
  exact fun hmem ↦ (List.nodup_append.mp hnodup).2.2 _ hmem _ (List.mem_singleton_self _) rfl

/-! ## The log -/

structure PromotionDecisionLog where
  decisions : List PromotionDecision

namespace PromotionDecisionLog

/-- `for_candidate`. -/
def forCandidate (log : PromotionDecisionLog) (candidateId : String) : List PromotionDecision :=
  log.decisions.filter (·.candidate.candidateId == candidateId)

/-- What the court record of a decision has to say. -/
def checkRecord (decision : PromotionDecision) (record : CourtRecord) :
    Except PromotionAuthorityError Unit := do
  if record.courtCase.subject != decision.candidate.artifactDigest then
    throw ⟨"court record is not bound to the candidate artifact digest"⟩
  if record.verdict.decidedBy != decision.judgeId then
    throw ⟨"promotion judge must be the court verdict's deciding identity"⟩
  let interested :=
    [decision.candidate.proposerId, decision.candidate.builderId, decision.evaluatorId]
  if !interested.all record.courtCase.affectedIdentities.contains then
    throw ⟨"proposer, builder, and evaluator must be declared affected identities " ++
      "of the court case"⟩
  if !decision.verdict.compatible.contains record.verdict.disposition then
    throw ⟨"court disposition does not authorize this promotion verdict"⟩
  if decision.verdict == .keep && record.courtCase.claimKind != .superiority then
    throw ⟨"a KEEP verdict requires a superiority claim before the court"⟩

/-- `append`. -/
def append (log : PromotionDecisionLog) (decision : PromotionDecision)
    (courtHistory : CourtHistory) : Except PromotionAuthorityError PromotionDecisionLog := do
  if log.decisions.any (·.decisionId == decision.decisionId) then
    throw ⟨"promotion decision ids are append-only and cannot be replaced"⟩
  if log.decisions.any (·.courtCaseId == decision.courtCaseId) then
    throw ⟨"one promotion decision per court case is allowed"⟩
  match courtHistory.findCase decision.courtCaseId with
  | none => throw ⟨"promotion requires an independent court record for its case id"⟩
  | some record => do
    checkRecord decision record
    if (log.forCandidate decision.candidate.candidateId).any (·.verdict.isTerminal) then
      throw ⟨"a terminal verdict for this candidate is append-only"⟩
    return ⟨log.decisions ++ [decision]⟩

end PromotionDecisionLog

/-- The arguments of a call of `append`. -/
structure DecisionCall where
  decision : PromotionDecision
  courtHistory : CourtHistory

/-- A call that raises leaves the caller with the log it had. -/
def PromotionDecisionLog.call (log : PromotionDecisionLog) (c : DecisionCall) :
    PromotionDecisionLog :=
  match log.append c.decision c.courtHistory with
  | .ok log' => log'
  | .error _ => log

/-- The log that the calls build. -/
def decisionsOf (calls : List DecisionCall) : PromotionDecisionLog :=
  calls.foldl PromotionDecisionLog.call ⟨[]⟩

/-! ## What a decision was admitted for -/

/-- The record of the court that stands behind a decision. -/
structure Backs (record : CourtRecord) (decision : PromotionDecision) : Prop where
  case : record.courtCase.caseId = decision.courtCaseId
  subject : record.courtCase.subject = decision.candidate.artifactDigest
  judge : record.verdict.decidedBy = decision.judgeId
  affected : ∀ identity ∈
    [decision.candidate.proposerId, decision.candidate.builderId, decision.evaluatorId],
    identity ∈ record.courtCase.affectedIdentities
  disposition : record.verdict.disposition ∈ decision.verdict.compatible
  burden : decision.verdict = .keep → record.courtCase.claimKind = .superiority

/-- What `append` checks of a decision against those that are there. -/
structure Opens (before : List PromotionDecision) (decision : PromotionDecision) : Prop where
  decisionId : decision.decisionId ∉ before.map (·.decisionId)
  courtCaseId : decision.courtCaseId ∉ before.map (·.courtCaseId)
  candidate : ∀ prior ∈ before, prior.candidate.candidateId = decision.candidate.candidateId →
    ¬prior.verdict.isTerminal

/-- What a decision needs from the court: its case, its artifact and its judge, who worked on none
of it, and for a promotion an approving verdict on a claim of superiority. -/
structure Supports (record : CourtRecord) (decision : PromotionDecision) : Prop where
  case : record.courtCase.caseId = decision.courtCaseId
  subject : record.courtCase.subject = decision.candidate.artifactDigest
  judge : record.verdict.decidedBy = decision.judgeId
  independent : record.verdict.decidedBy ∉
    [decision.candidate.proposerId, decision.candidate.builderId, decision.evaluatorId]
  promotes : decision.verdict = .keep →
    record.verdict.disposition.isApproving ∧ record.courtCase.claimKind = .superiority

theorem Backs.supports {record : CourtRecord} {decision : PromotionDecision}
    (h : Backs record decision) : Supports record decision := by
  refine ⟨h.case, h.subject, h.judge, h.judge ▸ decision.judge_independent, ?_⟩
  intro hkeep
  refine ⟨?_, h.burden hkeep⟩
  have hdisposition := h.disposition
  rw [hkeep, ExperimentVerdict.compatible, List.mem_cons, List.mem_singleton] at hdisposition
  rcases hdisposition with hadopt | hadapt
  · rw [hadopt]
    rfl
  · rw [hadapt]
    rfl

theorem backs_of_checkRecord {decision : PromotionDecision} {record : CourtRecord}
    (hcase : record.courtCase.caseId = decision.courtCaseId)
    (h : PromotionDecisionLog.checkRecord decision record = .ok ()) : Backs record decision := by
  rw [PromotionDecisionLog.checkRecord] at h
  obtain ⟨hsubject, h⟩ := guard_eq_ok.mp h
  obtain ⟨hjudge, h⟩ := guard_eq_ok.mp h
  obtain ⟨haffected, h⟩ := guard_eq_ok.mp h
  obtain ⟨hdisposition, h⟩ := guard_eq_ok.mp h
  have hburden := check_eq_ok.mp h
  refine ⟨hcase, by simpa using hsubject, by simpa using hjudge, ?_, by simpa using hdisposition, ?_⟩
  · simpa using haffected
  · intro hkeep
    simpa [hkeep] using hburden

theorem appended {log log' : PromotionDecisionLog} {decision : PromotionDecision}
    {courtHistory : CourtHistory} (hok : log.append decision courtHistory = .ok log') :
    log'.decisions = log.decisions ++ [decision] ∧ Opens log.decisions decision ∧
      ∃ record ∈ courtHistory.records, Backs record decision := by
  rw [PromotionDecisionLog.append] at hok
  obtain ⟨hid, hok⟩ := guard_eq_ok.mp hok
  obtain ⟨hcase, hok⟩ := guard_eq_ok.mp hok
  split at hok
  · exact nomatch hok
  next record hfind =>
    obtain ⟨⟨⟩, hrecord, hok⟩ := bind_eq_ok.mp hok
    obtain ⟨hclosed, hok⟩ := guard_eq_ok.mp hok
    obtain rfl := Except.ok.inj hok
    have hbacks := backs_of_checkRecord (by simpa using List.find?_some hfind) hrecord
    refine ⟨rfl, ⟨by simpa using hid, by simpa using hcase, ?_⟩, record,
      List.mem_of_find?_eq_some hfind, hbacks⟩
    intro prior hprior hsame hterminal
    refine hclosed (List.any_eq_true.mpr ⟨prior, ?_, hterminal⟩)
    exact List.mem_filter.mpr ⟨hprior, by simpa using hsame⟩

/-- A decision with a record that checks goes into the log. -/
theorem append_of_opens (log : PromotionDecisionLog) {decision : PromotionDecision}
    {courtHistory : CourtHistory} {record : CourtRecord} (hopens : Opens log.decisions decision)
    (hfind : courtHistory.findCase decision.courtCaseId = some record)
    (hcheck : PromotionDecisionLog.checkRecord decision record = .ok ()) :
    log.append decision courtHistory = .ok ⟨log.decisions ++ [decision]⟩ := by
  have hid : ¬log.decisions.any (·.decisionId == decision.decisionId) = true := by
    simpa using hopens.decisionId
  have hcase : ¬log.decisions.any (·.courtCaseId == decision.courtCaseId) = true := by
    simpa using hopens.courtCaseId
  have hclosed : ¬(log.forCandidate decision.candidate.candidateId).any
      (·.verdict.isTerminal) = true := by
    rw [List.any_eq_true]
    rintro ⟨prior, hprior, hterminal⟩
    obtain ⟨hbefore, hsame⟩ := List.mem_filter.mp hprior
    exact hopens.candidate prior hbefore (eq_of_beq hsame) hterminal
  rw [PromotionDecisionLog.append]
  refine guard_eq_ok.mpr ⟨hid, guard_eq_ok.mpr ⟨hcase, ?_⟩⟩
  rw [hfind]
  exact bind_eq_ok.mpr ⟨(), hcheck, guard_eq_ok.mpr ⟨hclosed, rfl⟩⟩

/-! ## Runs -/

@[simp] theorem decisionsOf_concat (calls : List DecisionCall) (c : DecisionCall) :
    decisionsOf (calls ++ [c]) = (decisionsOf calls).call c := by
  rw [decisionsOf, List.foldl_append]
  rfl

/-- A call appends a decision that opens no closed candidate, or changes nothing. -/
theorem PromotionDecisionLog.call_cases (log : PromotionDecisionLog) (c : DecisionCall) :
    log.call c = log ∨ (log.append c.decision c.courtHistory = .ok (log.call c) ∧
      (log.call c).decisions = log.decisions ++ [c.decision] ∧
      Opens log.decisions c.decision ∧
      ∃ record ∈ c.courtHistory.records, Backs record c.decision) := by
  rw [PromotionDecisionLog.call]
  split
  · next log' hok => exact .inr ⟨hok, appended hok⟩
  · exact .inl rfl

/-- Each decision opened no closed candidate when it came. -/
theorem admitted_decisionsOf (calls : List DecisionCall) :
    Admitted Opens (decisionsOf calls).decisions := by
  induction calls using List.reverseRecOn with
  | nil => exact .nil
  | append_singleton calls c ih =>
    rw [decisionsOf_concat]
    rcases (decisionsOf calls).call_cases c with hcall | ⟨-, hcall, hopens, -⟩
    · rwa [hcall]
    · rw [hcall]
      exact ih.concat hopens

/-- The call with this number appended the decision, and a record of the court that was shown with
it stands behind it. -/
def BackedAt (calls : List DecisionCall) (n : ℕ) (decision : PromotionDecision) : Prop :=
  ∃ courtHistory, calls[n]? = some ⟨decision, courtHistory⟩ ∧
    (decisionsOf (calls.take n)).append decision courtHistory =
      .ok (decisionsOf (calls.take (n + 1))) ∧
    ∃ record ∈ courtHistory.records, Supports record decision

theorem BackedAt.concat {calls : List DecisionCall} {n : ℕ} {decision : PromotionDecision}
    (h : BackedAt calls n decision) (c : DecisionCall) : BackedAt (calls ++ [c]) n decision := by
  obtain ⟨courtHistory, hcall, happend, hrecord⟩ := h
  obtain ⟨hn, -⟩ := List.getElem?_eq_some_iff.mp hcall
  refine ⟨courtHistory, ?_, ?_, hrecord⟩
  · rwa [List.getElem?_append_left hn]
  · rwa [List.take_append_of_le_length hn.le, List.take_append_of_le_length hn]

theorem exists_backedAt (calls : List DecisionCall) :
    ∀ decision ∈ (decisionsOf calls).decisions, ∃ n, BackedAt calls n decision := by
  induction calls using List.reverseRecOn with
  | nil => exact fun decision hmem ↦ absurd hmem List.not_mem_nil
  | append_singleton calls c ih =>
    intro decision hmem
    have hearlier : decision ∈ (decisionsOf calls).decisions →
        ∃ n, BackedAt (calls ++ [c]) n decision := by
      intro hbefore
      obtain ⟨n, hn⟩ := ih decision hbefore
      exact ⟨n, hn.concat c⟩
    rw [decisionsOf_concat] at hmem
    rcases (decisionsOf calls).call_cases c with hcall | ⟨happend, hcall, -, hrecord⟩
    · rw [hcall] at hmem
      exact hearlier hmem
    · rw [hcall, List.mem_append, List.mem_singleton] at hmem
      obtain hbefore | rfl := hmem
      · exact hearlier hbefore
      · obtain ⟨record, hmem, hbacks⟩ := hrecord
        refine ⟨calls.length, c.courtHistory, ?_, ?_, record, hmem, hbacks.supports⟩
        · rw [List.getElem?_append_right le_rfl, Nat.sub_self]
          rfl
        · rw [List.take_left, List.take_of_length_le (by simp), decisionsOf_concat, happend]

/-! ## The rules for decisions -/

/-- What has to hold of the decisions that the calls leave in the log. -/
structure Decided (calls : List DecisionCall) : Prop where
  decisionIds : ((decisionsOf calls).decisions.map (·.decisionId)).Nodup
  courtCaseIds : ((decisionsOf calls).decisions.map (·.courtCaseId)).Nodup
  once : ∀ candidateId,
    (((decisionsOf calls).forCandidate candidateId).filter (·.verdict.isTerminal)).length ≤ 1
  last : ∀ candidateId, ∀ decision ∈ (decisionsOf calls).forCandidate candidateId,
    decision.verdict.isTerminal →
      ((decisionsOf calls).forCandidate candidateId).getLast? = some decision
  backed : ∀ decision ∈ (decisionsOf calls).decisions, ∃ n, BackedAt calls n decision

/-- All decisions on a candidate are on one artifact. -/
def OneArtifact (calls : List DecisionCall) : Prop :=
  ∀ decision ∈ (decisionsOf calls).decisions, ∀ other ∈ (decisionsOf calls).decisions,
    decision.candidate.candidateId = other.candidate.candidateId →
      decision.candidate.artifactDigest = other.candidate.artifactDigest

/-- The decisions on one candidate: each comes when none before it has closed the candidate. -/
theorem admitted_forCandidate (calls : List DecisionCall) (candidateId : String) :
    Admitted (fun before _ ↦ ∀ prior ∈ before, ¬prior.verdict.isTerminal)
      ((decisionsOf calls).forCandidate candidateId) := by
  refine (admitted_decisionsOf calls).filter ?_
  intro before decision _ hopens hsame prior hprior
  obtain ⟨hbefore, hcandidate⟩ := List.mem_filter.mp hprior
  refine hopens.candidate prior hbefore ?_
  rw [eq_of_beq hcandidate, eq_of_beq hsame]

/-- **However many calls are made, with whatever court histories: ids are not reused, a candidate is
closed at most once and then for good, and the court stands behind each decision.** -/
theorem decisions_sound (calls : List DecisionCall) : Decided calls := by
  have hadm := admitted_decisionsOf calls
  have hlast : ∀ candidateId before decision after,
      (decisionsOf calls).forCandidate candidateId = before ++ decision :: after →
      decision.verdict.isTerminal → after = [] := by
    intro candidateId before decision after heq hterminal
    cases after with
    | nil => rfl
    | cons next after =>
      have hsplit : (decisionsOf calls).forCandidate candidateId =
          (before ++ [decision]) ++ next :: after := by
        rw [heq, List.append_assoc, List.singleton_append]
      have hopen := admitted_forCandidate calls candidateId _ _ _ hsplit
      exact absurd hterminal (hopen decision (List.mem_append_right _ (List.mem_singleton_self _)))
  constructor
  · exact hadm.nodup_map fun _ _ h ↦ h.decisionId
  · exact hadm.nodup_map fun _ _ h ↦ h.courtCaseId
  · intro candidateId
    -- among the decisions that close the candidate, each has none in front of it
    have hfirst : Admitted (fun before _ ↦ before = [])
        (((decisionsOf calls).forCandidate candidateId).filter (·.verdict.isTerminal)) := by
      refine (admitted_forCandidate calls candidateId).filter ?_
      intro before decision _ hopen _
      exact List.filter_eq_nil_iff.mpr hopen
    rcases hclosing : ((decisionsOf calls).forCandidate candidateId).filter
      (·.verdict.isTerminal) with _ | ⟨decision, _ | ⟨next, after⟩⟩
    · rw [hclosing]
      exact Nat.zero_le 1
    · rw [hclosing]
      exact le_rfl
    · exact absurd (hfirst [decision] next after hclosing) (List.cons_ne_nil _ _)
  · intro candidateId decision hmem hterminal
    obtain ⟨before, after, heq⟩ := List.append_of_mem hmem
    rw [hlast candidateId before decision after heq hterminal] at heq
    rw [heq, List.getLast?_concat]
  · exact exists_backedAt calls

/-! ### A candidate that comes back with another artifact -/

def firstArtifact : String :=
  "sha256:aaaaaaaaaaaaaaaaaaaaaaaaaaaaaaaaaaaaaaaaaaaaaaaaaaaaaaaaaaaaaaaa"

def secondArtifact : String :=
  "sha256:bbbbbbbbbbbbbbbbbbbbbbbbbbbbbbbbbbbbbbbbbbbbbbbbbbbbbbbbbbbbbbbb"

/-- The candidate, with one of its artifacts. -/
def candidateWith (artifactDigest : String)
    (checked : (CandidateFields.mk "CAND-1" "builder" "EXP-1" artifactDigest none "proposer-1"
      "builder-1" ["evidence:1"]).postInit = .ok () := by decide +kernel) : PromotionCandidate :=
  ⟨_, checked⟩

theorem isRequired_evidence : ["evidence:1"] ≠ [] ∧ ∀ r ∈ ["evidence:1"], isRequired r := by decide

/-- The court defers the first artifact of the candidate. -/
def deferred : CourtRecord where
  courtCase := ⟨"CASE-1", .superiority, firstArtifact, ["proposer-1", "builder-1", "evaluator-1"],
    [], []⟩
  briefs := firstCourt
  verdict := verdictOf "CASE-1" .defer "judge-1" "evidence:1" isRequired_evidence
  appealOf := none
  bound := rfl
  panel := rfl

/-- The court adopts another artifact. -/
def adopted : CourtRecord where
  courtCase := ⟨"CASE-2", .superiority, secondArtifact, ["proposer-1", "builder-1", "evaluator-1"],
    [], []⟩
  briefs := firstCourt
  verdict := verdictOf "CASE-2" .adopt "judge-1" "evidence:1" isRequired_evidence
  appealOf := none
  bound := rfl
  panel := rfl

def retestDecision : PromotionDecision where
  decisionId := "DEC-1"
  courtCaseId := "CASE-1"
  candidate := candidateWith firstArtifact
  verdict := .retest
  judgeId := "judge-1"
  evaluatorId := "evaluator-1"
  reasons := ["burden not met"]
  contractFingerprint := "contract-1"
  decidedAt := "2026-08-01T00:00:00Z"
  promoterId := none
  action := "apply"
  checked := by decide +kernel

def keepDecision : PromotionDecision where
  decisionId := "DEC-2"
  courtCaseId := "CASE-2"
  candidate := candidateWith secondArtifact
  verdict := .keep
  judgeId := "judge-1"
  evaluatorId := "evaluator-1"
  reasons := ["burden met"]
  contractFingerprint := "contract-1"
  decidedAt := "2026-08-02T00:00:00Z"
  promoterId := none
  action := "apply"
  checked := by decide +kernel

/-- A call for a deferral and a call for the adoption of the other artifact. -/
def twoCalls : List DecisionCall :=
  [⟨retestDecision, ⟨[deferred]⟩⟩, ⟨keepDecision, ⟨[deferred, adopted]⟩⟩]

private theorem checked_retest :
    PromotionDecisionLog.checkRecord retestDecision deferred = .ok () := by decide

private theorem checked_keep :
    PromotionDecisionLog.checkRecord keepDecision adopted = .ok () := by decide

private theorem decisions_twoCalls :
    (decisionsOf twoCalls).decisions = [retestDecision, keepDecision] := by
  have hretest : CourtHistory.findCase ⟨[deferred]⟩ retestDecision.courtCaseId = some deferred :=
    List.find?_cons_of_pos (by decide)
  have hkeep : CourtHistory.findCase ⟨[deferred, adopted]⟩ keepDecision.courtCaseId =
      some adopted :=
    (List.find?_cons_of_neg (by decide)).trans (List.find?_cons_of_pos (by decide))
  have hopens : Opens [retestDecision] keepDecision := by
    refine ⟨by decide, by decide, ?_⟩
    intro prior hprior _
    obtain rfl := List.mem_singleton.mp hprior
    decide
  have hfirst := append_of_opens ⟨[]⟩
    ⟨List.not_mem_nil, List.not_mem_nil, nofun⟩ hretest checked_retest
  have hsecond := append_of_opens ⟨[] ++ [retestDecision]⟩ hopens hkeep checked_keep
  have hcalls : decisionsOf twoCalls = ⟨([] ++ [retestDecision]) ++ [keepDecision]⟩ := by
    simp only [decisionsOf, twoCalls, List.foldl_cons, List.foldl_nil, PromotionDecisionLog.call,
      hfirst, hsecond]
  rw [hcalls]
  rfl

/-- A candidate is sent back for a retest, and it is kept with another artifact. -/
theorem retested_with_another_artifact : ¬(Decided twoCalls ∧ OneArtifact twoCalls) := by
  rintro ⟨-, hone⟩
  rw [OneArtifact, decisions_twoCalls] at hone
  have hretest : retestDecision.candidate.candidateId = "CAND-1" := rfl
  have hkeep : keepDecision.candidate.candidateId = "CAND-1" := rfl
  have hsame := hone retestDecision List.mem_cons_self keepDecision
    (List.mem_cons_of_mem _ (List.mem_singleton_self _)) (hretest.trans hkeep.symm)
  have hdiffer : firstArtifact ≠ secondArtifact := by decide
  exact hdiffer hsame

end HiveMind.Court
