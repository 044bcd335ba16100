import HiveMind.Court.Records

/-!
# Histories of a court

A history is built by calls of `record_case`. A call that raises leaves the history as it was. What
`append` checks is a relation between the records that are there and the new one, so every record
of a history stands in it to the records before.

The panel of a case is refused an approving verdict while suspected cheating is unresolved. A
confirmed suspicion is not looked for. The judge of an appeal is compared with the court of the
parent. The courts above the parent are not looked at.

* **`orderly_iff`**: a history keeps the rules of the court if and only if these two cases do not
  occur in it.
-/

open Raise AppendOnly

namespace HiveMind.Court

structure CourtHistory where
  records : List CourtRecord

namespace CourtHistory

/-- `item.case.case_id == appeal_of`, for the first such item. -/
def findCase (h : CourtHistory) (caseId : String) : Option CourtRecord :=
  h.records.find? (·.courtCase.caseId == caseId)

/-- What `append` checks of a record that is an appeal. -/
def checkAppeal (h : CourtHistory) (record : CourtRecord) (appealOf : String) :
    Except CourtProtocolError Unit := do
  match h.findCase appealOf with
  | none => throw ⟨"appeal must retain an existing parent record"⟩
  | some parent =>
    if !parent.verdict.disposition.isAdverse then
      throw ⟨"appeals are only available after rejected or quarantined verdicts"⟩
    match (record.briefs.map (·.participant)).filter (·.seat == .appealsJudge) with
    | [appeals] =>
      if record.verdict.decidedBy != appeals.identity then
        throw ⟨"appeal verdict requires its assigned appeals judge"⟩
      if parent.identities.contains appeals.identity then
        throw ⟨"appeals judge must be distinct from the original court"⟩
      if record.evidence.all parent.evidence.contains then
        throw ⟨"appeal requires materially new retained evidence"⟩
    | _ => throw ⟨"appeal verdict requires its assigned appeals judge"⟩

/-- A record that names no parent is not an appeal. -/
def checkParent (h : CourtHistory) (record : CourtRecord) : Except CourtProtocolError Unit :=
  match record.appealOf with
  | some appealOf => h.checkAppeal record appealOf
  | none => .ok ()

/-- `CourtHistory.append`. -/
def append (h : CourtHistory) (record : CourtRecord) : Except CourtProtocolError CourtHistory := do
  if h.records.any (·.courtCase.caseId == record.courtCase.caseId) then
    throw ⟨"court case ids are append-only and cannot be replaced"⟩
  h.checkParent record
  return ⟨h.records ++ [record]⟩

/-- `record_case`. -/
def recordCase (h : CourtHistory) (courtCase : CourtCase) (briefs : List CourtBrief)
    (verdict : CourtVerdict) (appealOf : Option String) :
    Except CourtProtocolError CourtHistory := do
  h.append (← CourtRecord.make courtCase briefs verdict appealOf)

end CourtHistory

/-- The arguments of a call of `record_case`. -/
structure Call where
  courtCase : CourtCase
  briefs : List CourtBrief
  verdict : CourtVerdict
  appealOf : Option String

/-- A call that raises leaves the caller with the history it had. -/
def CourtHistory.call (h : CourtHistory) (c : Call) : CourtHistory :=
  match h.recordCase c.courtCase c.briefs c.verdict c.appealOf with
  | .ok h' => h'
  | .error _ => h

/-- The history that the calls build. -/
def build (calls : List Call) : CourtHistory := calls.foldl CourtHistory.call ⟨[]⟩

/-! ## What a record was checked for -/

/-- The appeal has an adverse parent, brings new evidence, and its judge held no seat in the court
of the parent. -/
structure AppealsFrom (record parent : CourtRecord) : Prop where
  adverse : parent.verdict.disposition.isAdverse
  evidence : ∃ ref ∈ record.evidence, ref ∉ parent.evidence
  distinct : record.verdict.decidedBy ∉ parent.identities

/-- What `append` checks of a record against those that are there. -/
structure Admissible (before : List CourtRecord) (record : CourtRecord) : Prop where
  fresh : record.courtCase.caseId ∉ before.map (·.courtCase.caseId)
  appeal : ∀ parentId ∈ record.appealOf, ∃ parent ∈ before,
    parent.courtCase.caseId = parentId ∧ AppealsFrom record parent

theorem appealsFrom_of_checkAppeal {h : CourtHistory} {record : CourtRecord} {parentId : String}
    (hcheck : h.checkAppeal record parentId = .ok ()) :
    ∃ parent ∈ h.records, parent.courtCase.caseId = parentId ∧ AppealsFrom record parent := by
  rw [CourtHistory.checkAppeal] at hcheck
  split at hcheck
  · exact nomatch hcheck
  next parent hfind =>
    obtain ⟨hadverse, hcheck⟩ := guard_eq_ok.mp hcheck
    split at hcheck
    · next appeals hseats =>
      obtain ⟨hdecided, hcheck⟩ := guard_eq_ok.mp hcheck
      obtain ⟨hdistinct, hcheck⟩ := guard_eq_ok.mp hcheck
      have hevidence := check_eq_ok.mp hcheck
      have hdecided : record.verdict.decidedBy = appeals.identity := by simpa using hdecided
      refine ⟨parent, List.mem_of_find?_eq_some hfind, ?_, ?_, ?_, ?_⟩
      · simpa using List.find?_some hfind
      · simpa using hadverse
      · simpa using hevidence
      · rw [hdecided]
        simpa using hdistinct
    · exact nomatch hcheck

theorem append_eq_ok {h h' : CourtHistory} {record : CourtRecord} (hok : h.append record = .ok h') :
    h'.records = h.records ++ [record] ∧ Admissible h.records record := by
  rw [CourtHistory.append] at hok
  obtain ⟨hfresh, hok⟩ := guard_eq_ok.mp hok
  obtain ⟨⟨⟩, happeal, hok⟩ := bind_eq_ok.mp hok
  obtain rfl := Except.ok.inj hok
  refine ⟨rfl, ?_, ?_⟩
  · simpa using hfresh
  · intro parentId hparent
    rw [CourtHistory.checkParent, Option.mem_def.mp hparent] at happeal
    exact appealsFrom_of_checkAppeal happeal

/-- A call appends an admissible record, or changes nothing. -/
theorem call_cases (h : CourtHistory) (c : Call) :
    h.call c = h ∨
      ∃ record, (h.call c).records = h.records ++ [record] ∧ Admissible h.records record := by
  rw [CourtHistory.call]
  split
  · next h' hok =>
    obtain ⟨record, -, happend⟩ := bind_eq_ok.mp hok
    exact .inr ⟨record, append_eq_ok happend⟩
  · exact .inl rfl

/-! ## Runs -/

theorem prefix_call (h : CourtHistory) (c : Call) : h.records <+: (h.call c).records := by
  rcases call_cases h c with hcall | ⟨record, hcall, -⟩
  · simp only [hcall, List.prefix_rfl]
  · rw [hcall]
    exact List.prefix_append _ _

theorem prefix_foldl (calls : List Call) (h : CourtHistory) :
    h.records <+: (calls.foldl CourtHistory.call h).records := by
  induction calls generalizing h with
  | nil => exact List.prefix_rfl
  | cons c calls ih => exact (prefix_call h c).trans (ih (h.call c))

/-- Calls only add records. -/
theorem prefix_build (calls : List Call) (n : ℕ) :
    (build (calls.take n)).records <+: (build calls).records := by
  have hsplit : build calls = (calls.drop n).foldl CourtHistory.call (build (calls.take n)) := by
    rw [build, build, ← List.foldl_append, List.take_append_drop]
  rw [hsplit]
  exact prefix_foldl _ _

theorem admitted_foldl (calls : List Call) {h : CourtHistory} (hadm : Admitted Admissible h.records) :
    Admitted Admissible (calls.foldl CourtHistory.call h).records := by
  induction calls generalizing h with
  | nil => exact hadm
  | cons c calls ih =>
    refine ih ?_
    rcases call_cases h c with hcall | ⟨record, hcall, hrecord⟩
    · rwa [hcall]
    · rw [hcall]
      exact hadm.concat hrecord

/-- Every record of a history was admissible when it came. -/
theorem admitted_build (calls : List Call) : Admitted Admissible (build calls).records :=
  admitted_foldl calls .nil

/-! ## The rules of the court -/

/-- The record is an appeal from the other. -/
def IsAppealOf (h : CourtHistory) : CourtRecord → CourtRecord → Prop :=
  Links (·.courtCase.caseId) (·.appealOf.toList) h.records

/-- The court is above that of the record in its chain of appeals. -/
def IsAbove (h : CourtHistory) : CourtRecord → CourtRecord → Prop :=
  Relation.TransGen (IsAppealOf h)

/-- What has to hold of the records of a court. -/
structure Sound (h : CourtHistory) : Prop where
  ids : (h.records.map (·.courtCase.caseId)).Nodup
  approvals : ∀ record ∈ h.records, record.verdict.disposition.isApproving →
    ∀ consultation ∈ record.courtCase.consultations,
      consultation.cheatingDisposition ≠ .confirmed ∧
        consultation.cheatingDisposition ≠ .unresolved
  judges : ∀ record ∈ h.records,
    record.verdict.decidedBy ∉ record.courtCase.affectedIdentities ∧
      ∀ result ∈ record.courtCase.roleResults, result.executorId ≠ record.verdict.decidedBy
  appeals : ∀ before record after, h.records = before ++ record :: after →
    ∀ parentId ∈ record.appealOf, ∃ parent ∈ before, parent.courtCase.caseId = parentId ∧
      parent.verdict.disposition.isAdverse ∧ ∃ ref ∈ record.evidence, ref ∉ parent.evidence
  chains : ∀ record above, IsAbove h record above → record.verdict.decidedBy ∉ above.identities

/-- The two cases that the code does not look for do not occur in the record: a confirmed
suspicion in a case that is approved, and a judge of an appeal who sat in a court above the
parent. -/
structure Careful (h : CourtHistory) (record : CourtRecord) : Prop where
  approval : record.verdict.disposition.isApproving →
    ∀ consultation ∈ record.courtCase.consultations,
      consultation.cheatingDisposition ≠ .confirmed
  chain : ∀ parent above, IsAppealOf h record parent → IsAbove h parent above →
    record.verdict.decidedBy ∉ above.identities

/-- The history keeps the rules, and every call on the way has only added to it. -/
def Orderly (calls : List Call) : Prop :=
  (∀ n, (build (calls.take n)).records <+: (build calls).records) ∧ Sound (build calls)

/-- What the panel of a record was checked for, as far as the rules need it. -/
theorem CourtRecord.panel_sound (record : CourtRecord) :
    record.verdict.decidedBy ∉ record.courtCase.sourceIdentities ∧
      (record.verdict.disposition.isApproving → ∀ consultation ∈ record.courtCase.consultations,
        consultation.cheatingDisposition ≠ .unresolved) := by
  have hpanel := record.panel
  rw [validatePanel] at hpanel
  obtain ⟨-, hpanel⟩ := guard_eq_ok.mp hpanel
  obtain ⟨-, hpanel⟩ := guard_eq_ok.mp hpanel
  obtain ⟨-, hpanel⟩ := guard_eq_ok.mp hpanel
  obtain ⟨-, hpanel⟩ := guard_eq_ok.mp hpanel
  obtain ⟨hdecided, hpanel⟩ := guard_eq_ok.mp hpanel
  obtain ⟨haffected, hpanel⟩ := guard_eq_ok.mp hpanel
  obtain ⟨-, -, hpanel⟩ := bind_eq_ok.mp hpanel
  have hunresolved := check_eq_ok.mp hpanel
  constructor
  · intro hsource
    -- the deciding participant is there, and it is the one the verdict names
    cases hdeciding : (bySeat record.briefs .appealsJudge).or (bySeat record.briefs .judge) with
    | none => simp [hdeciding] at hdecided
    | some participant =>
      simp only [hdeciding, Option.map_some, bne_iff_ne, ne_eq, Option.some.injEq,
        not_not] at hdecided
      rw [hdeciding, Option.any_some, hdecided] at haffected
      exact haffected (by simpa using hsource)
  · intro happroving consultation hmem hcheating
    refine hunresolved ?_
    rw [happroving, Bool.and_true, List.any_eq_true]
    exact ⟨consultation, hmem, by simpa using hcheating⟩

/-- The parent of an appeal is the record that it was compared with. -/
theorem appealsFrom_of_isAppealOf {calls : List Call} {record parent : CourtRecord}
    (h : IsAppealOf (build calls) record parent) : AppealsFrom record parent := by
  obtain ⟨hrecord, hparent, hlink⟩ := h
  obtain ⟨before, after, heq, hadm⟩ := (admitted_build calls).exists_of_mem hrecord
  obtain ⟨parent', hparent', hid, hfrom⟩ := hadm.appeal _ (by simpa using hlink)
  have hnodup : ((build calls).records.map (·.courtCase.caseId)).Nodup :=
    (admitted_build calls).nodup_map fun _ _ h ↦ h.fresh
  have hmem : parent' ∈ (build calls).records := by
    rw [heq]
    exact List.mem_append_left _ hparent'
  rwa [eq_of_key hnodup hparent hmem hid.symm]

/-- A court above a record is that of its parent, or it is above its parent. -/
theorem isAbove_iff {h : CourtHistory} {record above : CourtRecord} :
    IsAbove h record above ↔
      ∃ parent, IsAppealOf h record parent ∧ (above = parent ∨ IsAbove h parent above) := by
  rw [IsAbove, Relation.TransGen.head'_iff]
  simp only [Relation.reflTransGen_iff_eq_or_transGen]

/-- The rules hold in a history if and only if the two cases that are not looked for do not occur
in it. -/
theorem orderly_iff (calls : List Call) :
    Orderly calls ↔ ∀ record ∈ (build calls).records, Careful (build calls) record := by
  constructor
  · rintro ⟨-, hsound⟩ record hrecord
    constructor
    · intro happroving consultation hmem
      exact (hsound.approvals record hrecord happroving consultation hmem).1
    · intro parent above hparent habove
      exact hsound.chains record above (isAbove_iff.mpr ⟨parent, hparent, .inr habove⟩)
  · intro hcareful
    refine ⟨prefix_build calls, ?_, ?_, ?_, ?_, ?_⟩
    · exact (admitted_build calls).nodup_map fun _ _ h ↦ h.fresh
    · intro record hrecord happroving consultation hmem
      exact ⟨(hcareful record hrecord).approval happroving consultation hmem,
        record.panel_sound.2 happroving consultation hmem⟩
    · intro record _
      have hsource := record.panel_sound.1
      rw [CourtCase.sourceIdentities, mem_fromKeys, List.mem_append, not_or] at hsource
      refine ⟨hsource.1, ?_⟩
      intro result hresult hexecutor
      exact hsource.2 (List.mem_map.mpr ⟨result, hresult, hexecutor⟩)
    · intro before record after heq parentId hparent
      obtain ⟨parent, hmem, hid, hfrom⟩ :=
        (admitted_build calls before record after heq).appeal parentId hparent
      exact ⟨parent, hmem, hid, hfrom.adverse, hfrom.evidence⟩
    · intro record above habove
      obtain ⟨parent, hparent, rfl | habove⟩ := isAbove_iff.mp habove
      · exact (appealsFrom_of_isAppealOf hparent).distinct
      · exact (hcareful record hparent.1).chain parent above hparent habove

/-! ### Two histories that break the rules -/

/-- A brief of a seat that cites one reference. -/
def seated (seat : CourtSeat) (identity task ref : String)
    (valid : isRequired identity ∧ isRequired task ∧ isIdentityKind "procedural_role" := by decide)
    (hrefs : [ref] ≠ [] ∧ ∀ r ∈ [ref], isRequired r := by decide) : CourtBrief :=
  ⟨⟨seat, identity, task, "procedural_role", valid⟩, "conclusion", ⟨[ref], hrefs⟩, [], [], none⟩

/-- The court of the first instance. -/
def firstCourt : List CourtBrief := [
  seated .advocate "advocate-1" "present the strongest supported case" "evidence:1",
  seated .crossExaminer "cross-1" "find contradictions and counterexamples" "evidence:2",
  seated .expertWitness "expert-1" "assess evidence quality" "evidence:3",
  seated .judge "judge-1" "weigh the retained record" "evidence:4"]

/-- A court of appeal without its judge, with new members. -/
def appealCourt : List CourtBrief := [
  seated .advocate "advocate-2" "present the strongest supported case" "evidence:1",
  seated .crossExaminer "cross-2" "find contradictions and counterexamples" "evidence:2",
  seated .expertWitness "expert-2" "assess evidence quality" "evidence:3",
  seated .judge "judge-2" "weigh the retained record" "evidence:4"]

/-- A round of roles has confirmed that the tests were weakened. -/
def confirmedCheating : ConsultationResult where
  requestId := "REQ-1"
  missionId := "MISSION-1"
  question := "were the tests weakened?"
  reasonCode := .suspectedCheating
  requestingRole := "builder"
  consultedRoles := ["curator", "explorer"]
  round := 1
  suspectedCheating := true
  evidenceRefs := ["evidence:1"]
  decision := .quarantine
  answer := none
  dissent := []
  humanEscalation := false
  authorityClass := none
  roleFirstExhausted := true
  cheatingDisposition := .confirmed
  identityRecords := [⟨"curator-1", "model_role", "curator"⟩,
    ⟨"explorer-1", "model_role", "explorer"⟩]
  checked := rfl

def verdictOf (caseId : String) (disposition : CourtDisposition) (decidedBy ref : String)
    (hrefs : [ref] ≠ [] ∧ ∀ r ∈ [ref], isRequired r := by decide) : CourtVerdict :=
  ⟨caseId, disposition, decidedBy, ⟨["burden met"], by decide⟩, ⟨[ref], hrefs⟩, []⟩

/-- A case of confirmed cheating is adopted. -/
def approvedCheating : CourtRecord where
  courtCase := ⟨"CASE-1", .ordinary, "weakened tests", ["builder-1"], [], [confirmedCheating]⟩
  briefs := firstCourt
  verdict := verdictOf "CASE-1" .adopt "judge-1" "evidence:1"
  appealOf := none
  bound := rfl
  panel := rfl

/-- A judge rejects, and the verdict is appealed. -/
def rejected : CourtRecord where
  courtCase := ⟨"CASE-1", .ordinary, "a bounded proposition", [], [], []⟩
  briefs := firstCourt
  verdict := verdictOf "CASE-1" .reject "judge-1" "evidence:1"
  appealOf := none
  bound := rfl
  panel := rfl

/-- The appeal is rejected as well. -/
def rejectedAgain : CourtRecord where
  courtCase := ⟨"CASE-2", .ordinary, "a bounded proposition", [], [], []⟩
  briefs := appealCourt ++ [seated .appealsJudge "appeals-1" "review the appeal" "evidence:5"]
  verdict := verdictOf "CASE-2" .reject "appeals-1" "evidence:5"
  appealOf := some "CASE-1"
  bound := rfl
  panel := rfl

/-- The judge of the first instance decides the appeal from that. -/
def backAtTheJudge : CourtRecord where
  courtCase := ⟨"CASE-3", .ordinary, "a bounded proposition", [], [], []⟩
  briefs := appealCourt ++ [seated .appealsJudge "judge-1" "review the appeal" "evidence:6"]
  verdict := verdictOf "CASE-3" .reject "judge-1" "evidence:6"
  appealOf := some "CASE-2"
  bound := rfl
  panel := rfl

/-- The call that hands in what the record holds. -/
def CourtRecord.call (record : CourtRecord) : Call :=
  ⟨record.courtCase, record.briefs, record.verdict, record.appealOf⟩

/-- Confirmed cheating is approved, and a judge decides the appeal from an appeal from his own
verdict. -/
theorem rules_broken :
    ¬Orderly [approvedCheating.call] ∧
      ¬Orderly [rejected.call, rejectedAgain.call, backAtTheJudge.call] := by
  constructor
  · rintro ⟨-, hsound⟩
    have hbuild : (build [approvedCheating.call]).records = [approvedCheating] := rfl
    have hmem : approvedCheating ∈ (build [approvedCheating.call]).records := by
      rw [hbuild]
      exact List.mem_singleton_self _
    exact (hsound.approvals _ hmem rfl confirmedCheating (List.mem_singleton_self _)).1 rfl
  · rintro ⟨-, hsound⟩
    have hbuild : (build [rejected.call, rejectedAgain.call, backAtTheJudge.call]).records =
      [rejected, rejectedAgain, backAtTheJudge] := rfl
    have hfirst : IsAppealOf (build [rejected.call, rejectedAgain.call, backAtTheJudge.call])
        rejectedAgain rejected := by
      rw [IsAppealOf, Links, hbuild]
      simp [rejected, rejectedAgain]
    have hsecond : IsAppealOf (build [rejected.call, rejectedAgain.call, backAtTheJudge.call])
        backAtTheJudge rejectedAgain := by
      rw [IsAppealOf, Links, hbuild]
      simp [rejectedAgain, backAtTheJudge]
    refine hsound.chains backAtTheJudge rejected (.head hsecond (.single hfirst)) ?_
    decide

end HiveMind.Court
