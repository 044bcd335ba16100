import HiveMind.Autopilot.RemoteClaims

/-!
# Diagnoses of nodes

Healing looks at the branch of a node on the remote and says what there is: nothing, a receipt, a
claim, or work. A claim or work that is alive is to be waited for, up to a time. A claim that is
defunct or silent for too long is to be reaped, and work that nobody owns is to be moved to
quarantine. The commands that do this look again.

A diagnosis goes by the message of the head alone. The command that reaps a claim also asks that the
claim names the node and changes nothing in the tree of its one parent.

* **`justified_iff`**: waiting is always justified, and the actions are accepted if and only if a
  claim that is to be reaped names the node and was not touched, and the quarantine ref of work that
  nobody owns is free or holds the work.
-/

open Raise Interleave Proc

namespace HiveMind.Autopilot.Remote

/-- The healing policy. -/
structure HealingPolicy where
  enabled : Bool
  autoReconcile : Bool
  autoRedispatch : Bool
  breakExpiredValidationLease : Bool
  claimStallMinutes : ℤ
  branchStallMinutes : ℤ
  maxActionsPerRun : ℤ
  learn : Bool
  commitLessons : Bool
  pushLessons : Bool
  retryDisprovenAfterMinutes : ℤ
  deriving DecidableEq

inductive Verdict where
  | sealedReceipt
  | working
  | claimLive
  | claimDefunct
  | claimStalled
  | branchDefunct
  | unstarted
  | blockedSealed
  | retryQuarantined
  deriving DecidableEq

def Verdict.text : Verdict → String
  | .sealedReceipt => "SEALED"
  | .working => "WORKING"
  | .claimLive => "CLAIM_LIVE"
  | .claimDefunct => "CLAIM_DEFUNCT"
  | .claimStalled => "CLAIM_STALLED"
  | .branchDefunct => "BRANCH_DEFUNCT"
  | .unstarted => "UNSTARTED"
  | .blockedSealed => "BLOCKED_SEALED"
  | .retryQuarantined => "RETRY_QUARANTINED"

inductive HealingAction where
  | reap
  | quarantine
  | liftQuarantine
  deriving DecidableEq

def HealingAction.text : HealingAction → String
  | .reap => "reap"
  | .quarantine => "quarantine"
  | .liftQuarantine => "lift-quarantine"

/-- `NodeDiagnosis`, with what is read of its evidence. -/
structure NodeDiagnosis (Commit : Type) where
  nodeId : String
  verdict : Verdict
  detail : String
  head : Option Commit
  /-- the kind of the proof -/
  proof : Option String
  effectiveStallMinutes : Option ℤ
  /-- the instant, where the source has its text -/
  wakeAt : Option ℤ
  action : Option HealingAction
  deriving DecidableEq

/-- A record of the release history. -/
structure ReleasedClaim where
  nodeId : Option String
  outcome : Option String
  proofKind : Option String

/-- `_stall_retirements`. -/
def stallRetirements (history : List ReleasedClaim) (nodeId : String) : ℕ :=
  (history.filter fun record ↦ record.nodeId = some nodeId ∧
    record.outcome = some "retired-defunct" ∧ record.proofKind = some "stalled-bare-claim").length

/-- Minutes as a span of time. -/
def minutes (count : ℤ) : ℤ := count * 60000000

/-- `int(idle.total_seconds() // 60)`. -/
def wholeMinutes (span : ℤ) : ℤ := span / 60000000

section Diagnosis

variable {Commit : Type}

/-- The first characters of a commit, and the text of a time. -/
structure Texts (Commit : Type) where
  short : Commit → String
  time : ℤ → String

variable (texts : Texts Commit) (policy : HealingPolicy)

/-- The diagnosis of a claim with a proof. -/
def diagnoseDefunctClaim (nodeId : String) (head : Commit) (kind : String) :
    NodeDiagnosis Commit where
  nodeId
  verdict := .claimDefunct
  detail := "claim " ++ texts.short head ++ " is defunct: " ++ kind
  head := some head
  proof := some kind
  effectiveStallMinutes := none
  wakeAt := none
  action := some .reap

/-- The bound that prior retirements have doubled. -/
def effectiveStall (retirements : ℕ) : ℤ := policy.claimStallMinutes * 2 ^ min retirements 3

/-- The diagnosis of a claim without a proof. -/
def diagnoseLiveClaim (nodeId : String) (head : Commit) (record : RemoteClaim) (retirements : ℕ)
    (now claimedAt : ℤ) : Except AutopilotError (NodeDiagnosis Commit) := do
  let stall := effectiveStall policy retirements
  let idle := now - claimedAt
  if retirements < 3 ∧ minutes stall ≤ idle then
    return {
      nodeId
      verdict := .claimStalled
      detail := "claim " ++ texts.short head ++ " has produced no work for " ++
        toString (wholeMinutes idle) ++ " minutes (bound " ++ toString stall ++ ")"
      head := some head
      proof := some "stalled-bare-claim"
      effectiveStallMinutes := some stall
      wakeAt := none
      action := some .reap }
  match record.expiresAt with
  | none => throw (.valueError "timestamp must be non-empty text")
  | some expires =>
    let live := "claim " ++ texts.short head ++ " by " ++ record.owner.getD "None" ++ " is live"
    let matures := claimedAt + minutes stall
    return {
      nodeId
      verdict := .claimLive
      detail :=
        if 3 ≤ retirements then live ++ "; the stall bound is suspended after " ++
          toString retirements ++ " retirements — waiting for lease expiry"
        else live ++ " and current; the stall bound matures at " ++ texts.time matures
      head := some head
      proof := none
      effectiveStallMinutes := none
      wakeAt := some (if 3 ≤ retirements then expires else min matures expires)
      action := none }

/-- The diagnosis of work, with the claim that governs it and its proof. -/
def diagnoseWork (nodeId : String) (head : Commit) (governing : Option RemoteClaim)
    (governingProof : Option String) (now movedAt : ℤ) :
    Except AutopilotError (NodeDiagnosis Commit) := do
  let idle := now - movedAt
  if (governing = none ∨ governingProof ≠ none) ∧ minutes policy.branchStallMinutes ≤ idle then
    return {
      nodeId
      verdict := .branchDefunct
      detail := "unsealed work at " ++ texts.short head ++ " idle " ++
        toString (wholeMinutes idle) ++ " minutes with " ++
        (match governingProof with
          | none => "no governing claim"
          | some kind => "governing claim is defunct: " ++ kind)
      head := some head
      proof := governingProof
      effectiveStallMinutes := none
      wakeAt := none
      action := some .quarantine }
  let matures := movedAt + minutes policy.branchStallMinutes
  let candidates ← match governing, governingProof with
    | some record, none =>
      match record.expiresAt with
      | none => throw (.valueError "timestamp must be non-empty text")
      | some expires => pure [matures, expires]
    | _, _ => pure [matures]
  -- the least of those that lie in the future
  let wake := ((candidates.filter (now < ·)).min?).getD (now + minutes policy.branchStallMinutes)
  return {
    nodeId
    verdict := .working
    detail := "unsealed work at " ++ texts.short head ++ "; a worker may still be publishing"
    head := some head
    proof := none
    effectiveStallMinutes := none
    wakeAt := some wake
    action := none }

variable (git : GitObjects Commit) (branchOf : String → Option String)
  (history : List ReleasedClaim)

/-- `diagnose_node`. -/
def diagnoseNode (nodeId : String) : RemoteM git (NodeDiagnosis Commit) := do
  let branch ← nodeBranch git branchOf nodeId
  match ← remoteBranchSha git branch with
  | none =>
    return {
      nodeId
      verdict := .unstarted
      detail := branch ++ " has no remote head"
      head := none
      proof := none
      effectiveStallMinutes := none
      wakeAt := none
      action := none }
  | some head =>
    -- the fetch is not checked
    let _ ← ask .succeeds
    let shown ← ask .succeeds
    if shown && git.authorEmail head = receiptCommitEmail then
      return {
        nodeId
        verdict := .sealedReceipt
        detail := texts.short head ++ " is a sealed receipt awaiting integration"
        head := some head
        proof := none
        effectiveStallMinutes := none
        wakeAt := none
        action := none }
    let now ← ask .clock
    match ← remoteClaimRecord git head with
    | some record =>
      match ← defunctRemoteClaimProof git record with
      | some kind => return diagnoseDefunctClaim texts nodeId head kind
      | none =>
        checked git
        lift (diagnoseLiveClaim texts policy nodeId head record (stallRetirements history nodeId)
          now (git.committedAt head))
    | none =>
      checked git
      let governing : Option RemoteClaim ← ask (RemoteQuery.governingClaim nodeId head)
      let governingProof ← match governing with
        | none => pure none
        | some claim => defunctRemoteClaimProof git claim
      lift (diagnoseWork texts policy nodeId head governing governingProof now
        (git.committedAt head))

/-! ## Looking changes nothing -/

section Silent

variable {git branchOf} {branch : String} {head : Commit} {record : RemoteClaim} {nodeId : String}

end Silent

/-! ## A world that stands still -/

/-- What there is beside the remote, at a time at which every command comes through. -/
structure World (Commit : Type) where
  now : ℤ
  planFingerprint : String
  governing : String → Commit → Option RemoteClaim

namespace World

variable (w : World Commit)

def answer : ∀ query : RemoteQuery Commit, query.Answer git
  | .succeeds => true
  | .clock => w.now
  | .targetSha => none
  | .planFingerprint => w.planFingerprint
  | .commitTree _ _ => none
  | .governingClaim nodeId head => w.governing nodeId head
  | .claimable => false

/-- The kind of the proof that a claim is defunct. -/
def proofOf (record : RemoteClaim) : Option String :=
  match record.expiresAt with
  | none => some "unreadable-expiry"
  | some expires =>
    if expires ≤ w.now then some "expired"
    else if record.planFingerprint ≠ some w.planFingerprint then some "plan-superseded" else none

/-- The same world at another time. -/
def later (t : ℤ) : World Commit := { w with now := t }

end World

variable {git branchOf history texts policy} {w : World Commit} {s : RemoteStore Commit}
  {nodeId branch : String} {head : Commit} {record : RemoteClaim}

theorem exec_defunctRemoteClaimProof (record : RemoteClaim) :
    (defunctRemoteClaimProof git record).exec (w.answer git) s = (.ok (w.proofOf record), s) := by
  rw [defunctRemoteClaimProof, exec_bind_of_ok _ (exec_ask _ _ _), World.proofOf]
  rcases record.expiresAt with _ | expires
  · rfl
  · by_cases hexpired : expires ≤ w.now
    · simp only [World.answer, hexpired, if_true, exec_pure]
    · by_cases hplan : record.planFingerprint = some w.planFingerprint
      · simp only [World.answer, hexpired, if_false, hplan, ne_eq, not_true, exec_bind, exec_ask,
          exec_pure]
      · simp only [World.answer, hexpired, if_false, hplan, ne_eq, not_false_eq_true, if_true,
          exec_bind, exec_ask, exec_pure]

theorem exec_checked : (checked git).exec (w.answer git) s = (.ok (), s) := rfl

section Exec

variable (texts policy history w) (hbranch : branchOf nodeId = some branch)
  (hhead : s.branches branch = some head)
include hbranch

variable (git) in
theorem exec_diagnoseNode_unstarted (hnone : s.branches branch = none) :
    ∃ d : NodeDiagnosis Commit, (diagnoseNode texts policy git branchOf history nodeId).exec
      (w.answer git) s = (.ok d, s) ∧ d.wakeAt = none ∧ d.action = none := by
  have hread : (remoteBranchSha git branch).exec (w.answer git) s = (.ok none, s) :=
    congrArg (fun head ↦ (Except.ok head, s)) hnone
  rw [diagnoseNode, nodeBranch, hbranch, exec_bind_of_ok _ (exec_pure _ _ _),
    exec_bind_of_ok _ hread]
  exact ⟨_, rfl, rfl, rfl⟩

include hhead

theorem exec_diagnoseNode_sealed (hemail : git.authorEmail head = receiptCommitEmail) :
    ∃ d : NodeDiagnosis Commit, (diagnoseNode texts policy git branchOf history nodeId).exec
      (w.answer git) s = (.ok d, s) ∧ d.wakeAt = none ∧ d.action = none := by
  have hread : (remoteBranchSha git branch).exec (w.answer git) s = (.ok (some head), s) :=
    congrArg (fun head ↦ (Except.ok head, s)) hhead
  rw [diagnoseNode, nodeBranch, hbranch, exec_bind_of_ok _ (exec_pure _ _ _),
    exec_bind_of_ok _ hread]
  simp only [exec_bind, exec_ask, World.answer, hemail, Bool.true_and, decide_true, if_true,
    exec_pure]
  exact ⟨_, rfl, rfl, rfl⟩

theorem exec_diagnoseNode_claim (hemail : git.authorEmail head ≠ receiptCommitEmail)
    (hrecord : git.record head = some record) :
    (diagnoseNode texts policy git branchOf history nodeId).exec (w.answer git) s =
      (match w.proofOf record with
        | some kind => .ok (diagnoseDefunctClaim texts nodeId head kind)
        | none => diagnoseLiveClaim texts policy nodeId head record
            (stallRetirements history nodeId) w.now (git.committedAt head), s) := by
  have hread : (remoteBranchSha git branch).exec (w.answer git) s = (.ok (some head), s) :=
    congrArg (fun head ↦ (Except.ok head, s)) hhead
  have hclaim : (remoteClaimRecord git head).exec (w.answer git) s = (.ok (some record), s) :=
    congrArg (fun record ↦ (Except.ok record, s)) hrecord
  rw [diagnoseNode, nodeBranch, hbranch, exec_bind_of_ok _ (exec_pure _ _ _),
    exec_bind_of_ok _ hread]
  simp only [exec_bind, exec_ask, World.answer, hemail, Bool.true_and, decide_false,
    Bool.false_eq_true, if_false, hclaim, exec_defunctRemoteClaimProof]
  rcases w.proofOf record with _ | kind
  · rfl
  · rfl

theorem exec_diagnoseNode_work (hemail : git.authorEmail head ≠ receiptCommitEmail)
    (hrecord : git.record head = none) :
    (diagnoseNode texts policy git branchOf history nodeId).exec (w.answer git) s =
      (diagnoseWork texts policy nodeId head (w.governing nodeId head)
        ((w.governing nodeId head).bind w.proofOf) w.now (git.committedAt head), s) := by
  have hread : (remoteBranchSha git branch).exec (w.answer git) s = (.ok (some head), s) :=
    congrArg (fun head ↦ (Except.ok head, s)) hhead
  have hclaim : (remoteClaimRecord git head).exec (w.answer git) s = (.ok none, s) :=
    congrArg (fun record ↦ (Except.ok record, s)) hrecord
  rw [diagnoseNode, nodeBranch, hbranch, exec_bind_of_ok _ (exec_pure _ _ _),
    exec_bind_of_ok _ hread]
  simp only [exec_bind, exec_ask, World.answer, hemail, Bool.true_and, decide_false,
    Bool.false_eq_true, if_false, hclaim]
  rcases w.governing nodeId head with _ | governing
  · rfl
  · simp only [exec_bind, exec_checked, exec_defunctRemoteClaimProof, exec_lift, Option.bind_some]

end Exec

/-! ## Waiting -/

theorem proofOf_eq_none : w.proofOf record = none ↔
    (∃ expires, record.expiresAt = some expires ∧ w.now < expires) ∧
      record.planFingerprint = some w.planFingerprint := by
  rw [World.proofOf]
  rcases record.expiresAt with _ | expires
  · exact iff_of_false nofun fun ⟨⟨_, h, _⟩, _⟩ ↦ nomatch h
  · by_cases hexpired : expires ≤ w.now
    · simp [hexpired]
    · by_cases hplan : record.planFingerprint = some w.planFingerprint
      · simp [hexpired, hplan]
        omega
      · simp [hexpired, hplan]

/-- A claim that is defunct stays so. -/
theorem proofOf_later {t : ℤ} (ht : w.now ≤ t) (h : w.proofOf record ≠ none) :
    (w.later t).proofOf record ≠ none := by
  rw [Ne, proofOf_eq_none] at h ⊢
  rintro ⟨⟨expires, hexpires, hlive⟩, hplan⟩
  exact h ⟨⟨expires, hexpires, ht.trans_lt hlive⟩, hplan⟩

/-- The claim has been silent for too long. -/
def Stalled (policy : HealingPolicy) (retirements : ℕ) (now claimedAt : ℤ) : Prop :=
  retirements < 3 ∧ minutes (effectiveStall policy retirements) ≤ now - claimedAt

variable (texts policy nodeId head record) in
theorem diagnoseLiveClaim_of_stalled {retirements : ℕ} {now claimedAt : ℤ}
    (h : Stalled policy retirements now claimedAt) :
    ∃ d, diagnoseLiveClaim texts policy nodeId head record retirements now claimedAt = .ok d ∧
      d.wakeAt = none ∧ d.action = some .reap ∧
        d.effectiveStallMinutes = some (effectiveStall policy retirements) := by
  rw [diagnoseLiveClaim]
  simp only [if_pos (show retirements < 3 ∧ _ from h)]
  exact ⟨_, rfl, rfl, rfl, rfl⟩

variable (texts nodeId head) in
theorem diagnoseLiveClaim_of_not_stalled {retirements : ℕ} {now claimedAt expires : ℤ}
    (h : ¬Stalled policy retirements now claimedAt) (hexpires : record.expiresAt = some expires) :
    ∃ d, diagnoseLiveClaim texts policy nodeId head record retirements now claimedAt = .ok d ∧
      d.verdict = .claimLive ∧ d.action = none ∧
        d.wakeAt = some (if 3 ≤ retirements then expires
          else min (claimedAt + minutes (effectiveStall policy retirements)) expires) := by
  rw [diagnoseLiveClaim]
  simp only [if_neg (show ¬(retirements < 3 ∧ _) from h), hexpires]
  exact ⟨_, rfl, rfl, rfl, rfl⟩

variable (texts nodeId head) in
theorem diagnoseWork_of_defunct {governing : Option RemoteClaim} {proof : Option String}
    {now movedAt : ℤ} (h : governing = none ∨ proof ≠ none)
    (hidle : minutes policy.branchStallMinutes ≤ now - movedAt) :
    ∃ d, diagnoseWork texts policy nodeId head governing proof now movedAt = .ok d ∧
      d.wakeAt = none ∧ d.action = some .quarantine := by
  unfold diagnoseWork
  simp only [if_pos (And.intro h hidle)]
  exact ⟨_, rfl, rfl, rfl⟩

variable (texts nodeId head) in
/-- Work that nobody owns waits for its own bound. -/
theorem diagnoseWork_of_moving {governing : Option RemoteClaim} {proof : Option String}
    {now movedAt : ℤ} (h : governing = none ∨ proof ≠ none)
    (hidle : ¬minutes policy.branchStallMinutes ≤ now - movedAt) :
    ∃ d, diagnoseWork texts policy nodeId head governing proof now movedAt = .ok d ∧
      d.verdict = .working ∧ d.action = none ∧
        d.wakeAt = some (movedAt + minutes policy.branchStallMinutes) := by
  have hfuture : now < movedAt + minutes policy.branchStallMinutes := by omega
  unfold diagnoseWork
  simp only [if_neg (fun hdefunct : _ ∧ _ ↦ hidle hdefunct.2)]
  rcases governing with _ | record
  · exact ⟨_, rfl, rfl, rfl, by simp [hfuture]⟩
  · rcases proof with _ | kind
    · exact absurd rfl (h.resolve_left nofun)
    · exact ⟨_, rfl, rfl, rfl, by simp [hfuture]⟩

variable (texts policy nodeId head) in
/-- Work of a live claim waits for the claim, and for its own bound if that is still to come. -/
theorem diagnoseWork_of_live {now expires : ℤ} (movedAt : ℤ)
    (hexpires : record.expiresAt = some expires) (hlive : now < expires) :
    ∃ d wake, diagnoseWork texts policy nodeId head (some record) none now movedAt = .ok d ∧
      d.verdict = .working ∧ d.action = none ∧ d.wakeAt = some wake ∧ now < wake ∧
        wake ≤ expires := by
  have hnot : ¬((some record = none ∨ (none : Option String) ≠ none) ∧
      minutes policy.branchStallMinutes ≤ now - movedAt) := by
    rintro ⟨h | h, -⟩
    · exact nomatch h
    · exact h rfl
  unfold diagnoseWork
  simp only [if_neg hnot, hexpires]
  by_cases hmatures : now < movedAt + minutes policy.branchStallMinutes
  · exact ⟨_, min (movedAt + minutes policy.branchStallMinutes) expires, rfl, rfl, rfl,
      by simp [hmatures, hlive, List.min?_cons], lt_min hmatures hlive, min_le_right _ _⟩
  · exact ⟨_, expires, rfl, rfl, rfl, by simp [hmatures, hlive], hlive, le_rfl⟩

/-- The only action on work is to move it to quarantine. -/
theorem diagnoseWork_action {governing : Option RemoteClaim} {proof : Option String}
    {now movedAt : ℤ} {d : NodeDiagnosis Commit}
    (h : ¬((governing = none ∨ proof ≠ none) ∧ minutes policy.branchStallMinutes ≤ now - movedAt))
    (hd : diagnoseWork texts policy nodeId head governing proof now movedAt = .ok d) :
    d.action = none := by
  unfold diagnoseWork at hd
  simp only [if_neg h] at hd
  split at hd
  · split at hd
    · exact nomatch hd
    · rw [← Except.ok.inj hd]
  · rw [← Except.ok.inj hd]

section Waiting

variable (texts policy git branchOf history) in
/-- The diagnosis waits for a later time, and until then there is nothing else to do. -/
def Waits (w : World Commit) (s : RemoteStore Commit) (nodeId : String)
    (d : NodeDiagnosis Commit) : Prop :=
  ∀ wake, d.wakeAt = some wake → w.now < wake ∧ ∀ t, w.now ≤ t → t < wake →
    ∃ d', (diagnoseNode texts policy git branchOf history nodeId).exec ((w.later t).answer git) s =
      (.ok d', s) ∧ d'.verdict = d.verdict ∧ d'.action = none

theorem waits_of_wakeAt {d : NodeDiagnosis Commit} (h : d.wakeAt = none) :
    Waits texts policy git branchOf history w s nodeId d := by
  intro wake hwake
  rw [h] at hwake
  exact nomatch hwake

theorem waits_claim (hbranch : branchOf nodeId = some branch)
    (hhead : s.branches branch = some head) (hemail : git.authorEmail head ≠ receiptCommitEmail)
    (hrecord : git.record head = some record)
    (hproof : w.proofOf record = none)
    (hstalled : ¬Stalled policy (stallRetirements history nodeId) w.now (git.committedAt head))
    {d : NodeDiagnosis Commit}
    (hd : diagnoseLiveClaim texts policy nodeId head record (stallRetirements history nodeId) w.now
      (git.committedAt head) = .ok d) :
    Waits texts policy git branchOf history w s nodeId d := by
  obtain ⟨⟨expires, hexpires, hlive⟩, hplan⟩ := proofOf_eq_none.1 hproof
  obtain ⟨_, hd', hverdict, -, hwakeAt⟩ := diagnoseLiveClaim_of_not_stalled texts nodeId
    head hstalled hexpires
  obtain rfl := Except.ok.inj (hd.symm.trans hd')
  intro wake hwake
  -- the wake time is the first at which the claim is expired or stalled
  have hbefore : ∀ t, t < wake ↔ t < expires ∧
      ¬Stalled policy (stallRetirements history nodeId) t (git.committedAt head) := by
    intro t
    obtain rfl := Option.some.inj (hwakeAt.symm.trans hwake)
    rw [Stalled]
    split
    · omega
    · rw [lt_min_iff]
      omega
  refine ⟨(hbefore _).2 ⟨hlive, hstalled⟩, fun t _ ht ↦ ?_⟩
  obtain ⟨hexpired, hstill⟩ := (hbefore t).1 ht
  have hlater : (w.later t).proofOf record = none :=
    proofOf_eq_none.2 ⟨⟨expires, hexpires, hexpired⟩, hplan⟩
  obtain ⟨d', hd', hverdict', haction', -⟩ := diagnoseLiveClaim_of_not_stalled texts nodeId
    head hstill hexpires
  refine ⟨d', ?_, hverdict'.trans hverdict.symm, haction'⟩
  rw [exec_diagnoseNode_claim texts policy history _ hbranch hhead hemail hrecord, hlater]
  exact congrArg (·, s) hd'

theorem waits_work (hbranch : branchOf nodeId = some branch)
    (hhead : s.branches branch = some head) (hemail : git.authorEmail head ≠ receiptCommitEmail)
    (hrecord : git.record head = none)
    {d : NodeDiagnosis Commit}
    (hd : diagnoseWork texts policy nodeId head (w.governing nodeId head)
      ((w.governing nodeId head).bind w.proofOf) w.now (git.committedAt head) = .ok d) :
    Waits texts policy git branchOf history w s nodeId d := by
  have hexec : ∀ t, (diagnoseNode texts policy git branchOf history nodeId).exec
      ((w.later t).answer git) s = (diagnoseWork texts policy nodeId head (w.governing nodeId head)
        ((w.governing nodeId head).bind (w.later t).proofOf) t (git.committedAt head), s) :=
    fun t ↦ exec_diagnoseNode_work texts policy history _ hbranch hhead hemail hrecord
  by_cases hnobody : w.governing nodeId head = none ∨
      (w.governing nodeId head).bind w.proofOf ≠ none
  · -- the claim that is absent or defunct stays so
    have hstill : ∀ t, w.now ≤ t → w.governing nodeId head = none ∨
        (w.governing nodeId head).bind (w.later t).proofOf ≠ none := by
      intro t ht
      rcases hgoverning : w.governing nodeId head with _ | governing
      · exact .inl rfl
      · rw [hgoverning] at hnobody
        exact .inr (proofOf_later ht (hnobody.resolve_left nofun))
    by_cases hidle : minutes policy.branchStallMinutes ≤ w.now - git.committedAt head
    · obtain ⟨_, hd', hwakeAt, -⟩ := diagnoseWork_of_defunct texts nodeId head hnobody hidle
      obtain rfl := Except.ok.inj (hd.symm.trans hd')
      exact waits_of_wakeAt hwakeAt
    · obtain ⟨_, hd', hverdict, -, hwakeAt⟩ := diagnoseWork_of_moving texts nodeId head hnobody
        hidle
      obtain rfl := Except.ok.inj (hd.symm.trans hd')
      intro wake hwake
      obtain rfl := Option.some.inj (hwakeAt.symm.trans hwake)
      refine ⟨by omega, fun t hfrom ht ↦ ?_⟩
      have hmoving : ¬minutes policy.branchStallMinutes ≤ t - git.committedAt head := by omega
      obtain ⟨d', hd', hverdict', haction', -⟩ := diagnoseWork_of_moving texts nodeId head
        (hstill t hfrom) hmoving
      exact ⟨d', (hexec t).trans (congrArg (·, s) hd'), hverdict'.trans hverdict.symm, haction'⟩
  · obtain ⟨hsome, hproof⟩ := not_or.1 hnobody
    obtain ⟨governing, hgoverning⟩ := Option.ne_none_iff_exists'.1 hsome
    rw [hgoverning, not_not, Option.bind_some] at hproof
    obtain ⟨⟨expires, hexpires, hlive⟩, hplan⟩ := proofOf_eq_none.1 hproof
    rw [hgoverning, Option.bind_some, hproof] at hd
    obtain ⟨_, wake', hd', hverdict, -, hwakeAt, hfuture, hle⟩ := diagnoseWork_of_live
      texts policy nodeId head (git.committedAt head) hexpires hlive
    obtain rfl := Except.ok.inj (hd.symm.trans hd')
    intro wake hwake
    obtain rfl := Option.some.inj (hwakeAt.symm.trans hwake)
    refine ⟨hfuture, fun t _ ht ↦ ?_⟩
    -- until then the claim that governs the work is alive
    have hlater : (w.later t).proofOf governing = none :=
      proofOf_eq_none.2 ⟨⟨expires, hexpires, ht.trans_le hle⟩, hplan⟩
    obtain ⟨d', -, hd', hverdict', haction', -⟩ := diagnoseWork_of_live texts policy nodeId
      head (git.committedAt head) hexpires (ht.trans_le hle)
    refine ⟨d', (hexec t).trans ?_, hverdict'.trans hverdict.symm, haction'⟩
    rw [hgoverning, Option.bind_some, hlater]
    exact congrArg (·, s) hd'

end Waiting

/-! ## What the commands accept -/

/-- The command does what it was called for. -/
def Accepted (git : GitObjects Commit) (w : World Commit) (s : RemoteStore Commit)
    (command : RemoteM git Bool) : Prop :=
  (command.exec (w.answer git) s).1 = .ok true

theorem exec_fetchBranch (message : String) (hhead : s.branches branch = some head) :
    (fetchBranch git branch message).exec (w.answer git) s = (.ok (), s) := by
  have hread : (transact .readRemote (RemoteStore.readBranch branch) :
      RemoteM git (Option Commit)).exec (w.answer git) s = (.ok (some head), s) :=
    congrArg (fun head ↦ (Except.ok head, s)) hhead
  rw [fetchBranch, exec_bind_of_ok _ hread, exec_bind_of_ok _ (exec_ask _ _ _)]
  rfl

theorem exec_inspectClaim (remedy : String) (hrecord : git.record head = some record)
    (hnode : record.nodeId = some nodeId) (huntouched : Untouched git head) :
    (inspectClaim git branch nodeId (fun _ ↦ true) remedy head).exec (w.answer git) s =
      (.ok record, s) := by
  obtain ⟨-, parent, hparents, htree⟩ := huntouched
  have hclaim : (remoteClaimRecord git head).exec (w.answer git) s = (.ok (some record), s) :=
    congrArg (fun record ↦ (Except.ok record, s)) hrecord
  rw [inspectClaim, exec_bind_of_ok _ hclaim]
  simp only [hnode, ne_eq, not_true, if_false, Bool.not_true, Bool.false_eq_true, hparents, htree]
  rfl

/-- Everything else is refused. -/
theorem exec_inspectClaim_of_touched (branch remedy : String)
    (hrecord : git.record head = some record)
    (h : ¬(record.nodeId = some nodeId ∧ Untouched git head)) :
    ∃ e, (inspectClaim git branch nodeId (fun _ ↦ true) remedy head).exec (w.answer git) s =
      (.error e, s) := by
  have hclaim : (remoteClaimRecord git head).exec (w.answer git) s = (.ok (some record), s) :=
    congrArg (fun record ↦ (Except.ok record, s)) hrecord
  rw [inspectClaim, exec_bind_of_ok _ hclaim]
  by_cases hnode : record.nodeId = some nodeId
  · simp only [hnode, ne_eq, not_true, if_false, Bool.not_true, Bool.false_eq_true]
    rcases hparents : git.parents head with _ | ⟨parent, _ | ⟨other, others⟩⟩
    · exact ⟨_, rfl⟩
    · have htree : git.tree head ≠ git.tree parent := fun htree ↦
        h ⟨hnode, by rw [hrecord]; rfl, parent, hparents, htree⟩
      simp only [htree, not_false_eq_true, if_true]
      exact ⟨_, rfl⟩
    · exact ⟨_, rfl⟩
  · simp only [hnode, ne_eq, not_false_eq_true, if_true]
    exact ⟨_, rfl⟩

theorem exec_pushed {label : RemoteStep Commit} {t : RemoteStore Commit}
    {update : RemoteStore Commit → Option (RemoteStore Commit)} (h : update s = some t) :
    (pushed git label update).exec (w.answer git) s = (.ok true, t) := by
  rw [pushed, exec_bind_of_ok _ (exec_ask _ _ _)]
  simp only [World.answer, Bool.not_true, Bool.false_eq_true, if_false]
  rw [exec_bind, exec_transact, command_of_eq_some h]
  rfl

theorem exec_stalledBareClaim {stall : ℤ} (hstall : 1 ≤ stall) :
    (stalledBareClaim git stall head).exec (w.answer git) s =
      (.ok (if minutes stall ≤ w.now - git.committedAt head then some "stalled-bare-claim"
        else none), s) := by
  rw [stalledBareClaim, if_neg (by omega : ¬stall < 1)]
  rfl

theorem exec_remoteRefSha (ref : String × Commit) :
    (remoteRefSha git ref).exec (w.answer git) s = (.ok (s.quarantine ref), s) := rfl

section Accepted

variable [DecidableEq Commit] {actor : String}

theorem exec_deleteLeased (hhead : s.branches branch = some head) :
    (pushed git .deleteLeased (RemoteStore.deleteLeased nodeId branch head)).exec (w.answer git) s =
      (.ok true, s.remove nodeId branch head head) :=
  exec_pushed (if_pos hhead)

/-- A claim that is to be reaped is reaped if it names the node and was not touched. -/
theorem accepted_reap_iff {stall : ℤ} (hactor : isRequired actor = true)
    (hbranch : branchOf nodeId = some branch) (hhead : s.branches branch = some head)
    (hrecord : git.record head = some record) (hstall : 1 ≤ stall)
    (hdefunct : w.proofOf record ≠ none ∨ minutes stall ≤ w.now - git.committedAt head) :
    Accepted git w s (reapDefunctRemoteClaim git branchOf nodeId actor (some stall)) ↔
      record.nodeId = some nodeId ∧ Untouched git head := by
  have hread : (remoteBranchSha git branch).exec (w.answer git) s = (.ok (some head), s) :=
    congrArg (fun head ↦ (Except.ok head, s)) hhead
  rw [Accepted, reapDefunctRemoteClaim]
  simp only [hactor, Bool.not_true, Bool.false_eq_true, if_false, nodeBranch, hbranch]
  rw [exec_bind_of_ok _ (exec_pure _ _ _), exec_bind_of_ok _ hread]
  dsimp only
  rw [exec_bind_of_ok _ (exec_fetchBranch _ hhead)]
  by_cases h : record.nodeId = some nodeId ∧ Untouched git head
  · rw [exec_bind_of_ok _ (exec_inspectClaim _ hrecord h.1 h.2),
      exec_bind_of_ok _ (exec_defunctRemoteClaimProof record)]
    refine iff_of_true ?_ h
    rcases hproof : w.proofOf record with _ | kind
    · have hstalled := hdefunct.resolve_left fun h ↦ h hproof
      dsimp only
      rw [exec_bind_of_ok _ (exec_stalledBareClaim hstall), if_pos hstalled,
        if_neg (Option.some_ne_none _), exec_bind_of_ok _ (exec_deleteLeased hhead)]
      rfl
    · dsimp only
      rw [exec_bind_of_ok _ (exec_pure _ _ _), if_neg (Option.some_ne_none _),
        exec_bind_of_ok _ (exec_deleteLeased hhead)]
      rfl
  · obtain ⟨e, he⟩ := exec_inspectClaim_of_touched (w := w) (s := s) branch
      "reconciled or quarantined" hrecord h
    rw [exec_bind_of_error _ he]
    exact iff_of_false (by rintro ⟨⟩) h

theorem archives_iff (hhead : s.branches branch = some head) :
    ((archiveAndRetire git nodeId branch head).exec (w.answer git) s).1 = .ok () ↔
      s.quarantine (quarantineRef nodeId head) = none ∨
        s.quarantine (quarantineRef nodeId head) = some head := by
  rw [archiveAndRetire, exec_bind_of_ok _ (exec_remoteRefSha _)]
  rcases hkept : s.quarantine (quarantineRef nodeId head) with _ | kept
  · refine iff_of_true ?_ (.inl rfl)
    have harchive : RemoteStore.archive nodeId branch head s = some
        { s.remove nodeId branch head head with
          quarantine := Function.update s.quarantine (quarantineRef nodeId head) (some head) } :=
      if_pos ⟨hkept, hhead⟩
    rw [if_pos rfl, exec_bind_of_ok _ (exec_pushed harchive)]
    simp only [Bool.not_true, Bool.false_eq_true, if_false]
    rw [exec_bind_of_ok _ (exec_remoteRefSha _)]
    exact congrArg Prod.fst (congrArg (exec _ · _) (if_neg (not_not.2 (Function.update_self ..))))
  · have hstill : (s.remove nodeId branch head head).quarantine (quarantineRef nodeId head) =
        some kept := hkept
    rw [if_neg (Option.some_ne_none _), exec_bind_of_ok _ (exec_deleteLeased hhead)]
    simp only [Bool.not_true, Bool.false_eq_true, if_false]
    rw [exec_bind_of_ok _ (exec_remoteRefSha _), hstill]
    by_cases hsame : kept = head
    · rw [hsame, if_neg (not_not.2 rfl)]
      exact iff_of_true rfl (.inr rfl)
    · rw [if_pos fun h ↦ hsame (Option.some.inj h)]
      exact iff_of_false nofun (by simp [hsame])

/-- What is left of a branch that is to be moved to quarantine is moved, if its quarantine ref is
free or holds the work. -/
theorem accepted_quarantine_iff {stall : ℤ} (hactor : isRequired actor = true)
    (hbranch : branchOf nodeId = some branch) (hhead : s.branches branch = some head)
    (hemail : git.authorEmail head ≠ receiptCommitEmail) (hrecord : git.record head = none)
    (hstall : 1 ≤ stall) (hidle : minutes stall ≤ w.now - git.committedAt head)
    (hnobody : ∀ governing, w.governing nodeId head = some governing → w.proofOf governing ≠ none) :
    Accepted git w s (quarantineDefunctRemoteBranch git branchOf nodeId actor stall) ↔
      s.quarantine (quarantineRef nodeId head) = none ∨
        s.quarantine (quarantineRef nodeId head) = some head := by
  have hread : (remoteBranchSha git branch).exec (w.answer git) s = (.ok (some head), s) :=
    congrArg (fun head ↦ (Except.ok head, s)) hhead
  have hclaim : (remoteClaimRecord git head).exec (w.answer git) s = (.ok none, s) :=
    congrArg (fun record ↦ (Except.ok record, s)) hrecord
  have hsilent : (idle git head).exec (w.answer git) s =
      (.ok (w.now - git.committedAt head), s) := rfl
  have hlong : ¬w.now - git.committedAt head < stall * 60000000 := not_lt.2 hidle
  have hend : ((archiveAndRetire git nodeId branch head >>= fun _ ↦ pure true).exec
      (w.answer git) s).1 = .ok true ↔
        ((archiveAndRetire git nodeId branch head).exec (w.answer git) s).1 = .ok () := by
    rw [exec_bind]
    rcases (archiveAndRetire git nodeId branch head).exec (w.answer git) s with ⟨_ | _, _⟩
    · exact iff_of_false nofun nofun
    · exact iff_of_true rfl rfl
  rw [Accepted, quarantineDefunctRemoteBranch, ← archives_iff hhead, ← hend]
  simp only [hactor, Bool.not_true, Bool.false_eq_true, if_false, nodeBranch, hbranch,
    if_neg (by omega : ¬stall < 1)]
  rw [exec_bind_of_ok _ (exec_pure _ _ _), exec_bind_of_ok _ hread]
  dsimp only
  rw [exec_bind_of_ok _ (exec_fetchBranch _ hhead), exec_bind_of_ok _ exec_checked, if_neg hemail,
    exec_bind_of_ok _ hclaim, if_neg (not_not.2 rfl), exec_bind_of_ok _ hsilent, if_neg hlong,
    exec_bind_of_ok _ (exec_ask _ _ _)]
  simp only [World.answer]
  rcases hgoverning : w.governing nodeId head with _ | governing
  · rfl
  · obtain ⟨kind, hkind⟩ := Option.ne_none_iff_exists'.1 (hnobody governing hgoverning)
    have hproof : (defunctRemoteClaimProof git governing).exec (w.answer git) s =
        (.ok (some kind), s) := by
      rw [exec_defunctRemoteClaimProof, hkind]
    dsimp only
    rw [exec_bind_of_ok _ hproof, if_neg (Option.some_ne_none _)]

end Accepted

/-! ## The diagnosis is justified -/

/-- The one diagnosis that there is. -/
theorem forall_diagnosis_iff {x : Except AutopilotError (NodeDiagnosis Commit) × RemoteStore Commit}
    {d : NodeDiagnosis Commit} {p : NodeDiagnosis Commit → Prop} (h : x = (.ok d, s)) :
    (∀ d t, x = (.ok d, t) → p d) ↔ p d := by
  subst h
  refine ⟨fun hall ↦ hall d s rfl, fun hd d' t heq ↦ ?_⟩
  obtain ⟨hsame, -⟩ := Prod.mk.inj heq
  exact Except.ok.inj hsame ▸ hd

section Justified

variable [DecidableEq Commit]

/-- The diagnosis waits for the right time, and its action is accepted of any actor. -/
structure Justified (texts : Texts Commit) (policy : HealingPolicy) (git : GitObjects Commit)
    (branchOf : String → Option String) (history : List ReleasedClaim) (w : World Commit)
    (s : RemoteStore Commit) (nodeId : String) (d : NodeDiagnosis Commit) : Prop where
  waits : Waits texts policy git branchOf history w s nodeId d
  reaps : d.action = some .reap → ∀ actor, isRequired actor = true → Accepted git w s
    (reapDefunctRemoteClaim git branchOf nodeId actor
      (some (d.effectiveStallMinutes.getD policy.claimStallMinutes)))
  quarantines : d.action = some .quarantine → ∀ actor, isRequired actor = true → Accepted git w s
    (quarantineDefunctRemoteBranch git branchOf nodeId actor policy.branchStallMinutes)

/-- A claim that is to be reaped names the node and was not touched, and the quarantine ref of work
that nobody owns is free or holds the work. -/
structure Removable (policy : HealingPolicy) (git : GitObjects Commit)
    (history : List ReleasedClaim) (w : World Commit) (s : RemoteStore Commit) (nodeId : String)
    (head : Commit) : Prop where
  untouched : ∀ record, git.record head = some record →
    (w.proofOf record ≠ none ∨
      Stalled policy (stallRetirements history nodeId) w.now (git.committedAt head)) →
    record.nodeId = some nodeId ∧ Untouched git head
  keepable : git.record head = none →
    (∀ governing, w.governing nodeId head = some governing → w.proofOf governing ≠ none) →
    minutes policy.branchStallMinutes ≤ w.now - git.committedAt head →
    s.quarantine (quarantineRef nodeId head) = none ∨
      s.quarantine (quarantineRef nodeId head) = some head

theorem one_le_effectiveStall (hclaim : 1 ≤ policy.claimStallMinutes) (retirements : ℕ) :
    1 ≤ effectiveStall policy retirements := by
  have hpow : (0 : ℤ) < 2 ^ min retirements 3 := Int.pow_pos (by decide)
  exact Int.mul_pos hclaim hpow

/-- Without an action there is only the waiting. -/
theorem justified_of_waits {d : NodeDiagnosis Commit}
    (hwaits : Waits texts policy git branchOf history w s nodeId d) (haction : d.action = none) :
    Justified texts policy git branchOf history w s nodeId d where
  waits := hwaits
  reaps h := by
    rw [haction] at h
    exact nomatch h
  quarantines h := by
    rw [haction] at h
    exact nomatch h

theorem justified_of_reap {d : NodeDiagnosis Commit} {p : Prop} (hwakeAt : d.wakeAt = none)
    (haction : d.action = some .reap)
    (haccepted : ∀ actor, isRequired actor = true → (Accepted git w s
      (reapDefunctRemoteClaim git branchOf nodeId actor
        (some (d.effectiveStallMinutes.getD policy.claimStallMinutes))) ↔ p)) :
    Justified texts policy git branchOf history w s nodeId d ↔ p := by
  constructor
  · intro h
    have hactor : isRequired "heal" = true := by decide
    exact (haccepted _ hactor).1 (h.reaps haction _ hactor)
  · intro h
    refine ⟨waits_of_wakeAt hwakeAt, fun _ actor hactor ↦ (haccepted actor hactor).2 h,
      fun hother ↦ ?_⟩
    exact nomatch haction.symm.trans hother

theorem justified_of_quarantine {d : NodeDiagnosis Commit} {p : Prop} (hwakeAt : d.wakeAt = none)
    (haction : d.action = some .quarantine)
    (haccepted : ∀ actor, isRequired actor = true → (Accepted git w s
      (quarantineDefunctRemoteBranch git branchOf nodeId actor policy.branchStallMinutes) ↔ p)) :
    Justified texts policy git branchOf history w s nodeId d ↔ p := by
  constructor
  · intro h
    have hactor : isRequired "heal" = true := by decide
    exact (haccepted _ hactor).1 (h.quarantines haction _ hactor)
  · intro h
    refine ⟨waits_of_wakeAt hwakeAt, fun hother ↦ ?_, fun _ actor hactor ↦
      (haccepted actor hactor).2 h⟩
    exact nomatch haction.symm.trans hother

theorem justified_claim_iff (hclaim : 1 ≤ policy.claimStallMinutes)
    (hbranch : branchOf nodeId = some branch) (hhead : s.branches branch = some head)
    (hemail : git.authorEmail head ≠ receiptCommitEmail) (hrecord : git.record head = some record) :
    (∀ d t, (diagnoseNode texts policy git branchOf history nodeId).exec (w.answer git) s =
      (.ok d, t) → Justified texts policy git branchOf history w s nodeId d) ↔
      ((w.proofOf record ≠ none ∨
        Stalled policy (stallRetirements history nodeId) w.now (git.committedAt head)) →
        record.nodeId = some nodeId ∧ Untouched git head) := by
  have hexec := exec_diagnoseNode_claim texts policy history w hbranch hhead hemail hrecord
  rcases hproof : w.proofOf record with _ | kind
  · rw [hproof] at hexec
    by_cases hstalled : Stalled policy (stallRetirements history nodeId) w.now
        (git.committedAt head)
    · obtain ⟨d, hd, hwakeAt, haction, heffective⟩ := diagnoseLiveClaim_of_stalled texts policy
        nodeId head record hstalled
      rw [forall_diagnosis_iff (hexec.trans (congrArg (·, s) hd)),
        forall_prop_of_true (.inr hstalled)]
      refine justified_of_reap hwakeAt haction fun actor hactor ↦ ?_
      rw [heffective]
      exact accepted_reap_iff hactor hbranch hhead hrecord (one_le_effectiveStall hclaim _)
        (.inr hstalled.2)
    · obtain ⟨⟨expires, hexpires, -⟩, -⟩ := proofOf_eq_none.1 hproof
      obtain ⟨d, hd, -, haction, -⟩ := diagnoseLiveClaim_of_not_stalled texts nodeId head hstalled
        hexpires
      rw [forall_diagnosis_iff (hexec.trans (congrArg (·, s) hd))]
      have hwaits := waits_claim hbranch hhead hemail hrecord hproof hstalled hd
      exact iff_of_true (justified_of_waits hwaits haction) fun h ↦
        h.elim (absurd rfl) fun h ↦ absurd h hstalled
  · rw [hproof] at hexec
    rw [forall_diagnosis_iff hexec, forall_prop_of_true (.inl (Option.some_ne_none kind))]
    refine justified_of_reap rfl rfl fun actor hactor ↦ ?_
    exact accepted_reap_iff hactor hbranch hhead hrecord hclaim
      (.inl (hproof ▸ Option.some_ne_none kind))

theorem justified_work_iff (hstall : 1 ≤ policy.branchStallMinutes)
    (hbranch : branchOf nodeId = some branch) (hhead : s.branches branch = some head)
    (hemail : git.authorEmail head ≠ receiptCommitEmail) (hrecord : git.record head = none) :
    (∀ d t, (diagnoseNode texts policy git branchOf history nodeId).exec (w.answer git) s =
      (.ok d, t) → Justified texts policy git branchOf history w s nodeId d) ↔
      ((∀ governing, w.governing nodeId head = some governing → w.proofOf governing ≠ none) →
        minutes policy.branchStallMinutes ≤ w.now - git.committedAt head →
          s.quarantine (quarantineRef nodeId head) = none ∨
            s.quarantine (quarantineRef nodeId head) = some head) := by
  have hexec := exec_diagnoseNode_work texts policy history w hbranch hhead hemail hrecord
  have hnobody : (∀ governing, w.governing nodeId head = some governing →
      w.proofOf governing ≠ none) ↔ (w.governing nodeId head = none ∨
        (w.governing nodeId head).bind w.proofOf ≠ none) := by
    rcases w.governing nodeId head with _ | governing
    · simp
    · simp
  by_cases hdefunct : (w.governing nodeId head = none ∨
      (w.governing nodeId head).bind w.proofOf ≠ none) ∧
        minutes policy.branchStallMinutes ≤ w.now - git.committedAt head
  · obtain ⟨d, hd, hwakeAt, haction⟩ := diagnoseWork_of_defunct texts nodeId head hdefunct.1
      hdefunct.2
    rw [forall_diagnosis_iff (hexec.trans (congrArg (·, s) hd)),
      forall_prop_of_true (hnobody.2 hdefunct.1), forall_prop_of_true hdefunct.2]
    refine justified_of_quarantine hwakeAt haction fun actor hactor ↦ ?_
    exact accepted_quarantine_iff hactor hbranch hhead hemail hrecord hstall hdefunct.2
      (hnobody.2 hdefunct.1)
  · refine iff_of_true (fun d t hd ↦ ?_) fun h hidle ↦ absurd ⟨hnobody.1 h, hidle⟩ hdefunct
    have hwork := congrArg Prod.fst (hexec.symm.trans hd)
    exact justified_of_waits (waits_work hbranch hhead hemail hrecord hwork)
      (diagnoseWork_action hdefunct hwork)

theorem justified_iff (hclaim : 1 ≤ policy.claimStallMinutes)
    (hstall : 1 ≤ policy.branchStallMinutes) :
    (∀ d t, (diagnoseNode texts policy git branchOf history nodeId).exec (w.answer git) s =
      (.ok d, t) → Justified texts policy git branchOf history w s nodeId d) ↔
      ∀ branch head, branchOf nodeId = some branch → s.branches branch = some head →
        git.authorEmail head ≠ receiptCommitEmail →
          Removable policy git history w s nodeId head := by
  constructor
  · intro h branch head hbranch hhead hemail
    constructor
    · intro record hrecord
      exact (justified_claim_iff hclaim hbranch hhead hemail hrecord).1 h
    · intro hrecord
      exact (justified_work_iff hstall hbranch hhead hemail hrecord).1 h
  · intro h
    rcases hbranch : branchOf nodeId with _ | branch
    · intro d t hd
      rw [diagnoseNode, nodeBranch, hbranch] at hd
      cases congrArg Prod.fst hd
    rcases hhead : s.branches branch with _ | head
    · obtain ⟨d, hd, hwakeAt, haction⟩ := exec_diagnoseNode_unstarted texts policy git history
        w hbranch hhead
      rw [forall_diagnosis_iff hd]
      exact justified_of_waits (waits_of_wakeAt hwakeAt) haction
    by_cases hemail : git.authorEmail head = receiptCommitEmail
    · obtain ⟨d, hd, hwakeAt, haction⟩ := exec_diagnoseNode_sealed texts policy history w
        hbranch hhead hemail
      rw [forall_diagnosis_iff hd]
      exact justified_of_waits (waits_of_wakeAt hwakeAt) haction
    have hremovable := h branch head hbranch hhead hemail
    rcases hrecord : git.record head with _ | record
    · exact (justified_work_iff hstall hbranch hhead hemail hrecord).2 (hremovable.keepable hrecord)
    · exact (justified_claim_iff hclaim hbranch hhead hemail hrecord).2
        (hremovable.untouched record hrecord)

end Justified

end Diagnosis

/-! ### A claim that a worker has amended -/

section Sample

def sampleTexts : Texts ℕ := ⟨toString, toString⟩

def samplePolicy : HealingPolicy where
  enabled := true
  autoReconcile := true
  autoRedispatch := true
  breakExpiredValidationLease := true
  claimStallMinutes := 20
  branchStallMinutes := 45
  maxActionsPerRun := 8
  learn := true
  commitLessons := false
  pushLessons := false
  retryDisprovenAfterMinutes := 240

/-- The claim is the commit 1, with the given tree, on top of the commit 0. -/
def sampleGit (tree : String) : GitObjects ℕ where
  record commit :=
    if commit = 1 then some ⟨some "N-1", some "worker", some 100, some "plan"⟩ else none
  parents commit := if commit = 1 then [0] else []
  tree commit := if commit = 1 then tree else "tree"
  authorEmail _ := "worker@hive-mind.invalid"
  committedAt _ := 0
  isAncestor _ _ := true

def sampleBranch (nodeId : String) : Option String :=
  if nodeId = "N-1" then some "autopilot/n-1" else none

def sampleRemote : RemoteStore ℕ where
  branches branch := if branch = "autopilot/n-1" then some 1 else none
  quarantine _ := none
  claims _ := none
  removed := []

/-- The claim expires at this moment. -/
def sampleWorld : World ℕ := ⟨100, "plan", fun _ _ ↦ none⟩

theorem sampleClaim_justified :
    ∃ d, (diagnoseNode sampleTexts samplePolicy (sampleGit "tree") sampleBranch [] "N-1").exec
        (sampleWorld.answer _) sampleRemote = (.ok d, sampleRemote) ∧
      Justified sampleTexts samplePolicy (sampleGit "tree") sampleBranch [] sampleWorld
        sampleRemote "N-1" d := by
  refine ⟨_, rfl, (justified_iff (by decide) (by decide)).2 (fun branch head hbranch hhead _ ↦ ?_)
    _ _ rfl⟩
  obtain rfl := Option.some.inj hbranch
  obtain rfl := Option.some.inj hhead
  refine ⟨fun record hrecord _ ↦ ?_, nofun⟩
  obtain rfl := Option.some.inj hrecord
  exact ⟨rfl, rfl, 0, rfl, rfl⟩

/-- The amended claim is diagnosed as defunct, to be reaped. It is not reaped as it was touched, and
not moved to quarantine as it is a claim. -/
theorem amended_claim_refused :
    let git := sampleGit "amended"
    ∃ d, (diagnoseNode sampleTexts samplePolicy git sampleBranch [] "N-1").exec
        (sampleWorld.answer git) sampleRemote = (.ok d, sampleRemote) ∧
      d.verdict = .claimDefunct ∧ d.action = some .reap ∧
      ¬Accepted git sampleWorld sampleRemote
        (reapDefunctRemoteClaim git sampleBranch "N-1" "heal" (some 20)) ∧
      ¬Accepted git sampleWorld sampleRemote
        (quarantineDefunctRemoteBranch git sampleBranch "N-1" "heal" 45) ∧
      ¬Justified sampleTexts samplePolicy git sampleBranch [] sampleWorld sampleRemote "N-1" d := by
  have hrefused : ¬Accepted (sampleGit "amended") sampleWorld sampleRemote (reapDefunctRemoteClaim
      (sampleGit "amended") sampleBranch "N-1" "heal" (some 20)) := nofun
  refine ⟨_, rfl, rfl, rfl, hrefused, nofun, fun h ↦ ?_⟩
  exact hrefused (h.reaps rfl "heal" rfl)

end Sample

end HiveMind.Autopilot.Remote
