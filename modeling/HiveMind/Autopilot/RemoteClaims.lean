import HiveMind.Autopilot.Scopes
import HiveMind.Lib.Interleave

/-!
# Claims on the remote

A node has a branch on the remote. A session claims the node for others to see by pushing a commit
that changes nothing, and workers push their work on top of it. What is left of a claim is removed
again: by the session that released it, by one that finds it expired or defunct, and together with
published work by one that keeps the work under a quarantine ref.

A command changes the refs of the remote in one step, and everything before it was read in earlier
steps. The remote remembers in the model, as history, what every branch held when it was removed, and
what the removing call had inspected.

* **`never_lost`**: where a branch is removed by name, and still holds what was inspected, only claims
  that were not worked on are removed, and what is in quarantine.
* **`work_lost`**: a worker pushes right before the claim is released, and the branch is removed.

The objects of a repository never change, and are looked up. What the history of a branch says about
the claim that governs it is asked of the surroundings, like everything on the network.
-/

open Raise Interleave Proc

namespace HiveMind.Autopilot.Remote

/-- What `remote_claim_record` finds in a commit. -/
structure RemoteClaim where
  nodeId : Option String
  owner : Option String
  /-- `none` if the text cannot be read as a time -/
  expiresAt : Option ℤ
  planFingerprint : Option String
  deriving DecidableEq

structure GitObjects (Commit : Type) where
  record : Commit → Option RemoteClaim
  parents : Commit → List Commit
  tree : Commit → String
  authorEmail : Commit → String
  committedAt : Commit → ℤ
  isAncestor : Commit → Commit → Bool

variable {Commit : Type}

/-- A claim commit: it has one parent, and its tree. -/
def Untouched (git : GitObjects Commit) (commit : Commit) : Prop :=
  (git.record commit).isSome ∧ ∃ parent, git.parents commit = [parent] ∧
    git.tree commit = git.tree parent

/-- A claim file, as far as the remote is concerned. -/
structure LocalClaim (Commit : Type) where
  owner : String
  remoteClaimCommit : Option Commit

/-- A branch was removed. -/
structure Removal (Commit : Type) where
  nodeId : String
  /-- what the branch held at that moment -/
  head : Commit
  /-- what the call that removed it had inspected -/
  inspected : Commit

/-- The refs of the remote, and the claim files of the sessions by session and node. -/
structure RemoteStore (Commit : Type) where
  branches : String → Option Commit
  /-- the quarantine refs, by node and commit in their name -/
  quarantine : String × Commit → Option Commit
  claims : ℕ × String → Option (LocalClaim Commit)
  removed : List (Removal Commit)

inductive RemoteStep (Commit : Type) where
  | readRemote
  | push
  | delete (branch : String) (inspected : Commit)
  | deleteLeased
  | archive
  | readClaim
  | writeClaim
  | unlinkClaim

inductive RemoteQuery (Commit : Type) where
  /-- whether a command is carried out and says so -/
  | succeeds
  | clock
  | targetSha
  | planFingerprint
  /-- `commit-tree` with the tree of its parent -/
  | commitTree (parent : Commit) (record : RemoteClaim)
  /-- what the history of a branch says -/
  | governingClaim (nodeId : String) (head : Commit)
  /-- whether the node is ready, and no claim conflicts with it -/
  | claimable

@[reducible] def RemoteQuery.Answer (git : GitObjects Commit) : RemoteQuery Commit → Type
  | succeeds => Bool
  | clock => ℤ
  | targetSha => Option Commit
  | planFingerprint => String
  | commitTree parent record => Option { commit : Commit //
      git.record commit = some record ∧ git.parents commit = [parent] ∧
        git.tree commit = git.tree parent }
  | governingClaim _ _ => Option RemoteClaim
  | claimable => Bool

abbrev RemoteM (git : GitObjects Commit) :=
  Proc AutopilotError (RemoteStore Commit) (RemoteStep Commit) (RemoteQuery Commit)
    (RemoteQuery.Answer git)

/-! ## Steps -/

section Steps

variable [DecidableEq Commit]

def receiptCommitEmail : String := "autopilot-receipt@hive-mind.invalid"

/-- The part of a quarantine ref that names the node and the commit. -/
def quarantineRef (nodeId : String) (head : Commit) : String × Commit := (nodeId.toLower, head)

namespace RemoteStore

def readBranch (branch : String) : EStateM AutopilotError (RemoteStore Commit) (Option Commit) := do
  return (← get).branches branch

def readQuarantine (ref : String × Commit) :
    EStateM AutopilotError (RemoteStore Commit) (Option Commit) := do
  return (← get).quarantine ref

/-- A branch is no longer there. -/
def remove (s : RemoteStore Commit) (nodeId branch : String) (head inspected : Commit) :
    RemoteStore Commit :=
  { s with
    branches := Function.update s.branches branch none
    removed := ⟨nodeId, head, inspected⟩ :: s.removed }

/-- `<commit>:refs/heads/<branch>`, which is refused unless it is a fast-forward. -/
def push (git : GitObjects Commit) (branch : String) (commit : Commit) (s : RemoteStore Commit) :
    Option (RemoteStore Commit) :=
  if ∃ old ∈ s.branches branch, !git.isAncestor old commit then none
  else some { s with branches := Function.update s.branches branch (some commit) }

/-- `:refs/heads/<branch>`. -/
def delete (nodeId branch : String) (inspected : Commit) (s : RemoteStore Commit) :
    Option (RemoteStore Commit) :=
  (s.branches branch).map fun head ↦ s.remove nodeId branch head inspected

/-- The same with `--force-with-lease=refs/heads/<branch>:<inspected>`. -/
def deleteLeased (nodeId branch : String) (inspected : Commit) (s : RemoteStore Commit) :
    Option (RemoteStore Commit) :=
  if s.branches branch = some inspected then some (s.remove nodeId branch inspected inspected)
  else none

/-- The atomic push that moves a branch to quarantine, with a lease for either ref. -/
def archive (nodeId branch : String) (inspected : Commit) (s : RemoteStore Commit) :
    Option (RemoteStore Commit) :=
  let ref := quarantineRef nodeId inspected
  if s.quarantine ref = none ∧ s.branches branch = some inspected then
    some { s.remove nodeId branch inspected inspected with
      quarantine := Function.update s.quarantine ref (some inspected) }
  else none

/-- A command on the remote, which may be refused. -/
def command (update : RemoteStore Commit → Option (RemoteStore Commit)) :
    EStateM AutopilotError (RemoteStore Commit) Bool := do
  match update (← get) with
  | none => return false
  | some s =>
    set s
    return true

def readClaim (session : ℕ) (nodeId : String) :
    EStateM AutopilotError (RemoteStore Commit) (Option (LocalClaim Commit)) := do
  return (← get).claims (session, nodeId)

/-- `os.open` with `O_EXCL`, and the claim is written. -/
def writeClaim (session : ℕ) (nodeId : String) (claim : LocalClaim Commit) :
    EStateM AutopilotError (RemoteStore Commit) Unit := do
  let s ← get
  if (s.claims (session, nodeId)).isSome then
    throw (.claimError ("node " ++ nodeId ++ " already has a claim"))
  set { s with claims := Function.update s.claims (session, nodeId) (some claim) }

def unlinkClaim (session : ℕ) (nodeId : String) :
    EStateM AutopilotError (RemoteStore Commit) Unit := do
  modify fun s ↦ { s with claims := Function.update s.claims (session, nodeId) none }

end RemoteStore

/-! ## Operations -/

variable (git : GitObjects Commit) (branchOf : String → Option String)

def nodeBranch (nodeId : String) : RemoteM git String :=
  match branchOf nodeId with
  | some branch => pure branch
  | none => raise (.autopilotError ("unknown node: " ++ nodeId))

/-- A command that has to succeed. -/
def checked : RemoteM git Unit := do
  if !(← ask .succeeds) then
    raise (.autopilotError "git failed")

def remoteBranchSha (branch : String) : RemoteM git (Option Commit) := do
  if !(← ask .succeeds) then
    raise (.claimError "cannot inspect remote 'origin'")
  transact .readRemote (RemoteStore.readBranch branch)

def remoteRefSha (ref : String × Commit) : RemoteM git (Option Commit) := do
  if !(← ask .succeeds) then
    raise (.claimError "cannot inspect remote ref")
  transact .readRemote (RemoteStore.readQuarantine ref)

/-- A push. It may not come through, and its success may not be known. -/
def pushed (label : RemoteStep Commit)
    (update : RemoteStore Commit → Option (RemoteStore Commit)) : RemoteM git Bool := do
  if !(← ask .succeeds) then
    return false
  let accepted ← transact label (RemoteStore.command update)
  let reported ← ask .succeeds
  return accepted && reported

/-- The branch is fetched, so that its objects can be looked up. -/
def fetchBranch (branch message : String) : RemoteM git Unit := do
  let there ← transact .readRemote (RemoteStore.readBranch branch)
  let reported ← ask .succeeds
  if there = none ∨ !reported then
    raise (.claimError message)

def remoteClaimRecord (head : Commit) : RemoteM git (Option RemoteClaim) := do
  let shown ← ask .succeeds
  return if shown then git.record head else none

def publishRemoteClaim (nodeId owner : String) (expiresAt : ℤ) : RemoteM git Commit := do
  let branch ← nodeBranch git branchOf nodeId
  let observed ← remoteBranchSha git branch
  if observed ≠ none then
    raise (.claimError ("remote branch '" ++ branch ++
      "' already exists; reconcile it before claiming"))
  let resolved : Option Commit ← ask RemoteQuery.targetSha
  match resolved with
  | none => raise (.autopilotError "cannot resolve target branch")
  | some target =>
    checked git
    let planFingerprint ← ask .planFingerprint
    let created : Option (Subtype _) ← ask (RemoteQuery.commitTree target
      ⟨some nodeId, some owner, some expiresAt, some planFingerprint⟩)
    match created with
    | none => raise (.claimError "failed to create a remote claim commit")
    | some created =>
      let accepted ← pushed git .push (RemoteStore.push git branch created.1)
      if !accepted then
        raise (.claimError "remote claim race or push failure")
      let observed ← remoteBranchSha git branch
      if observed ≠ some created.1 then
        raise (.claimError "remote claim branch does not bind the created claim commit")
      return created.1

def releaseRemoteClaim (nodeId : String) (claimCommit : Commit) : RemoteM git Unit := do
  let branch ← nodeBranch git branchOf nodeId
  let observed ← remoteBranchSha git branch
  -- a worker that has advanced the branch keeps it
  if observed = some claimCommit then
    let deleted ← pushed git (.delete branch claimCommit)
      (RemoteStore.delete nodeId branch claimCommit)
    if !deleted then
      raise (.claimError "failed to release untouched remote claim branch")

/-- What is asked of a head before it is removed as a claim. Only the owner may be checked or not. -/
def inspectClaim (branch nodeId : String) (isOwner : RemoteClaim → Bool) (remedy : String)
    (head : Commit) : RemoteM git RemoteClaim := do
  match ← remoteClaimRecord git head with
  | none => raise (.claimError ("remote branch '" ++ branch ++ "' head is not a claim commit; " ++
      "it carries published work and must be " ++ remedy ++ ", never deleted"))
  | some record =>
    if record.nodeId ≠ some nodeId then
      raise (.claimError "remote claim identifies a different node")
    if !isOwner record then
      raise (.claimError "claim owner does not match")
    checked git
    match git.parents head with
    | [parent] =>
      checked git
      if git.tree head ≠ git.tree parent then
        raise (.claimError "claim commit changes the target tree; it is not an untouched claim")
      return record
    | _ => raise (.claimError "claim commit must have exactly one parent")

/-- `reap_stale_remote_claim`. The outcome is whether there was a branch. -/
def reapStaleRemoteClaim (nodeId owner : String) : RemoteM git Bool := do
  if !isRequired owner then
    raise (.claimError "stale remote claim release requires the exact claim owner")
  let branch ← nodeBranch git branchOf nodeId
  match ← remoteBranchSha git branch with
  | none => return false
  | some head =>
    fetchBranch git branch ("cannot inspect remote claim branch '" ++ branch ++ "'")
    let record ← inspectClaim git branch nodeId (·.owner = some owner) "reconciled" head
    match record.expiresAt with
    | none => raise (.claimError "claim record has no readable expiry")
    | some expires =>
      let now ← ask .clock
      if now < expires then
        raise (.claimError ("claim on '" ++ branch ++ "' is live; a live claim is the only " ++
          "cross-session mutex and is never reaped"))
      let deleted ← pushed git (.delete branch head) (RemoteStore.delete nodeId branch head)
      if !deleted then
        raise (.claimError "failed to retire stale remote claim branch")
      return true

/-- `defunct_remote_claim_proof`, by its kind. -/
def defunctRemoteClaimProof (record : RemoteClaim) : RemoteM git (Option String) := do
  let now ← ask .clock
  match record.expiresAt with
  | none => return some "unreadable-expiry"
  | some expires =>
    if expires ≤ now then
      return some "expired"
    let fingerprint ← ask .planFingerprint
    return if record.planFingerprint ≠ some fingerprint then some "plan-superseded" else none

/-- How long ago a commit was made, in minutes of 60000000. -/
def idle (head : Commit) : RemoteM git ℤ := do
  checked git
  let now ← ask .clock
  return now - git.committedAt head

def stalledBareClaim (minutes : ℤ) (head : Commit) : RemoteM git (Option String) := do
  if minutes < 1 then
    raise (.claimError "stall_minutes must be a positive integer")
  let idleFor ← idle git head
  return if minutes * 60000000 ≤ idleFor then some "stalled-bare-claim" else none

def reapDefunctRemoteClaim (nodeId actor : String) (stallMinutes : Option ℤ) :
    RemoteM git Bool := do
  if !isRequired actor then
    raise (.claimError "defunct claim retirement requires the acting identity")
  let branch ← nodeBranch git branchOf nodeId
  match ← remoteBranchSha git branch with
  | none => return false
  | some head =>
    fetchBranch git branch ("cannot inspect remote claim branch '" ++ branch ++ "'")
    let record ← inspectClaim git branch nodeId (fun _ ↦ true) "reconciled or quarantined" head
    let proof ← defunctRemoteClaimProof git record
    let proof ← match proof, stallMinutes with
      | none, some minutes => stalledBareClaim git minutes head
      | proof, _ => pure proof
    if proof = none then
      raise (.claimError ("claim on '" ++ branch ++ "' is live with a current target and plan; " ++
        "it may still protect integrable work"))
    let deleted ← pushed git .deleteLeased (RemoteStore.deleteLeased nodeId branch head)
    if !deleted then
      raise (.claimError ("failed to retire defunct remote claim branch (a worker may have " ++
        "pushed work at the same moment)"))
    return true

/-- The end of `quarantine_defunct_remote_branch`. -/
def archiveAndRetire (nodeId branch : String) (head : Commit) : RemoteM git Unit := do
  let kept ← remoteRefSha git (quarantineRef nodeId head)
  let archived ← if kept = none
    then pushed git .archive (RemoteStore.archive nodeId branch head)
    -- an earlier attempt stopped between archive and retirement
    else pushed git .deleteLeased (RemoteStore.deleteLeased nodeId branch head)
  if !archived then
    raise (.claimError ("failed to quarantine defunct remote branch (a worker may have pushed " ++
      "at the same moment)"))
  let bound ← remoteRefSha git (quarantineRef nodeId head)
  if bound ≠ some head then
    raise (.claimError "quarantine archive ref does not bind the retired head")

def quarantineDefunctRemoteBranch (nodeId actor : String) (stallMinutes : ℤ) :
    RemoteM git Bool := do
  if !isRequired actor then
    raise (.claimError "branch quarantine requires the acting identity")
  if stallMinutes < 1 then
    raise (.claimError "stall_minutes must be a positive integer")
  let branch ← nodeBranch git branchOf nodeId
  match ← remoteBranchSha git branch with
  | none => return false
  | some head =>
    fetchBranch git branch ("cannot inspect remote branch '" ++ branch ++ "'")
    checked git
    if git.authorEmail head = receiptCommitEmail then
      raise (.claimError ("remote branch '" ++ branch ++ "' head is a sealed receipt; it must be " ++
        "integrated, never quarantined"))
    let record ← remoteClaimRecord git head
    if record ≠ none then
      raise (.claimError ("remote branch '" ++ branch ++ "' head is an untouched claim; retire it " ++
        "through reap_defunct_remote_claim instead"))
    let idleFor ← idle git head
    if idleFor < stallMinutes * 60000000 then
      raise (.claimError ("remote branch '" ++ branch ++ "' moved recently; a worker may still be " ++
        "publishing"))
    let governing : Option RemoteClaim ← ask (RemoteQuery.governingClaim nodeId head)
    let proof ← match governing with
      | none => pure (some "no-governing-claim")
      | some claim => defunctRemoteClaimProof git claim
    if proof = none then
      raise (.claimError ("remote branch '" ++ branch ++ "' is governed by a live claim with a " ++
        "current target and plan; wait for its lease to resolve"))
    archiveAndRetire git nodeId branch head
    return true

/-- `claim` of a node that is published. -/
def claim (session : ℕ) (nodeId owner : String) (leaseMinutes : ℤ) : RemoteM git Unit := do
  if !(← ask .claimable) then
    raise (.claimError ("node " ++ nodeId ++ " is not claimable"))
  let now ← ask .clock
  let commit ← publishRemoteClaim git branchOf nodeId owner (now + leaseMinutes * 60000000)
  transact .writeClaim (RemoteStore.writeClaim session nodeId ⟨owner, some commit⟩)

def release (session : ℕ) (nodeId owner : String) : RemoteM git Unit := do
  match ← transact .readClaim (RemoteStore.readClaim session nodeId) with
  | none => return
  | some value =>
    if value.owner ≠ owner then
      raise (.claimError "claim owner does not match")
    match value.remoteClaimCommit with
    | none => pure ()
    | some commit => releaseRemoteClaim git branchOf nodeId commit
    transact .unlinkClaim (RemoteStore.unlinkClaim session nodeId)

end Steps

/-! ## What is removed -/

section Removals

variable {git : GitObjects Commit} {s t : RemoteStore Commit}

/-- What was removed is the claim that was inspected, or in quarantine. -/
def NothingLost (git : GitObjects Commit) (s : RemoteStore Commit) : Prop :=
  ∀ r ∈ s.removed, (r.head = r.inspected ∧ Untouched git r.head) ∨
    s.quarantine (quarantineRef r.nodeId r.head) = some r.head

/-- The remote when it is first shared: nothing was removed, and quarantine refs hold what is in
their name. There are no claim files yet. -/
structure RemoteOpened (s : RemoteStore Commit) : Prop where
  removed : s.removed = []
  quarantine : ∀ ref commit, s.quarantine ref = some commit → commit = ref.2
  claims : s.claims = fun _ ↦ none

/-- A branch that is removed by name still holds what was inspected. -/
def HeadUnchanged : RemoteStep Commit → RemoteStore Commit → Prop
  | .delete branch inspected, s => ∀ head ∈ s.branches branch, head = inspected
  | _, _ => True

instance [DecidableEq Commit] : ∀ (step : RemoteStep Commit) s, Decidable (HeadUnchanged step s)
  | .delete branch inspected, s =>
    inferInstanceAs (Decidable (∀ head ∈ s.branches branch, head = inspected))
  | .readRemote, _ => isTrue trivial
  | .push, _ => isTrue trivial
  | .deleteLeased, _ => isTrue trivial
  | .archive, _ => isTrue trivial
  | .readClaim, _ => isTrue trivial
  | .writeClaim, _ => isTrue trivial
  | .unlinkClaim, _ => isTrue trivial

structure RemoteInv (git : GitObjects Commit) (s : RemoteStore Commit) : Prop where
  claims : ∀ key file, s.claims key = some file → ∀ commit ∈ file.remoteClaimCommit,
    Untouched git commit
  quarantine : ∀ ref commit, s.quarantine ref = some commit → commit = ref.2
  nothingLost : NothingLost git s

theorem RemoteOpened.remoteInv (h : RemoteOpened s) : RemoteInv git s := by
  refine ⟨?_, h.quarantine, ?_⟩
  · intro key file hfile
    rw [h.claims] at hfile
    exact nomatch hfile
  · intro r hr
    rw [h.removed] at hr
    exact absurd hr List.not_mem_nil

/-- What is in quarantine stays there. -/
def Kept (s t : RemoteStore Commit) : Prop :=
  ∀ ref commit, s.quarantine ref = some commit → t.quarantine ref = some commit

theorem kept_refl (s : RemoteStore Commit) : Kept s s := fun _ _ h ↦ h

theorem kept_trans (s t u : RemoteStore Commit) (h : Kept s t) (h' : Kept t u) : Kept s u :=
  fun ref commit hs ↦ h' ref commit (h ref commit hs)

/-- A branch is removed whose commit was inspected or is in quarantine. -/
theorem RemoteInv.remove (h : RemoteInv git s) {nodeId branch : String} {head inspected : Commit}
    (hlost : (head = inspected ∧ Untouched git head) ∨
      s.quarantine (quarantineRef nodeId head) = some head) :
    RemoteInv git (s.remove nodeId branch head inspected) := by
  refine ⟨h.claims, h.quarantine, fun r hr ↦ ?_⟩
  rcases List.mem_cons.mp hr with rfl | hr
  · exact hlost
  · exact h.nothingLost r hr

variable (git) in
abbrev Preserves {α : Type} (p : RemoteM git α) (s : RemoteStore Commit)
    (Post : Except AutopilotError α → RemoteStore Commit → Prop) : Prop :=
  Guarantees HeadUnchanged (RemoteInv git) Kept Kept p s Post

/-- A reading of the remote or of a claim file. -/
theorem preserves_read {α : Type} {label : RemoteStep Commit} {f : RemoteStore Commit → α}
    {x : EStateM AutopilotError (RemoteStore Commit) α} (hx : ∀ t, x t = .ok (f t) t)
    {Post : Except AutopilotError α → RemoteStore Commit → Prop}
    (h : ∀ t, RemoteInv git t → Post (.ok (f t)) t) : Preserves git (transact label x) s Post := by
  refine guarantees_transact fun t _ ht _ ↦ ?_
  rw [hx t]
  exact ⟨ht, kept_refl t, h t ht⟩

theorem command_of_eq_none {update : RemoteStore Commit → Option (RemoteStore Commit)}
    (h : update t = none) : RemoteStore.command update t = .ok false t := by
  change (match update t with | none => pure false | some s => _ : EStateM _ _ Bool) t = _
  rw [h]
  rfl

theorem command_of_eq_some {update : RemoteStore Commit → Option (RemoteStore Commit)}
    {t' : RemoteStore Commit} (h : update t = some t') :
    RemoteStore.command update t = .ok true t' := by
  change (match update t with | none => _ | some s => do set s; pure true : EStateM _ _ Bool) t = _
  rw [h]
  rfl

/-- A push whose update keeps the invariant and the quarantine. -/
theorem preserves_pushed {label : RemoteStep Commit}
    {update : RemoteStore Commit → Option (RemoteStore Commit)}
    (h : ∀ t t', RemoteInv git t → Kept s t → HeadUnchanged label t → update t = some t' →
      RemoteInv git t' ∧ Kept t t') :
    Preserves git (pushed git label update) s fun _ _ ↦ True := by
  refine guarantees_andThen fun succeeds a _ ↦ ?_
  by_cases hfails : (!a) = true
  · rw [if_pos hfails]
    trivial
  rw [if_neg hfails]
  refine guarantees_andThen (guarantees_transact fun t hst ht hadmits ↦ ?_)
  cases hupdate : update t with
  | none =>
    rw [command_of_eq_none hupdate]
    exact ⟨ht, kept_refl t, fun _ _ _ ↦ trivial⟩
  | some t' =>
    rw [command_of_eq_some hupdate]
    obtain ⟨hinv, hkept⟩ := h t t' ht hst hadmits hupdate
    exact ⟨hinv, hkept, fun _ _ _ ↦ trivial⟩

variable {branchOf : String → Option String} {nodeId branch owner : String} {head : Commit}

theorem preserves_push : Preserves git (pushed git .push (RemoteStore.push git branch head)) s
    fun _ _ ↦ True := by
  refine preserves_pushed fun t t' ht _ _ hpush ↦ ?_
  rw [RemoteStore.push] at hpush
  split at hpush
  · exact nomatch hpush
  · obtain rfl := Option.some.inj hpush
    exact ⟨⟨ht.claims, ht.quarantine, ht.nothingLost⟩, kept_refl t⟩

/-- By name, but the branch still holds the claim. -/
theorem preserves_delete (hhead : Untouched git head) :
    Preserves git (pushed git (.delete branch head) (RemoteStore.delete nodeId branch head)) s
      fun _ _ ↦ True := by
  refine preserves_pushed fun t t' ht _ hsame hdelete ↦ ?_
  obtain ⟨value, hvalue, rfl⟩ := Option.map_eq_some_iff.mp hdelete
  obtain rfl := hsame value hvalue
  exact ⟨ht.remove (.inl ⟨rfl, hhead⟩), kept_refl t⟩

/-! ### Calls -/

theorem preserves_nodeBranch : Preserves git (nodeBranch git branchOf nodeId) s fun _ _ ↦ True := by
  rw [nodeBranch]
  split
  · trivial
  · trivial

theorem preserves_checked : Preserves git (checked git) s fun _ _ ↦ True :=
  guarantees_andThen fun _ _ _ ↦ guarantees_guard_last

theorem preserves_remoteBranchSha :
    Preserves git (remoteBranchSha git branch) s fun _ _ ↦ True := by
  refine guarantees_andThen fun succeeds a _ ↦ guarantees_guard fun _ ↦ ?_
  exact preserves_read (fun _ ↦ rfl) fun _ _ ↦ trivial

theorem preserves_fetchBranch {message : String} :
    Preserves git (fetchBranch git branch message) s fun _ _ ↦ True := by
  refine guarantees_andThen (preserves_read (fun _ ↦ rfl) fun t _ there _ ↦ ?_)
  exact guarantees_andThen fun reported a _ ↦ guarantees_guard_last

/-- What is found in a commit is there. -/
theorem preserves_remoteClaimRecord : Preserves git (remoteClaimRecord git head) s
    fun r _ ↦ ∀ record, r = .ok (some record) → git.record head = some record := by
  intro shown record hrecord
  cases shown with
  | true => exact Except.ok.inj hrecord
  | false => exact nomatch Except.ok.inj hrecord

theorem preserves_idle : Preserves git (idle git head) s fun _ _ ↦ True :=
  guarantees_andThen (preserves_checked.mono fun _ _ _ _ _ ↦ fun _ ↦ trivial)

theorem preserves_defunctProof {record : RemoteClaim} :
    Preserves git (defunctRemoteClaimProof git record) s fun _ _ ↦ True := by
  refine guarantees_andThen fun now _ _ ↦ ?_
  cases record.expiresAt with
  | none => trivial
  | some expires =>
    dsimp only
    split
    · trivial
    · exact fun fingerprint ↦ trivial

theorem preserves_stalledBareClaim {minutes : ℤ} :
    Preserves git (stalledBareClaim git minutes head) s fun _ _ ↦ True := by
  refine guarantees_guard fun _ ↦ ?_
  exact guarantees_andThen (preserves_idle.mono fun _ _ _ _ _ ↦ trivial)

/-- A head that passes is an untouched claim. -/
theorem preserves_inspectClaim {isOwner : RemoteClaim → Bool} {remedy : String} :
    Preserves git (inspectClaim git branch nodeId isOwner remedy head) s
      fun r _ ↦ ∀ record, r = .ok record → Untouched git head := by
  refine guarantees_andThen_ok (preserves_remoteClaimRecord.mono fun _ t hfound found hr ↦ ?_)
  subst hr
  cases found with
  | none => exact fun _ h ↦ nomatch h
  | some record =>
    refine guarantees_guard_ok fun _ ↦ guarantees_guard_ok fun _ ↦ ?_
    refine guarantees_andThen_ok (preserves_checked.mono fun _ u _ _ _ ↦ ?_)
    split
    · next parent hparents =>
      refine guarantees_andThen_ok (preserves_checked.mono fun _ v _ _ _ ↦ ?_)
      refine guarantees_guard_ok fun htree record' _ ↦ ?_
      rw [not_not] at htree
      exact ⟨Option.isSome_iff_exists.mpr ⟨record, hfound record rfl⟩, parent, hparents, htree⟩
    · exact fun _ h ↦ nomatch h

theorem preserves_reapStale :
    Preserves git (reapStaleRemoteClaim git branchOf nodeId owner) s fun _ _ ↦ True := by
  refine guarantees_guard fun _ ↦ ?_
  refine guarantees_andThen (preserves_nodeBranch.mono fun _ t _ branch _ ↦ ?_)
  refine guarantees_andThen (preserves_remoteBranchSha.mono fun _ u _ observed _ ↦ ?_)
  cases observed with
  | none => trivial
  | some head =>
    refine guarantees_andThen (preserves_fetchBranch.mono fun _ v _ _ _ ↦ ?_)
    refine guarantees_andThen (preserves_inspectClaim.mono fun _ w huntouched record hrecord ↦ ?_)
    cases record.expiresAt with
    | none => trivial
    | some expires =>
      refine guarantees_andThen fun now a _ ↦ guarantees_guard fun _ ↦ ?_
      refine guarantees_andThen
        ((preserves_delete (huntouched record hrecord)).mono fun _ x _ deleted _ ↦ ?_)
      exact guarantees_guard fun _ ↦ trivial

theorem preserves_unlinkClaim {session : ℕ} :
    Preserves git (transact .unlinkClaim (RemoteStore.unlinkClaim session nodeId)) s
      fun _ _ ↦ True := by
  refine guarantees_transact fun t _ ht _ ↦ ⟨⟨?_, ht.quarantine, ht.nothingLost⟩, kept_refl t,
    trivial⟩
  intro key file hfile
  change Function.update t.claims _ _ key = some file at hfile
  by_cases hkey : key = (session, nodeId)
  · rw [hkey, Function.update_self] at hfile
    exact nomatch hfile
  · rw [Function.update_of_ne hkey] at hfile
    exact ht.claims key file hfile

theorem preserves_remoteRefSha {ref : String × Commit} :
    Preserves git (remoteRefSha git ref) s
      fun r t ↦ ∀ kept, r = .ok kept → RemoteInv git t ∧ kept = t.quarantine ref := by
  refine guarantees_andThen_ok fun succeeds _ _ ↦ guarantees_guard_ok fun _ ↦ ?_
  refine preserves_read (fun _ ↦ rfl) fun t ht kept hkept ↦ ?_
  exact ⟨ht, (Except.ok.inj hkept).symm⟩

theorem preserves_writeClaim {session : ℕ} (hhead : Untouched git head) :
    Preserves git (transact .writeClaim (RemoteStore.writeClaim session nodeId ⟨owner, some head⟩)) s
      fun _ _ ↦ True := by
  refine guarantees_transact fun t _ ht _ ↦ ?_
  cases hwrite : RemoteStore.writeClaim session nodeId ⟨owner, some head⟩ t with
  | error e t' =>
    have hatomic : Atomic (RemoteStore.writeClaim session nodeId ⟨owner, some head⟩) :=
      atomic_bind atomic_get reads_get fun _ ↦ atomic_guard (atomic_set _)
    obtain rfl := hatomic t e t' hwrite
    exact ⟨ht, kept_refl _, trivial⟩
  | ok a t' =>
    simp only [RemoteStore.writeClaim, run_bind_eq_ok, run_guard_eq_ok, run_get_eq_ok,
      run_set_eq_ok] at hwrite
    obtain ⟨_, _, ⟨rfl, rfl⟩, -, rfl⟩ := hwrite
    refine ⟨⟨?_, ht.quarantine, ht.nothingLost⟩, kept_refl t, trivial⟩
    intro key file hfile commit hcommit
    change Function.update t.claims _ _ key = some file at hfile
    by_cases hkey : key = (session, nodeId)
    · rw [hkey, Function.update_self] at hfile
      obtain rfl := Option.some.inj hfile
      obtain rfl := Option.some.inj hcommit
      exact hhead
    · rw [Function.update_of_ne hkey] at hfile
      exact ht.claims key file hfile commit hcommit

variable [DecidableEq Commit]

theorem preserves_deleteLeased
    (hhead : Untouched git head ∨ s.quarantine (quarantineRef nodeId head) = some head) :
    Preserves git (pushed git .deleteLeased (RemoteStore.deleteLeased nodeId branch head)) s
      fun _ _ ↦ True := by
  refine preserves_pushed fun t t' ht hkept _ hdelete ↦ ?_
  rw [RemoteStore.deleteLeased] at hdelete
  split at hdelete
  · obtain rfl := Option.some.inj hdelete
    refine ⟨ht.remove ?_, kept_refl t⟩
    exact hhead.imp (fun huntouched ↦ ⟨rfl, huntouched⟩) (hkept _ _)
  · exact nomatch hdelete

/-- Both refs change at once, so that the branch is never missing. -/
theorem preserves_archive :
    Preserves git (pushed git .archive (RemoteStore.archive nodeId branch head)) s
      fun _ _ ↦ True := by
  refine preserves_pushed fun t t' ht _ _ harchive ↦ ?_
  simp only [RemoteStore.archive] at harchive
  split at harchive
  · next hrefs =>
    obtain rfl := Option.some.inj harchive
    have hkept : Kept t { t.remove nodeId branch head head with
        quarantine := Function.update t.quarantine (quarantineRef nodeId head) (some head) } := by
      intro ref commit href
      have hne : ref ≠ quarantineRef nodeId head := by
        rintro rfl
        rw [hrefs.1] at href
        exact nomatch href
      exact (Function.update_of_ne hne _ _).trans href
    refine ⟨⟨ht.claims, ?_, ?_⟩, hkept⟩
    · intro ref commit href
      change Function.update t.quarantine _ _ ref = some commit at href
      by_cases heq : ref = quarantineRef nodeId head
      · subst heq
        rw [Function.update_self] at href
        exact (Option.some.inj href).symm
      · exact ht.quarantine ref commit ((Function.update_of_ne heq _ _).symm.trans href)
    · intro r hr
      rcases List.mem_cons.mp hr with rfl | hr
      · exact .inr (Function.update_self ..)
      · exact (ht.nothingLost r hr).imp_right (hkept _ _)
  · exact nomatch harchive

theorem preserves_releaseRemoteClaim (hhead : Untouched git head) :
    Preserves git (releaseRemoteClaim git branchOf nodeId head) s fun _ _ ↦ True := by
  refine guarantees_andThen (preserves_nodeBranch.mono fun _ t _ branch _ ↦ ?_)
  refine guarantees_andThen (preserves_remoteBranchSha.mono fun _ u _ observed _ ↦ ?_)
  split
  · refine guarantees_andThen ((preserves_delete hhead).mono fun _ v _ deleted _ ↦ ?_)
    exact guarantees_guard_last
  · trivial

theorem preserves_reapDefunct {stallMinutes : Option ℤ} :
    Preserves git (reapDefunctRemoteClaim git branchOf nodeId owner stallMinutes) s
      fun _ _ ↦ True := by
  refine guarantees_guard fun _ ↦ ?_
  refine guarantees_andThen (preserves_nodeBranch.mono fun _ t _ branch _ ↦ ?_)
  refine guarantees_andThen (preserves_remoteBranchSha.mono fun _ u _ observed _ ↦ ?_)
  cases observed with
  | none => trivial
  | some head =>
    refine guarantees_andThen (preserves_fetchBranch.mono fun _ v _ _ _ ↦ ?_)
    refine guarantees_andThen (preserves_inspectClaim.mono fun _ w huntouched record hrecord ↦ ?_)
    have hretire : ∀ x, Preserves git (do
        let deleted ← pushed git .deleteLeased (RemoteStore.deleteLeased nodeId branch head)
        if !deleted then
          raise (.claimError ("failed to retire defunct remote claim branch (a worker may have " ++
            "pushed work at the same moment)"))
        return true) x fun _ _ ↦ True := by
      intro x
      refine guarantees_andThen
        ((preserves_deleteLeased (.inl (huntouched record hrecord))).mono fun _ y _ deleted _ ↦ ?_)
      exact guarantees_guard fun _ ↦ trivial
    refine guarantees_andThen (preserves_defunctProof.mono fun _ x _ proof _ ↦ ?_)
    cases proof with
    | some kind => exact guarantees_andThen fun kind' _ ↦ guarantees_guard fun _ ↦ hretire x
    | none =>
      cases stallMinutes with
      | none => trivial
      | some minutes =>
        refine guarantees_andThen (preserves_stalledBareClaim.mono fun _ y _ proof _ ↦ ?_)
        exact guarantees_guard fun _ ↦ hretire y

/-- The head is in quarantine already, or goes there together with its branch. -/
theorem preserves_archiveAndRetire :
    Preserves git (archiveAndRetire git nodeId branch head) s fun _ _ ↦ True := by
  refine guarantees_andThen (preserves_remoteRefSha.mono fun _ t hread kept hr ↦ ?_)
  obtain ⟨ht, hkept⟩ := hread kept hr
  dsimp only
  split
  · refine guarantees_andThen (preserves_archive.mono fun _ u _ archived _ ↦ ?_)
    refine guarantees_guard fun _ ↦ guarantees_andThen (preserves_remoteRefSha.mono ?_)
    exact fun _ v _ bound _ ↦ guarantees_guard_last
  · next hsome =>
    obtain ⟨commit, rfl⟩ := Option.ne_none_iff_exists'.mp hsome
    have hhead : commit = head := ht.quarantine _ _ hkept.symm
    subst hhead
    refine guarantees_andThen ((preserves_deleteLeased (.inr hkept.symm)).mono
      fun _ u _ archived _ ↦ ?_)
    refine guarantees_guard fun _ ↦ guarantees_andThen (preserves_remoteRefSha.mono ?_)
    exact fun _ v _ bound _ ↦ guarantees_guard_last

theorem preserves_quarantine {stallMinutes : ℤ} :
    Preserves git (quarantineDefunctRemoteBranch git branchOf nodeId owner stallMinutes) s
      fun _ _ ↦ True := by
  refine guarantees_guard fun _ ↦ guarantees_guard fun _ ↦ ?_
  refine guarantees_andThen (preserves_nodeBranch.mono fun _ t _ branch _ ↦ ?_)
  refine guarantees_andThen (preserves_remoteBranchSha.mono fun _ u _ observed _ ↦ ?_)
  cases observed with
  | none => trivial
  | some head =>
    refine guarantees_andThen (preserves_fetchBranch.mono fun _ v _ _ _ ↦ ?_)
    refine guarantees_andThen (preserves_checked.mono fun _ w _ _ _ ↦ guarantees_guard fun _ ↦ ?_)
    refine guarantees_andThen (preserves_remoteClaimRecord.mono fun _ x _ record _ ↦
      guarantees_guard fun _ ↦ ?_)
    refine guarantees_andThen (preserves_idle.mono fun _ y _ idleFor _ ↦ guarantees_guard fun _ ↦ ?_)
    refine guarantees_andThen fun governing record' _ ↦ ?_
    cases record' with
    | none =>
      refine guarantees_andThen fun proof _ ↦ guarantees_guard fun _ ↦ ?_
      exact guarantees_andThen (preserves_archiveAndRetire.mono fun _ _ _ _ _ ↦ trivial)
    | some claim =>
      refine guarantees_andThen (preserves_defunctProof.mono fun _ z _ proof _ ↦ ?_)
      refine guarantees_guard fun _ ↦ ?_
      exact guarantees_andThen (preserves_archiveAndRetire.mono fun _ _ _ _ _ ↦ trivial)

theorem preserves_publish {expiresAt : ℤ} :
    Preserves git (publishRemoteClaim git branchOf nodeId owner expiresAt) s
      fun r _ ↦ ∀ commit, r = .ok commit → Untouched git commit := by
  refine guarantees_andThen_ok (preserves_nodeBranch.mono fun _ t _ branch _ ↦ ?_)
  refine guarantees_andThen_ok (preserves_remoteBranchSha.mono fun _ u _ observed _ ↦ ?_)
  refine guarantees_guard_ok fun _ ↦ guarantees_andThen_ok fun resolved target _ ↦ ?_
  cases target with
  | none => exact fun _ h ↦ nomatch h
  | some target =>
    refine guarantees_andThen_ok (preserves_checked.mono fun _ v _ _ _ ↦ ?_)
    refine guarantees_andThen_ok fun _ fingerprint _ ↦ guarantees_andThen_ok fun _ created _ ↦ ?_
    cases created with
    | none => exact fun _ h ↦ nomatch h
    | some created =>
      refine guarantees_andThen_ok (preserves_push.mono fun _ w _ accepted _ ↦ ?_)
      refine guarantees_guard_ok fun _ ↦ ?_
      refine guarantees_andThen_ok (preserves_remoteBranchSha.mono fun _ x _ observed _ ↦ ?_)
      refine guarantees_guard_ok fun _ commit hcommit ↦ ?_
      obtain rfl := Except.ok.inj hcommit
      obtain ⟨hrecord, hparents, htree⟩ := created.2
      exact ⟨Option.isSome_iff_exists.mpr ⟨_, hrecord⟩, target, hparents, htree⟩

theorem preserves_claim {session : ℕ} {leaseMinutes : ℤ} :
    Preserves git (claim git branchOf session nodeId owner leaseMinutes) s fun _ _ ↦ True := by
  refine guarantees_andThen fun claimable _ _ ↦ guarantees_guard fun _ ↦ ?_
  refine guarantees_andThen fun now _ _ ↦ ?_
  refine guarantees_andThen (preserves_publish.mono fun _ t huntouched commit hcommit ↦ ?_)
  exact preserves_writeClaim (huntouched commit hcommit)

theorem preserves_release {session : ℕ} :
    Preserves git (release git branchOf session nodeId owner) s fun _ _ ↦ True := by
  refine guarantees_andThen (preserves_read (fun _ ↦ rfl) fun t ht value hvalue ↦ ?_)
  cases value with
  | none => trivial
  | some value =>
    refine guarantees_guard fun _ ↦ ?_
    cases hcommit : value.remoteClaimCommit with
    | none => exact preserves_unlinkClaim
    | some commit =>
      have huntouched := ht.claims _ value (Except.ok.inj hvalue) commit hcommit
      exact guarantees_andThen ((preserves_releaseRemoteClaim huntouched).mono
        fun _ _ _ _ _ ↦ preserves_unlinkClaim)

/-! ### Runs -/

variable (git) in
inductive RemoteCall where
  /-- a worker pushes to a branch -/
  | push (branch : String) (commit : Commit)
  | claim (session : ℕ) (nodeId owner : String) (leaseMinutes : ℤ)
  | release (session : ℕ) (nodeId owner : String)
  | releaseRemoteClaim (nodeId : String) (claimCommit : { commit : Commit // Untouched git commit })
  | reapStaleRemoteClaim (nodeId owner : String)
  | reapDefunctRemoteClaim (nodeId actor : String) (stallMinutes : Option ℤ)
  | quarantineDefunctRemoteBranch (nodeId actor : String) (stallMinutes : ℤ)

variable (branchOf) in
/-- A call of some session, or a push of some worker. -/
def RemoteCall.program : RemoteCall git → RemoteM git Unit
  | push branch commit => pushed git .push (RemoteStore.push git branch commit) >>= fun _ ↦ pure ()
  | claim session nodeId owner leaseMinutes =>
    Remote.claim git branchOf session nodeId owner leaseMinutes
  | release session nodeId owner => Remote.release git branchOf session nodeId owner
  | releaseRemoteClaim nodeId claimCommit =>
    Remote.releaseRemoteClaim git branchOf nodeId claimCommit.1
  | reapStaleRemoteClaim nodeId owner =>
    Remote.reapStaleRemoteClaim git branchOf nodeId owner >>= fun _ ↦ pure ()
  | reapDefunctRemoteClaim nodeId actor stallMinutes =>
    Remote.reapDefunctRemoteClaim git branchOf nodeId actor stallMinutes >>= fun _ ↦ pure ()
  | quarantineDefunctRemoteBranch nodeId actor stallMinutes =>
    Remote.quarantineDefunctRemoteBranch git branchOf nodeId actor stallMinutes >>= fun _ ↦ pure ()

theorem preserves_program (call : RemoteCall git) :
    Preserves git (call.program branchOf) s fun _ _ ↦ True := by
  cases call with
  | push branch commit => exact guarantees_andThen (preserves_push.mono fun _ _ _ _ _ ↦ trivial)
  | claim session nodeId owner leaseMinutes => exact preserves_claim
  | release session nodeId owner => exact preserves_release
  | releaseRemoteClaim nodeId claimCommit => exact preserves_releaseRemoteClaim claimCommit.2
  | reapStaleRemoteClaim nodeId owner =>
    exact guarantees_andThen (preserves_reapStale.mono fun _ _ _ _ _ ↦ trivial)
  | reapDefunctRemoteClaim nodeId actor stallMinutes =>
    exact guarantees_andThen (preserves_reapDefunct.mono fun _ _ _ _ _ ↦ trivial)
  | quarantineDefunctRemoteBranch nodeId actor stallMinutes =>
    exact guarantees_andThen (preserves_quarantine.mono fun _ _ _ _ _ ↦ trivial)

/-- Any number of calls and pushes, none of which has begun. -/
def remoteCalls (git : GitObjects Commit) (branchOf : String → Option String)
    (s : RemoteStore Commit) (calls : List (RemoteCall git)) :
    Config AutopilotError (RemoteStore Commit) (RemoteStep Commit) (RemoteQuery Commit)
      (RemoteQuery.Answer git) Unit :=
  ⟨s, calls.map (RemoteCall.program branchOf), []⟩

/-- **Where a branch that is removed by name still holds what was inspected, only untouched claims are
removed, and what is in quarantine.** -/
theorem never_lost {calls : List (RemoteCall git)}
    {c : Config AutopilotError (RemoteStore Commit) (RemoteStep Commit) (RemoteQuery Commit)
      (RemoteQuery.Answer git) Unit} (hopened : RemoteOpened s)
    (h : Config.Reaches HeadUnchanged (remoteCalls git branchOf s calls) c) :
    NothingLost git c.shared := by
  refine (inv_of_reaches kept_refl kept_trans hopened.remoteInv ?_ h).nothingLost
  intro p hp
  obtain ⟨call, -, rfl⟩ := List.mem_map.mp hp
  exact preserves_program call

end Removals

/-! ### An example -/

/-- A target, a claim of a node on top of it, and work on top of that. -/
def exampleGit : GitObjects ℕ where
  record commit := if commit = 1 then some ⟨some "N1", some "a", some 600000000, some "plan"⟩ else none
  parents commit := if commit = 0 then [] else [commit - 1]
  tree commit := if commit = 2 then "worked on" else "target"
  authorEmail _ := "worker@localhost"
  committedAt _ := -3600000000
  isAncestor old commit := old ≤ commit

def exampleBranch : String → Option String
  | "N1" => some "node/n1"
  | _ => none

def emptyRemote : RemoteStore ℕ where
  branches _ := none
  quarantine _ := none
  claims _ := none
  removed := []

theorem emptyRemote_opened : RemoteOpened emptyRemote := ⟨rfl, fun _ _ h ↦ (nomatch h), rfl⟩

/-- Everything succeeds at once, an hour after the commits were made. -/
def smoothRemote : ∀ query : RemoteQuery ℕ, query.Answer exampleGit
  | .succeeds => true
  | .clock => (0 : ℤ)
  | .targetSha => some (0 : ℕ)
  | .planFingerprint => "plan"
  | .commitTree parent record =>
    if h : exampleGit.record 1 = some record ∧ exampleGit.parents 1 = [parent] ∧
      exampleGit.tree 1 = exampleGit.tree parent then some ⟨1, h⟩ else none
  | .governingClaim _ _ => none
  | .claimable => true

/-- A node is claimed and released. Then it is claimed and worked on, and the work is put in
quarantine. -/
def remoteInTurns : Config AutopilotError (RemoteStore ℕ) (RemoteStep ℕ) (RemoteQuery ℕ)
    (RemoteQuery.Answer exampleGit) Unit :=
  remoteCalls exampleGit exampleBranch emptyRemote [.claim 0 "N1" "a" 10, .release 0 "N1" "a",
    .claim 1 "N1" "a" 10, .push "node/n1" 2, .quarantineDefunctRemoteBranch "N1" "b" 45]

def remoteSchedule : List ℕ :=
  List.replicate 20 0 ++ List.replicate 10 1 ++ List.replicate 20 2 ++ List.replicate 5 3 ++
    List.replicate 30 4

theorem never_lost_in_turns :
    NothingLost exampleGit (remoteSchedule.foldl (Config.turn smoothRemote) remoteInTurns).shared :=
  never_lost emptyRemote_opened
    (Config.reaches_schedule smoothRemote (show remoteInTurns.Admitted smoothRemote HeadUnchanged
      remoteSchedule by decide +kernel))

/-- A worker pushes between the reading of the branch and its removal. -/
theorem work_lost :
    ∃ c, RemoteOpened emptyRemote ∧
      Config.Reaches (fun _ _ ↦ True) (remoteCalls exampleGit exampleBranch emptyRemote
        [.claim 0 "N1" "a" 10, .release 0 "N1" "a", .push "node/n1" 2]) c ∧
      ¬NothingLost exampleGit c.shared := by
  refine ⟨_, emptyRemote_opened, Config.reaches_schedule smoothRemote (Config.admitted_true
    smoothRemote _ (List.replicate 20 0 ++ List.replicate 4 1 ++ List.replicate 3 2 ++ [1])),
    fun h ↦ ?_⟩
  obtain ⟨hsame, -⟩ | hkept := h ⟨"N1", 2, 1⟩ (List.mem_of_getElem? (i := 0) rfl)
  · exact absurd hsame (by decide)
  · exact absurd hkept (by decide)

end HiveMind.Autopilot.Remote
