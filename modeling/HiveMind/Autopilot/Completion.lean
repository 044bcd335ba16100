import HiveMind.Autopilot.Scopes
import HiveMind.Lib.Interleave

/-!
# Durable completion

A node is complete when its branch ends with a receipt: a commit that changes no path, made on top
of the final commit that the receipt names. The receipt is also written to a file of its own and
noted in an index, and the claim of the worker is removed.

A crash can come between any two of these steps. Whoever calls again finds a local receipt that is
already there acceptable. But the branch must still be at the final commit.

* **`retryable_iff`**: after a crash the completion can be repeated if and only if the branch has
  not moved yet.
-/

open Raise Interleave Proc

namespace HiveMind.Autopilot.Completion

inductive CompletionError where
  | autopilotError (message : String)
  | receiptError (message : String)
  | claimError (message : String)
  | valueError (message : String)
  deriving DecidableEq

/-- A receipt, with what a completion reads of it. -/
structure Receipt (Commit Body : Type) where
  nodeId : String
  finalCommit : Commit
  finalTree : String
  timestamp : String
  body : Body
  deriving DecidableEq

/-- The commits of a repository. They never change, and no commit is among its own ancestors. -/
structure CommitObjects (Commit Body : Type) where
  parents : Commit → List Commit
  tree : Commit → String
  /-- what `_parse_receipt_message` finds in the message -/
  receipt : Commit → Option (Receipt Commit Body)
  generation : Commit → ℕ
  generation_lt : ∀ commit, ∀ parent ∈ parents commit, generation parent < generation commit

/-- A claim file. -/
structure NodeClaim where
  owner : String
  /-- `none` if the text cannot be read as a time -/
  expiresAt : Option ℤ
  deriving DecidableEq

/-- A line of the receipt index. -/
structure IndexEntry (Commit : Type) where
  nodeId : String
  receiptCommit : Commit
  receiptDigest : String
  finalCommit : Commit
  timestamp : String
  deriving DecidableEq

/-- The checkout, and what the control plane keeps beside it. -/
structure Checkout (Commit Body : Type) where
  /-- the branch that is checked out, if there is one -/
  head : Option String
  branches : String → Option Commit
  receipts : String → Option (Receipt Commit Body)
  index : List (IndexEntry Commit)
  claims : String → Option NodeClaim

inductive CompletionStep where
  | readClaim
  | readReceipt
  | readHead
  | updateRef
  | writeReceipt
  | appendIndex
  | unlinkClaim

inductive CompletionQuery (Commit Body : Type) where
  | clock
  | hasGitRepository
  /-- `commit-tree` with the tree of its parent, and the receipt for a message -/
  | commitTree (parent : Commit) (receipt : Receipt Commit Body)

variable {Commit Body : Type}

@[reducible] def CompletionQuery.Answer (git : CommitObjects Commit Body) :
    CompletionQuery Commit Body → Type
  | clock => ℤ
  | hasGitRepository => Bool
  | commitTree parent receipt => Option { commit : Commit //
      git.parents commit = [parent] ∧ git.tree commit = git.tree parent ∧
        git.receipt commit = some receipt }

abbrev CompletionM (git : CommitObjects Commit Body) :=
  Proc CompletionError (Checkout Commit Body) CompletionStep (CompletionQuery Commit Body)
    (CompletionQuery.Answer git)

/-- The rest of the control plane. What the checks read of the repository lies between the base and
the final commit of the receipt. -/
structure Checks (Commit Body : Type) where
  branchOf : String → Option String
  /-- `validate_receipt`, without integration -/
  receiptIssues : String → Receipt Commit Body → List String
  /-- `_claim_provenance_issues` -/
  provenanceIssues : String → Receipt Commit Body → List String
  digest : Receipt Commit Body → String

section Completion

variable [DecidableEq Commit]

namespace Checkout

/-- What `HEAD` points to. -/
def headCommit (s : Checkout Commit Body) : Option Commit := s.head.bind s.branches

def readHead : EStateM CompletionError (Checkout Commit Body) (Option String × Option Commit) := do
  let s ← get
  return (s.head, s.headCommit)

def readClaim (nodeId : String) :
    EStateM CompletionError (Checkout Commit Body) (Option NodeClaim) := do
  return (← get).claims nodeId

def readReceipt (nodeId : String) :
    EStateM CompletionError (Checkout Commit Body) (Option (Receipt Commit Body)) := do
  return (← get).receipts nodeId

/-- `update-ref`, which is refused if the branch is not where it is expected. -/
def updateRef (branch : String) (created expected : Commit) :
    EStateM CompletionError (Checkout Commit Body) Bool := do
  let s ← get
  if s.branches branch = some expected then
    set { s with branches := Function.update s.branches branch (some created) }
    return true
  else return false

def writeReceipt (nodeId : String) (receipt : Receipt Commit Body) :
    EStateM CompletionError (Checkout Commit Body) Unit := do
  modify fun s ↦ { s with receipts := Function.update s.receipts nodeId (some receipt) }

def appendIndex (entry : IndexEntry Commit) :
    EStateM CompletionError (Checkout Commit Body) Unit := do
  modify fun s ↦ { s with index := s.index ++ [entry] }

def unlinkClaim (nodeId : String) : EStateM CompletionError (Checkout Commit Body) Unit := do
  modify fun s ↦ { s with claims := Function.update s.claims nodeId none }

end Checkout

variable (git : CommitObjects Commit Body) (checks : Checks Commit Body)

def nodeBranch (nodeId : String) : CompletionM git String :=
  match checks.branchOf nodeId with
  | some branch => pure branch
  | none => raise (.autopilotError ("unknown node: " ++ nodeId))

/-- The receipt commit is created, but no branch holds it yet. -/
def prepareReceiptCommit (nodeId : String) (receipt : Receipt Commit Body) :
    CompletionM git (String × Commit) := do
  if !(← ask .hasGitRepository) then
    raise (.receiptError "durable completion requires a Git repository")
  let branch ← nodeBranch git checks nodeId
  let head ← transact .readHead Checkout.readHead
  if head.1 ≠ some branch then
    raise (.receiptError ("durable completion must be created while checked out on '" ++ branch ++
      "'"))
  if head.2 ≠ some receipt.finalCommit then
    raise (.receiptError "receipt final_commit must equal the checked-out node HEAD")
  if git.tree receipt.finalCommit ≠ receipt.finalTree then
    raise (.receiptError "receipt final_tree does not match the checked-out node HEAD")
  let created : Option (Subtype _) ← ask
    (CompletionQuery.commitTree receipt.finalCommit receipt)
  match created with
  | none => raise (.receiptError "failed to create durable receipt commit")
  | some created => return (branch, created.1)

/-- `_create_receipt_commit`. -/
def createReceiptCommit (nodeId : String) (receipt : Receipt Commit Body) :
    CompletionM git Commit := do
  let prepared ← prepareReceiptCommit git checks nodeId receipt
  let updated ← transact .updateRef
    (Checkout.updateRef prepared.1 prepared.2 receipt.finalCommit)
  if !updated then
    raise (.receiptError "node branch moved while publishing durable receipt commit")
  return prepared.2

/-- What is asked before the receipt is published. -/
def precheck (nodeId owner : String) (receipt : Receipt Commit Body) : CompletionM git Unit := do
  if nodeId = "BOOT-000" then
    raise (.receiptError "historical BOOT-000 completion is sealed by bootstrap attestation")
  match ← transact .readClaim (Checkout.readClaim nodeId) with
  | none => raise (.claimError "node completion requires an active claim")
  | some claim =>
    if claim.owner ≠ owner then
      raise (.claimError "claim owner does not match")
    match claim.expiresAt with
    | none => raise (.valueError "timestamp must be non-empty text")
    | some expires =>
      let now ← ask .clock
      if expires ≤ now then
        raise (.claimError "claim expired before receipt publication")
      if checks.receiptIssues nodeId receipt ≠ [] then
        raise (.receiptError ("; ".intercalate (checks.receiptIssues nodeId receipt)))
      if checks.provenanceIssues nodeId receipt ≠ [] then
        raise (.receiptError ("; ".intercalate (checks.provenanceIssues nodeId receipt)))
      match ← transact .readReceipt (Checkout.readReceipt nodeId) with
      | none => return
      | some existing =>
        if checks.digest existing ≠ checks.digest receipt then
          raise (.receiptError "node already has a different local completion receipt")

/-- What is left to do once the branch ends with the receipt. -/
def settle (nodeId : String) (receipt : Receipt Commit Body) (receiptCommit : Commit) :
    CompletionM git Commit := do
  match ← transact .readReceipt (Checkout.readReceipt nodeId) with
  | none => transact .writeReceipt (Checkout.writeReceipt nodeId receipt)
  | some _ => pure ()
  transact .appendIndex (Checkout.appendIndex
    ⟨nodeId, receiptCommit, checks.digest receipt, receipt.finalCommit, receipt.timestamp⟩)
  transact .unlinkClaim (Checkout.unlinkClaim nodeId)
  return receiptCommit

/-- `complete`. -/
def complete (nodeId owner : String) (receipt : Receipt Commit Body) : CompletionM git Commit := do
  precheck git checks nodeId owner receipt
  let receiptCommit ← createReceiptCommit git checks nodeId receipt
  settle git checks nodeId receipt receiptCommit

/-! ## What is asked for -/

variable {git checks}

/-- The commits that a commit was made from, and itself. -/
def Reaches (git : CommitObjects Commit Body) : Commit → Commit → Prop :=
  Relation.ReflTransGen fun commit parent ↦ parent ∈ git.parents commit

/-- The commit is a receipt of the node. -/
def IsReceiptOf (git : CommitObjects Commit Body) (nodeId : String) (commit : Commit) : Prop :=
  ∃ receipt, git.receipt commit = some receipt ∧ receipt.nodeId = nodeId

/-- The environment answers: there is a repository, the receipt commit can be created, and it is not
too late for the claim of the node. -/
structure Works (env : ∀ query, CompletionQuery.Answer git query) (nodeId : String)
    (receipt : Receipt Commit Body) (s : Checkout Commit Body) : Prop where
  repository : env .hasGitRepository = true
  creates : env (.commitTree receipt.finalCommit receipt) ≠ none
  inTime : ∀ claim ∈ s.claims nodeId, ∀ expires ∈ claim.expiresAt, env .clock < expires

/-- A completion that goes through all checks, in a checkout at the final commit. -/
structure Admissible (git : CommitObjects Commit Body) (checks : Checks Commit Body)
    (nodeId owner branch : String) (receipt : Receipt Commit Body) (s : Checkout Commit Body) :
    Prop where
  node : nodeId ≠ "BOOT-000"
  names : receipt.nodeId = nodeId
  branchOf : checks.branchOf nodeId = some branch
  claimed : ∃ claim, s.claims nodeId = some claim ∧ claim.owner = owner ∧ claim.expiresAt ≠ none
  valid : checks.receiptIssues nodeId receipt = []
  provenance : checks.provenanceIssues nodeId receipt = []
  sameReceipt : ∀ existing ∈ s.receipts nodeId, checks.digest existing = checks.digest receipt
  checkedOut : s.head = some branch
  atFinal : s.branches branch = some receipt.finalCommit
  tree : git.tree receipt.finalCommit = receipt.finalTree

/-- The completion returns the one receipt of the node on the branch. The claim is removed, and the
local receipt is the given one. -/
def Completes (git : CommitObjects Commit Body) (checks : Checks Commit Body)
    (env : ∀ query, CompletionQuery.Answer git query) (nodeId owner branch : String)
    (receipt : Receipt Commit Body) (s : Checkout Commit Body) : Prop :=
  ∃ commit t, (complete git checks nodeId owner receipt).exec env s = (.ok commit, t) ∧
    t.branches branch = some commit ∧ git.receipt commit = some receipt ∧
    (∀ other, Reaches git commit other → IsReceiptOf git nodeId other → other = commit) ∧
    t.claims nodeId = none ∧ t.receipts nodeId = some receipt

/-! ## The checks -/

variable {nodeId owner branch : String} {receipt : Receipt Commit Body} {s t : Checkout Commit Body}
  {env env' : ∀ query, CompletionQuery.Answer git query}

omit [DecidableEq Commit] in
theorem isSilent_precheck : (precheck git checks nodeId owner receipt).IsSilent := by
  rw [precheck]
  refine isSilent_guard ?_
  refine IsSilent.bind (isSilent_transact fun _ ↦ rfl) fun claim ↦ ?_
  rcases claim with _ | claim
  · exact isSilent_raise _
  refine isSilent_guard ?_
  rcases claim.expiresAt with _ | expires
  · exact isSilent_raise _
  refine (isSilent_ask _).bind fun now ↦ isSilent_guard (isSilent_guard (isSilent_guard ?_))
  refine IsSilent.bind (isSilent_transact fun _ ↦ rfl) fun existing ↦ ?_
  rcases existing with _ | existing
  · exact isSilent_pure _
  · dsimp only
    split
    · exact isSilent_raise _
    · exact isSilent_pure _

omit [DecidableEq Commit] in
theorem exec_precheck (h : Admissible git checks nodeId owner branch receipt s)
    (hworks : Works env nodeId receipt s) :
    (precheck git checks nodeId owner receipt).exec env s = (.ok (), s) := by
  obtain ⟨claim, hclaim, howner, hexpires⟩ := h.claimed
  obtain ⟨expires, hexpires⟩ := Option.ne_none_iff_exists'.1 hexpires
  have hread : (transact .readClaim (Checkout.readClaim nodeId) :
      CompletionM git (Option NodeClaim)).exec env s = (.ok (some claim), s) :=
    congrArg (fun claim ↦ (Except.ok claim, s)) hclaim
  have hlate : ¬expires ≤ env .clock := not_le.2 (hworks.inTime claim hclaim expires hexpires)
  have hreceipt : (transact .readReceipt (Checkout.readReceipt nodeId) :
      CompletionM git (Option (Receipt Commit Body))).exec env s = (.ok (s.receipts nodeId), s) :=
    rfl
  rw [precheck, if_neg h.node, exec_bind_of_ok _ hread]
  simp only [howner, ne_eq, not_true, if_false, hexpires]
  rw [exec_bind_of_ok _ (exec_ask _ _ _), if_neg hlate, if_neg (not_not.2 h.valid),
    if_neg (not_not.2 h.provenance), exec_bind_of_ok _ hreceipt]
  rcases hexisting : s.receipts nodeId with _ | existing
  · rfl
  · simp only [h.sameReceipt existing hexisting, not_true, if_false]
    rfl

/-! ## The receipt commit -/

theorem isSilent_prepareReceiptCommit :
    (prepareReceiptCommit git checks nodeId receipt).IsSilent := by
  refine (isSilent_ask _).bind fun there ↦ isSilent_guard ?_
  refine IsSilent.bind ?_ fun branch ↦ ?_
  · rw [nodeBranch]
    split
    · exact isSilent_pure _
    · exact isSilent_raise _
  refine IsSilent.bind (isSilent_transact fun _ ↦ rfl) fun head ↦ ?_
  refine isSilent_guard (isSilent_guard (isSilent_guard ?_))
  refine (isSilent_ask _).bind fun created ↦ ?_
  split
  · exact isSilent_raise _
  · exact isSilent_pure _

omit [DecidableEq Commit] in
theorem exec_nodeBranch_eq_ok {b : String}
    (h : (nodeBranch git checks nodeId).exec env s = (.ok b, t)) :
    checks.branchOf nodeId = some b ∧ t = s := by
  rw [nodeBranch] at h
  split at h
  · rename_i branch hbranch
    obtain ⟨hb, rfl⟩ := Prod.mk.inj h
    obtain rfl := Except.ok.inj hb
    exact ⟨hbranch, rfl⟩
  · exact nomatch congrArg Prod.fst h

/-- What a prepared receipt commit says about the checkout. -/
theorem exec_prepareReceiptCommit_eq_ok {prepared : String × Commit}
    (h : (prepareReceiptCommit git checks nodeId receipt).exec env s = (.ok prepared, t)) :
    checks.branchOf nodeId = some prepared.1 ∧ s.head = some prepared.1 ∧
      s.branches prepared.1 = some receipt.finalCommit ∧
      git.parents prepared.2 = [receipt.finalCommit] ∧
      git.receipt prepared.2 = some receipt := by
  rw [prepareReceiptCommit, exec_bind_eq_ok] at h
  obtain ⟨_, _, ⟨⟩, h⟩ := h
  obtain ⟨-, h⟩ := (exec_guard_eq_ok _).1 h
  obtain ⟨branch, t', hbranch, hread⟩ := (exec_bind_eq_ok _).1 h
  obtain ⟨hbranchOf, rfl⟩ := exec_nodeBranch_eq_ok hbranch
  obtain ⟨_, _, ⟨⟩, h⟩ := (exec_bind_eq_ok _).1 hread
  obtain ⟨hcheckedOut, h⟩ := (exec_guard_eq_ok _).1 h
  obtain ⟨hfinal, h⟩ := (exec_guard_eq_ok _).1 h
  obtain ⟨-, h⟩ := (exec_guard_eq_ok _).1 h
  obtain ⟨created, _, ⟨⟩, h⟩ := (exec_bind_eq_ok _).1 h
  rcases hcreated : env (CompletionQuery.commitTree receipt.finalCommit receipt) with _ | created
  · rw [hcreated] at h
    exact nomatch congrArg Prod.fst h
  · rw [hcreated] at h
    obtain rfl := Except.ok.inj (congrArg Prod.fst h)
    have hhead : t'.head = some branch := not_not.1 hcheckedOut
    refine ⟨hbranchOf, hhead, ?_, created.2.1, created.2.2.2⟩
    have hcommit : t'.headCommit = some receipt.finalCommit := not_not.1 hfinal
    rw [Checkout.headCommit, hhead] at hcommit
    exact hcommit

theorem exec_prepareReceiptCommit (h : Admissible git checks nodeId owner branch receipt s)
    (hworks : Works env nodeId receipt s) :
    ∃ commit, git.parents commit = [receipt.finalCommit] ∧ git.receipt commit = some receipt ∧
      (prepareReceiptCommit git checks nodeId receipt).exec env s = (.ok (branch, commit), s) := by
  have hhead : s.headCommit = some receipt.finalCommit := by
    rw [Checkout.headCommit, h.checkedOut]
    exact h.atFinal
  have hread : (transact .readHead Checkout.readHead :
      CompletionM git (Option String × Option Commit)).exec env s =
        (.ok (some branch, some receipt.finalCommit), s) := by
    rw [← hhead, ← h.checkedOut]
    rfl
  obtain ⟨created, hcreated⟩ := Option.ne_none_iff_exists'.1 hworks.creates
  refine ⟨created.1, created.2.1, created.2.2.2, ?_⟩
  rw [prepareReceiptCommit, exec_bind_of_ok _ (exec_ask _ _ _), hworks.repository]
  simp only [nodeBranch, h.branchOf, Bool.not_true, Bool.false_eq_true, if_false]
  rw [exec_bind_of_ok _ (exec_pure _ _ _), exec_bind_of_ok _ hread]
  simp only [ne_eq, not_true, if_false, h.tree]
  rw [exec_bind_of_ok _ (exec_ask _ _ _), hcreated]
  rfl

/-! ## Moving the branch -/

theorem exec_updateRef {created expected : Commit} (h : s.branches branch = some expected) :
    (transact .updateRef (Checkout.updateRef branch created expected) :
      CompletionM git Bool).exec env s =
        (.ok true, { s with branches := Function.update s.branches branch (some created) }) := by
  have hrun : Checkout.updateRef branch created expected s = .ok true
      { s with branches := Function.update s.branches branch (some created) } := by
    change (if s.branches branch = some expected then _ else _ : EStateM _ _ _) s = _
    rw [if_pos h]
    rfl
  rw [exec_transact, hrun]
  rfl

theorem exec_createReceiptCommit (h : Admissible git checks nodeId owner branch receipt s)
    (hworks : Works env nodeId receipt s) :
    ∃ commit, git.parents commit = [receipt.finalCommit] ∧ git.receipt commit = some receipt ∧
      (createReceiptCommit git checks nodeId receipt).exec env s =
        (.ok commit, { s with branches := Function.update s.branches branch (some commit) }) ∧
      ∀ t ∈ (createReceiptCommit git checks nodeId receipt).stops env s, t = s := by
  obtain ⟨commit, hparents, hreceipt, hprepare⟩ := exec_prepareReceiptCommit h hworks
  refine ⟨commit, hparents, hreceipt, ?_, fun t ht ↦ ?_⟩
  · rw [createReceiptCommit, exec_bind_of_ok _ hprepare,
      exec_bind_of_ok _ (exec_updateRef h.atFinal)]
    rfl
  · rw [createReceiptCommit, stops_bind_of_ok _ hprepare, List.mem_append,
      stops_bind_of_ok _ (exec_updateRef h.atFinal)] at ht
    rcases ht with ht | ht
    · exact isSilent_prepareReceiptCommit.eq_of_mem_stops ht
    · exact List.mem_singleton.1 ht

/-- A receipt commit that was created was made on top of the branch, and moved it. -/
theorem exec_createReceiptCommit_eq_ok {commit : Commit}
    (hbranchOf : checks.branchOf nodeId = some branch)
    (h : (createReceiptCommit git checks nodeId receipt).exec env s = (.ok commit, t)) :
    s.branches branch = some receipt.finalCommit ∧ git.parents commit = [receipt.finalCommit] ∧
      git.receipt commit = some receipt ∧
      t = { s with branches := Function.update s.branches branch (some commit) } := by
  obtain ⟨prepared, s', hprepare, hmove⟩ := (exec_bind_eq_ok _).1 h
  have hsame : s' = s := by
    rw [← isSilent_prepareReceiptCommit.exec_snd s, hprepare]
  subst hsame
  obtain ⟨hprepared, -, hfinal, hparents, hreceipt⟩ := exec_prepareReceiptCommit_eq_ok hprepare
  obtain rfl := Option.some.inj (hbranchOf.symm.trans hprepared)
  rw [exec_bind_of_ok _ (exec_updateRef hfinal)] at hmove
  obtain ⟨hcommit, rfl⟩ := Prod.mk.inj hmove
  obtain rfl := Except.ok.inj hcommit
  exact ⟨hfinal, hparents, hreceipt, rfl⟩

/-! ## After the branch has moved -/

omit [DecidableEq Commit] in
/-- The rest of a completion does not touch the branches, and leaves the receipt that was there or
the given one. -/
theorem exec_settle (env : ∀ query, CompletionQuery.Answer git query)
    (checks : Checks Commit Body) (nodeId : String) (receipt : Receipt Commit Body)
    (commit : Commit) (s : Checkout Commit Body) :
    ∃ t, (settle git checks nodeId receipt commit).exec env s = (.ok commit, t) ∧
      t.branches = s.branches ∧ t.claims nodeId = none ∧
      t.receipts nodeId = some ((s.receipts nodeId).getD receipt) ∧
      ∀ u ∈ (settle git checks nodeId receipt commit).stops env s, u.branches = s.branches := by
  have hread : (transact .readReceipt (Checkout.readReceipt nodeId) :
      CompletionM git (Option (Receipt Commit Body))).exec env s = (.ok (s.receipts nodeId), s) :=
    rfl
  rcases hexisting : s.receipts nodeId with _ | existing
  · rw [hexisting] at hread
    rw [settle, exec_bind_of_ok _ hread, stops_bind_of_ok _ hread]
    refine ⟨_, rfl, rfl, Function.update_self .., Function.update_self .., fun u hu ↦ ?_⟩
    rcases List.mem_append.1 hu with hu | hu
    · rw [List.mem_singleton.1 hu]
    · rcases List.mem_cons.1 hu with rfl | hu
      · rfl
      · rcases List.mem_cons.1 hu with rfl | hu
        · rfl
        · rw [List.mem_singleton.1 hu]
          rfl
  · rw [hexisting] at hread
    rw [settle, exec_bind_of_ok _ hread, stops_bind_of_ok _ hread]
    refine ⟨_, rfl, rfl, Function.update_self .., hexisting, fun u hu ↦ ?_⟩
    rcases List.mem_append.1 hu with hu | hu
    · rw [List.mem_singleton.1 hu]
    · rcases List.mem_cons.1 hu with rfl | hu
      · rfl
      · rw [List.mem_singleton.1 hu]
        rfl

/-! ## Crashes -/

/-- Until the branch moves nothing has been written, and then the branch stays. -/
theorem eq_or_moved_of_mem_stops (h : Admissible git checks nodeId owner branch receipt s)
    (hworks : Works env nodeId receipt s)
    (ht : t ∈ (complete git checks nodeId owner receipt).stops env s) :
    t = s ∨ t.branches branch ≠ some receipt.finalCommit := by
  obtain ⟨commit, hparents, -, hcreate, hstops⟩ := exec_createReceiptCommit h hworks
  obtain ⟨-, -, -, -, -, hsettle⟩ := exec_settle env checks nodeId receipt commit
    { s with branches := Function.update s.branches branch (some commit) }
  rw [complete, stops_bind_of_ok _ (exec_precheck h hworks), stops_bind_of_ok _ hcreate,
    List.mem_append, List.mem_append] at ht
  rcases ht with ht | ht | ht
  · exact .inl (isSilent_precheck.eq_of_mem_stops ht)
  · exact .inl (hstops t ht)
  · right
    rw [hsettle t ht]
    simp only [Function.update_self]
    intro hsame
    -- a commit is not its own parent
    have hparent : receipt.finalCommit ∈ git.parents commit := by
      rw [hparents]
      exact List.mem_cons_self
    have hlt := git.generation_lt commit _ hparent
    rw [Option.some.inj hsame] at hlt
    exact lt_irrefl _ hlt

omit [DecidableEq Commit] in
theorem Reaches.generation_le {commit other : Commit} (h : Reaches git commit other) :
    git.generation other ≤ git.generation commit := by
  induction h with
  | refl => exact le_rfl
  | tail _ hparent ih => exact (git.generation_lt _ _ hparent).le.trans ih

omit [DecidableEq Commit] in
/-- A receipt commit on top of the final commit is the only one of its node if there was none
before. -/
theorem only_receipt_iff {commit : Commit} (hparents : git.parents commit = [receipt.finalCommit]) :
    (∀ other, Reaches git commit other → IsReceiptOf git nodeId other → other = commit) ↔
      ∀ other, Reaches git receipt.finalCommit other → ¬IsReceiptOf git nodeId other := by
  have hparent : receipt.finalCommit ∈ git.parents commit := by
    rw [hparents]
    exact List.mem_cons_self
  constructor
  · intro h other hreaches hother
    have hle := hreaches.generation_le
    rw [h other (.head hparent hreaches) hother] at hle
    exact absurd (git.generation_lt commit _ hparent) (not_lt.2 hle)
  · intro h other hreaches hother
    rcases Relation.ReflTransGen.cases_head hreaches with hsame | ⟨parent, hmem, hreaches⟩
    · exact hsame.symm
    · rw [hparents, List.mem_singleton] at hmem
      exact absurd hother (h other (hmem ▸ hreaches))

/-- A completion that returns was made at the final commit. -/
theorem exec_complete_eq_ok {commit : Commit} (hbranchOf : checks.branchOf nodeId = some branch)
    (h : (complete git checks nodeId owner receipt).exec env s = (.ok commit, t)) :
    s.branches branch = some receipt.finalCommit ∧ git.parents commit = [receipt.finalCommit] ∧
      git.receipt commit = some receipt ∧ t.branches branch = some commit ∧ t.claims nodeId = none ∧
      t.receipts nodeId = some ((s.receipts nodeId).getD receipt) := by
  obtain ⟨_, s', hadmit, hcreate⟩ := (exec_bind_eq_ok _).1 h
  have hsame : s' = s := by
    rw [← isSilent_precheck.exec_snd s, hadmit]
  subst hsame
  obtain ⟨created, u, hcreated, hsettle⟩ := (exec_bind_eq_ok _).1 hcreate
  obtain ⟨hfinal, hparents, hreceipt, rfl⟩ := exec_createReceiptCommit_eq_ok hbranchOf hcreated
  obtain ⟨t', hrun, hbranches, hclaims, hreceipts, -⟩ := exec_settle env checks nodeId receipt
    created { s' with branches := Function.update s'.branches branch (some created) }
  obtain ⟨hcommit, rfl⟩ := Prod.mk.inj (hsettle.symm.trans hrun)
  obtain rfl := Except.ok.inj hcommit
  refine ⟨hfinal, hparents, hreceipt, ?_, hclaims, hreceipts⟩
  rw [hbranches]
  exact Function.update_self ..

theorem exec_complete (h : Admissible git checks nodeId owner branch receipt s)
    (hworks : Works env nodeId receipt s) :
    ∃ commit t, (complete git checks nodeId owner receipt).exec env s = (.ok commit, t) := by
  obtain ⟨commit, -, -, hcreate, -⟩ := exec_createReceiptCommit h hworks
  obtain ⟨t, hsettle, -⟩ := exec_settle env checks nodeId receipt commit
    { s with branches := Function.update s.branches branch (some commit) }
  refine ⟨commit, t, ?_⟩
  rw [complete, exec_bind_of_ok _ (exec_precheck h hworks), exec_bind_of_ok _ hcreate, hsettle]

/-- What a completion leaves, if it returns. -/
theorem completes_iff (hbranchOf : checks.branchOf nodeId = some branch) :
    Completes git checks env nodeId owner branch receipt s ↔
      (∃ commit t, (complete git checks nodeId owner receipt).exec env s = (.ok commit, t)) ∧
        (∀ existing ∈ s.receipts nodeId, existing = receipt) ∧
        ∀ other, Reaches git receipt.finalCommit other → ¬IsReceiptOf git nodeId other := by
  have hlocal : some ((s.receipts nodeId).getD receipt) = some receipt ↔
      ∀ existing ∈ s.receipts nodeId, existing = receipt := by
    rcases s.receipts nodeId with _ | existing
    · simp
    · simp
  constructor
  · rintro ⟨commit, t, hrun, -, -, honly, -, hreceipt⟩
    obtain ⟨-, hparents, -, -, -, hreceipts⟩ := exec_complete_eq_ok hbranchOf hrun
    exact ⟨⟨commit, t, hrun⟩, hlocal.1 (hreceipts.symm.trans hreceipt),
      (only_receipt_iff hparents).1 honly⟩
  · rintro ⟨⟨commit, t, hrun⟩, hsame, hnone⟩
    obtain ⟨-, hparents, hreceipt, hbranch, hclaims, hreceipts⟩ :=
      exec_complete_eq_ok hbranchOf hrun
    exact ⟨commit, t, hrun, hbranch, hreceipt, (only_receipt_iff hparents).2 hnone, hclaims,
      hreceipts.trans (hlocal.2 hsame)⟩

/-- A completion that was stopped by a crash can be repeated exactly if the branch has not moved
yet, the local receipt that may be there is the given one, and the branch had no receipt of the
node. -/
theorem retryable_iff (h : Admissible git checks nodeId owner branch receipt s)
    (hworks : Works env nodeId receipt s)
    (ht : t ∈ (complete git checks nodeId owner receipt).stops env s)
    (hworks' : Works env' nodeId receipt t) :
    Completes git checks env' nodeId owner branch receipt t ↔
      t.branches branch = some receipt.finalCommit ∧
        (∀ existing ∈ t.receipts nodeId, existing = receipt) ∧
        ∀ other, Reaches git receipt.finalCommit other → ¬IsReceiptOf git nodeId other := by
  rw [completes_iff h.branchOf]
  refine and_congr_left fun _ ↦ ?_
  constructor
  · rintro ⟨commit, u, hrun⟩
    exact (exec_complete_eq_ok h.branchOf hrun).1
  · intro hfinal
    obtain rfl := (eq_or_moved_of_mem_stops h hworks ht).resolve_right fun hmoved ↦ hmoved hfinal
    exact exec_complete h hworks'

end Completion

/-! ### A crash after the branch has moved -/

section Sample

def sampleReceipt : Receipt ℕ Unit := ⟨"N-1", 1, "tree", "2026-01-01T00:00:00Z", ()⟩

/-- The base is 0, the final commit is 1, and everything else is a receipt on top of it. -/
def sampleObjects : CommitObjects ℕ Unit where
  parents commit := if commit = 0 then [] else if commit = 1 then [0] else [1]
  tree _ := "tree"
  receipt commit := if commit ≤ 1 then none else some sampleReceipt
  generation commit := commit
  generation_lt commit parent hparent := by
    by_cases h0 : commit = 0
    · rw [if_pos h0] at hparent
      exact nomatch hparent
    · by_cases h1 : commit = 1
      · rw [if_neg h0, if_pos h1, List.mem_singleton] at hparent
        omega
      · rw [if_neg h0, if_neg h1, List.mem_singleton] at hparent
        omega

def sampleChecks : Checks ℕ Unit where
  branchOf nodeId := if nodeId = "N-1" then some "autopilot/n-1" else none
  receiptIssues _ _ := []
  provenanceIssues _ _ := []
  digest _ := "digest"

def sampleAnswers : ∀ query, CompletionQuery.Answer sampleObjects query
  | .clock => 0
  | .hasGitRepository => true
  | .commitTree parent receipt =>
    if h : parent = 1 ∧ receipt = sampleReceipt then
      some ⟨2, by rw [h.1, h.2]; exact ⟨rfl, rfl, rfl⟩⟩
    else none

def sampleCheckout : Checkout ℕ Unit where
  head := some "autopilot/n-1"
  branches branch := if branch = "autopilot/n-1" then some 1 else none
  receipts _ := none
  index := []
  claims nodeId := if nodeId = "N-1" then some ⟨"worker", some 100⟩ else none

theorem admissible_sampleCheckout : Admissible sampleObjects sampleChecks "N-1" "worker"
    "autopilot/n-1" sampleReceipt sampleCheckout where
  node := by decide
  names := rfl
  branchOf := rfl
  claimed := ⟨_, rfl, rfl, nofun⟩
  valid := rfl
  provenance := rfl
  sameReceipt := nofun
  checkedOut := rfl
  atFinal := rfl
  tree := rfl

theorem works_sampleCheckout : Works sampleAnswers "N-1" sampleReceipt sampleCheckout where
  repository := rfl
  creates := nofun
  inTime := by
    rintro _ ⟨⟩ _ ⟨⟩
    decide

/-- A crash at the very start can be made up for. -/
theorem sampleStart_retryable : Completes sampleObjects sampleChecks sampleAnswers "N-1" "worker"
    "autopilot/n-1" sampleReceipt sampleCheckout := by
  refine (retryable_iff admissible_sampleCheckout works_sampleCheckout (t := sampleCheckout)
    List.mem_cons_self works_sampleCheckout).2 ⟨rfl, nofun, ?_⟩
  rintro other hreaches ⟨receipt, hreceipt, -⟩
  have hle : other ≤ 1 := hreaches.generation_le
  rw [show sampleObjects.receipt other = none from if_pos hle] at hreceipt
  exact nomatch hreceipt

/-- The branch ends with the receipt, and nothing else is written. Completing again is refused. -/
theorem moved_branch_not_retryable :
    ∃ t ∈ (complete sampleObjects sampleChecks "N-1" "worker" sampleReceipt).stops sampleAnswers
        sampleCheckout,
      (complete sampleObjects sampleChecks "N-1" "worker" sampleReceipt).exec sampleAnswers t =
        (.error (.receiptError "receipt final_commit must equal the checked-out node HEAD"), t) ∧
      ¬Completes sampleObjects sampleChecks sampleAnswers "N-1" "worker" "autopilot/n-1"
        sampleReceipt t := by
  refine ⟨_, List.mem_of_getElem? (i := 7) rfl, rfl, ?_⟩
  rintro ⟨commit, u, hrun, -⟩
  exact nomatch congrArg Prod.fst hrun

end Sample

end HiveMind.Autopilot.Completion
