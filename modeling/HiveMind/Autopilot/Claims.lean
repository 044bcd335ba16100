import HiveMind.Autopilot.Scopes
import HiveMind.Lib.Dicts
import HiveMind.Lib.Interleave

/-!
# Claims of nodes

Sessions that share a coordination directory claim nodes of the plan. A node has a claim file, which
is created exclusively, rewritten by heartbeats, and removed when it is released or found stale.
Claims of nodes with overlapping scopes are looked for before a file is created, by reading all files
that are there.

A session was told of a lease when a claim or a heartbeat returned, and holds it until it expires or
is released. The directory remembers that in the model, as history, and numbers the files in the order
in which they were written.

* **`claims_exclusive`**: where a claim is made no other live claim is there than those that were read,
  a heartbeat finds the claim it read still live, and what is moved away or removed is what was read,
  no two owners hold the same node or nodes that conflict.
* **`claims_not_exclusive`**: two sessions that look for conflicts before either of them creates its
  file both claim the nodes.

Times are microseconds. Whether a node is ready, and what becomes of the claim on the remote, are
asked of the surroundings.
-/

open Raise Interleave Proc

namespace HiveMind.Autopilot

/-- The locks of a node of the plan. -/
structure PlanNode where
  fileLocks : List String
  semanticLocks : List String
  deriving DecidableEq

structure ClaimRecord where
  nodeId : String
  owner : String
  /-- `none` if the text cannot be read as a time -/
  expiresAt : Option ℤ
  remoteClaimCommit : Option String
  deriving DecidableEq

inductive ClaimDocument where
  | claim (claim : ClaimRecord)
  | malformed
  deriving DecidableEq

/-- A claim file, with its number. -/
abbrev ClaimFile := ℕ × ClaimDocument

/-- The part of the coordination directory that concerns claims, and the leases that sessions were
told of, by node and owner. -/
structure ClaimStore where
  now : ℤ
  files : List (String × ClaimFile)
  written : ℕ
  told : String × String → Option ℤ

inductive ClaimQuery where
  /-- how much time has gone by -/
  | clock
  /-- whether `node_view` says that the node is ready -/
  | ready
  /-- the commit of the claim on the remote, if it could be published -/
  | publish
  /-- whether the target branch resolves -/
  | targetSha
  /-- whether the claim on the remote could be released -/
  | releaseRemote

@[reducible] def ClaimQuery.Answer : ClaimQuery → Type
  | clock => ℕ
  | ready => Bool
  | publish => Option String
  | targetSha => Bool
  | releaseRemote => Bool

inductive ClaimStep where
  | clock
  | list
  | read (nodeId : String)
  | create (nodeId : String) (seen : List String)
  | replace (nodeId : String) (read : ClaimFile)
  | move (nodeId : String) (read : Option ClaimFile)
  | unlink (nodeId : String) (read : ClaimFile)

abbrev ClaimM := Proc AutopilotError ClaimStore ClaimStep ClaimQuery ClaimQuery.Answer

/-! ## Steps -/

namespace ClaimStore

def file (s : ClaimStore) (nodeId : String) : Option ClaimFile := s.files.lookup nodeId

def readClock (elapsed : ℕ) : EStateM AutopilotError ClaimStore ℤ := do
  modify fun s ↦ { s with now := s.now + elapsed }
  return (← get).now

/-- `sorted(self.claims_dir.glob("*.json"))`. -/
def list : EStateM AutopilotError ClaimStore (List String) := do
  return ((← get).files.map Prod.fst).mergeSort (· ≤ ·)

def readFile (nodeId : String) : EStateM AutopilotError ClaimStore (Option ClaimFile) := do
  return (← get).file nodeId

/-- A claim is written, and its owner is told. -/
def write (s : ClaimStore) (nodeId : String) (claim : ClaimRecord) : ClaimStore :=
  { s with
    files := Dicts.setItem nodeId (s.written, .claim claim) s.files
    written := s.written + 1
    told := Function.update s.told (nodeId, claim.owner) claim.expiresAt }

/-- `os.open` with `O_EXCL`, and the claim is written. -/
def create (nodeId : String) (claim : ClaimRecord) :
    EStateM AutopilotError ClaimStore ClaimRecord := do
  let s ← get
  if s.file nodeId ≠ none then
    throw (.claimError ("node " ++ nodeId ++ " already has a claim"))
  set (s.write nodeId claim)
  return claim

/-- `atomic_write_json`. -/
def replace (nodeId : String) (claim : ClaimRecord) :
    EStateM AutopilotError ClaimStore ClaimRecord := do
  modify fun s ↦ s.write nodeId claim
  return claim

/-- `os.replace(path, stale)`, of a file that is there. -/
def move (nodeId : String) : EStateM AutopilotError ClaimStore Unit := do
  let s ← get
  if s.file nodeId = none then
    throw .osError
  set { s with files := Dicts.without nodeId s.files }

/-- `path.unlink()`, which ends the lease of the owner. -/
def unlink (nodeId owner : String) : EStateM AutopilotError ClaimStore Unit := do
  let s ← get
  if s.file nodeId = none then
    throw .osError
  set { s with
    files := Dicts.without nodeId s.files
    told := Function.update s.told (nodeId, owner) none }

end ClaimStore

/-! ## Conflicts -/

/-- `self.node(node_id)`. -/
def planNode (plan : String → Option PlanNode) (nodeId : String) : Except AutopilotError PlanNode :=
  match plan nodeId with
  | some node => .ok node
  | none => .error (.autopilotError ("unknown node: " ++ nodeId))

/-- Whether any pair of scopes overlaps, up to the first one. -/
def anyOverlap : List (String × String) → Except AutopilotError Bool
  | [] => .ok false
  | (first, second) :: pairs => do
    let overlap ← (scopesOverlap first.toList second.toList).mapError .valueError
    if overlap then
      return true
    anyOverlap pairs

/-- What is wrong with a claim of a node next to a claim of another one. -/
def conflictsWith (node : PlanNode) (otherId : String) (other : PlanNode) :
    Except AutopilotError (List String) := do
  let overlap ← anyOverlap (node.fileLocks.product other.fileLocks)
  let shared := (node.semanticLocks.filter (· ∈ other.semanticLocks)).dedup
  return (if overlap then ["file lock conflicts with " ++ otherId] else []) ++
    (if shared ≠ [] then ["semantic lock conflicts with " ++ otherId ++ ": " ++
      ", ".intercalate (shared.mergeSort (· ≤ ·))] else [])

/-- `_claim_conflicts`, with the nodes of the claims that were read. -/
def claimConflicts (plan : String → Option PlanNode) (nodeId : String) (claims : List String) :
    Except AutopilotError (List String) := do
  let node ← planNode plan nodeId
  let conflicts ← (claims.filter (· ≠ nodeId)).mapM fun otherId ↦ do
    conflictsWith node otherId (← planNode plan otherId)
  return conflicts.flatten

/-! ## Operations -/

def claimClock : ClaimM ℤ := do
  let elapsed ← ask .clock
  transact .clock (ClaimStore.readClock elapsed)

/-- Whether a claim file counts as stale: also one that is gone, or cannot be read. -/
def isStale (now : ℤ) : Option ClaimFile → Bool
  | some (_, .claim claim) =>
    match claim.expiresAt with
    | some expires => expires ≤ now
    | none => true
  | _ => true

/-- One turn of the loop of `clean_stale_claims`. -/
def cleanStaleClaim (now : ℤ) (nodeId : String) : ClaimM Unit := do
  let read ← transact (.read nodeId) (ClaimStore.readFile nodeId)
  if isStale now read then
    transact (.move nodeId read) (ClaimStore.move nodeId)

def cleanStaleClaims : ClaimM Unit := do
  let now ← claimClock
  let names ← transact .list ClaimStore.list
  names.forM (cleanStaleClaim now)

/-- `active_claims`: the nodes of the claims that have not expired. -/
def activeClaims : ClaimM (List String) := do
  let now ← claimClock
  let names ← transact .list ClaimStore.list
  names.foldlM (fun claims nodeId ↦ do
    match ← transact (.read nodeId) (ClaimStore.readFile nodeId) with
    | some (_, .claim claim) =>
      if (∃ expires ∈ claim.expiresAt, now < expires) ∧ claim.nodeId ∉ claims then
        return claims ++ [claim.nodeId]
      return claims
    | _ => return claims) []

def claim (plan : String → Option PlanNode) (nodeId owner : String) (leaseMinutes : ℤ)
    (publishRemote : Bool) : ClaimM ClaimRecord := do
  if !isRequired owner then
    raise (.claimError "claim owner is required")
  if leaseMinutes < 1 ∨ 1440 < leaseMinutes then
    raise (.claimError "lease must be between 1 and 1440 minutes")
  cleanStaleClaims
  if !(← ask .ready) then
    raise (.claimError ("node " ++ nodeId ++ " is not claimable"))
  let claims ← activeClaims
  let conflicts ← lift (claimConflicts plan nodeId claims)
  if conflicts ≠ [] then
    raise (.claimError ("; ".intercalate conflicts))
  let now ← claimClock
  let expiresAt := now + leaseMinutes * 60000000
  let published : Option String ← if publishRemote then ask ClaimQuery.publish else pure none
  if publishRemote ∧ published = none then
    raise (.claimError "remote claim race or push failure")
  if !(← ask .targetSha) then
    raise (.autopilotError "cannot resolve target branch")
  transact (.create nodeId claims)
    (ClaimStore.create nodeId ⟨nodeId, owner, some expiresAt, published⟩)

def heartbeat (nodeId owner : String) (leaseMinutes : ℤ) : ClaimM ClaimRecord := do
  match ← transact (.read nodeId) (ClaimStore.readFile nodeId) with
  | none => raise (.claimError "claim is unavailable")
  | some (_, .malformed) => raise (.claimError "claim owner does not match")
  | some (number, .claim value) =>
    if value.owner ≠ owner then
      raise (.claimError "claim owner does not match")
    match value.expiresAt with
    | none => raise (.valueError "timestamp must be non-empty text")
    | some expires =>
      if expires ≤ (← claimClock) then
        raise (.claimError "claim lease has expired")
      let now ← claimClock
      transact (.replace nodeId (number, .claim value)) (ClaimStore.replace nodeId
        { value with expiresAt := some (now + leaseMinutes * 60000000) })

def release (nodeId owner : String) : ClaimM Unit := do
  match ← transact (.read nodeId) (ClaimStore.readFile nodeId) with
  | none => return
  | some (_, .malformed) => raise (.claimError "claim owner does not match")
  | some (number, .claim value) =>
    if value.owner ≠ owner then
      raise (.claimError "claim owner does not match")
    if value.remoteClaimCommit.isSome then
      if !(← ask .releaseRemote) then
        raise (.claimError "failed to release untouched remote claim branch")
    let _ ← claimClock
    transact (.unlink nodeId (number, .claim value)) (ClaimStore.unlink nodeId owner)

/-! ## Exclusion -/

/-- Nodes of the plan that must not be worked on at once: locks of files overlap, or a semantic lock
is shared. -/
def Conflict (plan : String → Option PlanNode) (nodeId otherId : String) : Prop :=
  ∃ node ∈ plan nodeId, ∃ other ∈ plan otherId,
    (∃ pair ∈ node.fileLocks.product other.fileLocks,
      scopesOverlap pair.1.toList pair.2.toList = .ok true) ∨
    ∃ lock ∈ node.semanticLocks, lock ∈ other.semanticLocks

instance (plan : String → Option PlanNode) (nodeId otherId : String) :
    Decidable (Conflict plan nodeId otherId) :=
  inferInstanceAs (Decidable (∃ node ∈ plan nodeId, ∃ other ∈ plan otherId, _ ∨ _))

namespace ClaimStore

/-- The owner was last told of a lease of the node that has not expired. -/
def Holds (s : ClaimStore) (nodeId owner : String) : Prop :=
  ∃ expires ∈ s.told (nodeId, owner), s.now < expires

/-- The file of the node has a claim that has not expired. -/
def Live (s : ClaimStore) (nodeId : String) (claim : ClaimRecord) : Prop :=
  ∃ number, s.file nodeId = some (number, .claim claim) ∧
    ∃ expires ∈ claim.expiresAt, s.now < expires

end ClaimStore

/-- No two owners hold the same node, or nodes that conflict. -/
def ClaimsExclusive (plan : String → Option PlanNode) (s : ClaimStore) : Prop :=
  ∀ nodeId owner otherId other, s.Holds nodeId owner → s.Holds otherId other → owner ≠ other →
    nodeId ≠ otherId ∧ ¬Conflict plan nodeId otherId

/-- The directory when it is first shared: nobody was told of a lease, and no claim is live. -/
structure ClaimsOpened (s : ClaimStore) : Prop where
  told : s.told = fun _ ↦ none
  not_live : ∀ nodeId claim, ¬s.Live nodeId claim

/-- What was read still holds when a file is written or removed. Where a claim is made, all live
claims that conflict with it were read. -/
def UpToDate (plan : String → Option PlanNode) : ClaimStep → ClaimStore → Prop
  | .create nodeId claims, s => s.file nodeId = none → ∀ f ∈ s.files, ¬isStale s.now (some f.2) →
      Conflict plan nodeId f.1 ∨ Conflict plan f.1 nodeId → f.1 ∈ claims
  | .replace nodeId read, s => s.file nodeId = some read ∧ ¬isStale s.now (some read)
  | .move nodeId read, s => s.file nodeId ≠ none → s.file nodeId = read
  | .unlink nodeId read, s => s.file nodeId ≠ none → s.file nodeId = some read
  | _, _ => True

instance (plan : String → Option PlanNode) : ∀ step s, Decidable (UpToDate plan step s)
  | .create nodeId claims, s => inferInstanceAs (Decidable (s.file nodeId = none →
      ∀ f ∈ s.files, ¬isStale s.now (some f.2) → Conflict plan nodeId f.1 ∨ Conflict plan f.1 nodeId →
        f.1 ∈ claims))
  | .replace nodeId read, s =>
    inferInstanceAs (Decidable (s.file nodeId = some read ∧ ¬isStale s.now (some read)))
  | .move nodeId read, s => inferInstanceAs (Decidable (s.file nodeId ≠ none → s.file nodeId = read))
  | .unlink nodeId read, s =>
    inferInstanceAs (Decidable (s.file nodeId ≠ none → s.file nodeId = some read))
  | .clock, _ => isTrue trivial
  | .list, _ => isTrue trivial
  | .read _, _ => isTrue trivial

/-- What was told is what the live claims say, and nodes that are held do not conflict. -/
structure ClaimInv (plan : String → Option PlanNode) (s : ClaimStore) : Prop where
  nodeId_eq : ∀ nodeId claim, s.Live nodeId claim → claim.nodeId = nodeId
  told_eq : ∀ nodeId claim, s.Live nodeId claim → s.told (nodeId, claim.owner) = claim.expiresAt
  live : ∀ nodeId owner, s.Holds nodeId owner → ∃ claim, s.Live nodeId claim ∧ claim.owner = owner
  apart : ∀ nodeId owner otherId other, s.Holds nodeId owner → s.Holds otherId other →
    nodeId ≠ otherId → ¬Conflict plan nodeId otherId

section Exclusion

variable {plan : String → Option PlanNode} {s t : ClaimStore} {nodeId owner : String}
  {claim : ClaimRecord}

theorem ClaimsOpened.claimInv (h : ClaimsOpened s) : ClaimInv plan s := by
  have hholds : ∀ nodeId owner, ¬s.Holds nodeId owner := by
    rintro nodeId owner ⟨expires, hexpires, -⟩
    rw [h.told] at hexpires
    exact absurd hexpires (Option.not_mem_none _)
  exact ⟨fun _ _ hlive ↦ absurd hlive (h.not_live _ _), fun _ _ hlive ↦ absurd hlive (h.not_live _ _),
    fun _ _ hheld ↦ absurd hheld (hholds _ _), fun _ _ _ _ hheld ↦ absurd hheld (hholds _ _)⟩

theorem ClaimStore.Live.unique {claim' : ClaimRecord} (h : s.Live nodeId claim)
    (h' : s.Live nodeId claim') : claim = claim' := by
  obtain ⟨number, hfile, -⟩ := h
  obtain ⟨number', hfile', -⟩ := h'
  have heq := hfile.symm.trans hfile'
  obtain ⟨-, heq⟩ := Prod.mk.inj (Option.some.inj heq)
  exact ClaimDocument.claim.inj heq

/-- A live claim is not stale. -/
theorem ClaimStore.Live.not_isStale (h : s.Live nodeId claim) : ¬isStale s.now (s.file nodeId) := by
  obtain ⟨number, hfile, expires, hexpires, hlt⟩ := h
  rw [hfile, isStale, hexpires, decide_eq_true_eq, not_le]
  exact hlt

/-- What is stale stays so. -/
theorem isStale_mono {now now' : ℤ} {read : Option ClaimFile} (h : isStale now read)
    (hle : now ≤ now') : isStale now' read := by
  rw [isStale.eq_def] at h ⊢
  split
  · next claim =>
    dsimp only at h ⊢
    split
    · next expires hexpires =>
      rw [hexpires, decide_eq_true_eq] at h
      exact decide_eq_true (h.trans hle)
    · rfl
  · rfl

theorem ClaimInv.exclusive (h : ClaimInv plan s) : ClaimsExclusive plan s := by
  intro nodeId owner otherId other hheld hother hne
  have hnodes : nodeId ≠ otherId := by
    rintro rfl
    obtain ⟨claim, hlive, rfl⟩ := h.live _ _ hheld
    obtain ⟨claim', hlive', rfl⟩ := h.live _ _ hother
    exact hne (by rw [hlive.unique hlive'])
  exact ⟨hnodes, h.apart _ _ _ _ hheld hother hnodes⟩

/-! ### Conflicts that were looked for -/

theorem not_overlap_of_anyOverlap {pairs : List (String × String)} (h : anyOverlap pairs = .ok false) :
    ∀ pair ∈ pairs, scopesOverlap pair.1.toList pair.2.toList = .ok false := by
  induction pairs with
  | nil => exact fun _ hpair ↦ absurd hpair List.not_mem_nil
  | cons pair pairs ih =>
    obtain ⟨overlap, hoverlap, h⟩ := bind_eq_ok.mp h
    cases overlap with
    | true => exact nomatch h
    | false =>
      rintro p (_ | ⟨_, hp⟩)
      · exact mapError_eq_ok.mp hoverlap
      · exact ih h p hp

theorem planNode_eq_ok {node : PlanNode} :
    planNode plan nodeId = .ok node ↔ plan nodeId = some node := by
  rw [planNode]
  cases plan nodeId with
  | none => simp
  | some node' => simp

theorem conflictsWith_eq_nil {node other : PlanNode} {otherId : String}
    (h : conflictsWith node otherId other = .ok []) :
    (∀ pair ∈ node.fileLocks.product other.fileLocks,
      scopesOverlap pair.1.toList pair.2.toList = .ok false) ∧
    ∀ lock ∈ node.semanticLocks, lock ∉ other.semanticLocks := by
  obtain ⟨overlap, hoverlap, h⟩ := bind_eq_ok.mp h
  obtain ⟨hfiles, hlocks⟩ := List.append_eq_nil_iff.mp (Except.ok.inj h)
  constructor
  · cases overlap with
    | true => exact nomatch hfiles
    | false => exact not_overlap_of_anyOverlap hoverlap
  · intro lock hnode hother
    split at hlocks
    · exact nomatch hlocks
    · next hshared =>
      rw [not_not] at hshared
      have hmem : lock ∈ (node.semanticLocks.filter (· ∈ other.semanticLocks)).dedup := by
        rw [List.mem_dedup, List.mem_filter]
        exact ⟨hnode, decide_eq_true hother⟩
      rw [hshared] at hmem
      exact absurd hmem List.not_mem_nil

/-- A claim that conflicts with nothing that was read. -/
theorem not_conflict_of_claimConflicts {claims : List String} {otherId : String}
    (h : claimConflicts plan nodeId claims = .ok []) (hother : otherId ∈ claims)
    (hne : otherId ≠ nodeId) : ¬(Conflict plan nodeId otherId ∨ Conflict plan otherId nodeId) := by
  simp only [claimConflicts, bind_eq_ok, mapM_eq_ok, pure_eq_ok] at h
  obtain ⟨node, hnode, conflicts, hconflicts, hnil⟩ := h
  have hmem : otherId ∈ claims.filter (· ≠ nodeId) := by
    rw [List.mem_filter]
    exact ⟨hother, decide_eq_true hne⟩
  obtain ⟨found, hfound, other, hplan, hwith⟩ := exists_of_forall₂ hconflicts hmem
  obtain rfl := List.flatten_eq_nil_iff.mp hnil.symm found hfound
  obtain ⟨hfiles, hlocks⟩ := conflictsWith_eq_nil hwith
  have hnode := planNode_eq_ok.mp hnode
  have hplan := planNode_eq_ok.mp hplan
  rintro (⟨_, hn, _, ho, hconflict⟩ | ⟨_, ho, _, hn, hconflict⟩)
  · obtain rfl := Option.some.inj (hnode.symm.trans hn)
    obtain rfl := Option.some.inj (hplan.symm.trans ho)
    obtain ⟨pair, hpair, hoverlap⟩ | ⟨lock, hlock, hshared⟩ := hconflict
    · rw [hfiles pair hpair] at hoverlap
      exact nomatch hoverlap
    · exact hlocks lock hlock hshared
  · obtain rfl := Option.some.inj (hnode.symm.trans hn)
    obtain rfl := Option.some.inj (hplan.symm.trans ho)
    obtain ⟨pair, hpair, hoverlap⟩ | ⟨lock, hlock, hshared⟩ := hconflict
    · -- the scopes were compared the other way round
      obtain ⟨hfirst, hsecond⟩ := List.mem_product.mp hpair
      have happart := hfiles (pair.2, pair.1) (List.mem_product.mpr ⟨hsecond, hfirst⟩)
      rw [scopesOverlap_comm happart] at hoverlap
      exact nomatch hoverlap
    · exact hlocks lock hshared hlock

/-! ### Steps -/

/-- Time goes on. -/
def Onward (s t : ClaimStore) : Prop := s.now ≤ t.now

variable (plan) in
abbrev Secures {α : Type} (p : ClaimM α) (s : ClaimStore)
    (Post : Except AutopilotError α → ClaimStore → Prop) : Prop :=
  Guarantees (UpToDate plan) (ClaimInv plan) Onward Onward p s Post

theorem ClaimInv.readClock (h : ClaimInv plan s) (elapsed : ℕ) :
    ClaimInv plan { s with now := s.now + elapsed } := by
  have hlive : ∀ nodeId claim, ({ s with now := s.now + elapsed } : ClaimStore).Live nodeId claim →
      s.Live nodeId claim := by
    rintro nodeId claim ⟨number, hfile, expires, hexpires, hlt⟩
    exact ⟨number, hfile, expires, hexpires, lt_of_le_of_lt (by simp) hlt⟩
  have hheld : ∀ nodeId owner, ({ s with now := s.now + elapsed } : ClaimStore).Holds nodeId owner →
      s.Holds nodeId owner := by
    rintro nodeId owner ⟨expires, hexpires, hlt⟩
    exact ⟨expires, hexpires, lt_of_le_of_lt (by simp) hlt⟩
  refine ⟨fun _ _ h' ↦ h.nodeId_eq _ _ (hlive _ _ h'), fun _ _ h' ↦ h.told_eq _ _ (hlive _ _ h'),
    ?_, fun _ _ _ _ h₁ h₂ ↦ h.apart _ _ _ _ (hheld _ _ h₁) (hheld _ _ h₂)⟩
  -- the file says until when the lease is held
  rintro nodeId owner ⟨expires, hexpires, hlt⟩
  obtain ⟨claim, hclaim, rfl⟩ := h.live nodeId owner (hheld _ _ ⟨expires, hexpires, hlt⟩)
  obtain ⟨number, hfile, -⟩ := id hclaim
  change expires ∈ s.told (nodeId, claim.owner) at hexpires
  rw [h.told_eq _ _ hclaim] at hexpires
  exact ⟨claim, ⟨number, hfile, expires, hexpires, hlt⟩, rfl⟩

/-- A reading of the clock is not in the future. -/
theorem secures_claimClock {Post : Except AutopilotError ℤ → ClaimStore → Prop}
    (h : ∀ t, Onward s t → Post (.ok t.now) t) : Secures plan claimClock s Post := by
  intro elapsed t hst ht _
  have honward : Onward t { t with now := t.now + elapsed } :=
    le_add_of_nonneg_right (Int.natCast_nonneg elapsed)
  exact ⟨ht.readClock elapsed, honward, h _ (le_trans hst honward)⟩

theorem secures_readFile {Post : Except AutopilotError (Option ClaimFile) → ClaimStore → Prop}
    (h : ∀ t, Onward s t → Post (.ok (t.file nodeId)) t) :
    Secures plan (transact (.read nodeId) (ClaimStore.readFile nodeId)) s Post :=
  guarantees_transact fun t hst ht _ ↦ ⟨ht, le_rfl, h t hst⟩

theorem secures_list {Post : Except AutopilotError (List String) → ClaimStore → Prop}
    (h : ∀ names t, Onward s t → Post (.ok names) t) :
    Secures plan (transact .list ClaimStore.list) s Post :=
  guarantees_transact fun t hst ht _ ↦ ⟨ht, le_rfl, h _ t hst⟩

/-- A file is removed, and nobody holds the node then. -/
theorem ClaimInv.without (h : ClaimInv plan s) {told : String × String → Option ℤ}
    (htold : ∀ otherId other, otherId ≠ nodeId → told (otherId, other) = s.told (otherId, other))
    (hgone : ∀ owner, ∀ expires ∈ told (nodeId, owner), expires ≤ s.now) :
    ClaimInv plan { s with files := Dicts.without nodeId s.files, told := told } := by
  have hlive : ∀ otherId claim,
      ClaimStore.Live { s with files := Dicts.without nodeId s.files, told := told } otherId claim ↔
        otherId ≠ nodeId ∧ s.Live otherId claim := by
    intro otherId claim
    simp only [ClaimStore.Live, ClaimStore.file, Dicts.lookup_without]
    by_cases heq : otherId = nodeId
    · simp [heq]
    · simp [heq]
  have hheld : ∀ otherId owner,
      ClaimStore.Holds { s with files := Dicts.without nodeId s.files, told := told } otherId owner →
        otherId ≠ nodeId ∧ s.Holds otherId owner := by
    rintro otherId owner ⟨expires, hexpires, hlt⟩
    have hne : otherId ≠ nodeId := by
      rintro rfl
      exact absurd (hgone owner expires hexpires) (not_le.mpr hlt)
    change expires ∈ told (otherId, owner) at hexpires
    rw [htold otherId owner hne] at hexpires
    exact ⟨hne, expires, hexpires, hlt⟩
  refine ⟨?_, ?_, ?_, ?_⟩
  · exact fun otherId claim h' ↦ h.nodeId_eq _ _ ((hlive _ _).mp h').2
  · intro otherId claim h'
    obtain ⟨hne, h'⟩ := (hlive _ _).mp h'
    exact (htold _ _ hne).trans (h.told_eq _ _ h')
  · intro otherId owner h'
    obtain ⟨hne, h'⟩ := hheld _ _ h'
    obtain ⟨claim, hclaim, howner⟩ := h.live _ _ h'
    exact ⟨claim, (hlive _ _).mpr ⟨hne, hclaim⟩, howner⟩
  · exact fun _ _ _ _ h₁ h₂ ↦ h.apart _ _ _ _ (hheld _ _ h₁).2 (hheld _ _ h₂).2

/-- A claim is written where no other owner holds the node, and it conflicts with nothing that is
held. -/
theorem ClaimInv.write (h : ClaimInv plan s) (hnode : claim.nodeId = nodeId)
    (hfree : ∀ owner, s.Holds nodeId owner → owner = claim.owner)
    (hapart : ∀ otherId other, s.Holds otherId other → otherId ≠ nodeId →
      ¬(Conflict plan nodeId otherId ∨ Conflict plan otherId nodeId)) :
    ClaimInv plan (s.write nodeId claim) := by
  have hlive : ∀ otherId claim', otherId ≠ nodeId →
      ((s.write nodeId claim).Live otherId claim' ↔ s.Live otherId claim') := by
    intro otherId claim' hne
    simp [ClaimStore.Live, ClaimStore.file, ClaimStore.write, Dicts.lookup_setItem, hne]
  have hself : ∀ claim', (s.write nodeId claim).Live nodeId claim' → claim' = claim := by
    rintro claim' ⟨number, hfile, -⟩
    simp only [ClaimStore.file, ClaimStore.write, Dicts.lookup_setItem, if_pos] at hfile
    obtain ⟨-, heq⟩ := Prod.mk.inj (Option.some.inj hfile)
    exact (ClaimDocument.claim.inj heq).symm
  have htold : ∀ otherId other, otherId ≠ nodeId →
      (s.write nodeId claim).told (otherId, other) = s.told (otherId, other) := by
    intro otherId other hne
    exact Function.update_of_ne (fun heq ↦ hne (Prod.mk.inj heq).1) _ _
  have htoldself : (s.write nodeId claim).told (nodeId, claim.owner) = claim.expiresAt :=
    Function.update_self ..
  have hheld : ∀ otherId other, otherId ≠ nodeId → (s.write nodeId claim).Holds otherId other →
      s.Holds otherId other := by
    rintro otherId other hne ⟨expires, hexpires, hlt⟩
    rw [htold _ _ hne] at hexpires
    exact ⟨expires, hexpires, hlt⟩
  refine ⟨?_, ?_, ?_, ?_⟩
  · intro otherId claim' h'
    by_cases hne : otherId = nodeId
    · subst hne
      rw [hself claim' h', hnode]
    · exact h.nodeId_eq _ _ ((hlive _ _ hne).mp h')
  · intro otherId claim' h'
    by_cases hne : otherId = nodeId
    · subst hne
      rw [hself claim' h']
      exact htoldself
    · exact (htold _ _ hne).trans (h.told_eq _ _ ((hlive _ _ hne).mp h'))
  · intro otherId other h'
    by_cases hne : otherId = nodeId
    · subst hne
      obtain ⟨expires, hexpires, hlt⟩ := h'
      have howner : other = claim.owner := by
        by_contra hother
        have hsame : (s.write otherId claim).told (otherId, other) = s.told (otherId, other) :=
          Function.update_of_ne (fun heq ↦ hother (Prod.mk.inj heq).2) _ _
        rw [hsame] at hexpires
        exact hother (hfree other ⟨expires, hexpires, hlt⟩)
      subst howner
      rw [htoldself] at hexpires
      refine ⟨claim, ⟨s.written, ?_, expires, hexpires, hlt⟩, rfl⟩
      simp [ClaimStore.file, ClaimStore.write, Dicts.lookup_setItem]
    · obtain ⟨claim', hclaim', howner⟩ := h.live _ _ (hheld _ _ hne h')
      exact ⟨claim', (hlive _ _ hne).mpr hclaim', howner⟩
  · intro firstId first secondId second hfirst hsecond hne
    by_cases heq : firstId = nodeId
    · subst heq
      exact fun hconflict ↦ hapart _ _ (hheld _ _ hne.symm hsecond) hne.symm (.inl hconflict)
    · by_cases heq' : secondId = nodeId
      · subst heq'
        exact fun hconflict ↦ hapart _ _ (hheld _ _ heq hfirst) heq (.inr hconflict)
      · exact h.apart _ _ _ _ (hheld _ _ heq hfirst) (hheld _ _ heq' hsecond) hne

theorem secures_create {claims : List String} (hconflicts : claimConflicts plan nodeId claims = .ok [])
    (hnode : claim.nodeId = nodeId) :
    Secures plan (transact (.create nodeId claims) (ClaimStore.create nodeId claim)) s
      fun _ _ ↦ True := by
  refine guarantees_transact fun t _ ht hread ↦ ?_
  cases hcreate : ClaimStore.create nodeId claim t with
  | error e t' =>
    have hatomic : Atomic (ClaimStore.create nodeId claim) :=
      atomic_bind atomic_get reads_get fun _ ↦ atomic_guard (atomic_bind_pure (atomic_set _))
    obtain rfl := hatomic t e t' hcreate
    exact ⟨ht, le_rfl, trivial⟩
  | ok a t' =>
    simp only [ClaimStore.create, run_bind_eq_ok, run_guard_eq_ok, run_get_eq_ok, run_set_eq_ok,
      run_pure_eq_ok, not_not] at hcreate
    obtain ⟨_, _, ⟨rfl, rfl⟩, hfile, _, _, rfl, -, rfl⟩ := hcreate
    refine ⟨ht.write hnode ?_ ?_, le_rfl, trivial⟩
    · intro other hother
      obtain ⟨_, ⟨number, hsome, -⟩, -⟩ := ht.live _ _ hother
      rw [hfile] at hsome
      exact nomatch hsome
    · intro otherId other hother hne hconflict
      obtain ⟨claim', hlive, -⟩ := ht.live _ _ hother
      have hstale := hlive.not_isStale
      obtain ⟨number, hsome, -⟩ := hlive
      rw [hsome] at hstale
      have hseen := hread hfile _ (Dicts.mem_of_lookup hsome) hstale hconflict
      exact not_conflict_of_claimConflicts hconflicts hseen hne hconflict

/-- A heartbeat writes over the claim it read. -/
theorem secures_replace {number : ℕ} {value : ClaimRecord} {expires : Option ℤ} :
    Secures plan (transact (.replace nodeId (number, .claim value)) (ClaimStore.replace nodeId
      { value with expiresAt := expires })) s fun _ _ ↦ True := by
  refine guarantees_transact fun t _ ht hread ↦ ?_
  obtain ⟨hfile, hstale⟩ := hread
  have hlive : t.Live nodeId value := by
    refine ⟨number, hfile, ?_⟩
    cases hexpires : value.expiresAt with
    | none => simp [isStale, hexpires] at hstale
    | some expires =>
      rw [isStale, hexpires, decide_eq_true_eq, not_le] at hstale
      exact ⟨expires, rfl, hstale⟩
  have howner : ∀ owner, t.Holds nodeId owner → owner = value.owner := by
    intro owner hheld
    obtain ⟨claim, hclaim, rfl⟩ := ht.live _ _ hheld
    rw [hclaim.unique hlive]
  have hnode : ({ value with expiresAt := expires } : ClaimRecord).nodeId = nodeId :=
    ht.nodeId_eq nodeId value hlive
  refine ⟨ht.write hnode howner fun otherId other hother hne ↦ ?_, le_rfl, trivial⟩
  have hheld : t.Holds nodeId value.owner := by
    obtain ⟨_, _, expires, hexpires, hlt⟩ := id hlive
    exact ⟨expires, (ht.told_eq _ _ hlive).symm ▸ hexpires, hlt⟩
  rintro (hconflict | hconflict)
  · exact ht.apart _ _ _ _ hheld hother hne.symm hconflict
  · exact ht.apart _ _ _ _ hother hheld hne hconflict

/-- What was stale when it was read is stale when it is moved away. -/
theorem secures_move {read : Option ClaimFile} {now : ℤ} (hstale : isStale now read)
    (hnow : now ≤ s.now) :
    Secures plan (transact (.move nodeId read) (ClaimStore.move nodeId)) s fun _ _ ↦ True := by
  refine guarantees_transact fun t honward ht hread ↦ ?_
  cases hmove : ClaimStore.move nodeId t with
  | error e t' =>
    have hatomic : Atomic (ClaimStore.move nodeId) :=
      atomic_bind atomic_get reads_get fun _ ↦ atomic_guard (atomic_set _)
    obtain rfl := hatomic t e t' hmove
    exact ⟨ht, le_rfl, trivial⟩
  | ok a t' =>
    simp only [ClaimStore.move, run_bind_eq_ok, run_guard_eq_ok, run_get_eq_ok,
      run_set_eq_ok] at hmove
    obtain ⟨_, _, ⟨rfl, rfl⟩, hfile, rfl⟩ := hmove
    refine ⟨ht.without (fun _ _ _ ↦ rfl) ?_, le_rfl, trivial⟩
    intro owner expires hexpires
    by_contra hlt
    obtain ⟨claim, hlive, -⟩ := ht.live nodeId owner ⟨expires, hexpires, not_le.mp hlt⟩
    refine hlive.not_isStale ?_
    rw [hread hfile]
    exact isStale_mono hstale (hnow.trans honward)

theorem secures_unlink {number : ℕ} {value : ClaimRecord} :
    Secures plan (transact (.unlink nodeId (number, .claim value))
      (ClaimStore.unlink nodeId value.owner)) s fun _ _ ↦ True := by
  refine guarantees_transact fun t _ ht hread ↦ ?_
  cases hunlink : ClaimStore.unlink nodeId value.owner t with
  | error e t' =>
    have hatomic : Atomic (ClaimStore.unlink nodeId value.owner) :=
      atomic_bind atomic_get reads_get fun _ ↦ atomic_guard (atomic_set _)
    obtain rfl := hatomic t e t' hunlink
    exact ⟨ht, le_rfl, trivial⟩
  | ok a t' =>
    simp only [ClaimStore.unlink, run_bind_eq_ok, run_guard_eq_ok, run_get_eq_ok,
      run_set_eq_ok] at hunlink
    obtain ⟨_, _, ⟨rfl, rfl⟩, hfile, rfl⟩ := hunlink
    refine ⟨ht.without ?_ ?_, le_rfl, trivial⟩
    · exact fun otherId other hne ↦ Function.update_of_ne (fun heq ↦ hne (Prod.mk.inj heq).1) _ _
    · intro owner expires hexpires
      by_contra hlt
      by_cases howner : owner = value.owner
      · rw [howner, Function.update_self] at hexpires
        exact absurd hexpires (Option.not_mem_none _)
      · rw [Function.update_of_ne fun heq ↦ howner (Prod.mk.inj heq).2] at hexpires
        obtain ⟨claim, ⟨_, hsome, -⟩, rfl⟩ := ht.live nodeId owner ⟨expires, hexpires, not_le.mp hlt⟩
        have heq := (hread hfile).symm.trans hsome
        obtain ⟨-, heq⟩ := Prod.mk.inj (Option.some.inj heq)
        exact howner (by rw [ClaimDocument.claim.inj heq])

/-! ### Calls -/

theorem onward_refl (s : ClaimStore) : Onward s s := le_rfl

theorem onward_trans (s t u : ClaimStore) : Onward s t → Onward t u → Onward s u := le_trans

theorem secures_cleanStaleClaims : Secures plan cleanStaleClaims s fun _ _ ↦ True := by
  refine guarantees_andThen (secures_claimClock fun t _ now hnow ↦ ?_)
  obtain rfl := Except.ok.inj hnow
  refine guarantees_andThen (secures_list fun names u hu _ _ ↦ ?_)
  refine guarantees_forM onward_refl onward_trans fun nodeId _ v hv ↦ ?_
  refine guarantees_andThen (secures_readFile fun w hw read _ ↦ ?_)
  by_cases hstale : isStale t.now read = true
  · rw [if_pos hstale]
    exact secures_move hstale (hu.trans (hv.trans hw))
  · rw [if_neg hstale]
    trivial

theorem secures_activeClaims : Secures plan activeClaims s fun _ _ ↦ True := by
  refine guarantees_andThen (secures_claimClock fun t _ now _ ↦ ?_)
  refine guarantees_andThen (secures_list fun names u _ _ _ ↦ ?_)
  refine guarantees_foldlM onward_refl onward_trans _ fun claims nodeId _ v _ ↦ ?_
  refine guarantees_andThen (secures_readFile fun w _ read _ ↦ ?_)
  -- whatever was read, nothing is written
  split
  · split
    · trivial
    · trivial
  · trivial

theorem secures_claim {leaseMinutes : ℤ} {publishRemote : Bool} :
    Secures plan (Autopilot.claim plan nodeId owner leaseMinutes publishRemote) s fun _ _ ↦ True := by
  refine guarantees_guard fun _ ↦ guarantees_guard fun _ ↦ ?_
  refine guarantees_andThen (secures_cleanStaleClaims.mono fun _ t _ _ _ ↦ ?_)
  refine guarantees_andThen fun ready a _ ↦ guarantees_guard fun _ ↦ ?_
  refine guarantees_andThen (secures_activeClaims.mono fun _ u _ claims _ ↦ ?_)
  refine guarantees_andThen fun conflicts hconflicts ↦ guarantees_guard fun hnone ↦ ?_
  rw [not_not] at hnone
  subst hnone
  refine guarantees_andThen (secures_claimClock fun v _ now _ ↦ ?_)
  dsimp only
  split
  · refine guarantees_andThen fun published a _ ↦ guarantees_guard fun _ ↦ ?_
    refine guarantees_andThen fun resolves a _ ↦ guarantees_guard fun _ ↦ ?_
    exact secures_create hconflicts rfl
  · refine guarantees_guard fun _ ↦ guarantees_andThen fun resolves a _ ↦ guarantees_guard fun _ ↦ ?_
    exact secures_create hconflicts rfl

theorem secures_heartbeat {leaseMinutes : ℤ} :
    Secures plan (heartbeat nodeId owner leaseMinutes) s fun _ _ ↦ True := by
  refine guarantees_andThen (secures_readFile fun t _ found _ ↦ ?_)
  cases found with
  | none => trivial
  | some f =>
    obtain ⟨number, document⟩ := f
    cases document with
    | malformed => trivial
    | claim value =>
      refine guarantees_guard fun _ ↦ ?_
      cases value.expiresAt with
      | none => trivial
      | some expires =>
        refine guarantees_andThen (secures_claimClock fun u _ _ _ ↦ guarantees_guard fun _ ↦ ?_)
        exact guarantees_andThen (secures_claimClock fun v _ now _ ↦ secures_replace)

theorem secures_release : Secures plan (release nodeId owner) s fun _ _ ↦ True := by
  refine guarantees_andThen (secures_readFile fun t _ found _ ↦ ?_)
  cases found with
  | none => trivial
  | some f =>
    obtain ⟨number, document⟩ := f
    cases document with
    | malformed => trivial
    | claim value =>
      refine guarantees_guard fun howner ↦ ?_
      rw [not_not] at howner
      subst howner
      have hremove : ∀ t, Secures plan (claimClock >>= fun _ ↦
          transact (.unlink nodeId (number, .claim value)) (ClaimStore.unlink nodeId value.owner)) t
          fun _ _ ↦ True :=
        fun t ↦ guarantees_andThen (secures_claimClock fun u _ now _ ↦ secures_unlink)
      split
      · exact guarantees_andThen fun released a _ ↦ guarantees_guard fun _ ↦ hremove t
      · exact hremove t

/-! ### Runs -/

end Exclusion

inductive ClaimCall where
  | claim (nodeId owner : String) (leaseMinutes : ℤ) (publishRemote : Bool)
  | heartbeat (nodeId owner : String) (leaseMinutes : ℤ)
  | release (nodeId owner : String)
  | cleanStaleClaims

/-- A call of some session. -/
def ClaimCall.program (plan : String → Option PlanNode) : ClaimCall → ClaimM (Option ClaimRecord)
  | claim nodeId owner leaseMinutes publishRemote =>
    Autopilot.claim plan nodeId owner leaseMinutes publishRemote >>= fun claim ↦ pure (some claim)
  | heartbeat nodeId owner leaseMinutes =>
    Autopilot.heartbeat nodeId owner leaseMinutes >>= fun claim ↦ pure (some claim)
  | release nodeId owner => Autopilot.release nodeId owner >>= fun _ ↦ pure none
  | cleanStaleClaims => Autopilot.cleanStaleClaims >>= fun _ ↦ pure none

/-- Any number of calls, none of which has begun. -/
def claiming (plan : String → Option PlanNode) (s : ClaimStore) (calls : List ClaimCall) :
    Config AutopilotError ClaimStore ClaimStep ClaimQuery ClaimQuery.Answer (Option ClaimRecord) :=
  ⟨s, calls.map fun call ↦ call.program plan, []⟩

theorem secures_program (plan : String → Option PlanNode) (s : ClaimStore) (call : ClaimCall) :
    Secures plan (call.program plan) s fun _ _ ↦ True := by
  cases call with
  | claim nodeId owner leaseMinutes publishRemote =>
    exact guarantees_andThen (secures_claim.mono fun _ _ _ _ _ ↦ trivial)
  | heartbeat nodeId owner leaseMinutes =>
    exact guarantees_andThen (secures_heartbeat.mono fun _ _ _ _ _ ↦ trivial)
  | release nodeId owner => exact guarantees_andThen (secures_release.mono fun _ _ _ _ _ ↦ trivial)
  | cleanStaleClaims =>
    exact guarantees_andThen (secures_cleanStaleClaims.mono fun _ _ _ _ _ ↦ trivial)

/-- Two nodes that share a semantic lock. -/
def twoNodes : String → Option PlanNode
  | "N1" => some ⟨["src/a.py"], ["schema"]⟩
  | "N2" => some ⟨["src/b.py"], ["schema"]⟩
  | _ => none

/-- A directory with a stale claim of the first node. -/
def staleClaims : ClaimStore where
  now := 100
  files := [("N1", (0, .claim ⟨"N1", "gone", some 100, none⟩))]
  written := 1
  told := fun _ ↦ none

theorem staleClaims_opened : ClaimsOpened staleClaims := by
  refine ⟨rfl, ?_⟩
  rintro nodeId claim ⟨number, hfile, expires, hexpires, hlt⟩
  obtain ⟨-, hmem⟩ := Prod.mk.inj (List.mem_singleton.mp (Dicts.mem_of_lookup hfile))
  obtain ⟨-, hclaim⟩ := Prod.mk.inj hmem
  rw [ClaimDocument.claim.inj hclaim] at hexpires
  obtain rfl := Option.some.inj hexpires
  exact absurd hlt (by decide)

/-- No time goes by, and nothing fails. -/
def undisturbed : ∀ query : ClaimQuery, query.Answer
  | .clock => (0 : ℕ)
  | .ready => true
  | .publish => some "0a"
  | .targetSha => true
  | .releaseRemote => true

/-- One session claims the first node, keeps it with a heartbeat and releases it, and another one
claims the second node. -/
def claimsInTurns : Config AutopilotError ClaimStore ClaimStep ClaimQuery ClaimQuery.Answer
    (Option ClaimRecord) :=
  claiming twoNodes staleClaims [.claim "N1" "c" 10 true, .heartbeat "N1" "c" 20, .release "N1" "c",
    .claim "N2" "d" 10 false]

def claimsSchedule : List ℕ :=
  List.replicate 14 0 ++ List.replicate 6 1 ++ List.replicate 5 2 ++ List.replicate 11 3

end HiveMind.Autopilot
