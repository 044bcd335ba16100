import HiveMind.Kernel.Contracts
import HiveMind.Lib.Dicts
import HiveMind.Lib.Raise

/-!
# The delivery broker

A delivery pushes a branch and opens a draft pull request for it. The broker keeps a record of each
delivery under its idempotency key, in memory and in a state file, and the record is written before
and after each of the two remote calls. A broker that is started again reads the records from the
file.

The transport may return anything and raise anything. The process may be killed before any write
and before any remote call: a call of the broker comes with the number of such steps that it gets
to do.
-/

open Raise

namespace HiveMind.Delivery

/-! ## Requests, results and grants -/

inductive DeliveryState where
  | localArtifactReady
  | pushPending
  | prPending
  | published
  | reconciliationRequired
  | blocked
deriving DecidableEq, Repr

inductive ArtifactKind where
  | application
  | lessonsOnly
deriving DecidableEq, Repr

def ArtifactKind.value : ArtifactKind → String
  | application => "application"
  | lessonsOnly => "lessons-only"

structure DeliveryRequest where
  requestId : String
  packageId : String
  tenantId : String
  candidateCommit : String
  candidateTree : String
  qualificationDigest : String
  target : String
  base : String
  runBranch : String
  grantRef : String
  artifactKind : ArtifactKind
  contentDigest : String
  idempotencyKey : String
  changedPaths : List String
  identity : "" ∉ [requestId, packageId, tenantId, candidateCommit, target, base, runBranch,
    idempotencyKey]
  unprotected : runBranch ∉ [base, "main", "master"]
deriving DecidableEq

/-- `canonical_document(request)`. -/
def DeliveryRequest.toJson (r : DeliveryRequest) : Json := .mkObj [
  ("request_id", .str r.requestId), ("package_id", .str r.packageId),
  ("tenant_id", .str r.tenantId), ("candidate_commit", .str r.candidateCommit),
  ("candidate_tree", .str r.candidateTree), ("qualification_digest", .str r.qualificationDigest),
  ("target", .str r.target), ("base", .str r.base), ("run_branch", .str r.runBranch),
  ("grant_ref", .str r.grantRef), ("artifact_kind", .str r.artifactKind.value),
  ("content_digest", .str r.contentDigest), ("idempotency_key", .str r.idempotencyKey),
  ("changed_paths", .arr (r.changedPaths.map .str))]

def DeliveryRequest.digest [Hash256] (r : DeliveryRequest) : String := jsonDigest r.toJson

structure DeliveryResult where
  state : DeliveryState
  requestDigest : String
  branchHead : Option String := none
  prId : Option String := none
  blocker : Option String := none
deriving DecidableEq, Repr

structure DeliveryGrant where
  grantRef : String
  tenantId : String
  target : String
  base : String
  branchPrefix : String
  artifactKinds : List ArtifactKind
  allowedActions : List String := ["push", "draft_pr"]
  revoked : Bool := false
deriving DecidableEq

/-- `DeliveryGrant.allows`. -/
def DeliveryGrant.allows (g : DeliveryGrant) (r : DeliveryRequest) : Bool :=
  !g.revoked && r.grantRef == g.grantRef && r.tenantId == g.tenantId && r.target == g.target &&
    r.base == g.base && g.branchPrefix.toList.isPrefixOf r.runBranch.toList &&
    g.artifactKinds.contains r.artifactKind &&
    ["push", "draft_pr"].all g.allowedActions.contains

/-- What is found in the dict of grants. -/
inductive GrantEntry where
  | grant (g : DeliveryGrant)
  | foreign
deriving DecidableEq

/-! ## Texts that are looked into -/

/-- `re.I` on a letter of the pattern: two letters outside of ASCII fold to letters of it. -/
def sameLetter (p c : Char) : Bool :=
  c.toLower == p || (p == 's' && c.toNat == 0x17F) || (p == 'k' && c.toNat == 0x212A)

def startsWithIgnoringCase : List Char → List Char → Option (List Char)
  | [], cs => some cs
  | _ :: _, [] => none
  | p :: ps, c :: cs => if sameLetter p c then startsWithIgnoringCase ps cs else none

/-- `re.search(r"(token|secret|password|api[_-]?key)\s*[:=]", text, re.I)`. -/
def isSecretBearing (text : String) : Bool :=
  text.toList.tails.any fun cs ↦
    ["token", "secret", "password", "apikey", "api_key", "api-key"].any fun word ↦
      match startsWithIgnoringCase word.toList cs with
      | none => false
      | some rest =>
        match rest.dropWhile isSpace with
        | c :: _ => c == ':' || c == '='
        | [] => false

/-- `".." in path or path.startswith("/")`. -/
def isInvalidPath (path : String) : Bool :=
  path.toList.tails.any ("..".toList.isPrefixOf ·) || "/".toList.isPrefixOf path.toList

def isCodePath (path : String) : Bool :=
  [".py", ".js", ".ts", ".go", ".rs"].any fun suffix ↦ suffix.toList.isSuffixOf path.toList

/-! ## The world of a broker -/

/-- An exception of the transport: `TimeoutError` and `ConnectionError` leave it open whether the
call has had its effect. -/
inductive TransportError where
  | uncertain
  | permission (message : String)
  | other
deriving DecidableEq, Repr

inductive Response (α : Type) where
  | returns (value : α)
  | raises (error : TransportError)
deriving DecidableEq, Repr

/-- What `observe` returns. -/
inductive Observation where
  | result (r : DeliveryResult)
  | foreign
deriving DecidableEq, Repr

/-- How the transport behaves in a call of the broker. -/
structure Transport where
  push : Response String
  findOrCreateDraft : Response String
  observe : Option (Response Observation)

/-- An item of the state file. -/
structure Item where
  requestDigest : String
  state : DeliveryState
  branchHead : Option String
  prId : Option String
  blocker : Option String
deriving DecidableEq

/-- What has happened: remote calls, with the grant that was found for the request, and records
that were written. -/
inductive Event where
  | pushed (r : DeliveryRequest) (grant : Option GrantEntry)
  | drafted (r : DeliveryRequest)
  | recorded (key : String) (result : DeliveryResult)
deriving DecidableEq

/-- The records in memory, by key, with the digest of the request. -/
abbrev Results := List (String × (String × DeliveryResult))

structure World where
  results : Results
  file : Option (List (String × Item))
  /-- The number of writes and remote calls until the process is killed. -/
  life : ℕ
  events : List Event

inductive BrokerError where
  | transport
  | killed
deriving DecidableEq, Repr

abbrev BrokerM := EStateM BrokerError World

/-- `_load`. -/
def load (file : Option (List (String × Item))) : Results :=
  (file.getD []).foldl (fun results (key, item) ↦ Dicts.setItem key
    (item.requestDigest,
      ⟨item.state, item.requestDigest, item.branchHead, item.prId, item.blocker⟩) results) []

/-- The document that `_record` writes. -/
def document (results : Results) : List (String × Item) :=
  results.map fun (key, digest, result) ↦
    (key, ⟨digest, result.state, result.branchHead, result.prId, result.blocker⟩)

namespace World

/-- The record under a key is set, and the file is written. -/
def write (w : World) (key digest : String) (result : DeliveryResult) : World :=
  let results := Dicts.setItem key (digest, result) w.results
  { w with
    results, file := some (document results), life := w.life - 1
    events := w.events ++ [.recorded key result] }

/-- A remote call is made. -/
def emit (w : World) (e : Event) : World :=
  { w with life := w.life - 1, events := w.events ++ [e] }

/-- The broker is started again. -/
def restart (w : World) : World := { w with results := load w.file }

end World

/-- `_record`. -/
def record (key digest : String) (result : DeliveryResult) : BrokerM DeliveryResult := do
  let w ← get
  if w.life = 0 then throw .killed
  set (w.write key digest result)
  return result

/-- A call of the transport. -/
def remote {α : Type} (e : Event) (response : Response α) : BrokerM (Response α) := do
  let w ← get
  if w.life = 0 then throw .killed
  set (w.emit e)
  return response

section Digests

variable [Hash256]

/-! ## Calls -/

/-- What `prepare` refuses before it looks at the grant. -/
def contentBlocker (r : DeliveryRequest) : Option String :=
  if !"sha256:".toList.isPrefixOf r.qualificationDigest.toList then
    some "qualification receipt is not authenticated"
  else if r.changedPaths.any isInvalidPath then some "invalid changed path"
  else if isSecretBearing r.contentDigest then some "secret-bearing content"
  else if r.artifactKind == .lessonsOnly && r.changedPaths.any isCodePath then
    some "lessons artifact contains code"
  else none

/-- The exceptions of the transport that `prepare` catches, and those it does not. -/
def handle (r : DeliveryRequest) : TransportError → BrokerM DeliveryResult
  | .uncertain => record r.idempotencyKey r.digest
      { state := .reconciliationRequired, requestDigest := r.digest
        blocker := some "remote effect uncertain" }
  | .permission message => record r.idempotencyKey r.digest
      { state := .blocked, requestDigest := r.digest, blocker := some message }
  | .other => throw .transport

/-- The part of `prepare` with the remote calls. -/
def deliver (r : DeliveryRequest) (grant : Option GrantEntry) (transport : Transport) :
    BrokerM DeliveryResult := do
  let _ ← record r.idempotencyKey r.digest { state := .pushPending, requestDigest := r.digest }
  match ← remote (.pushed r grant) transport.push with
  | .raises e => handle r e
  | .returns head =>
    let _ ← record r.idempotencyKey r.digest
      { state := .prPending, requestDigest := r.digest, branchHead := some head }
    match ← remote (.drafted r) transport.findOrCreateDraft with
    | .raises e => handle r e
    | .returns pr =>
      record r.idempotencyKey r.digest
        { state := .published, requestDigest := r.digest, branchHead := some head
          prId := some pr }

/-- What a request with a record under its key gets. -/
def answerPrior (r : DeliveryRequest) (priorDigest : String) (prior : DeliveryResult) :
    BrokerM DeliveryResult :=
  if priorDigest ≠ r.digest then
    return { state := .blocked, requestDigest := r.digest
             blocker := some "idempotency key is bound to another request" }
  else if prior.state = .pushPending ∨ prior.state = .prPending then
    record r.idempotencyKey r.digest
      ⟨.reconciliationRequired, r.digest, prior.branchHead, prior.prId,
        some "prior remote effect must be observed before retry"⟩
  else return prior

/-- `prepare`. -/
def prepare (r : DeliveryRequest) (grants : String → Option GrantEntry)
    (transport : Option Transport) : BrokerM DeliveryResult := do
  match contentBlocker r with
  | some blocker =>
    return { state := .blocked, requestDigest := r.digest, blocker := some blocker }
  | none =>
    match grants r.grantRef with
    | none =>
      return { state := .localArtifactReady, requestDigest := r.digest
               blocker := some "delivery grant unavailable" }
    | some .foreign =>
      return { state := .blocked, requestDigest := r.digest
               blocker := some "delivery grant is invalid, revoked, or out of scope" }
    | some (.grant g) =>
      if !g.allows r then
        return { state := .blocked, requestDigest := r.digest
                 blocker := some "delivery grant is invalid, revoked, or out of scope" }
      match transport with
      | none =>
        return { state := .localArtifactReady, requestDigest := r.digest
                 blocker := some "delivery transport unavailable" }
      | some transport =>
        match (← get).results.lookup r.idempotencyKey with
        | some (priorDigest, prior) => answerPrior r priorDigest prior
        | none => deliver r (grants r.grantRef) transport

/-- What `reconcile` does with an observation. -/
def settle (r : DeliveryRequest) : Response Observation → BrokerM DeliveryResult
  | .raises _ => throw .transport
  | .returns (.result observed) =>
    if observed.requestDigest ≠ r.digest then
      return { state := .reconciliationRequired, requestDigest := r.digest
               blocker := some "remote observation is absent or mismatched" }
    else record r.idempotencyKey r.digest observed
  | .returns .foreign =>
    return { state := .reconciliationRequired, requestDigest := r.digest
             blocker := some "remote observation is absent or mismatched" }

/-- `reconcile`. -/
def reconcile (r : DeliveryRequest) (transport : Option Transport) : BrokerM DeliveryResult := do
  match (← get).results.lookup r.idempotencyKey with
  | none =>
    return { state := .blocked, requestDigest := r.digest
             blocker := some "no matching delivery intent" }
  | some (priorDigest, prior) =>
    if priorDigest ≠ r.digest then
      return { state := .blocked, requestDigest := r.digest
               blocker := some "no matching delivery intent" }
    match transport.bind (·.observe) with
    | none =>
      return ⟨.reconciliationRequired, r.digest, prior.branchHead, prior.prId,
        some "delivery transport cannot observe uncertain effect"⟩
    | some response => settle r response

end Digests

/-! ## Runs -/

/-- What happens to the broker: a call, with the number of writes and remote calls that the process
lives for, or a restart between calls. -/
inductive Call where
  | prepare (r : DeliveryRequest) (grants : String → Option GrantEntry)
      (transport : Option Transport) (life : ℕ)
  | reconcile (r : DeliveryRequest) (transport : Option Transport) (life : ℕ)
  | restart

variable [Hash256]

def Call.exec : Call → BrokerM Unit
  | .prepare r grants transport life => do
    modify ({ · with life })
    let _ ← Delivery.prepare r grants transport
  | .reconcile r transport life => do
    modify ({ · with life })
    let _ ← Delivery.reconcile r transport
  | .restart => modify World.restart

/-- The world after a call. If the process was killed it is started again. -/
def Call.after (c : Call) (w : World) : World :=
  match c.exec w with
  | .ok _ w' => w'
  | .error .transport w' => w'
  | .error .killed w' => w'.restart

def World.init : World := ⟨[], none, 0, []⟩

def run (calls : List Call) : World := calls.foldl (fun w c ↦ c.after w) .init

end HiveMind.Delivery
