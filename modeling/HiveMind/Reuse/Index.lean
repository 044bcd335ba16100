import HiveMind.Lib.Dicts
import HiveMind.Lib.Rows
import HiveMind.Lib.Trace
import HiveMind.Reuse.Receipts

/-!
# The index of task receipts

The index is a table that only grows. The receipts of one `receipt_id` are a hash chain, and before
any work is started the latest receipts of a node are classified into one of eight dispositions.
What is read from the table is checked first: `verify` decodes every row, and the decoder takes no
payload of more than a mebibyte. `append` has no such bound, so one receipt that is too long stops
all reading.

* **`reuse_decisions_sound`**: exactly which runs of `append` leave a table that is verified, what
  an exact reuse is based on, and that dispositions do not depend on how the histories of different
  receipts are interleaved.
-/

open Raise HiveMind.Runtime

namespace HiveMind.Reuse

/-! ## Rows -/

/-- A row of `task_receipts`. The global sequence number is the position in the table. -/
structure ReceiptRow where
  receiptId : String
  receiptSequence : Int
  planDigest : String
  nodeId : String
  fingerprintDigest : String
  idempotencyKey : String
  payloadJson : String
  receiptDigest : String
  deriving DecidableEq

/-- What a caller of the index can be told. -/
inductive IndexError where
  | valueError (message : String)
  | taskReuse (error : TaskReuseError)
  | integrity (message : String)
  | overflow
  deriving DecidableEq, Repr

section Digests

variable [Hash256]

def TaskReceipt.toRow (r : TaskReceipt) (idempotencyKey : String) : ReceiptRow :=
  ⟨r.receiptId, r.sequence, r.fingerprint.planDigest, r.fingerprint.nodeId, r.fingerprint.digest,
    idempotencyKey, r.encoded, r.digest⟩

/-- `_decode`. -/
def decode (row : ReceiptRow) : Except TaskReuseError TaskReceipt :=
  match strictJsonObject row.payloadJson with
  | .error _ => .error ⟨"task receipt history contains invalid JSON"⟩
  | .ok d =>
    match TaskReceipt.fromDocument d with
    | .error e => .error e
    | .ok receipt =>
      if receipt.receiptId ≠ row.receiptId ∨ receipt.sequence ≠ row.receiptSequence ∨
          receipt.fingerprint.planDigest ≠ row.planDigest ∨
          receipt.fingerprint.nodeId ≠ row.nodeId ∨
          receipt.fingerprint.digest ≠ row.fingerprintDigest ∨
          receipt.digest ≠ row.receiptDigest then
        .error ⟨"task receipt index disagrees with payload"⟩
      else if row.payloadJson ≠ receipt.encoded then
        .error ⟨"task receipt payload is not canonical"⟩
      else .ok receipt

/-! ## Verification -/

/-- What `verify` keeps about a history: the digest of its last receipt, the next sequence number,
its fingerprint and its state. -/
structure Seen where
  digest : String
  sequence : Int
  fingerprint : String
  state : TaskState

def TaskReceipt.seen (r : TaskReceipt) : Seen :=
  ⟨r.digest, r.sequence + 1, r.fingerprint.digest, r.state⟩

/-- One receipt of a history, against the receipts before it. -/
def checkReceipt (seen : Option Seen) (receipt : TaskReceipt) :
    Except TaskReuseError (Option Seen) := do
  if receipt.sequence ≠ (seen.map (·.sequence)).getD 1 then
    throw ⟨"task receipt sequence is discontinuous"⟩
  if receipt.previousReceiptDigest ≠ seen.map (·.digest) then
    throw ⟨"task receipt chain is broken"⟩
  if (seen.map (·.fingerprint)).getD receipt.fingerprint.digest ≠ receipt.fingerprint.digest then
    throw ⟨"task receipt history changed its fingerprint"⟩
  if seen.any fun prior ↦ !prior.state.validSuccessor receipt.state then
    throw ⟨"task receipt history contains a state regression"⟩
  return some receipt.seen

def checkRow (seen : Option Seen) (row : ReceiptRow) : Except TaskReuseError (Option Seen) := do
  checkReceipt seen (← decode row)

/-- `verify`. The history of a receipt is the one of its row, which `_decode` has made sure of. -/
def verify (table : List ReceiptRow) : Except TaskReuseError Unit := do
  let _ ← table.foldlM (Trace.atKey (·.receiptId) checkRow) fun _ ↦ none

/-! ## Appending -/

/-- `SELECT … WHERE receipt_id=? ORDER BY receipt_sequence DESC LIMIT 1`. -/
def lastRow (receiptId : String) (table : List ReceiptRow) : Option ReceiptRow :=
  (Rows.orderBy (·.receiptSequence) (table.filter (·.receiptId = receiptId))).getLast?

/-- The checks against the last row of the history. -/
def checkSuccessor (receipt : TaskReceipt) (last : ReceiptRow) : Except TaskReuseError Unit := do
  let prior ← decode last
  if receipt.fingerprint ≠ prior.fingerprint then
    throw ⟨"task receipt fingerprint is immutable"⟩
  if prior.state.validSuccessor receipt.state = false then
    throw ⟨"task receipt state cannot regress"⟩
  return

/-- The `INSERT` of `append`. -/
def insertReceipt (receipt : TaskReceipt) (idempotencyKey : String) (table : List ReceiptRow) :
    Except IndexError (List ReceiptRow) := do
  if (2 : Int) ^ 63 ≤ receipt.sequence then
    throw .overflow
  if table.any fun row ↦ row.receiptDigest == receipt.digest then
    throw (.integrity "UNIQUE constraint failed: task_receipts.receipt_digest")
  if table.any fun row ↦
      row.receiptId == receipt.receiptId && row.receiptSequence == receipt.sequence then
    throw (.integrity
      "UNIQUE constraint failed: task_receipts.receipt_id, task_receipts.receipt_sequence")
  return table ++ [receipt.toRow idempotencyKey]

/-- `append`: the receipt, and the table as it is then. -/
def append (receipt : TaskReceipt) (idempotencyKey : String) (table : List ReceiptRow) :
    Except IndexError (TaskReceipt × List ReceiptRow) := do
  if isRequired idempotencyKey = false then
    throw (.valueError "idempotency_key is required")
  match table.find? (·.idempotencyKey == idempotencyKey) with
  | some retry =>
    if retry.payloadJson ≠ receipt.encoded then
      throw (.taskReuse ⟨"idempotency key is bound to another task receipt"⟩)
    return (← (decode retry).mapError .taskReuse, table)
  | none =>
    let last := lastRow receipt.receiptId table
    if receipt.sequence ≠ (last.map (·.receiptSequence + 1)).getD 1 then
      throw (.taskReuse ⟨"task receipt compare-and-swap sequence failed"⟩)
    if receipt.previousReceiptDigest ≠ last.map (·.receiptDigest) then
      throw (.taskReuse ⟨"task receipt does not extend the exact prior receipt"⟩)
    match last with
    | some last => (checkSuccessor receipt last).mapError .taskReuse
    | none => pure ()
    return (receipt, ← insertReceipt receipt idempotencyKey table)

/-- What a call leaves behind, whether it returns or raises. -/
def appendOrKeep (table : List ReceiptRow) (call : TaskReceipt × String) : List ReceiptRow :=
  match append call.1 call.2 table with
  | .ok (_, table') => table'
  | .error _ => table

/-! ## Decisions -/

/-- `ReuseDisposition`. -/
inductive Disposition where
  | exactReuse
  | verifyExisting
  | resumeActive
  | repairExisting
  | executeNew
  | stale
  | conflict
  | blocked
  deriving DecidableEq, Repr

/-- `ReuseDecision`. -/
structure ReuseDecision where
  disposition : Disposition
  fingerprintDigest : String
  reason : String
  receipt : Option TaskReceipt

/-- The number of different identities. -/
def identities (candidates : List CandidateIdentity) : Nat :=
  (candidates.map fun candidate ↦ jsonDigest candidate.toJson).dedup.length

def inStates (states : List TaskState) (receipts : List TaskReceipt) : List TaskReceipt :=
  receipts.filter fun r ↦ states.contains r.state

/-- The part of `classify_reuse` about the receipts with the fingerprint. -/
def classifyExact (fingerprint : TaskFingerprint) (exact : List TaskReceipt) :
    Option ReuseDecision :=
  let blocked := inStates [.blocked] exact
  let integrated := inStates [.integrated] exact
  let active := inStates [.active] exact
  let verifiable := inStates [.candidateSealed, .verified] exact
  let repairable := inStates [.checkpointed, .failed, .cancelled] exact
  if blocked ≠ [] then
    some ⟨.blocked, fingerprint.digest, "exact task retains an unresolved evidence-bound blocker",
      blocked.getLast?⟩
  else if integrated ≠ [] ∧ active ≠ [] then
    some ⟨.conflict, fingerprint.digest,
      "an active attempt competes with an exact integrated receipt", none⟩
  else if 1 < identities (integrated.filterMap (·.integratedTarget)) ∨
      1 < identities (integrated.filterMap (·.candidate)) then
    some ⟨.conflict, fingerprint.digest,
      "exact fingerprint has conflicting integrated identities", none⟩
  else
    match integrated.getLast? with
    | some receipt =>
      if receipt.candidate = none ∨ receipt.integratedTarget = none ∨
          receipt.validationReceiptDigest = none then
        some ⟨.blocked, fingerprint.digest, "integrated receipt lacks exact validation evidence",
          none⟩
      else
        some ⟨.exactReuse, fingerprint.digest,
          "validated integrated receipt exactly matches every fingerprint input", receipt⟩
    | none =>
      if 1 < active.length then
        some ⟨.conflict, fingerprint.digest, "multiple active attempts claim the exact task", none⟩
      else if active ≠ [] then
        some ⟨.resumeActive, fingerprint.digest, "one exact active attempt is adoptable",
          active.getLast?⟩
      else if verifiable ≠ [] then
        if identities (verifiable.filterMap (·.candidate)) ≠ 1 then
          some ⟨.conflict, fingerprint.digest, "exact task has competing sealed candidates", none⟩
        else
          some ⟨.verifyExisting, fingerprint.digest,
            "an exact sealed candidate exists but is not integrated", verifiable.getLast?⟩
      else if repairable ≠ [] then
        some ⟨.repairExisting, fingerprint.digest, "exact prior work is incomplete or failed",
          repairable.getLast?⟩
      else none

/-- `classify_reuse`. -/
def classifyReuse (fingerprint : TaskFingerprint) (records : List TaskReceipt) : ReuseDecision :=
  let exact := records.filter (·.fingerprint = fingerprint)
  let stale := records.filter (·.fingerprint ≠ fingerprint)
  match classifyExact fingerprint exact with
  | some decision => decision
  | none =>
    if stale ≠ [] then
      ⟨.stale, fingerprint.digest, "existing work differs in content, dependency, authority, " ++
        "policy, environment, contract, or subject identity", stale.getLast?⟩
    else ⟨.executeNew, fingerprint.digest, "no prior work exists for this exact task", none⟩

/-- The latest receipt of each history, the histories in the order of their first receipts. -/
def latest (receipts : List TaskReceipt) : List TaskReceipt :=
  (Dicts.assignAll (·.receiptId) receipts).map Prod.snd

/-- `receipts_for`. -/
def receiptsFor (planDigest nodeId : String) (table : List ReceiptRow) :
    Except IndexError (List TaskReceipt) := do
  if isDigest planDigest = false then
    throw (.valueError "plan_digest must be a lowercase sha256 digest")
  if isRequired nodeId = false then
    throw (.valueError "node_id is required")
  (verify table).mapError .taskReuse
  let rows := table.filter fun row ↦ row.planDigest == planDigest && row.nodeId == nodeId
  return latest (← (rows.mapM decode).mapError .taskReuse)

/-- `decide`. -/
def decide (fingerprint : TaskFingerprint) (table : List ReceiptRow) :
    Except IndexError ReuseDecision :=
  match receiptsFor fingerprint.planDigest fingerprint.nodeId table with
  | .ok records => .ok (classifyReuse fingerprint records)
  | .error (.taskReuse _) =>
    .ok ⟨.blocked, fingerprint.digest, "task reuse evidence is corrupt: TaskReuseError", none⟩
  | .error e => .error e

/-! ## Rows read back -/

variable {receipt : TaskReceipt} {receipts : List TaskReceipt} {table : List ReceiptRow}
  {entries : List (TaskReceipt × String)} {seen seen' : Option Seen} {f : TaskFingerprint}

/-- The payload is one that the decoder takes. -/
def TaskReceipt.Fits (r : TaskReceipt) : Prop := r.encoded.utf8ByteSize ≤ maximumJsonBytes

instance (r : TaskReceipt) : Decidable r.Fits := inferInstanceAs (Decidable (_ ≤ _))

theorem decode_toRow (r : TaskReceipt) (key : String) :
    decode (r.toRow key) =
      if r.Fits then .ok r else .error ⟨"task receipt history contains invalid JSON"⟩ := by
  have hread : strictJsonObject (r.toRow key).payloadJson =
      if r.Fits then .ok r.toDict else .error ⟨"JSON input is empty or exceeds the byte limit"⟩ :=
    strictJsonObject_dumps r.sorted_toJson r.jsonDepth_toJson_le
  by_cases hfits : r.Fits
  · rw [if_pos hfits] at hread ⊢
    simp only [decode, hread, TaskReceipt.fromDocument_toDict]
    simp [TaskReceipt.toRow]
  · rw [if_neg hfits] at hread ⊢
    simp only [decode, hread]

/-- The rows of receipts that were appended with the given keys. -/
def rowsOf (entries : List (TaskReceipt × String)) : List ReceiptRow :=
  entries.map fun entry ↦ entry.1.toRow entry.2

theorem filter_rowsOf (entries : List (TaskReceipt × String)) (id : String) :
    (rowsOf entries).filter (·.receiptId = id) =
      rowsOf (entries.filter (·.1.receiptId = id)) := by
  rw [rowsOf, List.filter_map]
  rfl

/-! ## Histories -/

theorem checkReceipt_eq_ok :
    checkReceipt seen receipt = .ok seen' ↔
      receipt.sequence = (seen.map (·.sequence)).getD 1 ∧
      receipt.previousReceiptDigest = seen.map (·.digest) ∧
      (∀ prior ∈ seen, prior.fingerprint = receipt.fingerprint.digest) ∧
      (∀ prior ∈ seen, prior.state.validSuccessor receipt.state = true) ∧
      seen' = some receipt.seen := by
  rw [checkReceipt]
  simp only [guard_eq_ok, pure_eq_ok, not_not]
  cases seen <;> simp

/-- What has been seen of the receipts of a history. -/
structure SeenOf (receipts : List TaskReceipt) (seen : Option Seen) : Prop where
  last : seen = receipts.getLast?.map (·.seen)
  bounded : ∀ r ∈ receipts, ∃ s ∈ seen, r.sequence < s.sequence
  increasing : receipts.Pairwise fun r r' ↦ r.sequence < r'.sequence
  terminal : ∀ r ∈ receipts, r.state.isTerminal = true → ∃ s ∈ seen, s.state = r.state

theorem seenOf_foldlM (h : receipts.foldlM checkReceipt none = .ok seen) :
    SeenOf receipts seen := by
  refine Trace.history_invariant SeenOf ?_ ?_ h
  · exact ⟨rfl, fun _ h ↦ absurd h List.not_mem_nil, .nil, fun _ h ↦ absurd h List.not_mem_nil⟩
  · intro rs seen r seen' hseen hcheck
    obtain ⟨hsequence, -, -, hstate, rfl⟩ := checkReceipt_eq_ok.mp hcheck
    have hbounded : ∀ r' ∈ rs, r'.sequence < r.sequence := by
      intro r' hr'
      obtain ⟨s, hs, hlt⟩ := hseen.bounded r' hr'
      rw [Option.mem_def.mp hs] at hsequence
      rwa [hsequence]
    refine ⟨?_, ?_, ?_, ?_⟩
    · rw [List.getLast?_append_cons, List.getLast?_singleton, Option.map_some]
    · intro r' hr'
      refine ⟨_, rfl, ?_⟩
      have hself : r.sequence < r.seen.sequence := Int.lt_add_one_of_le le_rfl
      rcases List.mem_append.mp hr' with hr' | hr'
      · exact (hbounded r' hr').trans hself
      · rw [List.mem_singleton.mp hr']
        exact hself
    · rw [List.pairwise_append]
      refine ⟨hseen.increasing, List.pairwise_singleton _ _, fun old hold new hnew ↦ ?_⟩
      rw [List.mem_singleton.mp hnew]
      exact hbounded old hold
    · intro r' hr' hterminal
      refine ⟨_, rfl, ?_⟩
      rcases List.mem_append.mp hr' with hr' | hr'
      · obtain ⟨s, hs, heq⟩ := hseen.terminal r' hr' hterminal
        have hsame := hstate s hs
        rw [TaskState.validSuccessor, heq, if_pos hterminal] at hsame
        exact beq_iff_eq.mp hsame
      · rw [List.mem_singleton.mp hr']
        rfl

/-- Every history of the receipts passes the checks of `verify`. -/
def Chained (receipts : List TaskReceipt) : Prop :=
  ∀ id, ∃ seen, (receipts.filter (·.receiptId = id)).foldlM checkReceipt none = .ok seen

omit [Hash256] in
theorem map_fst_filter (entries : List (TaskReceipt × String)) (id : String) :
    (entries.filter (·.1.receiptId = id)).map Prod.fst =
      (entries.map Prod.fst).filter (·.receiptId = id) := by
  rw [List.filter_map]
  rfl

/-- The last row of a history is the row of its last receipt. -/
theorem lastRow_rowsOf (hchained : Chained (entries.map Prod.fst)) (id : String) :
    lastRow id (rowsOf entries) =
      (entries.filter (·.1.receiptId = id)).getLast?.map fun entry ↦ entry.1.toRow entry.2 := by
  obtain ⟨seen, hseen⟩ := hchained id
  have hincreasing := (seenOf_foldlM hseen).increasing
  rw [← map_fst_filter, List.pairwise_map] at hincreasing
  have horder : Rows.orderBy (·.receiptSequence) (rowsOf (entries.filter (·.1.receiptId = id))) =
      rowsOf (entries.filter (·.1.receiptId = id)) :=
    Rows.orderBy_eq_of_perm (List.Perm.refl _) (List.pairwise_map.mpr hincreasing)
  rw [lastRow, filter_rowsOf, horder, rowsOf, List.getLast?_map]

theorem Chained.concat (hchained : Chained receipts)
    (hcheck : ∃ seen, checkReceipt ((receipts.filter
      (·.receiptId = receipt.receiptId)).getLast?.map (·.seen)) receipt = .ok seen) :
    Chained (receipts ++ [receipt]) := by
  intro id
  obtain ⟨seen, hseen⟩ := hchained id
  rw [List.filter_append]
  by_cases hid : receipt.receiptId = id
  · subst hid
    rw [List.filter_cons_of_pos (by simp), List.filter_nil]
    obtain ⟨seen', hseen'⟩ := hcheck
    rw [← (seenOf_foldlM hseen).last] at hseen'
    exact ⟨seen', Trace.foldlM_concat_eq_ok.mpr ⟨seen, hseen, hseen'⟩⟩
  · rw [List.filter_cons_of_neg (by simpa using hid), List.filter_nil, List.append_nil]
    exact ⟨seen, hseen⟩

/-! ## Runs of appends -/

theorem insertReceipt_eq_ok {key : String} {table' : List ReceiptRow}
    (h : insertReceipt receipt key table = .ok table') : table' = table ++ [receipt.toRow key] := by
  simp only [insertReceipt, guard_eq_ok, pure_eq_ok] at h
  exact h.2.2.2

theorem checkSuccessor_eq_ok {last : ReceiptRow} {u : Unit} :
    checkSuccessor receipt last = .ok u ↔
      ∃ prior, decode last = .ok prior ∧ receipt.fingerprint = prior.fingerprint ∧
        prior.state.validSuccessor receipt.state = true := by
  simp only [checkSuccessor, bind_eq_ok, guard_eq_ok, pure_eq_ok, not_not, Bool.not_eq_false,
    and_true]

/-- An append changes nothing or adds a row that follows the last one of its history. -/
theorem of_append {key : String} {result : TaskReceipt} {table' : List ReceiptRow}
    (h : append receipt key table = .ok (result, table')) :
    table' = table ∨
      receipt.sequence = ((lastRow receipt.receiptId table).map (·.receiptSequence + 1)).getD 1 ∧
      receipt.previousReceiptDigest = (lastRow receipt.receiptId table).map (·.receiptDigest) ∧
      (∀ last ∈ lastRow receipt.receiptId table, checkSuccessor receipt last = .ok ()) ∧
      table' = table ++ [receipt.toRow key] := by
  simp only [append, guard_eq_ok] at h
  obtain ⟨-, h⟩ := h
  cases hretry : table.find? (·.idempotencyKey == key) with
  | some retry =>
    simp only [hretry, guard_eq_ok, bind_eq_ok, pure_eq_ok, Prod.mk.injEq] at h
    obtain ⟨-, _, -, -, rfl⟩ := h
    exact .inl rfl
  | none =>
    simp only [hretry, guard_eq_ok, not_not] at h
    obtain ⟨hsequence, hprevious, h⟩ := h
    refine .inr ⟨hsequence, hprevious, ?_⟩
    cases hlast : lastRow receipt.receiptId table with
    | none =>
      simp only [hlast, bind_eq_ok, pure_eq_ok, Prod.mk.injEq] at h
      obtain ⟨_, hinsert, -, rfl⟩ := h
      exact ⟨nofun, insertReceipt_eq_ok hinsert⟩
    | some last =>
      simp only [hlast, bind_eq_ok, mapError_eq_ok, pure_eq_ok, Prod.mk.injEq] at h
      obtain ⟨_, hcheck, _, hinsert, -, rfl⟩ := h
      refine ⟨?_, insertReceipt_eq_ok hinsert⟩
      rintro last' ⟨⟩
      exact hcheck

/-- A row that follows the last one of its history follows the last receipt of it. -/
theorem Chained.append {key : String} (hchained : Chained (entries.map Prod.fst))
    (hsequence : receipt.sequence =
      ((lastRow receipt.receiptId (rowsOf entries)).map (·.receiptSequence + 1)).getD 1)
    (hprevious : receipt.previousReceiptDigest =
      (lastRow receipt.receiptId (rowsOf entries)).map (·.receiptDigest))
    (hsuccessor : ∀ last ∈ lastRow receipt.receiptId (rowsOf entries),
      checkSuccessor receipt last = .ok ()) :
    Chained ((entries ++ [(receipt, key)]).map Prod.fst) := by
  rw [lastRow_rowsOf hchained] at hsequence hprevious hsuccessor
  rw [List.map_append, List.map_singleton]
  refine hchained.concat ?_
  rw [← map_fst_filter, List.getLast?_map, Option.map_map]
  refine ⟨_, checkReceipt_eq_ok.mpr ⟨?_, ?_, ?_, ?_, rfl⟩⟩
  · rw [Option.map_map]
    rw [Option.map_map] at hsequence
    exact hsequence
  · rw [Option.map_map]
    rw [Option.map_map] at hprevious
    exact hprevious
  all_goals
    intro prior hprior
    obtain ⟨entry, hentry, rfl⟩ := Option.map_eq_some_iff.mp hprior
    have hlast := hsuccessor _ (Option.map_eq_some_iff.mpr ⟨entry, hentry, rfl⟩)
    obtain ⟨decoded, hdecoded, hfingerprint, hstate⟩ := checkSuccessor_eq_ok.mp hlast
    rw [decode_toRow] at hdecoded
    split at hdecoded
    · obtain rfl := Except.ok.inj hdecoded
      first
      | exact congrArg TaskFingerprint.digest hfingerprint.symm
      | exact hstate
    · exact nomatch hdecoded

/-- A history is about one fingerprint. -/
def Uniform (receipts : List TaskReceipt) : Prop :=
  ∀ r ∈ receipts, ∀ r' ∈ receipts, r.receiptId = r'.receiptId → r.fingerprint = r'.fingerprint

theorem Uniform.append {key : String} (huniform : Uniform (entries.map Prod.fst))
    (hchained : Chained (entries.map Prod.fst))
    (hsuccessor : ∀ last ∈ lastRow receipt.receiptId (rowsOf entries),
      checkSuccessor receipt last = .ok ()) :
    Uniform ((entries ++ [(receipt, key)]).map Prod.fst) := by
  rw [lastRow_rowsOf hchained] at hsuccessor
  rw [List.map_append, List.map_singleton]
  have hold : ∀ r ∈ entries.map Prod.fst, r.receiptId = receipt.receiptId →
      r.fingerprint = receipt.fingerprint := by
    intro r hr hid
    obtain ⟨entry, hentry, rfl⟩ := List.mem_map.mp hr
    have hmem : entry ∈ entries.filter (·.1.receiptId = receipt.receiptId) :=
      List.mem_filter.mpr ⟨hentry, by simpa using hid⟩
    -- the last receipt of the history has the fingerprint, and so do the ones before it
    have hlast := List.getLast?_eq_some_getLast (List.ne_nil_of_mem hmem)
    set last := (entries.filter (·.1.receiptId = receipt.receiptId)).getLast
      (List.ne_nil_of_mem hmem)
    have hlastMem := List.mem_filter.mp (List.mem_of_getLast? hlast)
    obtain ⟨decoded, hdecoded, hfingerprint, -⟩ := checkSuccessor_eq_ok.mp
      (hsuccessor _ (Option.map_eq_some_iff.mpr ⟨last, hlast, rfl⟩))
    rw [decode_toRow] at hdecoded
    split at hdecoded
    · obtain rfl := Except.ok.inj hdecoded
      rw [hfingerprint]
      exact huniform _ hr _ (List.mem_map_of_mem hlastMem.1)
        (hid.trans (of_decide_eq_true hlastMem.2).symm)
    · exact nomatch hdecoded
  intro r hr r' hr' hid
  rcases List.mem_append.mp hr with h | h <;> rcases List.mem_append.mp hr' with h' | h'
  · exact huniform r h r' h' hid
  · obtain rfl := List.mem_singleton.mp h'
    exact hold r h hid
  · obtain rfl := List.mem_singleton.mp h
    exact (hold r' h' hid.symm).symm
  · rw [List.mem_singleton.mp h, List.mem_singleton.mp h']

/-- Every run of appends leaves the rows of receipts whose histories are chains. -/
theorem exists_entries (calls : List (TaskReceipt × String)) :
    ∃ entries, calls.foldl appendOrKeep [] = rowsOf entries ∧
      Chained (entries.map Prod.fst) ∧ Uniform (entries.map Prod.fst) := by
  induction calls using List.reverseRecOn with
  | nil => exact ⟨[], rfl, fun _ ↦ ⟨none, rfl⟩, fun _ h ↦ absurd h List.not_mem_nil⟩
  | append_singleton calls call ih =>
    obtain ⟨entries, hrows, hchained, huniform⟩ := ih
    rw [List.foldl_append, List.foldl_cons, List.foldl_nil, hrows, appendOrKeep]
    split
    · next result table' happend =>
      rcases of_append happend with rfl | ⟨hsequence, hprevious, hsuccessor, rfl⟩
      · exact ⟨entries, rfl, hchained, huniform⟩
      · refine ⟨entries ++ [call], ?_, hchained.append hsequence hprevious hsuccessor,
          huniform.append hchained hsuccessor⟩
        rw [rowsOf, rowsOf, List.map_append, List.map_singleton]
    · exact ⟨entries, rfl, hchained, huniform⟩

/-! ## When the table is verified -/

theorem checkRow_eq_ok {row : ReceiptRow} :
    checkRow seen row = .ok seen' ↔
      ∃ r, decode row = .ok r ∧ checkReceipt seen r = .ok seen' := bind_eq_ok

theorem verify_eq_ok {u : Unit} :
    verify table = .ok u ↔
      ∀ id, ∃ seen, (table.filter (·.receiptId = id)).foldlM checkRow none = .ok seen := by
  simp only [verify, bind_eq_ok, pure_eq_ok, Trace.foldlM_atKey_eq_ok, and_true]
  constructor
  · rintro ⟨m, hm⟩ id
    exact ⟨m id, hm id⟩
  · intro h
    choose m hm using h
    exact ⟨m, hm⟩

/-- The rows of receipts that fit are checked as the receipts are. -/
theorem foldlM_checkRow_rowsOf (hfits : ∀ entry ∈ entries, entry.1.Fits) (seen : Option Seen) :
    (rowsOf entries).foldlM checkRow seen =
      (entries.map Prod.fst).foldlM checkReceipt seen := by
  induction entries generalizing seen with
  | nil => rfl
  | cons entry entries ih =>
    obtain ⟨hentry, hentries⟩ := List.forall_mem_cons.mp hfits
    have hrow : checkRow seen (entry.1.toRow entry.2) = checkReceipt seen entry.1 := by
      rw [checkRow, decode_toRow, if_pos hentry]
      rfl
    rw [rowsOf, List.map_cons, List.map_cons, List.foldlM_cons, List.foldlM_cons, hrow]
    exact congrArg (checkReceipt seen entry.1 >>= ·) (funext (ih hentries))

/-- Rows that pass are decoded. -/
theorem decode_of_foldlM {rows : List ReceiptRow} (h : rows.foldlM checkRow none = .ok seen) :
    ∀ row ∈ rows, ∃ r, decode row = .ok r := by
  refine Trace.history_invariant (fun rows _ ↦ ∀ row ∈ rows, ∃ r, decode row = .ok r)
    (fun _ h ↦ absurd h List.not_mem_nil) ?_ h
  intro rows seen row seen' hrows hrow row' hrow'
  rcases List.mem_append.mp hrow' with hrow' | hrow'
  · exact hrows row' hrow'
  · obtain ⟨r, hr, -⟩ := checkRow_eq_ok.mp hrow
    rw [List.mem_singleton.mp hrow']
    exact ⟨r, hr⟩

theorem verify_rowsOf_iff (hchained : Chained (entries.map Prod.fst)) :
    verify (rowsOf entries) = .ok () ↔ ∀ entry ∈ entries, entry.1.Fits := by
  rw [verify_eq_ok]
  simp only [filter_rowsOf]
  constructor
  · intro h entry hentry
    obtain ⟨seen, hseen⟩ := h entry.1.receiptId
    have hmem : entry.1.toRow entry.2 ∈
        rowsOf (entries.filter (·.1.receiptId = entry.1.receiptId)) :=
      List.mem_map_of_mem (List.mem_filter.mpr ⟨hentry, by simp⟩)
    obtain ⟨r, hr⟩ := decode_of_foldlM hseen _ hmem
    rw [decode_toRow] at hr
    split at hr
    · assumption
    · exact nomatch hr
  · intro h id
    obtain ⟨seen, hseen⟩ := hchained id
    refine ⟨seen, ?_⟩
    rw [foldlM_checkRow_rowsOf fun entry hentry ↦ h entry (List.mem_of_mem_filter hentry),
      map_fst_filter]
    exact hseen

/-! ## Latest receipts -/

omit [Hash256] in
theorem mem_latest :
    receipt ∈ latest receipts ↔
      (receipts.filter (·.receiptId = receipt.receiptId)).getLast? = some receipt := by
  rw [latest, List.mem_map]
  constructor
  · rintro ⟨⟨id, r⟩, hmem, rfl⟩
    have hlast := Dicts.mem_assignAll.mp hmem
    have hid := List.of_mem_filter (List.mem_of_getLast? hlast)
    rw [decide_eq_true_iff] at hid
    rw [hid]
    exact hlast
  · intro hlast
    exact ⟨(receipt.receiptId, receipt), Dicts.mem_assignAll.mpr hlast, rfl⟩

omit [Hash256] in
theorem latest_perm {receipts' : List TaskReceipt}
    (h : ∀ id, receipts.filter (·.receiptId = id) = receipts'.filter (·.receiptId = id)) :
    (latest receipts).Perm (latest receipts') := (Dicts.assignAll_perm h).map Prod.snd

/-! ## Dispositions -/

/-- All candidates have the same digest. -/
theorem identities_le_one {candidates : List CandidateIdentity} (h : ¬1 < identities candidates) :
    ∀ c ∈ candidates, ∀ c' ∈ candidates, jsonDigest c.toJson = jsonDigest c'.toJson := by
  intro c hc c' hc'
  have hmem : ∀ c ∈ candidates, jsonDigest c.toJson ∈
      (candidates.map fun candidate ↦ jsonDigest candidate.toJson).dedup := fun c hc ↦
    List.mem_dedup.mpr (List.mem_map_of_mem hc)
  obtain ⟨x, hx⟩ : ∃ x, (candidates.map fun candidate ↦ jsonDigest candidate.toJson).dedup = [x] := by
    refine List.length_eq_one_iff.mp (le_antisymm (not_lt.mp h) ?_)
    exact List.length_pos_of_mem (hmem c hc)
  have hone := fun c hc ↦ List.mem_singleton.mp (hx ▸ hmem c hc)
  rw [hone c hc, hone c' hc']

theorem identities_perm {candidates candidates' : List CandidateIdentity}
    (h : candidates.Perm candidates') : identities candidates = identities candidates' :=
  (h.map _).dedup.length_eq

omit [Hash256] in
theorem mem_inStates {states : List TaskState} :
    receipt ∈ inStates states receipts ↔ receipt ∈ receipts ∧ receipt.state ∈ states := by
  rw [inStates, List.mem_filter, List.contains_iff_mem]

omit [Hash256] in
theorem inStates_eq_nil {states : List TaskState} :
    inStates states receipts = [] ↔ ∀ r ∈ receipts, r.state ∉ states := by
  simp only [inStates, List.filter_eq_nil_iff, List.contains_iff_mem]

omit [Hash256] in
/-- An integrated receipt has all its evidence. -/
theorem TaskReceipt.evidence (r : TaskReceipt) (hstate : r.state = .integrated) :
    ¬(r.candidate = none ∨ r.integratedTarget = none ∨ r.validationReceiptDigest = none) := by
  have hvalid := r.valid
  simp only [ReceiptFields.isValid, hstate, Bool.and_eq_true, Option.isSome_iff_ne_none] at hvalid
  obtain ⟨⟨⟨-, ⟨hcandidate, hvalidation⟩, htarget⟩, -⟩, -⟩ := hvalid
  rintro (h | h | h)
  · exact hcandidate h
  · exact htarget h
  · exact hvalidation h

/-- The dispositions of `classifyExact`, which depend on how many receipts there are in a state and
on how many identities they name. -/
def exactDisposition (exact : List TaskReceipt) : Option Disposition :=
  if inStates [.blocked] exact ≠ [] then some .blocked
  else if inStates [.integrated] exact ≠ [] ∧ inStates [.active] exact ≠ [] then some .conflict
  else if 1 < identities ((inStates [.integrated] exact).filterMap (·.integratedTarget)) ∨
      1 < identities ((inStates [.integrated] exact).filterMap (·.candidate)) then some .conflict
  else if inStates [.integrated] exact ≠ [] then some .exactReuse
  else if 1 < (inStates [.active] exact).length then some .conflict
  else if inStates [.active] exact ≠ [] then some .resumeActive
  else if inStates [.candidateSealed, .verified] exact ≠ [] then
    if identities ((inStates [.candidateSealed, .verified] exact).filterMap (·.candidate)) ≠ 1 then
      some .conflict
    else some .verifyExisting
  else if inStates [.checkpointed, .failed, .cancelled] exact ≠ [] then some .repairExisting
  else none

theorem map_disposition_classifyExact (f : TaskFingerprint) (exact : List TaskReceipt) :
    (classifyExact f exact).map (·.disposition) = exactDisposition exact := by
  simp only [classifyExact, exactDisposition]
  cases hlast : (inStates [.integrated] exact).getLast? with
  | none =>
    have hnil : inStates [.integrated] exact = [] := List.getLast?_eq_none_iff.mp hlast
    rw [if_neg (not_not.mpr hnil)]
    split_ifs <;> rfl
  | some r =>
    have hmem := mem_inStates.mp (List.mem_of_getLast? hlast)
    have hevidence := r.evidence (List.mem_singleton.mp hmem.2)
    have hne : inStates [.integrated] exact ≠ [] := by
      intro hnil
      rw [hnil] at hlast
      exact nomatch hlast
    simp only [if_neg hevidence, if_pos hne]
    split_ifs <;> rfl

/-- What an exact reuse says about the receipts with the fingerprint. -/
theorem of_exactDisposition {exact : List TaskReceipt}
    (h : exactDisposition exact = some .exactReuse) :
    inStates [.integrated] exact ≠ [] ∧ inStates [.blocked] exact = [] ∧
      inStates [.active] exact = [] ∧
      ¬1 < identities ((inStates [.integrated] exact).filterMap (·.integratedTarget)) ∧
      ¬1 < identities ((inStates [.integrated] exact).filterMap (·.candidate)) := by
  rw [exactDisposition] at h
  split_ifs at h with hblocked hcompeting hconflict hintegrated
  all_goals first | (cases h; done) | skip
  rw [not_or] at hconflict
  exact ⟨hintegrated, not_not.mp hblocked, by simpa [hintegrated] using hcompeting, hconflict⟩

/-- The disposition of receipts with the fingerprint does not depend on their order. -/
theorem exactDisposition_perm {exact exact' : List TaskReceipt} (h : exact.Perm exact') :
    exactDisposition exact = exactDisposition exact' := by
  have hperm : ∀ states, (inStates states exact).Perm (inStates states exact') := fun states ↦
    h.filter _
  have hnil : ∀ states, inStates states exact = [] ↔ inStates states exact' = [] := fun states ↦ by
    rw [← List.length_eq_zero_iff, (hperm states).length_eq, List.length_eq_zero_iff]
  simp only [exactDisposition, ne_eq, hnil, (hperm _).length_eq,
    identities_perm ((hperm _).filterMap _)]

theorem disposition_classifyReuse (f : TaskFingerprint) (records : List TaskReceipt) :
    (classifyReuse f records).disposition =
      (exactDisposition (records.filter (·.fingerprint = f))).getD
        (if records.filter (·.fingerprint ≠ f) ≠ [] then .stale else .executeNew) := by
  rw [← map_disposition_classifyExact f, classifyReuse]
  cases classifyExact f (records.filter (·.fingerprint = f)) with
  | some decision => rfl
  | none =>
    simp only [Option.map_none, Option.getD_none]
    split_ifs <;> rfl

theorem classifyReuse_perm {records records' : List TaskReceipt} (h : records.Perm records') :
    (classifyReuse f records).disposition = (classifyReuse f records').disposition := by
  have hstale : records.filter (·.fingerprint ≠ f) = [] ↔
      records'.filter (·.fingerprint ≠ f) = [] := by
    rw [← List.length_eq_zero_iff, (h.filter _).length_eq, List.length_eq_zero_iff]
  rw [disposition_classifyReuse, disposition_classifyReuse, exactDisposition_perm (h.filter _)]
  simp only [ne_eq, hstale]

/-! ## What is decided -/

/-- The receipts of a node. -/
def ofNode (f : TaskFingerprint) (r : TaskReceipt) : Bool :=
  r.fingerprint.planDigest == f.planDigest && r.fingerprint.nodeId == f.nodeId

omit [Hash256] in
theorem fingerprint_checks (f : TaskFingerprint) :
    isDigest f.planDigest = true ∧ isRequired f.nodeId = true := by
  have hvalid := f.valid
  simp only [FingerprintFields.isValid, Bool.and_eq_true, List.all_cons] at hvalid
  exact ⟨hvalid.1.1.2.1, hvalid.1.1.1.1⟩

theorem mapM_decode_rowsOf (hfits : ∀ entry ∈ entries, entry.1.Fits) :
    (rowsOf entries).mapM decode = .ok (entries.map Prod.fst) := by
  rw [mapM_eq_ok, rowsOf, List.forall₂_map_left_iff, List.forall₂_map_right_iff,
    List.forall₂_same]
  intro entry hentry
  rw [decode_toRow, if_pos (hfits entry hentry)]

theorem receiptsFor_rowsOf (hchained : Chained (entries.map Prod.fst)) (f : TaskFingerprint)
    (hfits : ∀ entry ∈ entries, entry.1.Fits) :
    receiptsFor f.planDigest f.nodeId (rowsOf entries) =
      .ok (latest ((entries.map Prod.fst).filter (ofNode f))) := by
  obtain ⟨hplan, hnode⟩ := fingerprint_checks f
  have hrows : (rowsOf entries).filter (fun row ↦ row.planDigest == f.planDigest &&
      row.nodeId == f.nodeId) = rowsOf (entries.filter fun entry ↦ ofNode f entry.1) := by
    rw [rowsOf, List.filter_map]
    rfl
  have hdecode := mapM_decode_rowsOf fun entry (hentry : entry ∈ entries.filter
    fun entry ↦ ofNode f entry.1) ↦ hfits entry (List.mem_of_mem_filter hentry)
  have hfilter : (entries.filter fun entry ↦ ofNode f entry.1).map Prod.fst =
      (entries.map Prod.fst).filter (ofNode f) := by
    rw [List.filter_map]
    rfl
  simp only [receiptsFor, hplan, hnode, (verify_rowsOf_iff hchained).mpr hfits, hrows, hdecode,
    hfilter, Bool.true_eq_false, if_false]
  rfl

/-- A decision is a classification of the latest receipts of the node, or a refusal. -/
theorem decide_rowsOf (hchained : Chained (entries.map Prod.fst)) (f : TaskFingerprint) :
    decide f (rowsOf entries) =
      if ∀ entry ∈ entries, entry.1.Fits then
        .ok (classifyReuse f (latest ((entries.map Prod.fst).filter (ofNode f))))
      else
        .ok ⟨.blocked, f.digest, "task reuse evidence is corrupt: TaskReuseError", none⟩ := by
  by_cases hfits : ∀ entry ∈ entries, entry.1.Fits
  · rw [if_pos hfits, decide, receiptsFor_rowsOf hchained f hfits]
  · rw [if_neg hfits]
    obtain ⟨hplan, hnode⟩ := fingerprint_checks f
    have hverify : ∃ e, verify (rowsOf entries) = .error e := by
      cases hresult : verify (rowsOf entries) with
      | error e => exact ⟨e, rfl⟩
      | ok u => exact absurd ((verify_rowsOf_iff hchained).mp hresult) hfits
    obtain ⟨e, he⟩ := hverify
    have hreceipts : receiptsFor f.planDigest f.nodeId (rowsOf entries) = .error (.taskReuse e) := by
      simp only [receiptsFor, hplan, hnode, he, Bool.true_eq_false, if_false]
      rfl
    rw [decide, hreceipts]

/-! ## Soundness -/

/-- The receipt in the payload of a row, however long it is. -/
def receiptOf (row : ReceiptRow) : Option TaskReceipt :=
  match Json.loads row.payloadJson with
  | some (.obj ms) => (TaskReceipt.fromDocument (.ofMembers ms)).toOption
  | _ => none

/-- The receipts in a table. -/
def receiptsIn (table : List ReceiptRow) : List TaskReceipt := table.filterMap receiptOf

theorem receiptsIn_rowsOf (entries : List (TaskReceipt × String)) :
    receiptsIn (rowsOf entries) = entries.map Prod.fst := by
  have hrow : ∀ (r : TaskReceipt) (key : String), receiptOf (r.toRow key) = some r := by
    intro r key
    have hread : Json.loads (r.toRow key).payloadJson = some (.obj r.toDict.members) :=
      Json.loads_dumps r.sorted_toJson
    simp only [receiptOf, hread, Json.Dict.ofMembers_members, TaskReceipt.fromDocument_toDict]
    rfl
  rw [receiptsIn, rowsOf, List.filterMap_map]
  have hfst : (receiptOf ∘ fun entry : TaskReceipt × String ↦ entry.1.toRow entry.2) =
      fun entry ↦ some entry.1 := funext fun entry ↦ hrow entry.1 entry.2
  rw [hfst, List.filterMap_eq_map']

omit [Hash256] in
/-- The latest receipts of the histories that a condition on fingerprints selects. -/
theorem mem_latest_filter {p : TaskReceipt → Bool} (huniform : Uniform receipts)
    (hp : ∀ r r', r.fingerprint = r'.fingerprint → p r = p r') :
    receipt ∈ latest (receipts.filter p) ↔ receipt ∈ latest receipts ∧ p receipt = true := by
  have hself : ∀ r ∈ receipts, p r = true →
      (receipts.filter p).filter (·.receiptId = r.receiptId) =
        receipts.filter (·.receiptId = r.receiptId) := by
    intro r hr hpr
    rw [List.filter_filter]
    refine List.filter_congr fun r' hr' ↦ ?_
    by_cases hid : r'.receiptId = r.receiptId
    · simp [hid, hp r' r (huniform r' hr' r hr hid), hpr]
    · simp [hid]
  simp only [mem_latest]
  constructor
  · intro h
    have hmem := List.mem_filter.mp (List.mem_of_mem_filter (List.mem_of_getLast? h))
    rw [hself receipt hmem.1 hmem.2] at h
    exact ⟨h, hmem.2⟩
  · rintro ⟨h, hpr⟩
    rw [hself receipt (List.mem_of_mem_filter (List.mem_of_getLast? h)) hpr]
    exact h

/-- The receipts name the same candidate and the same target. -/
def SameIdentities (r r' : TaskReceipt) : Prop :=
  r.candidate.map (fun c ↦ jsonDigest c.toJson) = r'.candidate.map (fun c ↦ jsonDigest c.toJson) ∧
    r.integratedTarget.map (fun c ↦ jsonDigest c.toJson) =
      r'.integratedTarget.map (fun c ↦ jsonDigest c.toJson)

/-- What an exact reuse is based on, in terms of the receipts that were appended. -/
structure SoundReuse (f : TaskFingerprint) (receipts : List TaskReceipt) : Prop where
  integrated : ∃ r ∈ latest receipts, r.fingerprint = f ∧ r.state = .integrated ∧
    r.candidate ≠ none ∧ r.validationReceiptDigest ≠ none ∧ r.integratedTarget ≠ none
  settled : ∀ r ∈ latest receipts, r.fingerprint = f → r.state ≠ .blocked ∧ r.state ≠ .active
  agreed : ∀ r ∈ latest receipts, ∀ r' ∈ latest receipts, r.fingerprint = f → r'.fingerprint = f →
    r.state = .integrated → r'.state = .integrated → SameIdentities r r'

theorem map_eq_of_mem {candidates : List TaskReceipt} {field : TaskReceipt → Option CandidateIdentity}
    (hids : ¬1 < identities (candidates.filterMap field)) (hfield : ∀ r ∈ candidates, field r ≠ none)
    {r r' : TaskReceipt} (hr : r ∈ candidates) (hr' : r' ∈ candidates) :
    (field r).map (fun c ↦ jsonDigest c.toJson) = (field r').map (fun c ↦ jsonDigest c.toJson) := by
  obtain ⟨c, hc⟩ := Option.ne_none_iff_exists'.mp (hfield r hr)
  obtain ⟨c', hc'⟩ := Option.ne_none_iff_exists'.mp (hfield r' hr')
  have heq := identities_le_one hids c (List.mem_filterMap.mpr ⟨r, hr, hc⟩) c'
    (List.mem_filterMap.mpr ⟨r', hr', hc'⟩)
  rw [hc, hc', Option.map_some, Option.map_some, heq]

theorem soundReuse_of_decide {decision : ReuseDecision} (hchained : Chained (entries.map Prod.fst))
    (huniform : Uniform (entries.map Prod.fst)) (h : decide f (rowsOf entries) = .ok decision)
    (hexact : decision.disposition = .exactReuse) : SoundReuse f (entries.map Prod.fst) := by
  rw [decide_rowsOf hchained] at h
  split at h
  · obtain rfl := Except.ok.inj h
    set exact := (latest ((entries.map Prod.fst).filter (ofNode f))).filter (·.fingerprint = f)
      with hdef
    have hmem : ∀ r, r ∈ exact ↔ r ∈ latest (entries.map Prod.fst) ∧ r.fingerprint = f := by
      intro r
      rw [hdef, List.mem_filter, mem_latest_filter huniform fun r r' heq ↦ by
        rw [ofNode, ofNode, heq], decide_eq_true_iff, and_assoc]
      refine and_congr_right fun _ ↦ and_iff_right_of_imp ?_
      rintro rfl
      simp [ofNode]
    have hdisposition : exactDisposition exact = some .exactReuse := by
      rw [disposition_classifyReuse, ← hdef] at hexact
      cases hcase : exactDisposition exact with
      | some disposition =>
        rw [hcase] at hexact
        exact congrArg some hexact
      | none =>
        rw [hcase, Option.getD_none] at hexact
        split_ifs at hexact
    obtain ⟨hintegrated, hblocked, hactive, htargets, hcandidates⟩ :=
      of_exactDisposition hdisposition
    have hevidence : ∀ r ∈ inStates [.integrated] exact, r.state = .integrated ∧
        r.candidate ≠ none ∧ r.integratedTarget ≠ none ∧ r.validationReceiptDigest ≠ none := by
      intro r hr
      have hstate := List.mem_singleton.mp (mem_inStates.mp hr).2
      have hsome := r.evidence hstate
      rw [not_or, not_or] at hsome
      exact ⟨hstate, hsome⟩
    refine ⟨?_, ?_, ?_⟩
    · obtain ⟨r, hr⟩ := List.exists_mem_of_ne_nil _ hintegrated
      obtain ⟨hstate, hcandidate, htarget, hvalidation⟩ := hevidence r hr
      obtain ⟨hlatest, hfingerprint⟩ := (hmem r).mp (mem_inStates.mp hr).1
      exact ⟨r, hlatest, hfingerprint, hstate, hcandidate, hvalidation, htarget⟩
    · intro r hlatest hfingerprint
      have hr := (hmem r).mpr ⟨hlatest, hfingerprint⟩
      exact ⟨fun hstate ↦ inStates_eq_nil.mp hblocked r hr (List.mem_singleton.mpr hstate),
        fun hstate ↦ inStates_eq_nil.mp hactive r hr (List.mem_singleton.mpr hstate)⟩
    · intro r hr r' hr' hf hf' hstate hstate'
      have hin := mem_inStates.mpr ⟨(hmem r).mpr ⟨hr, hf⟩, List.mem_singleton.mpr hstate⟩
      have hin' := mem_inStates.mpr ⟨(hmem r').mpr ⟨hr', hf'⟩, List.mem_singleton.mpr hstate'⟩
      exact ⟨map_eq_of_mem hcandidates (fun r hr ↦ (hevidence r hr).2.1) hin hin',
        map_eq_of_mem htargets (fun r hr ↦ (hevidence r hr).2.2.1) hin hin'⟩
  · obtain rfl := Except.ok.inj h
    exact nomatch hexact

/-- The integrated receipts of a history are not followed by others. -/
theorem exists_latest_integrated (hchained : Chained receipts) (hmem : receipt ∈ receipts)
    (hstate : receipt.state = .integrated) :
    ∃ last ∈ latest receipts, last ∈ receipts ∧ last.receiptId = receipt.receiptId ∧
      last.state = .integrated := by
  obtain ⟨seen, hseen⟩ := hchained receipt.receiptId
  have hof := seenOf_foldlM hseen
  have hr : receipt ∈ receipts.filter (·.receiptId = receipt.receiptId) :=
    List.mem_filter.mpr ⟨hmem, by simp⟩
  obtain ⟨s, hs, heq⟩ := hof.terminal receipt hr (by rw [hstate]; rfl)
  rw [hof.last] at hs
  obtain ⟨last, hlast, rfl⟩ := Option.map_eq_some_iff.mp hs
  obtain ⟨hlastMem, hid⟩ := List.mem_filter.mp (List.mem_of_getLast? hlast)
  rw [decide_eq_true_iff] at hid
  refine ⟨last, mem_latest.mpr ?_, hlastMem, hid, heq.trans hstate⟩
  rw [hid]
  exact hlast

/-- Where no history changes the identities it was integrated with, all integrated receipts with
the fingerprint name the same ones. -/
theorem sameIdentities_of_soundReuse (hchained : Chained receipts) (huniform : Uniform receipts)
    (hsound : SoundReuse f receipts)
    (hsteady : ∀ r ∈ receipts, ∀ r' ∈ receipts, r.receiptId = r'.receiptId →
      r.state = .integrated → r'.state = .integrated → SameIdentities r r')
    {r r' : TaskReceipt} (hr : r ∈ receipts) (hr' : r' ∈ receipts) (hf : r.fingerprint = f)
    (hf' : r'.fingerprint = f) (hstate : r.state = .integrated) (hstate' : r'.state = .integrated) :
    SameIdentities r r' := by
  obtain ⟨last, hlatest, hlast, hid, hlastState⟩ := exists_latest_integrated hchained hr hstate
  obtain ⟨last', hlatest', hlast', hid', hlastState'⟩ :=
    exists_latest_integrated hchained hr' hstate'
  have h₁ := hsteady r hr last hlast hid.symm hstate hlastState
  have h₂ := hsound.agreed last hlatest last' hlatest'
    ((huniform last hlast r hr hid).trans hf) ((huniform last' hlast' r' hr' hid').trans hf')
    hlastState hlastState'
  have h₃ := hsteady last' hlast' r' hr' hid' hlastState' hstate'
  exact ⟨h₁.1.trans (h₂.1.trans h₃.1), h₁.2.trans (h₂.2.trans h₃.2)⟩

omit [Hash256] in
theorem mem_iff_of_filter_eq {receipts' : List TaskReceipt}
    (h : ∀ id, receipts.filter (·.receiptId = id) = receipts'.filter (·.receiptId = id))
    (r : TaskReceipt) : r ∈ receipts ↔ r ∈ receipts' := by
  have hfilter : ∀ rs : List TaskReceipt, r ∈ rs.filter (·.receiptId = r.receiptId) ↔ r ∈ rs := by
    intro rs
    simp [List.mem_filter]
  rw [← hfilter receipts, h, hfilter]

/-- Dispositions do not depend on how histories are interleaved. -/
theorem map_disposition_decide_eq {entries' : List (TaskReceipt × String)}
    (hchained : Chained (entries.map Prod.fst)) (hchained' : Chained (entries'.map Prod.fst))
    (h : ∀ id, (entries.map Prod.fst).filter (·.receiptId = id) =
      (entries'.map Prod.fst).filter (·.receiptId = id)) (f : TaskFingerprint) :
    (decide f (rowsOf entries)).map (·.disposition) =
      (decide f (rowsOf entries')).map (·.disposition) := by
  have hall : ∀ entries : List (TaskReceipt × String), (∀ entry ∈ entries, entry.1.Fits) ↔
      ∀ r ∈ entries.map Prod.fst, r.Fits := fun entries ↦ by simp only [List.forall_mem_map]
  have hfits : (∀ entry ∈ entries, entry.1.Fits) ↔ ∀ entry ∈ entries', entry.1.Fits := by
    simp only [hall, mem_iff_of_filter_eq h]
  have hnode : ∀ id, ((entries.map Prod.fst).filter (ofNode f)).filter (·.receiptId = id) =
      ((entries'.map Prod.fst).filter (ofNode f)).filter (·.receiptId = id) := by
    intro id
    rw [List.filter_comm, h id, List.filter_comm]
  rw [decide_rowsOf hchained, decide_rowsOf hchained']
  by_cases hok : ∀ entry ∈ entries, entry.1.Fits
  · rw [if_pos hok, if_pos (hfits.mp hok)]
    exact congrArg Except.ok (classifyReuse_perm (latest_perm hnode))
  · rw [if_neg hok, if_neg fun hok' ↦ hok (hfits.mpr hok')]

/-- A run leaves a table that is verified if every receipt in it fits. -/
theorem verify_run_iff (calls : List (TaskReceipt × String)) :
    verify (calls.foldl appendOrKeep []) = .ok () ↔
      ∀ r ∈ receiptsIn (calls.foldl appendOrKeep []), r.Fits := by
  obtain ⟨entries, hrows, hchained, -⟩ := exists_entries calls
  rw [hrows, receiptsIn_rowsOf, verify_rowsOf_iff hchained, List.forall_mem_map]

/-- **Exactly which runs leave a table that is verified, what an exact reuse is based on, and that
the order of independent histories does not matter.** -/
theorem reuse_decisions_sound (calls : List (TaskReceipt × String)) :
    (verify (calls.foldl appendOrKeep []) = .ok () ↔
      ∀ r ∈ receiptsIn (calls.foldl appendOrKeep []), r.Fits) ∧
    (∀ f decision, decide f (calls.foldl appendOrKeep []) = .ok decision →
      decision.disposition = .exactReuse →
      SoundReuse f (receiptsIn (calls.foldl appendOrKeep [])) ∧
      ((∀ r ∈ receiptsIn (calls.foldl appendOrKeep []),
        ∀ r' ∈ receiptsIn (calls.foldl appendOrKeep []), r.receiptId = r'.receiptId →
          r.state = .integrated → r'.state = .integrated → SameIdentities r r') →
        ∀ r ∈ receiptsIn (calls.foldl appendOrKeep []),
          ∀ r' ∈ receiptsIn (calls.foldl appendOrKeep []), r.fingerprint = f →
            r'.fingerprint = f → r.state = .integrated → r'.state = .integrated →
              SameIdentities r r')) ∧
    ∀ calls' : List (TaskReceipt × String),
      (∀ id, (receiptsIn (calls.foldl appendOrKeep [])).filter (·.receiptId = id) =
        (receiptsIn (calls'.foldl appendOrKeep [])).filter (·.receiptId = id)) →
      ∀ f, (decide f (calls.foldl appendOrKeep [])).map (·.disposition) =
        (decide f (calls'.foldl appendOrKeep [])).map (·.disposition) := by
  refine ⟨verify_run_iff calls, ?_⟩
  obtain ⟨entries, hrows, hchained, huniform⟩ := exists_entries calls
  rw [hrows, receiptsIn_rowsOf]
  refine ⟨fun f decision h hexact ↦ ?_, fun calls' hsame f ↦ ?_⟩
  · have hsound := soundReuse_of_decide hchained huniform h hexact
    refine ⟨hsound, fun hsteady r hr r' hr' hf hf' hstate hstate' ↦ ?_⟩
    exact sameIdentities_of_soundReuse hchained huniform hsound hsteady hr hr' hf hf' hstate hstate'
  · obtain ⟨entries', hrows', hchained', -⟩ := exists_entries calls'
    rw [hrows', receiptsIn_rowsOf] at hsame
    rw [hrows']
    exact map_disposition_decide_eq hchained hchained' hsame f

end Digests

/-! ## A receipt that is too long -/

def zeroDigest : String := "sha256:" ++ String.ofList (List.replicate 64 '0')

theorem isDigest_zeroDigest : isDigest zeroDigest = true := by
  refine isDigest_digestOfHex List.length_replicate fun c hc ↦ ?_
  rw [List.eq_of_mem_replicate hc]
  decide

def someFingerprint : TaskFingerprint where
  planDigest := zeroDigest
  nodeId := "node"
  subjectId := "subject"
  subjectSnapshotDigest := zeroDigest
  relevantSurfaceDigest := zeroDigest
  directDependencyReceiptDigests := []
  authorityDigest := zeroDigest
  compilerDigest := zeroDigest
  policyDigest := zeroDigest
  environmentDigest := zeroDigest
  taskContractDigest := zeroDigest
  valid := by
    simp only [FingerprintFields.isValid, List.all_cons, isDigest_zeroDigest]
    decide

theorem isRequired_replicate (n : Nat) :
    isRequired (String.ofList (List.replicate (n + 1) 'a')) = true := by
  rw [isRequired, String.toList_ofList, List.replicate_succ, List.any_cons]
  rfl

/-- The first receipt of a history with an identifier of `n + 1` letters. -/
def longReceipt (n : Nat) : TaskReceipt where
  receiptId := String.ofList (List.replicate (n + 1) 'a')
  fingerprint := someFingerprint
  state := .active
  sequence := 1
  candidate := none
  validationReceiptDigest := none
  integratedTarget := none
  blockerDigest := none
  previousReceiptDigest := none
  valid := by
    rw [ReceiptFields.isValid, isRequired_replicate]
    rfl

theorem append_longReceipt (n : Nat) :
    append (longReceipt n) "key" [] = .ok (longReceipt n, [(longReceipt n).toRow "key"]) := by
  have hkey : isRequired "key" = true := by decide
  have hinsert : insertReceipt (longReceipt n) "key" [] = .ok [(longReceipt n).toRow "key"] := rfl
  have hlast : lastRow (longReceipt n).receiptId [] = none := rfl
  have hsequence : (longReceipt n).sequence = 1 := rfl
  have hprevious : (longReceipt n).previousReceiptDigest = none := rfl
  simp only [append, hkey, List.find?_nil, hlast, hsequence, hprevious, hinsert, Option.map_none,
    Option.getD_none]
  rfl

theorem not_fits_longReceipt {n : Nat} (h : maximumJsonBytes ≤ n) : ¬(longReceipt n).Fits := by
  have hmem : ("receipt_id", Json.str (longReceipt n).receiptId) ∈ (longReceipt n).toDict.members := by
    simp only [TaskReceipt.toDict, List.mem_cons, true_or, or_true]
  have hlength : (longReceipt n).receiptId.toList.length = n + 1 := by
    rw [longReceipt, String.toList_ofList, List.length_replicate]
  have hle := Json.length_le_utf8ByteSize_dumps hmem
  rw [hlength] at hle
  exact fun hfits ↦ absurd (hle.trans hfits) (by omega)

theorem not_verify_longReceipt {n : Nat} (h : maximumJsonBytes ≤ n) :
    verify ([(longReceipt n, "key")].foldl appendOrKeep []) ≠ .ok () := by
  have htable : [(longReceipt n, "key")].foldl appendOrKeep [] = rowsOf [(longReceipt n, "key")] := by
    rw [List.foldl_cons, List.foldl_nil, appendOrKeep, append_longReceipt]
    rfl
  have hreceipts : receiptsIn (rowsOf [(longReceipt n, "key")]) = [longReceipt n] := receiptsIn_rowsOf _
  intro hverify
  have hfits := (verify_run_iff [(longReceipt n, "key")]).mp hverify
  rw [htable, hreceipts] at hfits
  exact not_fits_longReceipt h (hfits _ (List.mem_singleton_self _))

/-- The index takes the receipt and is not verified any more. -/
theorem longReceipt_unverified :
    append (longReceipt maximumJsonBytes) "key" [] =
        .ok (longReceipt maximumJsonBytes, [(longReceipt maximumJsonBytes).toRow "key"]) ∧
      verify ([(longReceipt maximumJsonBytes, "key")].foldl appendOrKeep []) ≠ .ok () :=
  ⟨append_longReceipt _, not_verify_longReceipt le_rfl⟩

end HiveMind.Reuse
