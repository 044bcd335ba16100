import HiveMind.Candidates.Snapshots
import HiveMind.Lib.Histories
import HiveMind.Lib.Sha256Window
import HiveMind.Lib.TwoPhase

/-!
# The journal of candidate states

The journal is a table of snapshots that only grows. The snapshots of one candidate are a hash
chain, and nothing is read from the table before every chain is verified. A transition reads the
latest snapshot of its candidate and checks itself against it; only after that, in a transaction of
its own, the new snapshot is appended if the candidate has as many snapshots as the caller expects.

That the expected number and the number that was read agree is not asked. A call that expects more
snapshots than it has read waits for other handles to append them, and is then appended to a
snapshot that nobody has checked it against. The table is also stopped by a snapshot that is too
long to be read back.

* **`histories_legal`**: if every snapshot that gets through the compare-and-swap is readable and
  was checked against the snapshot it follows, then every table that can be reached is verified.
-/

open Raise HiveMind.Runtime Histories

namespace HiveMind.Candidates

/-! ## Rows -/

/-- A row of `candidate_events`. The global sequence number is the position in the table. -/
structure CandidateRow where
  candidateId : String
  candidateSequence : Int
  idempotencyKey : String
  payloadJson : String
  previousDigest : Option String
  eventDigest : String
  deriving DecidableEq

/-- What a caller of the journal can be told. -/
inductive JournalError where
  | valueError (message : String)
  | candidateState (error : CandidateStateError)
  | encoding (error : Exc)
  | integrity (message : String)
  | overflow
  deriving DecidableEq, Repr

/-- `_decode`. -/
def decode (row : CandidateRow) : Except CandidateStateError CandidateSnapshot :=
  match strictJsonObject row.payloadJson with
  | .error _ => .error ⟨"candidate history contains invalid JSON"⟩
  | .ok d =>
    match CandidateSnapshot.fromDocument d with
    | .error e => .error e
    | .ok snapshot =>
      if snapshot.candidateId ≠ row.candidateId ∨ snapshot.sequence ≠ row.candidateSequence then
        .error ⟨"candidate history index disagrees with payload"⟩
      else .ok snapshot

namespace CandidateSnapshot

/-- The fields that no transition may change. -/
def SameBindings (s s' : CandidateSnapshot) : Prop :=
  s'.candidateId = s.candidateId ∧ s'.waveId = s.waveId ∧ s'.nodeId = s.nodeId ∧
    s'.generation = s.generation ∧ s'.manifestDigest = s.manifestDigest ∧
    s'.authorityDigest = s.authorityDigest

instance (s s' : CandidateSnapshot) : Decidable (s.SameBindings s') :=
  inferInstanceAs (Decidable (_ ∧ _))

/-- The payload is one that the decoder takes. -/
def Fits (s : CandidateSnapshot) : Prop := s.encoded.utf8ByteSize ≤ maximumJsonBytes

instance (s : CandidateSnapshot) : Decidable s.Fits := inferInstanceAs (Decidable (_ ≤ _))

end CandidateSnapshot

/-! ## Legal histories -/

/-- A snapshot may follow another one. -/
structure CandidateSnapshot.Follows (s s' : CandidateSnapshot) : Prop where
  state : s'.state ∈ s.state.next
  bindings : s.SameBindings s'
  identity : s.identity ≠ none → s'.identity = s.identity

/-- How rows are read, and which snapshots follow one another. -/
def candidates : Kind CandidateRow CandidateSnapshot where
  read row := (decode row).toOption
  position := (·.candidateSequence)
  digest := (·.eventDigest)
  sequence := (·.sequence)
  starts s := s.state = .checkpointed ∧ s.identity = none
  follows := CandidateSnapshot.Follows

/-- What a snapshot has in common with all the later ones of its history. -/
structure CandidateSnapshot.Keeps (s s' : CandidateSnapshot) : Prop where
  bindings : s.SameBindings s'
  identity : s.identity ≠ none → s'.identity = s.identity
  terminal : s.state.isTerminal = true → s'.state = s.state

theorem WaveState.eq_of_next {state state' : WaveState} (h : state' ∈ state.next)
    (hterminal : state.isTerminal = true) : state' = state := by
  cases state with
  | integrated | failed | cancelled => exact List.mem_singleton.mp h
  | _ => exact nomatch hterminal

theorem CandidateSnapshot.Follows.keeps {s s' : CandidateSnapshot} (h : s.Follows s') :
    s.Keeps s' := ⟨h.bindings, h.identity, WaveState.eq_of_next h.state⟩

theorem CandidateSnapshot.Keeps.trans {s s' s'' : CandidateSnapshot} (h : s.Keeps s')
    (h' : s'.Keeps s'') : s.Keeps s'' where
  bindings := by
    obtain ⟨hc, hw, hn, hg, hm, ha⟩ := h.bindings
    obtain ⟨hc', hw', hn', hg', hm', ha'⟩ := h'.bindings
    exact ⟨hc'.trans hc, hw'.trans hw, hn'.trans hn, hg'.trans hg, hm'.trans hm, ha'.trans ha⟩
  identity hsealed := by
    have hsame := h.identity hsealed
    exact (h'.identity (hsame ▸ hsealed)).trans hsame
  terminal hterminal := by
    have hsame := h.terminal hterminal
    exact (h'.terminal (hsame ▸ hterminal)).trans hsame

theorem pairwise_keeps {history : List CandidateSnapshot} (h : candidates.Legal history) :
    history.Pairwise CandidateSnapshot.Keeps :=
  h.pairwise (fun _ _ hfollows ↦ hfollows.keeps) fun _ _ _ h h' ↦ h.trans h'

section Digests

variable [Hash256]

/-- The digest of an event, over the digest of the event before it. -/
def eventDigest (previous : Option String) (snapshot : CandidateSnapshot) : String :=
  jsonDigest (.obj [("previous_digest", Runtime.optionalText previous), ("snapshot", snapshot.toJson)])

def CandidateSnapshot.toRow (s : CandidateSnapshot) (idempotencyKey : String)
    (previous : Option String) : CandidateRow :=
  ⟨s.candidateId, s.sequence, idempotencyKey, s.encoded, previous, eventDigest previous s⟩

/-! ## Verification -/

/-- The check of the first snapshot. -/
def checkFirst (snapshot : CandidateSnapshot) : Except CandidateStateError Unit := do
  if snapshot.state ≠ .checkpointed ∨ snapshot.identity ≠ none then
    throw ⟨"candidate history must begin at CHECKPOINTED"⟩
  return

/-- The checks of a snapshot against the one before it. -/
def checkSuccessor (prior snapshot : CandidateSnapshot) : Except CandidateStateError Unit := do
  if snapshot.state ∉ prior.state.next then
    throw ⟨"candidate history contains an invalid transition"⟩
  if ¬prior.SameBindings snapshot then
    throw ⟨"candidate history changed immutable bindings"⟩
  if prior.identity ≠ none ∧ snapshot.identity ≠ prior.identity then
    throw ⟨"candidate history changed sealed identity"⟩
  return

/-- One row of a history, against the rows before it. -/
def checkRow (seen : Option (Seen CandidateSnapshot)) (row : CandidateRow) :
    Except CandidateStateError (Option (Seen CandidateSnapshot)) := do
  let snapshot ← decode row
  if snapshot.sequence ≠ (seen.map (·.sequence)).getD 1 then
    throw ⟨"candidate history sequence is discontinuous"⟩
  if row.previousDigest ≠ seen.map (·.digest) then
    throw ⟨"candidate history hash chain is broken"⟩
  if row.payloadJson ≠ snapshot.encoded then
    throw ⟨"candidate history payload is not canonical"⟩
  if row.eventDigest ≠ eventDigest (seen.map (·.digest)) snapshot then
    throw ⟨"candidate history event digest is invalid"⟩
  match seen with
  | none => checkFirst snapshot
  | some prior => checkSuccessor prior.snapshot snapshot
  return some ⟨row.eventDigest, snapshot.sequence + 1, snapshot⟩

/-- `verify`. The candidate of a snapshot is the one of its row, which `_decode` has made sure of. -/
def verify (table : List CandidateRow) : Except CandidateStateError Unit := do
  let _ ← table.foldlM (Trace.atKey (·.candidateId) checkRow) fun _ ↦ none

/-- `latest`. -/
def latest (candidateId : String) (table : List CandidateRow) :
    Except JournalError (Option CandidateSnapshot) := do
  if isRequired candidateId = false then
    throw (.valueError "candidate_id is required")
  match (table.filter (·.candidateId = candidateId)).getLast? with
  | none => return none
  | some row =>
    (verify table).mapError .candidateState
    return some (← (decode row).mapError .candidateState)

/-! ## Calls -/

/-- The arguments of `checkpoint`. -/
structure Checkpoint where
  candidateId : String
  waveId : String
  nodeId : String
  generation : Int
  manifestDigest : String
  authorityDigest : String
  checkpointDigest : String
  idempotencyKey : String

/-- The arguments of `transition`. -/
structure Transition where
  candidateId : String
  expectedSequence : Int
  state : WaveState
  idempotencyKey : String
  identity : Option CandidateIdentity
  checkpointDigest : Option String
  reason : Option String

/-- The arguments of `_append`. `basis` is the number of the snapshot that the new one was checked
against, which the code does not keep. -/
structure Pending where
  snapshot : CandidateSnapshot
  expectedSequence : Int
  idempotencyKey : String
  basis : Int

/-- `checkpoint`, up to its append. -/
def Checkpoint.prepare (c : Checkpoint) : Except JournalError Pending := do
  let snapshot ← (CandidateSnapshot.make ⟨c.candidateId, c.waveId, c.nodeId, c.generation,
    .checkpointed, c.manifestDigest, c.authorityDigest, c.checkpointDigest, none, 1,
    none⟩).mapError .valueError
  return ⟨snapshot, 0, c.idempotencyKey, 0⟩

/-- `transition`, where it looks for a retry. -/
def Transition.retried (t : Transition) (table : List CandidateRow) :
    Except JournalError (Option CandidateSnapshot) :=
  match table.find? (·.idempotencyKey == t.idempotencyKey) with
  | none => .ok none
  | some retry => do
    let existing ← (decode retry).mapError .candidateState
    if existing.candidateId ≠ t.candidateId ∨ existing.sequence ≠ t.expectedSequence + 1 ∨
        existing.state ≠ t.state ∨ (t.identity ≠ none ∧ existing.identity ≠ t.identity) ∨
        (∃ digest ∈ t.checkpointDigest, existing.checkpointDigest ≠ digest) ∨
        existing.reason ≠ t.reason then
      throw (.candidateState ⟨"idempotency key is bound to another candidate transition"⟩)
    return some existing

/-- `checkpoint_digest or current.checkpoint_digest`: an empty text counts as missing. -/
def Transition.digestOr (t : Transition) (current : String) : String :=
  match t.checkpointDigest with
  | some digest => if digest = "" then current else digest
  | none => current

/-- The part of `transition` between the latest snapshot and the append. -/
def Transition.advance (t : Transition) (current : CandidateSnapshot) :
    Except JournalError Pending := do
  if t.state ∉ current.state.next then
    throw (.candidateState ⟨"candidate cannot transition from " ++ current.state.value ++ " to " ++
      t.state.value⟩)
  let exactIdentity := t.identity.or current.identity
  if current.identity ≠ none ∧ exactIdentity ≠ current.identity then
    throw (.candidateState ⟨"sealed candidate identity is immutable"⟩)
  if t.state = .candidateSealed ∧ exactIdentity = none then
    throw (.candidateState ⟨"candidate sealing requires an exact identity"⟩)
  if current.state.isTerminal = true ∧ t.state ≠ current.state then
    throw (.candidateState ⟨"terminal candidate state is immutable"⟩)
  let snapshot ← (CandidateSnapshot.make ⟨current.candidateId, current.waveId, current.nodeId,
    current.generation, t.state, current.manifestDigest, current.authorityDigest,
    t.digestOr current.checkpointDigest, exactIdentity, t.expectedSequence + 1,
    t.reason⟩).mapError .valueError
  return ⟨snapshot, t.expectedSequence, t.idempotencyKey, current.sequence⟩

/-- `transition`, from its read of the latest snapshot to its append. -/
def Transition.prepare (t : Transition) (table : List CandidateRow) :
    Except JournalError Pending := do
  match ← latest t.candidateId table with
  | none => throw (.candidateState ⟨"candidate has not been checkpointed"⟩)
  | some current => t.advance current

/-! ## Appending -/

/-- `SELECT … WHERE candidate_id=? ORDER BY candidate_sequence DESC LIMIT 1`. -/
def lastRow (candidateId : String) (table : List CandidateRow) : Option CandidateRow :=
  (Rows.orderBy (·.candidateSequence) (table.filter (·.candidateId = candidateId))).getLast?

def lastSequence (candidateId : String) (table : List CandidateRow) : Int :=
  ((lastRow candidateId table).map (·.candidateSequence)).getD 0

/-- The `INSERT` of `_append`. -/
def insertRow (row : CandidateRow) (table : List CandidateRow) :
    Except JournalError (List CandidateRow) := do
  if (2 : Int) ^ 63 ≤ row.candidateSequence then
    throw .overflow
  if table.any (·.eventDigest == row.eventDigest) then
    throw (.integrity "UNIQUE constraint failed: candidate_events.event_digest")
  if table.any fun old ↦
      old.candidateId == row.candidateId && old.candidateSequence == row.candidateSequence then
    throw (.integrity
      "UNIQUE constraint failed: candidate_events.candidate_id, candidate_events.candidate_sequence")
  return table ++ [row]

/-- `_append`: the snapshot, and the table as it is then. -/
def append (p : Pending) (table : List CandidateRow) :
    Except JournalError (CandidateSnapshot × List CandidateRow) := do
  if isRequired p.idempotencyKey = false then
    throw (.valueError "idempotency_key is required")
  let encoded ← p.snapshot.encode.mapError .encoding
  match table.find? (·.idempotencyKey == p.idempotencyKey) with
  | some retry =>
    let existing ← (decode retry).mapError .candidateState
    if encoded ≠ retry.payloadJson then
      throw (.candidateState ⟨"idempotency key is bound to another candidate transition"⟩)
    return (existing, table)
  | none =>
    if lastSequence p.snapshot.candidateId table ≠ p.expectedSequence then
      throw (.candidateState ⟨"candidate compare-and-swap sequence failed"⟩)
    if p.snapshot.sequence ≠ p.expectedSequence + 1 then
      throw (.candidateState ⟨"candidate snapshot sequence is invalid"⟩)
    let previous := (lastRow p.snapshot.candidateId table).map (·.eventDigest)
    return (p.snapshot, ← insertRow (p.snapshot.toRow p.idempotencyKey previous) table)

/-- What an append leaves behind, whether it returns or raises. -/
def appendOrKeep (p : Pending) (table : List CandidateRow) : List CandidateRow :=
  match append p table with
  | .ok (_, table') => table'
  | .error _ => table

/-! ## Any number of handles -/

/-- A call that has come to its append. -/
inductive Prepares (table : List CandidateRow) : Pending → Prop
  | checkpoint {p : Pending} (c : Checkpoint) (h : c.prepare = .ok p) : Prepares table p
  /-- The look for a retry was at an earlier table. -/
  | transition {p : Pending} (t : Transition) (earlier : List CandidateRow)
      (hearlier : earlier <+: table) (hretried : t.retried earlier = .ok none)
      (h : t.prepare table = .ok p) : Prepares table p

/-- The handles on one database. Which appends are taken is up to `admits`. -/
def handles (admits : Pending → List CandidateRow → Prop) :
    TwoPhase.Protocol (List CandidateRow) Pending where
  drift _ _ := False
  reads := Prepares
  commits table p table' := admits p table ∧ table' = appendOrKeep p table

/-- The append adds a row: its key is new and the compare-and-swap succeeds. -/
def GetsThrough (p : Pending) (table : List CandidateRow) : Prop :=
  (∀ row ∈ table, row.idempotencyKey ≠ p.idempotencyKey) ∧
    lastSequence p.snapshot.candidateId table = p.expectedSequence

/-- What gets through the compare-and-swap was checked against the snapshot that it follows, and can
be read back. -/
def InOrder (p : Pending) (table : List CandidateRow) : Prop :=
  GetsThrough p table → p.basis = p.expectedSequence ∧ p.snapshot.Fits

/-! ## Rows read back -/

variable {table table' : List CandidateRow} {p : Pending} {row : CandidateRow}
  {seen seen' : Option (Seen CandidateSnapshot)}

theorem decode_toRow (s : CandidateSnapshot) (key : String) (previous : Option String) :
    decode (s.toRow key previous) =
      if s.Fits then .ok s else .error ⟨"candidate history contains invalid JSON"⟩ := by
  have hread : strictJsonObject (s.toRow key previous).payloadJson =
      if s.Fits then .ok s.toDict else .error ⟨"JSON input is empty or exceeds the byte limit"⟩ :=
    strictJsonObject_dumps s.sorted_toJson s.jsonDepth_toJson_le
  by_cases hfits : s.Fits
  · rw [if_pos hfits] at hread ⊢
    simp only [decode, hread, CandidateSnapshot.fromDocument_toDict]
    simp [CandidateSnapshot.toRow]
  · rw [if_neg hfits] at hread ⊢
    simp only [decode, hread]

omit [Hash256] in
theorem candidateId_of_decode {s : CandidateSnapshot} (h : decode row = .ok s) :
    s.candidateId = row.candidateId ∧ s.sequence = row.candidateSequence := by
  rw [decode] at h
  cases hjson : strictJsonObject row.payloadJson with
  | error e =>
    rw [hjson] at h
    exact nomatch h
  | ok d =>
    rw [hjson] at h
    dsimp only at h
    cases hdocument : CandidateSnapshot.fromDocument d with
    | error e =>
      rw [hdocument] at h
      exact nomatch h
    | ok snapshot =>
      rw [hdocument] at h
      dsimp only at h
      split at h
      · exact nomatch h
      · next hindex =>
        rw [← Except.ok.inj h]
        simpa only [not_or, not_not] using hindex

/-! ## The checks of a row -/

omit [Hash256] in
theorem checkFirst_eq_ok {snapshot : CandidateSnapshot} {u : Unit} :
    checkFirst snapshot = .ok u ↔ snapshot.state = .checkpointed ∧ snapshot.identity = none := by
  simp only [checkFirst, guard_eq_ok, pure_eq_ok, not_or, not_not, and_true]

omit [Hash256] in
theorem checkSuccessor_eq_ok {prior snapshot : CandidateSnapshot} {u : Unit} :
    checkSuccessor prior snapshot = .ok u ↔ prior.Follows snapshot := by
  simp only [checkSuccessor, guard_eq_ok, pure_eq_ok, not_not, not_and, and_true]
  exact ⟨fun ⟨hstate, hbindings, hidentity⟩ ↦ ⟨hstate, hbindings, hidentity⟩,
    fun h ↦ ⟨h.state, h.bindings, h.identity⟩⟩

/-- A row passes exactly if it is the row of a snapshot that may come next. -/
theorem checkRow_eq_ok :
    checkRow seen row = .ok seen' ↔ ∃ s, decode row = .ok s ∧
      s.sequence = (seen.map (·.sequence)).getD 1 ∧ row.previousDigest = seen.map (·.digest) ∧
      row.payloadJson = s.encoded ∧ row.eventDigest = eventDigest (seen.map (·.digest)) s ∧
      (seen = none → s.state = .checkpointed ∧ s.identity = none) ∧
      (∀ prior ∈ seen, prior.snapshot.Follows s) ∧ seen' = some (candidates.seen row s) := by
  rw [checkRow, bind_eq_ok]
  refine exists_congr fun s ↦ and_congr_right fun _ ↦ ?_
  simp only [guard_eq_ok, not_not]
  cases seen with
  | none =>
    simp only [bind_eq_ok, checkFirst_eq_ok, pure_eq_ok]
    simp [candidates, Kind.seen]
  | some prior =>
    simp only [bind_eq_ok, checkSuccessor_eq_ok, pure_eq_ok, Option.mem_some_iff, forall_eq']
    simp [candidates, Kind.seen]

theorem accepts_of_checkRow (h : checkRow seen row = .ok seen') :
    ∃ s, candidates.Accepts seen row s ∧ seen' = some (candidates.seen row s) := by
  obtain ⟨s, hdecode, hsequence, -, -, -, hstarts, hfollows, rfl⟩ := checkRow_eq_ok.mp h
  have hread : candidates.read row = some s := by
    show (decode row).toOption = some s
    rw [hdecode]
    rfl
  exact ⟨s, ⟨hread, (candidateId_of_decode hdecode).2.symm, hsequence, hstarts, hfollows⟩, rfl⟩

theorem verify_eq_ok {u : Unit} :
    verify table = .ok u ↔
      ∀ id, ∃ seen, (table.filter (·.candidateId = id)).foldlM checkRow none = .ok seen := by
  simp only [verify, bind_eq_ok, pure_eq_ok, Trace.foldlM_atKey_eq_ok, and_true]
  constructor
  · rintro ⟨m, hm⟩ id
    exact ⟨m id, hm id⟩
  · intro h
    choose m hm using h
    exact ⟨m, hm⟩

/-- The rows of a candidate in a verified table are a history. -/
theorem exists_history (h : verify table = .ok ()) (id : String) :
    ∃ seen entries, (table.filter (·.candidateId = id)).foldlM checkRow none = .ok seen ∧
      entries.map Prod.fst = table.filter (·.candidateId = id) ∧
      candidates.SeenOf entries seen := by
  obtain ⟨seen, hseen⟩ := verify_eq_ok.mp h id
  obtain ⟨entries, hrows, hhistory⟩ :=
    Kind.exists_seenOf (fun _ _ _ hcheck ↦ accepts_of_checkRow hcheck) hseen
  exact ⟨seen, entries, hseen, hrows, hhistory⟩

/-- A row that its history accepts may be added. -/
theorem verify_concat (h : verify table = .ok ())
    (hrow : ∀ seen, (table.filter (·.candidateId = row.candidateId)).foldlM checkRow none = .ok seen →
      ∃ seen', checkRow seen row = .ok seen') : verify (table ++ [row]) = .ok () := by
  apply verify_eq_ok.mpr
  intro id
  obtain ⟨seen, hseen⟩ := verify_eq_ok.mp h id
  rw [List.filter_append]
  by_cases hid : row.candidateId = id
  · subst hid
    rw [List.filter_cons_of_pos (by simp), List.filter_nil]
    obtain ⟨seen', hseen'⟩ := hrow seen hseen
    exact ⟨seen', Trace.foldlM_concat_eq_ok.mpr ⟨seen, hseen, hseen'⟩⟩
  · rw [List.filter_cons_of_neg (by simpa using hid), List.filter_nil, List.append_nil]
    exact ⟨seen, hseen⟩

/-! ## Calls that know what they follow -/

omit [Hash256] in
theorem toSnapshotFields_of_make {f : SnapshotFields} {s : CandidateSnapshot}
    {wrap : String → JournalError} (h : (CandidateSnapshot.make f).mapError wrap = .ok s) :
    s.toSnapshotFields = f :=
  CandidateSnapshot.make_eq_ok.mp (mapError_eq_ok.mp h)

/-- What a call has made sure of when it comes to its append. The row it has read stays in the
table. -/
structure Knows (p : Pending) (table : List CandidateRow) : Prop where
  sequence : p.snapshot.sequence = p.expectedSequence + 1
  basis : (p.basis = 0 ∧ candidates.starts p.snapshot) ∨
    ∃ row ∈ table, ∃ current, decode row = .ok current ∧
      row.candidateId = p.snapshot.candidateId ∧ current.sequence = p.basis ∧
      current.Follows p.snapshot

omit [Hash256] in
theorem Knows.mono (h : Knows p table) (hbegin : table <+: table') : Knows p table' where
  sequence := h.sequence
  basis := by
    refine h.basis.imp_right ?_
    rintro ⟨row, hrow, hknown⟩
    exact ⟨row, hbegin.subset hrow, hknown⟩

omit [Hash256] in
theorem Checkpoint.knows {c : Checkpoint} (h : c.prepare = .ok p) : Knows p table := by
  simp only [Checkpoint.prepare, bind_eq_ok, pure_eq_ok] at h
  obtain ⟨snapshot, hmake, rfl⟩ := h
  have hfields := toSnapshotFields_of_make hmake
  refine ⟨?_, .inl ⟨rfl, ?_, ?_⟩⟩
  · show snapshot.toSnapshotFields.sequence = 0 + 1
    rw [hfields]
    rfl
  · show snapshot.toSnapshotFields.state = .checkpointed
    rw [hfields]
  · show snapshot.toSnapshotFields.identity = none
    rw [hfields]

omit [Hash256] in
/-- The checks of a transition say that the new snapshot may follow the current one. -/
theorem Transition.follows_of_advance {t : Transition} {current : CandidateSnapshot}
    (h : t.advance current = .ok p) :
    current.Follows p.snapshot ∧ p.snapshot.sequence = p.expectedSequence + 1 ∧
      p.basis = current.sequence := by
  simp only [Transition.advance, guard_eq_ok, bind_eq_ok, pure_eq_ok, not_not] at h
  obtain ⟨hstate, hsealed, -, -, snapshot, hmake, rfl⟩ := h
  have hfields := toSnapshotFields_of_make hmake
  have hstate' : snapshot.state = t.state := congrArg SnapshotFields.state hfields
  have hidentity : snapshot.identity = t.identity.or current.identity :=
    congrArg SnapshotFields.identity hfields
  refine ⟨⟨?_, ?_, fun hne ↦ ?_⟩, congrArg SnapshotFields.sequence hfields, rfl⟩
  · rw [hstate']
    exact hstate
  · simp only [CandidateSnapshot.SameBindings, hfields, and_self]
  · rw [hidentity]
    by_contra hdiffers
    exact hsealed ⟨hne, hdiffers⟩

theorem exists_row_of_latest {id : String} {current : CandidateSnapshot}
    (h : latest id table = .ok (some current)) :
    ∃ row ∈ table, row.candidateId = id ∧ decode row = .ok current := by
  simp only [latest, guard_eq_ok] at h
  obtain ⟨-, h⟩ := h
  cases hlast : (table.filter (·.candidateId = id)).getLast? with
  | none =>
    rw [hlast] at h
    exact nomatch h
  | some row =>
    simp only [hlast, bind_eq_ok, mapError_eq_ok, pure_eq_ok, Option.some.injEq] at h
    obtain ⟨-, -, s, hdecode, rfl⟩ := h
    obtain ⟨hmem, hid⟩ := List.mem_filter.mp (List.mem_of_getLast? hlast)
    exact ⟨row, hmem, of_decide_eq_true hid, hdecode⟩

theorem Prepares.knows (h : Prepares table p) : Knows p table := by
  cases h with
  | checkpoint c h => exact c.knows h
  | transition t earlier _ _ h =>
    simp only [Transition.prepare, bind_eq_ok] at h
    obtain ⟨current?, hlatest, h⟩ := h
    cases current? with
    | none => exact nomatch h
    | some current =>
      obtain ⟨row, hrow, hid, hdecode⟩ := exists_row_of_latest hlatest
      obtain ⟨hfollows, hsequence, hbasis⟩ := Transition.follows_of_advance h
      refine ⟨hsequence, .inr ⟨row, hrow, current, hdecode, ?_, hbasis.symm, hfollows⟩⟩
      rw [← (candidateId_of_decode hdecode).1]
      exact hfollows.bindings.1.symm

/-! ## Runs of calls -/

omit [Hash256] in
theorem insertRow_eq_ok (h : insertRow row table = .ok table') : table' = table ++ [row] := by
  simp only [insertRow, guard_eq_ok, pure_eq_ok] at h
  exact h.2.2.2

/-- An append changes nothing, or it gets through and adds the row of its snapshot. -/
theorem of_append {result : CandidateSnapshot} (h : append p table = .ok (result, table')) :
    table' = table ∨ GetsThrough p table ∧
      table' = table ++ [p.snapshot.toRow p.idempotencyKey
        ((lastRow p.snapshot.candidateId table).map (·.eventDigest))] := by
  simp only [append, guard_eq_ok, bind_eq_ok] at h
  obtain ⟨-, encoded, -, h⟩ := h
  cases hretry : table.find? (·.idempotencyKey == p.idempotencyKey) with
  | some retry =>
    simp only [hretry, guard_eq_ok, bind_eq_ok, pure_eq_ok, Prod.mk.injEq] at h
    obtain ⟨_, -, -, -, rfl⟩ := h
    exact .inl rfl
  | none =>
    simp only [hretry, guard_eq_ok, bind_eq_ok, pure_eq_ok, not_not, Prod.mk.injEq] at h
    obtain ⟨hsequence, -, _, hinsert, -, rfl⟩ := h
    have hkey : ∀ row ∈ table, row.idempotencyKey ≠ p.idempotencyKey := fun row hrow heq ↦
      List.find?_eq_none.mp hretry row hrow (beq_iff_eq.mpr heq)
    exact .inr ⟨⟨hkey, hsequence⟩, insertRow_eq_ok hinsert⟩

theorem of_appendOrKeep (p : Pending) (table : List CandidateRow) :
    appendOrKeep p table = table ∨ GetsThrough p table ∧
      appendOrKeep p table = table ++ [p.snapshot.toRow p.idempotencyKey
        ((lastRow p.snapshot.candidateId table).map (·.eventDigest))] := by
  rw [appendOrKeep]
  split
  · next result table' h => exact of_append h
  · exact .inl rfl

theorem prefix_appendOrKeep (p : Pending) (table : List CandidateRow) :
    table <+: appendOrKeep p table := by
  rcases of_appendOrKeep p table with h | ⟨-, h⟩
  · exact h.symm.subst (List.prefix_refl table)
  · exact h.symm.subst (List.prefix_append table _)

theorem checkRow_toRow {s : CandidateSnapshot} (key : String) (hfits : s.Fits)
    (hsequence : s.sequence = (seen.map (·.sequence)).getD 1)
    (hstarts : seen = none → candidates.starts s)
    (hfollows : ∀ prior ∈ seen, prior.snapshot.Follows s) :
    ∃ seen', checkRow seen (s.toRow key (seen.map (·.digest))) = .ok seen' := by
  have hdecode : decode (s.toRow key (seen.map (·.digest))) = .ok s := by
    rw [decode_toRow, if_pos hfits]
  exact ⟨_, checkRow_eq_ok.mpr ⟨s, hdecode, hsequence, rfl, rfl, rfl, hstarts, hfollows, rfl⟩⟩

/-- The snapshot of a call that was checked against the last one of its candidate passes. -/
theorem checkRow_of_knows {entries : List (CandidateRow × CandidateSnapshot)}
    (hrows : entries.map Prod.fst = table.filter (·.candidateId = p.snapshot.candidateId))
    (hseen : candidates.SeenOf entries seen) (hknows : Knows p table)
    (hthrough : GetsThrough p table) (hbasis : p.basis = p.expectedSequence)
    (hfits : p.snapshot.Fits) :
    ∃ seen', checkRow seen (p.snapshot.toRow p.idempotencyKey
      ((lastRow p.snapshot.candidateId table).map (·.eventDigest))) = .ok seen' := by
  have hlast : lastRow p.snapshot.candidateId table = entries.getLast?.map Prod.fst := by
    rw [lastRow, ← hrows, ← List.getLast?_map]
    exact congrArg List.getLast? hseen.orderBy_eq
  have hdigest : (lastRow p.snapshot.candidateId table).map (·.eventDigest) =
      seen.map (·.digest) := by
    rw [hlast, hseen.last, Option.map_map, Option.map_map]
    rfl
  have hsequence := hthrough.2
  rw [lastSequence, hlast] at hsequence
  rw [hdigest]
  apply checkRow_toRow _ hfits
  · -- the number is the next one, whether or not there is a row
    rw [hknows.sequence, ← hsequence, hseen.last]
    cases hentries : entries.getLast? with
    | none => rfl
    | some last =>
      have hread := hseen.reads last (List.mem_of_getLast? hentries)
      exact congrArg (· + 1) hread.2
  · rintro rfl
    have hnil : entries = [] := List.getLast?_eq_none_iff.mp (Option.map_eq_none_iff.mp hseen.last.symm)
    rcases hknows.basis with ⟨-, hstarts⟩ | ⟨row, hrow, _, -, hid, -⟩
    · exact hstarts
    · have hmem : row ∈ table.filter (·.candidateId = p.snapshot.candidateId) :=
        List.mem_filter.mpr ⟨hrow, decide_eq_true hid⟩
      rw [← hrows, hnil] at hmem
      exact absurd hmem List.not_mem_nil
  · intro prior hprior
    rw [hseen.last] at hprior
    obtain ⟨last, hentries, rfl⟩ := Option.map_eq_some_iff.mp hprior
    have hread := hseen.reads last (List.mem_of_getLast? hentries)
    rw [hentries] at hsequence
    have hexpected : last.2.sequence = p.expectedSequence := by
      rw [← hsequence]
      exact hread.2.symm
    have hpositive : 1 ≤ last.2.sequence := by
      by_contra hlt
      have hvalid := last.2.valid
      simp only [SnapshotFields.problem?] at hvalid
      grind
    rcases hknows.basis with ⟨hzero, -⟩ | ⟨row, hrow, current, hcurrent, hid, hsame, hfollows⟩
    · omega
    -- the row that was read has the number of the last row, so it is the last row
    · have hmem : row ∈ entries.map Prod.fst := by
        rw [hrows]
        exact List.mem_filter.mpr ⟨hrow, decide_eq_true hid⟩
      obtain ⟨e, he, rfl⟩ := List.mem_map.mp hmem
      have hsnapshot : e.2 = current := by
        have hreads := (hseen.reads e he).1
        rw [show candidates.read e.1 = (decode e.1).toOption from rfl, hcurrent] at hreads
        exact (Option.some.inj hreads).symm
      obtain rfl : e = last := hseen.getLast?_eq he hentries
        (show e.2.sequence = last.2.sequence by rw [hsnapshot, hsame, hbasis, hexpected])
      show e.2.Follows p.snapshot
      rw [hsnapshot]
      exact hfollows

/-- An append in order keeps the table verified. -/
theorem verify_appendOrKeep (h : verify table = .ok ()) (hknows : Knows p table)
    (horder : InOrder p table) : verify (appendOrKeep p table) = .ok () := by
  rcases of_appendOrKeep p table with hsame | ⟨hthrough, hadded⟩
  · rw [hsame]
    exact h
  · obtain ⟨hbasis, hfits⟩ := horder hthrough
    rw [hadded]
    apply verify_concat h
    intro seen hseen
    obtain ⟨seen', entries, hfold, hrows, hhistory⟩ := exists_history h p.snapshot.candidateId
    obtain rfl := Except.ok.inj (hfold.symm.trans hseen)
    exact checkRow_of_knows hrows hhistory hknows hthrough hbasis hfits

/-- The rows of a candidate in a verified table are read as a legal history. -/
theorem mapM_decode_of_verify (h : verify table = .ok ()) (id : String) :
    ∃ history, (table.filter (·.candidateId = id)).mapM decode = .ok history ∧
      candidates.Legal history ∧ history.Pairwise CandidateSnapshot.Keeps := by
  obtain ⟨seen, entries, -, hrows, hhistory⟩ := exists_history h id
  refine ⟨entries.map Prod.snd, ?_, hhistory.legal, pairwise_keeps hhistory.legal⟩
  rw [← hrows, mapM_eq_ok, List.forall₂_map_left_iff, List.forall₂_map_right_iff,
    List.forall₂_same]
  intro e he
  have hread := (hhistory.reads e he).1
  rw [show candidates.read e.1 = (decode e.1).toOption from rfl] at hread
  cases hdecode : decode e.1 with
  | error err =>
    rw [hdecode] at hread
    exact nomatch hread
  | ok s =>
    rw [hdecode] at hread
    rw [Option.some.inj hread]

/-- **Handles whose appends are in order keep every history legal.** -/
theorem histories_legal {c : TwoPhase.System (List CandidateRow) Pending}
    (h : TwoPhase.Reaches (handles InOrder) [] c) :
    verify c.shared = .ok () ∧
      ∀ id, ∃ history, (c.shared.filter (·.candidateId = id)).mapM decode = .ok history ∧
        candidates.Legal history ∧ history.Pairwise CandidateSnapshot.Keeps := by
  have hverify : verify c.shared = .ok () := by
    refine (h.invariant (fun table ↦ verify table = .ok ()) Knows rfl ?_ ?_ ?_).1
    · exact fun _ _ _ hdrift ↦ hdrift.elim
    · exact fun _ _ _ hprepares ↦ Prepares.knows hprepares
    · rintro table p _ hverify hknows ⟨horder, rfl⟩
      exact ⟨verify_appendOrKeep hverify hknows horder,
        fun p' hp' ↦ hp'.mono (prefix_appendOrKeep p table)⟩
  exact ⟨hverify, mapM_decode_of_verify hverify⟩

end Digests

/-! ## A transition from a state that was never read -/

/-- Sixty-four hexadecimal digits. -/
private def zeros : List Char := List.replicate 64 '0'

private def snapshotFields (state : WaveState) (sequence : Int) (reason : Option String) :
    SnapshotFields :=
  ⟨"c", "w", "n", 1, state, digestOfHex zeros, digestOfHex zeros, digestOfHex zeros, none, sequence,
    reason⟩

private def started : CandidateSnapshot := ⟨snapshotFields .checkpointed 1 none, by decide +kernel⟩

private def failed : CandidateSnapshot :=
  ⟨snapshotFields .failed 2 (some "r"), by decide +kernel⟩

private def restarted : CandidateSnapshot :=
  ⟨snapshotFields .checkpointed 3 none, by decide +kernel⟩

/-- The text of a snapshot. -/
private def snapshotText (state : WaveState) (sequence : Int) (reason : Option String) : List Char :=
  objectText [
    ("authority_digest", digestText zeros), ("candidate_id", Json.strChars "c"),
    ("checkpoint_digest", digestText zeros), ("generation", Json.intChars 1),
    ("identity", Json.null.chars), ("manifest_digest", digestText zeros),
    ("node_id", Json.strChars "n"), ("reason", (Runtime.optionalText reason).chars),
    ("schema_version", Json.intChars 1), ("sequence", Json.intChars sequence),
    ("state", Json.strChars state.value), ("wave_id", Json.strChars "w")]

/-- The text that the digest of an event covers. -/
private def eventText (previous : Option (List Char)) (state : WaveState) (sequence : Int)
    (reason : Option String) : List Char :=
  objectText [
    ("previous_digest", match previous with
      | none => Json.null.chars
      | some hex => digestText hex),
    ("snapshot", snapshotText state sequence reason)]

private theorem chars_toJson {s : CandidateSnapshot} {state : WaveState} {sequence : Int}
    {reason : Option String} (h : s.toSnapshotFields = snapshotFields state sequence reason) :
    s.toJson.chars = snapshotText state sequence reason := by
  rw [CandidateSnapshot.toJson, Json.Dict.toJson, chars_obj]
  simp only [CandidateSnapshot.toDict, h, snapshotFields, List.map_cons, List.map_nil,
    optionalCandidate, chars_str, chars_int, strChars_digestOfHex]
  rfl

private theorem eventDigest_eq {s : CandidateSnapshot} {state : WaveState} {sequence : Int}
    {reason : Option String} (h : s.toSnapshotFields = snapshotFields state sequence reason)
    (previous : Option (List Char)) :
    eventDigest (previous.map digestOfHex) s =
      digestOfHex (Hash256.hexChars (eventText previous state sequence reason)) := by
  have hprevious : (Runtime.optionalText (previous.map digestOfHex)).chars =
      match previous with
      | none => Json.null.chars
      | some hex => digestText hex := by
    cases previous with
    | none => rfl
    | some hex => rw [Option.map_some, Runtime.optionalText, chars_str, strChars_digestOfHex]
  rw [eventDigest, jsonDigest, chars_obj]
  simp only [List.map_cons, List.map_nil, hprevious, chars_toJson h]
  rfl

private theorem fits_of_length {s : CandidateSnapshot} {state : WaveState} {sequence : Int}
    {reason : Option String} (h : s.toSnapshotFields = snapshotFields state sequence reason)
    (hlength : (snapshotText state sequence reason).length ≤ 262144) : s.Fits := by
  have hle := Json.utf8ByteSize_ofList_le s.toJson.chars
  rw [chars_toJson h] at hle
  have hsize : s.encoded.utf8ByteSize ≤ 4 * (snapshotText state sequence reason).length := by
    rw [CandidateSnapshot.encoded, Json.dumps, chars_toJson h]
    exact hle
  have hbound : maximumJsonBytes = 4 * 262144 := rfl
  rw [CandidateSnapshot.Fits, hbound]
  omega

/-- The digests of the three events. They are computed on lists of characters. -/
private def hexes : List (List Char) :=
  let first := Hash256.hexChars (eventText none .checkpointed 1 none)
  let second := Hash256.hexChars (eventText (some first) .failed 2 (some "r"))
  let third := Hash256.hexChars (eventText (some second) .checkpointed 3 none)
  [first, second, third]

private theorem nodup_hexes : hexes.Nodup := by
  rw [hexes, instHash256_eq]
  decide +kernel

/-- An append whose key and digest are new, where the compare-and-swap succeeds. -/
private theorem append_eq_ok {p : Pending} (table : List CandidateRow)
    (hrequired : isRequired p.idempotencyKey = true)
    (hencode : p.snapshot.encode = .ok p.snapshot.encoded) (hthrough : GetsThrough p table)
    (hsequence : p.snapshot.sequence = p.expectedSequence + 1)
    (hrepresented : p.snapshot.sequence < 2 ^ 63)
    (hdigest : ∀ row ∈ table, row.eventDigest ≠
      eventDigest ((lastRow p.snapshot.candidateId table).map (·.eventDigest)) p.snapshot)
    (hindex : ∀ row ∈ table, row.candidateSequence ≠ p.snapshot.sequence) :
    appendOrKeep p table = table ++ [p.snapshot.toRow p.idempotencyKey
      ((lastRow p.snapshot.candidateId table).map (·.eventDigest))] := by
  have hretry : table.find? (·.idempotencyKey == p.idempotencyKey) = none := by
    apply List.find?_eq_none.mpr
    exact fun row hrow heq ↦ hthrough.1 row hrow (eq_of_beq heq)
  have hinsert : insertRow (p.snapshot.toRow p.idempotencyKey
      ((lastRow p.snapshot.candidateId table).map (·.eventDigest))) table =
      .ok (table ++ [p.snapshot.toRow p.idempotencyKey
        ((lastRow p.snapshot.candidateId table).map (·.eventDigest))]) := by
    simp only [insertRow, guard_eq_ok, pure_eq_ok, List.any_eq_true, not_exists, not_and, not_le,
      Bool.and_eq_true, beq_iff_eq, and_true]
    exact ⟨hrepresented, hdigest, fun row hrow _ ↦ hindex row hrow⟩
  have hok : append p table = .ok (p.snapshot, table ++ [p.snapshot.toRow p.idempotencyKey
      ((lastRow p.snapshot.candidateId table).map (·.eventDigest))]) := by
    simp only [append, guard_eq_ok, bind_eq_ok, hencode, hretry, hinsert]
    refine ⟨by simp [hrequired], _, rfl, by simp [hthrough.2], by simp [hsequence], _, rfl, rfl⟩
  rw [appendOrKeep, hok]

private theorem encode_eq_ok {s : CandidateSnapshot} {state : WaveState} {reason : Option String}
    {n : Fin 4} (h : s.toSnapshotFields = snapshotFields state n reason) :
    s.encode = .ok s.encoded := by
  have hplain : ∀ n : Fin 4, (PyValue.int n).plain = .ok (.int n) := by decide
  have hgeneration : s.generation = ((1 : Fin 4) : Int) := congrArg SnapshotFields.generation h
  have hsequence : s.sequence = n := congrArg SnapshotFields.sequence h
  rw [CandidateSnapshot.encode, hgeneration, hsequence, hplain, hplain]
  rfl

/-- The rows of the three snapshots. -/
private def startedRow : CandidateRow := started.toRow "first" none

private def failedRow : CandidateRow := failed.toRow "second" (some startedRow.eventDigest)

private def restartedRow : CandidateRow := restarted.toRow "third" (some failedRow.eventDigest)

private def startedCall : Pending := ⟨started, 0, "first", 0⟩

private def failedCall : Pending := ⟨failed, 1, "second", 1⟩

/-- It expects two snapshots and has read one. -/
private def restartedCall : Pending := ⟨restarted, 2, "third", 1⟩

private theorem map_eventDigest : [startedRow, failedRow, restartedRow].map (·.eventDigest) =
    hexes.map digestOfHex := by
  have hfirst : startedRow.eventDigest =
      digestOfHex (Hash256.hexChars (eventText none .checkpointed 1 none)) :=
    eventDigest_eq rfl none
  have hsecond : failedRow.eventDigest = digestOfHex (Hash256.hexChars (eventText
      (some (Hash256.hexChars (eventText none .checkpointed 1 none))) .failed 2 (some "r"))) := by
    rw [failedRow, hfirst]
    exact eventDigest_eq rfl (some _)
  have hthird : restartedRow.eventDigest = digestOfHex (Hash256.hexChars (eventText
      (some (Hash256.hexChars (eventText
        (some (Hash256.hexChars (eventText none .checkpointed 1 none))) .failed 2 (some "r"))))
      .checkpointed 3 none)) := by
    rw [restartedRow, hsecond]
    exact eventDigest_eq rfl (some _)
  rw [List.map_cons, List.map_cons, List.map_singleton, hfirst, hsecond, hthird]
  rfl

private theorem nodup_eventDigest :
    ([startedRow, failedRow, restartedRow].map (·.eventDigest)).Nodup := by
  rw [map_eventDigest]
  exact nodup_hexes.map digestOfHex_injective

private theorem lastRow_concat (table : List CandidateRow) {row : CandidateRow} {id : String}
    (hid : ∀ old ∈ table ++ [row], old.candidateId = id)
    (hincreasing : (table ++ [row]).Pairwise fun old new ↦
      old.candidateSequence < new.candidateSequence) : lastRow id (table ++ [row]) = some row := by
  have hall : (table ++ [row]).filter (·.candidateId = id) = table ++ [row] :=
    List.filter_eq_self.mpr fun old hold ↦ decide_eq_true (hid old hold)
  rw [lastRow, hall, Rows.orderBy_eq_of_perm (List.Perm.refl _) hincreasing, List.getLast?_concat]

private theorem lastRow_started : lastRow "c" [startedRow] = some startedRow :=
  lastRow_concat [] (by simp [startedRow, started, CandidateSnapshot.toRow, snapshotFields])
    (List.pairwise_singleton _ _)

private theorem lastRow_failed : lastRow "c" [startedRow, failedRow] = some failedRow := by
  refine lastRow_concat [startedRow] ?_ ?_
  · simp [startedRow, failedRow, started, failed, CandidateSnapshot.toRow, snapshotFields]
  · simp [startedRow, failedRow, started, failed, CandidateSnapshot.toRow, snapshotFields]

private theorem append_started : appendOrKeep startedCall [] = [startedRow] :=
  append_eq_ok [] (by decide) (encode_eq_ok (n := 1) rfl) ⟨nofun, rfl⟩ rfl (by decide) nofun nofun

private theorem append_failed : appendOrKeep failedCall [startedRow] = [startedRow, failedRow] := by
  have hnodup := nodup_eventDigest
  have hlast : (lastRow failedCall.snapshot.candidateId [startedRow]).map (·.eventDigest) =
      some startedRow.eventDigest := by
    rw [show failedCall.snapshot.candidateId = "c" from rfl, lastRow_started]
    rfl
  have happend := append_eq_ok (p := failedCall) [startedRow] (by decide)
    (encode_eq_ok (n := 2) rfl) ?_ rfl (by decide) ?_ ?_
  · rw [happend, hlast]
    rfl
  · refine ⟨?_, ?_⟩
    · simp [startedRow, failedCall, CandidateSnapshot.toRow]
    · rw [lastSequence, show failedCall.snapshot.candidateId = "c" from rfl, lastRow_started]
      rfl
  · rw [hlast]
    intro row hrow
    rw [List.mem_singleton.mp hrow]
    simp only [List.map_cons, List.nodup_cons, List.mem_cons, not_or] at hnodup
    exact hnodup.1.1
  · intro row hrow
    rw [List.mem_singleton.mp hrow]
    exact fun h ↦ absurd h (by decide)

private theorem append_restarted : appendOrKeep restartedCall [startedRow, failedRow] =
    [startedRow, failedRow, restartedRow] := by
  have hnodup := nodup_eventDigest
  simp only [List.map_cons, List.nodup_cons, List.mem_cons, not_or] at hnodup
  have hlast : (lastRow restartedCall.snapshot.candidateId [startedRow, failedRow]).map
      (·.eventDigest) = some failedRow.eventDigest := by
    rw [show restartedCall.snapshot.candidateId = "c" from rfl, lastRow_failed]
    rfl
  have happend := append_eq_ok (p := restartedCall) [startedRow, failedRow] (by decide)
    (encode_eq_ok (n := 3) rfl) ?_ rfl (by decide) ?_ ?_
  · rw [happend, hlast]
    rfl
  · refine ⟨?_, ?_⟩
    · simp [startedRow, failedRow, restartedCall, CandidateSnapshot.toRow]
    · rw [lastSequence, show restartedCall.snapshot.candidateId = "c" from rfl, lastRow_failed]
      rfl
  · rw [hlast]
    intro row hrow
    rcases List.mem_cons.mp hrow with rfl | hrow
    · exact hnodup.1.2.1
    · rw [List.mem_singleton.mp hrow]
      exact hnodup.2.1.1
  · intro row hrow
    rcases List.mem_cons.mp hrow with rfl | hrow
    · exact fun h ↦ absurd h (by decide)
    · rw [List.mem_singleton.mp hrow]
      exact fun h ↦ absurd h (by decide)

set_option maxRecDepth 2000

private theorem fits_sample : started.Fits ∧ failed.Fits ∧ restarted.Fits :=
  ⟨fits_of_length rfl (by decide), fits_of_length rfl (by decide),
    fits_of_length rfl (by decide)⟩

private theorem prepares_started : Prepares [] startedCall := by
  refine .checkpoint ⟨"c", "w", "n", 1, digestOfHex zeros, digestOfHex zeros, digestOfHex zeros,
    "first"⟩ ?_
  simp only [Checkpoint.prepare, bind_eq_ok, pure_eq_ok, mapError_eq_ok]
  exact ⟨started, CandidateSnapshot.make_eq_ok.mpr rfl, rfl⟩

private theorem inOrder_started : InOrder startedCall [] := fun _ ↦ ⟨rfl, fits_sample.1⟩

private theorem verify_started : verify [startedRow] = .ok () := by
  rw [← append_started]
  exact verify_appendOrKeep rfl prepares_started.knows inOrder_started

private theorem latest_started : latest "c" [startedRow] = .ok (some started) := by
  have hdecode : decode startedRow = .ok started := by
    rw [startedRow, decode_toRow, if_pos fits_sample.1]
  have hlast : ([startedRow].filter (·.candidateId = "c")).getLast? = some startedRow := rfl
  simp only [latest, guard_eq_ok, hlast, bind_eq_ok, pure_eq_ok, mapError_eq_ok, verify_started,
    hdecode]
  exact ⟨by decide, (), trivial, _, rfl, rfl⟩

/-- A transition of the started candidate, checked against its first snapshot. -/
private theorem prepares_transition {t : Transition} {p : Pending} (hid : t.candidateId = "c")
    (hkey : t.retried [] = .ok none) (h : t.advance started = .ok p) :
    Prepares [startedRow] p := by
  refine .transition t [] (List.nil_prefix) hkey ?_
  rw [Transition.prepare, hid, latest_started]
  exact h

private theorem prepares_failed : Prepares [startedRow] failedCall := by
  refine prepares_transition (t := ⟨"c", 1, .failed, "second", none, none, some "r"⟩) rfl rfl ?_
  simp only [Transition.advance, guard_eq_ok, bind_eq_ok, pure_eq_ok, mapError_eq_ok]
  exact ⟨by decide, by decide, by decide, by decide, failed, CandidateSnapshot.make_eq_ok.mpr rfl, rfl⟩

private theorem prepares_restarted : Prepares [startedRow] restartedCall := by
  refine prepares_transition (t := ⟨"c", 2, .checkpointed, "third", none, none, none⟩) rfl rfl ?_
  simp only [Transition.advance, guard_eq_ok, bind_eq_ok, pure_eq_ok, mapError_eq_ok]
  exact ⟨by decide, by decide, by decide, by decide, restarted, CandidateSnapshot.make_eq_ok.mpr rfl,
    rfl⟩

/-- A started candidate stays verified. -/
theorem started_verified :
    verify (appendOrKeep startedCall []) = .ok () ∧
      ∀ id, ∃ history, ((appendOrKeep startedCall []).filter (·.candidateId = id)).mapM decode =
        .ok history ∧ candidates.Legal history ∧ history.Pairwise CandidateSnapshot.Keeps :=
  histories_legal (c := ⟨appendOrKeep startedCall [], []⟩)
    (.tail (.single (.read startedCall prepares_started))
      (.commit [] [] startedCall ⟨inOrder_started, rfl⟩))

/-- A call that expects two snapshots and has read one is appended after a failure. -/
theorem anticipated_transition_unverified :
    ¬∀ c : TwoPhase.System (List CandidateRow) Pending,
      TwoPhase.Reaches (handles fun _ _ ↦ True) [] c → verify c.shared = .ok () := by
  intro hclaim
  have hreaches : TwoPhase.Reaches (handles fun _ _ ↦ True) []
      ⟨[startedRow, failedRow, restartedRow], []⟩ := by
    refine .tail (.tail (.tail (.tail (.tail (.single (.read startedCall prepares_started))
      (.commit [] [] startedCall ⟨trivial, append_started.symm⟩))
      (.read restartedCall prepares_restarted)) (.read failedCall prepares_failed))
      (.commit [] [restartedCall] failedCall ⟨trivial, append_failed.symm⟩)) ?_
    exact .commit [] [] restartedCall ⟨trivial, append_restarted.symm⟩
  obtain ⟨history, hread, -, hkeeps⟩ := mapM_decode_of_verify (hclaim _ hreaches) "c"
  have hdecode : ([startedRow, failedRow, restartedRow].filter (·.candidateId = "c")).mapM decode =
      .ok [started, failed, restarted] := by
    have hfilter : [startedRow, failedRow, restartedRow].filter (·.candidateId = "c") =
        [startedRow, failedRow, restartedRow] := rfl
    rw [hfilter, startedRow, failedRow, restartedRow]
    simp only [List.mapM_cons, List.mapM_nil, decode_toRow, if_pos fits_sample.1,
      if_pos fits_sample.2.1, if_pos fits_sample.2.2]
    rfl
  obtain rfl := Except.ok.inj (hdecode.symm.trans hread)
  -- the third snapshot leaves the state in which the candidate has failed
  have hterminal := (List.pairwise_cons.mp (List.pairwise_cons.mp hkeeps).2).1 restarted
    (List.mem_singleton_self _)
  exact absurd (hterminal.terminal rfl) (by decide)

end HiveMind.Candidates
