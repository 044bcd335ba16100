import HiveMind.Integration.Transactions
import HiveMind.Lib.Dicts
import HiveMind.Lib.Histories

/-!
# The journal of integrations

The journal is a table of transactions that only grows. The events of one transaction are a hash
chain, each round has one transaction, and nothing is read before all of this is verified. An event
is appended by a database transaction of its own: a key that is bound to an event gives that event
back if it is the same one, and every other append has to be the next event of its transaction.

* **`append_eq_ok`**: what an append returns and leaves behind.
* **`verify_concat`**: the event that follows the last one of its transaction keeps the journal
  verified, if it is not too long to be read back.
-/

open Raise Dicts HiveMind.Runtime Histories

namespace HiveMind.Integration

/-! ## Rows -/

/-- A row of `integration_events`. The global sequence number is the position in the table. -/
structure EventRow where
  transactionId : String
  transactionSequence : Int
  roundId : String
  idempotencyKey : String
  payloadJson : String
  previousDigest : Option String
  eventDigest : String
  deriving DecidableEq

/-- The tables of the journal. A preparation is kept under the id of its transaction. -/
structure Journal where
  events : List EventRow
  preparations : List (String × String)
  deriving DecidableEq

/-- What a caller of the journal can be told. -/
inductive JournalError where
  | valueError (message : String)
  | integration (error : IntegrationError)
  | encoding (error : Exc)
  | integrity (message : String)
  | overflow
  deriving DecidableEq, Repr

/-- Code of the journal, which keeps what was written when it raises. -/
abbrev JournalM (α : Type) := EStateM JournalError Journal α

/-- `_decode`. -/
def decode (row : EventRow) : Except IntegrationError IntegrationTransaction :=
  match strictJsonObject row.payloadJson with
  | .error _ => .error ⟨"integration journal contains invalid JSON"⟩
  | .ok d =>
    match IntegrationTransaction.fromDocument d with
    | .error e => .error e
    | .ok t =>
      if t.transactionId ≠ row.transactionId ∨ t.roundId ≠ row.roundId ∨
          t.sequence ≠ row.transactionSequence then
        .error ⟨"integration journal index disagrees with payload"⟩
      else .ok t

/-- The payload is one that the decoder takes. -/
def IntegrationTransaction.Fits (t : IntegrationTransaction) : Prop :=
  t.encoded.utf8ByteSize ≤ maximumJsonBytes

instance (t : IntegrationTransaction) : Decidable t.Fits := inferInstanceAs (Decidable (_ ≤ _))

section Digests

variable [Hash256]

/-- The digest of an event, over the digest of the event before it. -/
def eventDigest (previous : Option String) (t : IntegrationTransaction) : String :=
  jsonDigest (.obj [("previous_digest", Runtime.optionalText previous), ("transaction", t.toJson)])

def IntegrationTransaction.toRow (t : IntegrationTransaction) (idempotencyKey : String)
    (previous : Option String) : EventRow :=
  ⟨t.transactionId, t.sequence, t.roundId, idempotencyKey, t.encoded, previous,
    eventDigest previous t⟩

/-- A transaction may follow another one. -/
structure IntegrationTransaction.Follows (t t' : IntegrationTransaction) : Prop where
  state : t'.state ∈ t.state.next
  intent : t'.intentDigest = t.intentDigest

/-- How rows are read, and which transactions follow one another. -/
def transactions : Kind EventRow IntegrationTransaction where
  read row := (decode row).toOption
  position := (·.transactionSequence)
  digest := (·.eventDigest)
  sequence := (·.sequence)
  starts t := t.state = .prepared
  follows := IntegrationTransaction.Follows

/-! ## Verification -/

/-- The checks of the first event of a transaction. -/
def checkFirst (preparations : List (String × String)) (t : IntegrationTransaction) :
    Except IntegrationError Unit := do
  if t.state ≠ .prepared then
    throw ⟨"integration history must begin at PREPARED"⟩
  if preparations.lookup t.transactionId ≠ some t.digest then
    throw ⟨"prepared integration lacks a matching journal preparation receipt"⟩
  return

/-- The checks of an event against the one before it. -/
def checkSuccessor (prior t : IntegrationTransaction) : Except IntegrationError Unit := do
  if t.state ∉ prior.state.next then
    throw ⟨"integration history contains an invalid transition"⟩
  if t.intentDigest ≠ prior.intentDigest then
    throw ⟨"integration history changed its immutable intent"⟩
  return

/-- One event of a transaction, against the events before it. -/
def checkRow (preparations : List (String × String))
    (seen : Option (Seen IntegrationTransaction)) (row : EventRow) :
    Except IntegrationError (Option (Seen IntegrationTransaction)) := do
  let t ← decode row
  if t.sequence ≠ (seen.map (·.sequence)).getD 1 then
    throw ⟨"integration sequence is discontinuous"⟩
  if row.previousDigest ≠ seen.map (·.digest) then
    throw ⟨"integration hash chain is broken"⟩
  if row.payloadJson ≠ t.encoded then
    throw ⟨"integration payload is not canonical"⟩
  if row.eventDigest ≠ eventDigest (seen.map (·.digest)) t then
    throw ⟨"integration event digest is invalid"⟩
  match seen with
  | none => checkFirst preparations t
  | some prior => checkSuccessor prior.snapshot t
  return some ⟨row.eventDigest, t.sequence + 1, t⟩

/-- What `_verify_snapshot` keeps: the transaction of each round, and what was seen of each
transaction. -/
structure Scan where
  rounds : List (String × String)
  seen : String → Option (Seen IntegrationTransaction)

/-- The body of the loop of `_verify_snapshot`. -/
def scanRow (preparations : List (String × String)) (scan : Scan) (row : EventRow) :
    Except IntegrationError Scan := do
  let t ← decode row
  let owner := (scan.rounds.lookup t.roundId).getD t.transactionId
  if owner ≠ t.transactionId then
    throw ⟨"round has competing integration transactions"⟩
  let seen ← checkRow preparations (scan.seen t.transactionId) row
  return ⟨setItem t.roundId owner scan.rounds, Function.update scan.seen t.transactionId seen⟩

/-- `verify`. -/
def verify (journal : Journal) : Except IntegrationError Unit := do
  let _ ← journal.events.foldlM (scanRow journal.preparations) ⟨[], fun _ ↦ none⟩

/-- The rows of a transaction. -/
def Journal.rowsOf (journal : Journal) (transactionId : String) : List EventRow :=
  journal.events.filter (·.transactionId = transactionId)

/-- `latest`. -/
def latest (transactionId : String) (journal : Journal) :
    Except JournalError (Option IntegrationTransaction) := do
  if isRequired transactionId = false then
    throw (.valueError "transaction_id is required")
  match (journal.rowsOf transactionId).getLast? with
  | none => return none
  | some row =>
    (verify journal).mapError .integration
    return some (← (decode row).mapError .integration)

/-! ## Appending -/

/-- `SELECT … WHERE transaction_id=? ORDER BY transaction_sequence DESC LIMIT 1`. -/
def Journal.lastRow (journal : Journal) (transactionId : String) : Option EventRow :=
  (Rows.orderBy (·.transactionSequence) (journal.rowsOf transactionId)).getLast?

/-- The `INSERT` into `integration_preparations`. -/
def insertPreparation (t : IntegrationTransaction) : JournalM Unit := do
  let journal ← get
  if (journal.preparations.lookup t.transactionId).isSome then
    throw (.integrity "UNIQUE constraint failed: integration_preparations.transaction_id")
  if journal.preparations.any (·.2 == t.digest) then
    throw (.integrity
      "UNIQUE constraint failed: integration_preparations.prepared_transaction_digest")
  set { journal with preparations := journal.preparations ++ [(t.transactionId, t.digest)] }

omit [Hash256] in
/-- The `INSERT` into `integration_events`. -/
def insertEvent (row : EventRow) : JournalM Unit := do
  let journal ← get
  if (2 : Int) ^ 63 ≤ row.transactionSequence then
    throw .overflow
  if journal.events.any (·.eventDigest == row.eventDigest) then
    throw (.integrity "UNIQUE constraint failed: integration_events.event_digest")
  if journal.events.any fun old ↦ old.transactionId == row.transactionId &&
      old.transactionSequence == row.transactionSequence then
    throw (.integrity ("UNIQUE constraint failed: integration_events.transaction_id, " ++
      "integration_events.transaction_sequence"))
  set { journal with events := journal.events ++ [row] }

/-- The first event of a transaction. -/
def appendFirst (t : IntegrationTransaction) (idempotencyKey : String) :
    JournalM (IntegrationTransaction × Bool) := do
  if t.sequence ≠ 1 then
    throw (.integration ⟨"integration compare-and-swap sequence failed"⟩)
  if t.state ≠ .prepared then
    throw (.integration ⟨"integration must begin in PREPARED"⟩)
  insertPreparation t
  insertEvent (t.toRow idempotencyKey none)
  return (t, true)

/-- An event after the one in the last row of its transaction. -/
def appendNext (t : IntegrationTransaction) (idempotencyKey : String) (last : EventRow) :
    JournalM (IntegrationTransaction × Bool) := do
  if t.sequence ≠ last.transactionSequence + 1 then
    throw (.integration ⟨"integration compare-and-swap sequence failed"⟩)
  let previous ← Raise.lift ((decode last).mapError .integration)
  if t.state ∉ previous.state.next then
    throw (.integration ⟨"invalid integration state transition"⟩)
  if t.intentDigest ≠ previous.intentDigest then
    throw (.integration ⟨"integration intent is immutable"⟩)
  insertEvent (t.toRow idempotencyKey (some last.eventDigest))
  return (t, true)

/-- A preparation of a transaction that has events. -/
def adoptPrepared (t : IntegrationTransaction) (last : EventRow) :
    JournalM (IntegrationTransaction × Bool) := do
  let existing ← Raise.lift ((decode last).mapError .integration)
  if existing.intentDigest ≠ t.intentDigest then
    throw (.integration ⟨"transaction id is bound to another integration intent"⟩)
  return (existing, false)

/-- The statements of `_append_coordinator_event_with_ownership`, between `BEGIN` and `COMMIT`. -/
def appendEvent (t : IntegrationTransaction) (idempotencyKey encoded : String) :
    JournalM (IntegrationTransaction × Bool) := do
  let journal ← get
  match journal.events.find? (·.idempotencyKey == idempotencyKey) with
  | some retry =>
    if retry.payloadJson ≠ encoded then
      throw (.integration ⟨"idempotency key is bound to another integration event"⟩)
    return (← Raise.lift ((decode retry).mapError .integration), false)
  | none =>
    if (journal.events.find? (·.roundId == t.roundId)).any (·.transactionId ≠ t.transactionId) then
      throw (.integration ⟨"round already has an integration transaction"⟩)
    match journal.lastRow t.transactionId with
    | none => appendFirst t idempotencyKey
    | some last =>
      if t.state = .prepared ∧ t.sequence = 1 then adoptPrepared t last
      else appendNext t idempotencyKey last

/-- `_append_coordinator_event_with_ownership`. -/
def appendWithOwnership (t : IntegrationTransaction) (idempotencyKey : String) :
    JournalM (IntegrationTransaction × Bool) := do
  if isRequired idempotencyKey = false then
    throw (.valueError "idempotency_key is required")
  let encoded ← Raise.lift (t.encode.mapError .encoding)
  transaction (appendEvent t idempotencyKey encoded)

/-- `_append_coordinator_event`. -/
def append (t : IntegrationTransaction) (idempotencyKey : String) :
    JournalM IntegrationTransaction := do
  let result ← appendWithOwnership t idempotencyKey
  return result.1

/-! ## Rows read back -/

variable {journal : Journal} {row : EventRow} {t : IntegrationTransaction}
  {seen seen' : Option (Seen IntegrationTransaction)}

theorem decode_toRow (t : IntegrationTransaction) (key : String) (previous : Option String) :
    decode (t.toRow key previous) =
      if t.Fits then .ok t else .error ⟨"integration journal contains invalid JSON"⟩ := by
  have hread : strictJsonObject (t.toRow key previous).payloadJson =
      if t.Fits then .ok t.toDict else .error ⟨"JSON input is empty or exceeds the byte limit"⟩ :=
    strictJsonObject_dumps t.sorted_toJson t.jsonDepth_toJson_le
  by_cases hfits : t.Fits
  · rw [if_pos hfits] at hread ⊢
    simp only [decode, hread, IntegrationTransaction.fromDocument_toDict]
    simp [IntegrationTransaction.toRow]
  · rw [if_neg hfits] at hread ⊢
    simp only [decode, hread]

omit [Hash256] in
/-- The index columns of a row are those of its payload. -/
theorem index_of_decode (h : decode row = .ok t) : t.transactionId = row.transactionId ∧
    t.roundId = row.roundId ∧ t.sequence = row.transactionSequence := by
  rw [decode] at h
  rcases hjson : strictJsonObject row.payloadJson with e | d
  · rw [hjson] at h
    exact nomatch h
  rw [hjson] at h
  dsimp only at h
  rcases hdocument : IntegrationTransaction.fromDocument d with e | t'
  · rw [hdocument] at h
    exact nomatch h
  rw [hdocument] at h
  dsimp only at h
  split at h
  · exact nomatch h
  · next hindex =>
    rw [← Except.ok.inj h]
    simpa only [not_or, not_not] using hindex

/-! ## The checks of a row -/

variable {preparations : List (String × String)}

theorem checkFirst_eq_ok {u : Unit} : checkFirst preparations t = .ok u ↔
    t.state = .prepared ∧ preparations.lookup t.transactionId = some t.digest := by
  simp only [checkFirst, guard_eq_ok, pure_eq_ok, not_not, and_true]

theorem checkSuccessor_eq_ok {prior : IntegrationTransaction} {u : Unit} :
    checkSuccessor prior t = .ok u ↔ prior.Follows t := by
  simp only [checkSuccessor, guard_eq_ok, pure_eq_ok, not_not, and_true]
  exact ⟨fun ⟨hstate, hintent⟩ ↦ ⟨hstate, hintent⟩, fun h ↦ ⟨h.state, h.intent⟩⟩

/-- A row passes exactly if it is the row of a transaction that may come next. -/
theorem checkRow_eq_ok : checkRow preparations seen row = .ok seen' ↔ ∃ t, decode row = .ok t ∧
    t.sequence = (seen.map (·.sequence)).getD 1 ∧ row.previousDigest = seen.map (·.digest) ∧
    row.payloadJson = t.encoded ∧ row.eventDigest = eventDigest (seen.map (·.digest)) t ∧
    (seen = none → t.state = .prepared ∧ preparations.lookup t.transactionId = some t.digest) ∧
    (∀ prior ∈ seen, prior.snapshot.Follows t) ∧ seen' = some (transactions.seen row t) := by
  rw [checkRow, bind_eq_ok]
  refine exists_congr fun t ↦ and_congr_right fun _ ↦ ?_
  simp only [guard_eq_ok, not_not]
  rcases seen with _ | prior
  · simp only [bind_eq_ok, checkFirst_eq_ok, pure_eq_ok]
    simp [transactions, Kind.seen]
  · simp only [bind_eq_ok, checkSuccessor_eq_ok, pure_eq_ok, Option.mem_some_iff, forall_eq']
    simp [transactions, Kind.seen]

theorem accepts_of_checkRow (h : checkRow preparations seen row = .ok seen') :
    ∃ t, transactions.Accepts seen row t ∧ seen' = some (transactions.seen row t) := by
  obtain ⟨t, hdecode, hsequence, -, -, -, hstarts, hfollows, rfl⟩ := checkRow_eq_ok.mp h
  have hread : transactions.read row = some t := by
    change (decode row).toOption = some t
    rw [hdecode]
    rfl
  exact ⟨t, ⟨hread, (index_of_decode hdecode).2.2.symm, hsequence, fun hnone ↦ (hstarts hnone).1,
    hfollows⟩, rfl⟩

/-- What the loop of `_verify_snapshot` has made sure of. -/
structure Scanned (preparations : List (String × String)) (rows : List EventRow) (scan : Scan) :
    Prop where
  seen : ∀ id, (rows.filter (·.transactionId = id)).foldlM (checkRow preparations) none =
    .ok (scan.seen id)
  owner : ∀ row ∈ rows, scan.rounds.lookup row.roundId = some row.transactionId
  round : ∀ round owner, scan.rounds.lookup round = some owner →
    ∃ row ∈ rows, row.roundId = round ∧ row.transactionId = owner

theorem Scanned.concat {rows : List EventRow} {scan scan' : Scan}
    (h : Scanned preparations rows scan) (hrow : scanRow preparations scan row = .ok scan') :
    Scanned preparations (rows ++ [row]) scan' := by
  simp only [scanRow, bind_eq_ok, guard_eq_ok, pure_eq_ok, not_not] at hrow
  obtain ⟨t, hdecode, howner, seen', hseen, rfl⟩ := hrow
  obtain ⟨hid, hround, -⟩ := index_of_decode hdecode
  rw [hid] at howner hseen
  rw [hid, howner, hround]
  refine ⟨fun id ↦ ?_, ?_, ?_⟩
  · dsimp only
    rw [List.filter_append]
    by_cases hkey : row.transactionId = id
    · subst hkey
      rw [List.filter_cons_of_pos (by simp), List.filter_nil, Function.update_self]
      exact Trace.foldlM_concat_eq_ok.mpr ⟨_, h.seen _, hseen⟩
    · rw [List.filter_cons_of_neg (by simpa using hkey), List.filter_nil, List.append_nil,
        Function.update_of_ne (Ne.symm hkey)]
      exact h.seen id
  · intro old hold
    dsimp only
    rw [lookup_setItem]
    rcases List.mem_append.mp hold with hold | hold
    · split
      · next heq =>
        rw [hround, heq.symm, h.owner old hold] at howner
        rw [← howner]
        rfl
      · exact h.owner old hold
    · rw [List.mem_singleton.mp hold, if_pos rfl]
  · intro round owner hlookup
    dsimp only at hlookup
    rw [lookup_setItem] at hlookup
    split at hlookup
    · next heq =>
      exact ⟨row, List.mem_append_right _ (List.mem_singleton_self row), heq.symm,
        Option.some.inj hlookup⟩
    · obtain ⟨old, hold, hsame⟩ := h.round round owner hlookup
      exact ⟨old, List.mem_append_left _ hold, hsame⟩

theorem verify_eq_ok {u : Unit} : verify journal = .ok u ↔ ∃ scan,
    journal.events.foldlM (scanRow journal.preparations) ⟨[], fun _ ↦ none⟩ = .ok scan := by
  simp only [verify, bind_eq_ok, pure_eq_ok, and_true]

theorem scanned_of_foldlM {rows : List EventRow} {scan : Scan}
    (h : rows.foldlM (scanRow preparations) ⟨[], fun _ ↦ none⟩ = .ok scan) :
    Scanned preparations rows scan :=
  Trace.history_invariant (Scanned preparations)
    ⟨fun _ ↦ rfl, fun _ h ↦ (nomatch h), fun _ _ h ↦ (Option.some_ne_none _ h.symm).elim⟩
    (fun _ _ _ _ hscanned hrow ↦ hscanned.concat hrow) h

/-- The rows of a transaction in a verified journal are a history. -/
theorem Scanned.exists_history {rows : List EventRow} {scan : Scan}
    (h : Scanned preparations rows scan) (id : String) :
    ∃ entries, entries.map Prod.fst = rows.filter (·.transactionId = id) ∧
      transactions.SeenOf entries (scan.seen id) :=
  Kind.exists_seenOf (fun _ _ _ hcheck ↦ accepts_of_checkRow hcheck) (h.seen id)

/-- The last row of a transaction, by its number, is the last one in the table. -/
theorem Scanned.lastRow_eq {rows : List EventRow} {scan : Scan} {preparations' : List (String × String)}
    (h : Scanned preparations rows scan) (id : String) :
    Journal.lastRow ⟨rows, preparations'⟩ id = (rows.filter (·.transactionId = id)).getLast? := by
  obtain ⟨entries, hrows, hseen⟩ := h.exists_history id
  rw [Journal.lastRow, Journal.rowsOf, ← hrows]
  exact congrArg List.getLast? hseen.orderBy_eq

/-- The event that follows the last one of its transaction keeps the journal verified. -/
theorem verify_concat {last : EventRow} {previous : IntegrationTransaction} {key : String}
    (h : verify journal = .ok ()) (hfits : t.Fits)
    (hround : ∀ owner, journal.events.find? (·.roundId == t.roundId) = some owner →
      owner.transactionId = t.transactionId)
    (hlast : journal.lastRow t.transactionId = some last) (hdecode : decode last = .ok previous)
    (hsequence : t.sequence = last.transactionSequence + 1) (hfollows : previous.Follows t) :
    verify { journal with events := journal.events ++ [t.toRow key (some last.eventDigest)] } =
      .ok () := by
  obtain ⟨scan, hscan⟩ := verify_eq_ok.mp h
  have hscanned := scanned_of_foldlM hscan
  obtain ⟨entries, hrows, hseen⟩ := hscanned.exists_history t.transactionId
  rw [show journal = ⟨journal.events, journal.preparations⟩ from rfl, hscanned.lastRow_eq,
    ← hrows, List.getLast?_map] at hlast
  obtain ⟨entry, hentry, rfl⟩ := Option.map_eq_some_iff.mp hlast
  have hprevious : entry.2 = previous := by
    have hread := (hseen.reads entry (List.mem_of_getLast? hentry)).1
    rw [show transactions.read entry.1 = (decode entry.1).toOption from rfl, hdecode] at hread
    exact (Option.some.inj hread).symm
  have hkept : scan.seen t.transactionId = some (transactions.seen entry.1 previous) := by
    rw [hseen.last, hentry, ← hprevious]
    rfl
  have howner : (scan.rounds.lookup t.roundId).getD t.transactionId = t.transactionId := by
    rcases hlookup : scan.rounds.lookup t.roundId with _ | owner
    · rfl
    -- the first row of the round has the transaction that the round belongs to
    obtain ⟨row, hrow, hsame, hid⟩ := hscanned.round _ _ hlookup
    obtain ⟨first, hfirst⟩ : ∃ first, journal.events.find? (·.roundId == t.roundId) = some first :=
      Option.isSome_iff_exists.mp (List.find?_isSome.mpr ⟨row, hrow, beq_iff_eq.mpr hsame⟩)
    have hfound := hscanned.owner first (List.mem_of_find?_eq_some hfirst)
    have hfirstRound : first.roundId = t.roundId := by simpa using List.find?_some hfirst
    rw [hfirstRound, hlookup] at hfound
    rw [Option.getD_some, Option.some.inj hfound]
    exact hround first hfirst
  have hdecoded : decode (t.toRow key (some entry.1.eventDigest)) = .ok t := by
    rw [decode_toRow, if_pos hfits]
  have hcheck : checkRow journal.preparations (scan.seen t.transactionId)
      (t.toRow key (some entry.1.eventDigest)) =
        .ok (some (transactions.seen (t.toRow key (some entry.1.eventDigest)) t)) := by
    rw [hkept]
    refine checkRow_eq_ok.mpr ⟨t, hdecoded, ?_, rfl, rfl, rfl, nofun, ?_, rfl⟩
    · rw [hsequence, ← (index_of_decode hdecode).2.2]
      rfl
    · rintro _ ⟨⟩
      exact hfollows
  have hnext : ∃ scan', scanRow journal.preparations scan
      (t.toRow key (some entry.1.eventDigest)) = .ok scan' := by
    simp only [scanRow, bind_eq_ok, guard_eq_ok, pure_eq_ok, not_not]
    exact ⟨_, t, hdecoded, howner, _, hcheck, rfl⟩
  obtain ⟨scan', hscan'⟩ := hnext
  exact verify_eq_ok.mpr ⟨scan', Trace.foldlM_concat_eq_ok.mpr ⟨scan, hscan, hscan'⟩⟩

/-! ## What an append does -/

omit [Hash256] in
theorem insertEvent_eq_ok {journal' : Journal} {u : Unit} :
    insertEvent row journal = .ok u journal' →
      journal' = { journal with events := journal.events ++ [row] } := by
  intro h
  simp only [insertEvent, run_bind_eq_ok] at h
  obtain ⟨_, _, hget, h⟩ := h
  obtain ⟨rfl, rfl⟩ := run_get_eq_ok.mp hget
  simp only [run_guard_eq_ok, run_set_eq_ok] at h
  exact h.2.2.2

/-- An append that raises changes nothing. -/
theorem atomic_append (t : IntegrationTransaction) (key : String) : Atomic (append t key) := by
  refine atomic_bind_pure ?_
  refine atomic_guard ?_
  exact atomic_bind (atomic_lift _) (reads_lift _) fun _ ↦ atomic_transaction _

/-- What an event has to be to be the next one of its transaction. -/
structure Continues (journal : Journal) (t : IntegrationTransaction) (last : EventRow) : Prop where
  round : ∀ owner, journal.events.find? (·.roundId == t.roundId) = some owner →
    owner.transactionId = t.transactionId
  lastRow : journal.lastRow t.transactionId = some last
  sequence : t.sequence = last.transactionSequence + 1
  follows : ∃ previous, decode last = .ok previous ∧ previous.Follows t

/-- An event that is no preparation is found under its key, or it is appended. -/
theorem of_append {key : String} {result : IntegrationTransaction} {journal' : Journal}
    (hsequence : t.sequence ≠ 1) (h : append t key journal = .ok result journal') :
    (∃ retry ∈ journal.events, retry.payloadJson = t.encoded ∧ decode retry = .ok result ∧
      journal' = journal) ∨
    (∀ row ∈ journal.events, row.idempotencyKey ≠ key) ∧ result = t ∧ ∃ last,
      Continues journal t last ∧
      journal' = { journal with
        events := journal.events ++ [t.toRow key (some last.eventDigest)] } := by
  simp only [append, appendWithOwnership, run_bind_eq_ok, run_guard_eq_ok, run_lift_eq_ok,
    run_pure_eq_ok, transaction_eq_ok, mapError_eq_ok] at h
  obtain ⟨⟨result', owned⟩, after, ⟨-, encoded, start, ⟨hencode, rfl⟩, hevent⟩, rfl, rfl⟩ := h
  have hencoded : encoded = t.encoded := by
    simp only [IntegrationTransaction.encode, bind_eq_ok, pure_eq_ok] at hencode
    obtain ⟨_, -, rfl⟩ := hencode
    rfl
  rw [appendEvent, run_bind_of_ok (run_get_eq_ok.mpr ⟨rfl, rfl⟩)] at hevent
  rcases hretry : journal.events.find? (·.idempotencyKey == key) with _ | retry
  · simp only [hretry, run_guard_eq_ok] at hevent
    obtain ⟨hround, hevent⟩ := hevent
    have hkey : ∀ row ∈ journal.events, row.idempotencyKey ≠ key := fun row hrow heq ↦
      List.find?_eq_none.mp hretry row hrow (beq_iff_eq.mpr heq)
    rcases hlast : journal.lastRow t.transactionId with _ | last
    · simp only [hlast, appendFirst, run_guard_eq_ok] at hevent
      exact absurd (not_not.mp hevent.1) hsequence
    simp only [hlast, if_neg fun h : t.state = .prepared ∧ t.sequence = 1 ↦ hsequence h.2,
      appendNext, run_guard_eq_ok, run_bind_eq_ok, run_lift_eq_ok, run_pure_eq_ok, mapError_eq_ok,
      not_not, Prod.mk.injEq] at hevent
    obtain ⟨hnext, previous, _, ⟨hdecode, rfl⟩, hstate, hintent, _, _, hinsert, ⟨rfl, -⟩, rfl⟩ :=
      hevent
    refine .inr ⟨hkey, rfl, last, ⟨fun owner howner ↦ ?_, hlast, hnext, previous, hdecode, hstate,
      hintent⟩, insertEvent_eq_ok hinsert⟩
    simpa [howner] using hround
  · simp only [hretry, run_guard_eq_ok, run_bind_eq_ok, run_lift_eq_ok, run_pure_eq_ok,
      mapError_eq_ok, not_not, Prod.mk.injEq] at hevent
    obtain ⟨hpayload, _, _, ⟨hdecode, rfl⟩, ⟨rfl, -⟩, rfl⟩ := hevent
    exact .inl ⟨retry, List.mem_of_find?_eq_some hretry, hpayload.trans hencoded, hdecode, rfl⟩

end Digests

end HiveMind.Integration
