import HiveMind.Lib.HashChain
import HiveMind.Lib.JsonAscii
import HiveMind.Lib.Trace
import HiveMind.Kernel.Canonical

/-!
# The evidence ledger

The rows of the ledger are a hash chain. Reading the ledger checks the chain, and opening it fills
in the digests of rows from before there were any. The second of these does not look at the digests
that are there: as soon as one is missing it computes all of them anew, and a row that did not match
its digest matches from then on.

* **`events_openLedger`**: when reading an opened ledger finds the chain broken.
* **`ledger_detects_tampering_iff`**: exactly which tampered ledgers are found out, and that a
  ledger that is only appended to reads the same however often it is opened.
-/

open Raise

namespace HiveMind.Evidence

/-! ## Rows -/

/-- What a caller of the ledger can be told. `malformedPayload` is what the JSON decoder raises, and
`overflow` what the database driver raises for a number of more than 64 bits. -/
inductive LedgerError where
  | integrity (message : String)
  | malformedPayload
  | overflow
  deriving DecidableEq, Repr

/-- A row of `events`. -/
structure LedgerRow where
  sequence : Int
  runId : String
  eventType : String
  actor : String
  payload : String
  createdAt : String
  prevDigest : Option String
  rowDigest : Option String
  deriving DecidableEq

/-- Both digests are there. -/
def LedgerRow.isChained (row : LedgerRow) : Bool := row.prevDigest.isSome && row.rowDigest.isSome

/-- The table, in the order of its primary key. -/
structure EventTable where
  rows : List LedgerRow
  increasing : (rows.map (·.sequence)).Pairwise (· < ·)

section Digests

variable [Hash256]

/-- `_event_digest`. -/
def eventDigest (row : LedgerRow) (previous : String) : String :=
  jsonDigest (.arr [.int row.sequence, .str row.runId, .str row.eventType, .str row.actor,
    .str row.payload, .str row.createdAt, .str previous])

/-! ## Opening -/

/-- The digests of all rows computed anew, the first one after `previous`. -/
def rechain : String → List LedgerRow → List LedgerRow
  | _, [] => []
  | previous, row :: rows =>
    let digest := eventDigest row previous
    { row with prevDigest := some previous, rowDigest := some digest } :: rechain digest rows

/-- `_migrate_event_chain`. -/
def migrateEventChain (rows : List LedgerRow) : List LedgerRow :=
  if rows.all (·.isChained) then rows else rechain "" rows

theorem map_sequence_rechain (previous : String) (rows : List LedgerRow) :
    (rechain previous rows).map (·.sequence) = rows.map (·.sequence) := by
  induction rows generalizing previous with
  | nil => rfl
  | cons row rows ih => rw [rechain, List.map_cons, List.map_cons, ih]

theorem map_sequence_migrateEventChain (rows : List LedgerRow) :
    (migrateEventChain rows).map (·.sequence) = rows.map (·.sequence) := by
  rw [migrateEventChain]
  split
  · rfl
  · exact map_sequence_rechain "" rows

/-- `EvidenceLedger(path)`, as far as the events go. -/
def openLedger (table : EventTable) : EventTable where
  rows := migrateEventChain table.rows
  increasing := by
    rw [map_sequence_migrateEventChain]
    exact table.increasing

/-! ## Reading -/

/-- One row of `_validate_event_chain`, after a row with the digest `previous`. -/
def validateRow (previous : String) (row : LedgerRow) : Except LedgerError String :=
  match row.rowDigest with
  | none => .error (.integrity "ledger event chain is malformed")
  | some digest =>
    if row.prevDigest ≠ some previous then
      .error (.integrity "ledger event chain is malformed")
    else if digest ≠ eventDigest row previous then
      .error (.integrity "ledger event chain digest mismatch")
    else .ok digest

/-- `_validate_event_chain`. -/
def validateEventChain (rows : List LedgerRow) : Except LedgerError String :=
  rows.foldlM validateRow ""

/-- A row with its payload decoded. -/
def readRow (row : LedgerRow) : Except LedgerError (LedgerRow × Json) :=
  match Json.loads row.payload with
  | none => throw .malformedPayload
  | some payload => return (row, payload)

/-- `events`, of one run or of all. -/
def events (runId : Option String) (table : EventTable) :
    Except LedgerError (List (LedgerRow × Json)) := do
  let _ ← validateEventChain table.rows
  (table.rows.filter fun row ↦ runId.all (row.runId == ·)).mapM readRow

/-! ## Appending -/

/-- The largest number the database holds. -/
def maxSequence : Int := 2 ^ 63 - 1

/-- The sequence number after the ones in use. -/
def nextSequence (rows : List LedgerRow) : Int :=
  match rows.getLast? with
  | none => 1
  | some last => last.sequence + 1

/-- The arguments of `append_event`, with the time that it reads. The payload is a dict at every
depth. -/
structure AppendArgs where
  runId : String
  eventType : String
  actor : String
  payload : Json
  payload_sorted : payload.Sorted
  createdAt : String

/-- The row that `append_event` inserts. -/
def newRow (args : AppendArgs) (sequence : Int) (previous : String) : LedgerRow :=
  let row : LedgerRow := ⟨sequence, args.runId, args.eventType, args.actor,
    args.payload.dumpsAscii, args.createdAt, some previous, none⟩
  { row with rowDigest := some (eventDigest row previous) }

omit [Hash256] in
theorem nextSequence_increasing {rows : List LedgerRow} {row : LedgerRow}
    (h : (rows.map (·.sequence)).Pairwise (· < ·)) (hrow : row.sequence = nextSequence rows) :
    ((rows ++ [row]).map (·.sequence)).Pairwise (· < ·) := by
  rw [List.map_append, List.pairwise_append]
  refine ⟨h, List.pairwise_singleton _ _, ?_⟩
  intro n hn m hm
  rw [List.map_singleton, List.mem_singleton] at hm
  rw [hm, hrow, nextSequence]
  cases hlast : rows.getLast? with
  | none =>
    rw [List.getLast?_eq_none_iff] at hlast
    rw [hlast] at hn
    exact absurd hn List.not_mem_nil
  | some last =>
    obtain ⟨before, rfl⟩ := List.getLast?_eq_some_iff.mp hlast
    rw [List.map_append, List.pairwise_append] at h
    rw [List.map_append, List.mem_append] at hn
    change n < last.sequence + 1
    rcases hn with hn | hn
    · have := h.2.2 n hn last.sequence (List.mem_singleton.mpr rfl)
      omega
    · rw [List.map_singleton, List.mem_singleton] at hn
      omega

/-- `append_event`: the table after it, and the number of the new row or what was raised. -/
def appendEvent (args : AppendArgs) (table : EventTable) :
    Except LedgerError Int × EventTable :=
  match (table.rows.getLast?.map (·.rowDigest)).getD (some "") with
  | none => (.error (.integrity "ledger predecessor digest is missing"), table)
  | some previous =>
    if maxSequence < nextSequence table.rows then (.error .overflow, table)
    else
      let row := newRow args (nextSequence table.rows) previous
      (.ok row.sequence, ⟨table.rows ++ [row], nextSequence_increasing table.increasing rfl⟩)

/-! ## What is found out -/

variable {rows : List LedgerRow} {row : LedgerRow} {table : EventTable}

/-- Both digests of the row are there, and the second is not that of its contents. -/
def LedgerRow.Tampered (row : LedgerRow) : Prop :=
  ∃ previous digest, row.prevDigest = some previous ∧ row.rowDigest = some digest ∧
    digest ≠ eventDigest row previous

theorem validateRow_eq_ok {previous digest : String} :
    validateRow previous row = .ok digest ↔
      row.prevDigest = some previous ∧ row.rowDigest = some digest ∧
        digest = eventDigest row previous := by
  rw [validateRow]
  cases row.rowDigest with
  | none => exact ⟨fun h ↦ (nomatch h), fun h ↦ (nomatch h.2.1)⟩
  | some d =>
    by_cases hprev : row.prevDigest = some previous
    · by_cases hd : d = eventDigest row previous
      · simp only [hprev, ne_eq, not_true_eq_false, if_false, ← hd, Except.ok.injEq, true_and,
          Option.some.injEq]
        exact ⟨fun h ↦ ⟨h, h.symm⟩, fun h ↦ h.1⟩
      · simp only [hprev, ne_eq, not_true_eq_false, if_false, hd, not_false_eq_true, if_true,
          reduceCtorEq, true_and, Option.some.injEq, false_iff, not_and]
        rintro rfl
        exact hd
    · simp [hprev]

/-- Only a broken chain is an error. -/
theorem validateRow_eq_error {previous : String} {e : LedgerError}
    (h : validateRow previous row = .error e) : ∃ message, e = .integrity message := by
  rw [validateRow] at h
  split at h
  · exact ⟨_, (Except.error.inj h).symm⟩
  · split at h
    · exact ⟨_, (Except.error.inj h).symm⟩
    · split at h
      · exact ⟨_, (Except.error.inj h).symm⟩
      · exact nomatch h

theorem foldlM_validateRow_eq_error {previous : String} {e : LedgerError}
    (h : rows.foldlM validateRow previous = .error e) : ∃ message, e = .integrity message := by
  induction rows generalizing previous with
  | nil => exact nomatch h
  | cons row rows ih =>
    rw [List.foldlM_cons] at h
    cases hrow : validateRow previous row with
    | error e' =>
      rw [hrow] at h
      obtain rfl := Except.error.inj h
      exact validateRow_eq_error hrow
    | ok digest =>
      rw [hrow] at h
      exact ih h

/-- A chain that was computed anew is a chain. -/
theorem foldlM_validateRow_rechain (previous : String) (rows : List LedgerRow) :
    ∃ digest, (rechain previous rows).foldlM validateRow previous = .ok digest := by
  induction rows generalizing previous with
  | nil => exact ⟨previous, rfl⟩
  | cons row rows ih =>
    obtain ⟨digest, hdigest⟩ := ih (eventDigest row previous)
    refine ⟨digest, Trace.foldlM_cons_eq_ok.mpr ⟨eventDigest row previous, ?_, hdigest⟩⟩
    exact validateRow_eq_ok.mpr ⟨rfl, rfl, rfl⟩

/-- No row of a chain that was checked is tampered with, and each has its digests. -/
theorem not_tampered_of_foldlM {previous digest : String}
    (h : rows.foldlM validateRow previous = .ok digest) :
    ∀ row ∈ rows, row.isChained = true ∧ ¬row.Tampered := by
  induction rows generalizing previous with
  | nil => exact nofun
  | cons row rows ih =>
    obtain ⟨d, hrow, hrest⟩ := Trace.foldlM_cons_eq_ok.mp h
    obtain ⟨hprev, hdigest, hd⟩ := validateRow_eq_ok.mp hrow
    refine List.forall_mem_cons.mpr ⟨⟨?_, ?_⟩, ih hrest⟩
    · rw [LedgerRow.isChained, hprev, hdigest]
      rfl
    · rintro ⟨previous', digest', hprev', hdigest', hne⟩
      rw [hprev] at hprev'
      rw [hdigest] at hdigest'
      obtain rfl := Option.some.inj hprev'
      obtain rfl := Option.some.inj hdigest'
      exact hne hd

/-- Reading says that the chain is broken exactly when it is. -/
theorem events_eq_integrity {runId : Option String} :
    (∃ message, events runId table = .error (.integrity message)) ↔
      ¬∃ digest, validateEventChain table.rows = .ok digest := by
  rw [events]
  cases hvalid : validateEventChain table.rows with
  | error e =>
    obtain ⟨message, rfl⟩ := foldlM_validateRow_eq_error hvalid
    exact ⟨fun _ ⟨_, h⟩ ↦ (nomatch h), fun _ ↦ ⟨message, rfl⟩⟩
  | ok digest =>
    refine ⟨?_, fun h ↦ absurd ⟨digest, rfl⟩ h⟩
    rintro ⟨message, h⟩
    rw [ok_bind] at h
    obtain ⟨row, -, hrow⟩ := mapM_eq_error h
    rw [readRow] at hrow
    split at hrow
    · exact nomatch hrow
    · exact nomatch hrow

/-- **When reading an opened ledger finds the chain broken.** If a digest was missing it never
does. -/
theorem events_openLedger {runId : Option String} :
    (∃ message, events runId (openLedger table) = .error (.integrity message)) ↔
      (∀ row ∈ table.rows, row.isChained = true) ∧
        ¬∃ digest, validateEventChain table.rows = .ok digest := by
  rw [events_eq_integrity]
  change (¬∃ digest, validateEventChain (migrateEventChain table.rows) = .ok digest) ↔ _
  rw [migrateEventChain]
  by_cases hall : table.rows.all (·.isChained) = true
  · rw [if_pos hall]
    exact ⟨fun h ↦ ⟨List.all_eq_true.mp hall, h⟩, fun h ↦ h.2⟩
  · rw [if_neg hall]
    refine ⟨fun h ↦ absurd (foldlM_validateRow_rechain "" table.rows) h, fun h ↦ ?_⟩
    exact absurd (List.all_eq_true.mpr h.1) hall

/-- What the ledger should do about a tampered row. -/
def Detects (table : EventTable) : Prop :=
  (∃ row ∈ table.rows, row.Tampered) →
    ∀ runId, ∃ message, events runId (openLedger table) = .error (.integrity message)

theorem detects_iff :
    Detects table ↔
      (∀ row ∈ table.rows, row.isChained = true) ∨ ¬∃ row ∈ table.rows, row.Tampered := by
  constructor
  · intro h
    by_cases htampered : ∃ row ∈ table.rows, row.Tampered
    · exact .inl (events_openLedger.mp (h htampered none)).1
    · exact .inr htampered
  · rintro (hall | hnone) htampered runId
    · refine events_openLedger.mpr ⟨hall, fun ⟨digest, hvalid⟩ ↦ ?_⟩
      obtain ⟨row, hrow, hbad⟩ := htampered
      exact (not_tampered_of_foldlM hvalid row hrow).2 hbad
    · exact absurd htampered hnone

/-! ## Appending and opening -/

/-- What can happen to a ledger. -/
inductive LedgerOp where
  | append (args : AppendArgs)
  | reopen

def LedgerOp.run (table : EventTable) : LedgerOp → EventTable
  | append args => (appendEvent args table).2
  | reopen => openLedger table

/-- The ledger reads: its chain is intact, and its payloads are JSON. -/
def Reads (table : EventTable) : Prop :=
  (∃ digest, validateEventChain table.rows = .ok digest) ∧
    ∀ row ∈ table.rows, ∃ payload, Json.loads row.payload = some payload

omit [Hash256] in
theorem readRow_eq_ok {doc : LedgerRow × Json} :
    readRow row = .ok doc ↔ doc.1 = row ∧ Json.loads row.payload = some doc.2 := by
  rw [readRow]
  cases Json.loads row.payload with
  | none => exact ⟨fun h ↦ (nomatch h), fun h ↦ (nomatch h.2)⟩
  | some payload =>
    rw [pure_eq_ok]
    constructor
    · rintro rfl
      exact ⟨rfl, rfl⟩
    · rintro ⟨rfl, h⟩
      rw [Option.some.inj h]

omit [Hash256] in
private theorem forall₂_readRow {docs : List (LedgerRow × Json)}
    (h : List.Forall₂ (fun row doc ↦ readRow row = .ok doc) rows docs) :
    docs.map Prod.fst = rows ∧ ∀ row ∈ rows, ∃ payload, Json.loads row.payload = some payload := by
  induction h with
  | nil => exact ⟨rfl, nofun⟩
  | cons hrow _ ih =>
    obtain ⟨hfst, hloads⟩ := readRow_eq_ok.mp hrow
    refine ⟨?_, List.forall_mem_cons.mpr ⟨⟨_, hloads⟩, ih.2⟩⟩
    rw [List.map_cons, hfst, ih.1]

omit [Hash256] in
private theorem exists_forall₂_readRow
    (h : ∀ row ∈ rows, ∃ payload, Json.loads row.payload = some payload) :
    ∃ docs, List.Forall₂ (fun row doc ↦ readRow row = .ok doc) rows docs := by
  induction rows with
  | nil => exact ⟨[], .nil⟩
  | cons row rows ih =>
    obtain ⟨⟨payload, hpayload⟩, hrest⟩ := List.forall_mem_cons.mp h
    obtain ⟨docs, hdocs⟩ := ih hrest
    exact ⟨(row, payload) :: docs, .cons (readRow_eq_ok.mpr ⟨rfl, hpayload⟩) hdocs⟩

/-- What reading all runs gives. -/
theorem events_none_eq_ok {docs : List (LedgerRow × Json)} :
    events none table = .ok docs ↔
      (∃ digest, validateEventChain table.rows = .ok digest) ∧
        List.Forall₂ (fun row doc ↦ readRow row = .ok doc) table.rows docs := by
  have hall : (table.rows.filter fun row ↦ (none : Option String).all (row.runId == ·)) =
      table.rows := List.filter_eq_self.mpr fun _ _ ↦ rfl
  rw [events, hall, bind_eq_ok]
  simp only [mapM_eq_ok]
  exact exists_and_right

theorem reads_iff : Reads table ↔ ∃ docs, events none table = .ok docs := by
  simp only [events_none_eq_ok]
  constructor
  · rintro ⟨hvalid, hpayloads⟩
    obtain ⟨docs, hdocs⟩ := exists_forall₂_readRow hpayloads
    exact ⟨docs, hvalid, hdocs⟩
  · rintro ⟨docs, hvalid, hdocs⟩
    exact ⟨hvalid, (forall₂_readRow hdocs).2⟩

/-- The digest that a checked chain ends with. -/
theorem foldlM_validateRow_last {previous digest : String}
    (h : rows.foldlM validateRow previous = .ok digest) :
    (rows.getLast?.map (·.rowDigest)).getD (some previous) = some digest := by
  refine Trace.history_invariant (fun rows digest ↦
    (rows.getLast?.map (·.rowDigest)).getD (some previous) = some digest) rfl ?_ h
  intro rows digest row digest' _ hrow
  rw [List.getLast?_append_cons, List.getLast?_singleton]
  exact (validateRow_eq_ok.mp hrow).2.1

/-- Opening a ledger that reads changes nothing. -/
theorem openLedger_of_reads (h : Reads table) : openLedger table = table := by
  obtain ⟨⟨digest, hvalid⟩, -⟩ := h
  have hall : table.rows.all (·.isChained) = true :=
    List.all_eq_true.mpr fun row hrow ↦ (not_tampered_of_foldlM hvalid row hrow).1
  cases table with
  | mk rows increasing =>
    rw [openLedger, EventTable.mk.injEq]
    exact if_pos hall

/-- Appending to a chain adds a row at its end that is linked to it, or nothing. -/
theorem validateEventChain_appendEvent (args : AppendArgs) {digest : String}
    (h : validateEventChain table.rows = .ok digest) :
    (∃ digest', validateEventChain (appendEvent args table).2.rows = .ok digest') ∧
      ((appendEvent args table).2.rows = table.rows ∨
        (appendEvent args table).2.rows =
          table.rows ++ [newRow args (nextSequence table.rows) digest]) := by
  simp only [appendEvent, foldlM_validateRow_last h]
  by_cases hmax : maxSequence < nextSequence table.rows
  · rw [if_pos hmax]
    exact ⟨⟨digest, h⟩, .inl rfl⟩
  · rw [if_neg hmax]
    -- the digest of the new row covers it
    have hnew : validateRow digest (newRow args (nextSequence table.rows) digest) =
        .ok (eventDigest (newRow args (nextSequence table.rows) digest) digest) :=
      validateRow_eq_ok.mpr ⟨rfl, rfl, rfl⟩
    exact ⟨⟨_, Trace.foldlM_concat_eq_ok.mpr ⟨digest, h, hnew⟩⟩, .inr rfl⟩

/-- Appending to a ledger that reads adds a row at its end, or nothing. -/
theorem appendEvent_of_reads (args : AppendArgs) (h : Reads table) :
    Reads (appendEvent args table).2 ∧ table.rows <+: (appendEvent args table).2.rows := by
  obtain ⟨⟨digest, hvalid⟩, hpayloads⟩ := h
  obtain ⟨hvalid', hrows | hrows⟩ := validateEventChain_appendEvent args hvalid
  · rw [Reads, hrows]
    exact ⟨⟨⟨digest, hvalid⟩, hpayloads⟩, List.prefix_refl _⟩
  · refine ⟨⟨hvalid', fun row hrow ↦ ?_⟩, hrows ▸ List.prefix_append _ _⟩
    rw [hrows] at hrow
    rcases List.mem_append.mp hrow with hrow | hrow
    · exact hpayloads row hrow
    · rw [List.mem_singleton.mp hrow]
      exact ⟨args.payload, Json.loads_dumpsAscii args.payload_sorted⟩

/-- What reading one run gives. -/
theorem events_some_eq_ok {runId : String} {docs : List (LedgerRow × Json)} :
    events (some runId) table = .ok docs ↔
      (∃ digest, validateEventChain table.rows = .ok digest) ∧
        List.Forall₂ (fun row doc ↦ readRow row = .ok doc)
          (table.rows.filter (·.runId == runId)) docs := by
  rw [events, bind_eq_ok]
  simp only [mapM_eq_ok, Option.all_some]
  exact exists_and_right

omit [Hash256] in
/-- The sequence number that comes next is larger than those in use. -/
theorem sequence_lt_next (hrow : row ∈ table.rows) : row.sequence < nextSequence table.rows := by
  let next : LedgerRow := { row with sequence := nextSequence table.rows }
  have hnext : next.sequence = nextSequence table.rows := rfl
  have hincreasing := nextSequence_increasing table.increasing hnext
  rw [List.map_append, List.pairwise_append] at hincreasing
  exact hincreasing.2.2 _ (List.mem_map_of_mem hrow) _ List.mem_cons_self

/-- A run that was read is read again after an event was appended, perhaps with the event as its
last. -/
theorem events_appendEvent (args : AppendArgs) {runId : String} {docs : List (LedgerRow × Json)}
    (h : events (some runId) table = .ok docs) :
    ∃ docs', events (some runId) (appendEvent args table).2 = .ok docs' ∧
      (docs' = docs ∨ ∃ row, row.eventType = args.eventType ∧
        docs' = docs ++ [(row, args.payload)] ∧ ∀ doc ∈ docs, doc.1.sequence < row.sequence) := by
  obtain ⟨⟨digest, hvalid⟩, hdocs⟩ := events_some_eq_ok.mp h
  obtain ⟨hvalid', hrows | hrows⟩ := validateEventChain_appendEvent args hvalid
  · refine ⟨docs, events_some_eq_ok.mpr ⟨hvalid', ?_⟩, .inl rfl⟩
    rwa [hrows]
  let row := newRow args (nextSequence table.rows) digest
  have hread : readRow row = .ok (row, args.payload) :=
    readRow_eq_ok.mpr ⟨rfl, Json.loads_dumpsAscii args.payload_sorted⟩
  have hlarger : ∀ doc ∈ docs, doc.1.sequence < row.sequence := by
    intro doc hdoc
    have hfst := (forall₂_readRow hdocs).1
    have hmem : doc.1 ∈ table.rows :=
      List.mem_of_mem_filter (hfst ▸ List.mem_map_of_mem hdoc)
    exact sequence_lt_next hmem
  by_cases hrun : (row.runId == runId) = true
  · refine ⟨docs ++ [(row, args.payload)], events_some_eq_ok.mpr ⟨hvalid', ?_⟩,
      .inr ⟨row, rfl, rfl, hlarger⟩⟩
    rw [hrows, List.filter_append, List.filter_cons, if_pos hrun]
    exact List.rel_append hdocs (.cons hread .nil)
  · refine ⟨docs, events_some_eq_ok.mpr ⟨hvalid', ?_⟩, .inl rfl⟩
    rwa [hrows, List.filter_append, List.filter_cons, if_neg hrun, List.filter_nil,
      List.append_nil]

def LedgerOp.isAppend : LedgerOp → Bool
  | append _ => true
  | reopen => false

/-- Openings can be left out. -/
theorem run_of_reads {ops : List LedgerOp} (h : Reads table) :
    Reads (ops.foldl LedgerOp.run table) ∧ table.rows <+: (ops.foldl LedgerOp.run table).rows ∧
      ops.foldl LedgerOp.run table = (ops.filter (·.isAppend)).foldl LedgerOp.run table := by
  induction ops generalizing table with
  | nil => exact ⟨h, List.prefix_refl _, rfl⟩
  | cons op ops ih =>
    cases op with
    | append args =>
      obtain ⟨hreads, hbegin⟩ := appendEvent_of_reads args h
      obtain ⟨hreads', hbegin', hsame⟩ := ih hreads
      exact ⟨hreads', hbegin.trans hbegin', hsame⟩
    | reopen =>
      have hopen : LedgerOp.run table .reopen = table := openLedger_of_reads h
      rw [List.foldl_cons, hopen]
      exact ih h

/-- **Which tampered ledgers are found out, and that nothing else is.** -/
theorem ledger_detects_tampering_iff :
    (∀ table : EventTable, Detects table ↔
      (∀ row ∈ table.rows, row.isChained = true) ∨ ¬∃ row ∈ table.rows, row.Tampered) ∧
    ∀ (table : EventTable) (docs : List (LedgerRow × Json)) (ops : List LedgerOp),
      events none table = .ok docs →
        ∃ docs', events none (ops.foldl LedgerOp.run table) = .ok docs' ∧ docs <+: docs' ∧
          docs'.map Prod.fst = (ops.foldl LedgerOp.run table).rows ∧
          ops.foldl LedgerOp.run table = (ops.filter (·.isAppend)).foldl LedgerOp.run table := by
  refine ⟨fun table ↦ detects_iff, fun table docs ops hdocs ↦ ?_⟩
  have hstart : Reads table := reads_iff.mpr ⟨docs, hdocs⟩
  obtain ⟨hreads, ⟨more, hmore⟩, hsame⟩ : Reads (ops.foldl LedgerOp.run table) ∧ _ ∧ _ :=
    run_of_reads hstart
  obtain ⟨docs', hdocs'⟩ := reads_iff.mp hreads
  obtain ⟨-, hrows⟩ := events_none_eq_ok.mp hdocs
  obtain ⟨-, hrows'⟩ := events_none_eq_ok.mp hdocs'
  refine ⟨docs', hdocs', ?_, (forall₂_readRow hrows').1, hsame⟩
  have hread := mapM_eq_ok.mpr hrows'
  rw [← hmore, List.mapM_append, mapM_eq_ok.mpr hrows, ok_bind, bind_eq_ok] at hread
  obtain ⟨new, -, hnew⟩ := hread
  rw [pure_eq_ok.mp hnew]
  exact List.prefix_append docs new

/-! ## A forged row beside an old one -/

/-- A row whose digest is not its own, and a row from before there were digests. -/
def forgedTable : EventTable where
  rows := [⟨1, "mission", "started", "builder", "\x7b\"value\":2\x7d", "2029-01-01T00:00:00Z",
      some "", some "forged"⟩,
    ⟨2, "mission", "finished", "builder", "\x7b\x7d", "2029-01-01T00:00:01Z", none, none⟩]
  increasing := by decide

theorem eventDigest_ne_forged (row : LedgerRow) (previous : String) :
    "forged" ≠ eventDigest row previous := by
  intro h
  have hchars := congrArg String.toList h
  rw [eventDigest, jsonDigest, String.toList_append] at hchars
  exact nomatch (List.cons.inj hchars).1

theorem forgedTable_tampered : ∃ row ∈ forgedTable.rows, row.Tampered :=
  ⟨_, List.mem_cons_self, "", "forged", rfl, rfl, eventDigest_ne_forged _ _⟩

end Digests

theorem forged_row_laundered : ¬Detects forgedTable := by
  rw [detects_iff]
  rintro (hall | hnone)
  · have hsecond := hall _ (List.mem_cons_of_mem _ List.mem_cons_self)
    exact nomatch hsecond
  · exact hnone forgedTable_tampered

end HiveMind.Evidence
