import HiveMind.Lib.TwoPhase
import HiveMind.Dag.History

/-!
# The execution journal

The events of all runs are rows of one table. A row holds the canonical text of its event and, in
columns of their own, the run, the sequence number and the digests. `verify` reads the table in the
order of runs and sequence numbers and checks each row against the one before it in its run, and
then replays each run.

An append reads the rows of its run, seals an event that follows them and replays the run with it.
Only after that does it open a transaction, in which it compares the number of rows of the run with
the number it has read, and inserts the row. Any number of appends, through any number of handles,
can be between these two phases.

* **`verify_eq_ok`**: what `verify` accepts, run by run.
* **`journal_sound`**: whatever appends are interleaved, the table passes `verify`, and an append
  that raises leaves the table as it was.
-/

open Raise

namespace HiveMind.Dag

/-! ## Rows -/

/-- A row of `dag_execution_events`. -/
structure JournalRow where
  runId : String
  sequence : Nat
  payloadJson : String
  previousDigest : Option String
  eventDigest : String
  deriving DecidableEq

/-- What a caller of the journal can be told. -/
inductive JournalError where
  | execution (e : DagExecutionError)
  | integrity (message : String)
  deriving DecidableEq, Repr

namespace ExecutionEvent

def previousJson (e : ExecutionEvent) : Json :=
  match e.previousDigest with
  | none => .null
  | some d => .str d

/-- `to_document` without the digest. The members are in name order. -/
def unsealedMembers (e : ExecutionEvent) : List (String × Json) :=
  [("kind", .str e.kind), ("payload", e.payload.toJson), ("previous_digest", e.previousJson),
    ("run_id", .str e.runId), ("schema_version", .int 1), ("sequence", .int e.sequence)]

/-- `to_document`. -/
def toDocument (e : ExecutionEvent) (includeDigest : Bool) : Json :=
  if includeDigest then .obj (("event_digest", .str e.eventDigest) :: e.unsealedMembers)
  else .obj e.unsealedMembers

end ExecutionEvent

/-- The event of a document, if the document is well formed. -/
def eventOfMembers (d : Json.Dict) : Option ExecutionEvent :=
  match d.get? "schema_version", d.get? "run_id", d.get? "sequence", d.get? "kind",
    d.get? "payload", d.get? "previous_digest", d.get? "event_digest" with
  | some (.int version), some (.str runId), some (.int sequence), some (.str kind),
    some (.obj payload), some previous, some (.str eventDigest) =>
    if version ≠ 1 ∨ sequence < 1 ∨ kind = "" then none
    else
      match previous with
      | .null =>
        some ⟨runId, sequence.toNat, kind, .ofMembers payload, none, eventDigest⟩
      | .str previousDigest =>
        some ⟨runId, sequence.toNat, kind, .ofMembers payload, some previousDigest, eventDigest⟩
      | _ => none
  | _, _, _, _, _, _, _ => none

/-- `_decode`. -/
def decode (row : JournalRow) : Except DagExecutionError ExecutionEvent :=
  match Json.loads row.payloadJson with
  | none => throw ⟨"execution journal contains invalid JSON"⟩
  | some (.obj ms) =>
    if (Json.Dict.ofMembers ms).names ≠ ["event_digest", "kind", "payload", "previous_digest",
        "run_id", "schema_version", "sequence"] then
      throw ⟨"execution event has an unknown shape"⟩
    else
      match eventOfMembers (.ofMembers ms) with
      | none => throw ⟨"execution event is malformed"⟩
      | some event =>
        if event.runId ≠ row.runId ∨ event.sequence ≠ row.sequence ∨
            event.previousDigest ≠ row.previousDigest ∨ event.eventDigest ≠ row.eventDigest then
          throw ⟨"execution event index disagrees with its payload"⟩
        else return event
  | some _ => throw ⟨"execution event has an unknown shape"⟩

def ExecutionEvent.toRow (e : ExecutionEvent) : JournalRow :=
  ⟨e.runId, e.sequence, jsonBytes (e.toDocument true), e.previousDigest, e.eventDigest⟩

theorem ExecutionEvent.sorted_toDocument {e : ExecutionEvent} (h : e.payload.toJson.Sorted) :
    (e.toDocument true).Sorted := by
  have hprevious : e.previousJson.Sorted := by
    rw [previousJson]
    cases e.previousDigest <;> trivial
  have hnames : ["event_digest", "kind", "payload", "previous_digest", "run_id", "schema_version",
      "sequence"].Pairwise (· < ·) := by decide
  exact ⟨hnames, trivial, trivial, h, hprevious, trivial, trivial, trivial, trivial⟩

/-- A document says what event it is of. -/
theorem eventOfMembers_toDocument {e : ExecutionEvent} (hsequence : 1 ≤ e.sequence)
    (hkind : e.kind ≠ "") {d : Json.Dict}
    (hd : d.members = ("event_digest", .str e.eventDigest) :: e.unsealedMembers) :
    eventOfMembers d = some e := by
  have hpos : ¬((e.sequence : Int) < 1) := by omega
  have hpayload : Json.Dict.ofMembers e.payload.members = e.payload :=
    Json.Dict.ofMembers_members e.payload
  have hversion : d.get? "schema_version" = some (.int 1) := by rw [Json.Dict.get?, hd]; rfl
  have hrun : d.get? "run_id" = some (.str e.runId) := by rw [Json.Dict.get?, hd]; rfl
  have hseq : d.get? "sequence" = some (.int e.sequence) := by rw [Json.Dict.get?, hd]; rfl
  have hkind' : d.get? "kind" = some (.str e.kind) := by rw [Json.Dict.get?, hd]; rfl
  have hpayload' : d.get? "payload" = some (.obj e.payload.members) := by
    rw [Json.Dict.get?, hd]
    rfl
  have hprevious : d.get? "previous_digest" = some e.previousJson := by
    rw [Json.Dict.get?, hd]
    rfl
  have hdigest : d.get? "event_digest" = some (.str e.eventDigest) := by
    rw [Json.Dict.get?, hd]
    rfl
  simp only [eventOfMembers, hversion, hrun, hseq, hkind', hpayload', hprevious, hdigest]
  rw [if_neg (by simp [hpos, hkind]), ExecutionEvent.previousJson]
  cases e with
  | mk runId sequence kind payload previousDigest eventDigest =>
    cases previousDigest with
    | none => simp [hpayload]
    | some previous => simp [hpayload]

/-- The row of an event is the row of that event. -/
theorem decode_toRow {e : ExecutionEvent} (hpayload : e.payload.toJson.Sorted)
    (hsequence : 1 ≤ e.sequence) (hkind : e.kind ≠ "") : decode e.toRow = .ok e := by
  have hsorted := ExecutionEvent.sorted_toDocument hpayload
  have hloads : Json.loads e.toRow.payloadJson =
      some (.obj (("event_digest", .str e.eventDigest) :: e.unsealedMembers)) :=
    Json.loads_dumps hsorted
  let d : Json.Dict := ⟨("event_digest", .str e.eventDigest) :: e.unsealedMembers, hsorted.1⟩
  have hmembers : Json.Dict.ofMembers (("event_digest", .str e.eventDigest) :: e.unsealedMembers) =
      d := Json.Dict.ofMembers_members d
  simp only [decode, hloads, hmembers, eventOfMembers_toDocument hsequence hkind (d := d) rfl]
  have hnames : d.names = ["event_digest", "kind", "payload", "previous_digest", "run_id",
      "schema_version", "sequence"] := rfl
  rw [if_neg (not_not.mpr hnames), if_neg (by simp [ExecutionEvent.toRow])]
  rfl

theorem decode_eq_ok {row : JournalRow} {event : ExecutionEvent} (h : decode row = .ok event) :
    event.runId = row.runId ∧ event.sequence = row.sequence ∧
      event.previousDigest = row.previousDigest ∧ event.eventDigest = row.eventDigest := by
  rw [decode] at h
  split at h
  · exact nomatch h
  · split at h
    · exact nomatch h
    · split at h
      · exact nomatch h
      · split at h
        · exact nomatch h
        · next hindex =>
          obtain rfl := pure_eq_ok.mp h
          simpa only [not_or, not_not] using hindex
  · exact nomatch h

/-- `_rows` of all runs. -/
def allRows (table : List JournalRow) : List JournalRow :=
  Rows.orderBy (fun row ↦ toLex (row.runId, row.sequence)) table

/-- `_rows` of one run. -/
def rowsOf (runId : String) (table : List JournalRow) : List JournalRow :=
  Rows.orderBy (·.sequence) (table.filter (·.runId = runId))

section Digests

variable [Hash256]

/-! ## Verification -/

/-- What `verify` keeps about a run: the digest of its last event, the next sequence number and
its events. -/
structure RunCheck where
  prior : Option String
  sequence : Nat
  events : List ExecutionEvent

def RunCheck.start : RunCheck := ⟨none, 1, []⟩

/-- One row of a run, against the rows before it. -/
def checkRow (check : RunCheck) (row : JournalRow) : Except DagExecutionError RunCheck := do
  let event ← decode row
  if event.sequence ≠ check.sequence then
    throw ⟨"execution journal sequence is discontinuous"⟩
  if event.previousDigest ≠ check.prior then
    throw ⟨"execution journal hash chain is broken"⟩
  if event.eventDigest ≠ jsonDigest (event.toDocument false) then
    throw ⟨"execution event digest is invalid"⟩
  if row.payloadJson ≠ jsonBytes (event.toDocument true) then
    throw ⟨"execution event is not canonical"⟩
  return ⟨some event.eventDigest, check.sequence + 1, check.events ++ [event]⟩

/-- `verify`. The run of an event is the run of its row, which `_decode` has made sure of. -/
def verify (table : List JournalRow) : Except DagExecutionError Unit := do
  let checks ← (allRows table).foldlM (Trace.atKey (·.runId) checkRow) fun _ ↦ .start
  forM ((allRows table).map (·.runId)).eraseDups fun runId ↦ do
    let _ ← replay runId (checks runId).events

/-! ## Appending -/

/-- The arguments of `append`, with what it looks up about its handle. The payload is a dict at every
depth. -/
structure AppendCall where
  readOnly : Bool
  runId : String
  kind : String
  payload : Json.Dict
  payload_sorted : payload.toJson.Sorted
  executorAuthority : Bool

/-- The event that follows the rows of its run. -/
def sealEvent (runId kind : String) (payload : Json.Dict) (rows : List JournalRow) :
    ExecutionEvent :=
  let previous := rows.getLast?.map (·.eventDigest)
  let provisional : ExecutionEvent := ⟨runId, rows.length + 1, kind, payload, previous, ""⟩
  { provisional with eventDigest := jsonDigest (provisional.toDocument false) }

abbrev JournalM := EStateM JournalError (List JournalRow)

/-- `append` up to its transaction: the event that it is going to insert. -/
def prepareAppend (call : AppendCall) : JournalM ExecutionEvent := do
  if call.runId = "" ∨ call.kind = "" then
    throw (.execution ⟨"run_id and event kind are required"⟩)
  if call.readOnly then
    throw (.execution ⟨"read-only execution journal cannot be mutated"⟩)
  if call.kind ≠ EventKind.runInitialized.value ∧ ¬call.executorAuthority then
    throw (.execution ⟨"host-backed execution journal writes are executor-owned"⟩)
  let rows := rowsOf call.runId (← get)
  let event := sealEvent call.runId call.kind call.payload rows
  let priorEvents ← lift ((rows.mapM decode).mapError .execution)
  let _ ← lift ((replay call.runId (priorEvents ++ [event])).mapError .execution)
  return event

/-- The transaction of `append`. -/
def commitAppend (event : ExecutionEvent) : JournalM Unit :=
  transaction do
    let table ← get
    if (table.filter (·.runId = event.runId)).length ≠ event.sequence - 1 then
      throw (.execution ⟨"execution journal compare-and-swap failed"⟩)
    if table.any fun row ↦ row.runId == event.runId && row.sequence == event.sequence then
      throw (.integrity ("UNIQUE constraint failed: dag_execution_events.run_id, " ++
        "dag_execution_events.sequence"))
    if table.any fun row ↦ row.eventDigest == event.eventDigest then
      throw (.integrity "UNIQUE constraint failed: dag_execution_events.event_digest")
    modify (· ++ [event.toRow])

/-- `append`, with nothing happening between its two phases. -/
def append (call : AppendCall) : JournalM ExecutionEvent := do
  let event ← prepareAppend call
  commitAppend event
  return event

/-! ## What is verified -/

section Verified

variable {check check' : RunCheck} {row : JournalRow} {rows : List JournalRow} {runId : String}
  {table : List JournalRow}

theorem checkRow_eq_ok :
    checkRow check row = .ok check' ↔
      ∃ event, decode row = .ok event ∧ event.sequence = check.sequence ∧
        event.previousDigest = check.prior ∧
        event.eventDigest = jsonDigest (event.toDocument false) ∧
        row.payloadJson = jsonBytes (event.toDocument true) ∧
        check' = ⟨some event.eventDigest, check.sequence + 1, check.events ++ [event]⟩ := by
  rw [checkRow]
  simp only [bind_eq_ok, guard_eq_ok, pure_eq_ok, not_not]

/-- What has been found about the rows of a run. -/
structure RunCheck.Of (rows : List JournalRow) (check : RunCheck) : Prop where
  sequence : check.sequence = rows.length + 1
  prior : check.prior = rows.getLast?.map (·.eventDigest)
  events : List.Forall₂ (fun row event ↦ decode row = .ok event) rows check.events
  bounded : ∀ row ∈ rows, row.sequence < check.sequence
  increasing : rows.Pairwise fun row row' ↦ row.sequence < row'.sequence

theorem RunCheck.of_foldlM (h : rows.foldlM checkRow .start = .ok check) :
    RunCheck.Of rows check := by
  refine Trace.history_invariant RunCheck.Of ?_ ?_ h
  · exact ⟨rfl, rfl, .nil, nofun, .nil⟩
  · intro rows check row check' hcheck hrow
    obtain ⟨event, hevent, hsequence, -, -, -, rfl⟩ := checkRow_eq_ok.mp hrow
    obtain ⟨-, hseq, -, hdigest⟩ := decode_eq_ok hevent
    have hnew : row.sequence = check.sequence := hseq.symm.trans hsequence
    refine ⟨?_, ?_, ?_, ?_, ?_⟩
    · rw [List.length_append, List.length_singleton, hcheck.sequence]
    · rw [List.getLast?_append_cons, List.getLast?_singleton, Option.map_some, hdigest]
    · exact List.rel_append hcheck.events (.cons hevent .nil)
    · intro row' hrow'
      rcases List.mem_append.mp hrow' with hrow' | hrow'
      · exact (hcheck.bounded row' hrow').trans (Nat.lt_succ_self _)
      · rw [List.mem_singleton.mp hrow', hnew]
        exact Nat.lt_succ_self _
    · rw [List.pairwise_append]
      refine ⟨hcheck.increasing, List.pairwise_singleton _ _, fun old hold new hnew' ↦ ?_⟩
      rw [List.mem_singleton.mp hnew', hnew]
      exact hcheck.bounded old hold

/-- The rows of a run pass `verify`. -/
def RunVerified (runId : String) (rows : List JournalRow) : Prop :=
  ∃ check, rows.foldlM checkRow .start = .ok check ∧
    (rows ≠ [] → ∃ s, replay runId check.events = .ok s)

omit [Hash256] in
theorem rowsOf_perm : (rowsOf runId table).Perm (table.filter (·.runId = runId)) :=
  Rows.orderBy_perm

omit [Hash256] in
/-- The rows of a run, among all rows in order, are the rows of the run in order. -/
theorem filter_allRows (h : Rows.Unique (·.sequence) (table.filter (·.runId = runId))) :
    (allRows table).filter (·.runId = runId) = rowsOf runId table := by
  have hperm : ((allRows table).filter (·.runId = runId)).Perm
      (table.filter (·.runId = runId)) := Rows.orderBy_perm.filter _
  refine (Rows.orderBy_eq_of_perm hperm ?_).symm
  have hne : ((allRows table).filter (·.runId = runId)).Pairwise
      fun row row' ↦ row.sequence ≠ row'.sequence :=
    List.pairwise_map.mp ((hperm.map _).nodup_iff.mpr h)
  have hle : ((allRows table).filter (·.runId = runId)).Pairwise
      fun row row' ↦ toLex (row.runId, row.sequence) ≤ toLex (row'.runId, row'.sequence) :=
    Rows.pairwise_orderBy.filter _
  refine (hle.and hne).imp_of_mem fun hrow hrow' ⟨hle, hne⟩ ↦ lt_of_le_of_ne ?_ hne
  have hrun := of_decide_eq_true (List.mem_filter.mp hrow).2
  have hrun' := of_decide_eq_true (List.mem_filter.mp hrow').2
  rw [hrun, hrun', Prod.Lex.toLex_le_toLex] at hle
  rcases hle with hlt | ⟨-, hle⟩
  · exact absurd hlt (lt_irrefl _)
  · exact hle

/-- Rows that have been checked have different sequence numbers. -/
theorem unique_of_foldlM (hperm : rows.Perm (table.filter (·.runId = runId)))
    (h : rows.foldlM checkRow .start = .ok check) :
    Rows.Unique (·.sequence) (table.filter (·.runId = runId)) :=
  (hperm.map _).nodup_iff.mp
    (List.pairwise_map.mpr ((RunCheck.of_foldlM h).increasing.imp ne_of_lt))

omit [Hash256] in
theorem mem_map_runId_allRows :
    runId ∈ ((allRows table).map (·.runId)).eraseDups ↔ rowsOf runId table ≠ [] := by
  have hmem : ∀ row, row ∈ rowsOf runId table ↔ row ∈ allRows table ∧ row.runId = runId := by
    intro row
    rw [allRows, Rows.orderBy_perm.mem_iff, rowsOf_perm.mem_iff, List.mem_filter,
      decide_eq_true_iff]
  rw [List.mem_eraseDups, List.mem_map]
  constructor
  · rintro ⟨row, hrow⟩
    exact List.ne_nil_of_mem ((hmem row).mpr hrow)
  · intro hne
    obtain ⟨row, hrow⟩ := List.exists_mem_of_ne_nil _ hne
    exact ⟨row, (hmem row).mp hrow⟩

/-- **A table passes `verify` exactly when the rows of each run do.** -/
theorem verify_eq_ok :
    verify table = .ok () ↔ ∀ runId, RunVerified runId (rowsOf runId table) := by
  rw [verify, bind_eq_ok]
  simp only [Trace.foldlM_atKey_eq_ok, forM_eq_ok, bind_eq_ok]
  constructor
  · rintro ⟨checks, hchecks, hreplay⟩ runId
    have hcheck := hchecks runId
    rw [filter_allRows (unique_of_foldlM (Rows.orderBy_perm.filter _) hcheck)] at hcheck
    refine ⟨checks runId, hcheck, fun hne ↦ ?_⟩
    obtain ⟨s, hs, -⟩ := hreplay runId (mem_map_runId_allRows.mpr hne)
    exact ⟨s, hs⟩
  · intro h
    choose checks hchecks hreplay using h
    refine ⟨checks, fun runId ↦ ?_, fun runId hrun ↦ ?_⟩
    · rw [filter_allRows (unique_of_foldlM rowsOf_perm (hchecks runId))]
      exact hchecks runId
    · obtain ⟨s, hs⟩ := hreplay runId (mem_map_runId_allRows.mp hrun)
      exact ⟨s, hs, rfl⟩

end Verified

/-! ## Appends -/

section Appends

variable {call : AppendCall} {event : ExecutionEvent} {table table' : List JournalRow}
  {runId : String}

/-- The event was sealed for a run of these rows, and the run with it replays. -/
structure Sealed (event : ExecutionEvent) (rows : List JournalRow) : Prop where
  eq_seal : event = sealEvent event.runId event.kind event.payload rows
  kind_ne : event.kind ≠ ""
  payload_sorted : event.payload.toJson.Sorted
  replays : ∃ events, List.Forall₂ (fun row event ↦ decode row = .ok event) rows events ∧
    ∃ s, replay event.runId (events ++ [event]) = .ok s

/-- The first phase only reads. -/
theorem prepareAppend_eq_ok (h : prepareAppend call table = .ok event table') :
    table' = table ∧ Sealed event (rowsOf event.runId table) := by
  rw [prepareAppend] at h
  simp only [run_guard_eq_ok, run_bind_eq_ok, run_get_eq_ok, run_lift_eq_ok, run_pure_eq_ok,
    mapError_eq_ok, mapM_eq_ok] at h
  obtain ⟨hrequired, -, -, t, _, ⟨rfl, rfl⟩, events, _, ⟨hevents, rfl⟩, s, _, ⟨hs, rfl⟩, rfl, rfl⟩ :=
    h
  rw [not_or] at hrequired
  exact ⟨rfl, rfl, hrequired.2, call.payload_sorted, events, hevents, s, hs⟩

theorem atomic_prepareAppend (call : AppendCall) : Atomic (prepareAppend call) := by
  rw [prepareAppend]
  refine atomic_guard (atomic_guard (atomic_guard ?_))
  refine atomic_bind atomic_get reads_get fun table ↦ ?_
  refine atomic_bind (atomic_lift _) (reads_lift _) fun events ↦ ?_
  exact atomic_bind (atomic_lift _) (reads_lift _) fun s ↦ atomic_pure _

omit [Hash256] in
/-- The second phase inserts one row, if the run has not got any since. -/
theorem commitAppend_eq_ok {u : Unit} (h : commitAppend event table = .ok u table') :
    (rowsOf event.runId table).length = event.sequence - 1 ∧ table' = table ++ [event.toRow] := by
  rw [commitAppend, transaction_eq_ok] at h
  simp only [run_bind_eq_ok, run_guard_eq_ok, run_get_eq_ok, run_modify_eq_ok, not_not] at h
  obtain ⟨t, _, ⟨rfl, rfl⟩, hcount, -, -, rfl⟩ := h
  exact ⟨rowsOf_perm.length_eq.trans hcount, rfl⟩

omit [Hash256] in
theorem atomic_commitAppend (event : ExecutionEvent) : Atomic (commitAppend event) :=
  atomic_transaction _

omit [Hash256] in
/-- A row of another run does not appear among the rows of this one. -/
theorem rowsOf_concat_of_ne {row : JournalRow} (h : row.runId ≠ runId) :
    rowsOf runId (table ++ [row]) = rowsOf runId table := by
  rw [rowsOf, rowsOf, List.filter_append, List.filter_singleton, decide_eq_false h]
  exact congrArg _ (List.append_nil _)

omit [Hash256] in
/-- A row with a larger sequence number than the others of its run comes last. -/
theorem rowsOf_concat {row : JournalRow}
    (hunique : Rows.Unique (·.sequence) (table.filter (·.runId = row.runId)))
    (h : ∀ old ∈ rowsOf row.runId table, old.sequence < row.sequence) :
    rowsOf row.runId (table ++ [row]) = rowsOf row.runId table ++ [row] := by
  refine Rows.orderBy_eq_of_perm ?_ ?_
  · rw [List.filter_append, List.filter_singleton, decide_eq_true rfl]
    exact rowsOf_perm.append_right [row]
  · rw [List.pairwise_append]
    refine ⟨hunique.pairwise_orderBy, List.pairwise_singleton _ _, fun old hold new hnew ↦ ?_⟩
    rw [List.mem_singleton.mp hnew]
    exact h old hold

/-- An event that was sealed for the rows of its run follows them. -/
theorem RunVerified.concat {rows : List JournalRow} (h : RunVerified event.runId rows)
    (hsealed : Sealed event rows) : RunVerified event.runId (rows ++ [event.toRow]) := by
  obtain ⟨check, hcheck, -⟩ := h
  have hof := RunCheck.of_foldlM hcheck
  obtain ⟨events, hevents, s, hs⟩ := hsealed.replays
  -- decoding is a function, so what was decoded before sealing is what the check has collected
  have hsame : events = check.events := by
    have hleft := mapM_eq_ok.mpr hevents
    rw [mapM_eq_ok.mpr hof.events] at hleft
    exact (Except.ok.inj hleft).symm
  have hsequence : event.sequence = rows.length + 1 := by
    rw [hsealed.eq_seal]
    rfl
  have hdecode : decode event.toRow = .ok event :=
    decode_toRow hsealed.payload_sorted (by omega) hsealed.kind_ne
  have hprevious : event.previousDigest = check.prior := by
    rw [hof.prior, hsealed.eq_seal]
    rfl
  have hdigest : event.eventDigest = jsonDigest (event.toDocument false) := by
    rw [hsealed.eq_seal]
    rfl
  refine ⟨_, Trace.foldlM_concat_eq_ok.mpr ⟨check, hcheck, checkRow_eq_ok.mpr
    ⟨event, hdecode, hsequence.trans hof.sequence.symm, hprevious, hdigest, rfl, rfl⟩⟩,
    fun _ ↦ ⟨s, ?_⟩⟩
  rw [← hsame]
  exact hs

/-! ## Interleavings -/

/-- The two phases of an append. The second one is over, for better or worse, when its transaction
is. -/
def journalProtocol : TwoPhase.Protocol (List JournalRow) ExecutionEvent where
  drift _ _ := False
  reads table event := ∃ call table', prepareAppend call table = .ok event table'
  commits table event table' :=
    (∃ u, commitAppend event table = .ok u table') ∨
      ∃ e, commitAppend event table = .error e table'

/-- What an append knows between its phases. -/
def AppendKnows (event : ExecutionEvent) (table : List JournalRow) : Prop :=
  ∃ rows, rows <+: rowsOf event.runId table ∧ Sealed event rows

/-- The rows of every run after an insertion. -/
theorem rowsOf_insert (hverify : verify table = .ok ())
    (hsequence : event.sequence = (rowsOf event.runId table).length + 1) (runId : String) :
    rowsOf runId (table ++ [event.toRow]) =
      if event.runId = runId then rowsOf runId table ++ [event.toRow] else rowsOf runId table := by
  by_cases hrun : event.runId = runId
  · subst hrun
    rw [if_pos rfl]
    obtain ⟨check, hcheck, -⟩ := verify_eq_ok.mp hverify event.runId
    have hunique : Rows.Unique (·.sequence) (table.filter (·.runId = event.toRow.runId)) :=
      unique_of_foldlM rowsOf_perm hcheck
    refine rowsOf_concat hunique fun old hold ↦ ?_
    have hof := RunCheck.of_foldlM hcheck
    have hlt := hof.bounded old hold
    rw [hof.sequence, ← hsequence] at hlt
    exact hlt
  · rw [if_neg hrun]
    exact rowsOf_concat_of_ne hrun

theorem commitAppend_keeps {u : Unit} (hverify : verify table = .ok ())
    (hknows : AppendKnows event table) (h : commitAppend event table = .ok u table') :
    verify table' = .ok () ∧ ∀ other, AppendKnows other table → AppendKnows other table' := by
  obtain ⟨rows, hbegin, hsealed⟩ := hknows
  obtain ⟨hcount, rfl⟩ := commitAppend_eq_ok h
  have hsequence : event.sequence = rows.length + 1 := by
    rw [hsealed.eq_seal]
    rfl
  -- as many rows as were read, and so the same rows
  obtain rfl : rows = rowsOf event.runId table :=
    hbegin.eq_of_length (by rw [hcount, hsequence]; rfl)
  have hinsert := rowsOf_insert hverify hsequence
  constructor
  · rw [verify_eq_ok]
    intro runId
    rw [hinsert runId]
    by_cases hrun : event.runId = runId
    · subst hrun
      rw [if_pos rfl]
      exact (verify_eq_ok.mp hverify event.runId).concat hsealed
    · rw [if_neg hrun]
      exact verify_eq_ok.mp hverify runId
  · rintro other ⟨rows', hbegin', hsealed'⟩
    refine ⟨rows', ?_, hsealed'⟩
    rw [hinsert other.runId]
    by_cases hrun : event.runId = other.runId
    · rw [if_pos hrun]
      exact hbegin'.trans (List.prefix_append _ _)
    · rw [if_neg hrun]
      exact hbegin'

/-- **The journal passes `verify` throughout, and an append that raises commits nothing.** -/
theorem journal_sound {start : List JournalRow}
    {c : TwoPhase.System (List JournalRow) ExecutionEvent} (hstart : verify start = .ok ()) (h : TwoPhase.Reaches journalProtocol start c) :
    verify c.shared = .ok () ∧
      (∀ call e table, prepareAppend call c.shared = .error e table → table = c.shared) ∧
      ∀ event ∈ c.pending, ∀ e table, commitAppend event c.shared = .error e table →
        table = c.shared := by
  have hreads : ∀ table event, verify table = .ok () → journalProtocol.reads table event →
      AppendKnows event table := by
    rintro table event - ⟨call, table', hread⟩
    exact ⟨_, List.prefix_refl _, (prepareAppend_eq_ok hread).2⟩
  have hcommits : ∀ table event table', verify table = .ok () → AppendKnows event table →
      journalProtocol.commits table event table' →
      verify table' = .ok () ∧ ∀ other, AppendKnows other table → AppendKnows other table' := by
    rintro table event table' hverify hknows (⟨u, hcommit⟩ | ⟨e, hcommit⟩)
    · exact commitAppend_keeps hverify hknows hcommit
    · obtain rfl := atomic_commitAppend event table e table' hcommit
      exact ⟨hverify, fun _ hother ↦ hother⟩
  obtain ⟨hverify, -⟩ := h.invariant (fun table ↦ verify table = .ok ()) AppendKnows hstart
    (fun _ _ _ hdrift ↦ False.elim hdrift) hreads hcommits
  exact ⟨hverify, fun call e table ↦ atomic_prepareAppend call c.shared e table,
    fun event _ e table ↦ atomic_commitAppend event c.shared e table⟩

end Appends

/-! ## Two appends of one event -/

/-- A caller who may only initialize runs. -/
def initializeCall : AppendCall where
  readOnly := false
  runId := digestOf 'a'
  kind := "run.initialized"
  payload := .ofMembers [("plan_digest", .str (digestOf '1')),
    ("generation_id", .str (digestOf '2')), ("subject_id", .str (digestOf '3')),
    ("compilation_digest", .str (digestOf '4')), ("node_ids", .arr [.str "build"])]
  payload_sorted :=
    ⟨by decide +kernel, trivial, trivial, ⟨trivial, trivial⟩, trivial, trivial, trivial⟩
  executorAuthority := false

/-- The event is sealed without a look at the rest of the world. -/
theorem prepareAppend_initializeCall :
    prepareAppend initializeCall [] =
      .ok (sealEvent initializeCall.runId initializeCall.kind initializeCall.payload []) [] := by
  rfl

omit [Hash256] in
theorem commitAppend_nil {event : ExecutionEvent} (h : event.sequence = 1) :
    commitAppend event [] = .ok () [event.toRow] := by
  rw [commitAppend, transaction_eq_ok]
  simp only [run_bind_eq_ok, run_guard_eq_ok, run_get_eq_ok, run_modify_eq_ok, not_not]
  exact ⟨[], [], ⟨rfl, rfl⟩, by rw [h]; rfl, nofun, nofun, rfl⟩

/-- Both have read before either has written. -/
theorem reaches_initializeCall :
    ∃ c, TwoPhase.Reaches journalProtocol [] c ∧ c.shared ≠ [] ∧ c.pending ≠ [] := by
  let event := sealEvent initializeCall.runId initializeCall.kind initializeCall.payload []
  have hread : journalProtocol.reads [] event :=
    ⟨initializeCall, [], prepareAppend_initializeCall⟩
  have hcommit : journalProtocol.commits [] event [event.toRow] := .inl ⟨(), commitAppend_nil rfl⟩
  refine ⟨⟨[event.toRow], [event]⟩, ?_, nofun, nofun⟩
  exact ((Relation.ReflTransGen.single (.read event hread)).tail (.read event hread)).tail
    (.commit [] [event] event hcommit)

end Digests

theorem initializeCall_journal_sound :
    ∃ c, TwoPhase.Reaches journalProtocol [] c ∧ c.shared ≠ [] ∧ c.pending ≠ [] ∧
      verify c.shared = .ok () := by
  obtain ⟨c, hc, hshared, hpending⟩ := reaches_initializeCall
  exact ⟨c, hc, hshared, hpending, (journal_sound (by rfl) hc).1⟩

end HiveMind.Dag
