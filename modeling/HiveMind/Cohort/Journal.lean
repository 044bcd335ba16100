import HiveMind.Cohort.Results
import HiveMind.Lib.Numbered
import HiveMind.Lib.Trace

/-!
# The journal of a cohort

A run has a directory with a file for each of its events. The files are numbered, each one holds
the canonical text of a document that names the digest of the document before it, and all of them
are read again before an event is appended. The events have to be in an order that
`_validate_transition` takes, both when they are read and when they are appended.

Files are read in the order of their names, so a directory can be read as long as the numbers fit
the eight digits of a name.

* **`Holds.append`**: what is appended to a journal that can be read is read back.
-/

open Raise

namespace HiveMind.Cohort

/-! ## Events -/

inductive CohortJournalEventKind where
  | kickoff
  | dispatch
  | packageResult
  | convergence
  | verification
  | repairAttempt
  | repairResult
  | terminalEvidence
  | runCompleted
  deriving DecidableEq

namespace CohortJournalEventKind

def value : CohortJournalEventKind → String
  | kickoff => "kickoff"
  | dispatch => "dispatch"
  | packageResult => "package_result"
  | convergence => "convergence"
  | verification => "verification"
  | repairAttempt => "repair_attempt"
  | repairResult => "repair_result"
  | terminalEvidence => "terminal_evidence"
  | runCompleted => "run_completed"

/-- `CohortJournalEventKind(value)`. -/
def ofValue? : String → Option CohortJournalEventKind
  | "kickoff" => some kickoff
  | "dispatch" => some dispatch
  | "package_result" => some packageResult
  | "convergence" => some convergence
  | "verification" => some verification
  | "repair_attempt" => some repairAttempt
  | "repair_result" => some repairResult
  | "terminal_evidence" => some terminalEvidence
  | "run_completed" => some runCompleted
  | _ => none

theorem ofValue?_value (kind : CohortJournalEventKind) : ofValue? kind.value = some kind := by
  cases kind <;> rfl

end CohortJournalEventKind

structure CohortJournalEvent where
  sequence : ℕ
  runId : String
  kind : CohortJournalEventKind
  payload : Json.Dict
  recordedAt : String
  previousDigest : Option String
  eventDigest : String
  deriving DecidableEq

/-- The package of the result that an event records. -/
def CohortJournalEvent.resultOf? (event : CohortJournalEvent) : Option String :=
  if event.kind = .packageResult then (event.payload.get? "package_id").bind Json.asStr? else none

/-- `_validate_transition`. -/
def validateTransition (records : List CohortJournalEvent) (kind : CohortJournalEventKind)
    (payload : Json.Dict) : Except RunError Unit :=
  match records.getLast? with
  | none => do
    if kind ≠ .kickoff then
      throw (.journal "cohort journal must begin with kickoff")
    return
  | some last => do
    if kind = .kickoff then
      throw (.journal "cohort kickoff is immutable")
    if last.kind = .runCompleted then
      throw (.journal "completed cohort journal is terminal")
    if kind = .runCompleted ∧ ∃ item ∈ records, item.kind = .runCompleted then
      throw (.journal "cohort completion may be recorded only once")
    if kind = .repairAttempt ∧ ∃ item ∈ records, item.kind = .repairAttempt then
      throw (.journal "cohort repair may be attempted only once")
    if kind = .repairResult ∧ ¬∃ item ∈ records, item.kind = .repairAttempt then
      throw (.journal "repair result requires a repair attempt")
    if kind = .repairResult ∧ ∃ item ∈ records, item.kind = .repairResult then
      throw (.journal "cohort repair result may be recorded only once")
    if kind = .packageResult then
      match (payload.get? "package_id").bind Json.asStr? with
      | none => throw (.journal "package result requires a package id")
      | some packageId =>
        if packageId = "" then
          throw (.journal "package result requires a package id")
        if ∃ item ∈ records, item.resultOf? = some packageId then
          throw (.journal ("package " ++ packageId ++ " completion may be recorded only once"))
    return

/-! ## Files -/

/-- The journal of a run: the files of its directory, with their names, and what the store
remembers of the run. -/
structure RunJournal where
  files : List (String × String)
  seen : Option (ℕ × String)

/-- `f"event-{sequence:08d}.json"`. -/
def eventName (sequence : ℕ) : String := Numbered.name "event-" ".json" 8 sequence

/-- Whether a value is equal to one, which a number and a truth value can be. -/
def equalsOne : Json → Bool
  | .int n => n = 1
  | .bool b => b
  | .float x => Json.floatChars x = ['1', '.', '0']
  | _ => false

/-- The fields of an event, in name order. -/
def eventFields : List String :=
  ["event_digest", "kind", "payload", "previous_digest", "recorded_at", "run_id", "schema_version",
    "sequence"]

/-- `_body` of the document of an event. -/
def eventBody (event : CohortJournalEvent) : List (String × Json) :=
  [("kind", .str event.kind.value), ("payload", event.payload.toJson),
    ("previous_digest", (event.previousDigest.map Json.str).getD .null),
    ("recorded_at", .str event.recordedAt), ("run_id", .str event.runId),
    ("schema_version", .int 1), ("sequence", .int event.sequence)]

/-- A value, if there is one. -/
def required {α : Type} (value : Option α) (error : RunError) : Except RunError α :=
  match value with
  | none => .error error
  | some a => .ok a

theorem required_eq_ok {α : Type} {value : Option α} {error : RunError} {a : α} :
    required value error = .ok a ↔ value = some a := by
  cases value with
  | none => exact ⟨fun h ↦ (nomatch h), fun h ↦ (nomatch h)⟩
  | some b => rw [required, Except.ok.injEq, Option.some.injEq]

variable [Hash256]

/-- One turn of the loop of `_read`, after the records of the files before. -/
def readEvent (runId : String) (records : List CohortJournalEvent) (file : String × String) :
    Except RunError (List CohortJournalEvent) := do
  let sequence := records.length + 1
  let previous := records.getLast?.map (·.eventDigest)
  let members ← required ((Json.loads file.2).bind Json.asObj?)
    (.journal "cohort journal cannot be safely replayed")
  let document := Json.Dict.ofMembers members
  if document.names ≠ eventFields then
    throw (.journal "invalid cohort journal event fields")
  let payload ← required ((document.get? "payload").bind Json.asObj?)
    (.journal "cohort journal digest chain mismatch")
  let recordedAt ← required ((document.get? "recorded_at").bind Json.asStr?)
    (.journal "cohort journal digest chain mismatch")
  let digest := jsonDigest (.obj (document.members.filter fun m ↦ m.1 ≠ "event_digest"))
  if file.1 ≠ eventName sequence ∨ (document.get? "schema_version").map equalsOne ≠ some true ∨
      document.get? "sequence" ≠ some (.int sequence) ∨
      document.get? "run_id" ≠ some (.str runId) ∨
      document.get? "previous_digest" ≠ some ((previous.map Json.str).getD .null) ∨
      recordedAt = "" ∨ document.get? "event_digest" ≠ some (.str digest) ∨
      file.2 ≠ document.toJson.dumps ++ "\n" then
    throw (.journal "cohort journal digest chain mismatch")
  let kind ← required (((document.get? "kind").bind Json.asStr?).bind
    CohortJournalEventKind.ofValue?) (.journal "cohort journal cannot be safely replayed")
  validateTransition records kind (.ofMembers payload)
  return records ++ [⟨sequence, runId, kind, .ofMembers payload, recordedAt, previous, digest⟩]

/-- What was observed before is still there. -/
def Unchanged (seen : Option (ℕ × String)) (records : List CohortJournalEvent) : Prop :=
  ∀ countDigest ∈ seen, (records[countDigest.1 - 1]?).map (·.eventDigest) = some countDigest.2

instance (seen : Option (ℕ × String)) (records : List CohortJournalEvent) :
    Decidable (Unchanged seen records) :=
  inferInstanceAs (Decidable (∀ countDigest ∈ seen, _))

/-- What a store remembers of a run after it has read its records. -/
def remember (seen : Option (ℕ × String)) (records : List CohortJournalEvent) :
    Option (ℕ × String) :=
  match records.getLast? with
  | none => seen
  | some last => some (records.length, last.eventDigest)

/-- `_read`: the records, and what the store remembers afterwards. -/
def RunJournal.read (runId : String) (journal : RunJournal) :
    Except RunError (List CohortJournalEvent × RunJournal) := do
  let records ← (Numbered.sort journal.files).foldlM (readEvent runId) []
  if ¬Unchanged journal.seen records then
    throw (.journal "previously observed cohort history changed")
  return (records, { journal with seen := remember journal.seen records })

/-- An event that is not yet appended: its kind, and the items of its payload. -/
structure Entry where
  kind : CohortJournalEventKind
  payload : List (String × PyValue)

/-- The event that an append makes of its arguments. -/
def appendedEvent (runId recordedAt : String) (records : List CohortJournalEvent)
    (kind : CohortJournalEventKind) (payload : Json.Dict) : CohortJournalEvent :=
  let previous := records.getLast?.map (·.eventDigest)
  let event : CohortJournalEvent :=
    ⟨records.length + 1, runId, kind, payload, recordedAt, previous, ""⟩
  { event with eventDigest := jsonDigest (.obj (eventBody event)) }

/-- The document of an event. -/
def eventDocument (event : CohortJournalEvent) : Json :=
  .obj (("event_digest", .str event.eventDigest) :: eventBody event)

/-- `append`, at a time of which the text is given. -/
def RunJournal.append (runId recordedAt : String) (journal : RunJournal) (entry : Entry) :
    Except RunError RunJournal := do
  let payload ← (PyValue.reread entry.payload).mapError fun _ ↦
    .journal "journal payload must be canonical JSON"
  let (records, journal) ← journal.read runId
  validateTransition records entry.kind payload
  let event := appendedEvent runId recordedAt records entry.kind payload
  let destination := eventName (records.length + 1)
  if destination ∈ journal.files.map Prod.fst then
    throw (.journal "cohort journal append failed")
  return ⟨journal.files ++ [(destination, (eventDocument event).dumps ++ "\n")],
    some (records.length + 1, event.eventDigest)⟩

/-! ## Journals that can be read -/

/-- The journal holds the records, and can be read and written. -/
structure Holds (runId : String) (journal : RunJournal) (records : List CohortJournalEvent) :
    Prop where
  few : journal.files.length < 10 ^ 8
  replays : (Numbered.sort journal.files).foldlM (readEvent runId) [] = .ok records
  unchanged : Unchanged journal.seen records

variable {runId recordedAt : String} {journal journal' : RunJournal}
  {records records' : List CohortJournalEvent} {kind : CohortJournalEventKind}
  {payload : Json.Dict} {entry : Entry}

theorem readEvent_eq_ok {file : String × String}
    (h : readEvent runId records file = .ok records') :
    file.1 = eventName (records.length + 1) ∧ ∃ event, records' = records ++ [event] := by
  simp only [readEvent, bind_eq_ok, guard_eq_ok, pure_eq_ok, not_or, not_not] at h
  obtain ⟨_, -, -, _, -, _, -, ⟨hname, -⟩, _, -, _, -, h⟩ := h
  exact ⟨hname, _, h⟩

omit [Hash256] in
theorem pairwise_eventDocument (event : CohortJournalEvent) :
    ((("event_digest", Json.str event.eventDigest) :: eventBody event).map Prod.fst).Pairwise
      (· < ·) := by
  change eventFields.Pairwise (· < ·)
  decide

omit [Hash256] in
theorem sorted_eventDocument {event : CohortJournalEvent} (h : event.payload.toJson.Sorted) :
    (eventDocument event).Sorted := by
  have hprevious : Json.Sorted ((event.previousDigest.map Json.str).getD .null) := by
    cases event.previousDigest <;> trivial
  exact ⟨pairwise_eventDocument event, trivial, trivial, h, hprevious, trivial, trivial, trivial,
    trivial, trivial⟩

/-- What an append writes is read back. -/
theorem readEvent_appendedEvent (hsorted : payload.toJson.Sorted) (hrecordedAt : recordedAt ≠ "")
    (hlegal : validateTransition records kind payload = .ok ()) :
    readEvent runId records (eventName (records.length + 1),
        (eventDocument (appendedEvent runId recordedAt records kind payload)).dumps ++ "\n") =
      .ok (records ++ [appendedEvent runId recordedAt records kind payload]) := by
  let event := appendedEvent runId recordedAt records kind payload
  have hloads : (Json.loads ((eventDocument event).dumps ++ "\n")).bind Json.asObj? =
      some (("event_digest", .str event.eventDigest) :: eventBody event) := by
    rw [Json.loads_dumps_newline (sorted_eventDocument hsorted)]
    rfl
  have hmembers : Json.Dict.ofMembers (("event_digest", .str event.eventDigest) :: eventBody event) =
      ⟨_, pairwise_eventDocument event⟩ := Json.Dict.ofMembers_members ⟨_, pairwise_eventDocument event⟩
  have hpayload : Json.Dict.ofMembers payload.members = payload :=
    Json.Dict.ofMembers_members payload
  simp only [readEvent, bind_eq_ok, guard_eq_ok, pure_eq_ok, required_eq_ok]
  refine ⟨_, hloads, ?_⟩
  rw [hmembers]
  refine ⟨not_not.mpr rfl, payload.members, rfl, recordedAt, rfl, ?_, kind, ?_, (), ?_, ?_⟩
  · simp only [not_or, not_not]
    exact ⟨trivial, rfl, rfl, rfl, rfl, hrecordedAt, rfl, rfl⟩
  · exact CohortJournalEventKind.ofValue?_value kind
  · rw [hpayload]
    exact hlegal
  · rw [hpayload]
    rfl

/-- Each file is one more event, and has its number. -/
theorem exists_of_foldlM {files : List (String × String)} {before after : List CohortJournalEvent}
    (h : files.foldlM (readEvent runId) before = .ok after) :
    (∃ events, after = before ++ events ∧ events.length = files.length) ∧
      files.map Prod.fst =
        (List.range files.length).map fun n ↦ eventName (before.length + n + 1) := by
  induction files generalizing before with
  | nil => exact ⟨⟨[], by rw [Trace.foldlM_nil_eq_ok.mp h, List.append_nil], rfl⟩, rfl⟩
  | cons file files ih =>
    obtain ⟨next, hread, hrest⟩ := Trace.foldlM_cons_eq_ok.mp h
    obtain ⟨hname, event, rfl⟩ := readEvent_eq_ok hread
    obtain ⟨⟨events, rfl, hlength⟩, hnames⟩ := ih hrest
    refine ⟨⟨event :: events, List.append_assoc _ _ _, by simp [hlength]⟩, ?_⟩
    rw [List.map_cons, hname, hnames, List.length_cons, List.range_succ_eq_map, List.map_cons,
      List.map_map, List.length_append, List.length_singleton]
    refine congrArg _ (List.map_congr_left fun n _ ↦ ?_)
    rw [Function.comp_apply, Nat.add_right_comm _ 1 n]
    rfl

namespace Holds

theorem length_eq (h : Holds runId journal records) : records.length = journal.files.length := by
  obtain ⟨⟨events, rfl, hlength⟩, -⟩ := exists_of_foldlM h.replays
  rw [← Numbered.length_sort, ← hlength]

theorem consecutive (h : Holds runId journal records) :
    Numbered.Consecutive "event-" ".json" 8 (Numbered.sort journal.files) := by
  have hnames := (exists_of_foldlM h.replays).2
  rw [Numbered.Consecutive, hnames]
  refine List.map_congr_left fun n _ ↦ ?_
  rw [List.length_nil, Nat.zero_add, eventName]

theorem read (h : Holds runId journal records) :
    journal.read runId = .ok (records, { journal with seen := remember journal.seen records }) := by
  rw [RunJournal.read, h.replays]
  exact if_neg (not_not.mpr h.unchanged)

end Holds

/-- A journal that can be read holds what was read. -/
theorem holds_of_read {out : List CohortJournalEvent × RunJournal}
    (h : journal.read runId = .ok out) (hfew : journal.files.length < 10 ^ 8) :
    Holds runId journal out.1 ∧
      out.2 = { journal with seen := remember journal.seen out.1 } := by
  simp only [RunJournal.read, bind_eq_ok, guard_eq_ok, pure_eq_ok, not_not] at h
  obtain ⟨records, hreplays, hunchanged, rfl⟩ := h
  exact ⟨⟨hfew, hreplays, hunchanged⟩, rfl⟩

omit [Hash256] in
theorem unchanged_remember {seen : Option (ℕ × String)} (h : Unchanged seen records) :
    Unchanged (remember seen records) records := by
  rcases List.eq_nil_or_concat' records with rfl | ⟨before, last, rfl⟩
  · exact h
  · have hremember : remember seen (before ++ [last]) =
        some ((before ++ [last]).length, last.eventDigest) := by
      rw [remember, List.getLast?_concat]
    rw [hremember]
    intro countDigest hseen
    obtain rfl := Option.mem_some_iff.mp hseen
    simp

theorem Holds.remember (h : Holds runId journal records) :
    Holds runId { journal with seen := remember journal.seen records } records :=
  ⟨h.few, h.replays, unchanged_remember h.unchanged⟩

/-- The next event of a journal that can be read has a name of its own, and is read back. -/
theorem Holds.publish (h : Holds runId journal records) (hsorted : payload.toJson.Sorted)
    (hrecordedAt : recordedAt ≠ "") (hlegal : validateTransition records kind payload = .ok ())
    (hfew : journal.files.length + 1 < 10 ^ 8) :
    eventName (records.length + 1) ∉ journal.files.map Prod.fst ∧
    Holds runId ⟨journal.files ++ [(eventName (records.length + 1),
        (eventDocument (appendedEvent runId recordedAt records kind payload)).dumps ++ "\n")],
      some (records.length + 1,
        (appendedEvent runId recordedAt records kind payload).eventDigest)⟩
      (records ++ [appendedEvent runId recordedAt records kind payload]) := by
  let event := appendedEvent runId recordedAt records kind payload
  let file := (eventName (records.length + 1), (eventDocument event).dumps ++ "\n")
  have hafter : ∀ file' ∈ journal.files, file'.1 < file.1 := by
    intro file' hfile'
    have hlt := h.consecutive.lt (by rwa [Numbered.length_sort]) (Numbered.mem_sort.mpr hfile')
    rwa [Numbered.length_sort, ← h.length_eq] at hlt
  refine ⟨?_, ?_, ?_, ?_⟩
  · intro hmem
    obtain ⟨file', hfile', heq⟩ := List.mem_map.mp hmem
    exact (hafter file' hfile').ne heq
  · rw [List.length_append, List.length_singleton]
    exact hfew
  · rw [Numbered.sort_concat fun file' hfile' ↦ (hafter file' hfile').le]
    refine Trace.foldlM_concat_eq_ok.mpr ⟨records, h.replays, ?_⟩
    exact readEvent_appendedEvent hsorted hrecordedAt hlegal
  · intro countDigest hseen
    obtain rfl := Option.mem_some_iff.mp hseen
    simp

/-- What is appended to a journal that can be read is read back. -/
theorem Holds.append (h : Holds runId journal records)
    (hreread : PyValue.reread entry.payload = .ok payload) (hrecordedAt : recordedAt ≠ "")
    (hlegal : validateTransition records entry.kind payload = .ok ())
    (hfew : journal.files.length + 1 < 10 ^ 8) :
    ∃ journal' text, journal.append runId recordedAt entry = .ok journal' ∧
      journal'.files = journal.files ++ [(eventName (journal.files.length + 1), text)] ∧
      Holds runId journal'
        (records ++ [appendedEvent runId recordedAt records entry.kind payload]) := by
  obtain ⟨hname, hholds⟩ :=
    h.publish (PyValue.sorted_of_reread hreread) hrecordedAt hlegal hfew
  refine ⟨_, (eventDocument (appendedEvent runId recordedAt records entry.kind payload)).dumps ++
    "\n", ?_, ?_, hholds⟩
  · rw [RunJournal.append, hreread, h.read]
    refine bind_eq_ok.mpr ⟨payload, rfl, bind_eq_ok.mpr ⟨_, rfl, bind_eq_ok.mpr ⟨(), hlegal, ?_⟩⟩⟩
    exact if_neg hname
  · rw [← h.length_eq]

/-- A run that has no directory yet. -/
theorem Holds.empty : Holds runId ⟨[], none⟩ [] := ⟨by decide, rfl, fun _ h ↦ (nomatch h)⟩

/-- What is left of a journal when the run stops between two appends can be read, by a store that
remembers nothing. -/
theorem Holds.take (h : Holds runId journal records)
    (hnumbered : Numbered.Consecutive "event-" ".json" 8 journal.files) (n : ℕ) :
    Holds runId ⟨journal.files.take n, none⟩ (records.take n) := by
  have hfew : (journal.files.take n).length < 10 ^ 8 :=
    lt_of_le_of_lt (List.length_take_le' n _) h.few
  refine ⟨hfew, ?_, fun _ h ↦ (nomatch h)⟩
  have hreplays := h.replays
  rw [Numbered.sort_eq_self hnumbered h.few] at hreplays
  rw [Numbered.sort_eq_self (hnumbered.take n) hfew]
  rw [← List.take_append_drop n journal.files] at hreplays
  obtain ⟨middle, hmiddle, hrest⟩ := Trace.foldlM_append_eq_ok.mp hreplays
  obtain ⟨⟨events, hrecords, -⟩, -⟩ := exists_of_foldlM hrest
  obtain ⟨⟨firsts, hfirsts, hlength⟩, -⟩ := exists_of_foldlM hmiddle
  rw [List.nil_append] at hfirsts
  subst hfirsts
  have htake : records.take n = middle := by
    have hall := h.length_eq
    rw [List.length_take] at hlength
    rw [hrecords, List.length_append] at hall
    rw [hrecords]
    by_cases hn : n ≤ journal.files.length
    · rw [List.take_append_of_le_length (by omega), List.take_of_length_le (by omega)]
    · -- nothing was cut off
      rw [min_eq_right (by omega)] at hlength
      obtain rfl := List.eq_nil_of_length_eq_zero (l := events) (by omega)
      rw [List.append_nil, List.take_of_length_le (by omega)]
  rw [htake]
  exact hmiddle

end HiveMind.Cohort
