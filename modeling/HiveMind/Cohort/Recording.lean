import HiveMind.Cohort.Safety

/-!
# Recording a cohort

A run writes down what it does: each event is appended to a journal that has been read back in full,
and has to be one that `_validate_transition` takes. As long as the numbers of the events have eight
digits and the outputs have a canonical text, no append fails, and replaying the journal gives the
variables of the run.

Every package needs at most two events, its dispatch and its result, so the room that a run needs is
known when it starts. It is carried along with the invariant.

* **`Recorded`**: the journal of a run, replayed, gives the results and the batches of the run.
-/

open Raise

namespace HiveMind.Cohort

/-! ## Documents -/

/-- The payload of a result, as it is read back. -/
def resultDocument (r : PackageRunResult) (output : Json.Dict) (source : String) : Json.Dict :=
  .ofMembers [("package_id", .str r.packageId), ("state", .str r.state.value),
    ("output", output.toJson), ("evidence_refs", .arr (r.evidenceRefs.map .str)),
    ("message", .str r.message), ("source", .str source)]

def dispatchDocument (batchIndex : ℕ) (launched : List String) (activeCount : ℕ) : Json.Dict :=
  .ofMembers [("batch_index", .int batchIndex), ("package_ids", .arr (launched.map .str)),
    ("active_count", .int activeCount)]

def convergenceDocument (r : ConvergenceResult) (output : Json.Dict) : Json.Dict :=
  .ofMembers [("accepted", .bool r.accepted), ("output", output.toJson), ("message", .str r.message)]

def verificationDocument (r : VerificationResult) : Json.Dict :=
  .ofMembers [("passed", .bool r.passed), ("checks", .arr (r.checks.map .str)),
    ("message", .str r.message)]

def completionDocument (r : CohortRunResult) : Json.Dict :=
  .ofMembers [("status", .str r.status.value), ("package_count", .int r.packageResults.length),
    ("dispatch_batch_count", .int r.dispatchBatches.length),
    ("max_parallelism", .int r.maxParallelism)]

section Documents

variable {output : Json.Dict}

theorem plain_str (s : String) : PyValue.plain (.str s) = .ok (.str s) := by rw [PyValue.plain]

theorem plain_bool (b : Bool) : PyValue.plain (.bool b) = .ok (.bool b) := by rw [PyValue.plain]

theorem reread_resultEntry {r : PackageRunResult} (h : PyValue.reread r.output = .ok output)
    (source : String) :
    PyValue.reread (resultEntry r source).payload = .ok (resultDocument r output source) := by
  refine PyValue.reread_of_forall₂ (.cons ⟨rfl, plain_str _⟩ (.cons ⟨rfl, plain_str _⟩
    (.cons ⟨rfl, PyValue.plain_dict_of_reread h⟩ (.cons ⟨rfl, PyValue.plain_list_str _⟩
      (.cons ⟨rfl, plain_str _⟩ (.cons ⟨rfl, plain_str _⟩ .nil))))))

theorem reread_dispatchEntry {batchIndex activeCount : ℕ} (hindex : batchIndex < 10 ^ 8)
    (hcount : activeCount < 10 ^ 8) (launched : List String) :
    PyValue.reread (dispatchEntry batchIndex launched activeCount).payload =
      .ok (dispatchDocument batchIndex launched activeCount) := by
  refine PyValue.reread_of_forall₂ (.cons ⟨rfl, PyValue.plain_int_of_lt hindex⟩
    (.cons ⟨rfl, PyValue.plain_list_str _⟩ (.cons ⟨rfl, PyValue.plain_int_of_lt hcount⟩ .nil)))

theorem reread_convergenceEntry {r : ConvergenceResult}
    (h : PyValue.reread r.output = .ok output) :
    PyValue.reread (convergenceEntry r).payload = .ok (convergenceDocument r output) := by
  refine PyValue.reread_of_forall₂ (.cons ⟨rfl, plain_bool _⟩
    (.cons ⟨rfl, PyValue.plain_dict_of_reread h⟩ (.cons ⟨rfl, plain_str _⟩ .nil)))

theorem reread_verificationEntry (r : VerificationResult) :
    PyValue.reread (verificationEntry r).payload = .ok (verificationDocument r) := by
  refine PyValue.reread_of_forall₂ (.cons ⟨rfl, plain_bool _⟩
    (.cons ⟨rfl, PyValue.plain_list_str _⟩ (.cons ⟨rfl, plain_str _⟩ .nil)))

theorem reread_completionEntry {r : CohortRunResult} (hpackages : r.packageResults.length < 10 ^ 8)
    (hbatches : r.dispatchBatches.length < 10 ^ 8) (hparallelism : r.maxParallelism < 10 ^ 8) :
    PyValue.reread (completionEntry r).payload = .ok (completionDocument r) := by
  refine PyValue.reread_of_forall₂ (.cons ⟨rfl, plain_str _⟩
    (.cons ⟨rfl, PyValue.plain_int_of_lt hpackages⟩ (.cons ⟨rfl, PyValue.plain_int_of_lt hbatches⟩
      (.cons ⟨rfl, PyValue.plain_int_of_lt hparallelism⟩ .nil))))

theorem get?_resultDocument (r : PackageRunResult) (source name : String) :
    (resultDocument r output source).get? name = List.lookup name
      [("package_id", .str r.packageId), ("state", .str r.state.value),
        ("output", output.toJson), ("evidence_refs", .arr (r.evidenceRefs.map .str)),
        ("message", .str r.message), ("source", .str source)] := by
  refine Json.Dict.get?_ofMembers ?_ name
  change ["package_id", "state", "output", "evidence_refs", "message", "source"].Nodup
  decide

theorem get?_dispatchDocument (batchIndex activeCount : ℕ) (launched : List String) (name : String) :
    (dispatchDocument batchIndex launched activeCount).get? name = List.lookup name
      [("batch_index", .int batchIndex), ("package_ids", .arr (launched.map .str)),
        ("active_count", .int activeCount)] := by
  refine Json.Dict.get?_ofMembers ?_ name
  change ["batch_index", "package_ids", "active_count"].Nodup
  decide

theorem get?_convergenceDocument (r : ConvergenceResult) (name : String) :
    (convergenceDocument r output).get? name = List.lookup name
      [("accepted", .bool r.accepted), ("output", output.toJson), ("message", .str r.message)] := by
  refine Json.Dict.get?_ofMembers ?_ name
  change ["accepted", "output", "message"].Nodup
  decide

theorem get?_verificationDocument (r : VerificationResult) (name : String) :
    (verificationDocument r).get? name = List.lookup name
      [("passed", .bool r.passed), ("checks", .arr (r.checks.map .str)),
        ("message", .str r.message)] := by
  refine Json.Dict.get?_ofMembers ?_ name
  change ["passed", "checks", "message"].Nodup
  decide

theorem get?_completionDocument (r : CohortRunResult) :
    (completionDocument r).get? "status" = some (.str r.status.value) := by
  refine (Json.Dict.get?_ofMembers ?_ "status").trans rfl
  change ["status", "package_count", "dispatch_batch_count", "max_parallelism"].Nodup
  decide

theorem PackageRunState.ofValue?_value (state : PackageRunState) :
    ofValue? state.value = some state := by
  cases state <;> rfl

theorem CohortRunStatus.ofValue?_value (status : CohortRunStatus) :
    ofValue? status.value = some status := by
  cases status <;> rfl

theorem asStrings?_arr_map_str (texts : List String) :
    (Json.arr (texts.map .str)).asStrings? = some texts :=
  Json.asStrings?_eq_some.mpr rfl

/-- A result comes back with its output as it is read back. -/
theorem packageResultFromDocument_resultDocument (r : PackageRunResult) (source : String) :
    packageResultFromDocument (resultDocument r output source) =
      .ok { r with output := PyValue.ofJsonItems output.members } := by
  have hid : textOf? (resultDocument r output source) "package_id" = some r.packageId := by
    rw [textOf?, get?_resultDocument]
    rfl
  have hstate : (textOf? (resultDocument r output source) "state").bind PackageRunState.ofValue? =
      some r.state := by
    rw [textOf?, get?_resultDocument]
    exact PackageRunState.ofValue?_value r.state
  have houtput : mappingOf? (resultDocument r output source) "output" =
      some (PyValue.ofJsonItems output.members) := by
    rw [mappingOf?, get?_resultDocument]
    rfl
  have hrefs : textsOf? (resultDocument r output source) "evidence_refs" = some r.evidenceRefs := by
    rw [textsOf?, get?_resultDocument]
    exact asStrings?_arr_map_str r.evidenceRefs
  have hmessage : textOf? (resultDocument r output source) "message" = some r.message := by
    rw [textOf?, get?_resultDocument]
    rfl
  simp only [packageResultFromDocument, hid, hstate, houtput, hrefs, hmessage, required, ok_bind,
    dif_neg r.named, dif_pos r.distinct]
  rfl

theorem convergenceFromDocument_convergenceDocument (r : ConvergenceResult) :
    convergenceFromDocument (convergenceDocument r output) =
      .ok { r with output := PyValue.ofJsonItems output.members } := by
  have haccepted : boolOf? (convergenceDocument r output) "accepted" = some r.accepted := by
    rw [boolOf?, get?_convergenceDocument]
    rfl
  have houtput : mappingOf? (convergenceDocument r output) "output" =
      some (PyValue.ofJsonItems output.members) := by
    rw [mappingOf?, get?_convergenceDocument]
    rfl
  have hmessage : textOf? (convergenceDocument r output) "message" = some r.message := by
    rw [textOf?, get?_convergenceDocument]
    rfl
  simp only [convergenceFromDocument, haccepted, houtput, hmessage, required, ok_bind]
  rfl

theorem verificationFromDocument_verificationDocument (r : VerificationResult) :
    verificationFromDocument (verificationDocument r) = .ok r := by
  have hpassed : boolOf? (verificationDocument r) "passed" = some r.passed := by
    rw [boolOf?, get?_verificationDocument]
    rfl
  have hchecks : textsOf? (verificationDocument r) "checks" = some r.checks := by
    rw [textsOf?, get?_verificationDocument]
    exact asStrings?_arr_map_str r.checks
  have hmessage : textOf? (verificationDocument r) "message" = some r.message := by
    rw [textOf?, get?_verificationDocument]
    rfl
  simp only [verificationFromDocument, hpassed, hchecks, hmessage, required, ok_bind,
    dif_pos r.distinct]
  rfl

end Documents

/-! ## Transitions -/

section Transitions

variable {records : List CohortJournalEvent} {kind : CohortJournalEventKind} {payload : Json.Dict}

/-- The events of a run that may come any time before its end. -/
theorem validateTransition_of_open (hne : records ≠ [])
    (hopen : ∀ item ∈ records, item.kind ≠ .runCompleted)
    (hkind : kind = .dispatch ∨ kind = .convergence ∨ kind = .verification ∨ kind = .runCompleted) :
    validateTransition records kind payload = .ok () := by
  obtain ⟨before, last, rfl⟩ := List.eq_nil_or_concat' records |>.resolve_left hne
  have hlast : last.kind ≠ .runCompleted := hopen last (by simp)
  have hnone : ¬∃ item ∈ before ++ [last], item.kind = .runCompleted :=
    fun ⟨item, hmem, hitem⟩ ↦ hopen item hmem hitem
  rw [validateTransition, List.getLast?_concat]
  rcases hkind with rfl | rfl | rfl | rfl <;>
    simp only [hlast, hnone, reduceCtorEq, if_false, false_and, and_false] <;> rfl

theorem validateTransition_packageResult (hne : records ≠ [])
    (hopen : ∀ item ∈ records, item.kind ≠ .runCompleted) {id : String}
    (hid : (payload.get? "package_id").bind Json.asStr? = some id) (hnamed : id ≠ "")
    (hfresh : ∀ item ∈ records, item.resultOf? ≠ some id) :
    validateTransition records .packageResult payload = .ok () := by
  obtain ⟨before, last, rfl⟩ := List.eq_nil_or_concat' records |>.resolve_left hne
  have hlast : last.kind ≠ .runCompleted := hopen last (by simp)
  have hnone : ¬∃ item ∈ before ++ [last], item.resultOf? = some id :=
    fun ⟨item, hmem, hitem⟩ ↦ hfresh item hmem hitem
  rw [validateTransition, List.getLast?_concat]
  simp only [hlast, hid, hnamed, hnone, reduceCtorEq, if_false, false_and, if_true]
  rfl

end Transitions

/-! ## Journals of a run -/

/-- Events of the loop were added at the end of a journal. -/
structure Grows (journal journal' : RunJournal) (records records' : List CohortJournalEvent)
    (count : ℕ) : Prop where
  files : ∃ files, journal'.files = journal.files ++ files ∧ files.length = count
  numbered : Numbered.Consecutive "event-" ".json" 8 journal.files →
    Numbered.Consecutive "event-" ".json" 8 journal'.files
  records : ∃ added, records' = records ++ added ∧
    ∀ item ∈ added, item.kind = .dispatch ∨ item.kind = .packageResult

namespace Grows

variable {journal journal' journal'' : RunJournal}
  {records records' records'' : List CohortJournalEvent} {count count' : ℕ}

theorem refl (journal : RunJournal) (records : List CohortJournalEvent) :
    Grows journal journal records records 0 :=
  ⟨⟨[], (List.append_nil _).symm, rfl⟩, id,
    ⟨[], (List.append_nil _).symm, fun _ h ↦ absurd h List.not_mem_nil⟩⟩

theorem trans (h : Grows journal journal' records records' count)
    (h' : Grows journal' journal'' records' records'' count') :
    Grows journal journal'' records records'' (count + count') := by
  obtain ⟨files, hfiles, hcount⟩ := h.files
  obtain ⟨files', hfiles', hcount'⟩ := h'.files
  obtain ⟨added, rfl, hadded⟩ := h.records
  obtain ⟨added', rfl, hadded'⟩ := h'.records
  refine ⟨⟨files ++ files', ?_, ?_⟩, h'.numbered ∘ h.numbered, added ++ added', ?_, ?_⟩
  · rw [hfiles', hfiles, List.append_assoc]
  · rw [List.length_append, hcount, hcount']
  · rw [List.append_assoc]
  · intro item hitem
    rcases List.mem_append.mp hitem with hitem | hitem
    · exact hadded item hitem
    · exact hadded' item hitem

theorem length (h : Grows journal journal' records records' count) :
    journal'.files.length = journal.files.length + count := by
  obtain ⟨files, hfiles, hcount⟩ := h.files
  rw [hfiles, List.length_append, hcount]

end Grows

variable [Hash256] {x : CohortRun} {s : RunState} {journal : RunJournal}
  {records : List CohortJournalEvent} {r r' : Retained}

/-- An event can be appended to a journal with some room left. -/
theorem exists_record (h : Holds x.kickoff.runId journal records) {entry : Entry}
    {payload : Json.Dict} (hreread : PyValue.reread entry.payload = .ok payload)
    (hlegal : validateTransition records entry.kind payload = .ok ())
    (hfew : journal.files.length + 1 < 10 ^ 8) :
    ∃ journal' event text, x.record (some journal) entry = .ok (some journal') ∧
      journal'.files = journal.files ++ [(eventName (journal.files.length + 1), text)] ∧
      event.kind = entry.kind ∧ event.payload = payload ∧
      Holds x.kickoff.runId journal' (records ++ [event]) := by
  obtain ⟨journal', text, happend, hfiles, hholds⟩ :=
    h.append hreread (x.dated journal.files.length) hlegal hfew
  refine ⟨journal', _, text, ?_, hfiles, rfl, rfl, hholds⟩
  rw [CohortRun.record, happend]
  rfl

/-- The journal of a run whose loop is not over: replayed, it gives the results and the batches of
the run. -/
structure Recorded (x : CohortRun) (s : RunState) (journal : RunJournal)
    (records : List CohortJournalEvent) (r : Retained) : Prop where
  hasJournal : s.journal = some journal
  holds : Holds x.kickoff.runId journal records
  nonempty : records ≠ []
  incomplete : ∀ item ∈ records, item.kind ≠ .runCompleted
  fresh : ∀ item ∈ records, ∀ id, item.resultOf? = some id → s.results id ≠ none
  replays : records.tail.foldlM (replayEvent x.graph) .empty = .ok r
  results : r.results = s.results
  batches : r.batches = s.batches
  maxParallelism : r.maxParallelism = s.maxParallelism

/-- One more event of an execution is appended and replayed. -/
theorem Recorded.extend (h : Recorded x s journal records r) {entry : Entry} {payload : Json.Dict}
    (hreread : PyValue.reread entry.payload = .ok payload)
    (hlegal : validateTransition records entry.kind payload = .ok ())
    (hkind : entry.kind ≠ .runCompleted) (hfew : journal.files.length + 1 < 10 ^ 8)
    (hreplay : ∀ event : CohortJournalEvent, event.kind = entry.kind → event.payload = payload →
      replayEvent x.graph r event = .ok r') :
    ∃ journal' event text, x.record s.journal entry = .ok (some journal') ∧
      journal'.files = journal.files ++ [(eventName (journal.files.length + 1), text)] ∧
      event.kind = entry.kind ∧ event.payload = payload ∧
      ∀ s' : RunState, s'.journal = some journal' → r'.results = s'.results →
        r'.batches = s'.batches → r'.maxParallelism = s'.maxParallelism →
        (∀ id, s.results id ≠ none → s'.results id ≠ none) →
        (∀ id, event.resultOf? = some id → s'.results id ≠ none) →
        Recorded x s' journal' (records ++ [event]) r' := by
  obtain ⟨journal', event, text, hrecord, hfiles, hkind', hpayload, hholds⟩ :=
    exists_record h.holds hreread hlegal hfew
  refine ⟨journal', event, text, h.hasJournal ▸ hrecord, hfiles, hkind', hpayload, ?_⟩
  intro s' hjournal hresults hbatches hmax hkept hevent
  refine ⟨hjournal, hholds, by simp, ?_, ?_, ?_, hresults, hbatches, hmax⟩
  · intro item hitem
    rcases List.mem_append.mp hitem with hitem | hitem
    · exact h.incomplete item hitem
    · rw [List.mem_singleton.mp hitem, hkind']
      exact hkind
  · intro item hitem id hid
    rcases List.mem_append.mp hitem with hitem | hitem
    · exact hkept id (h.fresh item hitem id hid)
    · exact hevent id (List.mem_singleton.mp hitem ▸ hid)
  · rw [List.tail_append_of_ne_nil h.nonempty]
    exact Trace.foldlM_concat_eq_ok.mpr ⟨r, h.replays, hreplay event hkind' hpayload⟩

/-- One more event of the loop is appended and replayed. -/
theorem Recorded.append (h : Recorded x s journal records r) {entry : Entry} {payload : Json.Dict}
    (hreread : PyValue.reread entry.payload = .ok payload)
    (hlegal : validateTransition records entry.kind payload = .ok ())
    (hkind : entry.kind = .dispatch ∨ entry.kind = .packageResult)
    (hfew : journal.files.length + 1 < 10 ^ 8)
    (hreplay : ∀ event : CohortJournalEvent, event.kind = entry.kind → event.payload = payload →
      replayEvent x.graph r event = .ok r') :
    ∃ journal' event, x.record s.journal entry = .ok (some journal') ∧
      Grows journal journal' records (records ++ [event]) 1 ∧
      event.kind = entry.kind ∧ event.payload = payload ∧
      ∀ s' : RunState, s'.journal = some journal' → r'.results = s'.results →
        r'.batches = s'.batches → r'.maxParallelism = s'.maxParallelism →
        (∀ id, s.results id ≠ none → s'.results id ≠ none) →
        (∀ id, event.resultOf? = some id → s'.results id ≠ none) →
        Recorded x s' journal' (records ++ [event]) r' := by
  have hopen : entry.kind ≠ .runCompleted := by
    rcases hkind with hkind | hkind <;> rw [hkind] <;> decide
  obtain ⟨journal', event, text, hrecord, hfiles, hkind', hpayload, hrecorded⟩ :=
    h.extend hreread hlegal hopen hfew hreplay
  refine ⟨journal', event, hrecord, ⟨⟨_, hfiles, rfl⟩, fun hnumbered ↦ ?_, [event], rfl, ?_⟩, hkind',
    hpayload, hrecorded⟩
  · rw [hfiles]
    exact hnumbered.concat text
  · exact List.forall_mem_singleton.mpr (hkind' ▸ hkind)

/-- Where a result may come from. -/
def SourceFits (r : Retained) (result : PackageRunResult) (source : String) : Prop :=
  (source = "executor" ∧ result.packageId ∈ r.dispatched) ∨
    (source = "policy" ∧ result.state = .blockedPolicy) ∨
    (source = "dependency" ∧ result.state = .blockedDependency)

omit [Hash256] in
theorem replayResult_resultDocument {graph : OutcomeGraphSpec} {result : PackageRunResult}
    {source : String} {output : Json.Dict} (houtput : result.output = PyValue.ofJsonItems output.members)
    (hknown : result.packageId ∈ graph.ids) (hnone : r.results result.packageId = none)
    (hsource : SourceFits r result source) :
    replayResult graph r (resultDocument result output source) =
      .ok { r with results := Function.update r.results result.packageId (some result) } := by
  have hdocument : packageResultFromDocument (resultDocument result output source) = .ok result := by
    rw [packageResultFromDocument_resultDocument, ← houtput]
  have htext : textOf? (resultDocument result output source) "source" = some source := by
    rw [textOf?, get?_resultDocument]
    rfl
  have hnotIn : ¬result.packageId ∉ graph.ids := not_not.mpr hknown
  rw [replayResult, hdocument]
  rcases hsource with ⟨rfl, hdispatched⟩ | ⟨rfl, hstate⟩ | ⟨rfl, hstate⟩
  · simp [htext, hknown, hnone, hdispatched]
    rfl
  · simp [htext, hknown, hnone, hstate]
    rfl
  · simp [htext, hknown, hnone, hstate]
    rfl

/-- A result is written down. -/
theorem Recorded.packageResult (h : Recorded x s journal records r) {result : PackageRunResult}
    {source : String} (hencodable : Encodable result.output)
    (hknown : result.packageId ∈ x.graph.ids) (hnone : s.results result.packageId = none)
    (hsource : SourceFits r result source) (hfew : journal.files.length + 1 < 10 ^ 8) :
    ∃ journal' event,
      x.recordPackageResult s.journal result source = .ok (result.normalized, some journal') ∧
      Grows journal journal' records (records ++ [event]) 1 ∧
      ∀ s' : RunState, s'.journal = some journal' →
        s'.results = Function.update s.results result.packageId (some result.normalized) →
        s'.batches = s.batches → s'.maxParallelism = s.maxParallelism →
        Recorded x s' journal' (records ++ [event])
          { r with
            results := Function.update r.results result.packageId (some result.normalized) } := by
  obtain ⟨output, houtput⟩ := encodable_iff.mp hencodable
  have hnormalize : normalize result.output = PyValue.ofJsonItems output.members := by
    rw [normalize, houtput]
  have hreread := reread_resultEntry (r := result.normalized) (reread_normalize houtput) source
  have hid : ((resultDocument result.normalized output source).get? "package_id").bind Json.asStr? =
      some result.packageId := by
    rw [get?_resultDocument]
    rfl
  have hlegal := validateTransition_packageResult h.nonempty h.incomplete hid result.named
    fun item hitem hresult ↦ h.fresh item hitem _ hresult hnone
  have hnone' : r.results result.normalized.packageId = none := by
    rw [h.results]
    exact hnone
  obtain ⟨journal', event, hrecord, hgrows, hkind, hpayload, hrecorded⟩ :=
    h.append hreread hlegal (.inr rfl) hfew fun event hkind hpayload ↦ by
      rw [replayEvent, hkind]
      simp only [resultEntry]
      rw [hpayload]
      exact replayResult_resultDocument hnormalize hknown hnone' hsource
  refine ⟨journal', event, ?_, hgrows, ?_⟩
  · rw [h.hasJournal] at hrecord ⊢
    rw [CohortRun.recordPackageResult, canonicalOutput_eq_ok.mpr ⟨hencodable, rfl⟩, ok_bind]
    exact bind_eq_ok.mpr ⟨some journal', hrecord, rfl⟩
  · intro s' hjournal hresults hbatches hmax
    refine hrecorded s' hjournal ?_ (h.batches.trans hbatches.symm) (h.maxParallelism.trans hmax.symm)
      (fun id hsome ↦ ?_) (fun id hevent ↦ ?_)
    · rw [hresults, h.results]
      rfl
    · rw [hresults]
      by_cases heq : id = result.packageId
      · subst heq
        simp
      · rwa [Function.update_of_ne heq]
    · rw [CohortJournalEvent.resultOf?, hkind, hpayload, if_pos (by rfl), hid] at hevent
      obtain rfl := Option.some.inj hevent
      rw [hresults]
      simp

omit [Hash256] in
theorem replayDispatch_dispatchDocument {graph : OutcomeGraphSpec} {batchIndex activeCount : ℕ}
    {launched : List String} (hlaunched : launched ≠ []) (hknown : ∀ id ∈ launched, id ∈ graph.ids)
    (hactive : 0 < activeCount) :
    replayDispatch graph r (dispatchDocument batchIndex launched activeCount) =
      .ok { r with
        batches := r.batches ++ [launched]
        dispatched := r.dispatched ++ launched
        maxParallelism := max r.maxParallelism activeCount } := by
  have hids : textsOf? (dispatchDocument batchIndex launched activeCount) "package_ids" =
      some launched := by
    rw [textsOf?, get?_dispatchDocument]
    exact asStrings?_arr_map_str launched
  have hcount : natOf? (dispatchDocument batchIndex launched activeCount) "active_count" =
      some activeCount := by
    rw [natOf?, get?_dispatchDocument]
    simp [List.lookup, Json.asNat?]
  have hvalid : ¬(launched = [] ∨ (∃ id ∈ launched, id ∉ graph.ids) ∨ activeCount < 1) := by
    rintro (hnil | ⟨id, hid, hnotMem⟩ | hzero)
    · exact hlaunched hnil
    · exact hnotMem (hknown id hid)
    · omega
  rw [replayDispatch, hids, hcount]
  simp only [required, ok_bind, if_neg hvalid]
  rfl

/-- A dispatch is written down. -/
theorem Recorded.dispatch (h : Recorded x s journal records r) {launched : List String}
    (hlaunched : launched ≠ []) (hknown : ∀ id ∈ launched, id ∈ x.graph.ids)
    (hactive : 0 < s.active.length) (hcount : s.active.length < 10 ^ 8)
    (hbatches : s.batches.length + 1 < 10 ^ 8) (hfew : journal.files.length + 1 < 10 ^ 8) :
    ∃ journal' event s', x.dispatch s launched = .ok s' ∧
      Grows journal journal' records (records ++ [event]) 1 ∧
      s' = { s with
        batches := s.batches ++ [launched]
        maxParallelism := max s.maxParallelism s.active.length
        journal := some journal' } ∧
      Recorded x s' journal' (records ++ [event])
        { r with
          batches := r.batches ++ [launched]
          dispatched := r.dispatched ++ launched
          maxParallelism := max r.maxParallelism s.active.length } := by
  have hindex : (s.batches ++ [launched]).length < 10 ^ 8 := by
    rw [List.length_append, List.length_singleton]
    exact hbatches
  have hreplay : ∀ event : CohortJournalEvent, event.kind = .dispatch →
      event.payload = dispatchDocument (s.batches ++ [launched]).length launched s.active.length →
      replayEvent x.graph r event = .ok { r with
        batches := r.batches ++ [launched]
        dispatched := r.dispatched ++ launched
        maxParallelism := max r.maxParallelism s.active.length } := by
    intro event hkind hpayload
    rw [replayEvent, hkind]
    simp only
    rw [hpayload]
    exact replayDispatch_dispatchDocument hlaunched hknown hactive
  obtain ⟨journal', event, hrecord, hgrows, hkind, hpayload, hrecorded⟩ :=
    h.append (reread_dispatchEntry hindex hcount launched)
      (validateTransition_of_open h.nonempty h.incomplete (.inl rfl)) (.inl rfl) hfew
      hreplay
  refine ⟨journal', event, _, ?_, hgrows, rfl, ?_⟩
  · rw [CohortRun.dispatch, if_neg hlaunched]
    exact bind_eq_ok.mpr ⟨some journal', hrecord, rfl⟩
  · refine hrecorded _ rfl h.results ?_ ?_ (fun _ hsome ↦ hsome) fun id hevent ↦ ?_
    · rw [h.batches]
    · rw [h.maxParallelism]
    · rw [CohortJournalEvent.resultOf?, hkind, if_neg (by rintro ⟨⟩)] at hevent
      cases hevent

/-! ## The loop -/

/-- What is retained of the end of an execution. -/
def Retained.SameEnd (r r' : Retained) : Prop :=
  r'.convergence = r.convergence ∧ r'.verification = r.verification ∧ r'.completion = r.completion

theorem Recorded.foldlM_block (h : Recorded x s journal records r) (hinv : s.Inv x)
    {ps : List OutcomeWorkPackage} (hps : ∀ p ∈ ps, p ∈ x.graph.packages ∧
      p.packageId ∈ s.pending ∧ p.dependencies.any s.results.failed = true)
    (hnodup : (ps.map (·.packageId)).Nodup) (hfew : journal.files.length + ps.length < 10 ^ 8) :
    ∃ s' journal' records' r', ps.foldlM x.block s = .ok s' ∧
      Grows journal journal' records records' ps.length ∧
      Recorded x s' journal' records' r' ∧ r'.dispatched = r.dispatched ∧ r.SameEnd r' := by
  induction ps generalizing s journal records r with
  | nil => exact ⟨s, journal, records, r, rfl, .refl journal records, h, rfl, rfl, rfl, rfl⟩
  | cons p ps ih =>
    obtain ⟨⟨hp, hpending, hfailed⟩, hps⟩ := List.forall_mem_cons.mp hps
    obtain ⟨hnotMem, hnodup⟩ := List.nodup_cons.mp hnodup
    rw [List.length_cons] at hfew
    obtain ⟨d, hd⟩ := Option.isSome_iff_exists.mp
      ((List.find?_isSome (p := s.results.failed)).mpr (List.any_eq_true.mp hfailed))
    let result := p.refused .blockedDependency ("dependency " ++ d ++ " did not succeed")
    have hsource : SourceFits r result "dependency" := .inr (.inr ⟨rfl, rfl⟩)
    have hknown : result.packageId ∈ x.graph.ids := List.mem_map_of_mem hp
    obtain ⟨journal', event, hrecord, hgrows, hrecorded⟩ :=
      h.packageResult encodable_nil hknown (hinv.pendingOk _ hpending).2.1 hsource (by omega)
    let next : RunState := { s with
      results := Function.update s.results p.packageId (some result.normalized)
      pending := s.pending.erase p.packageId
      journal := some journal' }
    have hblock : x.block s p = .ok next := by
      simp only [CohortRun.block, hd, bind_eq_ok, pure_eq_ok]
      exact ⟨_, hrecord, rfl⟩
    obtain ⟨hnext, hblocked⟩ := hinv.block hpending hfailed hblock
    have hrests : ∀ q ∈ ps, q ∈ x.graph.packages ∧ q.packageId ∈ next.pending ∧
        q.dependencies.any next.results.failed = true := by
      intro q hq
      obtain ⟨hq', hqpending, hqfailed⟩ := hps q hq
      have hne : q.packageId ∉ [p.packageId] := fun hmem ↦
        packageId_ne hnotMem hq (List.mem_singleton.mp hmem)
      obtain ⟨e, he, hefailed⟩ := List.any_eq_true.mp hqfailed
      exact ⟨hq', (hblocked.pending _).mpr ⟨hqpending, hne⟩,
        List.any_eq_true.mpr ⟨e, he, Results.Extends.failed hblocked.extends_ hefailed⟩⟩
    have hlength := hgrows.length
    obtain ⟨s', journal'', records', r', hfold, hgrows', hrecorded', hdispatched, hsame⟩ :=
      ih (hrecorded next rfl rfl rfl rfl) hnext hrests hnodup (by omega)
    refine ⟨s', journal'', records', r', ?_, ?_, hrecorded', hdispatched, hsame⟩
    · exact Trace.foldlM_cons_eq_ok.mpr ⟨next, hblock, hfold⟩
    · rw [List.length_cons, Nat.add_comm]
      exact hgrows.trans hgrows'

/-- The number of dispatches that are still to be written down. -/
def Position.due : Position → ℕ
  | launched ids => min 1 ids.length
  | _ => 0

/-- The journal of a run, wherever it is in its loop. -/
structure Machine.Recorded (x : CohortRun) (m : Machine) (journal : RunJournal)
    (records : List CohortJournalEvent) (r : Retained) : Prop where
  state : Cohort.Recorded x m.state journal records r
  dispatched : ∀ id ∈ m.state.activeIds,
    id ∈ r.dispatched ∨ ∃ ids, m.position = .launched ids ∧ id ∈ ids
  launched : ∀ ids, m.position = .launched ids → ∀ id ∈ ids, id ∈ m.state.activeIds
  room : journal.files.length + 2 * m.state.pending.length + m.state.active.length +
    m.position.due + 3 < 10 ^ 8
  batches : m.state.batches.length ≤ journal.files.length

/-- A run may be where it is without its answers having a canonical text. -/
def Answered (s : RunState) : Prop :=
  ∀ f ∈ s.active, Encodable (f.package.settle f.answer).output

/-- What a signal makes of the journal. -/
structure Continues (x : CohortRun) (m m' : Machine) (journal : RunJournal)
    (records : List CohortJournalEvent) (r : Retained) : Prop where
  recorded : ∃ journal' records' r' count, m'.Recorded x journal' records' r' ∧
    Grows journal journal' records records' count ∧ r.SameEnd r'
  raises : ∀ e, m'.position = .raised e → m.position = .raised e ∨ e = noProgress ∨ ¬Answered m.state

variable {m : Machine}

theorem Machine.Recorded.continues (h : m.Recorded x journal records r) :
    Continues x m m journal records r :=
  ⟨⟨journal, records, r, 0, h, .refl _ _, rfl, rfl, rfl⟩, fun _ he ↦ .inl he⟩

/-- The position changes, and nothing else. -/
theorem Machine.Recorded.at (h : m.Recorded x journal records r) {position : Position}
    (hfrom : ∀ ids, m.position ≠ .launched ids) (hto : ∀ ids, position ≠ .launched ids) :
    Machine.Recorded x ⟨m.state, position⟩ journal records r := by
  refine ⟨h.state, fun id hid ↦ ?_, fun ids hids ↦ absurd hids (hto ids), ?_, h.batches⟩
  · rcases h.dispatched id hid with hdispatched | ⟨ids, hids, -⟩
    · exact .inl hdispatched
    · exact absurd hids (hfrom ids)
  · have hdue : position.due = 0 := by
      cases position with
      | launched ids => exact absurd rfl (hto ids)
      | _ => rfl
    have hroom := h.room
    simp only [hdue]
    omega

theorem Machine.Recorded.pass (hinv : s.Inv x)
    (h : Machine.Recorded x ⟨s, .scheduling⟩ journal records r) :
    Continues x ⟨s, .scheduling⟩ (x.pass s) journal records r := by
  rw [CohortRun.pass]
  by_cases hdone : s.pending = [] ∧ s.active = []
  · rw [if_pos hdone]
    exact ⟨⟨journal, records, r, 0, h.at (by rintro _ ⟨⟩) (by rintro _ ⟨⟩),
      .refl _ _, rfl, rfl, rfl⟩, by rintro _ ⟨⟩⟩
  rw [if_neg hdone]
  have hnodup : ((s.blocked x.graph).map (·.packageId)).Nodup :=
    ((List.filter_sublist).map _).nodup (nodup_pendingPackages x.compiled.nodup hinv.pendingNodup)
  have hsubset : (s.blocked x.graph).map (·.packageId) ⊆ s.pending := by
    intro id hid
    obtain ⟨p, hp, rfl⟩ := List.mem_map.mp hid
    exact (RunState.mem_blocked.mp hp).1.2
  have hcount := (List.subperm_of_subset hnodup hsubset).length_le
  rw [List.length_map] at hcount
  have hroom := h.room
  simp only [Position.due] at hroom
  have hstate : Cohort.Recorded x s journal records r := h.state
  have hps : ∀ p ∈ s.blocked x.graph, p ∈ x.graph.packages ∧ p.packageId ∈ s.pending ∧
      p.dependencies.any s.results.failed = true := fun p hp ↦
    and_assoc.mp (RunState.mem_blocked.mp hp)
  obtain ⟨s', journal', records', r', hfold, hgrows, hrecorded, hdispatched, hsame⟩ :=
    hstate.foldlM_block hinv hps hnodup (by omega)
  rw [hfold]
  obtain ⟨hmiddle, hblocked, -, hlaunches⟩ := halves_of_pass hinv hfold rfl
  refine ⟨⟨journal', records', r', _, ⟨?_, ?_, ?_, ?_, ?_⟩, hgrows, hsame⟩, by rintro _ ⟨⟩⟩
  · exact ⟨hlaunches.journal.trans hrecorded.hasJournal, hrecorded.holds, hrecorded.nonempty,
      hrecorded.incomplete, fun item hitem id hid ↦ by
        rw [hlaunches.results]
        exact hrecorded.fresh item hitem id hid, hrecorded.replays,
      hrecorded.results.trans hlaunches.results.symm, hrecorded.batches.trans hlaunches.batches.symm,
      hrecorded.maxParallelism.trans hlaunches.maxParallelism.symm⟩
  · intro id hid
    rw [hlaunches.ids] at hid
    rcases List.mem_append.mp hid with hid | hid
    · rw [RunState.activeIds, hblocked.active] at hid
      rcases h.dispatched id hid with hid | ⟨_, hids, -⟩
      · exact .inl (hdispatched ▸ hid)
      · cases hids
    · exact .inr ⟨_, rfl, hid⟩
  · rintro _ hids id hid
    obtain rfl := Position.launched.inj hids
    rw [hlaunches.ids]
    exact List.mem_append_right _ hid
  · -- blocked packages have left for one event each, launched ones for a common one
    have hsum : s'.pending.length + (s.blocked x.graph).length ≤ s.pending.length := by
      have happend : (s'.pending ++ (s.blocked x.graph).map (·.packageId)).Nodup :=
        List.nodup_append.mpr ⟨hmiddle.pendingNodup, hnodup, fun id hid id' hid' heq ↦
          ((hblocked.pending id).mp hid).2 (heq ▸ hid')⟩
      have hle := (List.subperm_of_subset happend (List.append_subset.mpr
        ⟨fun id hid ↦ ((hblocked.pending id).mp hid).1, hsubset⟩)).length_le
      rwa [List.length_append, List.length_map] at hle
    have htotal := hlaunches.total
    have hlength := hlaunches.length
    have hactive := congrArg List.length hblocked.active
    have hfiles := hgrows.length
    simp only [Position.due]
    omega
  · rw [hlaunches.batches, hblocked.batches, hgrows.length]
    exact h.batches.trans (Nat.le_add_right _ _)

theorem Machine.Recorded.await {ids : List String} (hinv : s.Inv x)
    (h : Machine.Recorded x ⟨s, .launched ids⟩ journal records r) :
    Continues x ⟨s, .launched ids⟩ (x.await s ids) journal records r := by
  have hstate : Cohort.Recorded x s journal records r := h.state
  have hgoOn : ∀ s' ids, (goOn s').position ≠ .launched ids := by
    intro s' ids
    rw [goOn]
    by_cases hactive : s'.active = []
    · by_cases hpending : s'.pending = [] <;> simp [hactive, hpending]
    · simp [hactive]
  have hdue : ∀ s', (goOn s').position.due = 0 := by
    intro s'
    cases hposition : (goOn s').position with
    | launched ids => exact absurd hposition (hgoOn s' ids)
    | _ => rfl
  have hraises : ∀ s' e, (goOn s').position = .raised e → e = noProgress := by
    intro s' e
    rw [goOn]
    by_cases hactive : s'.active = []
    · by_cases hpending : s'.pending = []
      · simp [hactive, hpending]
      · simp [hactive, hpending, eq_comm]
    · simp [hactive]
  have hroom := h.room
  rw [CohortRun.await]
  by_cases hids : ids = []
  · subst hids
    rw [CohortRun.dispatch, if_pos rfl]
    refine ⟨⟨journal, records, r, 0, ⟨hstate, fun id hid ↦ ?_, fun ids hids ↦
      absurd hids (hgoOn s ids), ?_, h.batches⟩, .refl _ _, rfl, rfl, rfl⟩,
      fun e he ↦ .inr (.inl (hraises s e he))⟩
    · rcases h.dispatched id hid with hdispatched | ⟨_, hnil, hmem⟩
      · exact .inl hdispatched
      · obtain rfl := Position.launched.inj hnil
        exact absurd hmem List.not_mem_nil
    · rw [hdue]
      exact hroom
  · have hpos : 0 < ids.length := List.length_pos_iff.mpr hids
    have hmem : ∀ id ∈ ids, id ∈ s.activeIds := h.launched ids rfl
    have hactive : 0 < s.active.length := by
      obtain ⟨id, hid⟩ := List.exists_mem_of_ne_nil ids hids
      have hlength := List.length_pos_of_mem (hmem id hid)
      rwa [RunState.activeIds, List.length_map] at hlength
    have hone : min 1 ids.length = 1 := by omega
    simp only [Position.due, hone] at hroom
    have hbatches : s.batches.length ≤ journal.files.length := h.batches
    obtain ⟨journal', event, s', hdispatch, hgrows, rfl, hrecorded⟩ := hstate.dispatch hids
      (fun id hid ↦ by
        obtain ⟨f, hf, rfl⟩ := List.mem_map.mp (hmem id hid)
        exact List.mem_map_of_mem (hinv.activeOk f hf).1)
      hactive (by omega) (by omega) (by omega)
    have hfiles := hgrows.length
    rw [hdispatch]
    refine ⟨⟨journal', _, _, 1, ⟨hrecorded, fun id hid ↦ ?_, fun ids hids ↦
      absurd hids (hgoOn _ ids), ?_, ?_⟩, hgrows, rfl, rfl, rfl⟩,
      fun e he ↦ .inr (.inl (hraises _ e he))⟩
    · rcases h.dispatched id hid with hdispatched | ⟨_, hlaunched, hmem⟩
      · exact .inl (List.mem_append_left _ hdispatched)
      · obtain rfl := Position.launched.inj hlaunched
        exact .inl (List.mem_append_right _ hmem)
    · rw [hdue]
      change journal'.files.length + 2 * s.pending.length + s.active.length + 0 + 3 < 10 ^ 8
      omega
    · change (s.batches ++ [ids]).length ≤ journal'.files.length
      rw [List.length_append, List.length_singleton]
      omega

theorem Machine.Recorded.drain (hinv : m.state.Inv x) (h : m.Recorded x journal records r)
    (hposition : m.position = .waiting ∨ m.position = .draining) (id : String) :
    Continues x m (x.drain m id) journal records r := by
  have hnotLaunched : ∀ ids, m.position ≠ .launched ids := by
    rintro ids hids
    rcases hposition with hposition | hposition <;> cases hposition.symm.trans hids
  have hdispatched : ∀ id ∈ m.state.activeIds, id ∈ r.dispatched := by
    intro id hid
    rcases h.dispatched id hid with hid | ⟨ids, hids, -⟩
    · exact hid
    · exact absurd hids (hnotLaunched ids)
  have hdue : m.position.due = 0 := by
    rcases hposition with hposition | hposition <;> rw [hposition] <;> rfl
  rw [CohortRun.drain]
  cases hfind : m.state.active.find? (·.package.packageId = id) with
  | none => exact h.continues
  | some f =>
    have hf := List.mem_of_find?_eq_some hfind
    by_cases hencodable : Encodable (f.package.settle f.answer).output
    · have hsettled := f.package.packageId_settle f.answer
      obtain ⟨hp, hnone⟩ := hinv.activeOk f hf
      have hroom := h.room
      have hactive := List.length_pos_of_mem hf
      have hsource : SourceFits r (f.package.settle f.answer) "executor" :=
        .inl ⟨rfl, hsettled ▸ hdispatched _ (List.mem_map_of_mem hf)⟩
      obtain ⟨journal', event, hrecord, hgrows, hrecorded⟩ := h.state.packageResult hencodable
        (hsettled ▸ List.mem_map_of_mem hp) (hsettled ▸ hnone) hsource (by omega)
      let s' : RunState := { m.state with
        active := m.state.active.eraseP (·.package.packageId = f.package.packageId)
        activePaths := m.state.activePaths.filter (· ∉ f.package.allowedPaths)
        activeLocks := m.state.activeLocks.filter (· ∉ f.package.semanticLocks)
        results := Function.update m.state.results f.package.packageId
          (some (f.package.settle f.answer).normalized)
        journal := some journal' }
      have hcomplete : x.complete m.state f = .ok s' := by
        simp only [CohortRun.complete, bind_eq_ok, pure_eq_ok]
        exact ⟨_, hrecord, rfl⟩
      obtain ⟨-, -, hpending, -, hsublist, hlength⟩ := hinv.complete hf hcomplete
      have hfiles := hgrows.length
      simp only [hcomplete]
      refine ⟨⟨journal', _, _, 1, ⟨hrecorded s' rfl (by rw [hsettled]) rfl rfl, fun id hid ↦ ?_,
        by rintro _ ⟨⟩, ?_, ?_⟩, hgrows, rfl, rfl, rfl⟩, by rintro _ ⟨⟩⟩
      · exact .inl (hdispatched id ((hsublist.map _).subset hid))
      · simp only [Position.due, hpending]
        omega
      · exact h.batches.trans (hfiles ▸ Nat.le_succ _)
    · have hanswered : ¬Answered m.state := fun hall ↦ hencodable (hall f hf)
      cases hcomplete : x.complete m.state f with
      | error e =>
        simp only [hcomplete]
        exact ⟨⟨journal, records, r, 0, h.at hnotLaunched (by rintro _ ⟨⟩), .refl _ _, rfl,
          rfl, rfl⟩, fun _ _ ↦ .inr (.inr hanswered)⟩
      | ok s' =>
        -- the output has no canonical text
        simp only [CohortRun.complete, bind_eq_ok] at hcomplete
        obtain ⟨_, hrecord, -⟩ := hcomplete
        rw [h.state.hasJournal, CohortRun.recordPackageResult, canonicalOutput_eq_error hencodable]
          at hrecord
        cases hrecord

/-- A signal keeps the journal of a run. It raises nothing, but for a run that cannot go on and an
output without a canonical text. -/
theorem Machine.Recorded.advance (hinv : m.Inv x) (h : m.Recorded x journal records r)
    (signal : Signal) : Continues x m (x.advance m signal) journal records r := by
  obtain ⟨s, position⟩ := m
  cases position with
  | finished | raised => exact h.continues
  | scheduling =>
    cases signal with
    | completes => exact h.continues
    | tick => exact h.pass hinv.state
  | launched ids =>
    cases signal with
    | completes => exact h.continues
    | tick => exact h.await hinv.state
  | waiting =>
    cases signal with
    | completes id => exact h.drain hinv.state (.inl rfl) id
    | tick => exact h.continues
  | draining =>
    cases signal with
    | completes id => exact h.drain hinv.state (.inr rfl) id
    | tick =>
      exact ⟨⟨journal, records, r, 0, h.at (fun _ h ↦ (nomatch h)) fun _ h ↦ (nomatch h),
        .refl _ _, rfl, rfl, rfl⟩, fun _ h ↦ (nomatch h)⟩

end HiveMind.Cohort
