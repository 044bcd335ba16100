import HiveMind.Cohort.Recording

/-!
# Runs with a journal

The journal of an execution is followed from its beginning on: what a replay can do to the retained
variables is said once, event by event, and gives what the loop has to start from. Then the blocks
of the policy are written down, and the signals of the run keep the journal as they did one by one.

How much room a journal needs is known at the beginning: one event for the kickoff, two for every
package, and three for the end.
-/

open Raise

namespace HiveMind.Cohort

/-! ## Replay -/

section Replay

variable {graph : OutcomeGraphSpec} {r r' : Retained} {event : CohortJournalEvent}

/-- What an event does to the retained variables. -/
structure Retained.After (r r' : Retained) (event : CohortJournalEvent) : Prop where
  results : ∀ id, r.results id ≠ none → r'.results id ≠ none
  recorded : ∀ id, event.resultOf? = some id → r'.results id ≠ none
  batches : r'.batches.length ≤ r.batches.length + 1
  completion : r'.completion = none → r.completion = none ∧ event.kind ≠ .runCompleted

theorem update_ne_none {results : Results} {id : String} {result : PackageRunResult}
    (h : results id ≠ none) (id' : String) :
    Function.update results id' (some result) id ≠ none := by
  by_cases hid : id = id'
  · subst hid
    simp
  · rwa [Function.update_of_ne hid]

theorem packageId_of_document {document : Json.Dict} {result : PackageRunResult}
    (h : packageResultFromDocument document = .ok result) :
    textOf? document "package_id" = some result.packageId := by
  simp only [packageResultFromDocument, bind_eq_ok, required_eq_ok] at h
  obtain ⟨packageId, hid, _, -, _, -, _, -, _, -, h⟩ := h
  split at h
  · cases h
  · split at h
    · obtain rfl := pure_eq_ok.mp h
      exact hid
    · cases h

theorem Retained.After.of_kind (hkind : event.kind ≠ .packageResult ∧ event.kind ≠ .runCompleted)
    (hresults : ∀ id, r.results id ≠ none → r'.results id ≠ none)
    (hbatches : r'.batches.length ≤ r.batches.length + 1) (hcompletion : r'.completion = r.completion) :
    r.After r' event := by
  refine ⟨hresults, fun id hid ↦ ?_, hbatches, fun hnone ↦ ⟨hcompletion ▸ hnone, hkind.2⟩⟩
  rw [CohortJournalEvent.resultOf?, if_neg hkind.1] at hid
  cases hid

theorem replayResult_eq_ok {payload : Json.Dict} (h : replayResult graph r payload = .ok r') :
    ∃ result, packageResultFromDocument payload = .ok result ∧ result.packageId ∈ graph.ids ∧
      r.results result.packageId = none ∧
      r' = { r with results := Function.update r.results result.packageId (some result) } := by
  simp only [replayResult, bind_eq_ok, guard_eq_ok, pure_eq_ok, not_not] at h
  obtain ⟨result, hdocument, hknown, hfresh, -, -, -, rfl⟩ := h
  exact ⟨result, hdocument, hknown, by simpa using hfresh, rfl⟩

theorem replayDispatch_eq_ok {payload : Json.Dict} (h : replayDispatch graph r payload = .ok r') :
    ∃ ids activeCount, r' = { r with
      batches := r.batches ++ [ids]
      dispatched := r.dispatched ++ ids
      maxParallelism := max r.maxParallelism activeCount } := by
  simp only [replayDispatch, bind_eq_ok, guard_eq_ok, pure_eq_ok] at h
  obtain ⟨ids, -, activeCount, -, -, rfl⟩ := h
  exact ⟨ids, activeCount, rfl⟩

theorem after_of_replayEvent (h : replayEvent graph r event = .ok r') : r.After r' event := by
  have hsame : ∀ id, r.results id ≠ none → r.results id ≠ none := fun _ hid ↦ hid
  have hbatches : r.batches.length ≤ r.batches.length + 1 := Nat.le_succ _
  rw [replayEvent] at h
  split at h <;> rename_i hkind
  · obtain rfl := Except.ok.inj h
    exact .of_kind (by simp [hkind]) hsame hbatches rfl
  · obtain rfl := Except.ok.inj h
    exact .of_kind (by simp [hkind]) hsame hbatches rfl
  · obtain ⟨ids, activeCount, rfl⟩ := replayDispatch_eq_ok h
    exact .of_kind (by simp [hkind]) hsame (by simp) rfl
  · obtain ⟨result, hdocument, -, -, rfl⟩ := replayResult_eq_ok h
    refine ⟨fun id hid ↦ update_ne_none hid _, fun id hid ↦ ?_, hbatches,
      fun hnone ↦ ⟨hnone, by simp [hkind]⟩⟩
    -- the result is the one of the package that the event names
    rw [CohortJournalEvent.resultOf?, if_pos hkind] at hid
    obtain rfl := Option.some.inj (hid.symm.trans (packageId_of_document hdocument))
    simp
  · simp only [bind_eq_ok, guard_eq_ok, pure_eq_ok] at h
    obtain ⟨-, _, -, rfl⟩ := h
    exact .of_kind (by simp [hkind]) hsame hbatches rfl
  · simp only [bind_eq_ok, guard_eq_ok, pure_eq_ok] at h
    obtain ⟨-, _, -, rfl⟩ := h
    exact .of_kind (by simp [hkind]) hsame hbatches rfl
  · simp only [bind_eq_ok, guard_eq_ok, pure_eq_ok] at h
    obtain ⟨-, status, -, rfl⟩ := h
    refine ⟨hsame, fun id hid ↦ ?_, hbatches, by rintro ⟨⟩⟩
    rw [CohortJournalEvent.resultOf?, if_neg (by simp [hkind])] at hid
    cases hid
  · obtain rfl := Except.ok.inj h
    exact .of_kind (by simp [hkind]) hsame hbatches rfl
  · split at h
    · simp only [bind_eq_ok, pure_eq_ok] at h
      obtain ⟨next, hfold, rfl⟩ := h
      have hnext : (∀ id, r.results id ≠ none → next.results id ≠ none) ∧
          next.batches = r.batches ∧ next.completion = r.completion := by
        refine Trace.history_invariant (fun _ t ↦ (∀ id, r.results id ≠ none → t.results id ≠ none) ∧
          t.batches = r.batches ∧ t.completion = r.completion) ⟨hsame, rfl, rfl⟩ ?_ hfold
        rintro _ u document t ⟨hresults, hbatches, hcompletion⟩ hrepair
        simp only [replayRepair, bind_eq_ok, guard_eq_ok, pure_eq_ok] at hrepair
        obtain ⟨_, -, result, -, -, rfl⟩ := hrepair
        exact ⟨fun id hid ↦ update_ne_none (hresults id hid) _, hbatches, hcompletion⟩
      exact .of_kind (by simp [hkind]) hnext.1 (hnext.2.1 ▸ hbatches) hnext.2.2
    · cases h

/-- What the retained variables are like after some events. -/
theorem after_of_foldlM {events : List CohortJournalEvent}
    (h : events.foldlM (replayEvent graph) .empty = .ok r) :
    (∀ item ∈ events, ∀ id, item.resultOf? = some id → r.results id ≠ none) ∧
      r.batches.length ≤ events.length ∧
      (r.completion = none → ∀ item ∈ events, item.kind ≠ .runCompleted) := by
  refine Trace.history_invariant (fun past t ↦
    (∀ item ∈ past, ∀ id, item.resultOf? = some id → t.results id ≠ none) ∧
      t.batches.length ≤ past.length ∧
      (t.completion = none → ∀ item ∈ past, item.kind ≠ .runCompleted)) ?_ ?_ h
  · exact ⟨fun _ hitem ↦ absurd hitem List.not_mem_nil, Nat.zero_le _,
      fun _ _ hitem ↦ absurd hitem List.not_mem_nil⟩
  · rintro past u event t ⟨hrecorded, hbatches, hcompletion⟩ hreplay
    have hafter := after_of_replayEvent hreplay
    refine ⟨fun item hitem id hid ↦ ?_, ?_, fun hnone item hitem ↦ ?_⟩
    · rcases List.mem_append.mp hitem with hitem | hitem
      · exact hafter.results id (hrecorded item hitem id hid)
      · exact hafter.recorded id (List.mem_singleton.mp hitem ▸ hid)
    · rw [List.length_append, List.length_singleton]
      exact hafter.batches.trans (Nat.succ_le_succ hbatches)
    · obtain ⟨hbefore, hkind⟩ := hafter.completion hnone
      rcases List.mem_append.mp hitem with hitem | hitem
      · exact hcompletion hbefore item hitem
      · exact List.mem_singleton.mp hitem ▸ hkind

end Replay

variable [Hash256] {x : CohortRun} {s : RunState} {journal : RunJournal}
  {records : List CohortJournalEvent} {r : Retained}

/-! ## The blocks of the policy -/

/-- The pending packages that have no result yet. -/
def RunState.undecided (s : RunState) : List String := s.pending.filter fun id ↦ (s.results id).isNone

omit [Hash256] in
theorem length_filter_update {ids : List String} (hids : ids.Nodup) {results : Results} {id : String}
    (hid : id ∈ ids) (hnone : results id = none) (result : PackageRunResult) :
    (ids.filter fun id' ↦ (Function.update results id (some result) id').isNone).length + 1 ≤
      (ids.filter fun id' ↦ (results id').isNone).length := by
  have hnotMem : id ∉ ids.filter fun id' ↦ (Function.update results id (some result) id').isNone := by
    simp [List.mem_filter]
  have hsubset : id :: (ids.filter fun id' ↦ (Function.update results id (some result) id').isNone) ⊆
      ids.filter fun id' ↦ (results id').isNone := by
    refine List.cons_subset.mpr ⟨List.mem_filter.mpr ⟨hid, by rw [hnone]; rfl⟩, fun id' hid' ↦ ?_⟩
    obtain ⟨hmem, hid'⟩ := List.mem_filter.mp hid'
    by_cases heq : id' = id
    · subst heq
      simp at hid'
    · rw [Function.update_of_ne heq] at hid'
      exact List.mem_filter.mpr ⟨hmem, hid'⟩
  exact (List.subperm_of_subset (List.nodup_cons.mpr ⟨hnotMem, hids.filter _⟩) hsubset).length_le

/-- The packages that the policy blocks are written down, with one event for each. -/
theorem Recorded.foldlM_gate (h : Recorded x s journal records r) (hpending : s.pending.Nodup)
    {ps : List OutcomeWorkPackage} (hps : ∀ p ∈ ps, p ∈ x.graph.packages ∧
      p.packageId ∈ s.pending ∧ s.results p.packageId = none)
    (hnodup : (ps.map (·.packageId)).Nodup)
    (hfew : journal.files.length + s.undecided.length < 10 ^ 8) :
    ∃ s' journal' records' r' count, ps.foldlM x.gate s = .ok s' ∧
      Grows journal journal' records records' count ∧ Recorded x s' journal' records' r' ∧
      r.SameEnd r' ∧ s'.active = s.active ∧ s'.batches = s.batches ∧
      s'.maxParallelism = s.maxParallelism ∧
      count + s'.undecided.length ≤ s.undecided.length := by
  induction ps generalizing s journal records r with
  | nil =>
    exact ⟨s, journal, records, r, 0, rfl, .refl _ _, h, ⟨rfl, rfl, rfl⟩, rfl, rfl, rfl, by omega⟩
  | cons p ps ih =>
    obtain ⟨⟨hp, hmem, hnone⟩, hps⟩ := List.forall_mem_cons.mp hps
    obtain ⟨hnotMem, hnodup⟩ := List.nodup_cons.mp hnodup
    by_cases hblocked : (x.policy.checkpoint (x.effectClass p.packageId) .implementation).1 = .blocked
    · let result := p.refused .blockedPolicy
        (x.policy.checkpoint (x.effectClass p.packageId) .implementation).2
      have hknown : result.packageId ∈ x.graph.ids := List.mem_map_of_mem hp
      have hdecided := length_filter_update hpending hmem hnone result.normalized
      obtain ⟨journal', event, hrecord, hgrows, hrecorded⟩ :=
        h.packageResult encodable_nil hknown hnone (.inr (.inl ⟨rfl, rfl⟩)) (by
          simp only [RunState.undecided] at hfew
          omega)
      let next : RunState := { s with
        results := Function.update s.results p.packageId (some result.normalized)
        journal := some journal' }
      have hgate : x.gate s p = .ok next := by
        simp only [CohortRun.gate, if_pos hblocked, bind_eq_ok, pure_eq_ok]
        exact ⟨_, hrecord, rfl⟩
      have hrests : ∀ q ∈ ps, q ∈ x.graph.packages ∧ q.packageId ∈ next.pending ∧
          next.results q.packageId = none := by
        intro q hq
        obtain ⟨hq', hqmem, hqnone⟩ := hps q hq
        exact ⟨hq', hqmem, (Function.update_of_ne (packageId_ne hnotMem hq) _ _).trans hqnone⟩
      have hlength := hgrows.length
      have hundecided : next.undecided.length + 1 ≤ s.undecided.length := hdecided
      obtain ⟨s', journal'', records', r', count, hfold, hgrows', hrecorded', hsame, hactive, hbatches,
        hparallelism, hcount⟩ := ih (hrecorded next rfl rfl rfl rfl) hpending hrests hnodup (by omega)
      refine ⟨s', journal'', records', r', 1 + count, Trace.foldlM_cons_eq_ok.mpr ⟨next, hgate, hfold⟩,
        hgrows.trans hgrows', hrecorded', hsame, hactive, hbatches, hparallelism, by omega⟩
    · -- the policy lets the package run
      obtain ⟨s', journal', records', r', count, hfold, hrest⟩ := ih h hpending hps hnodup hfew
      have hgate : x.gate s p = .ok s := by rw [CohortRun.gate, if_neg hblocked]
      exact ⟨s', journal', records', r', count, Trace.foldlM_cons_eq_ok.mpr ⟨s, hgate, hfold⟩, hrest⟩

/-! ## The beginning -/

/-- What was appended to a journal can be read back. -/
theorem Holds.of_append {runId recordedAt : String} {journal' : RunJournal} {entry : Entry}
    (h : Holds runId journal records)
    (happend : journal.append runId recordedAt entry = .ok journal') (hrecordedAt : recordedAt ≠ "")
    (hfew : journal.files.length + 1 < 10 ^ 8) :
    ∃ event text, event.kind = entry.kind ∧ PyValue.reread entry.payload = .ok event.payload ∧
      journal'.files = journal.files ++ [(eventName (journal.files.length + 1), text)] ∧
      Holds runId journal' (records ++ [event]) := by
  obtain ⟨payload, hreread, hlegal⟩ : ∃ payload, PyValue.reread entry.payload = .ok payload ∧
      validateTransition records entry.kind payload = .ok () := by
    simp only [RunJournal.append, bind_eq_ok, mapError_eq_ok, h.read] at happend
    obtain ⟨payload, hreread, _, hread, _, hlegal, -⟩ := happend
    obtain rfl := Except.ok.inj hread
    exact ⟨payload, hreread, hlegal⟩
  obtain ⟨_, text, happend', hfiles, hholds⟩ := h.append hreread hrecordedAt hlegal hfew
  obtain rfl := Except.ok.inj (happend.symm.trans happend')
  exact ⟨_, text, rfl, hreread, hfiles, hholds⟩

/-- A journal whose kickoff has just been appended. -/
theorem Recorded.of_kickoff {event : CohortJournalEvent}
    (h : Holds x.kickoff.runId journal [event]) (hkind : event.kind = .kickoff) :
    Recorded x (initialState x.graph .empty (some journal)) journal [event] .empty := by
  refine ⟨rfl, h, List.cons_ne_nil _ _, List.forall_mem_singleton.mpr (by simp [hkind]),
    List.forall_mem_singleton.mpr fun id hid ↦ ?_, rfl, rfl, rfl, rfl⟩
  rw [CohortJournalEvent.resultOf?, if_neg (by simp [hkind])] at hid
  cases hid

/-- A journal that is replayed. -/
theorem Recorded.of_replay {first : CohortJournalEvent}
    (h : Holds x.kickoff.runId journal (first :: records)) (hkind : first.kind = .kickoff)
    (hreplay : records.foldlM (replayEvent x.graph) .empty = .ok r) (hopen : r.completion = none) :
    Recorded x (initialState x.graph r (some journal)) journal (first :: records) r := by
  obtain ⟨hrecorded, -, hincomplete⟩ := after_of_foldlM hreplay
  refine ⟨rfl, h, List.cons_ne_nil _ _, List.forall_mem_cons.mpr ⟨by simp [hkind], hincomplete hopen⟩,
    List.forall_mem_cons.mpr ⟨fun id hid ↦ ?_, hrecorded⟩, hreplay, rfl, rfl, rfl⟩
  rw [CohortJournalEvent.resultOf?, if_neg (by simp [hkind])] at hid
  cases hid

/-- What an execution with a journal begins with is recorded. -/
theorem recorded_of_recollect {resume : Bool} {out : Retained × Option RunJournal}
    (h : x.recollect resume (some journal) = .ok out) (hopen : out.1.completion = none)
    (hfew : journal.files.length + 1 < 10 ^ 8) :
    ∃ journal' records, out.2 = some journal' ∧
      Recorded x (initialState x.graph out.1 (some journal')) journal' records out.1 ∧
      journal'.files.length ≤ journal.files.length + 1 ∧
      out.1.batches.length ≤ journal'.files.length := by
  simp only [CohortRun.recollect, CohortRun.reread, bind_eq_ok, pure_eq_ok] at h
  obtain ⟨⟨retained, _⟩, ⟨⟨records, j⟩, hread, hrecall⟩, rfl⟩ := h
  obtain ⟨hholds, hj⟩ := holds_of_read hread (by omega)
  replace hj : j = { journal with seen := remember journal.seen records } := hj
  have hfiles : j.files = journal.files := by rw [hj]
  have hholds' : Holds x.kickoff.runId j records := hj ▸ hholds.remember
  cases records with
  | nil =>
    simp only [bind_eq_ok, pure_eq_ok] at hrecall
    obtain ⟨journal', happend, hrecall⟩ := hrecall
    obtain ⟨rfl, rfl⟩ := Prod.mk.inj hrecall
    obtain ⟨event, text, hkind, -, hfiles', hholds''⟩ :=
      hholds'.of_append happend (x.dated _) (by rwa [hfiles])
    refine ⟨_, [event], rfl, .of_kickoff hholds'' hkind, ?_, Nat.zero_le _⟩
    rw [hfiles', List.length_append, hfiles, List.length_singleton]
  | cons first rest =>
    simp only [bind_eq_ok, guard_eq_ok, pure_eq_ok] at hrecall
    obtain ⟨-, matched, hmatched, hmatches, r, hreplay, hrecall⟩ := hrecall
    obtain ⟨rfl, rfl⟩ := Prod.mk.inj hrecall
    have hkind : first.kind = .kickoff := by
      simp only [CohortRun.matchesKickoff, bind_eq_ok, mapError_eq_ok, pure_eq_ok] at hmatched
      obtain ⟨_, -, _, -, rfl⟩ := hmatched
      simp only [Bool.not_eq_false, decide_eq_true_eq] at hmatches
      exact hmatches.1
    simp only [replay, bind_eq_ok, guard_eq_ok, pure_eq_ok, List.tail_cons] at hreplay
    obtain ⟨after, hfold, -, rfl⟩ := hreplay
    have hlength : rest.length ≤ journal.files.length := by
      have hall := hholds.length_eq
      rw [List.length_cons] at hall
      omega
    refine ⟨_, first :: rest, rfl, .of_replay hholds' hkind hfold hopen, ?_, ?_⟩
    · rw [hfiles]
      exact Nat.le_succ _
    · have hbatches := (after_of_foldlM hfold).2.1
      exact hfiles ▸ hbatches.trans hlength

/-- The blocks of the policy leave a journal from which the loop can start. -/
theorem Recorded.exists_begin
    (h : Recorded x (initialState x.graph r (some journal)) journal records r)
    (hbatches : r.batches.length ≤ journal.files.length)
    (hroom : journal.files.length + 2 * x.graph.packages.length + 3 < 10 ^ 8) :
    ∃ s journal' records' r' count,
      ((initialState x.graph r (some journal)).pendingPackages x.graph).foldlM x.gate
        (initialState x.graph r (some journal)) = .ok s ∧
      Grows journal journal' records records' count ∧
      Machine.Recorded x ⟨{ s with pending := s.undecided }, .scheduling⟩ journal' records' r' ∧
      r.SameEnd r' ∧ r'.maxParallelism = r.maxParallelism := by
  let s := initialState x.graph r (some journal)
  have hpending : s.pending.Nodup := x.compiled.nodup.filter _
  have hundecided : (initialState x.graph r (some journal)).undecided.length ≤
      x.graph.packages.length := by
    have hle := (List.length_filter_le (fun id ↦ (s.results id).isNone) s.pending).trans
      (List.length_filter_le (fun id ↦ (r.results id).isNone) x.graph.ids)
    rwa [OutcomeGraphSpec.ids, List.length_map] at hle
  have hps : ∀ p ∈ s.pendingPackages x.graph, p ∈ x.graph.packages ∧ p.packageId ∈ s.pending ∧
      s.results p.packageId = none := by
    intro p hp
    obtain ⟨hp, hmem⟩ := (mem_pendingPackages x.compiled.nodup).mp hp
    have hnone := (List.mem_filter.mp hmem).2
    exact ⟨hp, hmem, Option.isNone_iff_eq_none.mp hnone⟩
  obtain ⟨s', journal', records', r', count, hfold, hgrows, hrecorded, hsame, hactive, hbatches',
    hparallelism, hcount⟩ := h.foldlM_gate hpending hps (nodup_pendingPackages x.compiled.nodup hpending) (by omega)
  have hids : s'.activeIds = [] := by
    rw [RunState.activeIds, hactive]
    rfl
  have hlength := hgrows.length
  refine ⟨s', journal', records', r', count, hfold, hgrows, ⟨?_, fun id hid ↦ ?_,
    by rintro _ ⟨⟩, ?_, ?_⟩, hsame, hrecorded.maxParallelism.trans hparallelism⟩
  · exact ⟨hrecorded.hasJournal, hrecorded.holds, hrecorded.nonempty, hrecorded.incomplete,
      hrecorded.fresh, hrecorded.replays, hrecorded.results, hrecorded.batches,
      hrecorded.maxParallelism⟩
  · exact absurd (hids ▸ hid : id ∈ []) List.not_mem_nil
  · have hempty : s'.active.length = 0 := by
      rw [hactive]
      rfl
    simp only [Position.due, hempty]
    omega
  · have hsame' : s'.batches = r.batches := hbatches'
    change s'.batches.length ≤ journal'.files.length
    rw [hsame']
    omega

/-- The loop starts with its journal. -/
theorem recorded_of_start {resume : Bool} {b : Beginning}
    (h : x.start resume (some journal) = .ok b) (hopen : b.completion = none)
    (hroom : journal.files.length + 2 * x.graph.packages.length + 4 < 10 ^ 8) :
    ∃ journal' records r, Machine.Recorded x ⟨b.state, .scheduling⟩ journal' records r := by
  simp only [CohortRun.start, bind_eq_ok, pure_eq_ok] at h
  obtain ⟨⟨retained, j⟩, hrecollect, s, hfold, rfl⟩ := h
  obtain ⟨journal', records, hj, hrecorded, hlength, hbatches⟩ :=
    recorded_of_recollect hrecollect hopen (by omega)
  obtain rfl : j = some journal' := hj
  obtain ⟨s', journal'', records', r, _, hfold', -, hbegin, -, -⟩ :=
    hrecorded.exists_begin hbatches (by omega)
  obtain rfl := Except.ok.inj (hfold.symm.trans hfold')
  exact ⟨journal'', records', r, hbegin⟩

/-! ## The loop -/

/-- A run keeps its journal. It raises nothing, but for a run that cannot go on and an output without
a canonical text. -/
theorem Machine.Recorded.run (hinv : Machine.Inv x ⟨s, .scheduling⟩)
    (h : Machine.Recorded x ⟨s, .scheduling⟩ journal records r) (signals : List Signal) :
    (∃ journal' records' r' count, (x.run s signals).Recorded x journal' records' r' ∧
      Grows journal journal' records records' count ∧ r.SameEnd r') ∧
    ∀ e, (x.run s signals).position = .raised e →
      e = noProgress ∨ ∃ n, ¬Answered (x.run s (signals.take n)).state := by
  induction signals using List.reverseRecOn with
  | nil => exact ⟨⟨journal, records, r, 0, h, .refl _ _, rfl, rfl, rfl⟩, fun _ h ↦ (nomatch h)⟩
  | append_singleton signals signal ih =>
    obtain ⟨⟨journal', records', r', count, hbefore, hgrows, hsame⟩, hraises⟩ := ih
    obtain ⟨⟨journal'', records'', r'', count', hafter, hgrows', hsame'⟩, hraised⟩ :=
      hbefore.advance (hinv.run signals).1 signal
    have hstep : x.run s (signals ++ [signal]) = x.advance (x.run s signals) signal :=
      run_append signals [signal]
    rw [hstep]
    refine ⟨⟨journal'', records'', r'', count + count', hafter, hgrows.trans hgrows',
      hsame'.1.trans hsame.1, hsame'.2.1.trans hsame.2.1, hsame'.2.2.trans hsame.2.2⟩,
      fun e he ↦ ?_⟩
    rcases hraised e he with he | he | hanswered
    · -- it was raised before
      rcases hraises e he with he | ⟨n, hn⟩
      · exact .inl he
      · refine .inr ⟨min n signals.length, ?_⟩
        rw [List.take_append_of_le_length (min_le_right _ _), List.take_eq_take_min] at *
        simpa [List.take_eq_take_min] using hn
    · exact .inl he
    · exact .inr ⟨signals.length, by rwa [List.take_left]⟩

/-! ## Steps of an execution -/

/-- An event that an execution may write down with what it knows. It says how the run has ended only
when it has converged and is verified, and says it then as `_status` does. -/
structure Fits (graph : OutcomeGraphSpec) (r : Retained) (event : CohortJournalEvent) : Prop where
  incomplete : r.completion = none
  kinds : event.kind = .dispatch ∨ event.kind = .packageResult ∨
    (event.kind = .convergence ∧ r.convergence = none) ∨
    (event.kind = .verification ∧ r.verification = none) ∨
    (event.kind = .runCompleted ∧ ∃ ordered convergence verification,
      r.convergence = some convergence ∧ r.verification = some verification ∧
      graph.packages.mapM (fun p ↦ required (r.results p.packageId) (.keyError p.packageId)) =
        .ok ordered ∧
      textOf? event.payload "status" = some (runStatus ordered convergence verification).value)

/-- The records that an execution may go on to from others. -/
inductive Steps (graph : OutcomeGraphSpec) (records : List CohortJournalEvent) (r : Retained) :
    List CohortJournalEvent → Retained → Prop
  | refl : Steps graph records r records r
  | step {records' : List CohortJournalEvent} {r' r'' : Retained} {event : CohortJournalEvent} :
    Steps graph records r records' r' → Fits graph r' event →
    replayEvent graph r' event = .ok r'' → Steps graph records r (records' ++ [event]) r''

section Steps

variable {graph : OutcomeGraphSpec} {records records' records'' : List CohortJournalEvent}
  {r r' r'' : Retained}

omit [Hash256] in
theorem Steps.trans (h : Steps graph records r records' r')
    (h' : Steps graph records' r' records'' r'') : Steps graph records r records'' r'' := by
  induction h' with
  | refl => exact h
  | step _ hfits hreplay ih => exact .step ih hfits hreplay

omit [Hash256] in
/-- The events of the loop may be written down as long as the run is not completed. -/
theorem steps_of_loop {added : List CohortJournalEvent}
    (hadded : ∀ item ∈ added, item.kind = .dispatch ∨ item.kind = .packageResult)
    (hopen : r.completion = none) (hfold : added.foldlM (replayEvent graph) r = .ok r') :
    Steps graph records r (records ++ added) r' := by
  have hboth : Steps graph records r (records ++ added) r' ∧ r'.completion = none := by
    induction added using List.reverseRecOn generalizing r' with
    | nil =>
      obtain rfl := Trace.foldlM_nil_eq_ok.mp hfold
      rw [List.append_nil]
      exact ⟨.refl, hopen⟩
    | append_singleton added event ih =>
      obtain ⟨middle, hmiddle, hreplay⟩ := Trace.foldlM_concat_eq_ok.mp hfold
      obtain ⟨hsteps, hnone⟩ :=
        ih (fun item hitem ↦ hadded item (List.mem_append_left _ hitem)) hmiddle
      have hkind := hadded event (by simp)
      rw [← List.append_assoc]
      refine ⟨.step hsteps ⟨hnone, hkind.imp_right .inl⟩ hreplay, ?_⟩
      rw [replayEvent] at hreplay
      rcases hkind with hkind | hkind <;> rw [hkind] at hreplay
      · obtain ⟨ids, activeCount, rfl⟩ := replayDispatch_eq_ok hreplay
        exact hnone
      · obtain ⟨result, -, -, -, rfl⟩ := replayResult_eq_ok hreplay
        exact hnone
  exact hboth.1

end Steps

/-- A journal goes on from another, with what is retained of both. -/
structure Follows (x : CohortRun) (journal journal' : RunJournal)
    (records records' : List CohortJournalEvent) (r r' : Retained) : Prop where
  files : ∃ files, journal'.files = journal.files ++ files
  numbered : Numbered.Consecutive "event-" ".json" 8 journal.files →
    Numbered.Consecutive "event-" ".json" 8 journal'.files
  steps : Steps x.graph records r records' r'

section Follows

variable {journal' journal'' : RunJournal} {records' records'' : List CohortJournalEvent}
  {r' r'' : Retained}

omit [Hash256] in
theorem Follows.refl : Follows x journal journal records records r r :=
  ⟨⟨[], (List.append_nil _).symm⟩, id, .refl⟩

omit [Hash256] in
theorem Follows.trans (h : Follows x journal journal' records records' r r')
    (h' : Follows x journal' journal'' records' records'' r' r'') :
    Follows x journal journal'' records records'' r r'' := by
  obtain ⟨files, hfiles⟩ := h.files
  obtain ⟨files', hfiles'⟩ := h'.files
  refine ⟨⟨files ++ files', ?_⟩, h'.numbered ∘ h.numbered, h.steps.trans h'.steps⟩
  rw [hfiles', hfiles, List.append_assoc]

omit [Hash256] in
theorem Follows.of_append {file : String} {event : CohortJournalEvent}
    (hfiles : journal'.files = journal.files ++ [(eventName (journal.files.length + 1), file)])
    (hfits : Fits x.graph r event) (hreplay : replayEvent x.graph r event = .ok r') :
    Follows x journal journal' records (records ++ [event]) r r' := by
  refine ⟨⟨_, hfiles⟩, fun hnumbered ↦ ?_, .step .refl hfits hreplay⟩
  rw [hfiles]
  exact hnumbered.concat file

theorem Follows.of_grows {s' : RunState} {count : ℕ}
    (hgrows : Grows journal journal' records records' count) (h : Recorded x s journal records r)
    (h' : Recorded x s' journal' records' r') (hopen : r.completion = none) :
    Follows x journal journal' records records' r r' := by
  obtain ⟨files, hfiles, -⟩ := hgrows.files
  obtain ⟨added, rfl, hadded⟩ := hgrows.records
  have hreplays := h'.replays
  rw [List.tail_append_of_ne_nil h.nonempty] at hreplays
  obtain ⟨middle, hmiddle, hrest⟩ := Trace.foldlM_append_eq_ok.mp hreplays
  obtain rfl := Except.ok.inj (hmiddle.symm.trans h.replays)
  exact ⟨⟨files, hfiles⟩, hgrows.numbered, steps_of_loop hadded hopen hrest⟩

end Follows

/-! ## Starts -/

section Starts

variable {journal₀ : RunJournal} {resume : Bool}

/-- An execution whose journal is recollected starts. -/
theorem exists_start (hrecollect : x.recollect resume (some journal₀) = .ok (r, some journal))
    (h : Recorded x (initialState x.graph r (some journal)) journal records r)
    (hopen : r.completion = none) (hbatches : r.batches.length ≤ journal.files.length)
    (hroom : journal.files.length + 2 * x.graph.packages.length + 3 < 10 ^ 8) :
    ∃ b journal' records' r', x.start resume (some journal₀) = .ok b ∧
      b.convergence = r.convergence ∧ b.verification = r.verification ∧ b.completion = none ∧
      Machine.Recorded x ⟨b.state, .scheduling⟩ journal' records' r' ∧
      Follows x journal journal' records records' r r' ∧ r.SameEnd r' ∧
      r'.maxParallelism = r.maxParallelism := by
  obtain ⟨s, journal', records', r', count, hfold, hgrows, hbegin, hsame, hparallelism⟩ :=
    h.exists_begin hbatches hroom
  refine ⟨⟨{ s with pending := s.undecided }, r.convergence, r.verification, r.completion⟩, journal',
    records', r', ?_, rfl, rfl, hopen, hbegin, .of_grows hgrows h hbegin.state hopen, hsame,
    hparallelism⟩
  simp only [CohortRun.start, bind_eq_ok]
  exact ⟨_, hrecollect, s, hfold, rfl⟩

/-- A journal without files is given a kickoff. -/
theorem recollect_empty (resume : Bool) {payload : Json.Dict}
    (hpayload : PyValue.reread x.kickoffRecord = .ok payload) :
    ∃ journal event, x.recollect resume (some ⟨[], none⟩) = .ok (.empty, some journal) ∧
      Holds x.kickoff.runId journal [event] ∧ event.kind = .kickoff ∧ event.payload = payload ∧
      Numbered.Consecutive "event-" ".json" 8 journal.files ∧ journal.files.length = 1 := by
  obtain ⟨journal, event, text, hrecord, hfiles, hkind, hevent, hholds⟩ :=
    exists_record (x := x) Holds.empty (show PyValue.reread
      (Entry.mk .kickoff x.kickoffRecord).payload = .ok payload from hpayload) rfl (by decide)
  refine ⟨journal, event, ?_, hholds, hkind, hevent, ?_, ?_⟩
  · have happend : RunJournal.append x.kickoff.runId (x.clock 0) ⟨[], none⟩
        ⟨.kickoff, x.kickoffRecord⟩ = .ok journal := by
      rw [CohortRun.record] at hrecord
      cases happend : RunJournal.append x.kickoff.runId (x.clock 0) ⟨[], none⟩
          ⟨.kickoff, x.kickoffRecord⟩ with
      | error e =>
        rw [List.length_nil, happend] at hrecord
        cases hrecord
      | ok j =>
        rw [List.length_nil, happend] at hrecord
        exact congrArg Except.ok (Option.some.inj (Except.ok.inj hrecord))
    simp only [CohortRun.recollect, CohortRun.reread, bind_eq_ok]
    exact ⟨_, ⟨([], ⟨[], none⟩), rfl, bind_eq_ok.mpr ⟨journal, happend, rfl⟩⟩, rfl⟩
  · rw [hfiles]
    exact Numbered.Consecutive.nil.concat text
  · rw [hfiles]
    rfl

/-- The kickoff of a request has a canonical text. -/
theorem exists_kickoffRecord {request : CohortRequest} (h : request.prepare = .ok x) :
    ∃ payload, PyValue.reread x.kickoffRecord = .ok payload := by
  obtain ⟨_, kickoff, hkickoff, -, rfl⟩ := CohortRequest.prepare_eq_ok.mp h
  obtain ⟨-, hcontext, -⟩ := CohortRequest.makeKickoff_eq_ok.mp hkickoff
  have heffects : ∀ effects : List (String × EffectClass), List.Forall₂
      (fun (item : String × PyValue) (m : String × Json) ↦
        item.1 = m.1 ∧ PyValue.plain item.2 = .ok m.2)
      (effects.map fun c ↦ (c.1, .str c.2.value)) (effects.map fun c ↦ (c.1, .str c.2.value)) := by
    intro effects
    rw [List.forall₂_map_left_iff, List.forall₂_map_right_iff, List.forall₂_same]
    exact fun _ _ ↦ ⟨rfl, plain_str _⟩
  have hclasses := PyValue.plain_dict_of_reread
    (PyValue.reread_of_forall₂ (heffects request.effectClasses))
  have hcontext' := PyValue.plain_dict_of_reread (PyValue.reread_ofJsonItems hcontext)
  refine ⟨.ofMembers [("graph_digest", .str kickoff.graphDigest),
    ("policy_digest", .str kickoff.policyDigest), ("context_digest", .str kickoff.contextDigest),
    ("context", kickoff.context.toJson), ("effect_classes", Json.Dict.toJson (.ofMembers
      (request.effectClasses.map fun c ↦ (c.1, .str c.2.value))))], PyValue.reread_of_forall₂ ?_⟩
  exact .cons ⟨rfl, plain_str _⟩ (.cons ⟨rfl, plain_str _⟩ (.cons ⟨rfl, plain_str _⟩
    (.cons ⟨rfl, hcontext'⟩ (.cons ⟨rfl, hclasses⟩ .nil))))

end Starts

end HiveMind.Cohort
