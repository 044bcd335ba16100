import HiveMind.Cohort.Runs

/-!
# The end of an execution

After its loop an execution converges, verifies and, if it is asked to, says that it was completed.
With a journal each of these is an event that is appended and that a replay takes back. None of the
appends fails, but for a convergence whose output has no canonical text.

* **`Recorded.conclude`**: the result and the journal of an execution that has come to its end.
-/

open Raise

namespace HiveMind.Cohort

variable [Hash256] {x : CohortRun} {s : RunState} {journal : RunJournal}
  {records : List CohortJournalEvent} {r : Retained}

/-- The state of a run with another journal. -/
def RunState.journaled (s : RunState) (journal : RunJournal) : RunState :=
  { s with journal := some journal }

omit [Hash256] in
theorem resultOf?_of_kind {event : CohortJournalEvent} (h : event.kind ≠ .packageResult) (id : String) :
    event.resultOf? ≠ some id := by
  rw [CohortJournalEvent.resultOf?, if_neg h]
  rintro ⟨⟩

/-- The convergence of an execution is written down, or was. -/
theorem Recorded.converge (h : Recorded x s journal records r)
    (hfull : ∀ id ∈ x.graph.ids, s.results id ≠ none) (hopen : r.completion = none)
    (ordered : List PackageRunResult) (hfew : journal.files.length + 1 < 10 ^ 8)
    (hencodable : r.convergence = none →
      Encodable (settleConvergence (x.callbacks.converge x.kickoff ordered)).output) :
    ∃ journal' records' r' convergence,
      x.converge r.convergence ordered s.journal = .ok (convergence, some journal') ∧
      convergence = r.convergence.getD
        (settleConvergence (x.callbacks.converge x.kickoff ordered)).normalized ∧
      Follows x journal journal' records records' r r' ∧
      journal'.files.length ≤ journal.files.length + 1 ∧
      Recorded x (s.journaled journal') journal' records' r' ∧
      r' = { r with convergence := some convergence } := by
  cases hconvergence : r.convergence with
  | some convergence =>
    have hr : r = { r with convergence := some convergence } := by rw [← hconvergence]
    refine ⟨journal, records, r, convergence, ?_, rfl, .refl, Nat.le_succ _, ?_, hr⟩
    · rw [CohortRun.converge, h.hasJournal]
    · exact { h with hasJournal := rfl }
  | none =>
    obtain ⟨output, houtput⟩ := encodable_iff.mp (hencodable hconvergence)
    let settled := settleConvergence (x.callbacks.converge x.kickoff ordered)
    have hreread := reread_convergenceEntry (r := settled.normalized) (reread_normalize houtput)
    have hnormalize : normalize settled.output = PyValue.ofJsonItems output.members := by
      rw [normalize, houtput]
    have hfull' : ¬¬r.Full x.graph := by
      rw [not_not, Retained.Full, h.results]
      exact hfull
    have hreplay : ∀ event : CohortJournalEvent, event.kind = .convergence →
        event.payload = convergenceDocument settled.normalized output →
        replayEvent x.graph r event = .ok { r with convergence := some settled.normalized } := by
      intro event hkind hpayload
      have hdocument : convergenceFromDocument (convergenceDocument settled.normalized output) =
          .ok settled.normalized := by
        rw [convergenceFromDocument_convergenceDocument, ← hnormalize]
        rfl
      rw [replayEvent, hkind]
      simp only [hpayload, hdocument, if_neg hfull']
      rfl
    obtain ⟨journal', event, text, hrecord, hfiles, hkind, hpayload, hrecorded⟩ :=
      h.extend hreread (validateTransition_of_open h.nonempty h.incomplete (.inr (.inl rfl)))
        (by rintro ⟨⟩) hfew hreplay
    refine ⟨journal', _, _, settled.normalized, ?_, rfl, .of_append hfiles
      ⟨hopen, .inr (.inr (.inl ⟨hkind, hconvergence⟩))⟩ (hreplay event hkind hpayload), ?_, ?_, rfl⟩
    · rw [h.hasJournal] at hrecord ⊢
      rw [CohortRun.converge]
      simp only [bind_eq_ok, pure_eq_ok]
      exact ⟨normalize settled.output, canonicalOutput_eq_ok.mpr ⟨encodable_iff.mpr ⟨_, houtput⟩, rfl⟩,
        some journal', hrecord, rfl⟩
    · rw [hfiles, List.length_append, List.length_singleton]
    · refine hrecorded _ rfl h.results h.batches h.maxParallelism (fun _ hid ↦ hid) fun id hid ↦ ?_
      exact absurd hid (resultOf?_of_kind (hkind ▸ fun h ↦ (by cases h)) id)

/-- The verification of an execution is written down, or was. -/
theorem Recorded.verify (h : Recorded x s journal records r) (hopen : r.completion = none)
    (ordered : List PackageRunResult) {convergence : ConvergenceResult}
    (hconvergence : r.convergence = some convergence)
    (hfew : journal.files.length + 1 < 10 ^ 8) :
    ∃ journal' records' r' verification,
      x.verify r.verification ordered convergence s.journal = .ok (verification, some journal') ∧
      verification = r.verification.getD
        (settleVerification (x.callbacks.verify x.kickoff ordered convergence)) ∧
      Follows x journal journal' records records' r r' ∧
      journal'.files.length ≤ journal.files.length + 1 ∧
      Recorded x (s.journaled journal') journal' records' r' ∧
      r' = { r with verification := some verification } := by
  cases hverification : r.verification with
  | some verification =>
    have hr : r = { r with verification := some verification } := by rw [← hverification]
    refine ⟨journal, records, r, verification, ?_, rfl, .refl, Nat.le_succ _, ?_, hr⟩
    · rw [CohortRun.verify, h.hasJournal]
    · exact { h with hasJournal := rfl }
  | none =>
    let settled := settleVerification (x.callbacks.verify x.kickoff ordered convergence)
    have hreplay : ∀ event : CohortJournalEvent, event.kind = .verification →
        event.payload = verificationDocument settled →
        replayEvent x.graph r event = .ok { r with verification := some settled } := by
      intro event hkind hpayload
      rw [replayEvent, hkind]
      simp only [hpayload, verificationFromDocument_verificationDocument, hconvergence]
      rfl
    obtain ⟨journal', event, text, hrecord, hfiles, hkind, hpayload, hrecorded⟩ :=
      h.extend (reread_verificationEntry settled)
        (validateTransition_of_open h.nonempty h.incomplete (.inr (.inr (.inl rfl))))
        (by rintro ⟨⟩) hfew hreplay
    refine ⟨journal', _, _, settled, ?_, rfl, .of_append hfiles
      ⟨hopen, .inr (.inr (.inr (.inl ⟨hkind, hverification⟩)))⟩ (hreplay event hkind hpayload), ?_, ?_,
      rfl⟩
    · rw [CohortRun.verify]
      exact bind_eq_ok.mpr ⟨some journal', hrecord, rfl⟩
    · rw [hfiles, List.length_append, List.length_singleton]
    · refine hrecorded _ rfl h.results h.batches h.maxParallelism (fun _ hid ↦ hid) fun id hid ↦ ?_
      exact absurd hid (resultOf?_of_kind (hkind ▸ fun h ↦ (by cases h)) id)

/-- The completion of an execution is written down. -/
theorem Recorded.recordCompletion (h : Recorded x s journal records r) (hopen : r.completion = none)
    {ordered : List PackageRunResult} (hordered : s.ordered x.graph = .ok ordered)
    {convergence : ConvergenceResult} (hconvergence : r.convergence = some convergence)
    {verification : VerificationResult} (hverification : r.verification = some verification)
    (hfew : journal.files.length + 1 < 10 ^ 8) (hpackages : ordered.length < 10 ^ 8)
    (hbatches : s.batches.length < 10 ^ 8) (hparallelism : s.maxParallelism < 10 ^ 8) :
    ∃ journal' records', x.recordCompletion (x.result s ordered convergence verification) s.journal =
        .ok (some journal') ∧
      Holds x.kickoff.runId journal' records' ∧
      Follows x journal journal' records records' r
        { r with completion := some (runStatus ordered convergence verification) } := by
  let result := x.result s ordered convergence verification
  have hlast : (records.getLast?.map (·.kind)) ≠ some .runCompleted := by
    obtain ⟨before, last, rfl⟩ := List.eq_nil_or_concat' records |>.resolve_left h.nonempty
    rw [List.getLast?_concat]
    exact fun hkind ↦ h.incomplete last (by simp) (Option.some.inj hkind)
  have hstatus : (textOf? (completionDocument result) "status").bind CohortRunStatus.ofValue? =
      some (runStatus ordered convergence verification) := by
    rw [textOf?, get?_completionDocument]
    exact CohortRunStatus.ofValue?_value _
  obtain ⟨journal', event, text, hrecord, hfiles, hkind, hpayload, hholds⟩ :=
    exists_record h.holds.remember
      (reread_completionEntry (r := result) hpackages hbatches hparallelism)
      (validateTransition_of_open h.nonempty h.incomplete (.inr (.inr (.inr rfl)))) hfew
  have hreplay : replayEvent x.graph r event =
      .ok { r with completion := some (runStatus ordered convergence verification) } := by
    rw [replayEvent, hkind]
    simp only [completionEntry]
    rw [hpayload, hstatus, hverification]
    rfl
  refine ⟨journal', records ++ [event], ?_, hholds, .of_append hfiles ⟨hopen, ?_⟩ hreplay⟩
  · rw [h.hasJournal, CohortRun.recordCompletion]
    simp only [bind_eq_ok]
    exact ⟨_, h.holds.read, by rw [if_neg hlast]; exact hrecord⟩
  · refine .inr (.inr (.inr (.inr ⟨hkind, ordered, convergence, verification, hconvergence,
      hverification, ?_, ?_⟩)))
    · rw [h.results]
      exact hordered
    · rw [hpayload, textOf?, get?_completionDocument]
      rfl

/-- An execution that has come to its end writes it down and returns. -/
theorem Recorded.conclude (h : Recorded x s journal records r)
    (hfull : ∀ id ∈ x.graph.ids, s.results id ≠ none) (hopen : r.completion = none) {b : Beginning}
    (hconvergence : r.convergence = b.convergence) (hverification : r.verification = b.verification)
    {ordered : List PackageRunResult} (hordered : s.ordered x.graph = .ok ordered)
    (hfew : journal.files.length + 3 < 10 ^ 8) (hpackages : ordered.length < 10 ^ 8)
    (hbatches : s.batches.length < 10 ^ 8) (hparallelism : s.maxParallelism < 10 ^ 8)
    (hencodable : b.convergence = none →
      Encodable (settleConvergence (x.callbacks.converge x.kickoff ordered)).output)
    (finalize : Bool) :
    ∃ journal' records' r' convergence verification,
      x.conclude finalize b s = .ok (x.result s ordered convergence verification, some journal') ∧
      convergence = b.convergence.getD
        (settleConvergence (x.callbacks.converge x.kickoff ordered)).normalized ∧
      verification = b.verification.getD
        (settleVerification (x.callbacks.verify x.kickoff ordered convergence)) ∧
      Holds x.kickoff.runId journal' records' ∧ Follows x journal journal' records records' r r' ∧
      r'.maxParallelism = r.maxParallelism := by
  obtain ⟨journal₁, records₁, r₁, convergence, hconverge, hvalue, hfollows₁, hlength₁, hrecorded₁,
    rfl⟩ := h.converge hfull hopen ordered (by omega) (hconvergence ▸ hencodable)
  obtain ⟨journal₂, records₂, r₂, verification, hverify, hvalue', hfollows₂, hlength₂, hrecorded₂,
    rfl⟩ := hrecorded₁.verify hopen ordered rfl (by omega)
  have hbefore := hfollows₁.trans hfollows₂
  rw [hconvergence] at hconverge hvalue
  change r.verification = b.verification at hverification
  simp only [hverification] at hverify hvalue'
  cases finalize with
  | false =>
    refine ⟨journal₂, records₂, _, convergence, verification, ?_, hvalue, hvalue', hrecorded₂.holds,
      hbefore, rfl⟩
    simp only [CohortRun.conclude, bind_eq_ok]
    exact ⟨ordered, hordered, _, hconverge, _, hverify, rfl⟩
  | true =>
    obtain ⟨journal₃, records₃, hcompletion, hholds, hfollows₃⟩ :=
      hrecorded₂.recordCompletion hopen hordered rfl rfl (by omega) hpackages hbatches hparallelism
    refine ⟨journal₃, records₃, _, convergence, verification, ?_, hvalue, hvalue', hholds,
      hbefore.trans hfollows₃, rfl⟩
    simp only [CohortRun.conclude, bind_eq_ok, if_true, pure_eq_ok]
    exact ⟨ordered, hordered, _, hconverge, _, hverify, _, hcompletion, rfl⟩

/-- A convergence without a canonical text is raised. -/
theorem conclude_eq_error (hjournal : s.journal = some journal) {b : Beginning}
    (hconvergence : b.convergence = none) {ordered : List PackageRunResult}
    (hordered : s.ordered x.graph = .ok ordered)
    (h : ¬Encodable (settleConvergence (x.callbacks.converge x.kickoff ordered)).output)
    (finalize : Bool) :
    x.conclude finalize b s = .error (.runtime "cohort output must be canonical JSON") := by
  rw [CohortRun.conclude, hordered, ok_bind, hjournal, hconvergence, CohortRun.converge]
  simp only [canonicalOutput_eq_error h]
  rfl

/-- Without a journal, an execution that has come to its end returns. -/
theorem conclude_unjournaled (hjournal : s.journal = none) {b : Beginning}
    (hconvergence : b.convergence = none) (hverification : b.verification = none)
    {ordered : List PackageRunResult} (hordered : s.ordered x.graph = .ok ordered) (finalize : Bool) :
    let convergence := settleConvergence (x.callbacks.converge x.kickoff ordered)
    x.conclude finalize b s = .ok (x.result s ordered convergence
      (settleVerification (x.callbacks.verify x.kickoff ordered convergence)), none) := by
  rw [CohortRun.conclude, hordered, ok_bind, hjournal, hconvergence, CohortRun.converge]
  simp only [hverification, CohortRun.verify, CohortRun.record]
  cases finalize <;> rfl

/-- What an execution returns at its end, and what it takes over from its journal. -/
theorem conclude_eq_ok {finalize : Bool} {b : Beginning}
    {out : CohortRunResult × Option RunJournal} (h : x.conclude finalize b s = .ok out) :
    ∃ ordered convergence verification, s.ordered x.graph = .ok ordered ∧
      out.1 = x.result s ordered convergence verification ∧
      (∀ c, b.convergence = some c → convergence = c) ∧
      (∀ v, b.verification = some v → verification = v) := by
  simp only [CohortRun.conclude, bind_eq_ok] at h
  obtain ⟨ordered, hordered, ⟨convergence, j⟩, hconverge, ⟨verification, j'⟩, hverify, h⟩ := h
  refine ⟨ordered, convergence, verification, hordered, ?_, fun c hc ↦ ?_, fun v hv ↦ ?_⟩
  · cases finalize with
    | false =>
      obtain rfl := Except.ok.inj h
      rfl
    | true =>
      simp only [if_true, bind_eq_ok, pure_eq_ok] at h
      obtain ⟨_, -, rfl⟩ := h
      rfl
  · rw [hc, CohortRun.converge] at hconverge
    exact (Prod.mk.inj (Except.ok.inj hconverge)).1.symm
  · rw [hv, CohortRun.verify] at hverify
    exact (Prod.mk.inj (Except.ok.inj hverify)).1.symm

/-- An execution that is not completed is its loop and its end. -/
theorem execute_eq {resume finalize : Bool} {journal : Option RunJournal} {signals : List Signal}
    {b : Beginning} (hstart : x.start resume journal = .ok b) (hopen : b.completion = none) :
    x.execute resume finalize journal signals =
      match (x.run b.state signals).position with
      | .finished => (x.conclude finalize b (x.run b.state signals).state).map some
      | .raised e => .error e
      | _ => .ok none := by
  simp only [CohortRun.execute, hstart, ok_bind, hopen]
  cases (x.run b.state signals).position <;> rfl

end HiveMind.Cohort
