import HiveMind.Cohort.Transparency

/-!
# Resuming a cohort

An execution may stop between any two appends to its journal, and be executed again with the same
arguments. It may have been stopped and resumed before. What any of these executions leaves behind is
a prefix of a journal whose events follow from a kickoff by the steps of an execution (`Kept`), and
prefixes of these are of the same kind, so one invariant covers all of them.

From such a journal an execution goes on: it is accepted, no package with a result is executed again,
and results, convergence and verification are the ones that were written down. It comes to an end as
an execution without a past would, if its passes leave no package behind and its outputs have
canonical texts.

* **`sound_of_leaves`**: what is left behind can be resumed.
* **`resume_faithful`**: what a resumed execution does.
-/

open Raise

namespace HiveMind.Cohort

/-! ## Steps -/

section Steps

variable {graph : OutcomeGraphSpec} {records records' : List CohortJournalEvent} {r r' : Retained}
  {event : CohortJournalEvent}

/-- What a step of an execution does to what it knows. -/
inductive Fits.Outcome (graph : OutcomeGraphSpec) (r : Retained) (event : CohortJournalEvent) :
    Retained → Prop
  | dispatch (ids : List String) (activeCount : ℕ) (kind : event.kind = .dispatch) :
    Outcome graph r event { r with
      batches := r.batches ++ [ids]
      dispatched := r.dispatched ++ ids
      maxParallelism := max r.maxParallelism activeCount }
  | packageResult (result : PackageRunResult) (kind : event.kind = .packageResult)
    (document : packageResultFromDocument event.payload = .ok result)
    (known : result.packageId ∈ graph.ids) (fresh : r.results result.packageId = none) :
    Outcome graph r event
      { r with results := Function.update r.results result.packageId (some result) }
  | convergence (result : ConvergenceResult) (kind : event.kind = .convergence)
    (document : convergenceFromDocument event.payload = .ok result) (fresh : r.convergence = none) :
    Outcome graph r event { r with convergence := some result }
  | verification (result : VerificationResult) (kind : event.kind = .verification)
    (document : verificationFromDocument event.payload = .ok result)
    (fresh : r.verification = none) : Outcome graph r event { r with verification := some result }
  | completion (ordered : List PackageRunResult) (convergence : ConvergenceResult)
    (verification : VerificationResult) (kind : event.kind = .runCompleted)
    (converged : r.convergence = some convergence) (verified : r.verification = some verification)
    (full : graph.packages.mapM (fun p ↦ required (r.results p.packageId)
      (.keyError p.packageId)) = .ok ordered)
    (document : textOf? event.payload "status" =
      some (runStatus ordered convergence verification).value) :
    Outcome graph r event
      { r with completion := some (runStatus ordered convergence verification) }

theorem Fits.outcome (h : Fits graph r event) (hreplay : replayEvent graph r event = .ok r') :
    Outcome graph r event r' := by
  rw [replayEvent] at hreplay
  rcases h.kinds with hkind | hkind | ⟨hkind, hnone⟩ | ⟨hkind, hnone⟩ |
    ⟨hkind, ordered, convergence, verification, hconvergence, hverification, hordered, hstatus⟩ <;>
    rw [hkind] at hreplay
  · obtain ⟨ids, activeCount, rfl⟩ := replayDispatch_eq_ok hreplay
    exact .dispatch ids activeCount hkind
  · obtain ⟨result, hdocument, hknown, hfresh, rfl⟩ := replayResult_eq_ok hreplay
    exact .packageResult result hkind hdocument hknown hfresh
  · simp only [bind_eq_ok, guard_eq_ok, pure_eq_ok] at hreplay
    obtain ⟨-, result, hdocument, rfl⟩ := hreplay
    exact .convergence result hkind hdocument hnone
  · simp only [bind_eq_ok, guard_eq_ok, pure_eq_ok] at hreplay
    obtain ⟨-, result, hdocument, rfl⟩ := hreplay
    exact .verification result hkind hdocument hnone
  · simp only [bind_eq_ok, guard_eq_ok, pure_eq_ok, required_eq_ok, hstatus,
      Option.bind_some, CohortRunStatus.ofValue?_value, Option.some.injEq] at hreplay
    obtain ⟨-, status, rfl, rfl⟩ := hreplay
    exact .completion ordered convergence verification hkind hconvergence hverification hordered
      hstatus

theorem Fits.parallelism_le (h : Fits graph r event) (hreplay : replayEvent graph r event = .ok r') :
    r.maxParallelism ≤ r'.maxParallelism := by
  cases h.outcome hreplay with
  | dispatch => exact le_max_left _ _
  | packageResult | convergence | verification | completion => exact le_rfl

theorem Steps.prefix (h : Steps graph records r records' r') : records <+: records' := by
  induction h with
  | refl => exact List.prefix_rfl
  | step _ _ _ ih => exact ih.trans (List.prefix_append _ _)

/-- The records are replayed to what the execution knows. -/
theorem Steps.replays {first : CohortJournalEvent} (h : Steps graph [first] .empty records r) :
    ∃ rest, records = first :: rest ∧ rest.foldlM (replayEvent graph) .empty = .ok r := by
  induction h with
  | refl => exact ⟨[], rfl, rfl⟩
  | step _ _ hreplay ih =>
    obtain ⟨rest, rfl, hfold⟩ := ih
    exact ⟨_, rfl, Trace.foldlM_concat_eq_ok.mpr ⟨_, hfold, hreplay⟩⟩

/-- Every prefix with the kickoff is made of steps. -/
theorem Steps.take {first : CohortJournalEvent} (h : Steps graph [first] .empty records r) {n : ℕ}
    (hn : 0 < n) : ∃ r', Steps graph [first] .empty (records.take n) r' ∧
      r'.maxParallelism ≤ r.maxParallelism := by
  induction h with
  | refl =>
    rw [List.take_of_length_le (List.length_singleton.trans_le hn)]
    exact ⟨_, .refl, le_rfl⟩
  | @step before middle after event hbefore hfits hreplay ih =>
    rcases Nat.lt_or_ge before.length n with hlt | hle
    · rw [List.take_of_length_le (List.length_append.trans_le hlt)]
      exact ⟨after, .step hbefore hfits hreplay, le_rfl⟩
    · obtain ⟨r', hr', hparallelism⟩ := ih
      rw [List.take_append_of_le_length hle]
      exact ⟨r', hr', hparallelism.trans (hfits.parallelism_le hreplay)⟩

/-- What an execution knows is what its records say. -/
structure Reflects (graph : OutcomeGraphSpec) (records : List CohortJournalEvent) (r : Retained) :
    Prop where
  packageResults : ∀ event ∈ records, event.kind = .packageResult →
    ∃ result, packageResultFromDocument event.payload = .ok result ∧
      result.packageId ∈ graph.ids ∧ r.results result.packageId = some result
  convergence : ∀ event ∈ records, event.kind = .convergence →
    ∃ result, convergenceFromDocument event.payload = .ok result ∧ r.convergence = some result
  verification : ∀ event ∈ records, event.kind = .verification →
    ∃ result, verificationFromDocument event.payload = .ok result ∧ r.verification = some result
  completion : ∀ event ∈ records, event.kind = .runCompleted →
    ∃ status, textOf? event.payload "status" = some status.value ∧ r.completion = some status

theorem reflects_of_steps {first : CohortJournalEvent} (hfirst : first.kind = .kickoff)
    (h : Steps graph [first] .empty records r) : Reflects graph records r := by
  induction h with
  | refl =>
    refine ⟨?_, ?_, ?_, ?_⟩ <;>
    · refine List.forall_mem_singleton.mpr fun hkind ↦ ?_
      rw [hfirst] at hkind
      exact nomatch hkind
  | @step before r after event _ hfits hreplay ih =>
    have hsplit : ∀ {P : CohortJournalEvent → Prop}, (∀ item ∈ before, P item) → P event →
        ∀ item ∈ before ++ [event], P item := by
      intro P hbefore hevent item hitem
      rcases List.mem_append.mp hitem with hitem | hitem
      · exact hbefore item hitem
      · exact List.mem_singleton.mp hitem ▸ hevent
    have hother : ∀ {kind kind' : CohortJournalEventKind} {P : Prop}, event.kind = kind →
        kind ≠ kind' → event.kind = kind' → P :=
      fun hkind hne hkind' ↦ absurd (hkind.symm.trans hkind') hne
    cases hfits.outcome hreplay with
    | dispatch ids activeCount hkind =>
      exact ⟨hsplit ih.packageResults (hother hkind (by decide)),
        hsplit ih.convergence (hother hkind (by decide)),
        hsplit ih.verification (hother hkind (by decide)),
        hsplit ih.completion (hother hkind (by decide))⟩
    | packageResult result hkind hdocument hknown hfresh =>
      refine ⟨hsplit (fun item hitem hitemKind ↦ ?_) fun _ ↦ ?_,
        hsplit ih.convergence (hother hkind (by decide)),
        hsplit ih.verification (hother hkind (by decide)),
        hsplit ih.completion (hother hkind (by decide))⟩
      · -- the new result is that of another package
        obtain ⟨result', hdocument', hknown', hresult'⟩ := ih.packageResults item hitem hitemKind
        have hne : result'.packageId ≠ result.packageId := by
          intro heq
          rw [heq, hfresh] at hresult'
          exact nomatch hresult'
        exact ⟨result', hdocument', hknown', (Function.update_of_ne hne _ _).trans hresult'⟩
      · exact ⟨result, hdocument, hknown, Function.update_self ..⟩
    | convergence result hkind hdocument hfresh =>
      refine ⟨hsplit ih.packageResults (hother hkind (by decide)),
        hsplit (fun item hitem hitemKind ↦ ?_) fun _ ↦ ⟨result, hdocument, rfl⟩,
        hsplit ih.verification (hother hkind (by decide)),
        hsplit ih.completion (hother hkind (by decide))⟩
      obtain ⟨_, -, hsome⟩ := ih.convergence item hitem hitemKind
      exact nomatch hfresh.symm.trans hsome
    | verification result hkind hdocument hfresh =>
      refine ⟨hsplit ih.packageResults (hother hkind (by decide)),
        hsplit ih.convergence (hother hkind (by decide)),
        hsplit (fun item hitem hitemKind ↦ ?_) fun _ ↦ ⟨result, hdocument, rfl⟩,
        hsplit ih.completion (hother hkind (by decide))⟩
      obtain ⟨_, -, hsome⟩ := ih.verification item hitem hitemKind
      exact nomatch hfresh.symm.trans hsome
    | completion ordered convergence verification hkind _ _ _ hdocument =>
      refine ⟨hsplit ih.packageResults (hother hkind (by decide)),
        hsplit ih.convergence (hother hkind (by decide)),
        hsplit ih.verification (hother hkind (by decide)),
        hsplit (fun item hitem hitemKind ↦ ?_) fun _ ↦ ⟨_, hdocument, rfl⟩⟩
      obtain ⟨_, -, hsome⟩ := ih.completion item hitem hitemKind
      exact nomatch hfits.incomplete.symm.trans hsome

/-- A run that was completed has everything that its status depends on. -/
theorem Steps.completed {first : CohortJournalEvent} (h : Steps graph [first] .empty records r)
    {status : CohortRunStatus} (hcompletion : r.completion = some status) :
    ∃ ordered convergence verification, r.convergence = some convergence ∧
      r.verification = some verification ∧
      graph.packages.mapM (fun p ↦ required (r.results p.packageId) (.keyError p.packageId)) =
        .ok ordered ∧
      status = runStatus ordered convergence verification := by
  cases h with
  | refl => exact nomatch hcompletion
  | step _ hfits hreplay =>
    cases hfits.outcome hreplay with
    | dispatch | packageResult | convergence | verification =>
      exact nomatch hfits.incomplete.symm.trans hcompletion
    | completion ordered convergence verification _ hconvergence hverification hordered =>
      exact ⟨ordered, convergence, verification, hconvergence, hverification, hordered,
        (Option.some.inj hcompletion).symm⟩

end Steps

section Journals

/-! ## What is left behind -/

variable [Hash256] {x y : CohortRun} {j j' : RunJournal} {records records' : List CohortJournalEvent}
  {r r' : Retained}

/-- The same graph, policy, run, context and effect classes. -/
structure SameArguments (x y : CohortRun) : Prop where
  graph : y.graph = x.graph
  policy : y.policy = x.policy
  kickoff : y.kickoff = x.kickoff
  effectClasses : y.effectClasses = x.effectClasses

/-- The journal has room for an execution. -/
def Room (x : CohortRun) (j : RunJournal) : Prop :=
  j.files.length + 2 * x.graph.packages.length + 4 < 10 ^ 8

/-- An execution has a journal, in its beginning, in its loop or at its end. -/
def CohortRun.Writes (x : CohortRun) (resume : Bool) (j₀ j : RunJournal) : Prop :=
  ∃ b, x.start resume (some j₀) = .ok b ∧ (b.state.journal = some j ∨
    b.completion = none ∧ ∃ signals, (x.run b.state signals).state.journal = some j ∨
      (x.run b.state signals).position = .finished ∧ ∃ finalize result,
        x.conclude finalize b (x.run b.state signals).state = .ok (result, some j))

/-- A store keeps a journal as it is, or is opened again after a stop between two appends. -/
def Stopped (j j' : RunJournal) : Prop := j' = j ∨ ∃ n, j' = ⟨j.files.take n, none⟩

/-- The journals that executions with the arguments of `x` leave behind. -/
inductive Leaves (x : CohortRun) : RunJournal → Prop
  | fresh : Leaves x ⟨[], none⟩
  | stop {y : CohortRun} {resume : Bool} {j₀ j j' : RunJournal} : Leaves x j₀ → SameArguments x y →
    Room x j₀ → y.Writes resume j₀ j → Stopped j j' → Leaves x j'

/-- A journal keeps the records of an execution, which knows `r`. -/
structure Kept (x : CohortRun) (j : RunJournal) (records : List CohortJournalEvent) (r : Retained) :
    Prop where
  holds : Holds x.kickoff.runId j records
  numbered : Numbered.Consecutive "event-" ".json" 8 j.files
  steps : ∃ first, first.kind = .kickoff ∧ PyValue.reread x.kickoffRecord = .ok first.payload ∧
    Steps x.graph [first] .empty records r
  parallelism : r.maxParallelism < 10 ^ 8

/-- A journal is empty, or keeps the records of an execution. -/
def Sound (x : CohortRun) (j : RunJournal) : Prop :=
  j = ⟨[], none⟩ ∨ ∃ records r, Kept x j records r

theorem Kept.congr (h : Kept x j records r) (hsame : SameArguments x y) : Kept y j records r := by
  have hrecord : y.kickoffRecord = x.kickoffRecord := by
    rw [CohortRun.kickoffRecord, CohortRun.kickoffRecord, hsame.kickoff, hsame.effectClasses]
  refine ⟨hsame.kickoff ▸ h.holds, h.numbered, ?_, h.parallelism⟩
  rw [hrecord, hsame.graph]
  exact h.steps

theorem Sound.congr (h : Sound x j) (hsame : SameArguments x y) : Sound y j :=
  h.imp_right fun ⟨records, r, hkept⟩ ↦ ⟨records, r, hkept.congr hsame⟩

theorem Kept.follows (h : Kept x j records r) (hfollows : Follows x j j' records records' r r')
    (hholds : Holds x.kickoff.runId j' records') (hparallelism : r'.maxParallelism < 10 ^ 8) :
    Kept x j' records' r' := by
  obtain ⟨first, hkind, hpayload, hsteps⟩ := h.steps
  exact ⟨hholds, hfollows.numbered h.numbered, ⟨first, hkind, hpayload, hsteps.trans hfollows.steps⟩,
    hparallelism⟩

/-- What is left of a journal after a stop. -/
theorem Kept.sound_of_stopped (h : Kept x j records r) (hstopped : Stopped j j') : Sound x j' := by
  rcases hstopped with rfl | ⟨n, rfl⟩
  · exact .inr ⟨records, r, h⟩
  · rcases Nat.eq_zero_or_pos n with rfl | hn
    · rw [List.take_zero]
      exact .inl rfl
    · obtain ⟨first, hkind, hpayload, hsteps⟩ := h.steps
      obtain ⟨r', hsteps', hle⟩ := hsteps.take hn
      exact .inr ⟨records.take n, r', h.holds.take h.numbered n, h.numbered.take n,
        ⟨first, hkind, hpayload, hsteps'⟩, hle.trans_lt h.parallelism⟩

/-! ## Starting again -/

theorem Kept.reflects (h : Kept x j records r) : Reflects x.graph records r := by
  obtain ⟨first, hkind, -, hsteps⟩ := h.steps
  exact reflects_of_steps hkind hsteps

theorem Kept.ne_nil (h : Kept x j records r) : records ≠ [] := by
  obtain ⟨first, -, -, hsteps⟩ := h.steps
  obtain ⟨rest, rfl, -⟩ := hsteps.replays
  exact List.cons_ne_nil _ _

omit [Hash256] in
/-- The kickoff of the same arguments is accepted. -/
theorem matchesKickoff_of_payload {first : CohortJournalEvent} (hkind : first.kind = .kickoff)
    (hpayload : PyValue.reread x.kickoffRecord = .ok first.payload) :
    x.matchesKickoff first = .ok true := by
  have hexpected : canonicalBytes (.dict x.kickoffRecord) = .ok first.payload.toJson.dumps := by
    rw [canonicalBytes, PyValue.plain_dict_of_reread hpayload]
    rfl
  have hretained : canonicalBytes (.dict (PyValue.ofJsonItems first.payload.members)) =
      .ok first.payload.toJson.dumps := by
    rw [canonicalBytes, PyValue.plain_dict_of_reread (PyValue.reread_ofJsonItems hpayload)]
    rfl
  simp only [CohortRun.matchesKickoff, bind_eq_ok, mapError_eq_ok, pure_eq_ok]
  exact ⟨_, hretained, _, hexpected, by simp [hkind]⟩

omit [Hash256] in
theorem mem_of_mapM {results : Results} {ps : List OutcomeWorkPackage}
    {ordered : List PackageRunResult}
    (h : ps.mapM (fun p ↦ required (results p.packageId) (RunError.keyError p.packageId)) =
      .ok ordered) {p : OutcomeWorkPackage} (hp : p ∈ ps) :
    ∃ result ∈ ordered, results p.packageId = some result := by
  induction ps generalizing ordered with
  | nil => exact absurd hp List.not_mem_nil
  | cons q ps ih =>
    simp only [List.mapM_cons, bind_eq_ok, pure_eq_ok, required_eq_ok] at h
    obtain ⟨result, hresult, rest, hrest, rfl⟩ := h
    rcases List.mem_cons.mp hp with rfl | hp
    · exact ⟨result, List.mem_cons_self, hresult⟩
    · obtain ⟨result', hmem, hresult'⟩ := ih hrest hp
      exact ⟨result', List.mem_cons_of_mem _ hmem, hresult'⟩

/-- An execution recollects what its journal keeps. -/
theorem Kept.recollect (h : Kept x j records r) :
    x.recollect true (some j) = .ok (r, some { j with seen := remember j.seen records }) ∧
      Kept x { j with seen := remember j.seen records } records r := by
  refine ⟨?_, ⟨h.holds.remember, h.numbered, h.steps, h.parallelism⟩⟩
  obtain ⟨first, hkind, hpayload, hsteps⟩ := h.steps
  obtain ⟨rest, rfl, hfold⟩ := hsteps.replays
  have hfull : ¬(r.completion.isSome = true ∧ ¬r.Full x.graph) := by
    rintro ⟨hcompletion, hnot⟩
    obtain ⟨status, hstatus⟩ := Option.isSome_iff_exists.mp hcompletion
    obtain ⟨ordered, _, _, -, -, hordered, -⟩ := hsteps.completed hstatus
    refine hnot fun id hid ↦ ?_
    obtain ⟨p, hp, rfl⟩ := OutcomeGraphSpec.exists_package hid
    obtain ⟨result, -, hresult⟩ := mem_of_mapM hordered hp
    rw [hresult]
    exact Option.some_ne_none result
  have hreplay : replay x.graph (first :: rest) = .ok r := by
    rw [replay, List.tail_cons, hfold, ok_bind, if_neg hfull]
    rfl
  simp only [CohortRun.recollect, CohortRun.reread, bind_eq_ok]
  refine ⟨(r, { j with seen := remember j.seen (first :: rest) }), ⟨_, h.holds.read, ?_⟩, rfl⟩
  simp only [matchesKickoff_of_payload hkind hpayload, hreplay]
  rfl

/-- A journal that is kept is what an execution starts from. -/
theorem Kept.recorded (h : Kept x j records r) (hopen : r.completion = none) :
    Recorded x (initialState x.graph r (some j)) j records r ∧
      r.batches.length ≤ j.files.length := by
  obtain ⟨first, hkind, -, hsteps⟩ := h.steps
  obtain ⟨rest, rfl, hfold⟩ := hsteps.replays
  have hlength := h.holds.length_eq
  rw [List.length_cons] at hlength
  have hbatches := (after_of_foldlM hfold).2.1
  exact ⟨.of_replay h.holds hkind hfold hopen, by omega⟩

/-- An execution with a journal of its own kind recollects it. -/
theorem recollect_of_start {resume : Bool} {b : Beginning} (h : Sound x j)
    (hstart : x.start resume (some j) = .ok b) :
    ∃ j₁ records₁ r, x.recollect resume (some j) = .ok (r, some j₁) ∧ Kept x j₁ records₁ r ∧
      j₁.files.length ≤ j.files.length + 1 := by
  rcases h with rfl | ⟨records, r, hkept⟩
  · -- the kickoff has been appended, so it has a canonical text
    obtain ⟨payload, hpayload⟩ : ∃ payload, PyValue.reread x.kickoffRecord = .ok payload := by
      simp only [CohortRun.start, CohortRun.recollect, CohortRun.reread, Holds.empty.read, ok_bind,
        bind_eq_ok, pure_eq_ok] at hstart
      obtain ⟨_, ⟨_, ⟨j', happend, -⟩, -⟩, -⟩ := hstart
      obtain ⟨_, _, -, hreread, -⟩ :=
        Holds.empty.remember.of_append happend (x.dated _) (by decide)
      exact ⟨_, hreread⟩
    obtain ⟨j₁, event, hrecollect, hholds, hkind, hevent, hnumbered, hlength⟩ :=
      recollect_empty resume hpayload
    refine ⟨j₁, [event], .empty, hrecollect, ⟨hholds, hnumbered, ⟨event, hkind, ?_, .refl⟩, ?_⟩, ?_⟩
    · rw [hevent]
      exact hpayload
    · exact (by decide : (0 : ℕ) < 10 ^ 8)
    · rw [hlength]
      exact Nat.le_add_left 1 _
  · obtain ⟨first, rest, rfl⟩ := List.exists_cons_of_ne_nil hkept.ne_nil
    have hresume : resume = true := by
      simp only [CohortRun.start, CohortRun.recollect, CohortRun.reread, hkept.holds.read, ok_bind,
        bind_eq_ok, guard_eq_ok] at hstart
      obtain ⟨_, ⟨_, ⟨hresume, -⟩, -⟩, -⟩ := hstart
      simpa using hresume
    subst hresume
    obtain ⟨hrecollect, hkept'⟩ := hkept.recollect
    exact ⟨_, _, r, hrecollect, hkept', Nat.le_succ _⟩

/-- The loop of an execution keeps its journal. -/
theorem Kept.run {s : RunState} (h : Kept x j records r) (hinv : Machine.Inv x ⟨s, .scheduling⟩)
    (hrecorded : Machine.Recorded x ⟨s, .scheduling⟩ j records r) (hopen : r.completion = none)
    (hpackages : x.graph.packages.length < 10 ^ 8) (signals : List Signal) :
    ∃ j' records' r', (x.run s signals).Recorded x j' records' r' ∧ Kept x j' records' r' ∧
      r.SameEnd r' ∧ records <+: records' := by
  obtain ⟨⟨j', records', r', _, hafter, hgrows, hsame⟩, -⟩ := hrecorded.run hinv signals
  have hfollows := Follows.of_grows hgrows hrecorded.state hafter.state hopen
  refine ⟨j', records', r', hafter, h.follows hfollows hafter.state.holds ?_, hsame,
    hfollows.steps.prefix⟩
  have hparallelism := maxParallelism_run hinv signals
  have hbefore := h.parallelism
  rw [hrecorded.state.maxParallelism] at hbefore
  rw [hafter.state.maxParallelism]
  change s.maxParallelism < 10 ^ 8 at hbefore
  omega

/-- The end of an execution, where it has come to it, keeps its journal. -/
theorem Kept.conclude {m : Machine} (h : Kept x j records r) (hinv : m.Inv x)
    (hrecorded : m.Recorded x j records r) (hopen : r.completion = none)
    (hpackages : x.graph.packages.length < 10 ^ 8) (hfinished : m.position = .finished)
    {b : Beginning} (hconvergence : r.convergence = b.convergence)
    (hverification : r.verification = b.verification) {ordered : List PackageRunResult}
    (hordered : m.state.ordered x.graph = .ok ordered)
    (hencodable : b.convergence = none →
      Encodable (settleConvergence (x.callbacks.converge x.kickoff ordered)).output)
    (finalize : Bool) :
    ∃ result j' records' r', x.conclude finalize b m.state = .ok (result, some j') ∧
      Kept x j' records' r' := by
  obtain ⟨hpending, hactive⟩ := hinv.finished hfinished
  have hfull := full_of_inv hinv.state hpending hactive
  obtain ⟨ordered', hordered', hids⟩ := ordered_of_full hinv.state hfull
  obtain rfl := Except.ok.inj (hordered.symm.trans hordered')
  have hlength : ordered.length < 10 ^ 8 := by
    have hmap := congrArg List.length hids
    rw [OutcomeGraphSpec.ids, List.length_map, List.length_map] at hmap
    omega
  have hroom := hrecorded.room
  have hbatches := hrecorded.batches
  obtain ⟨j', records', r', convergence, verification, hconclude, -, -, hholds, hfollows,
    hparallelism⟩ := hrecorded.state.conclude hfull hopen hconvergence hverification hordered
      (by omega) hlength (by omega) (hrecorded.state.maxParallelism ▸ h.parallelism) hencodable
      finalize
  exact ⟨_, j', records', r', hconclude, h.follows hfollows hholds (hparallelism ▸ h.parallelism)⟩

/-- A completed run has a result of every package, so nothing is left for its loop. -/
theorem start_of_completed {resume : Bool} {j₁ : RunJournal}
    (hrecollect : x.recollect resume (some j) = .ok (r, some j₁)) (hkept : Kept x j₁ records r)
    {status : CohortRunStatus} (hcompletion : r.completion = some status) :
    x.start resume (some j) = .ok ⟨{ initialState x.graph r (some j₁) with pending := [] },
      r.convergence, r.verification, some status⟩ := by
  obtain ⟨_, -, -, hsteps⟩ := hkept.steps
  obtain ⟨ordered, _, _, -, -, hordered, -⟩ := hsteps.completed hcompletion
  have hpending : (initialState x.graph r (some j₁)).pending = [] := by
    refine List.filter_eq_nil_iff.mpr fun id hid ↦ ?_
    obtain ⟨p, hp, rfl⟩ := OutcomeGraphSpec.exists_package hid
    obtain ⟨result, -, hresult⟩ := mem_of_mapM hordered hp
    rw [hresult]
    exact Bool.false_ne_true
  have hpackages : (initialState x.graph r (some j₁)).pendingPackages x.graph = [] := by
    rw [RunState.pendingPackages, hpending]
    rfl
  have hfold : ((initialState x.graph r (some j₁)).pendingPackages x.graph).foldlM x.gate
      (initialState x.graph r (some j₁)) = .ok (initialState x.graph r (some j₁)) := by
    rw [hpackages]
    rfl
  simp only [CohortRun.start, bind_eq_ok]
  refine ⟨_, hrecollect, _, hfold, ?_⟩
  simp only [hpending, hcompletion]
  rfl

/-- A run that is not completed is taken up where its journal has left it. -/
theorem Kept.opens {resume : Bool} {j₁ : RunJournal}
    (hrecollect : x.recollect resume (some j) = .ok (r, some j₁)) (hkept : Kept x j₁ records r)
    (hopen : r.completion = none)
    (hroom : j₁.files.length + 2 * x.graph.packages.length + 3 < 10 ^ 8) :
    ∃ b j₂ records₂ r₂, x.start resume (some j) = .ok b ∧ b.convergence = r.convergence ∧
      b.verification = r.verification ∧ b.completion = none ∧
      Machine.Recorded x ⟨b.state, .scheduling⟩ j₂ records₂ r₂ ∧ Kept x j₂ records₂ r₂ ∧
      r.SameEnd r₂ ∧ records <+: records₂ := by
  obtain ⟨hinitial, hbatches⟩ := hkept.recorded hopen
  obtain ⟨b, j₂, records₂, r₂, hstart, hconvergence, hverification, hcompletion, hrecorded, hfollows,
    hsame, hparallelism⟩ := Cohort.exists_start hrecollect hinitial hopen hbatches hroom
  exact ⟨b, j₂, records₂, r₂, hstart, hconvergence, hverification, hcompletion, hrecorded,
    hkept.follows hfollows hrecorded.state.holds (hparallelism ▸ hkept.parallelism), hsame,
    hfollows.steps.prefix⟩

/-- Whatever an execution writes is kept. -/
theorem kept_of_writes {resume : Bool} {j₀ : RunJournal} (h : Sound x j₀) (hroom : Room x j₀)
    (hwrites : x.Writes resume j₀ j) : ∃ records r, Kept x j records r := by
  obtain ⟨b, hstart, hwritten⟩ := hwrites
  obtain ⟨j₁, records₁, r₁, hrecollect, hkept, hlength⟩ := recollect_of_start h hstart
  rw [Room] at hroom
  cases hcompletion : r₁.completion with
  | some status =>
    -- nothing is written any more
    obtain rfl := Except.ok.inj (hstart.symm.trans (start_of_completed hrecollect hkept hcompletion))
    rcases hwritten with hjournal | ⟨hopen, -⟩
    · obtain rfl := Option.some.inj hjournal
      exact ⟨records₁, r₁, hkept⟩
    · exact nomatch hopen
  | none =>
    obtain ⟨b', j₂, records₂, r₂, hstart', hconvergence, hverification, -, hrecorded, hkept₂, hsame,
      -⟩ := hkept.opens hrecollect hcompletion (by omega)
    obtain rfl := Except.ok.inj (hstart.symm.trans hstart')
    have hinv := (inv_of_start hstart).1
    have hopen₂ : r₂.completion = none := hsame.2.2.trans hcompletion
    rcases hwritten with hjournal | ⟨-, signals, hjournal | ⟨hfinished, finalize, result, hconclude⟩⟩
    · obtain rfl := Option.some.inj (hjournal.symm.trans hrecorded.state.hasJournal)
      exact ⟨records₂, r₂, hkept₂⟩
    · obtain ⟨j₃, records₃, r₃, hafter, hkept₃, -⟩ :=
        hkept₂.run hinv hrecorded hopen₂ (by omega) signals
      obtain rfl := Option.some.inj (hjournal.symm.trans hafter.state.hasJournal)
      exact ⟨records₃, r₃, hkept₃⟩
    · obtain ⟨j₃, records₃, r₃, hafter, hkept₃, hsame₃, -⟩ :=
        hkept₂.run hinv hrecorded hopen₂ (by omega) signals
      obtain ⟨ordered, _, _, hordered, -⟩ := conclude_eq_ok hconclude
      have hencodable : b.convergence = none →
          Encodable (settleConvergence (x.callbacks.converge x.kickoff ordered)).output := by
        intro hnone
        by_contra hnot
        rw [conclude_eq_error hafter.state.hasJournal hnone hordered hnot finalize] at hconclude
        exact nomatch hconclude
      obtain ⟨result', j₄, records₄, r₄, hconclude', hkept₄⟩ :=
        hkept₃.conclude (hinv.run signals).1 hafter (hsame₃.2.2.trans hopen₂) (by omega) hfinished
          (hsame₃.1.trans (hsame.1.trans hconvergence.symm))
          (hsame₃.2.1.trans (hsame.2.1.trans hverification.symm)) hordered hencodable finalize
      obtain ⟨rfl, hsome⟩ := Prod.mk.inj (Except.ok.inj (hconclude.symm.trans hconclude'))
      obtain rfl := Option.some.inj hsome
      exact ⟨records₄, r₄, hkept₄⟩

/-- Everything that executions leave behind can be resumed. -/
theorem sound_of_leaves (h : Leaves x j) : Sound x j := by
  induction h with
  | fresh => exact .inl rfl
  | @stop y resume j₀ j j' _ hsame hroom hwrites hstopped ih =>
    have hback : SameArguments y x :=
      ⟨hsame.graph.symm, hsame.policy.symm, hsame.kickoff.symm, hsame.effectClasses.symm⟩
    have hroom' : Room y j₀ := by rwa [Room, hsame.graph]
    obtain ⟨records, r, hkept⟩ := kept_of_writes (ih.congr hsame) hroom' hwrites
    exact (hkept.congr hback).sound_of_stopped hstopped

/-! ## Resumed executions -/

/-- An execution recollects what was left behind. -/
theorem Sound.recollect (h : Sound x j) {payload : Json.Dict}
    (hpayload : PyValue.reread x.kickoffRecord = .ok payload) :
    ∃ records j₁ records₁ r, Holds x.kickoff.runId j records ∧ records <+: records₁ ∧
      x.recollect true (some j) = .ok (r, some j₁) ∧ Kept x j₁ records₁ r ∧
      j₁.files.length ≤ j.files.length + 1 := by
  rcases h with rfl | ⟨records, r, hkept⟩
  · obtain ⟨j₁, event, hrecollect, hholds, hkind, hevent, hnumbered, hlength⟩ :=
      recollect_empty (x := x) true hpayload
    exact ⟨[], j₁, [event], .empty, .empty, List.nil_prefix, hrecollect,
      ⟨hholds, hnumbered, ⟨event, hkind, hevent ▸ hpayload, .refl⟩,
        (by decide : (0 : ℕ) < 10 ^ 8)⟩, hlength.le.trans (Nat.le_add_left 1 _)⟩
  · obtain ⟨hrecollect, hkept'⟩ := hkept.recollect
    exact ⟨records, _, records, r, hkept.holds, List.prefix_rfl, hrecollect, hkept', Nat.le_succ _⟩

/-- The result has what the records say. -/
structure Faithful (records : List CohortJournalEvent) (result : CohortRunResult) : Prop where
  packageResults : ∀ event ∈ records, event.kind = .packageResult →
    ∃ r ∈ result.packageResults, packageResultFromDocument event.payload = .ok r
  convergence : ∀ event ∈ records, event.kind = .convergence →
    convergenceFromDocument event.payload = .ok result.convergence
  verification : ∀ event ∈ records, event.kind = .verification →
    verificationFromDocument event.payload = .ok result.verification

omit [Hash256] in
theorem Faithful.mono {result : CohortRunResult} (h : Faithful records' result)
    (hsubset : records ⊆ records') : Faithful records result :=
  ⟨fun event hevent ↦ h.packageResults event (hsubset hevent),
    fun event hevent ↦ h.convergence event (hsubset hevent),
    fun event hevent ↦ h.verification event (hsubset hevent)⟩

omit [Hash256] in
/-- Results that are taken over are in the result. -/
theorem Faithful.of_reflects {s : RunState} (h : Reflects x.graph records r)
    (h' : Reflects x.graph records' r') (hbegin : records <+: records')
    (hresults : r'.results = s.results) {ordered : List PackageRunResult}
    (hordered : s.ordered x.graph = .ok ordered) {convergence : ConvergenceResult}
    {verification : VerificationResult} (hconvergence : ∀ c, r.convergence = some c → convergence = c)
    (hverification : ∀ v, r.verification = some v → verification = v) :
    Faithful records (x.result s ordered convergence verification) := by
  refine ⟨fun event hevent hkind ↦ ?_, fun event hevent hkind ↦ ?_, fun event hevent hkind ↦ ?_⟩
  · obtain ⟨result, hdocument, hknown, hresult⟩ :=
      h'.packageResults event (hbegin.subset hevent) hkind
    obtain ⟨p, hp, hid⟩ := OutcomeGraphSpec.exists_package hknown
    obtain ⟨result', hmem, hresult'⟩ := mem_of_mapM hordered hp
    rw [hresults, ← hid, hresult'] at hresult
    obtain rfl := Option.some.inj hresult
    exact ⟨result', hmem, hdocument⟩
  · obtain ⟨c, hdocument, hsome⟩ := h.convergence event hevent hkind
    obtain rfl := hconvergence c hsome
    exact hdocument
  · obtain ⟨v, hdocument, hsome⟩ := h.verification event hevent hkind
    obtain rfl := hverification v hsome
    exact hdocument

/-- The same execution with other callbacks. -/
def CohortRun.withCallbacks (x : CohortRun) (callbacks : Callbacks) : CohortRun :=
  { x with callbacks := callbacks }

/-- A completed run is answered from its journal, whatever the callbacks would do. -/
theorem execute_of_completed {j₁ : RunJournal}
    (hrecollect : x.recollect true (some j) = .ok (r, some j₁)) (hkept : Kept x j₁ records r)
    {status : CohortRunStatus} (hcompletion : r.completion = some status) :
    ∃ result, result.status = status ∧ Faithful records result ∧ ∀ callbacks finalize signals,
      (x.withCallbacks callbacks).execute true finalize (some j) signals =
        .ok (some (result, some j₁)) := by
  obtain ⟨_, -, -, hsteps⟩ := hkept.steps
  obtain ⟨ordered, convergence, verification, hconvergence, hverification, hordered, hstatus⟩ :=
    hsteps.completed hcompletion
  let s : RunState := { initialState x.graph r (some j₁) with pending := [] }
  have hordered' : s.ordered x.graph = .ok ordered := hordered
  refine ⟨x.result s ordered convergence verification, hstatus.symm, ?_,
    fun callbacks finalize signals ↦ ?_⟩
  · refine .of_reflects hkept.reflects hkept.reflects List.prefix_rfl rfl hordered' ?_ ?_
    · exact fun c hc ↦ Option.some.inj (hconvergence.symm.trans hc)
    · exact fun v hv ↦ Option.some.inj (hverification.symm.trans hv)
  · have hstart : (x.withCallbacks callbacks).start true (some j) =
        .ok ⟨s, some convergence, some verification, some status⟩ := by
      rw [← hconvergence, ← hverification]
      exact start_of_completed (x := x.withCallbacks callbacks) hrecollect
        (hkept.congr ⟨rfl, rfl, rfl, rfl⟩) hcompletion
    have hordered'' : s.ordered (x.withCallbacks callbacks).graph = .ok ordered := hordered
    simp only [CohortRun.execute, hstart, ok_bind, CohortRun.retainedResult, required, hordered'',
      hstatus, ne_eq, not_true_eq_false, if_false]
    rfl

/-- The signals lead a run that is taken up to its end, and its outputs have canonical texts. -/
structure Concludes (x : CohortRun) (b : Beginning) (signals : List Signal) : Prop where
  unstuck : PassesFrom x (RunState.Unstuck x) b.state signals
  answered : ∀ n, Answered (x.run b.state (signals.take n)).state
  converged : ∀ ordered, (x.run b.state signals).state.ordered x.graph = .ok ordered →
    b.convergence = none →
    Encodable (settleConvergence (x.callbacks.converge x.kickoff ordered)).output
  isOver : ∀ signal, x.advance (x.run b.state signals) signal = x.run b.state signals

/-- An execution may stop right after its kickoff. -/
theorem exists_stopped {request : CohortRequest} (hprepare : request.prepare = .ok x)
    (hroom : 2 * x.graph.packages.length + 5 < 10 ^ 8) :
    ∃ j first, Leaves x j ∧ Room x j ∧ Kept x j [first] .empty := by
  obtain ⟨payload, hpayload⟩ := exists_kickoffRecord hprepare
  obtain ⟨_, j₁, records₁, r, -, -, hrecollect, hkept, hlength⟩ :=
    Sound.recollect (x := x) (.inl rfl) hpayload
  obtain ⟨hrecords, rfl⟩ : (∃ first, records₁ = [first]) ∧ r = .empty := by
    obtain ⟨j', event, hrecollect', hholds, -⟩ := recollect_empty (x := x) true hpayload
    obtain ⟨rfl, hsome⟩ := Prod.mk.inj (Except.ok.inj (hrecollect.symm.trans hrecollect'))
    obtain rfl := Option.some.inj hsome
    have hboth := hkept.holds.replays.symm.trans hholds.replays
    exact ⟨⟨event, Except.ok.inj hboth⟩, rfl⟩
  obtain ⟨first, rfl⟩ := hrecords
  simp only [List.length_nil] at hlength
  obtain ⟨b, j₂, records₂, r₂, hstart, -, -, -, hrecorded, hkept₂, -, rest, rfl⟩ :=
    hkept.opens hrecollect rfl (by omega)
  have hwrites : x.Writes true ⟨[], none⟩ j₂ := ⟨b, hstart, .inl hrecorded.state.hasJournal⟩
  have hfresh : Room x ⟨[], none⟩ := by
    rw [Room, List.length_nil]
    omega
  have hstopped : Stopped j₂ ⟨j₂.files.take 1, none⟩ := .inr ⟨1, rfl⟩
  refine ⟨⟨j₂.files.take 1, none⟩, first,
    .stop .fresh ⟨rfl, rfl, rfl, rfl⟩ hfresh hwrites hstopped, ?_, ?_⟩
  · have hone : (j₂.files.take 1).length ≤ 1 := List.length_take_le 1 _
    change (j₂.files.take 1).length + 2 * x.graph.packages.length + 4 < 10 ^ 8
    omega
  · obtain ⟨first', hkind, hfirst, hsteps⟩ := hkept.steps
    obtain ⟨rest', hrest, -⟩ := hsteps.replays
    obtain ⟨rfl, -⟩ := List.cons.inj hrest
    exact ⟨hkept₂.holds.take hkept₂.numbered 1, hkept₂.numbered.take 1,
      ⟨first, hkind, hfirst, .refl⟩, (by decide : (0 : ℕ) < 10 ^ 8)⟩

end Journals

/-! ## A stop before a chain is blocked -/

theorem room_chainGraph : 2 * chainGraph.packages.length + 5 < 10 ^ 8 := by decide

theorem room_soloGraph' : 2 * soloGraph.packages.length + 5 < 10 ^ 8 := by decide

end HiveMind.Cohort
