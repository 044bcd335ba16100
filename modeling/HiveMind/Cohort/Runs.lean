import HiveMind.Cohort.Journaling

/-!
# Runs of a cohort

A run is safe, and comes to an end with one result for every package. It may be followed along any
signals, with a journal or without one, as long as no pass starts in a state where packages with
nested paths may run together or where packages are left behind, and a journal can keep what the
packages return.

* **`cohort_run_safe`**: what holds in every state of such a run.
* **`run_ends`**: a run comes to rest, and not for want of anything but a signal.
-/

open Raise

namespace HiveMind.Cohort

open RunState

section Runs

variable [Hash256] {x : CohortRun} {s s' : RunState} {m : Machine}

/-! ## Runs without a journal -/

theorem exists_block (h : s.journal = none) (p : OutcomeWorkPackage) :
    ∃ s', x.block s p = .ok s' ∧ s'.journal = none := by
  rw [CohortRun.block, h]
  cases p.dependencies.find? s.results.failed with
  | none => exact ⟨s, rfl, h⟩
  | some d => exact ⟨_, rfl, rfl⟩

theorem exists_foldlM_block (h : s.journal = none) (ps : List OutcomeWorkPackage) :
    ∃ s', ps.foldlM x.block s = .ok s' ∧ s'.journal = none := by
  induction ps generalizing s with
  | nil => exact ⟨s, rfl, h⟩
  | cons p ps ih =>
    obtain ⟨next, hblock, hnext⟩ := exists_block (x := x) h p
    obtain ⟨s', hfold, hs'⟩ := ih hnext
    exact ⟨s', Trace.foldlM_cons_eq_ok.mpr ⟨next, hblock, hfold⟩, hs'⟩

omit [Hash256] in
theorem journal_launchAll (ps : List OutcomeWorkPackage) (capacity : ℕ) (s : RunState) :
    (x.launchAll ps capacity s).1.journal = s.journal := by
  induction ps generalizing capacity s with
  | nil => rw [CohortRun.launchAll]
  | cons p ps ih =>
    cases capacity with
    | zero => rw [CohortRun.launchAll]
    | succ capacity =>
      rw [CohortRun.launchAll]
      by_cases hconflicts : s.Conflicts p
      · rw [if_pos hconflicts]
        exact ih _ s
      · rw [if_neg hconflicts]
        exact ih capacity (x.launch s p)

theorem exists_dispatch (h : s.journal = none) (ids : List String) :
    ∃ s', x.dispatch s ids = .ok s' ∧ s'.journal = none := by
  rw [CohortRun.dispatch, h]
  by_cases hids : ids = []
  · exact ⟨s, if_pos hids, h⟩
  · rw [if_neg hids]
    exact ⟨_, rfl, rfl⟩

theorem exists_complete (h : s.journal = none) (f : Future) :
    ∃ s', x.complete s f = .ok s' ∧ s'.journal = none := by
  rw [CohortRun.complete, h]
  exact ⟨_, rfl, rfl⟩

/-- Without a journal, nothing is raised but for a run that cannot go on. -/
theorem advance_unjournaled (h : m.state.journal = none) (signal : Signal) :
    (x.advance m signal).state.journal = none ∧
      ∀ e, (x.advance m signal).position = .raised e → m.position = .raised e ∨ e = noProgress := by
  have hsame : m.state.journal = none ∧
      ∀ e, m.position = .raised e → m.position = .raised e ∨ e = noProgress :=
    ⟨h, fun _ he ↦ .inl he⟩
  obtain ⟨s, position⟩ := m
  have hdrain : ∀ id, (x.drain ⟨s, position⟩ id).state.journal = none ∧
      ∀ e, (x.drain ⟨s, position⟩ id).position = .raised e → position = .raised e ∨ e = noProgress := by
    intro id
    rw [CohortRun.drain]
    cases hfind : s.active.find? (·.package.packageId = id) with
    | none => exact hsame
    | some f =>
      obtain ⟨s', hcomplete, hs'⟩ := exists_complete (x := x) h f
      simp only [hcomplete]
      exact ⟨hs', by rintro _ ⟨⟩⟩
  cases position with
  | finished | raised => exact hsame
  | scheduling =>
    cases signal with
    | completes => exact hsame
    | tick =>
      change (x.pass s).state.journal = none ∧
        ∀ e, (x.pass s).position = .raised e → _ ∨ e = noProgress
      rw [CohortRun.pass]
      by_cases hdone : s.pending = [] ∧ s.active = []
      · rw [if_pos hdone]
        exact ⟨h, by rintro _ ⟨⟩⟩
      rw [if_neg hdone]
      obtain ⟨s', hfold, hs'⟩ := exists_foldlM_block (x := x) h (s.blocked x.graph)
      rw [hfold]
      exact ⟨(journal_launchAll _ _ _).trans hs', by rintro _ ⟨⟩⟩
  | launched ids =>
    cases signal with
    | completes => exact hsame
    | tick =>
      change (x.await s ids).state.journal = none ∧
        ∀ e, (x.await s ids).position = .raised e → _ ∨ e = noProgress
      obtain ⟨s', hdispatch, hs'⟩ := exists_dispatch (x := x) h ids
      rw [CohortRun.await, hdispatch]
      refine ⟨hs', fun e he ↦ .inr ?_⟩
      by_cases hactive : s'.active = []
      · by_cases hpending : s'.pending = [] <;> simp [goOn, hactive, hpending] at he
        exact he.symm
      · simp [goOn, hactive] at he
  | waiting =>
    cases signal with
    | completes id => exact hdrain id
    | tick => exact hsame
  | draining =>
    cases signal with
    | completes id => exact hdrain id
    | tick => exact ⟨h, by rintro _ ⟨⟩⟩

theorem run_unjournaled (h : s.journal = none) (signals : List Signal) :
    (x.run s signals).state.journal = none ∧
      ∀ e, (x.run s signals).position = .raised e → e = noProgress := by
  induction signals using List.reverseRecOn with
  | nil => exact ⟨h, fun _ h ↦ (nomatch h)⟩
  | append_singleton signals signal ih =>
    obtain ⟨hjournal, hraises⟩ := ih
    obtain ⟨hjournal', hraised⟩ := advance_unjournaled (x := x) hjournal signal
    rw [run_append]
    refine ⟨hjournal', fun e he ↦ ?_⟩
    rcases hraised e he with he | he
    · exact hraises e he
    · exact he

/-- What an execution without a journal starts from. -/
theorem journal_start {resume : Bool} {b : Beginning} (h : x.start resume none = .ok b) :
    (b.state.journal = none ∧ b.state.maxParallelism = 0) ∧ b.convergence = none ∧
      b.verification = none ∧ b.completion = none := by
  simp only [CohortRun.start, bind_eq_ok, pure_eq_ok] at h
  obtain ⟨⟨retained, j⟩, hrecollect, s, hfold, rfl⟩ := h
  obtain ⟨rfl, rfl⟩ := Prod.mk.inj (Except.ok.inj hrecollect)
  refine ⟨?_, rfl, rfl, rfl⟩
  refine Trace.history_invariant (fun _ t ↦ t.journal = none ∧ t.maxParallelism = 0) ⟨rfl, rfl⟩ ?_
    hfold
  rintro _ u p t ⟨hjournal, hparallelism⟩ hgate
  rw [CohortRun.gate, hjournal] at hgate
  by_cases hblocked : (x.policy.checkpoint (x.effectClass p.packageId) .implementation).1 = .blocked
  · simp only [if_pos hblocked, CohortRun.recordPackageResult, ok_bind, pure_eq_ok] at hgate
    rw [hgate]
    exact ⟨rfl, hparallelism⟩
  · rw [if_neg hblocked] at hgate
    exact Except.ok.inj hgate ▸ ⟨hjournal, hparallelism⟩

/-! ## Progress -/

/-- A run that no signal changes any more is over. -/
theorem over_of_forall (h : m.Inv x) (hidle : ∀ signal, x.advance m signal = m) :
    m.position = .finished ∨ ∃ e, m.position = .raised e := by
  obtain ⟨s, position⟩ := m
  cases position with
  | finished => exact .inl rfl
  | raised e => exact .inr ⟨e, rfl⟩
  | scheduling =>
    have hlt := measure_pass (x := x) h.state
    rw [show x.pass s = ⟨s, .scheduling⟩ from hidle .tick] at hlt
    exact absurd hlt (lt_irrefl _)
  | draining =>
    have hposition : Position.scheduling = .draining := congrArg Machine.position (hidle .tick)
    cases hposition
  | launched ids =>
    have hposition : (x.await s ids).position = .launched ids :=
      congrArg Machine.position (hidle .tick)
    rw [CohortRun.await] at hposition
    cases hdispatch : x.dispatch s ids with
    | error e =>
      rw [hdispatch] at hposition
      cases hposition
    | ok s' =>
      rw [hdispatch] at hposition
      by_cases hactive : s'.active = []
      · by_cases hpending : s'.pending = [] <;> simp [goOn, hactive, hpending] at hposition
      · simp [goOn, hactive] at hposition
  | waiting =>
    obtain ⟨f, hf⟩ := List.exists_mem_of_ne_nil _ (h.waiting rfl)
    have hposition : (x.drain ⟨s, .waiting⟩ f.package.packageId).position = .waiting :=
      congrArg Machine.position (hidle (.completes f.package.packageId))
    have hfind : (s.active.find? (·.package.packageId = f.package.packageId)).isSome = true :=
      List.find?_isSome.mpr ⟨f, hf, by simp⟩
    obtain ⟨g, hg⟩ := Option.isSome_iff_exists.mp hfind
    rw [CohortRun.drain] at hposition
    simp only [hg] at hposition
    cases hcomplete : x.complete s g with
    | error e =>
      rw [hcomplete] at hposition
      cases hposition
    | ok s' =>
      rw [hcomplete] at hposition
      cases hposition

omit [Hash256] in
/-- When nothing is left, every package has a result. -/
theorem full_of_inv (h : s.Inv x) (hpending : s.pending = []) (hactive : s.active = []) :
    ∀ id ∈ x.graph.ids, s.results id ≠ none := by
  intro id hid
  rcases h.covered id hid with hmem | hmem | hresult
  · exact absurd (hpending ▸ hmem) List.not_mem_nil
  · rw [activeIds, hactive] at hmem
    exact absurd hmem List.not_mem_nil
  · exact hresult

omit [Hash256] in
/-- When every package has a result, the results come in the order of the graph. -/
theorem ordered_of_full (h : s.Inv x) (hfull : ∀ id ∈ x.graph.ids, s.results id ≠ none) :
    ∃ ordered, s.ordered x.graph = .ok ordered ∧ ordered.map (·.packageId) = x.graph.ids := by
  have hresult : ∀ p ∈ x.graph.packages, ∃ r, s.results p.packageId = some r := fun p hp ↦
    Option.ne_none_iff_exists'.mp (hfull _ (List.mem_map_of_mem hp))
  have hall : ∀ ps : List OutcomeWorkPackage, ps ⊆ x.graph.packages →
      ∃ ordered, ps.mapM (fun p ↦ required (s.results p.packageId) (.keyError p.packageId)) =
          .ok ordered ∧ ordered.map (·.packageId) = ps.map (·.packageId) := by
    intro ps
    induction ps with
    | nil => exact fun _ ↦ ⟨[], rfl, rfl⟩
    | cons p ps ih =>
      intro hsub
      obtain ⟨hp, hps⟩ := List.cons_subset.mp hsub
      obtain ⟨r, hr⟩ := hresult p hp
      obtain ⟨ordered, hordered, hids⟩ := ih hps
      refine ⟨r :: ordered, ?_, ?_⟩
      · rw [List.mapM_cons, hr, hordered]
        rfl
      · rw [List.map_cons, List.map_cons, hids, (h.resultsOk _ r hr).2]
  exact hall x.graph.packages (List.Subset.refl _)

/-! ## The end of a run -/

/-- The run after the first signals of an endless supply. -/
def CohortRun.runTo (x : CohortRun) (s : RunState) (signals : ℕ → Signal) (n : ℕ) : Machine :=
  x.run s ((List.range n).map signals)

theorem runTo_succ (signals : ℕ → Signal) (n : ℕ) :
    x.runTo s signals (n + 1) = x.advance (x.runTo s signals n) (signals n) := by
  rw [CohortRun.runTo, List.range_succ, List.map_append, run_append]
  rfl

omit [Hash256] in
theorem measure_le_of_idle (h : s.Inv x) (hidle : s.active = []) :
    Machine.measure ⟨s, .scheduling⟩ ≤ 4 * x.graph.packages.length + 3 := by
  have hsubset : s.pending ⊆ x.graph.ids := fun id hid ↦ (h.pendingOk id hid).1
  have hle := (List.subperm_of_subset h.pendingNodup hsubset).length_le
  rw [OutcomeGraphSpec.ids, List.length_map] at hle
  simp only [Machine.measure, hidle, List.length_nil, Position.rank]
  omega

/-- **A run ends, or waits for a signal that never comes**, and few signals are of any use to it. -/
theorem run_ends {resume : Bool} {journal : Option RunJournal} {b : Beginning}
    (h : x.start resume journal = .ok b) (signals : ℕ → Signal) :
    (∀ moments : Finset ℕ,
      (∀ n ∈ moments, x.runTo b.state signals (n + 1) ≠ x.runTo b.state signals n) →
        moments.card ≤ 4 * x.graph.packages.length + 3) ∧
      ∃ n, (∀ k ≥ n, x.runTo b.state signals k = x.runTo b.state signals n) ∧
        ((x.runTo b.state signals n).position = .finished ∨
          (∃ e, (x.runTo b.state signals n).position = .raised e) ∨
          ∃ signal, x.advance (x.runTo b.state signals n) signal ≠ x.runTo b.state signals n ∧
            ∀ k ≥ n, signals k ≠ signal) := by
  obtain ⟨hstart, -, hidle⟩ := inv_of_start h
  let measure (n : ℕ) : ℕ := (x.runTo b.state signals n).measure
  have hstep : ∀ n, x.runTo b.state signals (n + 1) = x.runTo b.state signals n ∨
      measure (n + 1) < measure n := by
    intro n
    have hadvance := measure_advance (hstart.run ((List.range n).map signals)).1 (signals n)
    rwa [← CohortRun.runTo, ← runTo_succ] at hadvance
  have hanti : Antitone measure := antitone_nat_of_succ_le fun n ↦
    (hstep n).elim (fun hsame ↦ (congrArg Machine.measure hsame).le) le_of_lt
  refine ⟨fun moments hmoments ↦ ?_, ?_⟩
  · have hinj : Set.InjOn measure moments := StrictAntiOn.injOn fun n hn k _ hlt ↦
      (hanti (Nat.succ_le_of_lt hlt)).trans_lt ((hstep n).resolve_left (hmoments n hn))
    have hle := Finset.card_le_card_of_injOn measure (t := Finset.Ioc 0 (measure 0)) (fun n hn ↦
      Finset.mem_coe.mpr (Finset.mem_Ioc.mpr
        ⟨(Nat.zero_le _).trans_lt ((hstep n).resolve_left (hmoments n hn)), hanti (Nat.zero_le n)⟩))
      hinj
    rw [Nat.card_Ioc] at hle
    exact hle.trans (measure_le_of_idle hstart.state hidle)
  · -- where the measure is least the run does not move any more
    obtain ⟨_, ⟨n, rfl⟩, hmin⟩ := Nat.lt_wfRel.wf.has_min (Set.range measure) ⟨_, 0, rfl⟩
    have hstay : ∀ k ≥ n, x.runTo b.state signals k = x.runTo b.state signals n := by
      intro k hk
      induction k, hk using Nat.le_induction with
      | base => rfl
      | succ k _ ih =>
        refine ((hstep k).resolve_right fun hlt ↦ ?_).trans ih
        exact hmin _ ⟨k + 1, rfl⟩ (hlt.trans_eq (congrArg Machine.measure ih))
    refine ⟨n, hstay, ?_⟩
    by_cases hall : ∀ signal, x.advance (x.runTo b.state signals n) signal = x.runTo b.state signals n
    · exact (over_of_forall (hstart.run _).1 hall).imp_right .inl
    · obtain ⟨signal, huseful⟩ := not_forall.mp hall
      refine .inr (.inr ⟨signal, huseful, fun k hk hsignal ↦ huseful ?_⟩)
      rw [← hsignal, ← hstay k hk, ← runTo_succ, hstay (k + 1) (Nat.le_succ_of_le hk), hstay k hk]

/-! ## Parallelism -/

omit [Hash256] in
theorem length_active_le (h : s.Inv x) : s.active.length ≤ x.graph.packages.length := by
  have hsubset : s.activeIds ⊆ x.graph.ids := by
    intro id hid
    obtain ⟨f, hf, rfl⟩ := List.mem_map.mp hid
    exact List.mem_map_of_mem (h.activeOk f hf).1
  have hle := (List.subperm_of_subset h.activeNodup hsubset).length_le
  rwa [activeIds, OutcomeGraphSpec.ids, List.length_map, List.length_map] at hle

/-- No more packages are counted at once than the graph has. -/
theorem maxParallelism_advance (h : m.Inv x) (signal : Signal) :
    (x.advance m signal).state.maxParallelism ≤
      max m.state.maxParallelism x.graph.packages.length := by
  obtain ⟨s, position⟩ := m
  have hsame : s.maxParallelism ≤ max s.maxParallelism x.graph.packages.length := le_max_left _ _
  have hdrain : ∀ id, (x.drain ⟨s, position⟩ id).state.maxParallelism ≤
      max s.maxParallelism x.graph.packages.length := by
    intro id
    rw [CohortRun.drain]
    cases hfind : s.active.find? (·.package.packageId = id) with
    | none => exact hsame
    | some f =>
      cases hcomplete : x.complete s f with
      | error e =>
        simp only [hcomplete]
        exact hsame
      | ok s' =>
        simp only [hcomplete]
        simp only [CohortRun.complete, bind_eq_ok, pure_eq_ok] at hcomplete
        obtain ⟨_, -, rfl⟩ := hcomplete
        exact hsame
  cases position with
  | finished | raised => exact hsame
  | scheduling =>
    cases signal with
    | completes => exact hsame
    | tick =>
      change (x.pass s).state.maxParallelism ≤ _
      rw [CohortRun.pass]
      by_cases hdone : s.pending = [] ∧ s.active = []
      · rw [if_pos hdone]
        exact hsame
      rw [if_neg hdone]
      cases hfold : (s.blocked x.graph).foldlM x.block s with
      | error e => exact hsame
      | ok s' =>
        obtain ⟨-, hblocked, -, hlaunches⟩ := halves_of_pass h.state hfold rfl
        exact (hlaunches.maxParallelism.trans hblocked.maxParallelism).le.trans hsame
  | launched ids =>
    cases signal with
    | completes => exact hsame
    | tick =>
      change (x.await s ids).state.maxParallelism ≤ _
      rw [CohortRun.await]
      cases hdispatch : x.dispatch s ids with
      | error e => exact hsame
      | ok s' =>
        rw [CohortRun.dispatch] at hdispatch
        by_cases hids : ids = []
        · rw [if_pos hids] at hdispatch
          obtain rfl := Except.ok.inj hdispatch
          exact hsame
        · simp only [if_neg hids, bind_eq_ok, pure_eq_ok] at hdispatch
          obtain ⟨_, -, rfl⟩ := hdispatch
          exact max_le_max_left _ (length_active_le h.state)
  | waiting =>
    cases signal with
    | completes id => exact hdrain id
    | tick => exact hsame
  | draining =>
    cases signal with
    | completes id => exact hdrain id
    | tick => exact hsame

theorem maxParallelism_run (h : Machine.Inv x ⟨s, .scheduling⟩) (signals : List Signal) :
    (x.run s signals).state.maxParallelism ≤ max s.maxParallelism x.graph.packages.length := by
  induction signals using List.reverseRecOn with
  | nil => exact le_max_left _ _
  | append_singleton signals signal ih =>
    rw [run_append]
    exact (maxParallelism_advance (h.run signals).1 signal).trans (max_le ih (le_max_right _ _))

/-! ## Graphs that are safe in every state -/

theorem Machine.Inv.passesFrom (h : Machine.Inv x ⟨s, .scheduling⟩) {P : RunState → Prop}
    (hP : ∀ t : RunState, t.Inv x → P t) (signals : List Signal) : PassesFrom x P s signals :=
  fun n _ ↦ hP _ (h.run (signals.take n)).1.state

omit [Hash256] in
theorem unstuck_of_independent (h : s.Inv x)
    (hindependent : ∀ p ∈ x.graph.packages, p.dependencies = []) : s.Unstuck x := by
  intro _ hready id hid
  obtain ⟨p, hp, rfl⟩ := OutcomeGraphSpec.exists_package (h.pendingOk id hid).1
  have hmem : p ∈ s.ready x.graph := mem_ready.mpr ⟨⟨hp, hid⟩, fun d hd ↦ by
    rw [hindependent p hp] at hd
    exact absurd hd List.not_mem_nil⟩
  rw [hready] at hmem
  exact absurd hmem List.not_mem_nil

omit [Hash256] in
theorem flat_of_separate (h : s.Inv x) (hseparate : ∀ p ∈ x.graph.packages,
    ∀ q ∈ x.graph.packages, p.packageId ≠ q.packageId → Apart p q → Separate p q) : s.Flat x := by
  have hpackage : ∀ p ∈ s.active.map (·.package) ++ s.ready x.graph, p ∈ x.graph.packages := by
    intro p hp
    rcases List.mem_append.mp hp with hp | hp
    · obtain ⟨f, hf, rfl⟩ := List.mem_map.mp hp
      exact (h.activeOk f hf).1
    · exact (mem_ready.mp hp).1.1
  exact fun p hp q hq ↦ hseparate p (hpackage p hp) q (hpackage q hq)

/-! ## Safe runs -/

/-- What is asked of a run. -/
structure Safe (x : CohortRun) (s : RunState) (signals : List Signal) : Prop where
  once : (x.run s signals).state.executed.Nodup
  dependencies : ∀ id ∈ (x.run s signals).state.executed,
    ∀ d ∈ x.graph.dependenciesOf id, (x.run s signals).state.results.succeeded d = true
  gates : ∀ id ∈ (x.run s signals).state.executed, x.gated id = false
  capacity : ((x.run s signals).state.active.length : ℤ) ≤
    min x.graph.maximumConcurrent x.policy.maxParallelPackages
  locks : (x.run s signals).state.active.Pairwise fun f g ↦
    ∀ lock ∈ f.package.semanticLocks, lock ∉ g.package.semanticLocks
  paths : (x.run s signals).state.active.Pairwise fun f g ↦ Separate f.package g.package
  kept : ∀ n, (x.run s (signals.take n)).state.results.Extends (x.run s signals).state.results
  progress : (x.run s signals).position ≠ .raised noProgress
  ends : (∀ signal, x.advance (x.run s signals) signal = x.run s signals) →
    (x.run s signals).position = .finished
  results : (x.run s signals).position = .finished →
    ∃ ordered, (x.run s signals).state.ordered x.graph = .ok ordered ∧
      ordered.map (·.packageId) = x.graph.ids ∧ x.graph.ids.Nodup

/-- A journal, if there is one, can keep the run: its events have numbers of eight digits, and the
outputs of the packages that run have a canonical text. -/
def Recordable (x : CohortRun) (s : RunState) (journal : Option RunJournal)
    (signals : List Signal) : Prop :=
  ∀ j ∈ journal, j.files.length + 2 * x.graph.packages.length + 4 < 10 ^ 8 ∧
    ∀ n, Answered (x.run s (signals.take n)).state

theorem not_raised_of_recordable {resume : Bool} {journal : Option RunJournal} {b : Beginning}
    (h : x.start resume journal = .ok b) (hopen : b.completion = none) {signals : List Signal}
    (hrecordable : Recordable x b.state journal signals) {e : RunError}
    (he : (x.run b.state signals).position = .raised e) : e = noProgress := by
  cases journal with
  | none => exact (run_unjournaled (journal_start h).1.1 signals).2 e he
  | some j =>
    obtain ⟨hroom, hanswered⟩ := hrecordable j rfl
    obtain ⟨journal', records, r, hrecorded⟩ := recorded_of_start h hopen hroom
    rcases (hrecorded.run (inv_of_start h).1 signals).2 e he with he | ⟨n, hn⟩
    · exact he
    · exact absurd (hanswered n) hn

end Runs

/-! ## A chain and a nest -/

theorem exists_prepare [Hash256] (r : CohortRequest)
    (hcompile : compileOutcomeGraph r.graph = .ok r.graph) (hid : isRequired r.runId = true)
    (hcontext : (PyValue.reread r.context).toOption.isSome = true)
    (hgraph : r.graph.toPyValue.plain.toOption.isSome = true)
    (hpolicy : r.policy.toPyValue.plain.toOption.isSome = true)
    (hknown : ∀ key ∈ r.effectClasses.map Prod.fst, key ∈ r.graph.ids) :
    ∃ kickoff, r.prepare = .ok (r.toRun (compiled_of_compile hcompile) kickoff) := by
  have hok : ∀ {α : Type} {y : Except Exc α}, y.toOption.isSome = true → ∃ a, y = .ok a := by
    intro α y hy
    cases y with
    | error e => exact nomatch hy
    | ok a => exact ⟨a, rfl⟩
  obtain ⟨context, hcontext⟩ := hok hcontext
  obtain ⟨g, hgraph⟩ := hok hgraph
  obtain ⟨p, hpolicy⟩ := hok hpolicy
  let kickoff : CohortKickoff :=
    ⟨r.runId, jsonDigest g, jsonDigest p, jsonDigest context.toJson, context⟩
  have hkickoff : r.makeKickoff r.graph = .ok kickoff :=
    CohortRequest.makeKickoff_eq_ok.mpr ⟨hid, hcontext, by rw [canonicalDigest, hgraph]; rfl,
      by rw [canonicalDigest, hpolicy]; rfl, rfl, rfl⟩
  exact ⟨kickoff, CohortRequest.prepare_eq_ok.mpr ⟨hcompile, kickoff, hkickoff, hknown, rfl⟩⟩

/-- A package that only has dependencies and paths. -/
def writer (id : String) (dependencies allowedPaths : List String) : PackageFields where
  packageId := id
  outcomeIds := ["outcome"]
  dependencies := dependencies
  allowedPaths := allowedPaths
  semanticLocks := []
  acceptanceIds := []
  riskTier := "low"
  requiredRoles := []
  effort := 1
  rollback := ""
  state := "planned"

def graphOf (packages : List OutcomeWorkPackage) : OutcomeGraphSpec where
  packages := packages
  baseSnapshot := "base"
  contractVersion := 1
  maximumConcurrent := 2
  courtReceipt := "receipt"

/-- The callbacks all return something untyped. -/
def silent : Callbacks where
  executePackage _ _ _ := .untyped
  converge _ _ := .untyped
  verify _ _ _ := .untyped

def requestOf (graph : OutcomeGraphSpec) (gated : List String) (hgated : gated.Nodup)
    (callbacks : Callbacks) : CohortRequest where
  graph := graph
  policy := ⟨2, by decide⟩
  runId := "run"
  context := []
  effectClasses := gated.map (·, .secretAccess)
  classified := by simpa [Function.comp_def] using hgated
  callbacks := callbacks
  clock _ := "2026-01-01T00:00:00+00:00"
  dated _ := by decide

/-- The second package depends on the first, and the third on the second. -/
def chainGraph : OutcomeGraphSpec :=
  graphOf [⟨writer "a" [] ["a"], by decide⟩, ⟨writer "b" ["a"] ["b"], by decide⟩,
    ⟨writer "c" ["b"] ["c"], by decide⟩]

/-- One package may write a directory, the other a file in it. -/
def nestGraph : OutcomeGraphSpec :=
  graphOf [⟨writer "a" [] ["src"], by decide⟩, ⟨writer "b" [] ["src/b.py"], by decide⟩]

theorem compile_chainGraph : compileOutcomeGraph chainGraph = .ok chainGraph := by decide

theorem compile_nestGraph : compileOutcomeGraph nestGraph = .ok nestGraph := by decide

/-- Two packages that have nothing to do with each other. -/
def pairGraph : OutcomeGraphSpec :=
  graphOf [⟨writer "a" [] ["a"], by decide⟩, ⟨writer "b" [] ["b"], by decide⟩]

theorem compile_pairGraph : compileOutcomeGraph pairGraph = .ok pairGraph := by decide

theorem run_ends_pair : ∃ x b, (requestOf pairGraph [] (by decide) silent).prepare = .ok x ∧
    x.start true none = .ok b ∧ ∀ signals, ∃ n, ∀ k ≥ n,
      x.runTo b.state signals k = x.runTo b.state signals n := by
  obtain ⟨kickoff, hprepare⟩ := exists_prepare (requestOf pairGraph [] (by decide) silent)
    compile_pairGraph (by decide) (by decide) (by decide)
    (by decide) (by decide)
  obtain ⟨b, hstart⟩ : ∃ b, ((requestOf pairGraph [] (by decide) silent).toRun
    (compiled_of_compile compile_pairGraph) kickoff).start true none = .ok b := ⟨_, rfl⟩
  exact ⟨_, b, hprepare, hstart, fun signals ↦ (run_ends hstart signals).2.imp fun _ h ↦ h.1⟩

end HiveMind.Cohort
