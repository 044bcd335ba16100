import HiveMind.Cohort.Execute
import HiveMind.Workers.ScopeLocks

/-!
# The safety of a cohort

What holds of a run at every signal is an invariant of its variables: each package is pending,
running or has a result, and only one of these; what runs has succeeded dependencies and excludes
each other; the sets of paths and locks in use are those of the running packages. A signal keeps it,
whatever the packages answer and in whatever order they come to an end.

Two things need more than the invariant. Paths are compared as texts, so a directory and a file in
it can be written at a time. And a pass that has nothing to run may leave packages behind that only
depend on packages it has just blocked, which is taken for a run that cannot go on.

* **`Machine.Inv.run`**: a run keeps the invariant.
* **`Machine.Inv.steady_run`**, **`separated_run`**: what else holds if no pass starts in one of these
  situations.
* **`measure_advance`**: a signal that changes something brings a run nearer to its end.
-/

open Raise

namespace HiveMind.Cohort

/-! ## Pending packages -/

section Pending

variable {graph : OutcomeGraphSpec} {s : RunState} {p : OutcomeWorkPackage}

theorem packageId_ne {ps : List OutcomeWorkPackage} (h : p.packageId ∉ ps.map (·.packageId))
    {q : OutcomeWorkPackage} (hq : q ∈ ps) : q.packageId ≠ p.packageId := by
  intro heq
  have hmem := List.mem_map_of_mem (f := (·.packageId)) hq
  rw [heq] at hmem
  exact h hmem

theorem package?_eq_some_iff (hids : graph.ids.Nodup) {id : String} :
    graph.package? id = some p ↔ p ∈ graph.packages ∧ p.packageId = id := by
  constructor
  · intro h
    exact ⟨List.mem_of_find?_eq_some h, eq_of_beq (List.find?_some h :)⟩
  · rintro ⟨hp, rfl⟩
    exact graph.package?_eq_some hids hp

theorem mem_pendingPackages (hids : graph.ids.Nodup) :
    p ∈ s.pendingPackages graph ↔ p ∈ graph.packages ∧ p.packageId ∈ s.pending := by
  simp only [RunState.pendingPackages, List.mem_filterMap, sorted, List.mem_insertionSort,
    package?_eq_some_iff hids]
  constructor
  · rintro ⟨id, hid, hp, rfl⟩
    exact ⟨hp, hid⟩
  · rintro ⟨hp, hid⟩
    exact ⟨p.packageId, hid, hp, rfl⟩

theorem nodup_pendingPackages (hids : graph.ids.Nodup) (h : s.pending.Nodup) :
    ((s.pendingPackages graph).map (·.packageId)).Nodup := by
  have hsorted : (sorted s.pending).Nodup := (List.perm_insertionSort _ _).nodup_iff.mpr h
  have hmap : ∀ ids : List String,
      ((ids.filterMap graph.package?).map (·.packageId)).Sublist ids := by
    intro ids
    induction ids with
    | nil => exact .slnil
    | cons id ids ih =>
      cases hpackage : graph.package? id with
      | none =>
        rw [List.filterMap_cons_none hpackage]
        exact ih.cons id
      | some p =>
        rw [List.filterMap_cons_some hpackage, List.map_cons,
          ((package?_eq_some_iff hids).mp hpackage).2]
        exact ih.cons_cons id
  exact (hmap _).nodup hsorted

end Pending

/-! ## Appends -/

def RunError.isJournal : RunError → Bool
  | .journal _ => true
  | _ => false

section Appends

variable [Hash256] {runId recordedAt : String} {journal : RunJournal} {entry : Entry}

omit [Hash256] in
theorem fails_required {α : Type} {P : RunError → Prop} {value : Option α} {e : RunError} (h : P e) :
    Fails P (required value e) := by
  cases value with
  | none => exact fails_error h
  | some a => exact fails_ok a

omit [Hash256] in
theorem fails_validateTransition (records : List CohortJournalEvent) (kind : CohortJournalEventKind)
    (payload : Json.Dict) :
    Fails (·.isJournal = true) (validateTransition records kind payload) := by
  have hchecks : ∀ message : String,
      Fails (fun e ↦ e.isJournal = true) (throw (.journal message) : Except RunError Unit) :=
    fun _ ↦ fails_error rfl
  rw [validateTransition]
  split
  · exact fails_guard rfl (fails_ok _)
  · refine fails_guard rfl (fails_guard rfl (fails_guard rfl (fails_guard rfl
      (fails_guard rfl (fails_guard rfl ?_)))))
    split
    · split
      · exact (hchecks _).bind fun _ ↦ fails_ok _
      · exact fails_guard rfl (fails_guard rfl (fails_ok _))
    · exact fails_ok _

theorem fails_readEvent (records : List CohortJournalEvent) (file : String × String) :
    Fails (·.isJournal = true) (readEvent runId records file) := by
  have hrequired : ∀ {α : Type} (value : Option α) (message : String),
      Fails (fun e ↦ e.isJournal = true) (required value (.journal message)) :=
    fun _ _ ↦ fails_required rfl
  refine (hrequired _ _).bind fun _ ↦ fails_guard rfl ?_
  refine (hrequired _ _).bind fun _ ↦ (hrequired _ _).bind fun _ ↦ fails_guard rfl ?_
  exact (hrequired _ _).bind fun _ ↦ (fails_validateTransition _ _ _).bind fun _ ↦ fails_ok _

theorem fails_read : Fails (·.isJournal = true) (journal.read runId) :=
  (fails_foldlM fails_readEvent _ _).bind fun _ ↦ fails_guard rfl (fails_ok _)

theorem fails_append : Fails (·.isJournal = true) (journal.append runId recordedAt entry) := by
  have hpayload : Fails (fun e ↦ e.isJournal = true)
      ((PyValue.reread entry.payload).mapError fun _ ↦
        RunError.journal "journal payload must be canonical JSON") := by
    cases PyValue.reread entry.payload with
    | error e => exact fails_error rfl
    | ok payload => exact fails_ok payload
  exact hpayload.bind fun _ ↦ fails_read.bind fun _ ↦
    (fails_validateTransition _ _ _).bind fun _ ↦ fails_guard rfl (fails_ok _)

variable {x : CohortRun}

theorem fails_record (journal : Option RunJournal) (entry : Entry) :
    Fails (·.isJournal = true) (x.record journal entry) := by
  cases journal with
  | none => exact fails_ok none
  | some j =>
    intro e he
    rw [CohortRun.record] at he
    cases happend : j.append x.kickoff.runId (x.clock j.files.length) entry with
    | error e' =>
      rw [happend] at he
      obtain rfl := Except.error.inj he
      exact fails_append e' happend
    | ok j' =>
      rw [happend] at he
      exact nomatch he

theorem fails_recordPackageResult (journal : Option RunJournal) (result : PackageRunResult)
    (source : String) :
    Fails (· ≠ noProgress) (x.recordPackageResult journal result source) := by
  cases journal with
  | none => exact fails_ok _
  | some j =>
    have houtput : Fails (· ≠ noProgress) (canonicalOutput result.output) := by
      intro e he
      by_cases hencodable : Encodable result.output
      · rw [canonicalOutput_eq_ok.mpr ⟨hencodable, rfl⟩] at he
        exact nomatch he
      · rw [canonicalOutput_eq_error hencodable] at he
        obtain rfl := Except.error.inj he
        decide
    refine houtput.bind fun output ↦ Fails.bind ?_ fun _ ↦ fails_ok _
    rintro e he rfl
    exact absurd (fails_record _ _ _ he) (by decide)

/-- What is recorded is the result itself, up to its output. -/
theorem recordPackageResult_eq_ok {journal journal' : Option RunJournal}
    {result result' : PackageRunResult} {source : String}
    (h : x.recordPackageResult journal result source = .ok (result', journal')) :
    result'.packageId = result.packageId ∧ result'.state = result.state := by
  cases journal with
  | none =>
    obtain ⟨rfl, -⟩ := Prod.mk.inj (Except.ok.inj h)
    exact ⟨rfl, rfl⟩
  | some j =>
    simp only [CohortRun.recordPackageResult, bind_eq_ok, pure_eq_ok] at h
    obtain ⟨output, -, j', -, h⟩ := h
    obtain ⟨rfl, -⟩ := Prod.mk.inj h
    exact ⟨rfl, rfl⟩

end Appends

/-! ## The invariant -/

/-- A hard gate stands before the package. -/
def CohortRun.gated (x : CohortRun) (id : String) : Bool := (x.effectClass id).hardGate

/-- The packages have no path and no lock in common. -/
def Apart (p q : OutcomeWorkPackage) : Prop :=
  (∀ path ∈ p.allowedPaths, path ∉ q.allowedPaths) ∧
    ∀ lock ∈ p.semanticLocks, lock ∉ q.semanticLocks

theorem Apart.symm {p q : OutcomeWorkPackage} (h : Apart p q) : Apart q p :=
  ⟨fun path hq hp ↦ h.1 path hp hq, fun lock hq hp ↦ h.2 lock hp hq⟩

/-- No path of the one package is equal to, contains or is contained in one of the other. -/
def Separate (p q : OutcomeWorkPackage) : Prop :=
  ∀ path ∈ p.allowedPaths, ∀ path' ∈ q.allowedPaths, Workers.pathsOverlap path path' = false

structure RunState.Inv (x : CohortRun) (s : RunState) : Prop where
  pendingNodup : s.pending.Nodup
  activeNodup : s.activeIds.Nodup
  executedNodup : s.executed.Nodup
  pendingOk : ∀ id ∈ s.pending, id ∈ x.graph.ids ∧ s.results id = none ∧ id ∉ s.activeIds ∧
    id ∉ s.executed ∧ x.gated id = false
  activeOk : ∀ f ∈ s.active, f.package ∈ x.graph.packages ∧ s.results f.package.packageId = none
  resultsOk : ∀ id r, s.results id = some r → id ∈ x.graph.ids ∧ r.packageId = id
  executedOk : ∀ id ∈ s.executed, x.gated id = false ∧
    ∀ d ∈ x.graph.dependenciesOf id, s.results.succeeded d = true
  covered : ∀ id ∈ x.graph.ids, id ∈ s.pending ∨ id ∈ s.activeIds ∨ s.results id ≠ none
  paths : ∀ path, path ∈ s.activePaths ↔ ∃ f ∈ s.active, path ∈ f.package.allowedPaths
  locks : ∀ lock, lock ∈ s.activeLocks ↔ ∃ f ∈ s.active, lock ∈ f.package.semanticLocks
  apart : s.active.Pairwise fun f g ↦ Apart f.package g.package
  capacity : s.active.length ≤ x.maximumWorkers

/-- Every result stays as it is. -/
def Results.Extends (results results' : Results) : Prop :=
  ∀ id r, results id = some r → results' id = some r

theorem Results.Extends.succeeded {results results' : Results} (h : results.Extends results')
    {id : String} (hid : results.succeeded id = true) : results'.succeeded id = true := by
  rw [Results.succeeded] at hid ⊢
  cases hresult : results id with
  | none =>
    rw [hresult] at hid
    exact nomatch hid
  | some r =>
    rw [h id r hresult]
    rw [hresult] at hid
    exact hid

theorem Results.Extends.failed {results results' : Results} (h : results.Extends results')
    {id : String} (hid : results.failed id = true) : results'.failed id = true := by
  rw [Results.failed] at hid ⊢
  cases hresult : results id with
  | none =>
    rw [hresult] at hid
    exact nomatch hid
  | some r =>
    rw [h id r hresult]
    rw [hresult] at hid
    exact hid

theorem Results.extends_update {results : Results} {id : String} (h : results id = none)
    (r : PackageRunResult) : results.Extends (Function.update results id (some r)) := by
  intro id' r' hid'
  have hne : id' ≠ id := by
    rintro rfl
    rw [h] at hid'
    exact nomatch hid'
  rw [Function.update_of_ne hne, hid']

namespace RunState

variable {x : CohortRun} {s s' s'' : RunState}

/-- What a run does not go back on: results stay, and what is executed was pending. -/
structure Onward (s s' : RunState) : Prop where
  extends_ : s.results.Extends s'.results
  pending : ∀ id ∈ s'.pending, id ∈ s.pending
  executed : ∀ id ∈ s'.executed, id ∈ s.executed ∨ id ∈ s.pending

theorem Onward.refl (s : RunState) : s.Onward s :=
  ⟨fun _ _ hr ↦ hr, fun _ hid ↦ hid, fun _ hid ↦ .inl hid⟩

theorem Onward.trans (h : s.Onward s') (h' : s'.Onward s'') : s.Onward s'' := by
  refine ⟨fun id r hr ↦ h'.extends_ id r (h.extends_ id r hr),
    fun id hid ↦ h.pending id (h'.pending id hid), fun id hid ↦ ?_⟩
  rcases h'.executed id hid with hid | hid
  · exact h.executed id hid
  · exact .inr (h.pending id hid)

/-- A pending package is given a result. -/
theorem Inv.resolve (h : s.Inv x) {id : String} (hid : id ∈ s.pending) {r : PackageRunResult}
    (hr : r.packageId = id) (journal : Option RunJournal) :
    Inv x { s with
      results := Function.update s.results id (some r)
      pending := s.pending.erase id
      journal := journal } := by
  have hextends := Results.extends_update (h.pendingOk id hid).2.1 r
  have hother : ∀ id' ≠ id, Function.update s.results id (some r) id' = s.results id' :=
    fun _ hne ↦ Function.update_of_ne hne _ _
  have hself : Function.update s.results id (some r) id = some r := Function.update_self ..
  refine ⟨h.pendingNodup.erase id, h.activeNodup, h.executedNodup, ?_, ?_, ?_, ?_, ?_, h.paths,
    h.locks, h.apart, h.capacity⟩
  · intro id' hid'
    obtain ⟨hne, hid'⟩ := h.pendingNodup.mem_erase_iff.mp hid'
    obtain ⟨hknown, hnone, hrest⟩ := h.pendingOk id' hid'
    exact ⟨hknown, (hother id' hne).trans hnone, hrest⟩
  · intro f hf
    obtain ⟨hpackage, hnone⟩ := h.activeOk f hf
    have hne : f.package.packageId ≠ id := by
      rintro rfl
      exact (h.pendingOk _ hid).2.2.1 (List.mem_map_of_mem hf)
    exact ⟨hpackage, (hother _ hne).trans hnone⟩
  · intro id' r' hid'
    by_cases hne : id' = id
    · subst hne
      obtain rfl := Option.some.inj (hself.symm.trans hid')
      exact ⟨(h.pendingOk id' hid).1, hr⟩
    · exact h.resultsOk id' r' ((hother id' hne).symm.trans hid')
  · intro id' hid'
    obtain ⟨hgate, hdeps⟩ := h.executedOk id' hid'
    exact ⟨hgate, fun d hd ↦ hextends.succeeded (hdeps d hd)⟩
  · intro id' hid'
    by_cases hne : id' = id
    · subst hne
      exact .inr (.inr (ne_of_eq_of_ne hself (Option.some_ne_none r)))
    · rcases h.covered id' hid' with hpend | hactive | hresult
      · exact .inl (h.pendingNodup.mem_erase_iff.mpr ⟨hne, hpend⟩)
      · exact .inr (.inl hactive)
      · exact .inr (.inr (ne_of_eq_of_ne (hother id' hne) hresult))

/-- What the blocking of the packages with the given names changes. -/
structure Blocked (s s' : RunState) (ids : List String) : Prop where
  pending : ∀ id, id ∈ s'.pending ↔ id ∈ s.pending ∧ id ∉ ids
  kept : ∀ id, id ∉ ids → s'.results id = s.results id
  refused : ∀ id ∈ ids, s'.results.succeeded id = false
  extends_ : s.results.Extends s'.results
  active : s'.active = s.active
  executed : s'.executed = s.executed
  batches : s'.batches = s.batches
  maxParallelism : s'.maxParallelism = s.maxParallelism

theorem Blocked.refl : Blocked s s [] where
  pending := fun _ ↦ ⟨fun h ↦ ⟨h, List.not_mem_nil⟩, And.left⟩
  kept := fun _ _ ↦ rfl
  refused := fun _ h ↦ absurd h List.not_mem_nil
  extends_ := fun _ _ h ↦ h
  active := rfl
  executed := rfl
  batches := rfl
  maxParallelism := rfl

variable [Hash256]

/-- A package with a dependency that has failed is blocked. -/
theorem Inv.block (h : s.Inv x) {p : OutcomeWorkPackage} (hp : p.packageId ∈ s.pending)
    (hfailed : p.dependencies.any s.results.failed = true) (hblock : x.block s p = .ok s') :
    s'.Inv x ∧ Blocked s s' [p.packageId] := by
  obtain ⟨d, hd⟩ := Option.isSome_iff_exists.mp
    ((List.find?_isSome (p := s.results.failed)).mpr (List.any_eq_true.mp hfailed))
  simp only [CohortRun.block, hd, bind_eq_ok, pure_eq_ok] at hblock
  obtain ⟨⟨r, journal⟩, hrecord, rfl⟩ := hblock
  obtain ⟨hid, hstate⟩ := recordPackageResult_eq_ok hrecord
  refine ⟨h.resolve hp hid journal, ?_, ?_, ?_, ?_, rfl, rfl, rfl, rfl⟩
  · intro id
    rw [List.mem_singleton, and_comm]
    exact h.pendingNodup.mem_erase_iff
  · intro id hne
    exact Function.update_of_ne (fun heq ↦ hne (List.mem_singleton.mpr heq)) _ _
  · intro id hid
    obtain rfl := List.mem_singleton.mp hid
    simp [Results.succeeded, hstate, OutcomeWorkPackage.refused]
  · exact Results.extends_update (h.pendingOk _ hp).2.1 r

omit [Hash256] in
theorem Blocked.trans {ids ids' : List String} (h : Blocked s s' ids)
    (h' : Blocked s' s'' ids') (hids : ∀ id ∈ ids, id ∉ ids') : Blocked s s'' (ids ++ ids') where
  pending id := by
    rw [h'.pending, h.pending, List.mem_append, not_or, and_assoc]
  kept id hid := by
    obtain ⟨hid, hid'⟩ := not_or.mp (fun hmem ↦ hid (List.mem_append.mpr hmem))
    rw [h'.kept id hid', h.kept id hid]
  refused id hid := by
    by_cases hid' : id ∈ ids'
    · exact h'.refused id hid'
    · have hmem : id ∈ ids := (List.mem_append.mp hid).resolve_right hid'
      rw [Results.succeeded, h'.kept id (hids id hmem)]
      exact h.refused id hmem
  extends_ := fun id r hid ↦ h'.extends_ id r (h.extends_ id r hid)
  active := h'.active.trans h.active
  executed := h'.executed.trans h.executed
  batches := h'.batches.trans h.batches
  maxParallelism := h'.maxParallelism.trans h.maxParallelism

theorem Inv.foldlM_block (h : s.Inv x) {ps : List OutcomeWorkPackage}
    (hps : ∀ p ∈ ps, p.packageId ∈ s.pending ∧ p.dependencies.any s.results.failed = true)
    (hnodup : (ps.map (·.packageId)).Nodup) (hfold : ps.foldlM x.block s = .ok s') :
    s'.Inv x ∧ Blocked s s' (ps.map (·.packageId)) := by
  induction ps generalizing s with
  | nil =>
    obtain rfl := Trace.foldlM_nil_eq_ok.mp hfold
    exact ⟨h, .refl⟩
  | cons p ps ih =>
    obtain ⟨next, hblock, hrest⟩ := Trace.foldlM_cons_eq_ok.mp hfold
    obtain ⟨hp, hps⟩ := List.forall_mem_cons.mp hps
    obtain ⟨hnotMem, hnodup⟩ := List.nodup_cons.mp hnodup
    obtain ⟨hnext, hblocked⟩ := h.block hp.1 hp.2 hblock
    have hrests : ∀ q ∈ ps, q.packageId ∈ next.pending ∧
        q.dependencies.any next.results.failed = true := by
      intro q hq
      obtain ⟨hpending, hfailed⟩ := hps q hq
      have hne : q.packageId ∉ [p.packageId] := fun hmem ↦
        packageId_ne hnotMem hq (List.mem_singleton.mp hmem)
      obtain ⟨d, hd, hdfailed⟩ := List.any_eq_true.mp hfailed
      exact ⟨(hblocked.pending _).mpr ⟨hpending, hne⟩,
        List.any_eq_true.mpr ⟨d, hd, hblocked.extends_.failed hdfailed⟩⟩
    obtain ⟨hafter, hblocked'⟩ := ih hnext hrests hnodup hrest
    refine ⟨hafter, ?_⟩
    exact hblocked.trans hblocked' fun id hid ↦ List.mem_singleton.mp hid ▸ hnotMem

omit [Hash256] in
/-- A ready package is launched. -/
theorem Inv.launch (h : s.Inv x) {p : OutcomeWorkPackage} (hp : p ∈ x.graph.packages)
    (hpending : p.packageId ∈ s.pending)
    (hready : ∀ d ∈ p.dependencies, s.results.succeeded d = true) (hconflicts : ¬s.Conflicts p)
    (hroom : s.active.length < x.maximumWorkers) : (x.launch s p).Inv x := by
  obtain ⟨hknown, hnone, hidle, hfresh, hgate⟩ := h.pendingOk _ hpending
  have hids : (x.launch s p).activeIds = s.activeIds ++ [p.packageId] := List.map_append ..
  have herase : ∀ id, id ∈ s.pending.erase p.packageId ↔ id ≠ p.packageId ∧ id ∈ s.pending :=
    fun id ↦ h.pendingNodup.mem_erase_iff
  have hconcat : ∀ names : List String, p.packageId ∉ names → names.Nodup →
      (names ++ [p.packageId]).Nodup := by
    intro names hnotMem hnodup
    rw [← List.concat_eq_append]
    exact hnodup.concat hnotMem
  refine ⟨h.pendingNodup.erase _, ?_, ?_, ?_, ?_, h.resultsOk, ?_, ?_, ?_, ?_, ?_, ?_⟩
  · rw [hids]
    exact hconcat _ hidle h.activeNodup
  · exact hconcat _ hfresh h.executedNodup
  · intro id hid
    obtain ⟨hne, hid⟩ := (herase id).mp hid
    obtain ⟨hknown, hnone, hidle, hfresh, hgate⟩ := h.pendingOk id hid
    refine ⟨hknown, hnone, ?_, ?_, hgate⟩
    · rw [hids, List.mem_append, List.mem_singleton, not_or]
      exact ⟨hidle, hne⟩
    · exact fun hmem ↦ (List.mem_append.mp hmem).elim hfresh fun h ↦ hne (List.mem_singleton.mp h)
  · intro f hf
    rcases List.mem_append.mp hf with hf | hf
    · exact h.activeOk f hf
    · obtain rfl := List.mem_singleton.mp hf
      exact ⟨hp, hnone⟩
  · intro id hid
    rcases List.mem_append.mp hid with hid | hid
    · exact h.executedOk id hid
    · obtain rfl := List.mem_singleton.mp hid
      refine ⟨hgate, fun d hd ↦ hready d ?_⟩
      rwa [x.graph.dependenciesOf_eq x.compiled.nodup hp] at hd
  · intro id hid
    by_cases hne : id = p.packageId
    · rw [hids]
      exact .inr (.inl (List.mem_append.mpr (.inr (List.mem_singleton.mpr hne))))
    · rcases h.covered id hid with hpend | hactive | hresult
      · exact .inl ((herase id).mpr ⟨hne, hpend⟩)
      · rw [hids]
        exact .inr (.inl (List.mem_append.mpr (.inl hactive)))
      · exact .inr (.inr hresult)
  · intro path
    simp only [CohortRun.launch, List.mem_append, h.paths, List.mem_singleton, or_and_right,
      exists_or, exists_eq_left]
  · intro lock
    simp only [CohortRun.launch, List.mem_append, h.locks, List.mem_singleton, or_and_right,
      exists_or, exists_eq_left]
  · -- a running package that is not apart would be a conflict
    refine List.pairwise_append.mpr ⟨h.apart, List.pairwise_singleton _ _, fun f hf g hg ↦ ?_⟩
    obtain rfl := List.mem_singleton.mp hg
    refine ⟨fun path hpath hshared ↦ hconflicts (.inl ⟨path, ?_, hshared⟩), fun lock hlock hshared ↦
      hconflicts (.inr ⟨lock, ?_, hshared⟩)⟩
    · exact (h.paths path).mpr ⟨f, hf, hpath⟩
    · exact (h.locks lock).mpr ⟨f, hf, hlock⟩
  · rw [CohortRun.launch, List.length_append, List.length_singleton]
    exact hroom

/-- The packages that a loop over ready packages may meet. -/
structure Launches (x : CohortRun) (s s' : RunState) (ps : List OutcomeWorkPackage)
    (launched : List String) : Prop where
  pending : ∀ id ∈ s'.pending, id ∈ s.pending
  wasPending : ∀ id ∈ launched, id ∈ s.pending
  results : s'.results = s.results
  active : ∀ f ∈ s'.active, f ∈ s.active ∨ f.package ∈ ps
  grows : s.active <+: s'.active
  ids : s'.activeIds = s.activeIds ++ launched
  total : s'.pending.length + s'.active.length = s.pending.length + s.active.length
  batches : s'.batches = s.batches
  maxParallelism : s'.maxParallelism = s.maxParallelism
  executed : s'.executed = s.executed ++ launched
  journal : s'.journal = s.journal

omit [Hash256] in
theorem Launches.length {ps : List OutcomeWorkPackage} {launched : List String}
    (h : Launches x s s' ps launched) :
    s'.active.length = s.active.length + launched.length := by
  have hlength := congrArg List.length h.ids
  rwa [List.length_append, activeIds, activeIds, List.length_map, List.length_map] at hlength

omit [Hash256] in
theorem Launches.refl (ps : List OutcomeWorkPackage) : Launches x s s ps [] :=
  ⟨fun _ h ↦ h, fun _ h ↦ absurd h List.not_mem_nil, rfl, fun _ h ↦ .inl h, List.prefix_rfl,
    (List.append_nil _).symm, rfl, rfl, rfl, (List.append_nil _).symm, rfl⟩

omit [Hash256] in
theorem Inv.launchAll (h : s.Inv x) {ps : List OutcomeWorkPackage} {capacity : ℕ}
    (hps : ∀ p ∈ ps, p ∈ x.graph.packages ∧ p.packageId ∈ s.pending ∧
      ∀ d ∈ p.dependencies, s.results.succeeded d = true)
    (hnodup : (ps.map (·.packageId)).Nodup) (hroom : s.active.length + capacity ≤ x.maximumWorkers) :
    (x.launchAll ps capacity s).1.Inv x ∧
      Launches x s (x.launchAll ps capacity s).1 ps (x.launchAll ps capacity s).2 := by
  induction ps generalizing s capacity with
  | nil =>
    rw [CohortRun.launchAll]
    exact ⟨h, .refl _⟩
  | cons p ps ih =>
    obtain _ | capacity := capacity
    · rw [CohortRun.launchAll]
      exact ⟨h, .refl _⟩
    obtain ⟨⟨hp, hpending, hready⟩, hps⟩ := List.forall_mem_cons.mp hps
    obtain ⟨hnotMem, hnodup⟩ := List.nodup_cons.mp hnodup
    rw [CohortRun.launchAll]
    by_cases hconflicts : s.Conflicts p
    · rw [if_pos hconflicts]
      obtain ⟨hafter, hlaunches⟩ := ih h hps hnodup hroom
      refine ⟨hafter, { hlaunches with active := fun f hf ↦ ?_ }⟩
      exact (hlaunches.active f hf).imp_right (List.mem_cons_of_mem p)
    · rw [if_neg hconflicts]
      have hnext := h.launch hp hpending hready hconflicts (by omega)
      have hlength : (x.launch s p).active.length = s.active.length + 1 := by
        rw [CohortRun.launch, List.length_append, List.length_singleton]
      have hrests : ∀ q ∈ ps, q ∈ x.graph.packages ∧ q.packageId ∈ (x.launch s p).pending ∧
          ∀ d ∈ q.dependencies, (x.launch s p).results.succeeded d = true := by
        intro q hq
        obtain ⟨hq', hqpending, hqready⟩ := hps q hq
        have hmem := h.pendingNodup.mem_erase_iff.mpr ⟨packageId_ne hnotMem hq, hqpending⟩
        exact ⟨hq', hmem, hqready⟩
      have hroom' : (x.launch s p).active.length + capacity ≤ x.maximumWorkers := by omega
      obtain ⟨hafter, hlaunches⟩ := ih hnext hrests hnodup hroom'
      refine ⟨hafter, fun id hid ↦ List.mem_of_mem_erase (hlaunches.pending id hid), ?_,
        hlaunches.results, fun f hf ↦ ?_, (List.prefix_append _ _).trans hlaunches.grows, ?_, ?_,
        hlaunches.batches, hlaunches.maxParallelism, ?_, hlaunches.journal⟩
      · refine List.forall_mem_cons.mpr ⟨hpending, fun id hid ↦ ?_⟩
        exact List.mem_of_mem_erase (hlaunches.wasPending id hid)
      · rcases hlaunches.active f hf with hf | hf
        · rcases List.mem_append.mp hf with hf | hf
          · exact .inl hf
          · rw [List.mem_singleton.mp hf]
            exact .inr List.mem_cons_self
        · exact .inr (List.mem_cons_of_mem p hf)
      · have hids : (x.launch s p).activeIds = s.activeIds ++ [p.packageId] := List.map_append ..
        rw [hlaunches.ids, hids, List.append_assoc]
        rfl
      · have herase : (x.launch s p).pending.length = s.pending.length - 1 :=
          List.length_erase_of_mem hpending
        have hpos := List.length_pos_of_mem hpending
        rw [hlaunches.total, hlength, herase]
        omega
      · rw [hlaunches.executed]
        exact List.append_assoc ..

omit [Hash256] in
/-- The running packages without one of them. -/
theorem Inv.exists_split (h : s.Inv x) {f : Future} (hf : f ∈ s.active) :
    ∃ before after, s.active = before ++ f :: after ∧
      s.active.eraseP (·.package.packageId = f.package.packageId) = before ++ after ∧
      ∀ g ∈ before ++ after, g.package.packageId ≠ f.package.packageId := by
  obtain ⟨before, after, hsplit⟩ := List.append_of_mem hf
  have hnodup := h.activeNodup
  rw [activeIds, hsplit, List.map_append, List.map_cons] at hnodup
  have hne : ∀ g ∈ before ++ after, g.package.packageId ≠ f.package.packageId := by
    intro g hg heq
    have hmem := List.mem_map_of_mem (f := (·.package.packageId)) hg
    rw [List.map_append, heq] at hmem
    exact (List.nodup_middle.mp hnodup).notMem hmem
  refine ⟨before, after, hsplit, ?_, hne⟩
  have hcons : (f :: after).eraseP (·.package.packageId = f.package.packageId) = after :=
    List.eraseP_cons_of_pos (by simp)
  rw [hsplit, List.eraseP_append_right, hcons]
  intro g hg
  simpa using hne g (List.mem_append_left _ hg)

/-- A running package comes to an end. -/
theorem Inv.complete (h : s.Inv x) {f : Future} (hf : f ∈ s.active)
    (hcomplete : x.complete s f = .ok s') :
    s'.Inv x ∧ s.results.Extends s'.results ∧ s'.pending = s.pending ∧
      s'.executed = s.executed ∧ s'.active.Sublist s.active ∧
      s'.active.length + 1 = s.active.length := by
  simp only [CohortRun.complete, bind_eq_ok, pure_eq_ok] at hcomplete
  obtain ⟨⟨r, journal⟩, hrecord, rfl⟩ := hcomplete
  obtain ⟨hid, -⟩ := recordPackageResult_eq_ok hrecord
  rw [f.package.packageId_settle] at hid
  obtain ⟨hp, hnone⟩ := h.activeOk f hf
  have hextends := Results.extends_update hnone r
  have hother : ∀ id ≠ f.package.packageId,
      Function.update s.results f.package.packageId (some r) id = s.results id :=
    fun _ hne ↦ Function.update_of_ne hne _ _
  have hself : Function.update s.results f.package.packageId (some r) f.package.packageId = some r :=
    Function.update_self ..
  obtain ⟨before, after, hsplit, herase, hne⟩ := h.exists_split hf
  have hmem : ∀ g, g ∈ s.active ↔ g = f ∨ g ∈ before ++ after := by
    intro g
    rw [hsplit, List.mem_append, List.mem_cons, List.mem_append]
    tauto
  have hsublist : (before ++ after).Sublist s.active := by
    rw [hsplit]
    exact (List.Sublist.refl before).append (List.sublist_cons_self f after)
  have hlength : (before ++ after).length + 1 = s.active.length := by
    rw [hsplit, List.length_append, List.length_append, List.length_cons]
    omega
  have hapart : ∀ g ∈ before ++ after, Apart g.package f.package := by
    have hpairwise := h.apart
    rw [hsplit, List.pairwise_append] at hpairwise
    intro g hg
    rcases List.mem_append.mp hg with hg | hg
    · exact hpairwise.2.2 g hg f List.mem_cons_self
    · exact ((List.pairwise_cons.mp hpairwise.2.1).1 g hg).symm
  rw [herase]
  refine ⟨⟨h.pendingNodup, ?_, h.executedNodup, ?_, ?_, ?_, ?_, ?_, ?_, ?_, ?_, ?_⟩, hextends, rfl,
    rfl, hsublist, hlength⟩
  · exact (hsublist.map _).nodup h.activeNodup
  · intro id hid
    obtain ⟨hknown, hresult, hidle, hrest⟩ := h.pendingOk id hid
    refine ⟨hknown, (hother id ?_).trans hresult, ?_, hrest⟩
    · rintro rfl
      exact hidle (List.mem_map_of_mem hf)
    · exact fun hmem ↦ hidle ((hsublist.map _).subset hmem)
  · intro g hg
    obtain ⟨hg', hresult⟩ := h.activeOk g (hsublist.subset hg)
    exact ⟨hg', (hother _ (hne g hg)).trans hresult⟩
  · intro id r' hid'
    by_cases heq : id = f.package.packageId
    · subst heq
      obtain rfl := Option.some.inj (hself.symm.trans hid')
      exact ⟨List.mem_map_of_mem hp, hid⟩
    · exact h.resultsOk id r' ((hother id heq).symm.trans hid')
  · intro id hid
    obtain ⟨hgate, hdeps⟩ := h.executedOk id hid
    exact ⟨hgate, fun d hd ↦ hextends.succeeded (hdeps d hd)⟩
  · intro id hid
    by_cases heq : id = f.package.packageId
    · subst heq
      exact .inr (.inr (ne_of_eq_of_ne hself (Option.some_ne_none r)))
    · rcases h.covered id hid with hpend | hactive | hresult
      · exact .inl hpend
      · obtain ⟨g, hg, rfl⟩ := List.mem_map.mp hactive
        rcases (hmem g).mp hg with rfl | hg
        · exact absurd rfl heq
        · exact .inr (.inl (List.mem_map_of_mem hg))
      · exact .inr (.inr (ne_of_eq_of_ne (hother id heq) hresult))
  · -- the paths of the package are those of no other running package
    intro path
    rw [List.mem_filter, h.paths, decide_eq_true_iff]
    constructor
    · rintro ⟨⟨g, hg, hpath⟩, hnotMem⟩
      rcases (hmem g).mp hg with rfl | hg
      · exact absurd hpath hnotMem
      · exact ⟨g, hg, hpath⟩
    · rintro ⟨g, hg, hpath⟩
      refine ⟨⟨g, hsublist.subset hg, hpath⟩, fun hshared ↦ ?_⟩
      exact (hapart g hg).1 path hpath hshared
  · intro lock
    rw [List.mem_filter, h.locks, decide_eq_true_iff]
    constructor
    · rintro ⟨⟨g, hg, hlock⟩, hnotMem⟩
      rcases (hmem g).mp hg with rfl | hg
      · exact absurd hlock hnotMem
      · exact ⟨g, hg, hlock⟩
    · rintro ⟨g, hg, hlock⟩
      refine ⟨⟨g, hsublist.subset hg, hlock⟩, fun hshared ↦ ?_⟩
      exact (hapart g hg).2 lock hlock hshared
  · exact h.apart.sublist hsublist
  · exact (hlength ▸ Nat.le_succ _ : (before ++ after).length ≤ s.active.length).trans h.capacity

omit [Hash256] in
/-- The invariant does not speak of what a dispatch changes. -/
theorem Inv.dispatched (h : s.Inv x) (batches : List (List String)) (maxParallelism : ℕ)
    (journal : Option RunJournal) :
    Inv x { s with batches := batches, maxParallelism := maxParallelism, journal := journal } :=
  ⟨h.pendingNodup, h.activeNodup, h.executedNodup, h.pendingOk, h.activeOk, h.resultsOk,
    h.executedOk, h.covered, h.paths, h.locks, h.apart, h.capacity⟩

theorem dispatch_eq_ok {ids : List String} (h : x.dispatch s ids = .ok s') :
    ∃ batches maxParallelism journal, s' =
      { s with batches := batches, maxParallelism := maxParallelism, journal := journal } := by
  rw [CohortRun.dispatch] at h
  split at h
  · exact ⟨s.batches, s.maxParallelism, s.journal, (Except.ok.inj h).symm⟩
  · simp only [bind_eq_ok, pure_eq_ok] at h
    obtain ⟨journal, -, rfl⟩ := h
    exact ⟨_, _, _, rfl⟩

/-! ## Passes -/

/-- If nothing runs and nothing is ready, every pending package depends on one that has failed. -/
def Unstuck (x : CohortRun) (s : RunState) : Prop :=
  s.active = [] → s.ready x.graph = [] →
    ∀ id ∈ s.pending, ∃ d ∈ x.graph.dependenciesOf id, s.results.failed d = true

/-- Packages that run or are ready, and that do not exclude each other, have no paths of which one
contains the other. -/
def Flat (x : CohortRun) (s : RunState) : Prop :=
  ∀ p ∈ s.active.map (·.package) ++ s.ready x.graph,
    ∀ q ∈ s.active.map (·.package) ++ s.ready x.graph,
      p.packageId ≠ q.packageId → Apart p q → Separate p q

omit [Hash256] in
theorem mem_blocked {p : OutcomeWorkPackage} :
    p ∈ s.blocked x.graph ↔ (p ∈ x.graph.packages ∧ p.packageId ∈ s.pending) ∧
      p.dependencies.any s.results.failed = true := by
  rw [RunState.blocked, List.mem_filter, mem_pendingPackages x.compiled.nodup]

omit [Hash256] in
theorem mem_ready {p : OutcomeWorkPackage} :
    p ∈ s.ready x.graph ↔ (p ∈ x.graph.packages ∧ p.packageId ∈ s.pending) ∧
      ∀ d ∈ p.dependencies, s.results.succeeded d = true := by
  rw [RunState.ready, List.mem_filter, mem_pendingPackages x.compiled.nodup, List.all_eq_true]

omit [Hash256] in
theorem not_succeeded_of_failed {results : Results} {id : String} (h : results.failed id = true) :
    results.succeeded id = false := by
  rw [Results.failed] at h
  rw [Results.succeeded]
  cases hresult : results id with
  | none => rfl
  | some r =>
    rw [hresult] at h
    simpa using h

omit [Hash256] in
theorem eq_of_packageId {p q : OutcomeWorkPackage} (hp : p ∈ x.graph.packages)
    (hq : q ∈ x.graph.packages) (h : p.packageId = q.packageId) : p = q := by
  have hfind := x.graph.package?_eq_some x.compiled.nodup hp
  rw [h, x.graph.package?_eq_some x.compiled.nodup hq] at hfind
  exact (Option.some.inj hfind).symm

omit [Hash256] in
/-- What is ready after the blocking was ready before it, and the other way round. -/
theorem Blocked.mem_ready (h : Blocked s s' ((s.blocked x.graph).map (·.packageId)))
    {p : OutcomeWorkPackage} : p ∈ s'.ready x.graph ↔ p ∈ s.ready x.graph := by
  rw [RunState.mem_ready, RunState.mem_ready, h.pending]
  constructor
  · rintro ⟨⟨hp, hpending, -⟩, hready⟩
    refine ⟨⟨hp, hpending⟩, fun d hd ↦ ?_⟩
    have hsucceeded := hready d hd
    have hnotMem : d ∉ (s.blocked x.graph).map (·.packageId) := by
      intro hmem
      rw [h.refused d hmem] at hsucceeded
      exact nomatch hsucceeded
    rwa [Results.succeeded, h.kept d hnotMem] at hsucceeded
  · rintro ⟨⟨hp, hpending⟩, hready⟩
    refine ⟨⟨hp, hpending, fun hmem ↦ ?_⟩, fun d hd ↦ h.extends_.succeeded (hready d hd)⟩
    -- a package that is blocked has a dependency that failed
    obtain ⟨q, hq, hid⟩ := List.mem_map.mp hmem
    obtain ⟨⟨hq, -⟩, hfailed⟩ := mem_blocked.mp hq
    obtain rfl := eq_of_packageId hq hp hid
    obtain ⟨d, hd, hdfailed⟩ := List.any_eq_true.mp hfailed
    have hsucceeded := hready d hd
    rw [not_succeeded_of_failed hdfailed] at hsucceeded
    exact nomatch hsucceeded

omit [Hash256] in
/-- The first ready package is launched if nothing runs. -/
theorem Inv.launchAll_ne_nil (h : s.Inv x) (hidle : s.active = []) {ps : List OutcomeWorkPackage}
    (hps : ps ≠ []) {capacity : ℕ} (hcapacity : 0 < capacity) :
    (x.launchAll ps capacity s).2 ≠ [] := by
  obtain ⟨p, ps, rfl⟩ := List.exists_cons_of_ne_nil hps
  obtain ⟨k, rfl⟩ := Nat.exists_eq_succ_of_ne_zero hcapacity.ne'
  have hconflicts : ¬s.Conflicts p := by
    rintro (⟨path, hpath, -⟩ | ⟨lock, hlock, -⟩)
    · obtain ⟨f, hf, -⟩ := (h.paths path).mp hpath
      rw [hidle] at hf
      exact absurd hf List.not_mem_nil
    · obtain ⟨f, hf, -⟩ := (h.locks lock).mp hlock
      rw [hidle] at hf
      exact absurd hf List.not_mem_nil
  rw [CohortRun.launchAll, if_neg hconflicts]
  exact List.cons_ne_nil _ _

end RunState

/-! ## Runs -/

open RunState

variable {x : CohortRun} {m : Machine}

/-- The invariant of a run. -/
structure Machine.Inv (x : CohortRun) (m : Machine) : Prop where
  state : m.state.Inv x
  waiting : m.position = .waiting → m.state.active ≠ []
  finished : m.position = .finished → m.state.pending = [] ∧ m.state.active = []

/-- A run can go on: if a pass launches nothing and nothing runs, nothing is pending. -/
structure Machine.Steady (m : Machine) : Prop where
  launched : ∀ ids, m.position = .launched ids → m.state.active = [] → m.state.pending = []
  progress : m.position ≠ .raised noProgress

section Signals

variable [Hash256]

theorem fails_block (s : RunState) (p : OutcomeWorkPackage) :
    Fails (· ≠ noProgress) (x.block s p) := by
  rw [CohortRun.block]
  split
  · exact fails_ok _
  · exact (fails_recordPackageResult _ _ _).bind fun _ ↦ fails_ok _

theorem fails_dispatch (s : RunState) (ids : List String) :
    Fails (· ≠ noProgress) (x.dispatch s ids) := by
  rw [CohortRun.dispatch]
  split
  · exact fails_ok _
  · refine Fails.bind ?_ fun _ ↦ fails_ok _
    rintro e he rfl
    exact absurd (fails_record _ _ _ he) (by decide)

theorem fails_complete (s : RunState) (f : Future) : Fails (· ≠ noProgress) (x.complete s f) :=
  (fails_recordPackageResult _ _ _).bind fun _ ↦ fails_ok _

omit [Hash256] in
theorem maximumWorkers_pos : 0 < x.maximumWorkers := by
  have hcapacity := x.compiled.capacity
  have hparallel := x.policy.positive
  rw [CohortRun.maximumWorkers]
  omega

/-- The two halves of a pass. -/
theorem halves_of_pass {s s' : RunState} (h : s.Inv x)
    (hblock : (s.blocked x.graph).foldlM x.block s = .ok s') {after : RunState × List String}
    (hafter : x.launchAll (s'.ready x.graph) (x.maximumWorkers - s'.active.length) s' = after) :
    s'.Inv x ∧ Blocked s s' ((s.blocked x.graph).map (·.packageId)) ∧ after.1.Inv x ∧
      Launches x s' after.1 (s'.ready x.graph) after.2 := by
  have hnodup : ∀ (t : RunState), t.pending.Nodup → ∀ P : OutcomeWorkPackage → Bool,
      (((t.pendingPackages x.graph).filter P).map (·.packageId)).Nodup := fun t ht P ↦
    ((List.filter_sublist).map _).nodup (nodup_pendingPackages x.compiled.nodup ht)
  obtain ⟨hmiddle, hblocked⟩ := h.foldlM_block
    (fun p hp ↦ ⟨(mem_blocked.mp hp).1.2, (mem_blocked.mp hp).2⟩) (hnodup s h.pendingNodup _) hblock
  have hcapacity := hmiddle.capacity
  have hroom : s'.active.length + (x.maximumWorkers - s'.active.length) ≤ x.maximumWorkers := by
    omega
  have hready : ∀ p ∈ s'.ready x.graph, p ∈ x.graph.packages ∧ p.packageId ∈ s'.pending ∧
      ∀ d ∈ p.dependencies, s'.results.succeeded d = true := fun p hp ↦
    and_assoc.mp (mem_ready.mp hp)
  obtain ⟨hinv, hlaunches⟩ := hmiddle.launchAll hready (hnodup s' hmiddle.pendingNodup _) hroom
  rw [hafter] at hinv hlaunches
  exact ⟨hmiddle, hblocked, hinv, hlaunches⟩

/-- What a pass leads to. -/
theorem inv_of_pass {s s' : RunState} (h : s.Inv x)
    (hblock : (s.blocked x.graph).foldlM x.block s = .ok s') {after : RunState × List String}
    (hafter : x.launchAll (s'.ready x.graph) (x.maximumWorkers - s'.active.length) s' = after) :
    after.1.Inv x ∧ s.Onward after.1 ∧
      (∀ f ∈ after.1.active, f.package ∈ s.active.map (·.package) ++ s.ready x.graph) ∧
      (s.Unstuck x → after.1.active = [] → after.1.pending = []) := by
  obtain ⟨hmiddle, hblocked, hinv, hlaunches⟩ := halves_of_pass h hblock hafter
  have hpending : ∀ id ∈ s'.pending, id ∈ s.pending := fun id hid ↦
    ((hblocked.pending id).mp hid).1
  refine ⟨hinv, ⟨?_, fun id hid ↦ hpending id (hlaunches.pending id hid), fun id hid ↦ ?_⟩,
    fun f hf ↦ ?_, fun hunstuck hidle ↦ ?_⟩
  · rw [hlaunches.results]
    exact hblocked.extends_
  · rw [hlaunches.executed, hblocked.executed] at hid
    rcases List.mem_append.mp hid with hid | hid
    · exact .inl hid
    · exact .inr (hpending id (hlaunches.wasPending id hid))
  · rw [List.mem_append]
    rcases hlaunches.active f hf with hf | hf
    · rw [hblocked.active] at hf
      exact .inl (List.mem_map_of_mem hf)
    · exact .inr (hblocked.mem_ready.mp hf)
  · -- nothing was launched, so nothing was ready, and what was pending is blocked
    have hidle' : s'.active = [] := by
      have hbegin := hlaunches.grows
      rw [hidle] at hbegin
      exact List.prefix_nil.mp hbegin
    have hready : s'.ready x.graph = [] := by
      by_contra hsome
      have hcapacity : 0 < x.maximumWorkers - s'.active.length := by
        rw [hidle', List.length_nil]
        exact maximumWorkers_pos
      refine hmiddle.launchAll_ne_nil hidle' hsome hcapacity ?_
      · rw [hafter]
        have hlength := hlaunches.length
        rw [hidle, hidle', List.length_nil, Nat.zero_add] at hlength
        exact List.eq_nil_of_length_eq_zero hlength.symm
    have hready' : s.ready x.graph = [] := by
      refine List.eq_nil_iff_forall_not_mem.mpr fun p hp ↦ ?_
      have hmem := hblocked.mem_ready.mpr hp
      rw [hready] at hmem
      exact absurd hmem List.not_mem_nil
    refine List.eq_nil_iff_forall_not_mem.mpr fun id hid ↦ ?_
    obtain ⟨hpending, hnotMem⟩ := (hblocked.pending id).mp (hlaunches.pending id hid)
    obtain ⟨d, hd, hfailed⟩ := hunstuck (hblocked.active ▸ hidle') hready' id hpending
    obtain ⟨p, hp, rfl⟩ := OutcomeGraphSpec.exists_package (h.pendingOk id hpending).1
    rw [x.graph.dependenciesOf_eq x.compiled.nodup hp] at hd
    exact hnotMem (List.mem_map_of_mem
      (mem_blocked.mpr ⟨⟨hp, hpending⟩, List.any_eq_true.mpr ⟨d, hd, hfailed⟩⟩))

omit [Hash256] in
theorem Machine.inv_raised {s : RunState} (h : s.Inv x) (e : RunError) :
    Machine.Inv x ⟨s, .raised e⟩ :=
  ⟨h, fun h ↦ (nomatch h), fun h ↦ (nomatch h)⟩

omit [Hash256] in
theorem Machine.steady_raised {s : RunState} {e : RunError} (he : e ≠ noProgress) :
    Machine.Steady ⟨s, .raised e⟩ :=
  ⟨fun _ h ↦ (nomatch h), fun h ↦ he (Position.raised.inj h)⟩

omit [Hash256] in
theorem Machine.inv_goOn {s : RunState} (h : s.Inv x) : (goOn s).Inv x := by
  refine ⟨h, fun hwaiting hactive ↦ ?_, fun hfinished ↦ ?_⟩
  · replace hactive : s.active = [] := hactive
    by_cases hpending : s.pending = [] <;> simp [goOn, hactive, hpending] at hwaiting
  · by_cases hactive : s.active = [] <;> by_cases hpending : s.pending = [] <;>
      simp [goOn, hactive, hpending] at hfinished ⊢

theorem Machine.Inv.pass {s : RunState} (h : Machine.Inv x ⟨s, .scheduling⟩) :
    (x.pass s).Inv x ∧ s.Onward (x.pass s).state ∧ (s.Unstuck x → (x.pass s).Steady) := by
  rw [CohortRun.pass]
  by_cases hdone : s.pending = [] ∧ s.active = []
  · rw [if_pos hdone]
    exact ⟨⟨h.state, fun h ↦ (nomatch h), fun _ ↦ hdone⟩, .refl s,
      fun _ ↦ ⟨fun _ h ↦ (nomatch h), fun h ↦ (nomatch h)⟩⟩
  rw [if_neg hdone]
  cases hblock : (s.blocked x.graph).foldlM x.block s with
  | error e =>
    exact ⟨inv_raised h.state e, .refl s,
      fun _ ↦ steady_raised (fails_foldlM fails_block _ _ e hblock)⟩
  | ok s' =>
    obtain ⟨hinv, honward, -, hpending⟩ := inv_of_pass h.state hblock rfl
    exact ⟨⟨hinv, fun h ↦ (nomatch h), fun h ↦ (nomatch h)⟩, honward,
      fun hunstuck ↦ ⟨fun _ _ ↦ hpending hunstuck, fun h ↦ (nomatch h)⟩⟩

theorem Machine.Inv.await {s : RunState} {ids : List String}
    (h : Machine.Inv x ⟨s, .launched ids⟩) :
    (x.await s ids).Inv x ∧ s.Onward (x.await s ids).state ∧
      (Steady ⟨s, .launched ids⟩ → (x.await s ids).Steady) := by
  rw [CohortRun.await]
  cases hdispatch : x.dispatch s ids with
  | error e =>
    exact ⟨inv_raised h.state e, .refl s, fun _ ↦ steady_raised (fails_dispatch s ids e hdispatch)⟩
  | ok s' =>
    obtain ⟨batches, maxParallelism, journal, rfl⟩ := dispatch_eq_ok hdispatch
    refine ⟨inv_goOn (h.state.dispatched batches maxParallelism journal),
      ⟨fun _ _ hr ↦ hr, fun _ hid ↦ hid, fun _ hid ↦ .inl hid⟩, fun hsteady ↦ ?_⟩
    by_cases hactive : s.active = []
    · have hpending : s.pending = [] := hsteady.launched ids rfl hactive
      refine ⟨fun ids hids ↦ ?_, fun hraised ↦ ?_⟩
      · simp [goOn, hactive, hpending] at hids
      · simp [goOn, hactive, hpending] at hraised
    · refine ⟨fun ids hids ↦ ?_, fun hraised ↦ ?_⟩
      · simp [goOn, hactive] at hids
      · simp [goOn, hactive] at hraised

theorem Machine.Inv.drain (h : m.Inv x) (id : String) :
    (x.drain m id).Inv x ∧ m.state.Onward (x.drain m id).state ∧
      (m.Steady → (x.drain m id).Steady) := by
  rw [CohortRun.drain]
  cases hfind : m.state.active.find? (·.package.packageId = id) with
  | none => exact ⟨h, .refl _, fun hsteady ↦ hsteady⟩
  | some f =>
    cases hcomplete : x.complete m.state f with
    | error e =>
      simp only [hcomplete]
      exact ⟨inv_raised h.state e, .refl _, fun _ ↦ steady_raised (fails_complete _ f e hcomplete)⟩
    | ok s =>
      simp only [hcomplete]
      obtain ⟨hinv, hextends, hpending, hexecuted, -⟩ :=
        h.state.complete (List.mem_of_find?_eq_some hfind) hcomplete
      exact ⟨⟨hinv, fun h ↦ (nomatch h), fun h ↦ (nomatch h)⟩,
        ⟨hextends, fun id hid ↦ hpending ▸ hid, fun id hid ↦ .inl (hexecuted ▸ hid)⟩,
        fun _ ↦ ⟨fun _ h ↦ (nomatch h), fun h ↦ (nomatch h)⟩⟩

/-- A signal keeps the invariant, and a run that can go on goes on. -/
theorem Machine.Inv.advance (h : m.Inv x) (signal : Signal) :
    (x.advance m signal).Inv x ∧ m.state.Onward (x.advance m signal).state ∧
      ((m.position = .scheduling → m.state.Unstuck x) → m.Steady →
        (x.advance m signal).Steady) := by
  have hsame : m.Inv x ∧ m.state.Onward m.state ∧
      ((m.position = .scheduling → m.state.Unstuck x) → m.Steady → m.Steady) :=
    ⟨h, .refl _, fun _ hsteady ↦ hsteady⟩
  obtain ⟨s, position⟩ := m
  cases position with
  | finished | raised => exact hsame
  | scheduling =>
    cases signal with
    | completes => exact hsame
    | tick =>
      obtain ⟨hinv, honward, hsteady⟩ := h.pass
      exact ⟨hinv, honward, fun hunstuck _ ↦ hsteady (hunstuck rfl)⟩
  | launched ids =>
    cases signal with
    | completes => exact hsame
    | tick =>
      obtain ⟨hinv, honward, hsteady⟩ := h.await
      exact ⟨hinv, honward, fun _ ↦ hsteady⟩
  | waiting =>
    cases signal with
    | completes id =>
      obtain ⟨hinv, honward, hsteady⟩ := h.drain id
      exact ⟨hinv, honward, fun _ ↦ hsteady⟩
    | tick => exact hsame
  | draining =>
    cases signal with
    | completes id =>
      obtain ⟨hinv, honward, hsteady⟩ := h.drain id
      exact ⟨hinv, honward, fun _ ↦ hsteady⟩
    | tick =>
      exact ⟨⟨h.state, fun h ↦ (nomatch h), fun h ↦ (nomatch h)⟩, .refl s,
        fun _ _ ↦ ⟨fun _ h ↦ (nomatch h), fun h ↦ (nomatch h)⟩⟩

/-! ## Separation -/

/-- No two running packages have paths of which one contains the other. -/
def RunState.Separated (s : RunState) : Prop :=
  s.active.Pairwise fun f g ↦ Separate f.package g.package

/-- A signal keeps the running packages separate, if a pass starts from a state that is flat. -/
theorem separated_advance (h : m.Inv x) (hseparated : m.state.Separated)
    (hflat : m.position = .scheduling → m.state.Flat x) (signal : Signal) :
    (x.advance m signal).state.Separated := by
  obtain ⟨s, position⟩ := m
  have hdrain : ∀ (position : Position) (id : String),
      (x.drain ⟨s, position⟩ id).state.Separated := by
    intro position id
    rw [CohortRun.drain]
    cases hfind : s.active.find? (·.package.packageId = id) with
    | none => exact hseparated
    | some f =>
      cases hcomplete : x.complete s f with
      | error e =>
        simp only [hcomplete]
        exact hseparated
      | ok s' =>
        simp only [hcomplete]
        obtain ⟨-, -, -, -, hsublist, -⟩ :=
          h.state.complete (List.mem_of_find?_eq_some hfind) hcomplete
        exact hseparated.sublist hsublist
  cases position with
  | finished | raised => exact hseparated
  | scheduling =>
    cases signal with
    | completes => exact hseparated
    | tick =>
      change (x.pass s).state.Separated
      rw [CohortRun.pass]
      by_cases hdone : s.pending = [] ∧ s.active = []
      · rw [if_pos hdone]
        exact hseparated
      rw [if_neg hdone]
      cases hblock : (s.blocked x.graph).foldlM x.block s with
      | error e => exact hseparated
      | ok s' =>
        obtain ⟨hinv, -, hmem, -⟩ := inv_of_pass h.state hblock rfl
        have hne := List.pairwise_map.mp hinv.activeNodup
        refine (hinv.apart.and hne).imp_of_mem fun hf hg hfg ↦ ?_
        exact hflat rfl _ (hmem _ hf) _ (hmem _ hg) hfg.2 hfg.1
  | launched ids =>
    cases signal with
    | completes => exact hseparated
    | tick =>
      change (x.await s ids).state.Separated
      rw [CohortRun.await]
      cases hdispatch : x.dispatch s ids with
      | error e => exact hseparated
      | ok s' =>
        obtain ⟨batches, maxParallelism, journal, hs'⟩ := dispatch_eq_ok hdispatch
        have hactive : s'.active = s.active := by rw [hs']
        exact (by rwa [RunState.Separated, hactive] : s'.Separated)
  | waiting =>
    cases signal with
    | completes id => exact hdrain _ id
    | tick => exact hseparated
  | draining =>
    cases signal with
    | completes id => exact hdrain _ id
    | tick => exact hseparated

/-! ## Runs -/

variable {s : RunState}

theorem run_append (signals signals' : List Signal) :
    x.run s (signals ++ signals') = signals'.foldl x.advance (x.run s signals) :=
  List.foldl_append ..

/-- Every pass of the run starts from a state with the property. -/
def PassesFrom (x : CohortRun) (P : RunState → Prop) (s : RunState) (signals : List Signal) : Prop :=
  ∀ n, (x.run s (signals.take n)).position = .scheduling → P (x.run s (signals.take n)).state

theorem passesFrom_concat {P : RunState → Prop} {signals : List Signal} {signal : Signal} :
    PassesFrom x P s (signals ++ [signal]) ↔ PassesFrom x P s signals ∧
      ((x.run s signals).position = .scheduling → P (x.run s signals).state) ∧
      ((x.run s (signals ++ [signal])).position = .scheduling →
        P (x.run s (signals ++ [signal])).state) := by
  have htake : ∀ n ≤ signals.length, (signals ++ [signal]).take n = signals.take n :=
    fun n hn ↦ List.take_append_of_le_length hn
  constructor
  · intro h
    have hall := h (signals ++ [signal]).length
    rw [List.take_length] at hall
    refine ⟨fun n ↦ ?_, ?_, hall⟩
    · rcases Nat.le_total n signals.length with hn | hn
      · exact htake n hn ▸ h n
      · have hnow := h signals.length
        rw [htake _ le_rfl, List.take_length] at hnow
        rw [List.take_of_length_le hn]
        exact hnow
    · have hnow := h signals.length
      rwa [htake _ le_rfl, List.take_length] at hnow
  · rintro ⟨h, -, hall⟩ n
    rcases Nat.lt_or_ge signals.length n with hn | hn
    · rw [List.take_of_length_le (by simpa using Nat.succ_le_of_lt hn)]
      exact hall
    · rw [htake n hn]
      exact h n

theorem PassesFrom.take {P : RunState → Prop} {signals : List Signal}
    (h : PassesFrom x P s signals) (n : ℕ) : PassesFrom x P s (signals.take n) := by
  intro k
  rw [List.take_take]
  exact h (min k n)

/-- A run keeps the invariant, and goes on. -/
theorem Machine.Inv.run (h : Machine.Inv x ⟨s, .scheduling⟩) (signals : List Signal) :
    (x.run s signals).Inv x ∧
      ∀ n, (x.run s (signals.take n)).state.Onward (x.run s signals).state := by
  induction signals using List.reverseRecOn with
  | nil =>
    refine ⟨h, fun n ↦ ?_⟩
    rw [List.take_nil]
    exact .refl _
  | append_singleton signals signal ih =>
    obtain ⟨hbefore, hkept⟩ := ih
    obtain ⟨hafter, honward, -⟩ := hbefore.advance signal
    rw [run_append]
    refine ⟨hafter, fun n ↦ ?_⟩
    rcases Nat.lt_or_ge signals.length n with hn | hn
    · rw [List.take_of_length_le (by simpa using Nat.succ_le_of_lt hn), run_append]
      exact .refl _
    · rw [List.take_append_of_le_length hn]
      exact (hkept n).trans honward

/-- A run whose passes are not stuck goes on to its end. -/
theorem Machine.Inv.steady_run (h : Machine.Inv x ⟨s, .scheduling⟩) {signals : List Signal}
    (hunstuck : PassesFrom x (Unstuck x) s signals) : (x.run s signals).Steady := by
  induction signals using List.reverseRecOn with
  | nil => exact ⟨fun _ h ↦ (nomatch h), fun h ↦ (nomatch h)⟩
  | append_singleton signals signal ih =>
    obtain ⟨hunstuck, hnow, -⟩ := passesFrom_concat.mp hunstuck
    rw [run_append]
    exact ((h.run signals).1.advance signal).2.2 hnow (ih hunstuck)

theorem separated_run (h : Machine.Inv x ⟨s, .scheduling⟩) (hseparated : s.Separated)
    {signals : List Signal} (hflat : PassesFrom x (Flat x) s signals) :
    (x.run s signals).state.Separated := by
  induction signals using List.reverseRecOn with
  | nil => exact hseparated
  | append_singleton signals signal ih =>
    obtain ⟨hflat, hnow, -⟩ := passesFrom_concat.mp hflat
    rw [run_append]
    exact separated_advance (h.run signals).1 (ih hflat) hnow signal

/-! ## The end of a run -/

def Position.rank : Position → ℕ
  | scheduling => 3
  | launched _ => 2
  | waiting => 1
  | draining => 4
  | finished | raised _ => 0

/-- A bound for the number of signals that still change something. -/
def Machine.measure (m : Machine) : ℕ :=
  4 * (m.state.pending.length + m.state.active.length) + m.position.rank

omit [Hash256] in
theorem rank_goOn_le (s : RunState) : (goOn s).position.rank ≤ 1 := by
  simp only [goOn]
  split
  · exact le_rfl
  · split <;> exact Nat.zero_le _

theorem measure_pass {s : RunState} (h : s.Inv x) :
    (x.pass s).measure < Machine.measure ⟨s, .scheduling⟩ := by
  rw [CohortRun.pass]
  split
  · simp [Machine.measure, Position.rank]
  cases hblock : (s.blocked x.graph).foldlM x.block s with
  | error e =>
    simp only [Machine.measure, Position.rank]
    omega
  | ok s' =>
    obtain ⟨hmiddle, hblocked, -, hlaunches⟩ := halves_of_pass h hblock rfl
    have hpending : s'.pending.length ≤ s.pending.length :=
      (List.subperm_of_subset hmiddle.pendingNodup fun id hid ↦
        ((hblocked.pending id).mp hid).1).length_le
    have htotal := hlaunches.total
    have hactive := congrArg List.length hblocked.active
    simp only [Machine.measure, Position.rank]
    omega

/-- A signal that changes something brings the run nearer to its end. -/
theorem measure_advance (h : m.Inv x) (signal : Signal) :
    x.advance m signal = m ∨ (x.advance m signal).measure < m.measure := by
  obtain ⟨s, position⟩ := m
  have hdrain : ∀ (position : Position) (id : String),
      4 * (s.pending.length + s.active.length) < Machine.measure ⟨s, position⟩ →
      x.drain ⟨s, position⟩ id = ⟨s, position⟩ ∨
        (x.drain ⟨s, position⟩ id).measure < Machine.measure ⟨s, position⟩ := by
    intro position id hposition
    rw [CohortRun.drain]
    cases hfind : s.active.find? (·.package.packageId = id) with
    | none => exact .inl rfl
    | some f =>
      refine .inr (lt_of_le_of_lt ?_ hposition)
      cases hcomplete : x.complete s f with
      | error e =>
        simp only [hcomplete, Machine.measure, Position.rank]
        omega
      | ok s' =>
        obtain ⟨-, -, hpending, -, -, hlength⟩ :=
          h.state.complete (List.mem_of_find?_eq_some hfind) hcomplete
        replace hlength : s'.active.length + 1 = s.active.length := hlength
        simp only [hcomplete, Machine.measure, hpending, Position.rank]
        omega
  cases position with
  | finished | raised => exact .inl rfl
  | scheduling =>
    cases signal with
    | completes => exact .inl rfl
    | tick => exact .inr (measure_pass h.state)
  | launched ids =>
    cases signal with
    | completes => exact .inl rfl
    | tick =>
      refine .inr ?_
      change (x.await s ids).measure < _
      rw [CohortRun.await]
      cases hdispatch : x.dispatch s ids with
      | error e =>
        simp only [Machine.measure, Position.rank]
        omega
      | ok s' =>
        obtain ⟨batches, maxParallelism, journal, rfl⟩ := dispatch_eq_ok hdispatch
        exact Nat.add_lt_add_left (Nat.lt_succ_of_le (rank_goOn_le _)) _
  | waiting =>
    cases signal with
    | completes id => exact hdrain _ id (by simp [Machine.measure, Position.rank])
    | tick => exact .inl rfl
  | draining =>
    cases signal with
    | completes id => exact hdrain _ id (by simp [Machine.measure, Position.rank])
    | tick =>
      refine .inr ?_
      change Machine.measure ⟨s, .scheduling⟩ < _
      simp [Machine.measure, Position.rank]

end Signals

/-! ## The beginning of a run -/

/-- There are results of packages of the graph only, and each one has the name of its package. -/
def Results.Known (graph : OutcomeGraphSpec) (results : Results) : Prop :=
  ∀ id r, results id = some r → id ∈ graph.ids ∧ r.packageId = id

section Replay

variable {graph : OutcomeGraphSpec} {r r' : Retained}

theorem Results.Known.update {results : Results} (h : results.Known graph)
    {result : PackageRunResult} (hknown : result.packageId ∈ graph.ids) :
    Known graph (Function.update results result.packageId (some result)) := by
  intro id r hr
  by_cases hid : id = result.packageId
  · subst hid
    rw [Function.update_self] at hr
    obtain rfl := Option.some.inj hr
    exact ⟨hknown, rfl⟩
  · rw [Function.update_of_ne hid] at hr
    exact h id r hr

theorem known_of_replayRepair {document : Json} (h : r.results.Known graph)
    (hreplay : replayRepair graph r document = .ok r') : r'.results.Known graph := by
  simp only [replayRepair, bind_eq_ok, guard_eq_ok, pure_eq_ok, not_not] at hreplay
  obtain ⟨_, -, result, -, hknown, rfl⟩ := hreplay
  exact h.update hknown

theorem known_of_replayEvent {event : CohortJournalEvent} (h : r.results.Known graph)
    (hreplay : replayEvent graph r event = .ok r') : r'.results.Known graph := by
  rw [replayEvent] at hreplay
  split at hreplay
  · exact Except.ok.inj hreplay ▸ h
  · exact Except.ok.inj hreplay ▸ h
  · simp only [replayDispatch, bind_eq_ok, guard_eq_ok, pure_eq_ok] at hreplay
    obtain ⟨_, -, _, -, -, rfl⟩ := hreplay
    exact h
  · simp only [replayResult, bind_eq_ok, guard_eq_ok, pure_eq_ok, not_not] at hreplay
    obtain ⟨result, -, hknown, -, -, -, -, rfl⟩ := hreplay
    exact h.update hknown
  · simp only [bind_eq_ok, guard_eq_ok, pure_eq_ok] at hreplay
    obtain ⟨-, _, -, rfl⟩ := hreplay
    exact h
  · simp only [bind_eq_ok, guard_eq_ok, pure_eq_ok] at hreplay
    obtain ⟨-, _, -, rfl⟩ := hreplay
    exact h
  · simp only [bind_eq_ok, guard_eq_ok, pure_eq_ok] at hreplay
    obtain ⟨-, _, -, rfl⟩ := hreplay
    exact h
  · exact Except.ok.inj hreplay ▸ h
  · split at hreplay
    · simp only [bind_eq_ok, pure_eq_ok] at hreplay
      obtain ⟨next, hfold, rfl⟩ := hreplay
      exact Trace.history_invariant (fun _ t ↦ t.results.Known graph) h
        (fun _ _ _ _ ht hstep ↦ known_of_replayRepair ht hstep) hfold
    · exact nomatch hreplay

theorem known_of_replay {retained : List CohortJournalEvent} (h : replay graph retained = .ok r) :
    r.results.Known graph := by
  simp only [replay, bind_eq_ok, guard_eq_ok, pure_eq_ok] at h
  obtain ⟨after, hfold, -, rfl⟩ := h
  exact Trace.history_invariant (fun _ t ↦ t.results.Known graph) (fun _ _ hr ↦ (nomatch hr))
    (fun _ _ _ _ ht hstep ↦ known_of_replayEvent ht hstep) hfold

end Replay

section Start

variable [Hash256] {s s' : RunState} {b : Beginning} {resume : Bool} {journal : Option RunJournal}

/-- What the loop starts from, but for the packages that are still to be blocked by the policy. -/
structure RunState.Initial (x : CohortRun) (s : RunState) : Prop where
  known : s.results.Known x.graph
  active : s.active = []
  activePaths : s.activePaths = []
  activeLocks : s.activeLocks = []
  executed : s.executed = []

omit [Hash256] in
theorem checkpoint_eq_blocked {policy : CohortExecutionPolicy} {effect : EffectClass} :
    (policy.checkpoint effect .implementation).1 = .blocked ↔ effect.hardGate = true := by
  rw [CohortExecutionPolicy.checkpoint]
  by_cases hgate : effect.hardGate = true
  · simp only [hgate, if_true]
  · simp only [hgate, if_false, if_true, Bool.false_eq_true, reduceCtorEq]

/-- The policy blocks the packages behind a hard gate, and leaves the others alone. -/
theorem gate_eq_ok {p : OutcomeWorkPackage} (h : s.Initial x) (hp : p ∈ x.graph.packages)
    (hgate : x.gate s p = .ok s') :
    s'.Initial x ∧ s'.pending = s.pending ∧
      (∀ id, s.results id ≠ none → s'.results id ≠ none) ∧
      (x.gated p.packageId = true → s'.results p.packageId ≠ none) := by
  rw [CohortRun.gate] at hgate
  by_cases hgated : x.gated p.packageId = true
  · have hblocked : (x.policy.checkpoint (x.effectClass p.packageId) .implementation).1 = .blocked :=
      checkpoint_eq_blocked.mpr hgated
    simp only [if_pos hblocked, bind_eq_ok, pure_eq_ok] at hgate
    obtain ⟨⟨result, j⟩, hrecord, rfl⟩ := hgate
    obtain ⟨hid, -⟩ := recordPackageResult_eq_ok hrecord
    replace hid : result.packageId = p.packageId := hid
    have hknown : result.packageId ∈ x.graph.ids := hid ▸ List.mem_map_of_mem hp
    have hupdate := h.known.update hknown
    rw [hid] at hupdate
    refine ⟨⟨hupdate, h.active, h.activePaths, h.activeLocks, h.executed⟩, rfl, fun id hresult ↦ ?_,
      fun _ ↦ ?_⟩
    · by_cases heq : id = p.packageId
      · subst heq
        simp
      · simpa [Function.update_of_ne heq] using hresult
    · simp
  · have hnotBlocked :
        ¬(x.policy.checkpoint (x.effectClass p.packageId) .implementation).1 = .blocked :=
      checkpoint_eq_blocked.not.mpr hgated
    simp only [if_neg hnotBlocked] at hgate
    obtain rfl := Except.ok.inj hgate
    exact ⟨h, rfl, fun _ hresult ↦ hresult, fun hgate ↦ absurd hgate hgated⟩

theorem foldlM_gate {ps : List OutcomeWorkPackage} (h : s.Initial x)
    (hps : ∀ p ∈ ps, p ∈ x.graph.packages) (hfold : ps.foldlM x.gate s = .ok s') :
    s'.Initial x ∧ s'.pending = s.pending ∧
      (∀ id, s.results id ≠ none → s'.results id ≠ none) ∧
      ∀ p ∈ ps, x.gated p.packageId = true → s'.results p.packageId ≠ none := by
  induction ps generalizing s with
  | nil =>
    obtain rfl := Trace.foldlM_nil_eq_ok.mp hfold
    exact ⟨h, rfl, fun _ hresult ↦ hresult, fun _ hp ↦ absurd hp List.not_mem_nil⟩
  | cons p ps ih =>
    obtain ⟨next, hgate, hrest⟩ := Trace.foldlM_cons_eq_ok.mp hfold
    obtain ⟨hp, hps⟩ := List.forall_mem_cons.mp hps
    obtain ⟨hnext, hpending, hkept, hgated⟩ := gate_eq_ok h hp hgate
    obtain ⟨hafter, hpending', hkept', hgated'⟩ := ih hnext hps hrest
    refine ⟨hafter, hpending'.trans hpending, fun id hid ↦ hkept' id (hkept id hid), ?_⟩
    exact List.forall_mem_cons.mpr ⟨fun hgate ↦ hkept' _ (hgated hgate), hgated'⟩

theorem start_eq_ok (h : x.start resume journal = .ok b) :
    ∃ retained j s, (retained.results.Known x.graph) ∧
      ((initialState x.graph retained j).pendingPackages x.graph).foldlM x.gate
        (initialState x.graph retained j) = .ok s ∧
      b = ⟨{ s with pending := s.pending.filter fun id ↦ (s.results id).isNone },
        retained.convergence, retained.verification, retained.completion⟩ := by
  simp only [CohortRun.start, bind_eq_ok, pure_eq_ok] at h
  obtain ⟨⟨retained, j⟩, hrecollect, s, hfold, rfl⟩ := h
  refine ⟨retained, j, s, ?_, hfold, rfl⟩
  cases journal with
  | none =>
    obtain ⟨rfl, -⟩ := Prod.mk.inj (Except.ok.inj hrecollect)
    exact fun _ _ hr ↦ (nomatch hr)
  | some journal =>
    simp only [CohortRun.recollect, CohortRun.reread, bind_eq_ok, pure_eq_ok] at hrecollect
    obtain ⟨⟨retained', j'⟩, ⟨⟨records, j''⟩, -, hrecall⟩, hout⟩ := hrecollect
    obtain ⟨rfl, -⟩ := Prod.mk.inj hout
    cases records with
    | nil =>
      simp only [bind_eq_ok, pure_eq_ok] at hrecall
      obtain ⟨_, -, hrecall⟩ := hrecall
      obtain ⟨rfl, -⟩ := Prod.mk.inj hrecall
      exact fun _ _ hr ↦ (nomatch hr)
    | cons first rest =>
      simp only [bind_eq_ok, guard_eq_ok, pure_eq_ok] at hrecall
      obtain ⟨-, _, -, -, _, hreplay, hrecall⟩ := hrecall
      obtain ⟨rfl, -⟩ := Prod.mk.inj hrecall
      exact known_of_replay hreplay

/-- The loop starts with the invariant. -/
theorem inv_of_start (h : x.start resume journal = .ok b) :
    Machine.Inv x ⟨b.state, .scheduling⟩ ∧ b.state.executed = [] ∧ b.state.active = [] := by
  obtain ⟨retained, j, s, hknown, hfold, rfl⟩ := start_eq_ok h
  have hinitial : (initialState x.graph retained j).Initial x := ⟨hknown, rfl, rfl, rfl, rfl⟩
  obtain ⟨hs, hpending, hkept, hgated⟩ := foldlM_gate hinitial
    (fun p hp ↦ ((mem_pendingPackages x.compiled.nodup).mp hp).1) hfold
  have hmem : ∀ id, id ∈ s.pending ↔ id ∈ x.graph.ids ∧ retained.results id = none := by
    intro id
    rw [hpending, initialState, List.mem_filter, Option.isNone_iff_eq_none]
  have hids : s.activeIds = [] := by rw [activeIds, hs.active, List.map_nil]
  refine ⟨⟨⟨?_, ?_, ?_, ?_, ?_, hs.known, ?_, ?_, ?_, ?_, ?_, ?_⟩, fun h ↦ (nomatch h),
    fun h ↦ (nomatch h)⟩, hs.executed, hs.active⟩
  · rw [hpending]
    exact (x.compiled.nodup.filter _).filter _
  · exact hids ▸ .nil
  · exact hs.executed ▸ .nil
  · intro id hid
    obtain ⟨hid, hnone⟩ := List.mem_filter.mp hid
    rw [Option.isNone_iff_eq_none] at hnone
    obtain ⟨hknown, hfresh⟩ := (hmem id).mp hid
    refine ⟨hknown, hnone, ?_, ?_, ?_⟩
    · exact fun hmem ↦ absurd (hids ▸ hmem : id ∈ []) List.not_mem_nil
    · exact fun hmem ↦ absurd (hs.executed ▸ hmem : id ∈ []) List.not_mem_nil
    · -- the policy has blocked what is behind a gate
      obtain ⟨p, hp, rfl⟩ := OutcomeGraphSpec.exists_package hknown
      have hpackage : p ∈ (initialState x.graph retained j).pendingPackages x.graph :=
        (mem_pendingPackages x.compiled.nodup).mpr ⟨hp, hpending ▸ hid⟩
      exact Bool.eq_false_iff.mpr fun hgate ↦ hgated p hpackage hgate hnone
  · exact fun f hf ↦ absurd (hs.active ▸ hf : f ∈ []) List.not_mem_nil
  · exact fun id hid ↦ absurd (hs.executed ▸ hid : id ∈ []) List.not_mem_nil
  · intro id hid
    cases hresult : s.results id with
    | some r => exact .inr (.inr (Option.some_ne_none r))
    | none =>
      refine .inl (List.mem_filter.mpr ⟨(hmem id).mpr ⟨hid, ?_⟩, by rw [hresult]; rfl⟩)
      by_contra hsome
      exact hkept id hsome hresult
  · intro path
    simp [hs.activePaths, hs.active]
  · intro lock
    simp [hs.activeLocks, hs.active]
  · exact hs.active ▸ .nil
  · simp [hs.active]

end Start

end HiveMind.Cohort
