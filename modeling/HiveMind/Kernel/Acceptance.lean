import HiveMind.Kernel.Projection
import HiveMind.Kernel.Documents

/-!
# How work comes to be accepted

The reducer remembers of a work item's evaluation only three digests. The results here say what
those digests witness about the events behind them. Each is an invariant that relates the history
to the state it reduces to, and each step of it is one case of `ReduceStep`.

* **`accepted_history`**: behind accepted or integrated work stand the one sealed plan, a passed
  verdict on that plan, and the transition that names the verdict, in this order.
* **`transition_to_accepted_iff`**: a transition to accepted is legal exactly from work that awaits
  verification, and has to name the latest passed verdict of the history. Verdicts other than
  passed ones leave the projection as it was.
-/

open Std (ExtTreeMap)
open Raise Trace

namespace HiveMind

section Histories

variable [Hash256]

/-! ## What an event establishes about a work item -/

/-- The event seals a plan with digest `plan` for a work item of a mission. -/
structure SealsPlan (e : Event) (missionId workId plan : String) : Prop where
  kind : e.kind = some .evaluationPlanSealed
  mission : e.missionId = missionId
  work : e.workId = some workId
  role : e.actorRole = some "architect"
  sealed : ∃ p, sealedPlan e = .ok p ∧ p.planDigest = plan

/-- The event records a passed verdict with digest `result` on the plan with digest `plan`. -/
structure PassesPlan (e : Event) (missionId workId plan result : String) : Prop where
  kind : e.kind = some .evaluationResult
  mission : e.missionId = missionId
  work : e.workId = some workId
  role : e.actorRole = some "curator"
  verdict : ∃ v, evaluationOf e = .ok v ∧ v.state = .passed ∧ v.planDigest = plan ∧
    v.evaluatorId = e.actorId ∧ v.resultDigest = result

omit [Hash256] in
/-- The event moves a work item to accepted and names the verdict with digest `result`. -/
structure AcceptsWork (e : Event) (missionId workId result : String) : Prop where
  kind : e.kind = some .workTransition
  mission : e.missionId = missionId
  work : e.workId = some workId
  status : e.getItem "status" = .ok (.str WorkState.accepted.value)
  names : e.get "evaluation_result_digest" = .str result

/-- The event is a sealing of a plan for the work item. -/
def sealsFor (workId : String) (e : Event) : Bool :=
  e.kind = some .evaluationPlanSealed ∧ e.workId = some workId

/-- The verdict that the event gives the work item. -/
def verdictOf (workId : String) (e : Event) : Option EvaluationResult :=
  if e.kind = some .evaluationResult ∧ e.workId = some workId then (evaluationOf e).toOption
  else none

/-- The latest verdict on the work item, passed or not. -/
def lastVerdict (workId : String) (es : List Event) : Option EvaluationResult :=
  (es.filterMap (verdictOf workId)).getLast?

/-- The digest of the passed verdict that the event gives the work item. -/
def passedDigest (workId : String) (e : Event) : Option String :=
  (verdictOf workId e).bind fun v ↦ if v.state = .passed then some v.resultDigest else none

/-- The digest of the latest passed verdict on the work item. -/
def lastPassed (workId : String) (es : List Event) : Option String :=
  (es.filterMap (passedDigest workId)).getLast?

/-! ## The invariant -/

/-- What a work item's entry says about the history. -/
structure WorkHistory (es : List Event) (workId : String) (work : WorkEntry) : Prop where
  unsealed : work.evaluationPlanDigest = none → es.countP (sealsFor workId) = 0
  sealed : ∀ plan, work.evaluationPlanDigest = some plan → es.countP (sealsFor workId) = 1 ∧
    ∃ e₁, [e₁].Sublist es ∧ SealsPlan e₁ work.missionId workId plan
  passed : ∀ result, work.passedEvaluationDigest = some result →
    ∃ plan e₁ e₂, work.evaluationPlanDigest = some plan ∧ [e₁, e₂].Sublist es ∧
      SealsPlan e₁ work.missionId workId plan ∧ PassesPlan e₂ work.missionId workId plan result
  accepted : work.status = .accepted ∨ work.status = .integrated →
    ∃ plan result e₁ e₂ e₃, work.evaluationPlanDigest = some plan ∧ [e₁, e₂, e₃].Sublist es ∧
      SealsPlan e₁ work.missionId workId plan ∧ PassesPlan e₂ work.missionId workId plan result ∧
      AcceptsWork e₃ work.missionId workId result

/-- What the projection says about the history: what each entry says, and that items which do not
exist have no plans. -/
structure History (es : List Event) (s : ProjectionState) : Prop where
  work : ∀ workId work, s.work[workId]? = some work → WorkHistory es workId work
  absent : ∀ workId, s.work[workId]? = none → es.countP (sealsFor workId) = 0

omit [Hash256] in
private theorem sublist_concat {l es : List Event} (e : Event) (h : l.Sublist es) :
    l.Sublist (es ++ [e]) :=
  h.trans (List.sublist_append_left es [e])

omit [Hash256] in
private theorem concat_sublist_concat {l es : List Event} (e : Event) (h : l.Sublist es) :
    (l ++ [e]).Sublist (es ++ [e]) :=
  h.append (List.Sublist.refl [e])

omit [Hash256] in
private theorem countP_concat_of_not {workId : String} {es : List Event} {e : Event}
    (h : sealsFor workId e = false) :
    (es ++ [e]).countP (sealsFor workId) = es.countP (sealsFor workId) := by
  rw [List.countP_append, List.countP_singleton, h]
  simp

omit [Hash256] in
private theorem sealsFor_eq_false {workId : String} {e : Event}
    (h : e.kind ≠ some .evaluationPlanSealed) : sealsFor workId e = false := by
  simp [sealsFor, h]

omit [Hash256] in
private theorem sealsFor_other {workId workId' : String} {e : Event} (named : e.workId = some workId)
    (h : workId ≠ workId') : sealsFor workId' e = false := by
  simp [sealsFor, named, h]

/-- An event that seals no plan for the item keeps what the entry says, as long as the entry does
not gain anything new to say. -/
private theorem WorkHistory.concat {es : List Event} {workId : String} {work : WorkEntry}
    (h : WorkHistory es workId work) {e : Event} (hseal : sealsFor workId e = false) :
    WorkHistory (es ++ [e]) workId work where
  unsealed hnone := by
    rw [countP_concat_of_not hseal]
    exact h.unsealed hnone
  sealed plan hplan := by
    obtain ⟨hcount, e₁, he₁, hseals⟩ := h.sealed plan hplan
    exact ⟨(countP_concat_of_not hseal).trans hcount, e₁, sublist_concat e he₁, hseals⟩
  passed result hresult := by
    obtain ⟨plan, e₁, e₂, hplan, hsub, hseals, hpasses⟩ := h.passed result hresult
    exact ⟨plan, e₁, e₂, hplan, sublist_concat e hsub, hseals, hpasses⟩
  accepted hstatus := by
    obtain ⟨plan, result, e₁, e₂, e₃, hplan, hsub, hevents⟩ := h.accepted hstatus
    exact ⟨plan, result, e₁, e₂, e₃, hplan, sublist_concat e hsub, hevents⟩

/-! ## One step -/

omit [Hash256] in
private theorem getItem_status {e : Event} {new : WorkState}
    (h : (e.getItem "status" >>= WorkState.ofJson) = .ok new) :
    e.getItem "status" = .ok (.str new.value) := by
  obtain ⟨j, hj, hnew⟩ := bind_eq_ok.mp h
  rw [hj, enumOf_ok hnew]

omit [Hash256] in
private theorem accepted_of_integrated_mem {old : WorkState} (h : .integrated ∈ workNext old) :
    old = .accepted := by
  cases old <;> simp [workNext] at h ⊢

private theorem WorkHistory.transition {es : List Event} {workId : String} {work work' : WorkEntry}
    {e : Event} (h : WorkHistory es workId work) (named : e.workId = some workId)
    (kind : e.kind = some .workTransition) (update : transitionWork e work = .ok work') :
    WorkHistory (es ++ [e]) workId work' := by
  obtain ⟨hmission, new, hstatus, hlegal, hpassed, rfl⟩ := transitionWork_eq_ok.mp update
  have hbase := h.concat (e := e) (sealsFor_eq_false (by rw [kind]; simp))
  refine ⟨hbase.unsealed, hbase.sealed, hbase.passed, ?_⟩
  rintro (hnew | hnew)
  · -- the transition itself is the third event, and the digest it names stands for the others
    obtain ⟨result, hresult, hnames⟩ := hpassed hnew
    obtain ⟨plan, e₁, e₂, hplan, hsub, hseals, hpasses⟩ := h.passed result hresult
    have hstatus' : e.getItem "status" = .ok (.str WorkState.accepted.value) := by
      rw [← (hnew : new = .accepted)]
      exact getItem_status hstatus
    exact ⟨plan, result, e₁, e₂, e, hplan, concat_sublist_concat e hsub, hseals, hpasses,
      ⟨kind, hmission.symm, named, hstatus', hnames⟩⟩
  · obtain rfl : new = .integrated := hnew
    exact hbase.accepted (.inl (accepted_of_integrated_mem hlegal))

private theorem WorkHistory.sealPlan {es : List Event} {workId : String} {work work' : WorkEntry}
    {e : Event} (h : WorkHistory es workId work) (named : e.workId = some workId)
    (kind : e.kind = some .evaluationPlanSealed) (update : sealPlan e work = .ok work') :
    WorkHistory (es ++ [e]) workId work' := by
  obtain ⟨hmission, hrunning, hrole, hnone, plan, hplan, rfl⟩ := sealPlan_eq_ok.mp update
  have hcount : (es ++ [e]).countP (sealsFor workId) = 1 := by
    rw [List.countP_append, h.unsealed hnone, List.countP_singleton]
    simp [sealsFor, kind, named]
  refine ⟨fun hplan' ↦ (nomatch hplan'), fun d hd ↦ ?_, fun result hresult ↦ ?_, fun hstatus ↦ ?_⟩
  · exact ⟨hcount, e, List.sublist_append_right es [e], kind, hmission.symm, named, hrole,
      plan, hplan, Option.some.inj hd⟩
  · obtain ⟨d, _, _, hd, _⟩ := h.passed result hresult
    rw [hnone] at hd
    exact nomatch hd
  · rw [show work.status = .running from hrunning] at hstatus
    rcases hstatus with hstatus | hstatus <;> exact nomatch hstatus

private theorem WorkHistory.result {es : List Event} {workId : String} {work work' : WorkEntry}
    {e : Event} (h : WorkHistory es workId work) (named : e.workId = some workId)
    (kind : e.kind = some .evaluationResult) (update : recordResult e work = .ok work') :
    WorkHistory (es ++ [e]) workId work' := by
  obtain ⟨hmission, hawaiting, hrole, v, hv, -, hplan, hactor, rfl⟩ := recordResult_eq_ok.mp update
  have hbase := h.concat (e := e) (sealsFor_eq_false (by rw [kind]; simp))
  by_cases hstate : v.state = .passed
  · rw [if_pos hstate]
    refine ⟨hbase.unsealed, hbase.sealed, fun result hresult ↦ ?_, hbase.accepted⟩
    obtain ⟨-, e₁, he₁, hseals⟩ := h.sealed v.planDigest hplan
    exact ⟨v.planDigest, e₁, e, hplan, concat_sublist_concat e he₁, hseals, kind, hmission.symm,
      named, hrole, v, hv, hstate, rfl, hactor, Option.some.inj hresult⟩
  · rw [if_neg hstate]
    exact hbase

private theorem WorkHistory.update {es : List Event} {workId : String} {work work' : WorkEntry}
    {e : Event} (h : WorkHistory es workId work) (named : e.workId = some workId)
    (update : WorkUpdate e workId work work') : WorkHistory (es ++ [e]) workId work' := by
  cases update with
  | transition kind update => exact h.transition named kind update
  | sealPlan kind update => exact h.sealPlan named kind update
  | result kind update => exact h.result named kind update
  | bundle kind update =>
    obtain ⟨_, _, _, _, _, _, _, _, _, _, rfl⟩ := recordBundle_eq_ok.mp update
    have hbase := h.concat (e := e) (sealsFor_eq_false (by rw [kind]; simp))
    exact ⟨hbase.unsealed, hbase.sealed, hbase.passed, hbase.accepted⟩
  | roleResult kind update =>
    obtain ⟨rfl, -⟩ := eq_of_checkRoleResult update
    exact h.concat (sealsFor_eq_false (by rw [kind]; simp))

/-- A work item as it is created has nothing to say, and nothing was said of it before. -/
private theorem workHistory_proposed {es : List Event} {workId missionId : String}
    (h : es.countP (sealsFor workId) = 0) : WorkHistory es workId (.proposed missionId) where
  unsealed _ := h
  sealed _ hplan := nomatch hplan
  passed _ hresult := nomatch hresult
  accepted hstatus := by rcases hstatus with hstatus | hstatus <;> exact nomatch hstatus

private theorem History.concat {es : List Event} {s : ProjectionState} {e : Event}
    (h : History es s) (hseal : ∀ workId, sealsFor workId e = false) : History (es ++ [e]) s where
  work workId work hwork := (h.work workId work hwork).concat (hseal workId)
  absent workId hnone := (countP_concat_of_not (hseal workId)).trans (h.absent workId hnone)

/-- Putting one entry that tells the truth into the projection. -/
private theorem History.insert {es : List Event} {s : ProjectionState} {e : Event}
    (h : History es s) {workId : String} {work : WorkEntry} (named : e.workId = some workId)
    (hwork : WorkHistory (es ++ [e]) workId work) :
    History (es ++ [e]) { s with work := s.work.insert workId work } where
  work workId' work' hget := by
    rw [Maps.getElem?_insert] at hget
    by_cases heq : workId = workId'
    · subst heq
      rw [if_pos rfl] at hget
      obtain rfl := Option.some.inj hget
      exact hwork
    · rw [if_neg heq] at hget
      exact (h.work workId' work' hget).concat (sealsFor_other named heq)
  absent workId' hget := by
    rw [Maps.getElem?_insert] at hget
    by_cases heq : workId = workId'
    · rw [if_pos heq] at hget
      exact nomatch hget
    · rw [if_neg heq] at hget
      exact (countP_concat_of_not (sealsFor_other named heq)).trans (h.absent workId' hget)

private theorem History.step {es : List Event} {s s' : ProjectionState} {e : Event}
    (h : History es s) (step : ReduceStep s e s') : History (es ++ [e]) s' := by
  cases step with
  | missionCreated kind _ =>
    have hbase := h.concat (e := e) fun _ ↦ sealsFor_eq_false (by rw [kind]; simp)
    exact ⟨hbase.work, hbase.absent⟩
  | missionTransition kind =>
    have hbase := h.concat (e := e) fun _ ↦ sealsFor_eq_false (by rw [kind]; simp)
    exact ⟨hbase.work, hbase.absent⟩
  | workCreated kind workId named _ fresh _ =>
    have hseal : sealsFor workId e = false := sealsFor_eq_false (by rw [kind]; simp)
    exact h.insert named
      (workHistory_proposed ((countP_concat_of_not hseal).trans (h.absent workId fresh)))
  | workUpdated workId work work' named _ known update =>
    exact h.insert named ((h.work workId work known).update named update)
  | obligations kind =>
    exact h.concat fun _ ↦ sealsFor_eq_false (by rw [kind]; simp)

theorem history_of_reduceEvents {es : List Event} {s : ProjectionState}
    (h : reduceEvents emptyState es = .ok s) : History es s := by
  refine history_invariant History ⟨fun _ _ hwork ↦ ?_, fun _ _ ↦ rfl⟩
    (fun _ _ _ _ hist hstep ↦ hist.step (reduceEvent_eq_ok.mp hstep)) h
  simp [emptyState] at hwork

/-- **Behind accepted and integrated work stand the one sealed plan, a passed verdict on it by the
curator who signed the event, and the transition that names the verdict, in this order.** All
three events are for the item itself and for the mission it belongs to. -/
theorem accepted_history {es : List Event} {s : ProjectionState}
    (h : reduceEvents emptyState es = .ok s) {workId : String} {work : WorkEntry}
    (hwork : s.work[workId]? = some work)
    (hstatus : work.status = .accepted ∨ work.status = .integrated) :
    es.countP (sealsFor workId) = 1 ∧ ∃ plan result e₁ e₂ e₃, [e₁, e₂, e₃].Sublist es ∧
      SealsPlan e₁ work.missionId workId plan ∧ PassesPlan e₂ work.missionId workId plan result ∧
      AcceptsWork e₃ work.missionId workId result := by
  have hist := (history_of_reduceEvents h).work workId work hwork
  obtain ⟨plan, result, e₁, e₂, e₃, hplan, hsub, hevents⟩ := hist.accepted hstatus
  exact ⟨(hist.sealed plan hplan).1, plan, result, e₁, e₂, e₃, hsub, hevents⟩

/-! ## The latest passed verdict -/

omit [Hash256] in
private theorem getElem?_emptyState (workId : String) : emptyState.work[workId]? = none := by
  simp [emptyState]

omit [Hash256] in
private theorem passedDigest_eq_none {workId : String} {e : Event}
    (h : e.kind ≠ some .evaluationResult) : passedDigest workId e = none := by
  simp [passedDigest, verdictOf, h]

omit [Hash256] in
private theorem passedDigest_other {workId workId' : String} {e : Event}
    (named : e.workId = some workId) (h : workId ≠ workId') : passedDigest workId' e = none := by
  simp [passedDigest, verdictOf, named, h]

omit [Hash256] in
private theorem lastPassed_concat (workId : String) (es : List Event) (e : Event) :
    lastPassed workId (es ++ [e]) = (passedDigest workId e).or (lastPassed workId es) := by
  rw [lastPassed, List.filterMap_append, List.getLast?_append]
  cases h : passedDigest workId e <;> simp [h, lastPassed]

/-- What an update leaves as the entry's passed verdict. -/
private theorem passedEvaluationDigest_update {e : Event} {workId : String} {work work' : WorkEntry}
    (named : e.workId = some workId) (update : WorkUpdate e workId work work') :
    work'.passedEvaluationDigest =
      (passedDigest workId e).or work.passedEvaluationDigest := by
  cases update with
  | transition kind update =>
    obtain ⟨_, _, _, _, _, rfl⟩ := transitionWork_eq_ok.mp update
    rw [passedDigest_eq_none (by rw [kind]; simp), Option.none_or]
  | sealPlan kind update =>
    obtain ⟨_, _, _, _, _, _, rfl⟩ := sealPlan_eq_ok.mp update
    rw [passedDigest_eq_none (by rw [kind]; simp), Option.none_or]
  | result kind update =>
    obtain ⟨_, _, _, v, hv, _, _, _, rfl⟩ := recordResult_eq_ok.mp update
    have hdigest : passedDigest workId e =
        if v.state = .passed then some v.resultDigest else none := by
      rw [passedDigest, verdictOf, if_pos ⟨kind, named⟩, hv]
      rfl
    rw [hdigest]
    by_cases hstate : v.state = .passed <;> simp [hstate]
  | bundle kind update =>
    obtain ⟨_, _, _, _, _, _, _, _, _, _, rfl⟩ := recordBundle_eq_ok.mp update
    rw [passedDigest_eq_none (by rw [kind]; simp), Option.none_or]
  | roleResult kind update =>
    obtain ⟨rfl, -⟩ := eq_of_checkRoleResult update
    rw [passedDigest_eq_none (by rw [kind]; simp), Option.none_or]

/-- The passed verdict that the projection has for a work item. -/
def ProjectionState.passedVerdict (s : ProjectionState) (workId : String) : Option String :=
  s.work[workId]?.bind WorkEntry.passedEvaluationDigest

private theorem passedVerdict_step {s s' : ProjectionState} {e : Event} (step : ReduceStep s e s')
    (workId : String) :
    s'.passedVerdict workId = (passedDigest workId e).or (s.passedVerdict workId) := by
  cases step with
  | missionCreated kind | missionTransition kind =>
    rw [passedDigest_eq_none (by rw [kind]; simp), Option.none_or]
    rfl
  | obligations kind => rw [passedDigest_eq_none (by rw [kind]; simp), Option.none_or]
  | workCreated kind workId' named _ fresh =>
    rw [passedDigest_eq_none (by rw [kind]; simp), Option.none_or]
    by_cases heq : workId' = workId
    · simp [ProjectionState.passedVerdict, ← heq, fresh, WorkEntry.proposed]
    · simp [ProjectionState.passedVerdict, Maps.getElem?_insert, heq]
  | workUpdated workId' work work' named _ known update =>
    by_cases heq : workId' = workId
    · subst heq
      simp [ProjectionState.passedVerdict, known, passedEvaluationDigest_update named update]
    · simp [ProjectionState.passedVerdict, Maps.getElem?_insert, heq, passedDigest_other named heq]

/-- The projection remembers exactly the latest passed verdict. -/
theorem passedVerdict_eq_lastPassed {es : List Event} {s : ProjectionState}
    (h : reduceEvents emptyState es = .ok s) (workId : String) :
    s.passedVerdict workId = lastPassed workId es := by
  refine history_invariant (fun es s ↦ s.passedVerdict workId = lastPassed workId es)
    ?_ (fun es s e s' hinv hstep ↦ ?_) h
  · rw [ProjectionState.passedVerdict, getElem?_emptyState]
    rfl
  · rw [passedVerdict_step (reduceEvent_eq_ok.mp hstep), hinv, lastPassed_concat]

/-- A verdict other than a passed one leaves the projection as it was. -/
theorem eq_of_reduceEvent_verdict {s s' : ProjectionState} {e : Event} {v : EvaluationResult}
    (kind : e.kind = some .evaluationResult) (hv : evaluationOf e = .ok v)
    (hstate : v.state ≠ .passed) (h : reduceEvent s e = .ok s') : s' = s := by
  cases reduceEvent_eq_ok.mp h with
  | missionCreated kind' | missionTransition kind' | workCreated kind' =>
    rw [kind] at kind'
    exact nomatch kind'
  | obligations => rfl
  | workUpdated workId work work' named _ known update =>
    cases update with
    | transition kind' | sealPlan kind' | bundle kind' | roleResult kind' =>
      rw [kind] at kind'
      exact nomatch kind'
    | result _ update =>
      obtain ⟨_, _, _, v', hv', _, _, _, rfl⟩ := recordResult_eq_ok.mp update
      rw [hv] at hv'
      obtain rfl := Except.ok.inj hv'
      rw [if_neg hstate]
      refine ProjectionState.ext_getElem? (fun _ ↦ rfl) fun workId' ↦ ?_
      rw [Maps.getElem?_insert]
      split
      · next heq => rw [← heq, known]
      · rfl

/-- A transition event to accepted for a work item is legal exactly when the item is of the event's
mission, awaits verification, and its passed verdict is the one the event names. -/
private theorem reduceEvent_accepted_iff {s : ProjectionState} {e : Event} {workId : String}
    (kind : e.kind = some .workTransition) (named : e.workId = some workId)
    (status : e.getItem "status" = .ok (.str WorkState.accepted.value)) :
    (∃ s', reduceEvent s e = .ok s') ↔
      workId ≠ "" ∧ ∃ work result, s.work[workId]? = some work ∧ work.missionId = e.missionId ∧
        work.status = .awaitingVerification ∧ work.passedEvaluationDigest = some result ∧
        e.get "evaluation_result_digest" = .str result := by
  have hstatus : (e.getItem "status" >>= WorkState.ofJson) = .ok .accepted :=
    bind_eq_ok.mpr ⟨_, status, rfl⟩
  constructor
  · rintro ⟨s', h⟩
    cases reduceEvent_eq_ok.mp h with
    | missionCreated kind' | missionTransition kind' | workCreated kind' | obligations kind' =>
      rw [kind] at kind'
      exact nomatch kind'
    | workUpdated workId' work work' named' nonempty known update =>
      rw [named] at named'
      obtain rfl := Option.some.inj named'
      cases update with
      | sealPlan kind' | result kind' | bundle kind' | roleResult kind' =>
        rw [kind] at kind'
        exact nomatch kind'
      | transition _ update =>
        obtain ⟨hmission, new, hnew, hlegal, hpassed, -⟩ := transitionWork_eq_ok.mp update
        rw [hstatus] at hnew
        obtain rfl := Except.ok.inj hnew
        obtain ⟨result, hresult, hnames⟩ := hpassed rfl
        have hawaiting : work.status = .awaitingVerification := by
          generalize work.status = old at hlegal ⊢
          cases old <;> simp [workNext] at hlegal ⊢
        exact ⟨nonempty, work, result, known, hmission, hawaiting, hresult, hnames⟩
  · rintro ⟨nonempty, work, result, known, hmission, hawaiting, hresult, hnames⟩
    have hupdate : transitionWork e work = .ok { work with status := .accepted } :=
      transitionWork_eq_ok.mpr ⟨hmission, .accepted, hstatus, by rw [hawaiting]; simp [workNext],
        fun _ ↦ ⟨result, hresult, hnames⟩, rfl⟩
    exact ⟨_, reduceEvent_eq_ok.mpr
      (.workUpdated workId work _ named nonempty known (.transition kind hupdate))⟩

/-- **After any accepted history, a transition to accepted is legal exactly for an item of the
event's mission that awaits verification and whose latest passed verdict the event names; and a
verdict other than a passed one leaves the projection, and with it that verdict, as it was.** -/
theorem transition_to_accepted_iff {es : List Event} {s : ProjectionState}
    (h : reduceEvents emptyState es = .ok s) (e : Event) (workId : String)
    (named : e.workId = some workId) :
    (e.kind = some .workTransition → e.getItem "status" = .ok (.str WorkState.accepted.value) →
      ((∃ s', reduceEvent s e = .ok s') ↔
        workId ≠ "" ∧ ∃ work result, s.work[workId]? = some work ∧ work.missionId = e.missionId ∧
          work.status = .awaitingVerification ∧ lastPassed workId es = some result ∧
          e.get "evaluation_result_digest" = .str result)) ∧
    (e.kind = some .evaluationResult → ∀ v, evaluationOf e = .ok v → v.state ≠ .passed →
      ∀ s', reduceEvent s e = .ok s' → s' = s) := by
  refine ⟨fun kind status ↦ ?_, fun kind v hv hstate s' hs' ↦
    eq_of_reduceEvent_verdict kind hv hstate hs'⟩
  rw [reduceEvent_accepted_iff kind named status, ← passedVerdict_eq_lastPassed h]
  refine and_congr_right fun _ ↦ exists₂_congr fun work result ↦ and_congr_right fun known ↦ ?_
  rw [ProjectionState.passedVerdict, known, Option.bind_some]

/-! ## The life of a work item

For every sealed plan and every list of verdicts on it that contains a passed one, there is a
history that ends in acceptance. It names the latest passed verdict, whatever verdicts follow. -/

section Lifecycle

variable (missionId workId : String)

def lifecycleEvent (eventId eventType actorId role : String) (payload : List (String × Json)) :
    Event :=
  ⟨⟨eventId, missionId, eventType, actorId, "2026-01-01T00:00:00Z", some workId, none, some role,
    1⟩, payload⟩

def transitionEvent (new : WorkState) : Event :=
  lifecycleEvent missionId workId new.value "work.transition" "orchestrator" "orchestrator"
    [("status", .str new.value)]

def acceptEvent (result : String) : Event :=
  lifecycleEvent missionId workId WorkState.accepted.value "work.transition" "orchestrator"
    "orchestrator" [("evaluation_result_digest", .str result),
      ("status", .str WorkState.accepted.value)]

def sealEvent (plan : EvaluationPlan) (files : List (String × Json)) : Event :=
  lifecycleEvent missionId workId plan.planDigest "evaluation.plan.sealed" "architect" "architect"
    [("base", .obj [("files", .obj files), ("root_digest", .str plan.baseTreeDigest)]),
      ("plan", .obj plan.document)]

def verdictEvent (v : EvaluationResult) : Event :=
  lifecycleEvent missionId workId v.resultDigest "evaluation.result" v.evaluatorId "curator"
    [("result", .obj v.document)]

/-- The events of a work item from its mission's creation until it runs. -/
def lifecycleRunning : List Event :=
  [lifecycleEvent missionId workId "mission" "mission.created" "orchestrator" "orchestrator" [],
    lifecycleEvent missionId workId "work" "work.created" "orchestrator" "orchestrator" [],
    transitionEvent missionId workId .ready, transitionEvent missionId workId .leased,
    transitionEvent missionId workId .running]

/-- The same up to the start of its verification, with the plan sealed on the way. -/
def lifecycleStart (plan : EvaluationPlan) (files : List (String × Json)) : List Event :=
  lifecycleRunning missionId workId ++ [sealEvent missionId workId plan files,
    transitionEvent missionId workId .awaitingVerification]

/-- The same with the verdicts that follow. -/
def lifecycle (plan : EvaluationPlan) (files : List (String × Json))
    (verdicts : List EvaluationResult) : List Event :=
  lifecycleStart missionId workId plan files ++ verdicts.map (verdictEvent missionId workId)

/-- The digest of the latest passed verdict of a list. -/
def latestPassed (verdicts : List EvaluationResult) : Option String :=
  ((verdicts.filter fun v ↦ v.state = .passed).map EvaluationResult.resultDigest).getLast?

/-- The projection of one mission with one work item. -/
def oneItem (work : WorkEntry) : ProjectionState :=
  ⟨(∅ : ExtTreeMap String MissionState).insert missionId .created,
    (∅ : ExtTreeMap String WorkEntry).insert workId work⟩

end Lifecycle

/-- A plan whose digest binds it and whose base tree is the given manifest. -/
structure SealedOver (plan : EvaluationPlan) (files : List (String × Json)) : Prop where
  state : plan.state = .sealed
  digest : plan.planDigest = jsonDigest plan.bound
  base : plan.baseTreeDigest = jsonDigest (.obj [("files", .obj files)])
  paths : ∀ x ∈ plan.allowedTestPaths, isPortablePath x

/-- A verdict whose digest binds it and that is about the given plan. -/
structure VerdictOn (plan : EvaluationPlan) (v : EvaluationResult) : Prop where
  digest : v.resultDigest = jsonDigest v.bound
  plan : v.planDigest = plan.planDigest

section Lifecycle

variable {missionId workId : String}

private theorem sealedPlan_sealEvent {plan : EvaluationPlan} {files : List (String × Json)}
    (h : SealedOver plan files) : sealedPlan (sealEvent missionId workId plan files) = .ok plan := by
  simp [sealedPlan, sealEvent, lifecycleEvent, Event.get, Json.lookup_cons,
    fromDocument_document plan h.paths, Except.toOption, orRaise, h.state, ← h.digest, ← h.base,
    pure_eq_ok]

omit [Hash256] in
private theorem evaluationOf_verdictEvent (v : EvaluationResult) :
    evaluationOf (verdictEvent missionId workId v) = .ok v := by
  have hchecks : v.document.lookup "check_results" = some (.arr v.checkResults) := by
    simp [EvaluationResult.document, Json.lookup_cons]
  have hrefs : v.document.lookup "evidence_refs" = some (.arr v.evidenceRefs) := by
    simp [EvaluationResult.document, Json.lookup_cons]
  simp [evaluationOf, verdictEvent, lifecycleEvent, Event.get, hchecks, hrefs, pyTuple,
    ofMembers_document, orRaise]

omit [Hash256] in
private theorem oneItem_insert (work work' : WorkEntry) :
    { oneItem missionId workId work with
      work := (oneItem missionId workId work).work.insert workId work' } =
      oneItem missionId workId work' := by
  refine ProjectionState.ext_getElem? (fun _ ↦ rfl) fun workId' ↦ ?_
  simp only [oneItem, Maps.getElem?_insert]
  split <;> rfl

/-- A step of the one work item. -/
theorem reduceEvent_oneItem {e : Event} {work work' : WorkEntry}
    (named : e.workId = some workId) (nonempty : workId ≠ "")
    (update : WorkUpdate e workId work work') :
    reduceEvent (oneItem missionId workId work) e = .ok (oneItem missionId workId work') := by
  rw [← oneItem_insert work work']
  exact reduceEvent_eq_ok.mpr
    (.workUpdated workId work work' named nonempty (by simp [oneItem]) update)

omit [Hash256] in
private theorem transitionWork_transitionEvent {work : WorkEntry} {new : WorkState}
    (hmission : work.missionId = missionId) (hlegal : new ∈ workNext work.status)
    (hne : new ≠ .accepted) :
    transitionWork (transitionEvent missionId workId new) work =
      .ok { work with status := new } := by
  refine transitionWork_eq_ok.mpr ⟨hmission, new, ?_, hlegal, fun h ↦ absurd h hne, rfl⟩
  cases new <;> rfl

omit [Hash256] in
private theorem latestPassed_cons (v : EvaluationResult) (verdicts : List EvaluationResult) :
    latestPassed (v :: verdicts) =
      (latestPassed verdicts).or (if v.state = .passed then some v.resultDigest else none) := by
  rw [latestPassed]
  by_cases hstate : v.state = .passed
  · rw [List.filter_cons_of_pos (by simpa using hstate), List.map_cons, List.getLast?_cons,
      if_pos hstate]
    cases h : latestPassed verdicts <;> rw [latestPassed] at h <;> rw [h] <;> rfl
  · rw [List.filter_cons_of_neg (by simpa using hstate), if_neg hstate, Option.or_none]
    rfl

private theorem reduceEvents_verdicts {plan : EvaluationPlan} {verdicts : List EvaluationResult}
    (nonempty : workId ≠ "") (hverdicts : ∀ v ∈ verdicts, VerdictOn plan v) {work : WorkEntry}
    (hmission : work.missionId = missionId) (hawaiting : work.status = .awaitingVerification)
    (hplan : work.evaluationPlanDigest = some plan.planDigest) :
    reduceEvents (oneItem missionId workId work) (verdicts.map (verdictEvent missionId workId)) =
      .ok (oneItem missionId workId { work with
        passedEvaluationDigest := (latestPassed verdicts).or work.passedEvaluationDigest }) := by
  induction verdicts generalizing work with
  | nil => rfl
  | cons v verdicts ih =>
    have hv := hverdicts v List.mem_cons_self
    have hupdate : recordResult (verdictEvent missionId workId v) work = .ok
        (if v.state = .passed then { work with passedEvaluationDigest := some v.resultDigest }
          else work) :=
      recordResult_eq_ok.mpr ⟨hmission, hawaiting, rfl, v, evaluationOf_verdictEvent v, hv.digest,
        by rw [hplan, hv.plan], rfl, rfl⟩
    have hrest := fun v' hv' ↦ hverdicts v' (List.mem_cons_of_mem v hv')
    refine foldlM_cons_eq_ok.mpr ⟨_, reduceEvent_oneItem rfl nonempty (.result rfl hupdate), ?_⟩
    by_cases hstate : v.state = .passed
    · rw [if_pos hstate, latestPassed_cons, if_pos hstate, Option.or_assoc, Option.some_or]
      exact ih hrest hmission hawaiting hplan
    · rw [if_neg hstate, latestPassed_cons, if_neg hstate, Option.or_none]
      exact ih hrest hmission hawaiting hplan

theorem reduceEvent_transitionEvent {work : WorkEntry} (old new : WorkState)
    (nonempty : workId ≠ "") (hmission : work.missionId = missionId) (hstatus : work.status = old)
    (hlegal : new ∈ workNext old) (hne : new ≠ .accepted) :
    reduceEvent (oneItem missionId workId work) (transitionEvent missionId workId new) =
      .ok (oneItem missionId workId { work with status := new }) :=
  reduceEvent_oneItem rfl nonempty (.transition rfl
    (transitionWork_transitionEvent hmission (by rw [hstatus]; exact hlegal) hne))

theorem reduceEvents_lifecycleRunning (nonempty : workId ≠ "") :
    reduceEvents emptyState (lifecycleRunning missionId workId) =
      .ok (oneItem missionId workId ⟨missionId, .running, none, none, none⟩) := by
  have hcreated : ReduceStep emptyState (lifecycleEvent missionId workId "mission"
      "mission.created" "orchestrator" "orchestrator" [])
      ⟨(∅ : ExtTreeMap String MissionState).insert missionId .created, ∅⟩ :=
    .missionCreated rfl (by simp [emptyState])
  have hproposed : ReduceStep ⟨(∅ : ExtTreeMap String MissionState).insert missionId .created, ∅⟩
      (lifecycleEvent missionId workId "work" "work.created" "orchestrator" "orchestrator" [])
      (oneItem missionId workId (.proposed missionId)) :=
    .workCreated rfl workId rfl nonempty (by simp) (by simp [lifecycleEvent])
  refine foldlM_cons_eq_ok.mpr ⟨_, reduceEvent_eq_ok.mpr hcreated, ?_⟩
  refine foldlM_cons_eq_ok.mpr ⟨_, reduceEvent_eq_ok.mpr hproposed, ?_⟩
  refine foldlM_cons_eq_ok.mpr ⟨_, reduceEvent_transitionEvent .proposed .ready nonempty rfl rfl
    (by decide) (by decide), ?_⟩
  refine foldlM_cons_eq_ok.mpr ⟨_, reduceEvent_transitionEvent .ready .leased nonempty rfl rfl
    (by decide) (by decide), ?_⟩
  refine foldlM_cons_eq_ok.mpr ⟨_, reduceEvent_transitionEvent .leased .running nonempty rfl rfl
    (by decide) (by decide), ?_⟩
  rfl

private theorem reduceEvents_lifecycleStart {plan : EvaluationPlan} {files : List (String × Json)}
    (nonempty : workId ≠ "") (hplan : SealedOver plan files) :
    reduceEvents emptyState (lifecycleStart missionId workId plan files) =
      .ok (oneItem missionId workId
        ⟨missionId, .awaitingVerification, some plan.planDigest, none, none⟩) := by
  have hseal : sealPlan (sealEvent missionId workId plan files) ⟨missionId, .running, none, none,
      none⟩ = .ok ⟨missionId, .running, some plan.planDigest, none, none⟩ :=
    sealPlan_eq_ok.mpr ⟨rfl, rfl, rfl, rfl, plan, sealedPlan_sealEvent hplan, rfl⟩
  refine foldlM_append_eq_ok.mpr ⟨_, reduceEvents_lifecycleRunning nonempty, ?_⟩
  refine foldlM_cons_eq_ok.mpr ⟨_, reduceEvent_oneItem rfl nonempty (.sealPlan rfl hseal), ?_⟩
  refine foldlM_cons_eq_ok.mpr ⟨_, reduceEvent_transitionEvent .running .awaitingVerification nonempty rfl rfl
    (by decide) (by decide), ?_⟩
  rfl

theorem reduceEvents_lifecycle {plan : EvaluationPlan} {files : List (String × Json)}
    {verdicts : List EvaluationResult} (nonempty : workId ≠ "") (hplan : SealedOver plan files)
    (hverdicts : ∀ v ∈ verdicts, VerdictOn plan v) :
    reduceEvents emptyState (lifecycle missionId workId plan files verdicts) =
      .ok (oneItem missionId workId ⟨missionId, .awaitingVerification, some plan.planDigest,
        latestPassed verdicts, none⟩) := by
  refine foldlM_append_eq_ok.mpr ⟨_, reduceEvents_lifecycleStart nonempty hplan, ?_⟩
  rw [← Option.or_none (o := latestPassed verdicts)]
  exact reduceEvents_verdicts nonempty hverdicts rfl rfl rfl

/-- **Work whose verdicts include a passed one can be accepted on the latest passed one, whatever
verdicts come after it.** -/
theorem lifecycle_accepted {plan : EvaluationPlan} {files : List (String × Json)}
    {verdicts : List EvaluationResult} {result : String} (nonempty : workId ≠ "")
    (hplan : SealedOver plan files) (hverdicts : ∀ v ∈ verdicts, VerdictOn plan v)
    (hresult : latestPassed verdicts = some result) :
    reduceEvents emptyState (lifecycle missionId workId plan files verdicts ++
      [acceptEvent missionId workId result]) =
      .ok (oneItem missionId workId ⟨missionId, .accepted, some plan.planDigest, some result,
        none⟩) := by
  refine foldlM_concat_eq_ok.mpr ⟨_, reduceEvents_lifecycle nonempty hplan hverdicts, ?_⟩
  refine reduceEvent_oneItem rfl nonempty (.transition rfl (transitionWork_eq_ok.mpr
    ⟨rfl, .accepted, rfl, by simp [workNext], fun _ ↦ ⟨result, hresult, rfl⟩, ?_⟩))
  rw [hresult]

omit [Hash256] in
theorem lastVerdict_lifecycle (plan : EvaluationPlan) (files : List (String × Json))
    (verdicts : List EvaluationResult) :
    lastVerdict workId (lifecycle missionId workId plan files verdicts) = verdicts.getLast? := by
  have hstart : (lifecycleStart missionId workId plan files).filterMap (verdictOf workId) = [] := by
    rw [List.filterMap_eq_nil_iff]
    intro e he
    simp only [lifecycleStart, lifecycleRunning, List.cons_append, List.nil_append, List.mem_cons,
      List.not_mem_nil, or_false] at he
    rcases he with rfl | rfl | rfl | rfl | rfl | rfl | rfl <;> rfl
  have hverdict : ∀ v, verdictOf workId (verdictEvent missionId workId v) = some v := by
    intro v
    rw [verdictOf, if_pos ⟨rfl, rfl⟩, evaluationOf_verdictEvent]
    rfl
  rw [lastVerdict, lifecycle, List.filterMap_append, hstart, List.nil_append, List.filterMap_map]
  congr 1
  induction verdicts with
  | nil => rfl
  | cons v verdicts ih =>
    rw [List.filterMap_cons, Function.comp_apply, hverdict v, ih]

end Lifecycle

end Histories

/-! ## A concrete history -/

section Example

variable [Hash256]

/-- A plan over an empty base tree. -/
def examplePlan : EvaluationPlan :=
  EvaluationPlan.seal ⟨"PLAN-1", String.ofList (List.replicate 40 'a'),
    jsonDigest (.obj [("files", .obj [])]), ["make test"], [], [], [], [], [], [], "json", [],
    ⟨0, 0, 0, 0, 0, 0, 0, 0⟩, .sealed, jsonDigest .null,
    by decide +kernel, by decide +kernel, isDigest_jsonDigest _, by simp, by simp,
    isDigest_jsonDigest _, by decide +kernel⟩

def exampleVerdict (state : EvaluationState) : EvaluationResult :=
  EvaluationResult.seal ⟨examplePlan.planDigest, jsonDigest .null, "CURATOR-1", state, [], [],
    jsonDigest .null, examplePlan.valid.2.2.2.2.2.1, isDigest_jsonDigest _, isDigest_jsonDigest _,
    by decide +kernel⟩

theorem sealedOver_examplePlan : SealedOver examplePlan [] where
  state := rfl
  digest := EvaluationPlan.planDigest_seal _
  base := by simp only [examplePlan, EvaluationPlan.seal]
  paths := by simp [examplePlan, EvaluationPlan.seal]

theorem verdictOn_exampleVerdict (state : EvaluationState) :
    VerdictOn examplePlan (exampleVerdict state) where
  digest := EvaluationResult.resultDigest_seal _
  plan := by simp only [exampleVerdict, EvaluationResult.seal]

end Example

theorem accepted_history_examplePlan :
    let es := lifecycle "MISSION-1" "WORK-1" examplePlan [] [exampleVerdict .passed] ++
      [acceptEvent "MISSION-1" "WORK-1" (exampleVerdict .passed).resultDigest]
    es.countP (sealsFor "WORK-1") = 1 ∧ ∃ plan result e₁ e₂ e₃, [e₁, e₂, e₃].Sublist es ∧
      SealsPlan e₁ "MISSION-1" "WORK-1" plan ∧ PassesPlan e₂ "MISSION-1" "WORK-1" plan result ∧
      AcceptsWork e₃ "MISSION-1" "WORK-1" result := by
  intro es
  have hrun : reduceEvents emptyState es = .ok (oneItem "MISSION-1" "WORK-1"
      ⟨"MISSION-1", .accepted, some examplePlan.planDigest,
        some (exampleVerdict .passed).resultDigest, none⟩) :=
    lifecycle_accepted (by decide) sealedOver_examplePlan
      (by simpa using verdictOn_exampleVerdict .passed) rfl
  exact accepted_history hrun (by rw [oneItem, Maps.getElem?_insert, if_pos rfl]) (.inl rfl)

private theorem verdictOn_passed_failed :
    ∀ v ∈ [exampleVerdict .passed, exampleVerdict .failed], VerdictOn examplePlan v := by
  simpa using ⟨verdictOn_exampleVerdict .passed, verdictOn_exampleVerdict .failed⟩

theorem transition_to_accepted_examplePlan :
    ∃ s s', reduceEvents emptyState (lifecycle "MISSION-1" "WORK-1" examplePlan []
        [exampleVerdict .passed, exampleVerdict .failed]) = .ok s ∧
      reduceEvent s (acceptEvent "MISSION-1" "WORK-1" (exampleVerdict .passed).resultDigest) =
        .ok s' := by
  have hrun : reduceEvents emptyState (lifecycle "MISSION-1" "WORK-1" examplePlan []
      [exampleVerdict .passed, exampleVerdict .failed]) = _ :=
    reduceEvents_lifecycle (by decide) sealedOver_examplePlan verdictOn_passed_failed
  have hpassed := passedVerdict_eq_lastPassed hrun "WORK-1"
  rw [ProjectionState.passedVerdict, oneItem, Maps.getElem?_insert, if_pos rfl] at hpassed
  have hiff := (transition_to_accepted_iff hrun
    (acceptEvent "MISSION-1" "WORK-1" (exampleVerdict .passed).resultDigest) "WORK-1" rfl).1 rfl rfl
  obtain ⟨s', hs'⟩ := hiff.mpr ⟨by decide, _, (exampleVerdict .passed).resultDigest,
    by rw [oneItem, Maps.getElem?_insert, if_pos rfl], rfl, rfl, hpassed.symm, rfl⟩
  exact ⟨_, s', hrun, hs'⟩

/-- A verdict that fails after one that passed does not stand in the way of acceptance. -/
theorem accepted_after_failed_verdict :
    ¬∀ (es : List Event) (s : ProjectionState), reduceEvents emptyState es = .ok s →
      ∀ pre e post workId, es = pre ++ e :: post → e.kind = some .workTransition →
        e.workId = some workId → e.getItem "status" = .ok (.str WorkState.accepted.value) →
        ∀ v, lastVerdict workId pre = some v → v.state = .passed := by
  intro h
  have hrun : reduceEvents emptyState (lifecycle "MISSION-1" "WORK-1" examplePlan []
      [exampleVerdict .passed, exampleVerdict .failed] ++
      [acceptEvent "MISSION-1" "WORK-1" (exampleVerdict .passed).resultDigest]) = _ :=
    lifecycle_accepted (by decide) sealedOver_examplePlan verdictOn_passed_failed rfl
  have hstate := h _ _ hrun _ _ [] "WORK-1" rfl rfl rfl rfl (exampleVerdict .failed)
    (lastVerdict_lifecycle _ _ _)
  exact nomatch hstate

end HiveMind
