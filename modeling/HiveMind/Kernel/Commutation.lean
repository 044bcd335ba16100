import HiveMind.Kernel.Projection

/-!
# Missions do not interfere

Work items are named globally, but an event reads and writes only the status of its own mission and
the one work item it is about, which has to be its own mission's. So events of different missions
commute, and a projection depends on each mission's own subsequence of the history and on nothing
else (**`missions_commute`**).

The reducer is not unfolded again. `ReduceStep.frame` says what an accepted event leaves alone,
`ReduceStep.owns` whose work item it is about, and `ReduceStep.transfer` moves an accepted event to
another projection that agrees on what the event reads.
-/

open Std (ExtTreeMap)
open Raise Trace

namespace HiveMind

/-- The work item that an event is about. Events of the other kinds may carry a work id, but the
reducer ignores it. -/
def Event.target (e : Event) : Option String :=
  match e.kind with
  | some .workCreated | some .workTransition | some .evaluationPlanSealed
  | some .evaluationResult | some .evaluationBundleRecorded | some .roleResult => e.workId
  | _ => none

section Steps

variable [Hash256] {s s' t : ProjectionState} {e : Event}

private theorem WorkUpdate.target {workId : String} {work work' : WorkEntry}
    (h : WorkUpdate e workId work work') : e.target = e.workId := by
  cases h with
  | transition kind | sealPlan kind | result kind | bundle kind | roleResult kind =>
    rw [Event.target, kind]

/-- What an accepted event leaves alone. -/
theorem ReduceStep.frame (h : ReduceStep s e s') :
    (∀ m, e.missionId ≠ m → s'.missions[m]? = s.missions[m]?) ∧
      ∀ w, e.target ≠ some w → s'.work[w]? = s.work[w]? := by
  cases h with
  | missionCreated | missionTransition =>
    refine ⟨fun m hm ↦ ?_, fun _ _ ↦ rfl⟩
    rw [Maps.getElem?_insert, if_neg hm]
  | workCreated kind workId named =>
    refine ⟨fun _ _ ↦ rfl, fun w hw ↦ ?_⟩
    have htarget : e.target = some workId := by rw [Event.target, kind, named]
    rw [Maps.getElem?_insert, if_neg fun heq ↦ hw (by rw [htarget, heq])]
  | workUpdated workId _ _ named _ _ update =>
    refine ⟨fun _ _ ↦ rfl, fun w hw ↦ ?_⟩
    rw [Maps.getElem?_insert, if_neg fun heq ↦ hw (by rw [update.target, named, heq])]
  | obligations => exact ⟨fun _ _ ↦ rfl, fun _ _ ↦ rfl⟩

/-- The work item that an accepted event is about is its own mission's: before, if it was there, and
after. -/
theorem ReduceStep.owns (h : ReduceStep s e s') {w : String} (hw : e.target = some w) :
    (∀ work, s.work[w]? = some work → work.missionId = e.missionId) ∧
      ∃ work, s'.work[w]? = some work ∧ work.missionId = e.missionId := by
  cases h with
  | missionCreated kind | missionTransition kind | obligations kind =>
    rw [Event.target, kind] at hw
    exact nomatch hw
  | workCreated kind workId named _ fresh =>
    rw [Event.target, kind, named] at hw
    obtain rfl := Option.some.inj hw
    refine ⟨fun work hwork ↦ ?_, .proposed e.missionId, ?_, rfl⟩
    · rw [fresh] at hwork
      exact nomatch hwork
    · rw [Maps.getElem?_insert, if_pos rfl]
  | workUpdated workId work work' named _ known update =>
    rw [update.target, named] at hw
    obtain rfl := Option.some.inj hw
    obtain ⟨hmission, hkeep⟩ := update.missionId
    refine ⟨fun _ hwork ↦ ?_, work', ?_, hkeep.trans hmission⟩
    · rw [known] at hwork
      obtain rfl := Option.some.inj hwork
      exact hmission
    · rw [Maps.getElem?_insert, if_pos rfl]

/-- An accepted event is accepted by every projection that agrees on what the event reads, and does
the same there. -/
theorem ReduceStep.transfer (h : ReduceStep s e s')
    (hmission : t.missions[e.missionId]? = s.missions[e.missionId]?)
    (hwork : ∀ w, e.target = some w → t.work[w]? = s.work[w]?) :
    ∃ t', ReduceStep t e t' ∧ t'.missions[e.missionId]? = s'.missions[e.missionId]? ∧
      ∀ w, e.target = some w → t'.work[w]? = s'.work[w]? := by
  have hknown : e.missionId ∈ s.missions → e.missionId ∈ t.missions := by
    intro hmem
    rw [ExtTreeMap.mem_iff_isSome_getElem?] at hmem ⊢
    rwa [hmission]
  cases h with
  | missionCreated kind fresh =>
    refine ⟨_, .missionCreated kind (hmission.trans fresh), ?_, hwork⟩
    simp only [Maps.getElem?_insert, if_true]
  | missionTransition kind old new known status legal =>
    refine ⟨_, .missionTransition kind old new (hmission.trans known) status legal, ?_, hwork⟩
    simp only [Maps.getElem?_insert, if_true]
  | workCreated kind workId named nonempty fresh mission =>
    have htarget : e.target = some workId := by rw [Event.target, kind, named]
    refine ⟨_, .workCreated kind workId named nonempty ((hwork workId htarget).trans fresh)
      (hknown mission), hmission, fun w hw ↦ ?_⟩
    simp only [Maps.getElem?_insert, hwork w hw]
  | workUpdated workId work work' named nonempty known update =>
    have htarget : e.target = some workId := update.target.trans named
    refine ⟨_, .workUpdated workId work work' named nonempty ((hwork workId htarget).trans known)
      update, hmission, fun w hw ↦ ?_⟩
    simp only [Maps.getElem?_insert, hwork w hw]
  | obligations kind mission role payload =>
    exact ⟨t, .obligations kind (hknown mission) role payload, hmission, hwork⟩

/-- Two accepted events of different missions are about different work items. -/
private theorem target_ne {s₁ s₂ : ProjectionState} {e₁ e₂ : Event}
    (hne : e₁.missionId ≠ e₂.missionId) (h₁ : ReduceStep s e₁ s₁) (h₂ : ReduceStep s₁ e₂ s₂)
    {w : String} (hw : e₁.target = some w) : e₂.target ≠ some w := by
  intro hw'
  obtain ⟨-, work, hwork, hmission⟩ := h₁.owns hw
  exact hne (hmission.symm.trans ((h₂.owns hw').1 work hwork))

/-- Accepted events of different missions are accepted in the other order, with the same result. -/
theorem ReduceStep.comm {s₁ s₂ : ProjectionState} {e₁ e₂ : Event}
    (hne : e₁.missionId ≠ e₂.missionId) (h₁ : ReduceStep s e₁ s₁) (h₂ : ReduceStep s₁ e₂ s₂) :
    ∃ t, ReduceStep s e₂ t ∧ ReduceStep t e₁ s₂ := by
  have htarget : ∀ w, e₂.target = some w → e₁.target ≠ some w :=
    fun w hw hw' ↦ target_ne hne h₁ h₂ hw' hw
  obtain ⟨t₁, hstep₁, hm₁, hw₁⟩ := h₂.transfer (h₁.frame.1 _ hne).symm
    fun w hw ↦ (h₁.frame.2 w (htarget w hw)).symm
  obtain ⟨t₂, hstep₂, hm₂, hw₂⟩ := h₁.transfer (hstep₁.frame.1 _ hne.symm)
    fun w hw ↦ hstep₁.frame.2 w (target_ne hne h₁ h₂ hw)
  suffices heq : t₂ = s₂ by
    rw [heq] at hstep₂
    exact ⟨t₁, hstep₁, hstep₂⟩
  refine ProjectionState.ext_getElem? (fun m ↦ ?_) fun w ↦ ?_
  · by_cases hm : e₁.missionId = m
    · rw [← hm, hm₂, h₂.frame.1 _ hne.symm]
    · rw [hstep₂.frame.1 m hm]
      by_cases hm' : e₂.missionId = m
      · rw [← hm', hm₁]
      · rw [hstep₁.frame.1 m hm', h₂.frame.1 m hm', h₁.frame.1 m hm]
  · by_cases hw : e₁.target = some w
    · rw [hw₂ w hw, h₂.frame.2 w (target_ne hne h₁ h₂ hw)]
    · rw [hstep₂.frame.2 w hw]
      by_cases hw' : e₂.target = some w
      · rw [hw₁ w hw']
      · rw [hstep₁.frame.2 w hw', h₂.frame.2 w hw', h₁.frame.2 w hw]

private theorem commutes_reduceEvent {e₁ e₂ : Event} (hne : e₁.missionId ≠ e₂.missionId) :
    Commutes reduceEvent e₁ e₂ := by
  intro s s₂ h
  obtain ⟨s₁, h₁, h⟩ := foldlM_cons_eq_ok.mp h
  obtain ⟨_, h₂, h⟩ := foldlM_cons_eq_ok.mp h
  obtain rfl := foldlM_nil_eq_ok.mp h
  obtain ⟨t, ht, ht₂⟩ := (reduceEvent_eq_ok.mp h₁).comm hne (reduceEvent_eq_ok.mp h₂)
  exact foldlM_cons_eq_ok.mpr ⟨t, reduceEvent_eq_ok.mpr ht,
    foldlM_cons_eq_ok.mpr ⟨_, reduceEvent_eq_ok.mpr ht₂, rfl⟩⟩

/-- **Events of different missions commute from every projection: one order succeeds exactly when
the other does, with the same result. So histories that agree on each mission's own subsequence
reduce to the same projection, or both fail.** -/
theorem missions_commute :
    (∀ (s : ProjectionState) (e₁ e₂ : Event), e₁.missionId ≠ e₂.missionId →
      ∀ t, reduceEvents s [e₁, e₂] = .ok t ↔ reduceEvents s [e₂, e₁] = .ok t) ∧
    ∀ (s : ProjectionState) (es es' : List Event),
      (∀ m, es.filter (·.missionId = m) = es'.filter (·.missionId = m)) →
      ∀ t, reduceEvents s es = .ok t ↔ reduceEvents s es' = .ok t := by
  refine ⟨fun s e₁ e₂ hne t ↦ ⟨commutes_reduceEvent hne s t, commutes_reduceEvent hne.symm s t⟩,
    fun s es es' hkey t ↦ ⟨fun h ↦ ?_, fun h ↦ ?_⟩⟩
  · exact foldlM_eq_ok_of_filter_eq (fun _ _ ↦ commutes_reduceEvent) (fun m ↦ (hkey m).symm) h
  · exact foldlM_eq_ok_of_filter_eq (fun _ _ ↦ commutes_reduceEvent) hkey h

/-! ## One mission's part of a projection -/

/-- `t` is what `s` holds of one mission: its status and its own work items. -/
structure Restricts (m : String) (s t : ProjectionState) : Prop where
  mission : t.missions[m]? = s.missions[m]?
  work : ∀ w : String, t.work[w]? = s.work[w]?.filter (·.missionId = m)

omit [Hash256] in
theorem restricts_emptyState (m : String) : Restricts m emptyState emptyState where
  mission := rfl
  work := by simp [emptyState]

/-- An event of the mission does in its part of the projection what it does in the whole. -/
theorem Restricts.step {m : String} (hr : Restricts m s t) (h : ReduceStep s e s')
    (hm : e.missionId = m) : ∃ t', ReduceStep t e t' ∧ Restricts m s' t' := by
  -- the item that the event is about is the mission's own, so the part has it as the whole does
  have hown : ∀ {u : ProjectionState} {w : String},
      (∀ work, u.work[w]? = some work → work.missionId = e.missionId) →
      u.work[w]?.filter (·.missionId = m) = u.work[w]? := by
    intro u w howns
    cases hwork : u.work[w]? with
    | none => rfl
    | some work => simp [Option.filter, howns work hwork, hm]
  have htarget : ∀ w, e.target = some w → t.work[w]? = s.work[w]? := by
    intro w hw
    rw [hr.work, hown (h.owns hw).1]
  obtain ⟨t', ht, hmission, hwork⟩ := h.transfer (by rw [hm, hr.mission]) htarget
  refine ⟨t', ht, by rw [← hm, hmission], fun w ↦ ?_⟩
  by_cases hw : e.target = some w
  · obtain ⟨work, hafter, hmine⟩ := (h.owns hw).2
    rw [hwork w hw, hown]
    intro work' hwork'
    rw [hafter] at hwork'
    rwa [← Option.some.inj hwork']
  · rw [ht.frame.2 w hw, h.frame.2 w hw, hr.work]

/-- An event of another mission does nothing to this one's part. -/
theorem Restricts.skip {m : String} (hr : Restricts m s t) (h : ReduceStep s e s')
    (hm : e.missionId ≠ m) : Restricts m s' t := by
  refine ⟨by rw [h.frame.1 m hm, hr.mission], fun w ↦ ?_⟩
  by_cases hw : e.target = some w
  · -- the item is the other mission's, before and after
    obtain ⟨hbefore, work, hafter, hother⟩ := h.owns hw
    rw [hr.work, hafter]
    cases hwork : s.work[w]? with
    | none => simp [Option.filter, hother, hm]
    | some old => simp [Option.filter, hother, hbefore old hwork, hm]
  · rw [h.frame.2 w hw, hr.work]

/-- **A mission's own events reduce by themselves, to the mission's part of the projection.** -/
theorem reduceEvents_filter {m : String} {es : List Event} (hr : Restricts m s t)
    (h : reduceEvents s es = .ok s') :
    ∃ t', reduceEvents t (es.filter (·.missionId = m)) = .ok t' ∧ Restricts m s' t' := by
  induction es generalizing s t with
  | nil =>
    obtain rfl := foldlM_nil_eq_ok.mp h
    exact ⟨t, rfl, hr⟩
  | cons e es ih =>
    obtain ⟨s₁, hfirst, hrest⟩ := foldlM_cons_eq_ok.mp h
    have hstep := reduceEvent_eq_ok.mp hfirst
    by_cases hm : e.missionId = m
    · obtain ⟨t₁, ht, hr₁⟩ := hr.step hstep hm
      obtain ⟨t', hrun, hr'⟩ := ih hr₁ hrest
      rw [List.filter_cons_of_pos (by simpa using hm)]
      exact ⟨t', foldlM_cons_eq_ok.mpr ⟨t₁, reduceEvent_eq_ok.mpr ht, hrun⟩, hr'⟩
    · rw [List.filter_cons_of_neg (by simpa using hm)]
      exact ih (hr.skip hstep hm) hrest

end Steps

end HiveMind
