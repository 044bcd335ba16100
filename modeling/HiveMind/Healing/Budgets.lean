import HiveMind.Healing.Observations

/-!
# Budgets of a pass

The repairs of a pass are collected under their names, sorted and cut down to the budget of the pass.
What is cut is made up for by a repair that puts the mission aside, and that one is added at the
end, after the sorting and without a look at the names that are there.

* **`pass_orderly_iff`**: a pass has its repairs in order and under different names if and only if
  nothing was cut, or all that was kept puts something aside that comes before the mission.
-/

open Raise

namespace HiveMind.Healing

/-! ## What the loops look at -/

section Reads

variable [Builtins] (policy : ReconciliationPolicy) (state : ObservedState)
  (work : List (String × Record))

/-- A workspace that is there, as far as its record says. -/
def isPresent (workspace : Record) : Bool :=
  pyBool (match getD workspace "exists" .null with
    | .null => getD workspace "present" (.bool true)
    | value => value)

/-- The work item of a record that may name one. -/
def workIdOf (record : Record) (default : String) : String :=
  pyStr (getD record "work_id" (.str default))

/-- How often a workspace was rebuilt. -/
def rebuildAttempts (workspaceId : String) (workspace : Record) : Json :=
  getD workspace "rebuild_attempts"
    (getD (workOf work (workIdOf workspace workspaceId)) "attempts" (.int 0))

theorem planWorkspace_eq (plan : Plan) (workspaceId : String) (workspace : Record) :
    planWorkspace policy state work plan workspaceId workspace =
      if isPresent workspace then .ok plan
      else (do
        let attempts ← pyInt (rebuildAttempts work workspaceId workspace)
        if attempts < policy.maxRetries then
          let plan ← add state plan .rebuildWorkspace workspaceId
            "workspace is missing; rebuild only the recorded workspace" attempts policy.maxRetries
            (workOf work (workIdOf workspace workspaceId))
          return plan.setStatus (workIdOf workspace workspaceId) "READY"
        else
          add state plan .quarantine workspaceId "workspace rebuild budget is exhausted" attempts
            policy.maxRetries (workOf work (workIdOf workspace workspaceId))) := rfl

/-- The verification that counts for a work item. -/
def verificationOf (verifications : List (String × Record)) (workId : String) : Option Record :=
  (verifications.lookup workId).filter (·.members ≠ [])

/-- The status of a verification, if there is one. -/
def verificationStatus : Option Record → String
  | some verification => pyUpper (getD verification "status" (.str ""))
  | none => ""

/-- A work item that waits for a verification which was interrupted. -/
def isInterrupted (verification : Option Record) (record : Record) : Prop :=
  pyUpper (getD record "status" (.str "")) = "AWAITING_VERIFICATION" ∧
    verificationStatus verification ∈ ["INTERRUPTED", "MISSING", "ABORTED"]

instance (verification : Option Record) (record : Record) :
    Decidable (isInterrupted verification record) := inferInstanceAs (Decidable (_ ∧ _))

/-- How often a work item was verified. -/
def verificationAttempts : Option Record → Record → Json
  | some verification, record =>
    getD verification "attempts" (getD record "verification_attempts" (.int 0))
  | none, record => getD record "verification_attempts" (.int 0)

theorem planVerification_eq (verifications : List (String × Record)) (plan : Plan)
    (workId : String) (record : Record) :
    planVerification policy state verifications plan workId record =
      if isInterrupted (verificationOf verifications workId) record then (do
        let attempts ← pyInt (verificationAttempts (verificationOf verifications workId) record)
        if attempts < policy.maxRetries then
          add state plan .remand workId
            "verification was interrupted; remand without re-running the effect" attempts
            policy.maxRetries record
        else
          add state plan .quarantine workId "verification retry budget is exhausted" attempts
            policy.maxRetries record)
      else .ok plan := by
  have hlookup : (verifications.lookup workId).filter (·.members ≠ []) =
      verificationOf verifications workId := rfl
  rw [planVerification, hlookup]
  by_cases hinterrupted : isInterrupted (verificationOf verifications workId) record
  · obtain ⟨hstatus, hin⟩ := id hinterrupted
    rw [if_pos hinterrupted, if_neg (not_not.mpr hstatus)]
    cases hverification : verificationOf verifications workId with
    | none =>
      rw [hverification] at hin
      exact absurd hin (by simp [verificationStatus])
    | some verification =>
      rw [hverification] at hin
      exact if_neg (not_not.mpr hin)
  · rw [if_neg hinterrupted]
    by_cases hstatus : pyUpper (getD record "status" (.str "")) = "AWAITING_VERIFICATION"
    · have hnot : verificationStatus (verificationOf verifications workId) ∉
          ["INTERRUPTED", "MISSING", "ABORTED"] := fun hin ↦ hinterrupted ⟨hstatus, hin⟩
      rw [if_neg (not_not.mpr hstatus)]
      cases hverification : verificationOf verifications workId with
      | none => exact if_pos (hverification ▸ hnot)
      | some verification => exact if_pos (hverification ▸ hnot)
    · exact if_pos hstatus

end Reads

/-! ## Plans under distinct names -/

/-- No two repairs of a plan have the same name. -/
def Plan.Distinct (plan : Plan) : Prop := (plan.actions.map RepairAction.actionId).Nodup

/-- A plan that came from another one: it has the repairs of that one, and under distinct names if
that one had. Its work items are those of that one, up to their desired status. -/
structure Plan.Extends (plan plan' : Plan) : Prop where
  actions : plan.actions ⊆ plan'.actions
  distinct : plan.Distinct → plan'.Distinct
  desired : ∀ P : Record → Prop,
    (∀ record status, P record → P (record.set "desired_status" (.str status))) →
    (∀ entry ∈ plan.desired, P entry.2) → ∀ entry ∈ plan'.desired, P entry.2

namespace Plan.Extends

theorem refl (plan : Plan) : plan.Extends plan := ⟨List.Subset.refl _, id, fun _ _ h ↦ h⟩

theorem trans {plan plan' plan'' : Plan} (h : plan.Extends plan') (h' : plan'.Extends plan'') :
    plan.Extends plan'' :=
  ⟨List.Subset.trans h.actions h'.actions, h'.distinct ∘ h.distinct,
    fun P hset hplan ↦ h'.desired P hset (h.desired P hset hplan)⟩

theorem quarantines {plan plan' : Plan} (h : plan.Extends plan') (hplan : plan.quarantines = true) :
    plan'.quarantines = true := by
  obtain ⟨action, haction, hkind⟩ := List.any_eq_true.mp hplan
  exact List.any_eq_true.mpr ⟨action, h.actions haction, hkind⟩

end Plan.Extends

theorem Plan.extends_setDefault (plan : Plan) (action : RepairAction) :
    plan.Extends (plan.setDefault action) := by
  rw [Plan.setDefault]
  by_cases hany : plan.actions.any (·.actionId = action.actionId) = true
  · rw [if_pos hany]
    exact .refl plan
  · rw [if_neg hany]
    refine ⟨List.subset_append_left _ _, fun hdistinct ↦ ?_, fun _ _ h ↦ h⟩
    have hnew : action.actionId ∉ plan.actions.map RepairAction.actionId := by
      simpa [List.mem_map] using hany
    rw [Plan.Distinct, List.map_append, List.map_singleton]
    refine List.nodup_append.mpr ⟨hdistinct, List.nodup_singleton _, ?_⟩
    intro a ha b hb heq
    obtain rfl := List.mem_singleton.mp hb
    exact hnew (heq ▸ ha)

theorem Plan.extends_setStatus (plan : Plan) (workId status : String) :
    plan.Extends (plan.setStatus workId status) := by
  rw [Plan.setStatus]
  split
  · exact .refl plan
  · next record hrecord =>
    refine ⟨List.Subset.refl _, id, fun P hset hplan entry hentry ↦ ?_⟩
    rcases Dicts.eq_or_mem_of_mem_setItem hentry with rfl | hentry
    · exact hset _ _ (hplan _ (Dicts.mem_of_lookup hrecord))
    · exact hplan entry hentry

theorem extends_addTexts {plan plan' : Plan} {kind : RepairKind} {targetId reason : String}
    {attempt maxAttempts : Int} {scope : List String}
    (h : plan.addTexts kind targetId reason attempt maxAttempts scope = .ok plan') :
    plan.Extends plan' := by
  obtain ⟨action, -, hplan⟩ := bind_eq_ok.mp h
  rw [pure_eq_ok] at hplan
  exact hplan ▸ plan.extends_setDefault action

section Steps

variable [Builtins] {policy : ReconciliationPolicy} {state : ObservedState} {now : Moment}
  {work : List (String × Record)} {plan plan' : Plan}

theorem extends_add {kind : RepairKind} {targetId reason : String} {attempt maxAttempts : Int}
    {record : Record} (h : add state plan kind targetId reason attempt maxAttempts record = .ok plan') :
    plan.Extends plan' := by
  obtain ⟨scope, -, h⟩ := bind_eq_ok.mp h
  exact extends_addTexts h

theorem extends_planLease {leaseId : String} {lease : Record}
    (h : planLease state now work plan leaseId lease = .ok plan') : plan.Extends plan' := by
  rw [planLease] at h
  split at h
  · exact Except.ok.inj h ▸ .refl plan
  obtain ⟨due, -, h⟩ := bind_eq_ok.mp h
  split at h
  · exact Except.ok.inj h ▸ .refl plan
  obtain ⟨added, hadded, h⟩ := bind_eq_ok.mp h
  rw [pure_eq_ok] at h
  have hextends := extends_add hadded
  split at h
  · exact hextends.trans (h ▸ added.extends_setStatus _ _)
  · exact h ▸ hextends

theorem extends_planIntent {intent : Record}
    (h : planIntent policy state work plan intent = .ok plan') : plan.Extends plan' := by
  rw [planIntent] at h
  obtain ⟨intentId, -, h⟩ := bind_eq_ok.mp h
  split at h
  · exact extends_addTexts h
  · split at h
    · obtain ⟨attempts, -, h⟩ := bind_eq_ok.mp h
      exact extends_add h
    · exact Except.ok.inj h ▸ .refl plan

theorem extends_planWorkspace {workspaceId : String} {workspace : Record}
    (h : planWorkspace policy state work plan workspaceId workspace = .ok plan') :
    plan.Extends plan' := by
  rw [planWorkspace_eq] at h
  split at h
  · exact Except.ok.inj h ▸ .refl plan
  obtain ⟨attempts, -, h⟩ := bind_eq_ok.mp h
  split at h
  · obtain ⟨added, hadded, h⟩ := bind_eq_ok.mp h
    rw [pure_eq_ok] at h
    exact (extends_add hadded).trans (h ▸ added.extends_setStatus _ _)
  · exact extends_add h

theorem extends_planFailure {failureId : String} {failure : Record}
    (h : planFailure policy state work plan failureId failure = .ok plan') : plan.Extends plan' := by
  rw [planFailure] at h
  split at h
  · exact Except.ok.inj h ▸ .refl plan
  obtain ⟨attempts, -, h⟩ := bind_eq_ok.mp h
  dsimp only at h
  split at h
  · exact extends_add h
  · exact extends_add h

theorem extends_planVerification {verifications : List (String × Record)} {workId : String}
    {record : Record}
    (h : planVerification policy state verifications plan workId record = .ok plan') :
    plan.Extends plan' := by
  rw [planVerification_eq] at h
  split at h
  · obtain ⟨attempts, -, h⟩ := bind_eq_ok.mp h
    split at h
    · exact extends_add h
    · exact extends_add h
  · exact Except.ok.inj h ▸ .refl plan

theorem extends_planRollback {workId : String} {record : Record}
    (h : planRollback state plan workId record = .ok plan') : plan.Extends plan' := by
  rw [planRollback] at h
  split at h
  · obtain ⟨added, hadded, h⟩ := bind_eq_ok.mp h
    rw [pure_eq_ok] at h
    exact (extends_add hadded).trans (h ▸ added.extends_setStatus _ _)
  · exact Except.ok.inj h ▸ .refl plan

omit [Builtins] in
theorem extends_overIndex {index : List (String × Record)}
    {step : Plan → String → Record → Except Exc Plan}
    (hstep : ∀ {plan plan' : Plan} {key : String} {record : Record},
      step plan key record = .ok plan' → plan.Extends plan')
    (h : overIndex index step plan = .ok plan') : plan.Extends plan' :=
  foldlM_induction (P := plan.Extends)
    (fun _ _ _ _ hnext hextends ↦ hextends.trans (hstep hnext)) h (.refl plan)

variable [Hash256]

/-- What the loops return one after the other when repairs are proposed. -/
structure Stages (policy : ReconciliationPolicy) (state : ObservedState) (now : Moment)
    (plan : Plan) where
  work : List (String × Record)
  leases : List (String × Record)
  workspaces : List (String × Record)
  failures : List (String × Record)
  intents : List Record
  first : Plan
  second : Plan
  third : Plan
  fourth : Plan
  fifth : Plan
  work_eq : indexed "work_id" state.work = .ok work
  leases_eq : indexed "lease_id" state.leases = .ok leases
  workspaces_eq : indexed "workspace_id" state.workspaces = .ok workspaces
  failures_eq : indexed "failure_id" state.providerFailures = .ok failures
  leased : overIndex leases (planLease state now work) ⟨[], work⟩ = .ok first
  intents_eq : sortedByKey state.intents = .ok intents
  intended : intents.foldlM (planIntent policy state work) first = .ok second
  rebuilt : overIndex workspaces (planWorkspace policy state work) second = .ok third
  failed : overIndex failures (planFailure policy state work) third = .ok fourth
  verified : overIndex work
    (planVerification policy state (verificationIndex state.verifications)) fourth = .ok fifth
  integrated : overIndex work (planRollback state) fifth = .ok plan

theorem propose_eq_ok_iff :
    propose policy state now = .ok plan ↔ Nonempty (Stages policy state now plan) := by
  rw [propose]
  constructor
  · intro h
    obtain ⟨work, hwork, h⟩ := bind_eq_ok.mp h
    obtain ⟨leases, hleases, h⟩ := bind_eq_ok.mp h
    obtain ⟨workspaces, hworkspaces, h⟩ := bind_eq_ok.mp h
    obtain ⟨failures, hfailures, h⟩ := bind_eq_ok.mp h
    obtain ⟨first, hfirst, h⟩ := bind_eq_ok.mp h
    obtain ⟨intents, hintents, h⟩ := bind_eq_ok.mp h
    obtain ⟨second, hsecond, h⟩ := bind_eq_ok.mp h
    obtain ⟨third, hthird, h⟩ := bind_eq_ok.mp h
    obtain ⟨fourth, hfourth, h⟩ := bind_eq_ok.mp h
    obtain ⟨fifth, hfifth, h⟩ := bind_eq_ok.mp h
    exact ⟨⟨work, leases, workspaces, failures, intents, first, second, third, fourth, fifth, hwork,
      hleases, hworkspaces, hfailures, hfirst, hintents, hsecond, hthird, hfourth, hfifth, h⟩⟩
  · rintro ⟨stages⟩
    rw [stages.work_eq, ok_bind, stages.leases_eq, ok_bind, stages.workspaces_eq, ok_bind,
      stages.failures_eq, ok_bind]
    dsimp only
    rw [stages.leased, ok_bind, stages.intents_eq, ok_bind, stages.intended, ok_bind,
      stages.rebuilt, ok_bind, stages.failed, ok_bind, stages.verified, ok_bind, stages.integrated]

namespace Stages

theorem extends_third (stages : Stages policy state now plan) : stages.third.Extends plan :=
  (extends_overIndex extends_planFailure stages.failed).trans <|
    (extends_overIndex extends_planVerification stages.verified).trans
      (extends_overIndex extends_planRollback stages.integrated)

theorem extends_start (stages : Stages policy state now plan) :
    Plan.Extends ⟨[], stages.work⟩ plan := by
  have hsecond : stages.first.Extends stages.second :=
    foldlM_induction (P := stages.first.Extends)
      (fun _ _ _ _ hnext hextends ↦ hextends.trans (extends_planIntent hnext)) stages.intended
      (.refl _)
  exact (extends_overIndex extends_planLease stages.leased).trans <| hsecond.trans <|
    (extends_overIndex extends_planWorkspace stages.rebuilt).trans stages.extends_third

end Stages

/-- The repairs that are proposed have different names. -/
theorem distinct_of_propose (h : propose policy state now = .ok plan) : plan.Distinct := by
  obtain ⟨stages⟩ := propose_eq_ok_iff.mp h
  exact stages.extends_start.distinct List.nodup_nil

end Steps

/-! ## What is cut -/

section Cuts

variable [Builtins] [Hash256] {policy : ReconciliationPolicy} {state : ObservedState} {now : Moment}
  {plan : Plan} {result : ReconciliationResult}

/-- The repairs of a pass before they are cut down to its budget. -/
def planned (policy : ReconciliationPolicy) (state : ObservedState) (now : Moment) :
    Except Exc Plan := do
  let proposed ← propose policy state now
  planProgress policy state proposed

omit [Builtins] [Hash256] in
theorem extends_planProgress {plan' : Plan} (h : planProgress policy state plan = .ok plan') :
    plan.Extends plan' := by
  rw [planProgress] at h
  split at h
  · exact extends_addTexts h
  · exact Except.ok.inj h ▸ .refl plan

theorem distinct_of_planned (h : planned policy state now = .ok plan) : plan.Distinct := by
  obtain ⟨proposed, hproposed, hplan⟩ := bind_eq_ok.mp h
  exact (extends_planProgress hplan).distinct (distinct_of_propose hproposed)

/-- What a caller expects of the repairs of a pass, where the plan holds all that was called for. -/
structure InOrder (policy : ReconciliationPolicy) (plan : Plan) (result : ReconciliationResult) :
    Prop where
  distinct : (result.desired.actions.map RepairAction.actionId).Nodup
  atMost : result.desired.actions.length ≤ policy.maxRepairsPerPass
  ordered : result.desired.actions.Pairwise Before
  quarantined : plan.quarantines = true ∨ policy.maxRepairsPerPass < plan.actions.length →
    result.desired.quarantined = true

/-- Nothing has to be cut, or the repairs that are kept put something aside under a name in front of
that of the mission. -/
def FitsBudget (policy : ReconciliationPolicy) (state : ObservedState) (plan : Plan) : Prop :=
  plan.actions.length ≤ policy.maxRepairsPerPass ∨
    ∀ action ∈ (plan.actions.insertionSort Before).take (policy.maxRepairsPerPass - 1),
      action.kind = .quarantine ∧ action.targetId < state.missionId

omit [Builtins] [Hash256] in
/-- When a repair can be written down, and what it is then. -/
theorem RepairAction.make_eq_ok {kind : RepairKind} {targetId reason : String}
    {attempt maxAttempts : Int} {scope : List String} {action : RepairAction} :
    RepairAction.make kind targetId reason attempt maxAttempts scope = .ok action ↔
      action.kind = kind ∧ action.targetId = targetId ∧ action.reason = reason ∧
        action.attempt = attempt ∧ action.maxAttempts = maxAttempts ∧
        action.authorityScope = scope := by
  constructor
  · intro h
    rw [RepairAction.make] at h
    split at h
    · split at h
      · cases h
      split at h
      · split at h
        · obtain rfl := Except.ok.inj h
          exact ⟨rfl, rfl, rfl, rfl, rfl, rfl⟩
        · cases h
      · cases h
    · cases h
  · rintro ⟨rfl, rfl, rfl, rfl, rfl, rfl⟩
    have hbounds := not_not.mpr (And.intro action.bounded.1 action.bounded.2.1)
    rw [RepairAction.make, dif_pos action.named, if_neg hbounds, dif_pos action.bounded,
      dif_pos action.ordered]

omit [Builtins] [Hash256] in
theorem RepairKind.eq_quarantine_of_priority {kind : RepairKind} (h : kind.priority ≤ 0) :
    kind = .quarantine := by
  cases kind <;> first | rfl | exact absurd h (by decide)

omit [Builtins] [Hash256] in
/-- Two repairs of one kind are named in the order of what they are about. -/
theorem RepairAction.actionId_lt_iff {action other : RepairAction} (h : action.kind = other.kind) :
    action.actionId < other.actionId ↔ action.targetId < other.targetId := by
  have happend : ∀ texts rest rest' : List Char, texts ++ rest < texts ++ rest' ↔ rest < rest' := by
    intro texts rest rest'
    refine ⟨fun hlt ↦ ?_, List.append_left_lt⟩
    rcases lt_trichotomy rest rest' with hrest | rfl | hrest
    · exact hrest
    · exact absurd hlt (lt_irrefl _)
    · exact absurd hlt (lt_asymm (List.append_left_lt hrest))
  rw [RepairAction.actionId, RepairAction.actionId, h, String.lt_iff_toList_lt,
    String.lt_iff_toList_lt]
  simp only [String.toList_append, List.append_assoc]
  rw [happend, happend]

omit [Builtins] [Hash256] in
/-- When a repair comes strictly before one that puts something aside. -/
theorem before_and_ne_iff {action other : RepairAction} (hother : other.kind = .quarantine) :
    Before action other ∧ action.actionId ≠ other.actionId ↔
      action.kind = .quarantine ∧ action.targetId < other.targetId := by
  rw [Before, hother]
  constructor
  · rintro ⟨hlt | ⟨hpriority, hle⟩, hne⟩
    · exact absurd hlt (Nat.not_lt_zero _)
    · have hkind := RepairKind.eq_quarantine_of_priority hpriority.le
      have hlt := lt_of_le_of_ne hle hne
      exact ⟨hkind, (RepairAction.actionId_lt_iff (hkind.trans hother.symm)).mp hlt⟩
  · rintro ⟨hkind, htarget⟩
    have hlt := (RepairAction.actionId_lt_iff (hkind.trans hother.symm)).mpr htarget
    exact ⟨.inr ⟨by rw [hkind], hlt.le⟩, hlt.ne⟩

instance : Std.Total Before where
  total action other := by
    rcases lt_trichotomy action.kind.priority other.kind.priority with hlt | heq | hlt
    · exact .inl (.inl hlt)
    · exact (le_total action.actionId other.actionId).imp (fun hle ↦ .inr ⟨heq, hle⟩)
        fun hle ↦ .inr ⟨heq.symm, hle⟩
    · exact .inr (.inl hlt)

instance : IsTrans RepairAction Before where
  trans action other third := by
    rintro (hlt | ⟨heq, hle⟩) (hlt' | ⟨heq', hle'⟩)
    · exact .inl (hlt.trans hlt')
    · exact .inl (hlt.trans_eq heq')
    · exact .inl (heq.trans_lt hlt')
    · exact .inr ⟨heq.trans heq', hle.trans hle'⟩

omit [Builtins] [Hash256] in
/-- What is left of a plan when it is cut down to the budget of a pass. -/
theorem bounded_cases {actions : List RepairAction} (h : bounded policy state plan = .ok actions) :
    plan.actions.length ≤ policy.maxRepairsPerPass ∧
        actions = plan.actions.insertionSort Before ∨
      policy.maxRepairsPerPass < plan.actions.length ∧ ∃ action : RepairAction,
        action.kind = .quarantine ∧ action.targetId = state.missionId ∧
        actions = (plan.actions.insertionSort Before).take (policy.maxRepairsPerPass - 1) ++
          [action] := by
  have hlength := (List.perm_insertionSort Before plan.actions).length_eq
  rw [bounded, hlength] at h
  by_cases hover : policy.maxRepairsPerPass < plan.actions.length
  · rw [if_pos hover] at h
    obtain ⟨action, haction, hactions⟩ := bind_eq_ok.mp h
    obtain ⟨hkind, htarget, -⟩ := RepairAction.make_eq_ok.mp haction
    exact .inr ⟨hover, action, hkind, htarget, pure_eq_ok.mp hactions⟩
  · rw [if_neg hover, pure_eq_ok] at h
    exact .inl ⟨not_lt.mp hover, h⟩

omit [Builtins] [Hash256] in
/-- The repairs that are kept are in order and under different names. -/
theorem kept_of_distinct (hdistinct : plan.Distinct) (n : Nat) :
    (((plan.actions.insertionSort Before).take n).map RepairAction.actionId).Nodup ∧
      ((plan.actions.insertionSort Before).take n).Pairwise Before := by
  have hperm := List.perm_insertionSort Before plan.actions
  have hsublist := List.take_sublist n (plan.actions.insertionSort Before)
  have hnodup := (hperm.map RepairAction.actionId).nodup_iff.mpr hdistinct
  exact ⟨hnodup.sublist (hsublist.map _), (List.pairwise_insertionSort Before _).sublist hsublist⟩

/-- **The repairs of a pass are in order, within its budget and under different names, and put
something aside where they should, exactly when nothing is cut or all that is kept puts aside what is
named in front of the mission.** -/
theorem pass_orderly_iff (h : reconcile policy state now = .ok result) :
    ∃ plan, planned policy state now = .ok plan ∧
      (InOrder policy plan result ↔ FitsBudget policy state plan) := by
  obtain ⟨proposed, plan, -, hproposed, hplan, hactions, -, -, hquarantined, -⟩ :=
    reconcile_eq_ok h
  have hplanned : planned policy state now = .ok plan :=
    bind_eq_ok.mpr ⟨proposed, hproposed, hplan⟩
  have hdistinct := distinct_of_planned hplanned
  have haside : plan.quarantines = true ∨ policy.maxRepairsPerPass < plan.actions.length →
      result.desired.quarantined = true := hquarantined ▸ (bounded_eq_ok hactions).mpr
  refine ⟨plan, hplanned, ?_⟩
  rcases bounded_cases hactions with ⟨hfits, heq⟩ | ⟨hover, action, hkind, htarget, heq⟩
  · -- nothing is cut
    have hlength := (List.perm_insertionSort Before plan.actions).length_eq
    obtain ⟨hnodup, hordered⟩ := kept_of_distinct hdistinct plan.actions.length
    rw [List.take_of_length_le hlength.le, ← heq] at hnodup hordered
    exact iff_of_true ⟨hnodup, by rwa [heq, hlength], hordered, haside⟩ (.inl hfits)
  · obtain ⟨hnodup, hordered⟩ := kept_of_distinct hdistinct (policy.maxRepairsPerPass - 1)
    generalize hkept : (plan.actions.insertionSort Before).take (policy.maxRepairsPerPass - 1) = kept
      at heq hnodup hordered
    have hlength : kept.length ≤ policy.maxRepairsPerPass - 1 := hkept ▸ List.length_take_le _ _
    rw [FitsBudget, or_iff_right (not_le.mpr hover), hkept, ← htarget]
    constructor
    · intro horder other hother
      refine (before_and_ne_iff hkind).mp ⟨?_, fun hid ↦ ?_⟩
      · have hbefore := (List.pairwise_append.mp (heq ▸ horder.ordered)).2.2
        exact hbefore other hother action (List.mem_singleton_self action)
      · have hnames := horder.distinct
        rw [heq, List.map_append, List.nodup_append] at hnames
        exact hnames.2.2 _ (List.mem_map_of_mem hother) _ (List.mem_singleton_self _) hid
    · intro hfits
      have hstrict := fun other hother ↦ (before_and_ne_iff hkind).mpr (hfits other hother)
      refine ⟨?_, ?_, ?_, haside⟩
      · rw [heq, List.map_append, List.nodup_append]
        refine ⟨hnodup, List.nodup_singleton _, fun id hid id' hid' ↦ ?_⟩
        obtain ⟨other, hother, rfl⟩ := List.mem_map.mp hid
        obtain rfl := List.mem_singleton.mp hid'
        exact (hstrict other hother).2
      · have hpos := policy.maxRepairsPerPass_pos
        rw [heq, List.length_append, List.length_singleton]
        omega
      · rw [heq, List.pairwise_append]
        refine ⟨hordered, List.pairwise_singleton _ _, fun other hother other' hother' ↦ ?_⟩
        obtain rfl := List.mem_singleton.mp hother'
        exact (hstrict other hother).1

end Cuts

/-! ### A pass that is cut down -/

local instance crowdedBuiltins : Builtins := asciiBuiltins

def crowdedPolicy : ReconciliationPolicy :=
  { samplePolicy with
    maxRepairsPerPass := 3
    maxRepairsPerPass_pos := samplePolicy.maxRetries_pos }

/-- A work item that has to be rolled back, under an id. -/
def divergedWork (workId : String) : Record :=
  Json.Dict.ofMembers [("work_id", .str workId), ("rollback_required", .bool true)]

/-- A mission without progress, three work items of which have to be rolled back. -/
def crowdedState : ObservedState :=
  { sampleState none with
    work := [divergedWork "a", divergedWork "b", divergedWork "c"]
    noProgressCount := 1 }

/-- The mission is put aside twice, and the second time behind a repair that comes later. -/
theorem exists_crowded [Hash256] : ∃ result, reconcile crowdedPolicy crowdedState sampleNow =
    .ok result ∧
      result.desired.actions.map RepairAction.actionId =
        ["quarantine:m", "rollback:a", "quarantine:m"] ∧
      result.desired.actions.map RepairAction.kind = [.quarantine, .rollback, .quarantine] :=
  ⟨_, rfl, rfl, rfl⟩

theorem disorderly_crowded : ∃ result, reconcile crowdedPolicy crowdedState sampleNow = .ok result ∧
    ¬(result.desired.actions.map RepairAction.actionId).Nodup ∧
      ¬result.desired.actions.Pairwise Before := by
  obtain ⟨result, hresult, hids, hkinds⟩ := exists_crowded
  refine ⟨result, hresult, by rw [hids]; decide, fun hordered ↦ ?_⟩
  have hpriorities : (result.desired.actions.map RepairAction.kind).Pairwise
      fun kind other ↦ kind.priority ≤ other.priority := by
    refine List.pairwise_map.mpr (hordered.imp ?_)
    rintro action other (hlt | ⟨heq, -⟩)
    · exact hlt.le
    · exact heq.le
  rw [hkinds] at hpriorities
  exact absurd hpriorities (by decide)

theorem orderly_sample : ∃ plan, planned samplePolicy (sampleState none) sampleNow = .ok plan ∧
    (InOrder samplePolicy plan (sampleResult none) ↔ FitsBudget samplePolicy (sampleState none) plan) :=
  pass_orderly_iff (reconcile_sample none)

end HiveMind.Healing
