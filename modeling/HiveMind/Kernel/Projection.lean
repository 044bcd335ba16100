import HiveMind.Kernel.Schema
import HiveMind.Kernel.Events
import HiveMind.Lib.Maps
import HiveMind.Lib.Trace

/-!
# The reducer of the event spine

`reduceEvent` applies one event to the projection and either returns the next projection or
raises. Nine event types are known. Five of them concern one existing work item of the event's own
mission: they look the item up, check it, and put the updated item back. That shape is `onWork`,
and what each of the five does to the item is a function of the item alone. The remaining types
create missions and work items, move missions, and record closeout obligations.

`reduceEvent_eq_ok` says once everything an accepted event can do, as the relation `ReduceStep`. The
history and commutation results are derived from it and never unfold the reducer.

## State

The two dicts of the projection are finite maps, which compare without regard to insertion order,
as Python's dicts do. A work item carries three optional digests besides its mission and status.
They are the keys that the source adds to the item's dict as evaluation proceeds.
-/

open Std (ExtTreeMap)
open Raise

namespace HiveMind

/-! ## The transition tables -/

def missionNext : MissionState → List MissionState
  | .created => [.planning, .waitingHuman, .paused, .cancelled, .failed]
  | .planning => [.ready, .failed, .waitingHuman]
  | .ready => [.running, .cancelled]
  | .running => [.verifying, .paused, .failed]
  | .verifying => [.integrating, .failed]
  | .integrating => [.completed, .rollingBack, .failed]
  | _ => []

def workNext : WorkState → List WorkState
  | .proposed => [.ready, .blockedDependency, .cancelled, .superseded]
  | .ready => [.leased, .cancelled]
  | .leased => [.running, .retryableFailed, .cancelled]
  | .running => [.awaitingVerification, .retryableFailed, .terminalFailed, .cancelled]
  | .awaitingVerification => [.accepted, .retryableFailed, .terminalFailed]
  | .accepted => [.integrated]
  | _ => []

/-! ## State -/

structure WorkEntry where
  missionId : String
  status : WorkState
  evaluationPlanDigest : Option String := none
  passedEvaluationDigest : Option String := none
  evaluationBundleDigest : Option String := none
  deriving DecidableEq

/-- A work item as it is created. -/
def WorkEntry.proposed (missionId : String) : WorkEntry := { missionId, status := .proposed }

structure ProjectionState where
  missions : ExtTreeMap String MissionState
  work : ExtTreeMap String WorkEntry
  deriving DecidableEq

/-- `empty_state`. -/
def emptyState : ProjectionState := ⟨∅, ∅⟩

@[ext] theorem ProjectionState.ext_getElem? {s t : ProjectionState}
    (hmissions : ∀ m : String, s.missions[m]? = t.missions[m]?)
    (hwork : ∀ w : String, s.work[w]? = t.work[w]?) :
    s = t := by
  obtain ⟨sm, sw⟩ := s
  obtain ⟨tm, tw⟩ := t
  rw [ProjectionState.mk.injEq]
  exact ⟨ExtTreeMap.ext_getElem? hmissions, ExtTreeMap.ext_getElem? hwork⟩

/-! ## Event types -/

inductive EventKind where
  | missionCreated
  | missionTransition
  | workCreated
  | workTransition
  | evaluationPlanSealed
  | evaluationResult
  | evaluationBundleRecorded
  | closeoutObligationsDeclared
  | roleResult
  deriving DecidableEq, Repr

def EventKind.ofType (eventType : String) : Option EventKind :=
  if eventType = "mission.created" then some missionCreated
  else if eventType = "mission.transition" then some missionTransition
  else if eventType = "work.created" then some workCreated
  else if eventType = "work.transition" then some workTransition
  else if eventType = "evaluation.plan.sealed" then some evaluationPlanSealed
  else if eventType = "evaluation.result" then some evaluationResult
  else if eventType = "evaluation.bundle.recorded" then some evaluationBundleRecorded
  else if eventType = "closeout.obligations.declared" then some closeoutObligationsDeclared
  else if eventType = "role.result" then some roleResult
  else none

def Event.kind (e : Event) : Option EventKind := EventKind.ofType e.eventType

/-- `payload.get(key)`, where a missing key and an explicit null are alike. -/
def Event.get (e : Event) (key : String) : Json := (e.payload.lookup key).getD .null

/-- `payload[key]`. -/
def Event.getItem (e : Event) (key : String) : Except Exc Json :=
  match e.payload.lookup key with
  | some j => .ok j
  | none => .error (keyError key)

/-- `raise ValueError(...) from error`: any failure of a contract becomes the given one. -/
def orRaise {α : Type} (message : String) : Option α → Except Exc α
  | some a => .ok a
  | none => .error (valueError message)

/-- The items of an iterable: `tuple(value)`. -/
def pyTuple : Json → Except Exc (List Json)
  | .arr xs => .ok xs
  | .str s => .ok (s.toList.map fun c ↦ .str (String.ofList [c]))
  | .obj ms => .ok (ms.map fun m ↦ .str m.1)
  | _ => .error (typeError "object is not iterable")

/-! ## What an event does to a work item -/

/-- `work.transition`. -/
def transitionWork (e : Event) (work : WorkEntry) : Except Exc WorkEntry := do
  if work.missionId ≠ e.missionId then
    throw (valueError "work transition mission does not match work item")
  let new ← WorkState.ofJson (← e.getItem "status")
  if new ∉ workNext work.status then
    throw (valueError ("illegal work transition: " ++ work.status.value ++ " -> " ++ new.value))
  if new = .accepted ∧ (work.passedEvaluationDigest.isNone ∨
      e.get "evaluation_result_digest" ≠ optionalText work.passedEvaluationDigest) then
    throw (valueError "accepted work requires its recorded passed evaluation")
  return { work with status := new }

section Digests

variable [Hash256]

/-- The document of an `evaluation.plan.sealed` event, checked up to its digest bindings. -/
def sealedPlan (e : Event) : Except Exc EvaluationPlan := do
  let .obj document := e.get "plan" | throw (valueError "evaluation plan payload is malformed")
  let .obj base := e.get "base" | throw (valueError "evaluation plan payload is malformed")
  let plan ← orRaise "evaluation plan contract is invalid"
    (EvaluationPlan.fromDocument document).toOption
  if plan.state ≠ .sealed ∨ plan.planDigest ≠ jsonDigest plan.bound then
    throw (valueError "evaluation plan digest binding is invalid")
  let some (.obj files) := base.lookup "files"
    | throw (valueError "evaluation plan base manifest is invalid")
  if base.lookup "root_digest" ≠ some (.str plan.baseTreeDigest) then
    throw (valueError "evaluation plan base manifest is invalid")
  if plan.baseTreeDigest ≠ jsonDigest (.obj [("files", .obj files)]) then
    throw (valueError "evaluation plan base manifest digest is invalid")
  return plan

/-- `evaluation.plan.sealed`. -/
def sealPlan (e : Event) (work : WorkEntry) : Except Exc WorkEntry := do
  if work.missionId ≠ e.missionId ∨ work.status ≠ .running then
    throw (valueError "evaluation plan belongs to work that is not running")
  if e.actorRole ≠ some "architect" ∨ work.evaluationPlanDigest.isSome then
    throw (valueError "evaluation plan authority or multiplicity is invalid")
  let plan ← sealedPlan e
  return { work with evaluationPlanDigest := some plan.planDigest }

/-- The document of an `evaluation.result` event as a contract. The two list fields are made
tuples first, and what is not iterable fails there with a `TypeError`. -/
def evaluationOf (e : Event) : Except Exc EvaluationResult := do
  let .obj document := e.get "result" | throw (valueError "evaluation result payload is malformed")
  let checkResults ← pyTuple ((document.lookup "check_results").getD (.arr []))
  let evidenceRefs ← pyTuple ((document.lookup "evidence_refs").getD (.arr []))
  orRaise "evaluation result contract is invalid"
    (EvaluationResult.ofMembers document checkResults evidenceRefs)

/-- `evaluation.result`. Only a passed verdict is remembered. -/
def recordResult (e : Event) (work : WorkEntry) : Except Exc WorkEntry := do
  if work.missionId ≠ e.missionId ∨ work.status ≠ .awaitingVerification ∨
      e.actorRole ≠ some "curator" then
    throw (valueError "evaluation result is not a curator verdict for awaiting work")
  let evaluation ← evaluationOf e
  if evaluation.resultDigest ≠ jsonDigest evaluation.bound ∨
      work.evaluationPlanDigest ≠ some evaluation.planDigest ∨
      evaluation.evaluatorId ≠ e.actorId then
    throw (valueError "evaluation result binding is invalid")
  if evaluation.state = .passed then
    return { work with passedEvaluationDigest := some evaluation.resultDigest }
  return work

/-- The list fields of a role result document, which are made tuples where they are present. -/
def roleListFields : List String :=
  ["base_artifact_refs", "candidate_artifact_refs", "output_artifact_refs", "claims",
    "effect_receipt_refs", "unresolved_risks"]

def tupleField (document : List (String × Json)) (name : String) :
    Except Exc (List (String × Json)) :=
  match document.lookup name with
  | some j => (pyTuple j).map fun xs ↦ Json.insertMember name (.arr xs) document
  | none => .ok document

/-- `role.result`. Nothing is recorded of it. -/
def checkRoleResult (e : Event) (workId : String) (work : WorkEntry) : Except Exc WorkEntry := do
  if work.missionId ≠ e.missionId ∨ work.status ≠ .running then
    throw (valueError "role result belongs to work that is not running")
  let .obj document := e.get "result" | throw (valueError "role result payload is malformed")
  let values ← roleListFields.foldlM tupleField document
  let roleResult ← orRaise "role result contract is invalid" (RoleResult.ofMembers values)
  if roleResult.resultDigest ≠ jsonDigest roleResult.bound ∨
      roleResult.missionId ≠ e.missionId ∨ roleResult.workId ≠ workId ∨
      e.attemptId ≠ some roleResult.attemptId ∨ roleResult.executorId ≠ e.actorId ∨
      e.actorRole ≠ some roleResult.role then
    throw (valueError "role result event binding is invalid")
  return work

end Digests

/-- `evaluation.bundle.recorded`. -/
def recordBundle (e : Event) (work : WorkEntry) : Except Exc WorkEntry := do
  let .str bundleRef := e.get "bundle_ref" | throw (valueError "evaluation bundle binding is invalid")
  if work.missionId ≠ e.missionId ∨ work.status ≠ .awaitingVerification ∨
      e.actorRole ≠ some "curator" ∨
      optionalText work.passedEvaluationDigest ≠ e.get "result_digest" ∨
      work.evaluationBundleDigest.isSome then
    throw (valueError "evaluation bundle binding is invalid")
  let .str digest := e.get "bundle_digest" | throw (valueError "evaluation bundle digest is invalid")
  let _ ← orRaise "evaluation bundle payload is invalid" (HistoricalEvidenceReference.make
    ("bundle:" ++ bundleRef) digest "phase-8-local" "retain").toOption
  return { work with evaluationBundleDigest := some digest }

/-! ## Closeout obligations -/

/-- The values a Python set can hold. -/
def Json.isHashable : Json → Bool
  | .arr _ | .obj _ => false
  | _ => true

/-- The payload of a `closeout.obligations.declared` event. -/
def checkObligations (e : Event) : Except Exc Unit := do
  let .arr roles := e.get "required_roles"
    | throw (valueError "closeout obligation payload is invalid")
  if roles = [] then throw (valueError "closeout obligation payload is invalid")
  if !roles.all Json.isHashable then throw (typeError "unhashable type")
  if ¬ roles.Nodup then throw (valueError "closeout obligation payload is invalid")
  let .arr historical := e.get "historical_evidence"
    | throw (valueError "closeout obligation payload is invalid")
  if !roles.all (fun role ↦ roleNames.any fun name ↦ role = .str name) then
    throw (valueError "closeout historical evidence is invalid")
  let references ← orRaise "closeout historical evidence is invalid"
    (historical.mapM fun item ↦ (HistoricalEvidenceReference.fromDocument item).toOption)
  if ¬ (references.map HistoricalEvidenceReference.receiptRef).Nodup then
    throw (valueError "closeout historical evidence is invalid")

/-! ## The reducer -/

/-- The common frame of the events about an existing work item: find it, update it, put it
back. -/
def onWork (s : ProjectionState) (e : Event) (unknown : String)
    (update : String → WorkEntry → Except Exc WorkEntry) : Except Exc ProjectionState :=
  match e.workId with
  | none => .error (valueError unknown)
  | some workId =>
    if workId = "" then .error (valueError unknown)
    else match s.work[workId]? with
      | none => .error (valueError unknown)
      | some work =>
        match update workId work with
        | .error err => .error err
        | .ok work' => .ok { s with work := s.work.insert workId work' }

def createMission (s : ProjectionState) (e : Event) : Except Exc ProjectionState :=
  match s.missions[e.missionId]? with
  | some _ => .error (valueError "mission already exists")
  | none => .ok { s with missions := s.missions.insert e.missionId .created }

def transitionMission (s : ProjectionState) (e : Event) : Except Exc ProjectionState :=
  match s.missions[e.missionId]? with
  | none => .error (valueError "mission transition belongs to an unknown mission")
  | some old =>
    match e.getItem "status" >>= MissionState.ofJson with
    | .error err => .error err
    | .ok new =>
      if new ∈ missionNext old then
        .ok { s with missions := s.missions.insert e.missionId new }
      else .error (valueError ("illegal mission transition: " ++ old.value ++ " -> " ++ new.value))

def createWork (s : ProjectionState) (e : Event) : Except Exc ProjectionState :=
  match e.workId with
  | none => .error (valueError "work id is missing or already exists")
  | some workId =>
    if workId = "" ∨ workId ∈ s.work then
      .error (valueError "work id is missing or already exists")
    else if e.missionId ∉ s.missions then
      .error (valueError "work belongs to unknown mission")
    else .ok { s with work := s.work.insert workId (.proposed e.missionId) }

def declareObligations (s : ProjectionState) (e : Event) : Except Exc ProjectionState :=
  if e.missionId ∉ s.missions ∨ e.actorRole ≠ some "orchestrator" then
    .error (valueError "closeout obligation authority is invalid")
  else match checkObligations e with
    | .error err => .error err
    | .ok () => .ok s

variable [Hash256]

/-- `reduce_event`. -/
def reduceEvent (s : ProjectionState) (e : Event) : Except Exc ProjectionState :=
  match e.kind with
  | some .missionCreated => createMission s e
  | some .missionTransition => transitionMission s e
  | some .workCreated => createWork s e
  | some .workTransition =>
    onWork s e "work transition belongs to an unknown work item" fun _ ↦ transitionWork e
  | some .evaluationPlanSealed =>
    onWork s e "evaluation plan belongs to an unknown work item" fun _ ↦ sealPlan e
  | some .evaluationResult =>
    onWork s e "evaluation result belongs to an unknown work item" fun _ ↦ recordResult e
  | some .evaluationBundleRecorded =>
    onWork s e "evaluation bundle belongs to an unknown work item" fun _ ↦ recordBundle e
  | some .closeoutObligationsDeclared => declareObligations s e
  | some .roleResult =>
    onWork s e "role result belongs to an unknown work item" (checkRoleResult e)
  | none => .error (valueError ("unknown kernel event type: " ++ e.eventType))

/-- The fold of the reducer over a list of events. -/
def reduceEvents (s : ProjectionState) (es : List Event) : Except Exc ProjectionState :=
  es.foldlM reduceEvent s

/-! ## What an accepted event does -/

omit [Hash256] in
theorem transitionWork_eq_ok {e : Event} {work work' : WorkEntry} :
    transitionWork e work = .ok work' ↔
      work.missionId = e.missionId ∧ ∃ new, (e.getItem "status" >>= WorkState.ofJson) = .ok new ∧
        new ∈ workNext work.status ∧
        (new = .accepted → ∃ d, work.passedEvaluationDigest = some d ∧
          e.get "evaluation_result_digest" = .str d) ∧
        work' = { work with status := new } := by
  have haccept : ∀ new : WorkState, ¬(new = .accepted ∧ (work.passedEvaluationDigest.isNone ∨
      e.get "evaluation_result_digest" ≠ optionalText work.passedEvaluationDigest)) ↔
      (new = .accepted → ∃ d, work.passedEvaluationDigest = some d ∧
        e.get "evaluation_result_digest" = .str d) := by
    intro new
    rw [not_and]
    cases work.passedEvaluationDigest <;> simp [optionalText]
  simp only [transitionWork, guard_eq_ok, bind_eq_ok, pure_eq_ok, not_not, haccept]
  constructor
  · rintro ⟨hm, j, hj, new, hnew, h⟩
    exact ⟨hm, new, ⟨j, hj, hnew⟩, h⟩
  · rintro ⟨hm, new, ⟨j, hj, hnew⟩, h⟩
    exact ⟨hm, j, hj, new, hnew, h⟩

theorem sealPlan_eq_ok {e : Event} {work work' : WorkEntry} :
    sealPlan e work = .ok work' ↔
      work.missionId = e.missionId ∧ work.status = .running ∧ e.actorRole = some "architect" ∧
        work.evaluationPlanDigest = none ∧ ∃ plan, sealedPlan e = .ok plan ∧
        work' = { work with evaluationPlanDigest := some plan.planDigest } := by
  simp only [sealPlan, guard_eq_ok, bind_eq_ok, pure_eq_ok, not_or, not_not,
    Option.not_isSome_iff_eq_none, and_assoc]

theorem recordResult_eq_ok {e : Event} {work work' : WorkEntry} :
    recordResult e work = .ok work' ↔
      work.missionId = e.missionId ∧ work.status = .awaitingVerification ∧
        e.actorRole = some "curator" ∧ ∃ evaluation, evaluationOf e = .ok evaluation ∧
        evaluation.resultDigest = jsonDigest evaluation.bound ∧
        work.evaluationPlanDigest = some evaluation.planDigest ∧
        evaluation.evaluatorId = e.actorId ∧
        work' = if evaluation.state = .passed then
          { work with passedEvaluationDigest := some evaluation.resultDigest } else work := by
  simp only [recordResult, guard_eq_ok, bind_eq_ok, not_or, not_not, and_assoc,
    ← apply_ite (pure : WorkEntry → Except Exc WorkEntry), pure_eq_ok]

omit [Hash256] in
theorem orRaise_eq_ok {α : Type} {message : String} {x : Option α} {a : α} :
    orRaise message x = .ok a ↔ x = some a := by
  cases x <;> simp [orRaise]

omit [Hash256] in
theorem recordBundle_eq_ok {e : Event} {work work' : WorkEntry} :
    recordBundle e work = .ok work' ↔
      ∃ bundleRef digest, e.get "bundle_ref" = .str bundleRef ∧ work.missionId = e.missionId ∧
        work.status = .awaitingVerification ∧ e.actorRole = some "curator" ∧
        optionalText work.passedEvaluationDigest = e.get "result_digest" ∧
        work.evaluationBundleDigest = none ∧ e.get "bundle_digest" = .str digest ∧
        (∃ r, (HistoricalEvidenceReference.make ("bundle:" ++ bundleRef) digest "phase-8-local"
          "retain").toOption = some r) ∧
        work' = { work with evaluationBundleDigest := some digest } := by
  rw [recordBundle]
  cases e.get "bundle_ref" with
  | str bundleRef =>
    cases e.get "bundle_digest" with
    | str digest =>
      simp only [guard_eq_ok, bind_eq_ok, pure_eq_ok, orRaise_eq_ok, not_or, not_not,
        Option.not_isSome_iff_eq_none, and_assoc, Json.str.injEq, exists_eq_left', exists_and_left,
        exists_and_right]
    | _ => simp [guard_eq_ok, throw_eq_ok]
  | _ => simp [throw_eq_ok]

/-- An accepted role result leaves its work item as it is. -/
theorem eq_of_checkRoleResult {e : Event} {workId : String} {work work' : WorkEntry}
    (h : checkRoleResult e workId work = .ok work') :
    work' = work ∧ work.missionId = e.missionId ∧ work.status = .running := by
  rw [checkRoleResult] at h
  simp only [guard_eq_ok, not_or, not_not] at h
  obtain ⟨⟨hmission, hstatus⟩, h⟩ := h
  split at h
  · simp only [bind_eq_ok, guard_eq_ok, pure_eq_ok] at h
    obtain ⟨_, _, _, _, _, hwork⟩ := h
    exact ⟨hwork, hmission, hstatus⟩
  · exact (throw_eq_ok.mp h).elim

/-- What an accepted event of the five kinds that concern a work item does to the item. -/
inductive WorkUpdate (e : Event) (workId : String) (work work' : WorkEntry) : Prop
  | transition (kind : e.kind = some .workTransition) (update : transitionWork e work = .ok work')
  | sealPlan (kind : e.kind = some .evaluationPlanSealed) (update : sealPlan e work = .ok work')
  | result (kind : e.kind = some .evaluationResult) (update : recordResult e work = .ok work')
  | bundle (kind : e.kind = some .evaluationBundleRecorded)
      (update : recordBundle e work = .ok work')
  | roleResult (kind : e.kind = some .roleResult)
      (update : checkRoleResult e workId work = .ok work')

/-- The item is one of the event's own mission, and stays so. -/
theorem WorkUpdate.missionId {e : Event} {workId : String} {work work' : WorkEntry}
    (h : WorkUpdate e workId work work') :
    work.missionId = e.missionId ∧ work'.missionId = work.missionId := by
  cases h with
  | transition _ update =>
    obtain ⟨hmission, _, _, _, _, rfl⟩ := transitionWork_eq_ok.mp update
    exact ⟨hmission, rfl⟩
  | sealPlan _ update =>
    obtain ⟨hmission, _, _, _, _, _, rfl⟩ := sealPlan_eq_ok.mp update
    exact ⟨hmission, rfl⟩
  | result _ update =>
    obtain ⟨hmission, _, _, _, _, _, _, _, rfl⟩ := recordResult_eq_ok.mp update
    exact ⟨hmission, by split <;> rfl⟩
  | bundle _ update =>
    obtain ⟨_, _, _, hmission, _, _, _, _, _, _, rfl⟩ := recordBundle_eq_ok.mp update
    exact ⟨hmission, rfl⟩
  | roleResult _ update =>
    obtain ⟨rfl, hmission, _⟩ := eq_of_checkRoleResult update
    exact ⟨hmission, rfl⟩

/-- What an accepted event does to the projection. -/
inductive ReduceStep (s : ProjectionState) (e : Event) : ProjectionState → Prop
  | missionCreated (kind : e.kind = some .missionCreated) (fresh : s.missions[e.missionId]? = none) :
      ReduceStep s e { s with missions := s.missions.insert e.missionId .created }
  | missionTransition (kind : e.kind = some .missionTransition) (old new : MissionState)
      (known : s.missions[e.missionId]? = some old)
      (status : (e.getItem "status" >>= MissionState.ofJson) = .ok new)
      (legal : new ∈ missionNext old) :
      ReduceStep s e { s with missions := s.missions.insert e.missionId new }
  | workCreated (kind : e.kind = some .workCreated) (workId : String)
      (named : e.workId = some workId) (nonempty : workId ≠ "") (fresh : s.work[workId]? = none)
      (mission : e.missionId ∈ s.missions) :
      ReduceStep s e { s with work := s.work.insert workId (.proposed e.missionId) }
  | workUpdated (workId : String) (work work' : WorkEntry) (named : e.workId = some workId)
      (nonempty : workId ≠ "") (known : s.work[workId]? = some work)
      (update : WorkUpdate e workId work work') :
      ReduceStep s e { s with work := s.work.insert workId work' }
  | obligations (kind : e.kind = some .closeoutObligationsDeclared)
      (mission : e.missionId ∈ s.missions) (role : e.actorRole = some "orchestrator")
      (payload : checkObligations e = .ok ()) :
      ReduceStep s e s

omit [Hash256] in
theorem onWork_eq_ok {s s' : ProjectionState} {e : Event} {unknown : String}
    {update : String → WorkEntry → Except Exc WorkEntry} :
    onWork s e unknown update = .ok s' ↔
      ∃ workId work work', e.workId = some workId ∧ workId ≠ "" ∧ s.work[workId]? = some work ∧
        update workId work = .ok work' ∧ s' = { s with work := s.work.insert workId work' } := by
  rw [onWork]
  cases e.workId with
  | none => simp
  | some workId =>
    by_cases hempty : workId = ""
    · simp [hempty]
    · simp only [hempty, if_false]
      cases hwork : s.work[workId]? with
      | none => simp [hwork]
      | some work =>
        cases hupdate : update workId work with
        | error err => simp [hwork, hupdate]
        | ok work' => simp [hwork, hupdate, hempty, eq_comm]

theorem reduceStep_of_reduceEvent {s s' : ProjectionState} {e : Event}
    (h : reduceEvent s e = .ok s') : ReduceStep s e s' := by
  have onWork_case : ∀ {unknown : String} {update : String → WorkEntry → Except Exc WorkEntry},
      (∀ workId work work', update workId work = .ok work' → WorkUpdate e workId work work') →
      onWork s e unknown update = .ok s' → ReduceStep s e s' := by
    intro unknown update hupdate hrun
    obtain ⟨workId, work, work', hnamed, hne, hknown, hitem, rfl⟩ := onWork_eq_ok.mp hrun
    exact .workUpdated workId work work' hnamed hne hknown (hupdate workId work work' hitem)
  rw [reduceEvent] at h
  split at h
  · next kind =>
    rw [createMission] at h
    split at h
    · exact nomatch h
    · next hfresh =>
      obtain rfl := Except.ok.inj h
      exact .missionCreated kind hfresh
  · next kind =>
    rw [transitionMission] at h
    split at h
    · exact nomatch h
    · next old hknown =>
      split at h
      · exact nomatch h
      · next new hstatus =>
        split at h
        · next hlegal =>
          obtain rfl := Except.ok.inj h
          exact .missionTransition kind old new hknown hstatus hlegal
        · exact nomatch h
  · next kind =>
    rw [createWork] at h
    split at h
    · exact nomatch h
    · next workId hnamed =>
      split at h
      · exact nomatch h
      · next hnew =>
        split at h
        · exact nomatch h
        · next hmission =>
          obtain rfl := Except.ok.inj h
          rw [not_or] at hnew
          exact .workCreated kind workId hnamed hnew.1 (ExtTreeMap.getElem?_eq_none hnew.2)
            (not_not.mp hmission)
  · next kind => exact onWork_case (fun _ _ _ ↦ .transition kind) h
  · next kind => exact onWork_case (fun _ _ _ ↦ .sealPlan kind) h
  · next kind => exact onWork_case (fun _ _ _ ↦ .result kind) h
  · next kind => exact onWork_case (fun _ _ _ ↦ .bundle kind) h
  · next kind =>
    rw [declareObligations] at h
    split at h
    · exact nomatch h
    · next hauth =>
      rw [not_or, not_not, not_not] at hauth
      split at h
      · exact nomatch h
      · next hpayload =>
        obtain rfl := Except.ok.inj h
        exact .obligations kind hauth.1 hauth.2 hpayload
  · next kind => exact onWork_case (fun _ _ _ ↦ .roleResult kind) h
  · exact nomatch h

theorem reduceEvent_of_reduceStep {s s' : ProjectionState} {e : Event}
    (h : ReduceStep s e s') : reduceEvent s e = .ok s' := by
  cases h with
  | missionCreated kind fresh => simp only [reduceEvent, kind, createMission, fresh]
  | missionTransition kind old new known status legal =>
    simp only [reduceEvent, kind, transitionMission, known, status, legal, if_true]
  | workCreated kind workId named nonempty fresh mission =>
    have hfresh : workId ∉ s.work := by
      rw [ExtTreeMap.mem_iff_isSome_getElem?, fresh]
      simp
    simp only [reduceEvent, kind, createWork, named, nonempty, hfresh, mission, not_true,
      or_self, if_false]
  | workUpdated workId work work' named nonempty known update =>
    cases update with
    | transition kind update | sealPlan kind update | result kind update | bundle kind update
    | roleResult kind update =>
      simp only [reduceEvent, kind]
      exact onWork_eq_ok.mpr ⟨workId, work, work', named, nonempty, known, update, rfl⟩
  | obligations kind mission role payload =>
    simp only [reduceEvent, kind, declareObligations, mission, role, payload, not_true, ne_eq,
      or_self, if_false]

/-- The reducer accepts an event exactly when the relation says what it does. -/
theorem reduceEvent_eq_ok {s s' : ProjectionState} {e : Event} :
    reduceEvent s e = .ok s' ↔ ReduceStep s e s' :=
  ⟨reduceStep_of_reduceEvent, reduceEvent_of_reduceStep⟩

end HiveMind
