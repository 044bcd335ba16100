import HiveMind.Missions.Intents
import HiveMind.Missions.StateContracts

/-!
# The stored state of a mission

The row of a mission has its status, its roles and its budget, and next to them the state document
that was made of them and of its checkpoints. `mark_status`, `mark_role` and `complete_step` commit
their own change first. Only then they make the document anew from the tables, validate it and store
it, in a transaction of its own. Recording an intent changes the tables, too, but leaves the
document as it is.

So the document is not always the one of the tables as they are. It is the one of the tables as they
were when the mission was registered or when the last of those calls on it returned.

* **`stored_state_valid`**: the stored document is always valid and is the document of the tables at
  that moment. A call that raises has changed nothing, or nothing but what it commits first.
-/

open Raise

namespace HiveMind.Missions

/-! ## The tables -/

/-- A row of `missions`. -/
structure StateRow extends MissionRow where
  missionId : String
  status : String
  configJson : String
  stateJson : String
  budgetJson : String
  reportJson : Option String
  blocker : Option String
  deriving DecidableEq

def StateRow.withState (row : StateRow) (text : String) : StateRow := { row with stateJson := text }

/-- What `mission` returns. -/
structure Mission where
  status : String
  config : Document
  state : Document
  roles : Document
  workspaces : Document
  budget : Document
  report : Option Document
  blocker : Option String

def StateRow.decode (row : StateRow) : Except StoreError Mission := do
  let config ← Document.loads row.configJson
  let state ← Document.loads row.stateJson
  let roles ← Document.loads row.rolesJson
  let workspaces ← Document.loads row.workspacesJson
  let budget ← Document.loads row.budgetJson
  let report ← row.reportJson.mapM Document.loads
  pure ⟨row.status, config, state, roles, workspaces, budget, report, row.blocker⟩

/-- The numbers of an `AutonomyBudget`. Those of compute units may be floats. -/
abbrev Units := Int ⊕ Decimal

def Units.toJson : Units → Json := Sum.elim .int .float

/-- `AutonomyBudget`, as far as it is stored. -/
structure AutonomyBudget where
  maxEpisodes : Int
  maxToolCalls : Int
  maxComputeUnits : Units
  maxToolCallsPerEpisode : Int
  maxComputeUnitsPerEpisode : Units
  episodesUsed : Int
  toolCallsUsed : Int
  computeUnitsUsed : Units

theorem Units.sorted_toJson (units : Units) : (Units.toJson units).Sorted := by
  cases units <;> trivial

/-- `_budget_payload`. -/
def budgetPayload (budget : AutonomyBudget) : Document :=
  .ofMembers [("max_episodes", .int budget.maxEpisodes),
      ("max_tool_calls", .int budget.maxToolCalls),
      ("max_compute_units", Units.toJson budget.maxComputeUnits),
      ("max_tool_calls_per_episode", .int budget.maxToolCallsPerEpisode),
      ("max_compute_units_per_episode", Units.toJson budget.maxComputeUnitsPerEpisode),
      ("episodes_used", .int budget.episodesUsed),
      ("tool_calls_used", .int budget.toolCallsUsed),
      ("compute_units_used", Units.toJson budget.computeUnitsUsed)]
    (by
      simp only [List.forall_mem_cons]
      exact ⟨trivial, trivial, Units.sorted_toJson _, trivial, Units.sorted_toJson _, trivial,
        trivial, Units.sorted_toJson _, nofun⟩)

/-- The tables and the files of a `MissionStore`. -/
structure MissionStore where
  missions : List StateRow
  checkpoints : List CheckpointRow
  idempotency : List IdempotencyRow
  files : List (String × String)

/-- What `refresh_state` can be told, besides the errors of the tables. -/
inductive StateError where
  | store (error : StoreError)
  | fileNotFound (path : String)
  deriving DecidableEq, Repr

abbrev MissionM := EStateM StateError MissionStore

def liftStore {α : Type} (x : Except StoreError α) : Except StateError α := x.mapError .store

namespace MissionStore

def new : MissionStore := ⟨[], [], [], []⟩

/-- The checkpoints and the files, with the keys of the missions. -/
def effects (s : MissionStore) : Store :=
  ⟨s.missions.map (·.missionId), s.checkpoints, s.idempotency, s.files⟩

def withEffects (s : MissionStore) (t : Store) : MissionStore :=
  { s with checkpoints := t.checkpoints, idempotency := t.idempotency, files := t.files }

/-- What is done to the checkpoints and the files. -/
def onEffects {α : Type} (x : StoreM α) : MissionM α := fun s ↦
  match x s.effects with
  | .ok a t => .ok a (s.withEffects t)
  | .error e t => .error (.store e) (s.withEffects t)

/-- `UPDATE missions SET … WHERE mission_id=?`. -/
def updateMission (s : MissionStore) (missionId : String) (f : StateRow → StateRow) :
    MissionStore :=
  { s with missions := Rows.update (·.missionId == missionId) f s.missions }

/-- `mission`. -/
def mission (s : MissionStore) (missionId : String) : Except StateError Mission :=
  match s.missions.find? (·.missionId == missionId) with
  | none => .error (.store (.keyError ("unknown mission: " ++ missionId)))
  | some row => liftStore row.decode

end MissionStore

section Digests

variable [Hash256]

/-! ## Making the document -/

/-- `checkpoint`, which only reads. -/
def readCheckpoint (effects : Store) (missionId : String) (stepIndex : Int) :
    Except StateError StepCheckpoint :=
  match checkpoint missionId stepIndex effects with
  | .ok cp _ => .ok cp
  | .error e _ => .error (.store e)

/-- `checkpoints`. -/
def readCheckpoints (effects : Store) (missionId : String) :
    Except StateError (List StepCheckpoint) :=
  let rows := effects.checkpoints.filter (·.missionId == missionId)
  (Rows.orderBy (·.stepIndex) rows).mapM fun row ↦ readCheckpoint effects missionId row.stepIndex

omit [Hash256] in
theorem sortedMembers_of_getItem {d : Document} {key : String} {ms : List (String × Json)}
    (h : d.getItem key = .ok (.obj ms)) : ∀ m ∈ ms, m.2.Sorted :=
  Json.sortedMembers_iff.mp (Document.sorted_of_getItem h).2

/-- `document[key]`, where a dict is expected. -/
def dictItem (d : Document) (key : String) : Except StoreError Document :=
  match h : d.getItem key with
  | .ok (.obj ms) => .ok (.ofMembers ms (sortedMembers_of_getItem h))
  | .ok _ => .error .malformed
  | .error e => .error e

/-- `reference["path"]`. -/
def referencePath (reference : Document) : Except StoreError String :=
  match reference.getItem "path" with
  | .ok (.str path) => .ok path
  | .ok _ => .error .malformed
  | .error e => .error e

/-- `Path(*path.split("/"))` below the state directory. -/
def statePath (path : String) : String :=
  let parts := (path.toList.splitOn '/').map String.ofList
  "/".intercalate (parts.filter fun part ↦ part ≠ "" ∧ part ≠ ".")

/-- What a reference refers to. -/
def readWrapper (effects : Store) (reference : Document) : Except StateError Document := do
  let path ← liftStore (referencePath reference)
  match effects.read (statePath path) with
  | none => .error (.fileNotFound path)
  | some content => liftStore (Document.loads content)

/-- What `refresh_state` makes the document of. -/
def stateSource (effects : Store) (missionId : String) (mission : Mission) :
    Except StateError StateSource := do
  let checkpoints ← readCheckpoints effects missionId
  let references := checkpoints.filterMap (·.receiptReference)
  let wrappers ← references.mapM (readWrapper effects)
  let receipts ← liftStore (wrappers.mapM (dictItem · "receipt"))
  let paths ← liftStore (references.mapM referencePath)
  pure {
    missionId := missionId
    status := mission.status
    config := mission.config
    roles := mission.roles.dict.members
    intents := checkpoints.map (·.intent)
    receipts := receipts
    blocker := mission.blocker
    receiptPaths := paths }

/-- The state document of the tables as they are. -/
def MissionStore.currentState (s : MissionStore) (missionId : String) (activeRole : Option Role)
    (now : String) : Except StateError Json := do
  let mission ← s.mission missionId
  let source ← stateSource s.effects missionId mission
  liftStore (stateDocument source activeRole now)

/-- The check of a state document before it is stored. -/
def checkState (message : String) (state : Json) : Except StateError Unit :=
  let issues := validateRuntimeState state
  if issues = [] then .ok ()
  else .error (.store (.storeIntegrity (message ++ "; ".intercalate issues)))

/-- `refresh_state`. -/
def refreshState (missionId : String) (activeRole : Option Role) (now : String) :
    MissionM Json := do
  let state ← lift ((← get).currentState missionId activeRole now)
  lift (checkState "persisted mission state violates schema: " state)
  modify (·.updateMission missionId (·.withState state.dumps))
  pure state

/-! ## The calls -/

namespace MissionStore

/-- The row of a new mission. -/
def newRow (missionId : String) (config : Document) (budget : AutonomyBudget) (state : Json) :
    StateRow where
  missionId := missionId
  status := "active"
  configJson := config.dumps
  stateJson := state.dumps
  rolesJson := pendingRoles.toJson.dumps
  workspacesJson := newMission.workspacesJson
  budgetJson := (budgetPayload budget).dumps
  reportJson := none
  blocker := none

/-- What the first document of a mission is made of. The dict of the roles is in the order of
`Role`. -/
def newSource (missionId : String) (config : Document) : StateSource where
  missionId := missionId
  status := "active"
  config := config
  roles := Role.all.map fun role ↦ (role.value, .str "pending")

/-- `INSERT INTO missions`. -/
def insertMission (row : StateRow) : MissionM Unit := do
  let s ← get
  if row.missionId ∈ s.missions.map (·.missionId) then
    throw (.store (.sqliteIntegrity "UNIQUE constraint failed: missions.mission_id"))
  set { s with missions := s.missions ++ [row] }

/-- `register_mission`. -/
def registerMission (missionId : String) (config : Document) (budget : AutonomyBudget)
    (now : String) : MissionM Unit := do
  let state ← lift (liftStore (stateDocument (newSource missionId config) none now))
  lift (checkState "initial mission state violates schema: " state)
  insertMission (newRow missionId config budget state)

/-- The transaction of `mark_status`. -/
def commitStatus (missionId status : String) (blocker : Option String)
    (report : Option Document) : MissionM Unit :=
  modify (·.updateMission missionId fun row ↦ { row with
    status := status, blocker := blocker,
    reportJson := (report.map Document.dumps).or row.reportJson })

/-- `mark_status`. -/
def markStatus (missionId status : String) (blocker : Option String) (report : Option Document)
    (now : String) : MissionM Unit := do
  commitStatus missionId status blocker report
  let _ ← refreshState missionId none now

/-- The transaction of `mark_role`, with what is read before. -/
def commitRole (missionId : String) (role : Role) (status : String) : MissionM Unit := do
  let mission ← lift ((← get).mission missionId)
  let roles := mission.roles.dict.set role.value (.str status)
  modify (·.updateMission missionId fun row ↦ { row with rolesJson := roles.toJson.dumps })

/-- `mark_role`. -/
def markRole (missionId : String) (role : Role) (status : String) (now : String) :
    MissionM Unit := do
  commitRole missionId role status
  let _ ← refreshState missionId (some role) now

/-- `update_budget`. -/
def updateBudget (missionId : String) (budget : AutonomyBudget) : MissionM Unit :=
  modify (·.updateMission missionId fun row ↦ { row with
    budgetJson := (budgetPayload budget).dumps })

/-- The transaction of `complete_step`. -/
def commitCompletion (cp : StepCheckpoint) (reference : ReceiptReference) (outcome : Document)
    (budget : Option AutonomyBudget) : MissionM Unit :=
  transaction do
    onEffects (Missions.completeStep cp reference outcome)
    match budget with
    | none => pure ()
    | some budget => updateBudget cp.missionId budget

/-- `complete_step`. -/
def completeStep (cp : StepCheckpoint) (reference : ReceiptReference) (outcome : Document)
    (budget : Option AutonomyBudget) (now : String) : MissionM Unit := do
  commitCompletion cp reference outcome budget
  let _ ← refreshState cp.missionId none now

/-- `update_workspace`, with the resolved path and what was found there. -/
def updateWorkspace (missionId key container : String) (snapshot : Document) : MissionM Unit := do
  let mission ← lift ((← get).mission missionId)
  let workspaces := mission.workspaces.dict.set key
    (.mkObj [("container", .str container), ("snapshot", snapshot.dict.toJson)])
  modify (·.updateMission missionId fun row ↦ { row with
    workspacesJson := workspaces.toJson.dumps })

end MissionStore

/-- A call that stores the document anew, with the time that it reads. -/
inductive RefreshCall where
  | markStatus (missionId status : String) (blocker : Option String) (report : Option Document)
      (now : String)
  | markRole (missionId : String) (role : Role) (status now : String)
  | completeStep (cp : StepCheckpoint) (reference : ReceiptReference) (outcome : Document)
      (budget : Option AutonomyBudget) (now : String)

namespace RefreshCall

def missionId : RefreshCall → String
  | markStatus missionId .. => missionId
  | markRole missionId .. => missionId
  | completeStep cp .. => cp.missionId

/-- The step that the call completes. -/
def step? : RefreshCall → Option (String × Int)
  | completeStep cp .. => some (cp.missionId, cp.stepIndex)
  | _ => none

/-- What the call commits before it makes the document. -/
def commit : RefreshCall → MissionM Unit
  | markStatus missionId status blocker report _ =>
    MissionStore.commitStatus missionId status blocker report
  | markRole missionId role status _ => MissionStore.commitRole missionId role status
  | completeStep cp reference outcome budget _ =>
    MissionStore.commitCompletion cp reference outcome budget

def perform : RefreshCall → MissionM Unit
  | markStatus missionId status blocker report now =>
    MissionStore.markStatus missionId status blocker report now
  | markRole missionId role status now => MissionStore.markRole missionId role status now
  | completeStep cp reference outcome budget now =>
    MissionStore.completeStep cp reference outcome budget now

end RefreshCall

/-- What can happen to a store. `reconcile_effect` and `reconcile_workspaces` make such calls one
after the other, and anybody may write files below the state directory. -/
inductive StateCall where
  | registerMission (missionId : String) (config : Document) (budget : AutonomyBudget)
      (now : String)
  | refresh (call : RefreshCall)
  | updateBudget (missionId : String) (budget : AutonomyBudget)
  | updateWorkspace (missionId key container : String) (snapshot : Document)
  | recordIntent (missionId : String) (stepIndex : Int) (intent : Document)
  | checkpointForIntent (missionId : String) (intent : Document) (minimumStepIndex : Int)
  | beginEffect (missionId : String) (stepIndex : Int) (now : String)
  | writeEffectReceipt (cp : StepCheckpoint) (outcome : Document) (records : List Document)
      (now : String)
  | writeFile (path content : String)

namespace StateCall

def perform : StateCall → MissionM Unit
  | registerMission missionId config budget now =>
    MissionStore.registerMission missionId config budget now
  | refresh call => call.perform
  | updateBudget missionId budget => MissionStore.updateBudget missionId budget
  | updateWorkspace missionId key container snapshot =>
    MissionStore.updateWorkspace missionId key container snapshot
  | recordIntent missionId stepIndex intent =>
    do let _ ← MissionStore.onEffects (Missions.recordIntent missionId stepIndex intent)
  | checkpointForIntent missionId intent minimumStepIndex =>
    do let _ ← MissionStore.onEffects
        (Missions.checkpointForIntent missionId intent minimumStepIndex)
  | beginEffect missionId stepIndex now =>
    do let _ ← MissionStore.onEffects (Missions.beginEffect missionId stepIndex now)
  | writeEffectReceipt cp outcome records now =>
    do let _ ← MissionStore.onEffects (Missions.writeEffectReceipt cp outcome records now)
  | writeFile path content => modify fun s ↦ { s with files := (path, content) :: s.files }

/-- What a call leaves behind, whether it returns or raises. -/
def run (s : MissionStore) (call : StateCall) : MissionStore := final (call.perform s)

/-- The mission whose document the call stores. -/
def target? : StateCall → Option String
  | registerMission missionId .. => some missionId
  | refresh call => some call.missionId
  | _ => none

/-- The call stores the document of the mission, and returns. -/
def Stores (s : MissionStore) (missionId : String) (call : StateCall) : Prop :=
  call.target? = some missionId ∧ isOk (call.perform s) = true

end StateCall

/-- The store after the calls. -/
def runs (calls : List StateCall) : MissionStore := calls.foldl StateCall.run .new

/-- The columns to which the calls that refresh commit nothing. -/
def StateRow.rest (row : StateRow) : String × String × String × String :=
  (row.missionId, row.configJson, row.workspacesJson, row.stateJson)

/-- All that has changed is what the call commits. -/
structure OwnChange (call : RefreshCall) (s s' : MissionStore) : Prop where
  committed : call.commit s = .ok () s'
  rest : s'.missions.map StateRow.rest = s.missions.map StateRow.rest
  missions : ∀ row, row.missionId ≠ call.missionId → (row ∈ s'.missions ↔ row ∈ s.missions)
  checkpoints : ∀ row, call.step? ≠ some row.key → (row ∈ s'.checkpoints ↔ row ∈ s.checkpoints)
  files : s'.files = s.files

/-- The text is the document of the mission as the tables have it, for a role and a time. -/
def IsDocument (s : MissionStore) (missionId text : String) : Prop :=
  ∃ activeRole now state, s.currentState missionId activeRole now = .ok state ∧
    text = state.dumps

/-- The text is read back as a valid document. -/
def IsValid (text : String) : Prop :=
  ∃ state, Json.loads text = some state ∧ validateRuntimeState state = []

/-- The text is the document that the last of the calls that stored one for the mission has made of
the tables. -/
def LastStored (calls : List StateCall) (missionId text : String) : Prop :=
  ∃ before call after, calls = before ++ call :: after ∧ call.Stores (runs before) missionId ∧
    IsDocument (runs (before ++ [call])) missionId text ∧
    ∀ mid later rest, after = mid ++ later :: rest →
      ¬later.Stores (runs (before ++ call :: mid)) missionId

variable {s s' t : MissionStore} {missionId : String} {activeRole : Option Role} {now : String}

/-! ## Refreshing -/

theorem checkState_eq_ok {message : String} {state : Json} {u : Unit} :
    checkState message state = .ok u ↔ validateRuntimeState state = [] := by
  simp only [checkState]
  split
  · next hvalid => exact ⟨fun _ ↦ hvalid, fun _ ↦ rfl⟩
  · next hissues => exact ⟨nofun, fun h ↦ absurd h hissues⟩

theorem refreshState_eq_ok {state : Json} :
    refreshState missionId activeRole now s = .ok state s' ↔
      s.currentState missionId activeRole now = .ok state ∧ validateRuntimeState state = [] ∧
        s' = s.updateMission missionId (·.withState state.dumps) := by
  simp only [refreshState, run_bind_eq_ok, run_get_eq_ok, run_lift_eq_ok, run_modify_eq_ok,
    run_pure_eq_ok, checkState_eq_ok]
  constructor
  · rintro ⟨_, _, ⟨rfl, rfl⟩, state, _, ⟨hstate, rfl⟩, _, _, ⟨hvalid, rfl⟩, _, _, rfl, rfl, rfl⟩
    exact ⟨hstate, hvalid, rfl⟩
  · rintro ⟨hstate, hvalid, rfl⟩
    exact ⟨s, s, ⟨rfl, rfl⟩, state, s, ⟨hstate, rfl⟩, (), s, ⟨hvalid, rfl⟩, (), _, rfl, rfl, rfl⟩

theorem refreshState_of_invalid {state : Json}
    (hstate : s.currentState missionId activeRole now = .ok state)
    (hinvalid : validateRuntimeState state ≠ []) :
    refreshState missionId activeRole now s = .error (.store (.storeIntegrity
      ("persisted mission state violates schema: " ++
        "; ".intercalate (validateRuntimeState state)))) s := by
  have hcheck : checkState "persisted mission state violates schema: " state =
      .error (.store (.storeIntegrity ("persisted mission state violates schema: " ++
        "; ".intercalate (validateRuntimeState state)))) := if_neg hinvalid
  rw [refreshState, run_bind_of_ok (run_get_eq_ok.mpr ⟨rfl, rfl⟩),
    run_bind_of_ok (run_lift_eq_ok.mpr ⟨hstate, rfl⟩), hcheck]
  rfl

/-- A document that is refused is not stored. -/
theorem atomic_refreshState (missionId : String) (activeRole : Option Role) (now : String) :
    Atomic (refreshState missionId activeRole now) := by
  refine atomic_bind atomic_get reads_get fun s ↦ ?_
  refine atomic_bind (atomic_lift _) (reads_lift _) fun state ↦ ?_
  exact atomic_bind (atomic_lift _) (reads_lift _) fun _ ↦ atomic_bind_pure (atomic_modify _)

/-! ## What is committed first -/

omit [Hash256] in
theorem RefreshCall.atomic_commit (call : RefreshCall) : Atomic call.commit := by
  cases call with
  | markStatus => exact atomic_modify _
  | markRole =>
    refine atomic_bind atomic_get reads_get fun s ↦ ?_
    exact atomic_bind (atomic_lift _) (reads_lift _) fun _ ↦ atomic_modify _
  | completeStep => exact atomic_transaction _

/-- Every such call commits its change and then refreshes the document. -/
theorem RefreshCall.perform_eq (call : RefreshCall) : ∃ activeRole now,
    call.perform = call.commit >>= fun _ ↦
      refreshState call.missionId activeRole now >>= fun _ ↦ pure () := by
  cases call with
  | markStatus missionId status blocker report now => exact ⟨none, now, rfl⟩
  | markRole missionId role status now => exact ⟨some role, now, rfl⟩
  | completeStep cp reference outcome budget now => exact ⟨none, now, rfl⟩

omit [Hash256] in
theorem MissionStore.mem_updateMission_of_ne {f : StateRow → StateRow} {row : StateRow}
    (hf : ∀ row : StateRow, (f row).missionId = row.missionId) (hne : row.missionId ≠ missionId) :
    row ∈ (s.updateMission missionId f).missions ↔ row ∈ s.missions :=
  Rows.mem_update_iff (fun _ h ↦ eq_of_beq h) hf hne

omit [Hash256] in
theorem MissionStore.map_updateMission {κ : Type} {key : StateRow → κ} {f : StateRow → StateRow}
    (hf : ∀ row, key (f row) = key row) :
    (s.updateMission missionId f).missions.map key = s.missions.map key :=
  Rows.map_key_update hf

omit [Hash256] in
theorem onEffects_eq_ok {α : Type} {x : StoreM α} {a : α} :
    MissionStore.onEffects x s = .ok a s' ↔ ∃ u, x s.effects = .ok a u ∧ s' = s.withEffects u := by
  rw [MissionStore.onEffects]
  cases x s.effects with
  | error e u => exact ⟨nofun, fun ⟨_, h, _⟩ ↦ nomatch h⟩
  | ok b u =>
    constructor
    · rintro ⟨⟩
      exact ⟨u, rfl, rfl⟩
    · rintro ⟨u, ⟨⟩, rfl⟩
      rfl

omit [Hash256] in
/-- The rows that a completion changes are those of its step. -/
theorem completeStep_eq_ok {effects effects' : Store} {cp : StepCheckpoint}
    {reference : ReceiptReference} {outcome : Document} {u : Unit}
    (h : completeStep cp reference outcome effects = .ok u effects') :
    effects'.files = effects.files ∧ ∀ row : CheckpointRow, row.key ≠ (cp.missionId, cp.stepIndex) →
      (row ∈ effects'.checkpoints ↔ row ∈ effects.checkpoints) := by
  simp only [completeStep, transaction_eq_ok, run_bind_eq_ok, requireM_eq_ok,
    run_modify_eq_ok] at h
  obtain ⟨_, _, ⟨-, rfl⟩, _, bound, hbind, rfl⟩ := h
  have hrows : bound.checkpoints = effects.checkpoints := checkpoints_bindIntent hbind
  refine ⟨?_, fun row hne ↦ ?_⟩
  · rcases of_bindIntent hbind with ⟨-, rfl⟩ | ⟨-, rfl⟩
    · rfl
    · rfl
  · rw [← hrows]
    refine Rows.mem_update_iff (fun old hold ↦ ?_) (fun _ ↦ rfl) hne
    exact eq_of_beq (Bool.and_eq_true _ _ ▸ hold).1

omit [Hash256] in
theorem updateBudget_eq_ok {budget : AutonomyBudget} {u : Unit}
    (h : MissionStore.updateBudget missionId budget s = .ok u s') :
    ∃ text, s' = s.updateMission missionId fun row ↦ { row with budgetJson := text } :=
  ⟨_, run_modify_eq_ok.mp h⟩

omit [Hash256] in
/-- What is committed is the call's own change. -/
theorem RefreshCall.ownChange {call : RefreshCall} (h : call.commit s = .ok () s') :
    OwnChange call s s' := by
  cases call with
  | markStatus missionId status blocker report now =>
    obtain rfl := run_modify_eq_ok.mp h
    exact ⟨h, MissionStore.map_updateMission fun _ ↦ rfl,
      fun row hne ↦ MissionStore.mem_updateMission_of_ne (fun _ ↦ rfl) hne, fun _ _ ↦ Iff.rfl, rfl⟩
  | markRole missionId role status now =>
    have hcommit := h
    simp only [commit, MissionStore.commitRole, run_bind_eq_ok, run_get_eq_ok, run_lift_eq_ok,
      run_modify_eq_ok] at hcommit
    obtain ⟨_, _, ⟨rfl, rfl⟩, mission, _, ⟨-, rfl⟩, rfl⟩ := hcommit
    exact ⟨h, MissionStore.map_updateMission fun _ ↦ rfl,
      fun row hne ↦ MissionStore.mem_updateMission_of_ne (fun _ ↦ rfl) hne, fun _ _ ↦ Iff.rfl, rfl⟩
  | completeStep cp reference outcome budget now =>
    have hcommit := h
    simp only [commit, MissionStore.commitCompletion, transaction_eq_ok, run_bind_eq_ok,
      onEffects_eq_ok] at hcommit
    obtain ⟨_, _, ⟨u, hcomplete, rfl⟩, hbudget⟩ := hcommit
    obtain ⟨hfiles, hrows⟩ := completeStep_eq_ok hcomplete
    have hstep : ∀ row : CheckpointRow, some (cp.missionId, cp.stepIndex) ≠ some row.key →
        row.key ≠ (cp.missionId, cp.stepIndex) := fun row hne heq ↦ hne (congrArg some heq.symm)
    cases budget with
    | none =>
      obtain rfl := (run_pure_eq_ok.mp hbudget).2
      exact ⟨h, rfl, fun _ _ ↦ Iff.rfl, fun row hne ↦ hrows row (hstep row hne), hfiles⟩
    | some budget =>
      obtain ⟨text, rfl⟩ := updateBudget_eq_ok hbudget
      exact ⟨h, MissionStore.map_updateMission fun _ ↦ rfl,
        fun row hne ↦ MissionStore.mem_updateMission_of_ne (fun _ ↦ rfl) hne,
        fun row hne ↦ hrows row (hstep row hne), hfiles⟩

/-- A call that raises has been refused before it committed anything, or leaves what it has
committed. -/
theorem RefreshCall.of_perform_eq_error {call : RefreshCall} {e : StateError}
    (h : call.perform s = .error e s') :
    (∃ e', call.commit s = .error e' s) ∧ s' = s ∨ OwnChange call s s' := by
  obtain ⟨activeRole, now, hperform⟩ := call.perform_eq
  rw [hperform] at h
  rcases run_bind_eq_error h with hcommit | ⟨_, t, hcommit, hrefresh⟩
  · obtain rfl := call.atomic_commit _ _ _ hcommit
    exact .inl ⟨⟨e, hcommit⟩, rfl⟩
  · right
    have hatomic := atomic_refreshState call.missionId activeRole now
    obtain rfl := atomic_bind_pure hatomic _ _ _ hrefresh
    exact ownChange hcommit

/-! ## Where a document is stored -/

omit [Hash256] in
theorem liftStore_eq_ok {α : Type} {x : Except StoreError α} {a : α} :
    liftStore x = .ok a ↔ x = .ok a := mapError_eq_ok

omit [Hash256] in
theorem StateRow.decode_eq_ok {row : StateRow} {mission : Mission} :
    row.decode = .ok mission ↔ Document.loads row.configJson = .ok mission.config ∧
      Document.loads row.stateJson = .ok mission.state ∧
      Document.loads row.rolesJson = .ok mission.roles ∧
      Document.loads row.workspacesJson = .ok mission.workspaces ∧
      Document.loads row.budgetJson = .ok mission.budget ∧
      row.reportJson.mapM Document.loads = .ok mission.report ∧
      row.status = mission.status ∧ row.blocker = mission.blocker := by
  simp only [decode, bind_eq_ok, pure_eq_ok]
  constructor
  · rintro ⟨_, hconfig, _, hstate, _, hroles, _, hworkspaces, _, hbudget, _, hreport, rfl⟩
    exact ⟨hconfig, hstate, hroles, hworkspaces, hbudget, hreport, rfl, rfl⟩
  · rintro ⟨hconfig, hstate, hroles, hworkspaces, hbudget, hreport, hstatus, hblocker⟩
    refine ⟨_, hconfig, _, hstate, _, hroles, _, hworkspaces, _, hbudget, _, hreport, ?_⟩
    rw [hstatus, hblocker]

omit [Hash256] in
theorem MissionStore.mission_eq_ok {mission : Mission} :
    s.mission missionId = .ok mission ↔
      ∃ row, s.missions.find? (·.missionId == missionId) = some row ∧ row.decode = .ok mission := by
  rw [MissionStore.mission]
  cases s.missions.find? (·.missionId == missionId) with
  | none => exact ⟨nofun, fun ⟨_, h, _⟩ ↦ nomatch h⟩
  | some row =>
    rw [liftStore_eq_ok]
    constructor
    · exact fun h ↦ ⟨row, rfl, h⟩
    · rintro ⟨_, ⟨⟩, h⟩
      exact h

omit [Hash256] in
/-- Another document makes no difference to what else `mission` returns. -/
theorem MissionStore.mission_withState {mission : Mission} {text : String} {d : Document}
    (hloads : Document.loads text = .ok d) (h : s.mission missionId = .ok mission) :
    (s.updateMission missionId (·.withState text)).mission missionId =
      .ok { mission with state := d } := by
  obtain ⟨row, hrow, hdecode⟩ := mission_eq_ok.mp h
  refine mission_eq_ok.mpr ⟨row.withState text, ?_, ?_⟩
  · have hfind : (Rows.update (StateRow.missionId · == missionId) (·.withState text)
        s.missions).find? (StateRow.missionId · == missionId) =
        if missionId = missionId then (s.missions.find? (·.missionId == missionId)).map
          (·.withState text) else s.missions.find? (·.missionId == missionId) :=
      Rows.find?_update fun _ hkey ↦ hkey
    rw [if_pos rfl, hrow] at hfind
    exact hfind
  · obtain ⟨hconfig, -, hrest⟩ := StateRow.decode_eq_ok.mp hdecode
    exact StateRow.decode_eq_ok.mpr ⟨hconfig, hloads, hrest⟩

omit [Hash256] in
theorem MissionStore.effects_updateMission {f : StateRow → StateRow}
    (hf : ∀ row : StateRow, (f row).missionId = row.missionId) :
    (s.updateMission missionId f).effects = s.effects := by
  rw [effects, map_updateMission hf]
  rfl

theorem MissionStore.currentState_eq_ok {state : Json} :
    s.currentState missionId activeRole now = .ok state ↔ ∃ mission source,
      s.mission missionId = .ok mission ∧ stateSource s.effects missionId mission = .ok source ∧
        stateDocument source activeRole now = .ok state := by
  simp only [currentState, bind_eq_ok, liftStore_eq_ok]
  constructor
  · rintro ⟨mission, hmission, source, hsource, hstate⟩
    exact ⟨mission, source, hmission, hsource, hstate⟩
  · rintro ⟨mission, source, hmission, hsource, hstate⟩
    exact ⟨mission, hmission, source, hsource, hstate⟩

theorem isValid_dumps {state : Json} (hsorted : state.Sorted)
    (hvalid : validateRuntimeState state = []) : IsValid state.dumps :=
  ⟨state, Json.loads_dumps hsorted, hvalid⟩

/-- What a refresh stores is the document of the tables as they are then. -/
theorem isDocument_of_refreshState {state : Json}
    (h : refreshState missionId activeRole now s = .ok state s') :
    ∀ row ∈ s'.missions, row.missionId = missionId →
      IsDocument s' missionId row.stateJson ∧ IsValid row.stateJson := by
  obtain ⟨hstate, hvalid, rfl⟩ := refreshState_eq_ok.mp h
  obtain ⟨mission, source, hmission, hsource, hdocument⟩ :=
    MissionStore.currentState_eq_ok.mp hstate
  obtain ⟨d, hd⟩ := loads_stateDocument hdocument
  have heffects : (s.updateMission missionId (·.withState state.dumps)).effects = s.effects :=
    MissionStore.effects_updateMission fun _ ↦ rfl
  have hcurrent : (s.updateMission missionId (·.withState state.dumps)).currentState missionId
      activeRole now = .ok state := by
    refine MissionStore.currentState_eq_ok.mpr ⟨{ mission with state := d }, source,
      MissionStore.mission_withState hd hmission, ?_, hdocument⟩
    rw [heffects]
    exact hsource
  refine Rows.forall_mem_update (fun row _ hother hrow ↦ ?_) fun row _ _ _ ↦ ?_
  · exact absurd (beq_iff_eq.mpr hrow) (Bool.eq_false_iff.mp hother)
  · exact ⟨⟨activeRole, now, state, hcurrent, rfl⟩,
      isValid_dumps (sorted_stateDocument hdocument) hvalid⟩

/-! ## Checkpoints are of missions that are there -/

def Store.Anchored (s : Store) : Prop := ∀ row ∈ s.checkpoints, row.missionId ∈ s.missions

/-- What can be done to the checkpoints and the files of the missions that are there. -/
def Store.Extends (s s' : Store) : Prop := s'.missions = s.missions ∧ (s.Anchored → s'.Anchored)

variable {effects effects' : Store}

omit [Hash256] in
theorem Store.extends_of_update {p : CheckpointRow → Bool} {f : CheckpointRow → CheckpointRow}
    (hf : ∀ row : CheckpointRow, (f row).missionId = row.missionId)
    (hmissions : effects'.missions = effects.missions)
    (hcheckpoints : effects'.checkpoints = Rows.update p f effects.checkpoints) :
    effects.Extends effects' := by
  refine ⟨hmissions, fun h ↦ ?_⟩
  rw [Anchored, hmissions, hcheckpoints]
  exact Rows.forall_mem_update (fun row hrow _ ↦ h row hrow) fun row hrow _ ↦ hf row ▸ h row hrow

omit [Hash256] in
theorem Store.extends_of_reaches (h : Relation.ReflTransGen Store.Extends effects effects') :
    effects.Extends effects' := by
  induction h with
  | refl => exact ⟨rfl, id⟩
  | tail _ hstep ih => exact ⟨hstep.1.trans ih.1, hstep.2 ∘ ih.2⟩

theorem steps_extends : Steps (fun _ _ _ ↦ True) Store.Extends where
  write _ _ := ⟨rfl, id⟩
  enter _ _ hinsert := by
    obtain ⟨-, -, hmission, rfl⟩ := insertCheckpoint_eq_ok.mp hinsert
    refine ⟨rfl, fun hanchored row hrow ↦ ?_⟩
    rcases List.mem_append.mp hrow with hrow | hrow
    · exact hanchored row hrow
    · rw [List.mem_singleton.mp hrow]
      exact hmission
  claim _ := by
    refine Store.extends_of_update ?_ rfl rfl
    exact fun _ ↦ rfl
  complete {s s' cp ref outcome} _ hbind := by
    have hmissions : s'.missions = s.missions := by
      rcases of_bindIntent hbind with ⟨-, rfl⟩ | ⟨-, rfl⟩
      · rfl
      · rfl
    refine Store.extends_of_update ?_ hmissions (congrArg _ (checkpoints_bindIntent hbind))
    exact fun _ ↦ rfl

/-! ## Registering a mission -/

omit [Hash256] in
theorem insertMission_eq_ok {row : StateRow} {u : Unit} :
    MissionStore.insertMission row s = .ok u s' ↔
      row.missionId ∉ s.missions.map (·.missionId) ∧
        s' = { s with missions := s.missions ++ [row] } := by
  simp only [MissionStore.insertMission, run_bind_eq_ok, run_get_eq_ok, run_guard_eq_ok,
    run_set_eq_ok]
  constructor
  · rintro ⟨_, _, ⟨rfl, rfl⟩, hnew, rfl⟩
    exact ⟨hnew, rfl⟩
  · rintro ⟨hnew, rfl⟩
    exact ⟨s, s, ⟨rfl, rfl⟩, hnew, rfl⟩

theorem registerMission_eq_ok {config : Document} {budget : AutonomyBudget} {u : Unit} :
    MissionStore.registerMission missionId config budget now s = .ok u s' ↔ ∃ state,
      stateDocument (MissionStore.newSource missionId config) none now = .ok state ∧
        validateRuntimeState state = [] ∧ missionId ∉ s.missions.map (·.missionId) ∧
        s' = { s with
          missions := s.missions ++ [MissionStore.newRow missionId config budget state] } := by
  simp only [MissionStore.registerMission, run_bind_eq_ok, run_lift_eq_ok, liftStore_eq_ok,
    checkState_eq_ok, insertMission_eq_ok]
  constructor
  · rintro ⟨state, _, ⟨hstate, rfl⟩, _, _, ⟨hvalid, rfl⟩, hnew, rfl⟩
    exact ⟨state, hstate, hvalid, hnew, rfl⟩
  · rintro ⟨state, hstate, hvalid, hnew, rfl⟩
    exact ⟨state, s, ⟨hstate, rfl⟩, (), s, ⟨hvalid, rfl⟩, hnew, rfl⟩

theorem atomic_registerMission (missionId : String) (config : Document) (budget : AutonomyBudget)
    (now : String) : Atomic (MissionStore.registerMission missionId config budget now) := by
  refine atomic_bind (atomic_lift _) (reads_lift _) fun state ↦ ?_
  refine atomic_bind (atomic_lift _) (reads_lift _) fun _ ↦ ?_
  exact atomic_bind atomic_get reads_get fun s ↦ atomic_guard (atomic_set _)

/-- The roles of a new mission, as they are read back. -/
def pendingDocument : Document := ⟨pendingRoles, sorted_pendingRoles⟩

def emptyDocument : Document := ⟨.ofMembers [], sorted_noWorkspaces⟩

/-- What `mission` returns for a new mission. -/
def newMissionRecord (config state : Document) (budget : AutonomyBudget) : Mission :=
  ⟨"active", config, state, pendingDocument, emptyDocument, budgetPayload budget, none, none⟩

omit [Hash256] in
theorem decode_newRow {config d : Document} {budget : AutonomyBudget} {state : Json}
    (hd : Document.loads state.dumps = .ok d) :
    (MissionStore.newRow missionId config budget state).decode =
      .ok (newMissionRecord config d budget) :=
  StateRow.decode_eq_ok.mpr ⟨config.loads_dumps, hd, pendingDocument.loads_dumps,
    emptyDocument.loads_dumps, (budgetPayload budget).loads_dumps, rfl, rfl, rfl⟩

theorem readCheckpoints_of_none {effects : Store}
    (h : ∀ row ∈ effects.checkpoints, row.missionId ≠ missionId) :
    readCheckpoints effects missionId = .ok [] := by
  have hnone : effects.checkpoints.filter (·.missionId == missionId) = [] :=
    List.filter_eq_nil_iff.mpr fun row hrow heq ↦ h row hrow (eq_of_beq heq)
  simp only [readCheckpoints, hnone]
  rfl

omit [Hash256] in
theorem lookup_pendingRoles (item : Role) :
    (Role.all.map fun role ↦ (role.value, Json.str "pending")).lookup item.value =
      pendingRoles.members.lookup item.value := by
  have h : ∀ item ∈ Role.all,
      (Role.all.map fun role ↦ (role.value, Json.str "pending")).lookup item.value =
        pendingRoles.members.lookup item.value := by decide
  exact h item (by cases item <;> decide)

/-- The document of a mission without checkpoints is made of its row. -/
theorem stateSource_of_none {effects : Store} (mission : Mission)
    (h : ∀ row ∈ effects.checkpoints, row.missionId ≠ missionId) :
    stateSource effects missionId mission = .ok {
      missionId := missionId
      status := mission.status
      config := mission.config
      roles := mission.roles.dict.members
      blocker := mission.blocker } := by
  rw [stateSource, readCheckpoints_of_none h]
  rfl

omit [Hash256] in
/-- The first document of a mission is made for the orchestrator. -/
theorem stateDocument_newSource (config : Document) :
    stateDocument { MissionStore.newSource missionId config with roles := pendingRoles.members }
      (some .orchestrator) now =
    stateDocument (MissionStore.newSource missionId config) none now := by
  have hrole : chosenRole (MissionStore.newSource missionId config).roles none =
      .ok .orchestrator := rfl
  have hroles : ∀ item : Role, (MissionStore.newSource missionId config).roles.lookup item.value =
      pendingRoles.members.lookup item.value := lookup_pendingRoles
  rw [stateDocument, stateDocument, hrole]
  simp only [stateOfRole_congr hroles, chosenRole, ok_bind]

omit [Hash256] in
theorem find?_concat_new {row : StateRow} (hrow : row.missionId = missionId)
    (hnew : missionId ∉ s.missions.map (·.missionId)) :
    (s.missions ++ [row]).find? (·.missionId == missionId) = some row := by
  have hnone : s.missions.find? (·.missionId == missionId) = none := by
    refine List.find?_eq_none.mpr fun old hold heq ↦ hnew ?_
    rw [← eq_of_beq heq]
    exact List.mem_map_of_mem hold
  have hkey : (row.missionId == missionId) = true := beq_iff_eq.mpr hrow
  simp only [List.find?_append, hnone, List.find?_cons, hkey, Option.none_or]

/-- What is stored for a new mission is the document of the tables as they are then. -/
theorem isDocument_of_registerMission {config : Document} {budget : AutonomyBudget} {u : Unit}
    (hanchored : s.effects.Anchored)
    (h : MissionStore.registerMission missionId config budget now s = .ok u s') :
    ∀ row ∈ s'.missions, row.missionId = missionId →
      IsDocument s' missionId row.stateJson ∧ IsValid row.stateJson := by
  obtain ⟨state, hstate, hvalid, hnew, rfl⟩ := registerMission_eq_ok.mp h
  obtain ⟨d, hd⟩ := loads_stateDocument hstate
  intro row hrow hmission
  rcases List.mem_append.mp hrow with hrow | hrow
  · exact absurd (hmission ▸ List.mem_map_of_mem hrow) hnew
  rw [List.mem_singleton.mp hrow]
  refine ⟨⟨some .orchestrator, now, state, ?_, rfl⟩,
    isValid_dumps (sorted_stateDocument hstate) hvalid⟩
  -- no checkpoint is of a mission that was not there
  have hnone : ∀ row ∈ s.checkpoints, row.missionId ≠ missionId := fun row hrow heq ↦
    hnew (heq ▸ hanchored row hrow)
  refine MissionStore.currentState_eq_ok.mpr ⟨newMissionRecord config d budget, _,
    MissionStore.mission_eq_ok.mpr ⟨MissionStore.newRow missionId config budget state,
      find?_concat_new rfl hnew, decode_newRow hd⟩, stateSource_of_none _ hnone, ?_⟩
  exact (stateDocument_newSource config).trans hstate

/-! ## What a call does to the documents -/

/-- No document changes. -/
def SameStates (s s' : MissionStore) : Prop :=
  s'.missions.map (fun row ↦ (row.missionId, row.stateJson)) =
    s.missions.map fun row ↦ (row.missionId, row.stateJson)

omit [Hash256] in
theorem SameStates.exists_row (h : SameStates s s') {row' : StateRow} (hrow' : row' ∈ s'.missions) :
    ∃ row ∈ s.missions, row.missionId = row'.missionId ∧ row.stateJson = row'.stateJson := by
  have hmem := List.mem_map_of_mem (f := fun row : StateRow ↦ (row.missionId, row.stateJson)) hrow'
  rw [SameStates] at h
  rw [h] at hmem
  obtain ⟨row, hrow, heq⟩ := List.mem_map.mp hmem
  exact ⟨row, hrow, Prod.mk.inj heq⟩

omit [Hash256] in
theorem SameStates.of_missions_eq (h : s'.missions = s.missions) : SameStates s s' := by
  rw [SameStates, h]

omit [Hash256] in
theorem OwnChange.sameStates {call : RefreshCall} (h : OwnChange call s s') : SameStates s s' := by
  have hmap := congrArg (List.map fun rest : String × String × String × String ↦
    (rest.1, rest.2.2.2)) h.rest
  rw [List.map_map, List.map_map] at hmap
  exact hmap

omit [Hash256] in
theorem missions_onEffects {α : Type} (x : StoreM α) :
    (final (MissionStore.onEffects x s)).missions = s.missions := by
  rw [MissionStore.onEffects]
  cases x s.effects <;> rfl

omit [Hash256] in
theorem SameStates.of_modify {f : StateRow → StateRow}
    (hf : ∀ row : StateRow, (f row).missionId = row.missionId ∧ (f row).stateJson = row.stateJson) :
    SameStates s (s.updateMission missionId f) :=
  MissionStore.map_updateMission fun row ↦ Prod.ext (hf row).1 (hf row).2

omit [Hash256] in
theorem final_updateWorkspace (key container : String) (snapshot : Document) :
    final (MissionStore.updateWorkspace missionId key container snapshot s) = s ∨ ∃ text,
      final (MissionStore.updateWorkspace missionId key container snapshot s) =
        s.updateMission missionId fun row ↦ { row with workspacesJson := text } := by
  have hatomic : Atomic (MissionStore.updateWorkspace missionId key container snapshot) := by
    refine atomic_bind atomic_get reads_get fun s ↦ ?_
    exact atomic_bind (atomic_lift _) (reads_lift _) fun _ ↦ atomic_modify _
  cases hrun : MissionStore.updateWorkspace missionId key container snapshot s with
  | error e s' => exact .inl (hatomic _ _ _ hrun)
  | ok u s' =>
    simp only [MissionStore.updateWorkspace, run_bind_eq_ok, run_get_eq_ok, run_lift_eq_ok,
      run_modify_eq_ok] at hrun
    obtain ⟨_, _, ⟨rfl, rfl⟩, mission, _, ⟨-, rfl⟩, rfl⟩ := hrun
    exact .inr ⟨_, rfl⟩

/-- A call that refreshes: it commits its change, and then stores the document. -/
theorem RefreshCall.perform_eq_ok {call : RefreshCall} {u : Unit}
    (h : call.perform s = .ok u s') : ∃ t activeRole now state, OwnChange call s t ∧
      refreshState call.missionId activeRole now t = .ok state s' := by
  obtain ⟨activeRole, now, hperform⟩ := call.perform_eq
  rw [hperform] at h
  obtain ⟨_, t, hcommit, hrefresh⟩ := run_bind_eq_ok.mp h
  obtain ⟨state, _, hstate, hend⟩ := run_bind_eq_ok.mp hrefresh
  obtain rfl := (run_pure_eq_ok.mp hend).2
  exact ⟨t, activeRole, now, state, ownChange hcommit, hstate⟩

/-- A call that does not store the document of a mission leaves it as it is. -/
theorem StateCall.exists_row {call : StateCall} (h : ¬call.Stores s missionId) {row' : StateRow}
    (hrow' : row' ∈ (call.run s).missions) (hmission : row'.missionId = missionId) :
    ∃ row ∈ s.missions, row.missionId = row'.missionId ∧ row.stateJson = row'.stateJson := by
  cases call with
  | registerMission id config budget now =>
    cases hrun : MissionStore.registerMission id config budget now s with
    | error e s' =>
      rw [run, perform, hrun] at hrow'
      obtain rfl := atomic_registerMission _ _ _ _ _ _ _ hrun
      exact ⟨row', hrow', rfl, rfl⟩
    | ok u s' =>
      obtain ⟨state, -, -, -, hs'⟩ := registerMission_eq_ok.mp hrun
      rw [run, perform, hrun, hs'] at hrow'
      rcases List.mem_append.mp hrow' with hrow | hrow
      · exact ⟨row', hrow, rfl, rfl⟩
      · -- the new mission is another one
        rw [List.mem_singleton.mp hrow] at hmission
        exact absurd ⟨congrArg some hmission, by rw [perform, hrun]; rfl⟩ h
  | refresh call =>
    cases hrun : call.perform s with
    | error e s' =>
      rw [run, perform, hrun] at hrow'
      rcases RefreshCall.of_perform_eq_error hrun with ⟨-, rfl⟩ | hchange
      · exact ⟨row', hrow', rfl, rfl⟩
      · exact hchange.sameStates.exists_row hrow'
    | ok u s' =>
      rw [run, perform, hrun] at hrow'
      obtain ⟨t, activeRole, now, state, hchange, hrefresh⟩ := RefreshCall.perform_eq_ok hrun
      have hne : row'.missionId ≠ call.missionId := fun heq ↦
        h ⟨congrArg some (heq.symm.trans hmission), by rw [perform, hrun]; rfl⟩
      obtain ⟨-, -, rfl⟩ := refreshState_eq_ok.mp hrefresh
      have hrow : row' ∈ t.missions :=
        (MissionStore.mem_updateMission_of_ne (f := (·.withState state.dumps)) (fun _ ↦ rfl)
          hne).mp hrow'
      exact hchange.sameStates.exists_row hrow
  | updateBudget id budget =>
    have hsame : SameStates s (run s (.updateBudget id budget)) := .of_modify fun _ ↦ ⟨rfl, rfl⟩
    exact hsame.exists_row hrow'
  | updateWorkspace id key container snapshot =>
    have hsame : SameStates s (run s (.updateWorkspace id key container snapshot)) := by
      rcases @final_updateWorkspace s id key container snapshot with heq | ⟨text, heq⟩
      · exact .of_missions_eq (congrArg _ heq)
      · rw [run, perform, heq]
        exact .of_modify fun _ ↦ ⟨rfl, rfl⟩
    exact hsame.exists_row hrow'
  | recordIntent | checkpointForIntent | beginEffect | writeEffectReceipt =>
    rw [run, perform, final_bind_pure, missions_onEffects] at hrow'
    exact ⟨row', hrow', rfl, rfl⟩
  | writeFile path content => exact ⟨row', hrow', rfl, rfl⟩

/-- A call that stores the document of a mission makes it of the tables. -/
theorem StateCall.Stores.isDocument {call : StateCall} (h : call.Stores s missionId)
    (hanchored : s.effects.Anchored) :
    ∀ row ∈ (call.run s).missions, row.missionId = missionId →
      IsDocument (call.run s) missionId row.stateJson ∧ IsValid row.stateJson := by
  obtain ⟨htarget, hok⟩ := h
  obtain ⟨u, s', hrun⟩ := exists_eq_ok hok
  rw [run, hrun]
  cases call with
  | registerMission id config budget now =>
    obtain rfl := Option.some.inj htarget
    exact isDocument_of_registerMission hanchored hrun
  | refresh call =>
    obtain rfl := Option.some.inj htarget
    obtain ⟨t, activeRole, now, state, -, hrefresh⟩ := RefreshCall.perform_eq_ok hrun
    exact isDocument_of_refreshState hrefresh
  | _ => exact nomatch htarget

/-! ## Runs -/

omit [Hash256] in
theorem MissionStore.effects_withEffects {u : Store} (h : u.missions = s.effects.missions) :
    (s.withEffects u).effects = u := by
  rw [effects, withEffects]
  change (⟨s.effects.missions, u.checkpoints, u.idempotency, u.files⟩ : Store) = u
  rw [← h]

omit [Hash256] in
theorem anchored_onEffects {α : Type} {x : StoreM α} (hx : Leads Store.Extends x s.effects)
    (h : s.effects.Anchored) : (final (MissionStore.onEffects x s)).effects.Anchored := by
  rw [MissionStore.onEffects]
  cases hrun : x s.effects with
  | ok a u =>
    obtain ⟨hmissions, hanchored⟩ := Store.extends_of_reaches (hx.1 a u hrun)
    rw [final, MissionStore.effects_withEffects hmissions]
    exact hanchored h
  | error e u =>
    obtain ⟨hmissions, hanchored⟩ := Store.extends_of_reaches (hx.2 e u hrun)
    rw [final, MissionStore.effects_withEffects hmissions]
    exact hanchored h

omit [Hash256] in
theorem anchored_updateMission {f : StateRow → StateRow}
    (hf : ∀ row : StateRow, (f row).missionId = row.missionId) (h : s.effects.Anchored) :
    (s.updateMission missionId f).effects.Anchored := by
  rw [MissionStore.effects_updateMission hf]
  exact h

omit [Hash256] in
theorem OwnChange.anchored {call : RefreshCall} (hchange : OwnChange call s s')
    (h : s.effects.Anchored) : s'.effects.Anchored := by
  have hcommit := hchange.committed
  cases call with
  | markStatus missionId status blocker report now =>
    obtain rfl := run_modify_eq_ok.mp hcommit
    exact anchored_updateMission (fun _ ↦ rfl) h
  | markRole missionId role status now =>
    simp only [RefreshCall.commit, MissionStore.commitRole, run_bind_eq_ok, run_get_eq_ok,
      run_lift_eq_ok, run_modify_eq_ok] at hcommit
    obtain ⟨_, _, ⟨rfl, rfl⟩, mission, _, ⟨-, rfl⟩, rfl⟩ := hcommit
    exact anchored_updateMission (fun _ ↦ rfl) h
  | completeStep cp reference outcome budget now =>
    simp only [RefreshCall.commit, MissionStore.commitCompletion, transaction_eq_ok,
      run_bind_eq_ok, onEffects_eq_ok] at hcommit
    obtain ⟨_, _, ⟨u, hcomplete, rfl⟩, hbudget⟩ := hcommit
    obtain ⟨hmissions, hanchored⟩ :=
      Store.extends_of_reaches ((steps_extends.completeStep trivial).1 () u hcomplete)
    have hrows : (s.withEffects u).effects.Anchored := by
      rw [MissionStore.effects_withEffects hmissions]
      exact hanchored h
    cases budget with
    | none => exact (run_pure_eq_ok.mp hbudget).2 ▸ hrows
    | some budget =>
      obtain ⟨text, rfl⟩ := updateBudget_eq_ok hbudget
      exact anchored_updateMission (fun _ ↦ rfl) hrows

theorem StateCall.anchored (call : StateCall) (h : s.effects.Anchored) :
    (call.run s).effects.Anchored := by
  cases call with
  | registerMission id config budget now =>
    cases hrun : MissionStore.registerMission id config budget now s with
    | error e s' =>
      rw [run, perform, hrun]
      exact atomic_registerMission _ _ _ _ _ _ _ hrun ▸ h
    | ok u s' =>
      obtain ⟨state, -, -, -, hs'⟩ := registerMission_eq_ok.mp hrun
      have hmissions : s'.missions.map (·.missionId) = s.missions.map (·.missionId) ++ [id] := by
        rw [hs', List.map_append]
        rfl
      rw [run, perform, hrun]
      intro row hrow
      rw [hs'] at hrow
      have hmem : row.missionId ∈ s'.missions.map (·.missionId) := by
        rw [hmissions]
        exact List.mem_append_left _ (h row hrow)
      exact hmem
  | refresh call =>
    cases hrun : call.perform s with
    | error e s' =>
      rw [run, perform, hrun]
      rcases RefreshCall.of_perform_eq_error hrun with ⟨-, rfl⟩ | hchange
      · exact h
      · exact hchange.anchored h
    | ok u s' =>
      rw [run, perform, hrun]
      obtain ⟨t, activeRole, now, state, hchange, hrefresh⟩ := RefreshCall.perform_eq_ok hrun
      obtain ⟨-, -, rfl⟩ := refreshState_eq_ok.mp hrefresh
      have hanchored := hchange.anchored h
      exact anchored_updateMission (f := (·.withState state.dumps)) (fun _ ↦ rfl) hanchored
  | updateBudget id budget =>
    exact anchored_updateMission (f := fun row ↦ { row with
      budgetJson := (budgetPayload budget).dumps }) (fun _ ↦ rfl) h
  | updateWorkspace id key container snapshot =>
    rw [run, perform]
    rcases @final_updateWorkspace s id key container snapshot with heq | ⟨text, heq⟩
    · rw [heq]
      exact h
    · rw [heq]
      exact anchored_updateMission (fun _ ↦ rfl) h
  | recordIntent missionId stepIndex intent =>
    rw [run, perform, final_bind_pure]
    exact anchored_onEffects (steps_extends.recordIntent missionId stepIndex intent) h
  | checkpointForIntent missionId intent minimum =>
    rw [run, perform, final_bind_pure]
    exact anchored_onEffects (steps_extends.checkpointForIntent missionId intent minimum) h
  | beginEffect missionId stepIndex now =>
    rw [run, perform, final_bind_pure]
    exact anchored_onEffects (steps_extends.beginEffect missionId stepIndex now) h
  | writeEffectReceipt cp outcome records now =>
    rw [run, perform, final_bind_pure]
    exact anchored_onEffects (steps_extends.writeEffectReceipt cp outcome records now) h
  | writeFile path content => exact h

theorem runs_concat (calls : List StateCall) (call : StateCall) :
    runs (calls ++ [call]) = call.run (runs calls) := by
  rw [runs, List.foldl_append, List.foldl_cons, List.foldl_nil, ← runs]

theorem anchored_runs (calls : List StateCall) : (runs calls).effects.Anchored := by
  induction calls using List.reverseRecOn with
  | nil => exact fun row hrow ↦ absurd hrow List.not_mem_nil
  | append_singleton calls call ih =>
    rw [runs_concat]
    exact call.anchored ih

/-- A document that is not stored anew is still the last one. -/
theorem LastStored.concat {calls : List StateCall} {text : String} {call : StateCall}
    (h : LastStored calls missionId text) (hnot : ¬call.Stores (runs calls) missionId) :
    LastStored (calls ++ [call]) missionId text := by
  obtain ⟨before, first, after, rfl, hstores, hdocument, hlast⟩ := h
  refine ⟨before, first, after ++ [call], ?_, hstores, hdocument, ?_⟩
  · rw [List.append_assoc, List.cons_append]
  · intro mid later rest heq
    rcases List.eq_nil_or_concat rest with rfl | ⟨rest, last, rfl⟩
    · -- the call itself
      obtain ⟨rfl, hcall⟩ := List.append_inj' heq rfl
      rw [← (List.cons.inj hcall).1]
      exact hnot
    · rw [List.concat_eq_append, ← List.cons_append, ← List.append_assoc] at heq
      exact hlast mid later rest (List.append_inj' heq rfl).1

theorem lastStored_runs (calls : List StateCall) :
    ∀ row ∈ (runs calls).missions,
      IsValid row.stateJson ∧ LastStored calls row.missionId row.stateJson := by
  induction calls using List.reverseRecOn with
  | nil => exact fun row hrow ↦ absurd hrow List.not_mem_nil
  | append_singleton calls call ih =>
    intro row hrow
    by_cases hstores : call.Stores (runs calls) row.missionId
    · rw [runs_concat] at hrow
      obtain ⟨hdocument, hvalid⟩ := hstores.isDocument (anchored_runs calls) row hrow rfl
      refine ⟨hvalid, calls, call, [], rfl, hstores, ?_, ?_⟩
      · rw [runs_concat]
        exact hdocument
      · exact fun mid later rest heq ↦
          absurd heq.symm (List.append_ne_nil_of_right_ne_nil mid (List.cons_ne_nil later rest))
    · rw [runs_concat] at hrow
      obtain ⟨old, hold, hmission, hstate⟩ := call.exists_row hstores hrow rfl
      obtain ⟨hvalid, hlast⟩ := ih old hold
      rw [hmission, hstate] at hlast
      exact ⟨hstate ▸ hvalid, hlast.concat hstores⟩

/-- **A call that raises changes nothing, or nothing but what it commits first. The stored document
of a mission is valid and is the one that was made last.** -/
theorem stored_state_valid (calls : List StateCall) :
    (∀ (call : RefreshCall) (e : StateError) (s' : MissionStore),
      call.perform (runs calls) = .error e s' →
        (∃ e', call.commit (runs calls) = .error e' (runs calls)) ∧ s' = runs calls ∨
          OwnChange call (runs calls) s') ∧
    ∀ row ∈ (runs calls).missions,
      IsValid row.stateJson ∧ LastStored calls row.missionId row.stateJson :=
  ⟨fun _ _ _ h ↦ RefreshCall.of_perform_eq_error h, lastStored_runs calls⟩

end Digests

/-! ## A mission that is declared complete -/

def sampleConfig : Document :=
  .ofMembers [("objective", .str "repair the parser"), ("repository", .str "/work/repo"),
      ("source_pack_fingerprint",
        .str "sha256:0000000000000000000000000000000000000000000000000000000000000000")]
    (by simp [Json.Sorted])

def sampleBudget : AutonomyBudget := ⟨4, 40, .inl 100, 20, .inl 100, 0, 0, .inl 0⟩

def sampleNow : String := "2029-01-01T00:00:00Z"

/-- A mission that has just been registered. -/
def registerSample : StateCall := .registerMission "MISSION-1" sampleConfig sampleBudget sampleNow

def completeSample : RefreshCall := .markStatus "MISSION-1" "succeeded" none none sampleNow

/-- The document of the mission with the given status. -/
def sampleState (status : String) (role : Role) : Json :=
  stateOfRole { MissionStore.newSource "MISSION-1" sampleConfig with status := status } role
    (.str "repair the parser")
    (.str "sha256:0000000000000000000000000000000000000000000000000000000000000000") sampleNow

/-- The row of the mission, and a store with nothing else in it. -/
def sampleRow (status : String) : StateRow :=
  { MissionStore.newRow "MISSION-1" sampleConfig sampleBudget
      (sampleState "active" .orchestrator) with status := status }

def sampleStore (status : String) : MissionStore := ⟨[sampleRow status], [], [], []⟩

theorem stateDocument_sample :
    stateDocument (MissionStore.newSource "MISSION-1" sampleConfig) none sampleNow =
      .ok (sampleState "active" .orchestrator) := rfl

theorem validate_active : validateRuntimeState (sampleState "active" .orchestrator) = [] := by
  decide +kernel

theorem validate_succeeded : validateRuntimeState (sampleState "succeeded" .architect) =
    ["completion is missing successful role runs: builder, curator, explorer"] := by decide +kernel

theorem runs_registerSample : runs [registerSample] = sampleStore "active" := by
  have hrun : registerSample.perform .new = .ok () (sampleStore "active") :=
    registerMission_eq_ok.mpr ⟨sampleState "active" .orchestrator, stateDocument_sample,
      validate_active, List.not_mem_nil, rfl⟩
  rw [runs, List.foldl_cons, List.foldl_nil, StateCall.run, hrun, final]

theorem currentState_sample (status : String) :
    (sampleStore status).currentState "MISSION-1" none sampleNow =
      .ok (sampleState status .architect) := by
  obtain ⟨d, hd⟩ := loads_stateDocument stateDocument_sample
  have hdecode : (sampleRow status).decode =
      .ok { newMissionRecord sampleConfig d sampleBudget with status := status } := by
    obtain ⟨hconfig, hstate, hroles, hworkspaces, hbudget, hreport, -, hblocker⟩ :=
      StateRow.decode_eq_ok.mp (@decode_newRow "MISSION-1" _ _ sampleBudget _ hd)
    exact StateRow.decode_eq_ok.mpr ⟨hconfig, hstate, hroles, hworkspaces, hbudget, hreport, rfl,
      hblocker⟩
  have hnone : ∀ row ∈ (sampleStore status).effects.checkpoints, row.missionId ≠ "MISSION-1" :=
    fun row hrow ↦ absurd hrow List.not_mem_nil
  refine MissionStore.currentState_eq_ok.mpr ⟨_, _, MissionStore.mission_eq_ok.mpr
    ⟨sampleRow status, rfl, hdecode⟩, stateSource_of_none _ hnone, ?_⟩
  have hrole : chosenRole pendingRoles.members none = .ok .architect := by decide
  have hobjective : sampleConfig.getItem "objective" = .ok (.str "repair the parser") := rfl
  have hfingerprint : sampleConfig.getItem "source_pack_fingerprint" =
      .ok (.str "sha256:0000000000000000000000000000000000000000000000000000000000000000") := rfl
  have hroles : ∀ item : Role,
      ({ MissionStore.newSource "MISSION-1" sampleConfig with status := status } :
        StateSource).roles.lookup item.value = pendingRoles.members.lookup item.value :=
    lookup_pendingRoles
  rw [sampleState, stateOfRole_congr hroles]
  simp only [stateDocument, newMissionRecord, pendingDocument, hrole, hobjective, hfingerprint,
    ok_bind]
  rfl

theorem commit_completeSample :
    completeSample.commit (sampleStore "active") = .ok () (sampleStore "succeeded") :=
  run_modify_eq_ok.mpr rfl

theorem perform_completeSample :
    completeSample.perform (sampleStore "active") = .error (.store (.storeIntegrity
        ("persisted mission state violates schema: " ++ "; ".intercalate
          ["completion is missing successful role runs: builder, curator, explorer"])))
      (sampleStore "succeeded") := by
  have hinvalid : validateRuntimeState (sampleState "succeeded" .architect) ≠ [] := by
    rw [validate_succeeded]
    exact List.cons_ne_nil _ _
  have hrefresh := refreshState_of_invalid (currentState_sample "succeeded") hinvalid
  rw [validate_succeeded] at hrefresh
  have hperform : completeSample.perform = completeSample.commit >>= fun _ ↦
      refreshState "MISSION-1" none sampleNow >>= fun _ ↦ pure () := rfl
  rw [hperform, run_bind_of_ok commit_completeSample, run_bind_of_error hrefresh]

/-- The mission is declared complete, which is refused, but from then on its row says so. -/
theorem refused_status_kept :
    (∃ e, completeSample.perform (runs [registerSample]) = .error e (sampleStore "succeeded")) ∧
    (runs [registerSample]).missions = [sampleRow "active"] ∧
    (sampleStore "succeeded").missions = [sampleRow "succeeded"] ∧
    (sampleRow "succeeded").status ≠ (sampleRow "active").status ∧
    (sampleRow "succeeded").stateJson = (sampleRow "active").stateJson := by
  rw [runs_registerSample]
  exact ⟨⟨_, perform_completeSample⟩, rfl, rfl, by decide, rfl⟩

theorem sample_stored :
    OwnChange completeSample (runs [registerSample]) (sampleStore "succeeded") ∧
    IsValid (sampleRow "active").stateJson ∧
    LastStored [registerSample] "MISSION-1" (sampleRow "active").stateJson := by
  have h := stored_state_valid [registerSample]
  rw [runs_registerSample] at h ⊢
  refine ⟨?_, h.2 (sampleRow "active") List.mem_cons_self⟩
  rcases h.1 completeSample _ _ perform_completeSample with ⟨⟨e, hrefused⟩, -⟩ | hchange
  · rw [commit_completeSample] at hrefused
    exact nomatch hrefused
  · exact hchange

end HiveMind.Missions
