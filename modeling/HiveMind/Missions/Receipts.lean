import HiveMind.Kernel.Values
import HiveMind.Lib.Interleave
import HiveMind.Lib.Rows
import HiveMind.Missions.ToolContracts

/-!
# Effects of a mission and their receipts

A step of a mission is recorded as a checkpoint before its effect is run. The outcome of the effect
is put into a receipt file, and then the checkpoint is completed with a reference to that file and
with the outcome. A file that is there is never written again: who comes later with another outcome
is given the reference to the file as it is. The row of the checkpoint, however, is written by every
completion, also when the step is completed already.

* **`completed_outcome_kept`**: what the idempotency table binds stays bound in every run, and in
  every run whose completions give the outcome of the receipt that they refer to, completed
  checkpoints agree with their receipts and do not change.
-/

open Raise

namespace HiveMind.Missions

/-! ## The store -/

/-- What a caller of the store can be told. `malformed` stands for what the JSON decoder raises and
for documents that are not objects, `overflow` for what the database driver raises for a number of
more than 64 bits. -/
inductive StoreError where
  | storeIntegrity (message : String)
  | reconciliation (message : String) (missionId : String) (stepIndex : Int) (intentDigest : String)
  | valueError (message : String)
  | keyError (key : String)
  | unknownCheckpoint (missionId : String) (stepIndex : Int)
  | sqliteIntegrity (message : String)
  | malformed
  | overflow
  deriving DecidableEq, Repr

inductive StepState where
  | intent
  | completed
  deriving DecidableEq, Repr

/-- A row of `checkpoints`. -/
structure CheckpointRow where
  missionId : String
  stepIndex : Int
  intentDigest : String
  state : StepState
  intentJson : String
  outcomeJson : Option String
  receiptRefJson : Option String
  executionCount : Nat
  deriving DecidableEq

def CheckpointRow.key (row : CheckpointRow) : String × Int := (row.missionId, row.stepIndex)

/-- A row of `idempotency`. -/
structure IdempotencyRow where
  intentDigest : String
  missionId : String
  stepIndex : Int
  receiptRefJson : String
  deriving DecidableEq

/-- The tables and the files below the state directory, each with the text it holds. -/
structure Store where
  missions : List String
  checkpoints : List CheckpointRow
  idempotency : List IdempotencyRow
  files : List (String × String)
  deriving DecidableEq

namespace Store

/-- A store with the given missions and nothing done. -/
def new (missions : List String) : Store := ⟨missions, [], [], []⟩

/-- `SELECT * FROM checkpoints WHERE mission_id=? AND step_index=?`. -/
def row (s : Store) (missionId : String) (stepIndex : Int) : Option CheckpointRow :=
  s.checkpoints.find? (·.key == (missionId, stepIndex))

/-- `SELECT * FROM idempotency WHERE intent_digest=?`. -/
def binding (s : Store) (digest : String) : Option IdempotencyRow :=
  s.idempotency.find? (·.intentDigest == digest)

def read (s : Store) (path : String) : Option String := s.files.lookup path

/-- `_atomic_write` to a path where no file is. -/
def write (s : Store) (path content : String) : Store :=
  { s with files := s.files ++ [(path, content)] }

def addCheckpoint (s : Store) (row : CheckpointRow) : Store :=
  { s with checkpoints := s.checkpoints ++ [row] }

def addBinding (s : Store) (row : IdempotencyRow) : Store :=
  { s with idempotency := s.idempotency ++ [row] }

/-- `UPDATE checkpoints SET execution_count=execution_count+1 …`. -/
def claim (s : Store) (missionId : String) (stepIndex : Int) : Store :=
  let isClaimed (row : CheckpointRow) : Bool :=
    row.key == (missionId, stepIndex) && row.state == .intent && row.executionCount == 0
  let claimed (row : CheckpointRow) : CheckpointRow :=
    { row with executionCount := row.executionCount + 1 }
  { s with checkpoints := Rows.update isClaimed claimed s.checkpoints }

end Store

abbrev StoreM := EStateM StoreError Store

def requireM (c : Prop) [Decidable c] (e : StoreError) : StoreM Unit :=
  if c then pure () else throw e

/-- The numbers that an `INTEGER` column holds. -/
def FitsColumn (n : Int) : Prop := -2 ^ 63 ≤ n ∧ n < 2 ^ 63

instance (n : Int) : Decidable (FitsColumn n) := inferInstanceAs (Decidable (_ ∧ _))

/-- A dict with names for keys, and such dicts inside of it. -/
structure Document where
  dict : Json.Dict
  sorted : dict.toJson.Sorted
  deriving DecidableEq

namespace Document

def get? (d : Document) (key : String) : Option Json := d.dict.get? key

/-- `document[key]`. -/
def getItem (d : Document) (key : String) : Except StoreError Json :=
  match d.get? key with
  | some value => .ok value
  | none => .error (.keyError key)

/-- The document with the given members. -/
def ofMembers (ms : List (String × Json)) (h : ∀ m ∈ ms, m.2.Sorted) : Document :=
  ⟨.ofMembers ms, Json.sorted_mkObj h⟩

def dumps (d : Document) : String := d.dict.toJson.dumps

/-- `json.loads` where an object is expected. -/
def loads (text : String) : Except StoreError Document :=
  match h : Json.loads text with
  | some (.obj ms) =>
    .ok (.ofMembers ms fun m hm ↦ Json.sortedMembers_iff.mp (Json.sorted_of_loads h).2 m hm)
  | _ => .error .malformed

end Document

/-- `StepCheckpoint`. -/
structure StepCheckpoint where
  missionId : String
  stepIndex : Int
  intentDigest : String
  state : StepState
  intent : Document
  outcome : Option Document
  receiptReference : Option Document
  executionCount : Nat

/-- `UPDATE checkpoints SET state='completed' …`. There is no condition on the state. -/
def Store.complete (s : Store) (cp : StepCheckpoint) (outcomeJson receiptRefJson : String) :
    Store :=
  let isCompleted (row : CheckpointRow) : Bool :=
    row.key == (cp.missionId, cp.stepIndex) && row.intentDigest == cp.intentDigest
  let completed (row : CheckpointRow) : CheckpointRow :=
    { row with state := .completed, outcomeJson := outcomeJson, receiptRefJson := receiptRefJson }
  { s with checkpoints := Rows.update isCompleted completed s.checkpoints }

/-- What a completion refers to. -/
structure ReceiptReference where
  path : String
  digest : String
  deriving DecidableEq

def ReceiptReference.toJson (ref : ReceiptReference) : Json :=
  .obj [("digest", .str ref.digest), ("path", .str ref.path)]

section Digests

variable [Hash256]

/-! ## Checkpoints -/

/-- `checkpoint`. -/
def checkpoint (missionId : String) (stepIndex : Int) : StoreM StepCheckpoint := do
  requireM (FitsColumn stepIndex) .overflow
  match (← get).row missionId stepIndex with
  | none => throw (.unknownCheckpoint missionId stepIndex)
  | some row =>
    let intent ← lift (Document.loads row.intentJson)
    let observed := toolIntentDigest intent.dict
    requireM (row.intentDigest = observed ∧ intent.get? "action_digest" = some (.str observed))
      (.storeIntegrity ("checkpoint " ++ toString stepIndex ++
        " digest no longer binds its intent"))
    let outcome ← lift (row.outcomeJson.mapM Document.loads)
    let receipt ← lift (row.receiptRefJson.mapM Document.loads)
    pure ⟨missionId, stepIndex, row.intentDigest, row.state, intent, outcome, receipt,
      row.executionCount⟩

/-- The checks of an intent before it is recorded, and its digest. -/
def checkIntent (intent : Document) : Except StoreError String :=
  let digest := toolIntentDigest intent.dict
  let issues := contractIssues toolIntent intent.dict.toJson
  if intent.get? "action_digest" ≠ some (.str digest) then
    .error (.storeIntegrity "intent action_digest is not canonical")
  else if issues ≠ [] then
    .error (.storeIntegrity ("checkpoint intent violates schema: " ++ "; ".intercalate issues))
  else .ok digest

/-- `INSERT INTO checkpoints`. -/
def insertCheckpoint (missionId : String) (stepIndex : Int) (digest : String) (intent : Document) :
    StoreM Unit := do
  let s ← get
  requireM (s.row missionId stepIndex = none) (.sqliteIntegrity
    "UNIQUE constraint failed: checkpoints.mission_id, checkpoints.step_index")
  requireM (∀ row ∈ s.checkpoints, ¬(row.missionId = missionId ∧ row.intentDigest = digest))
    (.sqliteIntegrity
      "UNIQUE constraint failed: checkpoints.mission_id, checkpoints.intent_digest")
  requireM (missionId ∈ s.missions) (.sqliteIntegrity "FOREIGN KEY constraint failed")
  set (s.addCheckpoint
    ⟨missionId, stepIndex, digest, .intent, intent.dumps, none, none, 0⟩)

/-- `record_intent`. -/
def recordIntent (missionId : String) (stepIndex : Int) (intent : Document) :
    StoreM StepCheckpoint := do
  let digest ← lift (checkIntent intent)
  transaction do
    requireM (FitsColumn stepIndex) .overflow
    if (← get).row missionId stepIndex = none then
      insertCheckpoint missionId stepIndex digest intent
  checkpoint missionId stepIndex

/-- `SELECT COALESCE(MAX(step_index),-1)+1`. -/
def nextStep (s : Store) (missionId : String) : Int :=
  match ((s.checkpoints.filter (·.missionId == missionId)).map (·.stepIndex)).max? with
  | none => 0
  | some last => last + 1

/-- The step of an intent, allocated if it has none. -/
def allocateStep (missionId : String) (digest : String) (intent : Document) (minimum : Int) :
    StoreM Int := do
  let s ← get
  match s.checkpoints.find? fun row ↦ row.missionId == missionId && row.intentDigest == digest with
  | some row => pure row.stepIndex
  | none =>
    let stepIndex := max minimum (nextStep s missionId)
    requireM (FitsColumn stepIndex) .overflow
    insertCheckpoint missionId stepIndex digest intent
    pure stepIndex

/-- `checkpoint_for_intent`. -/
def checkpointForIntent (missionId : String) (intent : Document) (minimumStepIndex : Int) :
    StoreM StepCheckpoint := do
  requireM (0 ≤ minimumStepIndex) (.valueError "minimum checkpoint index cannot be negative")
  let digest ← lift (checkIntent intent)
  let stepIndex ← transaction (allocateStep missionId digest intent minimumStepIndex)
  let found ← checkpoint missionId stepIndex
  requireM (found.intent = intent)
    (.storeIntegrity "idempotency digest maps to a different canonical intent")
  pure found

/-! ## Effects -/

/-- The name of a file for a digest. -/
def digestFileName (digest : String) : String :=
  (if digest.toList.take 7 = "sha256:".toList then String.ofList (digest.toList.drop 7)
    else digest) ++ ".json"

/-- `effect_intent_path`. -/
def effectIntentPath (missionId digest : String) : String :=
  "missions/" ++ missionId ++ "/effect-intents/" ++ digestFileName digest

/-- `_write_ahead_effect`, with the time that it reads. -/
def writeAheadEffect (cp : StepCheckpoint) (now : String) : StoreM Json := do
  let path := effectIntentPath cp.missionId cp.intentDigest
  let key ← lift (cp.intent.getItem "idempotency_key")
  let actionId ← lift (cp.intent.getItem "action_id")
  let kind ← lift (cp.intent.getItem "kind")
  let stateRef ← lift (cp.intent.getItem "state_ref")
  let record := Json.mkObj [("schema_version", .int 1), ("mission_id", .str cp.missionId),
    ("step_index", .int cp.stepIndex), ("intent_digest", .str cp.intentDigest),
    ("idempotency_key", key), ("action_id", actionId), ("action_kind", kind),
    ("state_ref", stateRef), ("recorded_at", .str now)]
  let s ← get
  match s.read path with
  | some content =>
    let stored ← lift (Document.loads content)
    requireM (stored.get? "intent_digest" = some (.str cp.intentDigest) ∧
      stored.get? "idempotency_key" = some key)
      (.storeIntegrity "write-ahead effect record binds a different intent")
    pure stored.dict.toJson
  | none =>
    set (s.write path (record.dumps ++ "\n"))
    pure record

/-- `find_effect_intent`. -/
def findEffectIntent (cp : StepCheckpoint) : StoreM (Option Document) := do
  match (← get).read (effectIntentPath cp.missionId cp.intentDigest) with
  | none => pure none
  | some content =>
    let record ← lift (Document.loads content)
    requireM (record.get? "intent_digest" = some (.str cp.intentDigest))
      (.storeIntegrity "write-ahead effect record belongs to another intent")
    pure (some record)

/-- The transaction of `begin_effect`. -/
def claimExecution (missionId : String) (stepIndex : Int) : StoreM Unit := do
  let s ← get
  match s.row missionId stepIndex with
  | none => throw (.storeIntegrity "effect began outside an intent checkpoint")
  | some row =>
    requireM (row.state = .intent) (.storeIntegrity "effect began outside an intent checkpoint")
    if row.executionCount = 0 then
      set (s.claim missionId stepIndex)

/-- `begin_effect`. -/
def beginEffect (missionId : String) (stepIndex : Int) (now : String) : StoreM Json := do
  let s ← get
  requireM (FitsColumn stepIndex) .overflow
  requireM (s.row missionId stepIndex ≠ none)
    (.storeIntegrity "effect began outside an intent checkpoint")
  let cp ← checkpoint missionId stepIndex
  requireM (cp.state = .intent) (.storeIntegrity "effect began outside an intent checkpoint")
  let record ← writeAheadEffect cp now
  transaction (claimExecution missionId stepIndex)
  pure record

/-! ## Receipts -/

def receiptPath (missionId digest : String) : String :=
  "missions/" ++ missionId ++ "/checkpoint-receipts/" ++ digestFileName digest

/-- `sha256_digest`. -/
def sha256Digest (content : String) : String := "sha256:" ++ Hash256.hexdigest content.toList

/-- The receipt that the store makes out, with the time that it reads. -/
def syntheticReceipt (cp : StepCheckpoint) (now : String) : Except StoreError Json := do
  let step := cp.missionId ++ "-" ++ toString cp.stepIndex
  let actionId ← cp.intent.getItem "action_id"
  let stateRef ← cp.intent.getItem "state_ref"
  let actorId ← cp.intent.getItem "actor_id"
  let policy ← cp.intent.getItem "policy_decision_ref"
  let lease ← cp.intent.getItem "lease_id"
  let kind ← cp.intent.getItem "kind"
  let receipt := Json.mkObj [("schema_version", .int 1), ("receipt_id", .str ("REC-P06-" ++ step)),
    ("action_id", actionId), ("provider", .str "p06-mission-store-v1"),
    ("execution_id", .str ("EXEC-P06-" ++ step)), ("mission_id", .str cp.missionId),
    ("state_ref", stateRef), ("actor_id", actorId), ("policy_decision_ref", policy),
    ("lease_id", lease), ("action_kind", kind), ("action_digest", .str cp.intentDigest),
    ("executed", .bool true), ("result", .str "succeeded"), ("observed_at", .str now),
    ("artifacts", .arr []), ("verified_by", .str "p06-checkpoint-store-v1")]
  let issues := contractIssues toolReceipt receipt
  if issues ≠ [] then
    throw (.storeIntegrity ("checkpoint receipt violates schema: " ++ "; ".intercalate issues))
  return receipt

/-- What is put into a receipt file. -/
def receiptWrapper (digest : String) (outcome : Document) (records : List Document)
    (receipt : Json) : Json :=
  .obj [("intent_digest", .str digest), ("outcome", outcome.dict.toJson), ("receipt", receipt),
    ("records", .arr (records.map fun record ↦ record.dict.toJson))]

/-- `write_effect_receipt`. -/
def writeEffectReceipt (cp : StepCheckpoint) (outcome : Document) (records : List Document)
    (now : String) : StoreM ReceiptReference := do
  let receipt ← lift (syntheticReceipt cp now)
  let encoded := (receiptWrapper cp.intentDigest outcome records receipt).dumps ++ "\n"
  let path := receiptPath cp.missionId cp.intentDigest
  let s ← get
  match s.read path with
  | some existing =>
    let wrapper ← lift (Document.loads existing)
    requireM (wrapper.get? "intent_digest" = some (.str cp.intentDigest))
      (.storeIntegrity "checkpoint receipt path was reused")
    pure ⟨path, sha256Digest existing⟩
  | none =>
    set (s.write path encoded)
    pure ⟨path, sha256Digest encoded⟩

/-- `INSERT INTO idempotency`, or the check of the row that is there. -/
def bindIntent (cp : StepCheckpoint) (encodedReference : String) : StoreM Unit := do
  let s ← get
  match s.binding cp.intentDigest with
  | none =>
    requireM (s.row cp.missionId cp.stepIndex ≠ none)
      (.sqliteIntegrity "FOREIGN KEY constraint failed")
    set (s.addBinding ⟨cp.intentDigest, cp.missionId, cp.stepIndex, encodedReference⟩)
  | some existing =>
    requireM (existing.missionId = cp.missionId ∧ existing.stepIndex = cp.stepIndex ∧
      existing.receiptRefJson = encodedReference)
      (.storeIntegrity "idempotency digest maps to another effect")

/-- `complete_step`, up to the commit. -/
def completeStep (cp : StepCheckpoint) (reference : ReceiptReference) (outcome : Document) :
    StoreM Unit :=
  transaction do
    let encodedReference := reference.toJson.dumps
    requireM (FitsColumn cp.stepIndex) .overflow
    bindIntent cp encodedReference
    modify (·.complete cp outcome.dumps encodedReference)

/-- `reconcile_effect`. -/
def reconcileEffect (cp : StepCheckpoint) (outcome : Document) (records : List Document)
    (now : String) : StoreM ReceiptReference := do
  match ← findEffectIntent cp with
  | none => throw (.reconciliation "effect has no write-ahead record to reconcile against"
      cp.missionId cp.stepIndex cp.intentDigest)
  | some record =>
    let key ← lift (cp.intent.getItem "idempotency_key")
    requireM (record.get? "idempotency_key" = some key)
      (.storeIntegrity "write-ahead idempotency key does not bind this intent")
    requireM (cp.executionCount ≠ 0) (.storeIntegrity "effect was never claimed for execution")
    let reference ← writeEffectReceipt cp outcome records now
    completeStep cp reference outcome
    pure reference

/-! ## Runs -/

/-- A call, with the time that it reads. `registerMission` is what `register_mission` does to the
table. -/
inductive Call where
  | registerMission (missionId : String)
  | recordIntent (missionId : String) (stepIndex : Int) (intent : Document)
  | checkpointForIntent (missionId : String) (intent : Document) (minimumStepIndex : Int)
  | beginEffect (missionId : String) (stepIndex : Int) (now : String)
  | writeEffectReceipt (cp : StepCheckpoint) (outcome : Document) (records : List Document)
      (now : String)
  | completeStep (cp : StepCheckpoint) (reference : ReceiptReference) (outcome : Document)
  | reconcileEffect (cp : StepCheckpoint) (outcome : Document) (records : List Document)
      (now : String)

/-- What a call leaves behind, whether it returns or raises. -/
def Call.run (s : Store) : Call → Store
  | registerMission missionId =>
    if missionId ∈ s.missions then s else { s with missions := s.missions ++ [missionId] }
  | recordIntent missionId stepIndex intent =>
    Interleave.Proc.stateOf (Missions.recordIntent missionId stepIndex intent s)
  | checkpointForIntent missionId intent minimumStepIndex =>
    Interleave.Proc.stateOf (Missions.checkpointForIntent missionId intent minimumStepIndex s)
  | beginEffect missionId stepIndex now =>
    Interleave.Proc.stateOf (Missions.beginEffect missionId stepIndex now s)
  | writeEffectReceipt cp outcome records now =>
    Interleave.Proc.stateOf (Missions.writeEffectReceipt cp outcome records now s)
  | completeStep cp reference outcome =>
    Interleave.Proc.stateOf (Missions.completeStep cp reference outcome s)
  | reconcileEffect cp outcome records now =>
    Interleave.Proc.stateOf (Missions.reconcileEffect cp outcome records now s)

/-- The outcome in a receipt file. -/
def storedOutcome (content : String) : Option Json :=
  (Json.loads content).bind (·.get? "outcome")

/-- The outcome in the receipt file that a reference names. -/
def Store.receiptOutcome (s : Store) (ref : ReceiptReference) : Option Json :=
  match s.read ref.path with
  | some content => if ref.digest = sha256Digest content then storedOutcome content else none
  | none => none

/-- The row has the outcome of the receipt file that its reference names. -/
def CheckpointRow.Agrees (s : Store) (row : CheckpointRow) : Prop :=
  ∃ ref outcome, row.receiptRefJson = some ref.toJson.dumps ∧
    s.receiptOutcome ref = some outcome ∧ row.outcomeJson = some outcome.dumps

/-- A completion that gives the outcome of the receipt that it refers to. -/
def Call.Truthful (s : Store) : Call → Prop
  | completeStep _ reference outcome => s.receiptOutcome reference = some outcome.dict.toJson
  | reconcileEffect cp outcome _ _ =>
    ∀ content, s.read (receiptPath cp.missionId cp.intentDigest) = some content →
      storedOutcome content = some outcome.dict.toJson
  | _ => True

def TruthfulRun (start : Store) (calls : List Call) : Prop :=
  ∀ before call after, calls = before ++ call :: after →
    call.Truthful (before.foldl Call.run start)

/-! ## What a call can do -/

/-- The changes of a store, of which a completion has to be admitted. -/
inductive Change (admits : Store → ReceiptReference → Document → Prop) (s : Store) : Store → Prop
  | register (missionId : String) : Change admits s { s with missions := s.missions ++ [missionId] }
  | write {path : String} (content : String) (h : s.read path = none) :
      Change admits s (s.write path content)
  | record {row : CheckpointRow} (hnew : s.row row.missionId row.stepIndex = none)
      (hstate : row.state = .intent) : Change admits s (s.addCheckpoint row)
  | claim (missionId : String) (stepIndex : Int) : Change admits s (s.claim missionId stepIndex)
  | complete {cp : StepCheckpoint} {ref : ReceiptReference} {outcome : Document} {s' : Store}
      (h : admits s ref outcome) (hbind : bindIntent cp ref.toJson.dumps s = .ok () s') :
      Change admits s (s'.complete cp outcome.dumps ref.toJson.dumps)

variable {admits : Store → ReceiptReference → Document → Prop} {s s' : Store}

omit [Hash256] in
theorem keeps_requireM (c : Prop) [Decidable c] (e : StoreError) : Keeps (requireM c e) := by
  rw [requireM]
  split
  · exact keeps_pure ()
  · exact keeps_throw e

omit [Hash256] in
theorem requireM_eq_ok {c : Prop} [Decidable c] {e : StoreError} {u : Unit} :
    requireM c e s = .ok u s' ↔ c ∧ s = s' := by
  rw [requireM]
  by_cases hc : c
  · rw [if_pos hc, run_pure_eq_ok]
    exact ⟨fun h ↦ ⟨hc, h.2⟩, fun h ↦ ⟨rfl, h.2⟩⟩
  · rw [if_neg hc]
    exact ⟨nofun, fun h ↦ absurd h.1 hc⟩

theorem keeps_checkpoint (missionId : String) (stepIndex : Int) :
    Keeps (checkpoint missionId stepIndex) := by
  refine keeps_bind (keeps_requireM _ _) fun _ ↦ keeps_bind keeps_get fun s ↦ ?_
  dsimp only
  split
  · exact keeps_throw _
  · exact keeps_bind (keeps_lift _) fun intent ↦ keeps_bind (keeps_requireM _ _) fun _ ↦
      keeps_bind (keeps_lift _) fun _ ↦ keeps_bind (keeps_lift _) fun _ ↦ keeps_pure _

omit [Hash256] in
theorem keeps_findEffectIntent (cp : StepCheckpoint) : Keeps (findEffectIntent cp) := by
  refine keeps_bind keeps_get fun s ↦ ?_
  split
  · exact keeps_pure none
  · exact keeps_bind (keeps_lift _) fun _ ↦ keeps_bind (keeps_requireM _ _) fun _ ↦ keeps_pure _

omit [Hash256] in
theorem insertCheckpoint_eq_ok {missionId digest : String} {stepIndex : Int} {intent : Document}
    {u : Unit} : insertCheckpoint missionId stepIndex digest intent s = .ok u s' ↔
      s.row missionId stepIndex = none ∧
      (∀ row ∈ s.checkpoints, ¬(row.missionId = missionId ∧ row.intentDigest = digest)) ∧
      missionId ∈ s.missions ∧ s' = s.addCheckpoint
        ⟨missionId, stepIndex, digest, .intent, intent.dumps, none, none, 0⟩ := by
  simp only [insertCheckpoint, run_bind_eq_ok, run_get_eq_ok, requireM_eq_ok, run_set_eq_ok]
  constructor
  · rintro ⟨_, _, ⟨rfl, rfl⟩, _, _, ⟨hstep, rfl⟩, _, _, ⟨hdigest, rfl⟩, _, _, ⟨hmission, rfl⟩, rfl⟩
    exact ⟨hstep, hdigest, hmission, rfl⟩
  · rintro ⟨hstep, hdigest, hmission, rfl⟩
    exact ⟨s, s, ⟨rfl, rfl⟩, (), s, ⟨hstep, rfl⟩, (), s, ⟨hdigest, rfl⟩, (), s, ⟨hmission, rfl⟩, rfl⟩

omit [Hash256] in
theorem Store.read_write_self {path : String} (content : String) (h : s.read path = none) :
    (s.write path content).read path = some content := by
  rw [read, write, List.lookup_append, ← read, h, List.lookup_cons_self]
  rfl

omit [Hash256] in
theorem Document.loads_of_loads {text : String} {d : Document}
    (h : Json.loads text = some d.dict.toJson) : Document.loads text = .ok d := by
  rw [Document.loads]
  split
  · next ms hms =>
    obtain rfl : ms = d.dict.members := (Json.obj.inj (Option.some.inj (hms.symm.trans h)))
    have hdict : Json.Dict.ofMembers d.dict.members = d.dict := Json.Dict.ofMembers_members _
    simp only [Document.ofMembers, hdict]
  · next hnot => exact absurd h (hnot _)

omit [Hash256] in
/-- A record in a file of its own. -/
theorem Document.loads_mkObj {ms : List (String × Json)} (h : ∀ m ∈ ms, m.2.Sorted) :
    Document.loads ((Json.mkObj ms).dumps ++ "\n") = .ok (.ofMembers ms h) :=
  loads_of_loads (Json.loads_dumps_newline (Json.sorted_mkObj h))

omit [Hash256] in
theorem Document.sorted_of_getItem {d : Document} {key : String} {value : Json}
    (h : d.getItem key = .ok value) : value.Sorted := by
  rw [getItem] at h
  split at h
  · next value' hget =>
    obtain rfl := Except.ok.inj h
    obtain ⟨before, after, hmembers, -⟩ := List.lookup_eq_some_iff.mp hget
    refine Json.sortedMembers_iff.mp d.sorted.2 (key, value') ?_
    rw [hmembers]
    exact List.mem_append_right _ List.mem_cons_self
  · exact nomatch h

/-- There is a record of the effect of the row, written ahead of it. -/
def Store.Recorded (s : Store) (row : CheckpointRow) : Prop :=
  ∃ content record, s.read (effectIntentPath row.missionId row.intentDigest) = some content ∧
    Document.loads content = .ok record ∧
    record.get? "intent_digest" = some (.str row.intentDigest)

theorem of_checkpoint {missionId : String} {stepIndex : Int} {cp : StepCheckpoint}
    (h : checkpoint missionId stepIndex s = .ok cp s') : ∃ row, s.row missionId stepIndex = some row ∧
      cp.missionId = row.missionId ∧ cp.intentDigest = row.intentDigest := by
  simp only [checkpoint, run_bind_eq_ok, requireM_eq_ok, run_get_eq_ok] at h
  obtain ⟨_, _, ⟨-, rfl⟩, _, _, ⟨rfl, rfl⟩, h⟩ := h
  cases hrow : s.row missionId stepIndex with
  | none =>
    rw [hrow] at h
    exact nomatch h
  | some row =>
    simp only [hrow, run_bind_eq_ok, run_lift_eq_ok, requireM_eq_ok, run_pure_eq_ok] at h
    obtain ⟨_, _, ⟨-, rfl⟩, _, _, ⟨-, rfl⟩, _, _, ⟨-, rfl⟩, _, _, ⟨-, rfl⟩, rfl, -⟩ := h
    exact ⟨row, rfl, (Prod.mk.inj (beq_iff_eq.mp (List.find?_some hrow :))).1.symm, rfl⟩

omit [Hash256] in
/-- The record that is written, or found, is one for the effect. -/
theorem recorded_of_writeAheadEffect {cp : StepCheckpoint} {now : String} {record : Json}
    (h : writeAheadEffect cp now s = .ok record s') {row : CheckpointRow}
    (hmission : cp.missionId = row.missionId) (hdigest : cp.intentDigest = row.intentDigest) :
    s'.Recorded row ∧ s'.checkpoints = s.checkpoints := by
  simp only [writeAheadEffect, run_bind_eq_ok, run_lift_eq_ok, run_get_eq_ok] at h
  obtain ⟨key, _, ⟨hkey, rfl⟩, actionId, _, ⟨haction, rfl⟩, kind, _, ⟨hkind, rfl⟩, stateRef, _,
    ⟨hstate, rfl⟩, _, _, ⟨rfl, rfl⟩, h⟩ := h
  rw [Store.Recorded, ← hmission, ← hdigest]
  cases hread : s.read (effectIntentPath cp.missionId cp.intentDigest) with
  | some content =>
    simp only [hread, run_bind_eq_ok, run_lift_eq_ok, requireM_eq_ok, run_pure_eq_ok] at h
    obtain ⟨stored, _, ⟨hloads, rfl⟩, _, _, ⟨⟨hbinds, -⟩, rfl⟩, -, rfl⟩ := h
    exact ⟨⟨content, stored, hread, hloads, hbinds⟩, rfl⟩
  | none =>
    simp only [hread, run_bind_eq_ok, run_set_eq_ok, run_pure_eq_ok] at h
    obtain ⟨_, _, rfl, -, rfl⟩ := h
    refine ⟨⟨_, _, Store.read_write_self _ hread, Document.loads_mkObj ?_, ?_⟩, rfl⟩
    · simp only [List.forall_mem_cons]
      exact ⟨trivial, trivial, trivial, trivial, Document.sorted_of_getItem hkey,
        Document.sorted_of_getItem haction, Document.sorted_of_getItem hkind,
        Document.sorted_of_getItem hstate, trivial, List.forall_mem_nil _⟩
    · exact (Json.Dict.get?_ofMembers (by simp) "intent_digest").trans rfl

/-- The relation has every step of the calls for a mission that is registered. -/
structure Steps (admits : Store → ReceiptReference → Document → Prop) (R : Store → Store → Prop) :
    Prop where
  write {s : Store} {path : String} (content : String) (h : s.read path = none) :
    R s (s.write path content)
  enter {s s' : Store} {missionId digest : String} {stepIndex : Int} {intent : Document}
    (hcheck : checkIntent intent = .ok digest) (hfits : FitsColumn stepIndex)
    (hinsert : insertCheckpoint missionId stepIndex digest intent s = .ok () s') : R s s'
  claim {s : Store} {missionId : String} {stepIndex : Int}
    (h : ∀ row, s.row missionId stepIndex = some row → s.Recorded row) :
    R s (s.claim missionId stepIndex)
  complete {s s' : Store} {cp : StepCheckpoint} {ref : ReceiptReference} {outcome : Document}
    (h : admits s ref outcome) (hbind : bindIntent cp ref.toJson.dumps s = .ok () s') :
    R s (s'.complete cp outcome.dumps ref.toJson.dumps)

theorem steps_change : Steps admits (Change admits) where
  write content h := .write content h
  enter _ _ hinsert := by
    obtain ⟨hnew, -, -, rfl⟩ := insertCheckpoint_eq_ok.mp hinsert
    exact .record hnew rfl
  claim _ := .claim _ _
  complete h hbind := .complete h hbind

namespace Steps

variable {R : Store → Store → Prop} (steps : Steps admits R)
include steps

theorem recordIntent (missionId : String) (stepIndex : Int) (intent : Document) :
    Leads R (recordIntent missionId stepIndex intent) s := by
  refine (keeps_lift _).leads_bind fun digest hdigest ↦ ?_
  refine (leads_transaction fun u t h ↦ ?_).bind fun _ t _ ↦ (keeps_checkpoint _ _).leads
  simp only [run_bind_eq_ok, run_get_eq_ok, requireM_eq_ok] at h
  obtain ⟨_, _, ⟨hfits, rfl⟩, _, _, ⟨rfl, rfl⟩, h⟩ := h
  split at h
  · exact .single (steps.enter (run_lift_eq_ok.mp hdigest).1 hfits h)
  · rw [← (run_pure_eq_ok.mp h).2]

theorem allocateStep {missionId digest : String} {intent : Document} {minimum : Int}
    (hcheck : checkIntent intent = .ok digest) :
    ∀ i t, allocateStep missionId digest intent minimum s = .ok i t →
      Relation.ReflTransGen R s t := by
  intro i t h
  simp only [Missions.allocateStep, run_bind_eq_ok, run_get_eq_ok] at h
  obtain ⟨_, _, ⟨rfl, rfl⟩, h⟩ := h
  cases hfound : s.checkpoints.find? fun row ↦
      row.missionId == missionId && row.intentDigest == digest with
  | some row =>
    simp only [hfound, run_pure_eq_ok] at h
    rw [← h.2]
  | none =>
    simp only [hfound, run_bind_eq_ok, requireM_eq_ok, run_pure_eq_ok] at h
    obtain ⟨_, _, ⟨hfits, rfl⟩, _, _, hinsert, -, rfl⟩ := h
    exact .single (steps.enter hcheck hfits hinsert)

theorem checkpointForIntent (missionId : String) (intent : Document) (minimum : Int) :
    Leads R (checkpointForIntent missionId intent minimum) s := by
  refine (keeps_requireM _ _).leads_bind fun _ _ ↦ (keeps_lift _).leads_bind fun digest hdigest ↦ ?_
  have hcheck := (run_lift_eq_ok.mp hdigest).1
  refine (leads_transaction (steps.allocateStep hcheck)).bind fun i t _ ↦ Keeps.leads ?_
  exact keeps_bind (keeps_checkpoint _ _) fun _ ↦ keeps_bind (keeps_requireM _ _) fun _ ↦
    keeps_pure _

theorem writeAheadEffect (cp : StepCheckpoint) (now : String) :
    Leads R (writeAheadEffect cp now) s := by
  refine (keeps_lift _).leads_bind fun _ _ ↦ (keeps_lift _).leads_bind fun _ _ ↦
    (keeps_lift _).leads_bind fun _ _ ↦ (keeps_lift _).leads_bind fun _ _ ↦ leads_get_bind ?_
  split
  · exact Keeps.leads (keeps_bind (keeps_lift _) fun _ ↦ keeps_bind (keeps_requireM _ _) fun _ ↦
      keeps_pure _)
  · next hnone => exact (leads_set (steps.write _ hnone)).bind fun _ _ _ ↦ (keeps_pure _).leads

theorem beginEffect (missionId : String) (stepIndex : Int) (now : String) :
    Leads R (beginEffect missionId stepIndex now) s := by
  refine leads_get_bind ((keeps_requireM _ _).leads_bind fun _ _ ↦
    (keeps_requireM _ _).leads_bind fun _ _ ↦ (keeps_checkpoint _ _).leads_bind fun cp hcp ↦
    (keeps_requireM _ _).leads_bind fun _ _ ↦
    (steps.writeAheadEffect cp now).bind fun _ t hwrite ↦ ?_)
  obtain ⟨stored, hstored, hmission, hdigest⟩ := of_checkpoint hcp
  obtain ⟨hrecorded, hrows⟩ := recorded_of_writeAheadEffect hwrite hmission hdigest
  refine (leads_transaction fun u t' h ↦ ?_).bind fun _ _ _ ↦ (keeps_pure _).leads
  simp only [claimExecution, run_bind_eq_ok, run_get_eq_ok] at h
  obtain ⟨_, _, ⟨rfl, rfl⟩, h⟩ := h
  have hrow : t.row missionId stepIndex = some stored := by rw [Store.row, hrows, ← Store.row, hstored]
  simp only [hrow, run_bind_eq_ok, requireM_eq_ok] at h
  obtain ⟨_, _, ⟨-, rfl⟩, h⟩ := h
  split at h
  · rw [run_set_eq_ok.mp h]
    exact .single (steps.claim fun row hfound ↦ Option.some.inj (hrow.symm.trans hfound) ▸ hrecorded)
  · rw [← (run_pure_eq_ok.mp h).2]

theorem writeEffectReceipt (cp : StepCheckpoint) (outcome : Document)
    (records : List Document) (now : String) :
    Leads R (writeEffectReceipt cp outcome records now) s := by
  refine (keeps_lift _).leads_bind fun _ _ ↦ leads_get_bind ?_
  split
  · exact Keeps.leads (keeps_bind (keeps_lift _) fun _ ↦ keeps_bind (keeps_requireM _ _) fun _ ↦
      keeps_pure _)
  · next hnone => exact (leads_set (steps.write _ hnone)).bind fun _ _ _ ↦ (keeps_pure _).leads

theorem completeStep {cp : StepCheckpoint} {ref : ReceiptReference} {outcome : Document}
    (hadmits : admits s ref outcome) : Leads R (completeStep cp ref outcome) s := by
  refine leads_transaction fun u t h ↦ ?_
  simp only [run_bind_eq_ok, requireM_eq_ok, run_modify_eq_ok] at h
  obtain ⟨_, _, ⟨-, rfl⟩, _, _, hbind, rfl⟩ := h
  exact .single (steps.complete hadmits hbind)

theorem reconcileEffect {cp : StepCheckpoint} {outcome : Document} {records : List Document}
    {now : String} (hadmits : ∀ ref t, Missions.writeEffectReceipt cp outcome records now s =
      .ok ref t → admits t ref outcome) : Leads R (reconcileEffect cp outcome records now) s := by
  refine (keeps_findEffectIntent cp).leads_bind fun record _ ↦ ?_
  cases record with
  | none => exact (keeps_throw _).leads
  | some record =>
    refine (keeps_lift _).leads_bind fun _ _ ↦ (keeps_requireM _ _).leads_bind fun _ _ ↦
      (keeps_requireM _ _).leads_bind fun _ _ ↦
      (steps.writeEffectReceipt cp outcome records now).bind fun ref t hwrite ↦ ?_
    exact (steps.completeStep (hadmits ref t hwrite)).bind fun _ _ _ ↦ (keeps_pure _).leads

/-- Every call changes the store step by step, if its completion is admitted. -/
theorem reaches {call : Call} (hregister : ∀ (s : Store) (missionId : String),
      R s { s with missions := s.missions ++ [missionId] })
    (hcomplete : ∀ cp ref outcome, call = .completeStep cp ref outcome → admits s ref outcome)
    (hreconcile : ∀ cp outcome records now, call = .reconcileEffect cp outcome records now →
      ∀ ref t, Missions.writeEffectReceipt cp outcome records now s = .ok ref t →
        admits t ref outcome) :
    Relation.ReflTransGen R s (call.run s) := by
  cases call with
  | registerMission missionId =>
    rw [Call.run]
    split
    · exact .refl
    · exact .single (hregister s missionId)
  | recordIntent missionId stepIndex intent =>
    exact (steps.recordIntent missionId stepIndex intent).final
  | checkpointForIntent missionId intent minimum =>
    exact (steps.checkpointForIntent missionId intent minimum).final
  | beginEffect missionId stepIndex now => exact (steps.beginEffect missionId stepIndex now).final
  | writeEffectReceipt cp outcome records now =>
    exact (steps.writeEffectReceipt cp outcome records now).final
  | completeStep cp ref outcome => exact (steps.completeStep (hcomplete cp ref outcome rfl)).final
  | reconcileEffect cp outcome records now =>
    exact (steps.reconcileEffect (hreconcile cp outcome records now rfl)).final

end Steps

/-! ## Receipts read back -/

omit [Hash256] in
theorem sorted_syntheticReceipt {cp : StepCheckpoint} {now : String} {receipt : Json}
    (h : syntheticReceipt cp now = .ok receipt) : receipt.Sorted := by
  simp only [syntheticReceipt, bind_eq_ok, guard_eq_ok, pure_eq_ok] at h
  obtain ⟨_, hid, _, hstate, _, hactor, _, hpolicy, _, hlease, _, hkind, -, rfl⟩ := h
  refine Json.sorted_mkObj ?_
  simp only [List.forall_mem_cons]
  exact ⟨trivial, trivial, Document.sorted_of_getItem hid, trivial, trivial, trivial,
    Document.sorted_of_getItem hstate, Document.sorted_of_getItem hactor,
    Document.sorted_of_getItem hpolicy, Document.sorted_of_getItem hlease,
    Document.sorted_of_getItem hkind, trivial, trivial, trivial, trivial, trivial, trivial,
    List.forall_mem_nil _⟩

omit [Hash256] in
theorem sorted_receiptWrapper (digest : String) (outcome : Document) (records : List Document)
    {receipt : Json} (h : receipt.Sorted) :
    (receiptWrapper digest outcome records receipt).Sorted := by
  refine ⟨by simp only [List.map_cons, List.map_nil]; decide, trivial, outcome.sorted, h, ?_,
    trivial⟩
  refine Json.sortedList_iff.mpr fun record hrecord ↦ ?_
  obtain ⟨document, -, rfl⟩ := List.mem_map.mp hrecord
  exact document.sorted

omit [Hash256] in
/-- The outcome that is put into a receipt file is found there. -/
theorem storedOutcome_dumps (digest : String) (outcome : Document) (records : List Document)
    {receipt : Json} (h : receipt.Sorted) :
    storedOutcome ((receiptWrapper digest outcome records receipt).dumps ++ "\n") =
      some outcome.dict.toJson := by
  rw [storedOutcome, Json.loads_dumps_newline (sorted_receiptWrapper digest outcome records h)]
  rfl

omit [Hash256] in
/-- Nothing that can be read is written over. -/
theorem Store.read_write {path' content' : String} (path content : String)
    (hread : s.read path' = some content') : (s.write path content).read path' = some content' := by
  rw [read, write, List.lookup_append, ← read, hread]
  rfl

/-- A receipt that was written, or found, has the outcome if every one that was there had. -/
theorem receiptOutcome_of_writeEffectReceipt {cp : StepCheckpoint} {outcome : Document}
    {records : List Document} {now : String} {ref : ReceiptReference}
    (hthere : ∀ content, s.read (receiptPath cp.missionId cp.intentDigest) = some content →
      storedOutcome content = some outcome.dict.toJson)
    (h : writeEffectReceipt cp outcome records now s = .ok ref s') :
    s'.receiptOutcome ref = some outcome.dict.toJson := by
  simp only [writeEffectReceipt, run_bind_eq_ok, run_lift_eq_ok, run_get_eq_ok] at h
  obtain ⟨receipt, _, ⟨hreceipt, rfl⟩, _, _, ⟨rfl, rfl⟩, h⟩ := h
  cases hread : s.read (receiptPath cp.missionId cp.intentDigest) with
  | some existing =>
    simp only [hread, run_bind_eq_ok, run_lift_eq_ok, requireM_eq_ok, run_pure_eq_ok] at h
    obtain ⟨_, _, ⟨-, rfl⟩, _, _, ⟨-, rfl⟩, rfl, rfl⟩ := h
    simp only [Store.receiptOutcome, hread, if_true]
    exact hthere existing hread
  | none =>
    simp only [hread, run_bind_eq_ok, run_set_eq_ok, run_pure_eq_ok] at h
    obtain ⟨_, _, rfl, rfl, rfl⟩ := h
    simp only [Store.receiptOutcome, Store.read_write_self _ hread, if_true]
    exact storedOutcome_dumps _ _ _ (sorted_syntheticReceipt hreceipt)

/-! ## What is bound stays bound -/

omit [Hash256] in
theorem Store.intentDigest_of_binding {digest : String} {entry : IdempotencyRow}
    (h : s.binding digest = some entry) : entry.intentDigest = digest := by
  rw [binding] at h
  simpa using List.find?_some h

omit [Hash256] in
theorem of_bindIntent {cp : StepCheckpoint} {text : String} {u : Unit}
    (h : bindIntent cp text s = .ok u s') :
    (s.binding cp.intentDigest = none ∧
      s' = s.addBinding ⟨cp.intentDigest, cp.missionId, cp.stepIndex, text⟩) ∨
    s.binding cp.intentDigest = some ⟨cp.intentDigest, cp.missionId, cp.stepIndex, text⟩ ∧
      s' = s := by
  simp only [bindIntent, run_bind_eq_ok, run_get_eq_ok] at h
  obtain ⟨_, _, ⟨rfl, rfl⟩, h⟩ := h
  cases hbinding : s.binding cp.intentDigest with
  | none =>
    simp only [hbinding, run_bind_eq_ok, requireM_eq_ok, run_set_eq_ok] at h
    obtain ⟨_, _, ⟨-, rfl⟩, rfl⟩ := h
    exact .inl ⟨rfl, rfl⟩
  | some existing =>
    simp only [hbinding, requireM_eq_ok] at h
    obtain ⟨⟨hmission, hstep, htext⟩, rfl⟩ := h
    refine .inr ⟨?_, rfl⟩
    rw [← Store.intentDigest_of_binding hbinding, ← hmission, ← hstep, ← htext]

omit [Hash256] in
/-- A binding adds a row for a digest that has none, or nothing. -/
theorem bindIntent_kept {cp : StepCheckpoint} {text : String} {u : Unit}
    (hunique : Rows.Unique (·.intentDigest) s.idempotency)
    (h : bindIntent cp text s = .ok u s') :
    Rows.Unique (·.intentDigest) s'.idempotency ∧
      (∀ entry ∈ s.idempotency, entry ∈ s'.idempotency) ∧
      ⟨cp.intentDigest, cp.missionId, cp.stepIndex, text⟩ ∈ s'.idempotency ∧
      s'.checkpoints = s.checkpoints ∧ s'.files = s.files := by
  rcases of_bindIntent h with ⟨hnone, rfl⟩ | ⟨hsome, rfl⟩
  · refine ⟨hunique.concat fun entry hentry ↦ ?_, fun entry hentry ↦
      List.mem_append_left _ hentry, List.mem_append_right _ List.mem_cons_self, rfl, rfl⟩
    have hne := List.find?_eq_none.mp hnone entry hentry
    rwa [beq_iff_eq] at hne
  · exact ⟨hunique, fun _ ↦ id, List.mem_of_find?_eq_some hsome, rfl, rfl⟩

omit [Hash256] in
theorem Change.bindings_kept (h : Change admits s s')
    (hunique : Rows.Unique (·.intentDigest) s.idempotency) :
    Rows.Unique (·.intentDigest) s'.idempotency ∧
      ∀ entry ∈ s.idempotency, entry ∈ s'.idempotency := by
  cases h with
  | register | write | record | claim => exact ⟨hunique, fun _ ↦ id⟩
  | complete _ hbind =>
    obtain ⟨hunique', hkept, -⟩ := bindIntent_kept hunique hbind
    exact ⟨hunique', hkept⟩

omit [Hash256] in
theorem bindings_kept (h : Relation.ReflTransGen (Change admits) s s')
    (hunique : Rows.Unique (·.intentDigest) s.idempotency) :
    Rows.Unique (·.intentDigest) s'.idempotency ∧
      ∀ entry ∈ s.idempotency, entry ∈ s'.idempotency := by
  induction h with
  | refl => exact ⟨hunique, fun _ ↦ id⟩
  | tail _ hchange ih =>
    obtain ⟨hunique', hkept⟩ := hchange.bindings_kept ih.1
    exact ⟨hunique', fun entry hentry ↦ hkept entry (ih.2 entry hentry)⟩

/-! ## Completed checkpoints -/

/-- The row has the outcome of its receipt, and its reference is the one that is bound. -/
def CheckpointRow.Settled (s : Store) (row : CheckpointRow) : Prop :=
  ∃ ref outcome, row.receiptRefJson = some ref.toJson.dumps ∧
    s.receiptOutcome ref = some outcome ∧ row.outcomeJson = some outcome.dumps ∧
    ⟨row.intentDigest, row.missionId, row.stepIndex, ref.toJson.dumps⟩ ∈ s.idempotency

structure Store.Sound (s : Store) : Prop where
  keys : Rows.Unique CheckpointRow.key s.checkpoints
  digests : Rows.Unique (·.intentDigest) s.idempotency
  completed : ∀ row ∈ s.checkpoints, row.state = .completed → row.Settled s

/-- A completion that gives the outcome of its receipt. -/
def RefersTo (s : Store) (ref : ReceiptReference) (outcome : Document) : Prop :=
  s.receiptOutcome ref = some outcome.dict.toJson

omit [Hash256] in
theorem ReceiptReference.eq_of_dumps_eq {ref ref' : ReceiptReference}
    (h : ref.toJson.dumps = ref'.toJson.dumps) : ref = ref' := by
  have hsorted : ∀ ref : ReceiptReference, ref.toJson.Sorted := fun ref ↦
    ⟨by simp only [List.map_cons, List.map_nil]; decide, trivial, trivial, trivial⟩
  have hjson := (Json.dumps_inj (hsorted ref) (hsorted ref')).mp h
  simp only [toJson, Json.obj.injEq, List.cons.injEq, Prod.mk.injEq, Json.str.injEq, true_and,
    and_true] at hjson
  cases ref
  cases ref'
  obtain ⟨rfl, rfl⟩ := hjson
  rfl

theorem Store.receiptOutcome_of_read {ref : ReceiptReference} {outcome : Json}
    (hread : ∀ path content, s.read path = some content → s'.read path = some content)
    (h : s.receiptOutcome ref = some outcome) : s'.receiptOutcome ref = some outcome := by
  rw [receiptOutcome] at h ⊢
  split at h
  · next content hcontent =>
    rw [hread ref.path content hcontent]
    exact h
  · exact nomatch h

omit [Hash256] in
/-- Files are only added. -/
theorem Change.read_kept (h : Change admits s s') (path content : String)
    (hread : s.read path = some content) : s'.read path = some content := by
  cases h with
  | register | record | claim => exact hread
  | write => exact Store.read_write _ _ hread
  | complete _ hbind =>
    rcases of_bindIntent hbind with ⟨-, rfl⟩ | ⟨-, rfl⟩
    · exact hread
    · exact hread

theorem Change.settled (h : Change admits s s')
    (hunique : Rows.Unique (·.intentDigest) s.idempotency) {row : CheckpointRow}
    (hrow : row.Settled s) : row.Settled s' := by
  obtain ⟨ref, outcome, href, houtcome, hjson, hbound⟩ := hrow
  exact ⟨ref, outcome, href, Store.receiptOutcome_of_read h.read_kept houtcome, hjson,
    (h.bindings_kept hunique).2 _ hbound⟩

/-- Completing a checkpoint that is completed writes what is there. -/
theorem Store.Sound.completion_again (h : s.Sound) {cp : StepCheckpoint} {ref : ReceiptReference}
    {outcome : Document} (hrefers : RefersTo s ref outcome)
    (hbind : bindIntent cp ref.toJson.dumps s = .ok () s') {row : CheckpointRow}
    (hrow : row ∈ s.checkpoints) (hstate : row.state = .completed)
    (hdigest : row.intentDigest = cp.intentDigest) :
    row.outcomeJson = some outcome.dumps ∧ row.receiptRefJson = some ref.toJson.dumps := by
  obtain ⟨ref', outcome', href', houtcome', hjson, hbound⟩ := h.completed row hrow hstate
  obtain ⟨hunique, hkept, hmem, -⟩ := bindIntent_kept h.digests hbind
  have hentry := hunique.eq (hkept _ hbound) hmem hdigest
  obtain rfl := ReceiptReference.eq_of_dumps_eq (congrArg IdempotencyRow.receiptRefJson hentry)
  have hsame : outcome' = outcome.dict.toJson :=
    Option.some.inj (houtcome'.symm.trans hrefers)
  refine ⟨?_, href'⟩
  rw [hjson, hsame]
  rfl

omit [Hash256] in
theorem Store.forall_key_ne {missionId : String} {stepIndex : Int}
    (h : s.row missionId stepIndex = none) :
    ∀ row ∈ s.checkpoints, row.key ≠ (missionId, stepIndex) := by
  intro row hrow
  have hne := List.find?_eq_none.mp h row hrow
  rwa [beq_iff_eq] at hne

/-- A completion that gives the outcome of its receipt. -/
theorem Store.Sound.complete (h : s.Sound) {cp : StepCheckpoint} {ref : ReceiptReference}
    {outcome : Document} (hrefers : RefersTo s ref outcome)
    (hbind : bindIntent cp ref.toJson.dumps s = .ok () s') :
    (s'.complete cp outcome.dumps ref.toJson.dumps).Sound ∧
      ∀ row ∈ s.checkpoints, row.state = .completed →
        row ∈ (s'.complete cp outcome.dumps ref.toJson.dumps).checkpoints := by
  have hchange : Change RefersTo s (s'.complete cp outcome.dumps ref.toJson.dumps) :=
    .complete hrefers hbind
  obtain ⟨hunique, -, hmem, hrows, hfiles⟩ := bindIntent_kept h.digests hbind
  have hkeys : Rows.Unique CheckpointRow.key s'.checkpoints := by
    rw [hrows]
    exact h.keys
  refine ⟨⟨hkeys.update fun _ ↦ rfl, hunique, ?_⟩, ?_⟩
  · refine Rows.forall_mem_update (fun row hrow _ hstate ↦ ?_) fun row hrow hcompleted hstate ↦ ?_
    · rw [hrows] at hrow
      exact hchange.settled h.digests (h.completed row hrow hstate)
    · rw [Bool.and_eq_true, beq_iff_eq, beq_iff_eq, CheckpointRow.key, Prod.mk.injEq] at hcompleted
      obtain ⟨⟨hmission, hstep⟩, hdigest⟩ := hcompleted
      refine ⟨ref, outcome.dict.toJson, rfl,
        Store.receiptOutcome_of_read hchange.read_kept hrefers, rfl, ?_⟩
      dsimp only
      rw [hmission, hstep, hdigest]
      exact hmem
  · -- a row that is written over is written over with what it has
    intro row hrow hstate
    refine Rows.mem_update.mpr ⟨row, hrows ▸ hrow, ?_⟩
    split
    · next hcompleted =>
      rw [Bool.and_eq_true, beq_iff_eq, beq_iff_eq] at hcompleted
      obtain ⟨houtcome, href⟩ := h.completion_again hrefers hbind hrow hstate hcompleted.2
      rw [← houtcome, ← href, ← hstate]
    · rfl

/-- Every change keeps the store sound and the completed checkpoints as they are. -/
theorem Store.Sound.change (h : s.Sound) (hchange : Change RefersTo s s') :
    s'.Sound ∧ ∀ row ∈ s.checkpoints, row.state = .completed → row ∈ s'.checkpoints := by
  have hsettled := fun row hrow hstate ↦ hchange.settled h.digests (h.completed row hrow hstate)
  cases hchange with
  | register => exact ⟨⟨h.keys, h.digests, hsettled⟩, fun _ hrow _ ↦ hrow⟩
  | write => exact ⟨⟨h.keys, h.digests, hsettled⟩, fun _ hrow _ ↦ hrow⟩
  | record hnew hintent =>
    refine ⟨⟨h.keys.concat (Store.forall_key_ne hnew), h.digests, fun row hrow hstate ↦ ?_⟩,
      fun _ hrow _ ↦ List.mem_append_left _ hrow⟩
    rcases List.mem_append.mp hrow with hrow | hrow
    · exact hsettled row hrow hstate
    · rw [List.mem_singleton.mp hrow, hintent] at hstate
      exact nomatch hstate
  | claim missionId stepIndex =>
    refine ⟨⟨h.keys.update fun _ ↦ rfl, h.digests, ?_⟩, fun row hrow hstate ↦ ?_⟩
    · exact Rows.forall_mem_update (fun row hrow _ ↦ hsettled row hrow) fun row hrow _ ↦
        hsettled row hrow
    · refine Rows.mem_update_of_not hrow ?_
      rw [hstate]
      simp
  | complete hrefers hbind => exact h.complete hrefers hbind

/-! ## Runs of calls -/

theorem reaches_run (s : Store) (calls : List Call) :
    Relation.ReflTransGen (Change fun _ _ _ ↦ True) s (calls.foldl Call.run s) := by
  induction calls generalizing s with
  | nil => exact .refl
  | cons call calls ih =>
    have hcall : Relation.ReflTransGen (Change fun _ _ _ ↦ True) s (call.run s) :=
      steps_change.reaches (fun _ ↦ .register) (fun _ _ _ _ ↦ trivial) fun _ _ _ _ _ _ _ _ ↦ trivial
    exact hcall.trans (ih _)

theorem Call.Truthful.reaches {call : Call} (h : call.Truthful s) :
    Relation.ReflTransGen (Change RefersTo) s (call.run s) := by
  refine steps_change.reaches (fun _ ↦ .register) ?_ ?_
  · rintro cp ref outcome rfl
    exact h
  · rintro cp outcome records now rfl ref t hwrite
    exact receiptOutcome_of_writeEffectReceipt h hwrite

theorem Store.Sound.reaches (h : s.Sound) (hreaches : Relation.ReflTransGen (Change RefersTo) s s') :
    s'.Sound ∧ ∀ row ∈ s.checkpoints, row.state = .completed → row ∈ s'.checkpoints := by
  induction hreaches with
  | refl => exact ⟨h, fun _ hrow _ ↦ hrow⟩
  | tail _ hchange ih =>
    obtain ⟨hsound, hkept⟩ := ih.1.change hchange
    exact ⟨hsound, fun row hrow hstate ↦ hkept row (ih.2 row hrow hstate) hstate⟩

theorem truthfulRun_nil (s : Store) : TruthfulRun s [] := by
  intro before call after heq
  exact absurd heq.symm (List.append_ne_nil_of_right_ne_nil before (List.cons_ne_nil call after))

theorem truthfulRun_cons {call : Call} {calls : List Call} :
    TruthfulRun s (call :: calls) ↔ call.Truthful s ∧ TruthfulRun (call.run s) calls := by
  constructor
  · intro h
    refine ⟨h [] call calls rfl, fun before next after heq ↦ ?_⟩
    exact h (call :: before) next after (by rw [heq, List.cons_append])
  · rintro ⟨hcall, hcalls⟩ before next after heq
    cases before with
    | nil =>
      obtain ⟨rfl, -⟩ := List.cons.inj heq
      exact hcall
    | cons first before =>
      obtain ⟨rfl, htail⟩ := List.cons.inj heq
      exact hcalls before next after htail

theorem TruthfulRun.reaches {calls : List Call} (h : TruthfulRun s calls) :
    Relation.ReflTransGen (Change RefersTo) s (calls.foldl Call.run s) := by
  induction calls generalizing s with
  | nil => exact .refl
  | cons call calls ih =>
    obtain ⟨hcall, hcalls⟩ := truthfulRun_cons.mp h
    exact hcall.reaches.trans (ih hcalls)

omit [Hash256] in
theorem Store.row_eq_some {row : CheckpointRow} (hkeys : Rows.Unique CheckpointRow.key s.checkpoints)
    (hrow : row ∈ s.checkpoints) : s.row row.missionId row.stepIndex = some row := by
  rw [Store.row]
  cases hfound : s.checkpoints.find? (·.key == (row.missionId, row.stepIndex)) with
  | none => exact absurd rfl (forall_key_ne hfound row hrow)
  | some row' =>
    have hkey : row'.key = row.key := beq_iff_eq.mp (List.find?_some hfound :)
    rw [hkeys.eq (List.mem_of_find?_eq_some hfound) hrow hkey]

/-! ## Effects that were begun -/

/-- No step was claimed twice, and of each one that was there is a record. -/
structure Store.Begun (s : Store) : Prop where
  keys : Rows.Unique CheckpointRow.key s.checkpoints
  once : ∀ row ∈ s.checkpoints, row.executionCount ≤ 1
  recorded : ∀ row ∈ s.checkpoints, row.executionCount ≠ 0 → s.Recorded row

theorem steps_begun : Steps (fun _ _ _ ↦ True) fun s s' ↦ s.Begun → s'.Begun where
  write _ hnone h := by
    refine ⟨h.keys, h.once, fun row hrow hcount ↦ ?_⟩
    obtain ⟨content, record, hread, hrecord⟩ := h.recorded row hrow hcount
    exact ⟨content, record, Store.read_write _ _ hread, hrecord⟩
  enter _ _ hinsert h := by
    obtain ⟨hnew, -, -, rfl⟩ := insertCheckpoint_eq_ok.mp hinsert
    refine ⟨h.keys.concat (Store.forall_key_ne hnew), ?_, ?_⟩
    · exact List.forall_mem_append.mpr ⟨h.once, List.forall_mem_singleton.mpr (Nat.zero_le 1)⟩
    · exact List.forall_mem_append.mpr ⟨h.recorded, List.forall_mem_singleton.mpr (absurd rfl)⟩
  claim {s missionId stepIndex} hrecord h := by
    have hclaimed : ∀ row ∈ s.checkpoints, (row.key == (missionId, stepIndex) && row.state == .intent &&
        row.executionCount == 0) = true → row.executionCount = 0 ∧ s.Recorded row := by
      intro row hrow hrow'
      simp only [Bool.and_eq_true, beq_iff_eq] at hrow'
      obtain ⟨⟨hkey, -⟩, hcount⟩ := hrow'
      obtain ⟨rfl, rfl⟩ := Prod.mk.inj hkey
      exact ⟨hcount, hrecord row (Store.row_eq_some h.keys hrow)⟩
    refine ⟨h.keys.update fun _ ↦ rfl, ?_, ?_⟩
    · exact Rows.forall_mem_update (fun row hrow _ ↦ h.once row hrow) fun row hrow hrow' ↦
        (Nat.succ_le_succ (hclaimed row hrow hrow').1.le)
    · exact Rows.forall_mem_update (fun row hrow _ ↦ h.recorded row hrow) fun row hrow hrow' _ ↦
        (hclaimed row hrow hrow').2
  complete {s s' cp ref outcome} _ hbind h := by
    have hfields : s'.checkpoints = s.checkpoints ∧ s'.files = s.files := by
      rcases of_bindIntent hbind with ⟨-, rfl⟩ | ⟨-, rfl⟩
      · exact ⟨rfl, rfl⟩
      · exact ⟨rfl, rfl⟩
    have hs' : s'.Begun := by
      refine ⟨hfields.1 ▸ h.keys, hfields.1 ▸ h.once, fun row hrow hcount ↦ ?_⟩
      rw [Store.Recorded, Store.read, hfields.2]
      exact h.recorded row (hfields.1 ▸ hrow) hcount
    refine ⟨hs'.keys.update fun _ ↦ rfl, ?_, ?_⟩
    · exact Rows.forall_mem_update (fun row hrow _ ↦ hs'.once row hrow) fun row hrow _ ↦
        hs'.once row hrow
    · exact Rows.forall_mem_update (fun row hrow _ ↦ hs'.recorded row hrow) fun row hrow _ ↦
        hs'.recorded row hrow

/-- **An effect is begun once, with a record that was written ahead of it.** -/
theorem begun_run (missions : List String) (calls : List Call) :
    (calls.foldl Call.run (.new missions)).Begun := by
  suffices h : ∀ s : Store, s.Begun → (calls.foldl Call.run s).Begun from
    h _ ⟨List.nodup_nil, nofun, nofun⟩
  induction calls with
  | nil => exact fun _ ↦ id
  | cons call calls ih =>
    refine fun s hs ↦ ih _ ?_
    have hreaches : Relation.ReflTransGen (fun s s' ↦ s.Begun → s'.Begun) s (call.run s) :=
      steps_begun.reaches (fun _ _ h ↦ ⟨h.keys, h.once, h.recorded⟩) (fun _ _ _ _ ↦ trivial)
        fun _ _ _ _ _ _ _ _ ↦ trivial
    generalize call.run s = s' at hreaches ⊢
    induction hreaches with
    | refl => exact hs
    | tail _ hstep ih => exact hstep ih

/-- **What is bound stays bound, and where completions give the outcomes of their receipts,
completed checkpoints have them and do not change.** -/
theorem completed_outcome_kept (missions : List String) (before after : List Call) :
    (Rows.Unique (·.intentDigest) ((before ++ after).foldl Call.run (.new missions)).idempotency ∧
      ∀ entry ∈ (before.foldl Call.run (.new missions)).idempotency,
        entry ∈ ((before ++ after).foldl Call.run (.new missions)).idempotency) ∧
    (TruthfulRun (.new missions) (before ++ after) →
      ∀ row ∈ (before.foldl Call.run (.new missions)).checkpoints, row.state = .completed →
        row.Agrees (before.foldl Call.run (.new missions)) ∧
          ((before ++ after).foldl Call.run (.new missions)).row row.missionId row.stepIndex =
            some row) := by
  rw [List.foldl_append]
  refine ⟨?_, fun htruthful row hrow hstate ↦ ?_⟩
  · have hbefore := bindings_kept (reaches_run (.new missions) before) List.nodup_nil
    exact bindings_kept (reaches_run _ after) hbefore.1
  · have hnew : (Store.new missions).Sound := ⟨List.nodup_nil, List.nodup_nil, nofun⟩
    have hfirst : TruthfulRun (.new missions) before := fun before' call after' heq ↦
      htruthful before' call (after' ++ after) (by rw [heq, List.append_assoc, List.cons_append])
    have hsecond : TruthfulRun (before.foldl Call.run (.new missions)) after := by
      intro before' call after' heq
      have hcall := htruthful (before ++ before') call after' (by rw [heq, List.append_assoc])
      rwa [List.foldl_append] at hcall
    obtain ⟨hsound, -⟩ := hnew.reaches hfirst.reaches
    obtain ⟨hsound', hkept⟩ := hsound.reaches hsecond.reaches
    obtain ⟨ref, outcome, href, houtcome, hjson, -⟩ := hsound.completed row hrow hstate
    exact ⟨⟨ref, outcome, href, houtcome, hjson⟩,
      Store.row_eq_some hsound'.keys (hkept row hrow hstate)⟩

end Digests

/-! ## One effect, completed twice -/

section Calls

variable {cp : StepCheckpoint} {ref : ReceiptReference} {outcome : Document}

theorem stateOf_bind {α β : Type} {x : StoreM α} {f : α → StoreM β} {s t : Store} {a : α}
    (hx : x s = .ok a t) (hf : Keeps (f a)) : Interleave.Proc.stateOf ((x >>= f) s) = t := by
  change Interleave.Proc.stateOf (EStateM.bind x f s) = t
  simp only [EStateM.bind, hx]
  cases hend : f a t with
  | ok b u => exact hf.2 t b u hend
  | error e u => exact hf.1 t e u hend

/-- An intent that is recorded in a step that is free. -/
theorem run_recordIntent_new {s : Store} {missionId digest : String} {stepIndex : Int}
    {intent : Document} (hcheck : checkIntent intent = .ok digest) (hfits : FitsColumn stepIndex)
    (hfree : s.row missionId stepIndex = none)
    (hdigest : ∀ row ∈ s.checkpoints, ¬(row.missionId = missionId ∧ row.intentDigest = digest))
    (hmission : missionId ∈ s.missions) :
    (Call.recordIntent missionId stepIndex intent).run s = s.addCheckpoint
      ⟨missionId, stepIndex, digest, .intent, intent.dumps, none, none, 0⟩ := by
  rw [Call.run, recordIntent, ← bind_assoc]
  refine stateOf_bind (a := ()) ?_ (keeps_checkpoint missionId stepIndex)
  simp only [run_bind_eq_ok, run_lift_eq_ok, hcheck, transaction_eq_ok, requireM_eq_ok,
    run_get_eq_ok]
  refine ⟨digest, s, ⟨rfl, rfl⟩, (), s, ⟨hfits, rfl⟩, s, s, ⟨rfl, rfl⟩, ?_⟩
  rw [if_pos hfree]
  simp only [insertCheckpoint, run_bind_eq_ok, run_get_eq_ok, requireM_eq_ok, run_set_eq_ok]
  exact ⟨s, s, ⟨rfl, rfl⟩, (), s, ⟨hfree, rfl⟩, (), s, ⟨hdigest, rfl⟩, (), s, ⟨hmission, rfl⟩, rfl⟩

/-- A receipt that is the first one of its intent. -/
theorem run_writeEffectReceipt_new {s : Store} {records : List Document} {now : String}
    {receipt : Json} (hreceipt : syntheticReceipt cp now = .ok receipt)
    (hnone : s.read (receiptPath cp.missionId cp.intentDigest) = none) :
    (Call.writeEffectReceipt cp outcome records now).run s =
      s.write (receiptPath cp.missionId cp.intentDigest)
        ((receiptWrapper cp.intentDigest outcome records receipt).dumps ++ "\n") := by
  have hok : writeEffectReceipt cp outcome records now s =
      .ok ⟨receiptPath cp.missionId cp.intentDigest,
        sha256Digest ((receiptWrapper cp.intentDigest outcome records receipt).dumps ++ "\n")⟩
      (s.write (receiptPath cp.missionId cp.intentDigest)
        ((receiptWrapper cp.intentDigest outcome records receipt).dumps ++ "\n")) := by
    simp only [writeEffectReceipt, run_bind_eq_ok, run_lift_eq_ok, run_get_eq_ok]
    refine ⟨receipt, s, ⟨hreceipt, rfl⟩, s, s, ⟨rfl, rfl⟩, ?_⟩
    simp only [hnone, run_bind_eq_ok, run_set_eq_ok, run_pure_eq_ok]
    exact ⟨(), _, rfl, trivial, rfl⟩
  rw [Call.run, hok]
  rfl

/-- The first completion of a step. -/
theorem run_completeStep_new {s : Store} (hfits : FitsColumn cp.stepIndex)
    (hnone : s.binding cp.intentDigest = none) (hrow : s.row cp.missionId cp.stepIndex ≠ none) :
    (Call.completeStep cp ref outcome).run s =
      (s.addBinding ⟨cp.intentDigest, cp.missionId, cp.stepIndex, ref.toJson.dumps⟩).complete cp
        outcome.dumps ref.toJson.dumps := by
  have hok : completeStep cp ref outcome s = .ok () ((s.addBinding
      ⟨cp.intentDigest, cp.missionId, cp.stepIndex, ref.toJson.dumps⟩).complete cp outcome.dumps
      ref.toJson.dumps) := by
    simp only [completeStep, transaction_eq_ok, run_bind_eq_ok, requireM_eq_ok, run_modify_eq_ok,
      bindIntent, run_get_eq_ok]
    refine ⟨(), s, ⟨hfits, rfl⟩, (), _, ⟨s, s, ⟨rfl, rfl⟩, ?_⟩, rfl⟩
    simp only [hnone, run_bind_eq_ok, requireM_eq_ok, run_set_eq_ok]
    exact ⟨(), s, ⟨hrow, rfl⟩, trivial⟩
  rw [Call.run, hok]
  rfl

/-- A completion of a step that is bound to the same reference. -/
theorem run_completeStep_bound {s : Store} (hfits : FitsColumn cp.stepIndex)
    (hbound : s.binding cp.intentDigest =
      some ⟨cp.intentDigest, cp.missionId, cp.stepIndex, ref.toJson.dumps⟩) :
    (Call.completeStep cp ref outcome).run s = s.complete cp outcome.dumps ref.toJson.dumps := by
  have hok : completeStep cp ref outcome s = .ok () (s.complete cp outcome.dumps
      ref.toJson.dumps) := by
    simp only [completeStep, transaction_eq_ok, run_bind_eq_ok, requireM_eq_ok, run_modify_eq_ok,
      bindIntent, run_get_eq_ok]
    refine ⟨(), s, ⟨hfits, rfl⟩, (), s, ⟨s, s, ⟨rfl, rfl⟩, ?_⟩, rfl⟩
    simp only [hbound, requireM_eq_ok, and_self]
  rw [Call.run, hok]
  rfl

end Calls

/-- The intent of the step, up to its digest. -/
def pushMembers : List (String × Json) :=
  [("action_id", .str "ACT-1"), ("actor_id", .str "agent-integrator"),
    ("description", .str "push the branch"), ("idempotency_key", .str "KEY-1"),
    ("kind", .str "git"), ("lease_id", .str "lease-1"), ("mission_id", .str "MISSION-1"),
    ("policy_decision_ref", .str "policy-1"), ("schema_version", .int 1),
    ("state_ref", .str "MISSION_STATE:MISSION-1:1"), ("status", .str "proposed")]

def pushDigest : String := "sha256:7318e89e2478a979a7833fefb1f988e86acf1aa77b48f8221f4c27988238a7e2"

def pushIntent : Document :=
  .ofMembers (pushMembers ++ [("action_digest", .str pushDigest)])
    (by simp [pushMembers, Json.Sorted])

/-- The checkpoint that `record_intent` returns. -/
def pushCheckpoint : StepCheckpoint :=
  ⟨"MISSION-1", 0, pushDigest, .intent, pushIntent, none, none, 0⟩

def pushed (commit : String) : Document :=
  .ofMembers [("value", .str commit)] (by simp [Json.Sorted])

theorem checkIntent_pushIntent : checkIntent pushIntent = .ok pushDigest := by decide +kernel

/-- The receipt that is made out for it. -/
def pushReceipt : Json :=
  (syntheticReceipt pushCheckpoint "2029-01-01T00:00:00Z").toOption.getD .null

theorem eq_ok_of_isSome {α : Type} {x : Except StoreError α} (a : α)
    (h : x.toOption.isSome = true) : x = .ok (x.toOption.getD a) := by
  cases x with
  | ok a => rfl
  | error e => exact nomatch h

theorem syntheticReceipt_pushCheckpoint :
    syntheticReceipt pushCheckpoint "2029-01-01T00:00:00Z" = .ok pushReceipt :=
  eq_ok_of_isSome .null (by decide)

/-- The file that it is put into, and the reference to the file. -/
def pushContent : String := (receiptWrapper pushDigest (pushed "one") [] pushReceipt).dumps ++ "\n"

def pushReference : ReceiptReference :=
  ⟨receiptPath "MISSION-1" pushDigest, sha256Digest pushContent⟩

def recordPush : Call := .recordIntent "MISSION-1" 0 pushIntent

def witnessPush : Call :=
  .writeEffectReceipt pushCheckpoint (pushed "one") [] "2029-01-01T00:00:00Z"

def completePush (commit : String) : Call :=
  .completeStep pushCheckpoint pushReference (pushed commit)

/-- The row of the checkpoint, without and with an outcome. -/
def recordedRow : CheckpointRow :=
  ⟨"MISSION-1", 0, pushDigest, .intent, pushIntent.dumps, none, none, 0⟩

def completedRow (commit : String) : CheckpointRow :=
  ⟨"MISSION-1", 0, pushDigest, .completed, pushIntent.dumps, some (pushed commit).dumps,
    some pushReference.toJson.dumps, 0⟩

def pushStore (rows : List CheckpointRow) (bindings : List IdempotencyRow) : Store :=
  ⟨["MISSION-1"], rows, bindings, [(receiptPath "MISSION-1" pushDigest, pushContent)]⟩

def pushBinding : IdempotencyRow := ⟨pushDigest, "MISSION-1", 0, pushReference.toJson.dumps⟩

theorem complete_singleton {missions : List String} {row : CheckpointRow}
    {bindings : List IdempotencyRow} {files : List (String × String)} {cp : StepCheckpoint}
    (outcomeJson receiptRefJson : String) (hkey : row.key = (cp.missionId, cp.stepIndex))
    (hdigest : row.intentDigest = cp.intentDigest) :
    (⟨missions, [row], bindings, files⟩ : Store).complete cp outcomeJson receiptRefJson =
      ⟨missions, [{ row with
        state := .completed, outcomeJson := outcomeJson, receiptRefJson := receiptRefJson }],
        bindings, files⟩ := by
  simp only [Store.complete, Rows.update, List.map_cons, List.map_nil, hkey, hdigest, beq_self_eq_true,
    Bool.and_self, if_true]

theorem run_recordPush :
    recordPush.run (.new ["MISSION-1"]) = ⟨["MISSION-1"], [recordedRow], [], []⟩ := by
  rw [recordPush, run_recordIntent_new checkIntent_pushIntent (by decide) rfl
    (fun _ h ↦ absurd h List.not_mem_nil) List.mem_cons_self]
  rfl

theorem run_witnessPush :
    witnessPush.run ⟨["MISSION-1"], [recordedRow], [], []⟩ = pushStore [recordedRow] [] := by
  rw [witnessPush, run_writeEffectReceipt_new syntheticReceipt_pushCheckpoint rfl]
  rfl

theorem run_completePush_one :
    (completePush "one").run (pushStore [recordedRow] []) =
      pushStore [completedRow "one"] [pushBinding] := by
  have hrow : (pushStore [recordedRow] []).row "MISSION-1" 0 ≠ none := by
    simp [Store.row, pushStore, recordedRow, CheckpointRow.key]
  rw [completePush, run_completeStep_new (by decide) rfl hrow]
  exact complete_singleton _ _ rfl rfl

theorem run_completePush_two :
    (completePush "two").run (pushStore [completedRow "one"] [pushBinding]) =
      pushStore [completedRow "two"] [pushBinding] := by
  have hbound : (pushStore [completedRow "one"] [pushBinding]).binding pushDigest =
      some pushBinding := by
    simp [Store.binding, pushStore, pushBinding]
  rw [completePush, run_completeStep_bound (by decide) hbound]
  exact complete_singleton _ _ rfl rfl

theorem run_push :
    [recordPush, witnessPush, completePush "one"].foldl Call.run (.new ["MISSION-1"]) =
      pushStore [completedRow "one"] [pushBinding] := by
  rw [List.foldl_cons, List.foldl_cons, List.foldl_cons, List.foldl_nil, run_recordPush,
    run_witnessPush, run_completePush_one]

theorem truthfulRun_push :
    TruthfulRun (.new ["MISSION-1"]) [recordPush, witnessPush, completePush "one"] := by
  have hstored : storedOutcome pushContent = some (pushed "one").dict.toJson :=
    storedOutcome_dumps _ _ _ (sorted_syntheticReceipt syntheticReceipt_pushCheckpoint)
  have hread : (pushStore [recordedRow] []).read pushReference.path = some pushContent :=
    List.lookup_cons_self
  have hcomplete : (completePush "one").Truthful (pushStore [recordedRow] []) := by
    simp only [completePush, Call.Truthful, Store.receiptOutcome, hread]
    have hdigest : pushReference.digest = sha256Digest pushContent := rfl
    rw [if_pos hdigest, hstored]
  rw [truthfulRun_cons, truthfulRun_cons, truthfulRun_cons, run_recordPush, run_witnessPush]
  exact ⟨trivial, trivial, hcomplete, truthfulRun_nil _⟩

/-- The outcome of the step is the one in its receipt. -/
theorem push_agrees :
    (completedRow "one").Agrees (pushStore [completedRow "one"] [pushBinding]) := by
  have h := (completed_outcome_kept ["MISSION-1"]
    [recordPush, witnessPush, completePush "one"] []).2 truthfulRun_push (completedRow "one")
  rw [run_push] at h
  exact (h List.mem_cons_self rfl).1

theorem outcome_of_push_replaced :
    ∃ row ∈ ([recordPush, witnessPush, completePush "one"].foldl Call.run
        (.new ["MISSION-1"])).checkpoints,
      row.state = .completed ∧
        (([recordPush, witnessPush, completePush "one"] ++ [completePush "two"]).foldl Call.run
          (.new ["MISSION-1"])).row row.missionId row.stepIndex ≠ some row := by
  rw [List.foldl_append, run_push, List.foldl_cons, List.foldl_nil, run_completePush_two]
  refine ⟨completedRow "one", List.mem_cons_self, rfl, fun h ↦ ?_⟩
  have hrow : (pushStore [completedRow "two"] [pushBinding]).row "MISSION-1" 0 =
      some (completedRow "two") := by
    simp [Store.row, pushStore, completedRow, CheckpointRow.key]
  have hsame := Option.some.inj (hrow.symm.trans h)
  have hne : some (pushed "two").dumps ≠ some (pushed "one").dumps := by decide
  exact hne (congrArg CheckpointRow.outcomeJson hsame)

end HiveMind.Missions
