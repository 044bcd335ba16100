import HiveMind.Missions.Receipts
import HiveMind.Missions.Updates

/-!
# The state document of a mission and its contract

The state of a mission is one document, made of the status of the mission, of the statuses of its
roles and of the intents and receipts of its checkpoints. It has to pass the schema of mission
states and then a number of rules across its parts: actions and receipts belong to the mission and
to each other, nobody verifies what he did himself, and a mission that is complete has done all that
it had to do.

Where the rules look into a part whose type the schema has refused already, that part counts as
empty.

* **`sorted_stateDocument`**: the document can be written to its column and read back.
-/

open Raise

namespace HiveMind.Missions

/-! ## Further nodes of the schema walker -/

namespace Validator

def boolean : Validator := fun path value ↦
  match value with
  | .bool _ => []
  | _ => [path ++ ": expected boolean"]

/-- A number that is below zero. -/
def isNegative : Json → Bool
  | .int n => n < 0
  | .float x => x.neg && (x.whole != 0 || x.frac.any (·.val != 0))
  | _ => false

/-- A number with the minimum 0. -/
def nonNegative : Validator := fun path value ↦
  match value with
  | .int _ | .float _ =>
    if isNegative value then [path ++ ": number is below minimum 0"] else []
  | _ => [path ++ ": expected number"]

def nullableInteger : Validator := fun path value ↦
  match value with
  | .null | .int _ => []
  | _ => [path ++ ": expected one of ['integer', 'null']"]

/-- An integer with the minimum 0, or null. -/
def nullableNonNegative : Validator := fun path value ↦
  match value with
  | .int n => if n < 0 then [path ++ ": number is below minimum 0"] else []
  | _ => nullableInteger path value

def anyObject : Validator := fun path value ↦
  match value with
  | .obj _ => []
  | _ => [path ++ ": expected object"]

end Validator

/-! ## The schemas -/

/-- `artifact-manifest.schema.json`. -/
def artifactManifest : Validator :=
  .object ["path", "digest"]
    [("artifact_id", nonEmpty),
      ("path", .string { format := some .portableRelativePath } none),
      ("digest", shaDigest),
      ("media_type", .nullableString nonEmptySchema),
      ("bytes", .nullableNonNegative),
      ("created_by", .nullableString nonEmptySchema),
      ("created_at", .nullableString { format := some .dateTime }),
      ("provenance_refs", .array 0 true nonEmpty)]

/-- The output of a process, as a receipt has it. -/
def streamRecord : Validator :=
  .object ["digest", "bytes", "truncated"]
    [("digest", shaDigest), ("bytes", .integer 0), ("truncated", .boolean)]

/-- The property `execution` of a receipt. -/
def executionRecord : Validator :=
  .object
    ["argv", "exit_code", "duration_ms", "outcome", "stdout", "stderr", "sandbox_spec_digest",
      "runner_identity"]
    [("argv", .array 1 false nonEmpty),
      ("requested_argv", .array 1 false nonEmpty),
      ("acceptance_specification", .object ["id", "digest"]
        [("id", nonEmpty), ("digest", shaDigest), ("candidate_commit", gitObject),
          ("candidate_tree", gitObject)]),
      ("exit_code", .nullableInteger),
      ("duration_ms", .nonNegative),
      ("outcome", .enum ["succeeded", "failed", "timeout"]),
      ("stdout", streamRecord),
      ("stderr", streamRecord),
      ("sandbox_spec_digest", shaDigest),
      ("runner_identity", nonEmpty)]

/-- `tool-receipt.schema.json`, also for receipts that the store has not made out. -/
def anyToolReceipt : Validator :=
  .allOf
    (.object
      ["schema_version", "receipt_id", "action_id", "provider", "execution_id", "mission_id",
        "state_ref", "actor_id", "policy_decision_ref", "lease_id", "action_kind", "action_digest",
        "executed", "result", "observed_at", "artifacts", "verified_by"]
      [("schema_version", .const (.int 1)),
        ("receipt_id", nonEmpty),
        ("action_id", nonEmpty),
        ("provider", nonEmpty),
        ("execution_id", nonEmpty),
        ("mission_id", nonEmpty),
        ("state_ref", nonEmpty),
        ("actor_id", nonEmpty),
        ("policy_decision_ref", nonEmpty),
        ("lease_id", nonEmpty),
        ("action_kind", .enum toolKinds),
        ("action_digest", shaDigest),
        ("executed", .const (.bool true)),
        ("result", .enum ["succeeded", "failed", "unknown"]),
        ("observed_at", .string { format := some .dateTime } none),
        ("artifacts", .array 0 false artifactManifest),
        ("enforced", .object ["filesystem", "network", "resources", "executable_identity"]
          [("filesystem", .const (.str "none")),
            ("network", .const (.str "none")),
            ("resources", .const (.str "posix-rlimit-only")),
            ("executable_identity", .const (.str "name-allowlist-only"))]),
        ("execution", executionRecord),
        ("verified_by", nonEmpty)])
    (.requiredIf "provider" (.str "hive-mind-process-sandbox") "enforced")

def roleName : Validator :=
  .enum ["orchestrator", "explorer", "architect", "builder", "curator", "integrator", "steward",
    "optimizer"]

/-- `handoff.schema.json`. -/
def handoff : Validator :=
  .object
    ["schema_version", "handoff_id", "mission_id", "state_ref", "from_actor_id", "to_role",
      "unresolved_items", "verified_artifacts", "next_action", "resume_instruction", "created_at"]
    [("schema_version", .const (.int 1)),
      ("handoff_id", nonEmpty),
      ("mission_id", nonEmpty),
      ("state_ref", nonEmpty),
      ("from_actor_id", nonEmpty),
      ("to_role", roleName),
      ("unresolved_items", .array 0 false nonEmpty),
      ("verified_artifacts", .array 0 true nonEmpty),
      ("next_action", nonEmpty),
      ("resume_instruction", nonEmpty),
      ("created_at", .string { format := some .dateTime } none)]

/-- The condition of `allOf` in the schema of mission states. It holds where the mission has no
status. -/
def isComplete (members : List (String × Json)) : Bool :=
  match members.lookup "mission" with
  | some (.obj mission) => (mission.lookup "status").all (· = .str "complete")
  | _ => true

/-- A complete mission has no blockers and is verified. -/
def completeBounds : Validator := fun path value ↦
  match value with
  | .obj members =>
    if isComplete members then
      (match members.lookup "blockers" with
        | some (.arr (_ :: _)) => [path ++ ".blockers: array has more than 0 items"]
        | _ => []) ++
      (match members.lookup "independent_verification" with
        | some (.arr []) => [path ++ ".independent_verification: array has fewer than 1 items"]
        | _ => [])
    else []
  | _ => []

/-- `mission-state.schema.json`. -/
def missionState : Validator :=
  .allOf
    (.object
      ["schema_version", "mission", "role_runs", "court_cases", "evidence", "proposed_actions",
        "tool_receipts", "blockers", "independent_verification", "next_action", "handoff"]
      [("schema_version", .const (.int 3)),
        ("mission", .object
          ["id", "state_version", "objective", "active_phase", "active_role", "status",
            "source_pack_fingerprint"]
          [("id", nonEmpty),
            ("state_version", .integer 1),
            ("objective", nonEmpty),
            ("active_phase", .enum ["intake", "discover", "design", "build", "validate",
              "integrate", "maintain", "optimize", "complete", "blocked", "quarantined"]),
            ("active_role", roleName),
            ("status", .enum ["active", "complete", "blocked", "quarantined"]),
            ("source_pack_fingerprint", shaDigest)]),
        ("role_runs", .array 0 false (.object ["role", "actor_id", "status", "evidence_refs"]
          [("role", roleName),
            ("actor_id", nonEmpty),
            ("status", .enum ["pending", "running", "succeeded", "failed", "blocked"]),
            ("evidence_refs", .array 0 true nonEmpty)])),
        ("court_cases", .array 0 false .anyObject),
        ("evidence", .array 0 false .anyObject),
        ("proposed_actions", .array 0 false toolIntent),
        ("tool_receipts", .array 0 false anyToolReceipt),
        ("blockers", .array 0 true nonEmpty),
        ("independent_verification", .array 0 false (.object ["actor_id", "evidence_refs"]
          [("actor_id", nonEmpty), ("evidence_refs", .array 1 true nonEmpty)])),
        ("next_action", .object ["owner_role", "description", "success_condition"]
          [("owner_role", roleName), ("description", nonEmpty),
            ("success_condition", nonEmpty)]),
        ("handoff", handoff)])
    completeBounds

/-! ## The rules across the parts -/

/-- The dicts among the items of a list. -/
def dictItems : Option Json → List Json.Dict
  | some (.arr xs) => xs.filterMap fun x ↦ x.asObj?.map Json.Dict.ofMembers
  | _ => []

/-- A member of a dict that is a text. -/
def textMember (d : Json.Dict) (key : String) : Option String := (d.get? key).bind Json.asStr?

/-- `d.get(key)`, where there is no difference between null and what is not there. -/
def member (d : Json.Dict) (key : String) : Json := (d.get? key).getD .null

/-- A value as it is put into a text. Texts and integers are all that the schema lets through
there. -/
def formatted : Json → String
  | .str s => s
  | .int n => toString n
  | value => value.dumps

/-- The pairs whose key has not been there before. -/
def firstPairs (pairs : List (String × Json.Dict)) : List (String × Json.Dict) :=
  pairs.foldl (fun first pair ↦
    if (first.lookup pair.1).isNone then first ++ [pair] else first) []

/-- What the parts of a document are compared with. -/
structure Frame where
  missionId : Json
  stateRef : String
  roleActors : List String

/-- `IMPLEMENTED_REPOSITORY_ROLES`. -/
def implementedRepositoryRoles : List Role := [.explorer, .builder, .curator]

/-- `SIDE_EFFECTING_ACTIONS`. -/
def sideEffectingActions : List String :=
  ["write", "command", "network", "git", "message", "deploy"]

section Digests

variable [Hash256]

/-- The rules for one action, of which the id is known. -/
def actionIssues (frame : Frame) (action : String × Json.Dict) : List String :=
  (if member action.2 "mission_id" ≠ frame.missionId then
    ["action " ++ action.1 ++ " belongs to another mission"] else []) ++
  (if member action.2 "state_ref" ≠ .str frame.stateRef then
    ["action " ++ action.1 ++ " references another mission state"] else []) ++
  (if frame.roleActors.all fun actor ↦ member action.2 "actor_id" ≠ .str actor then
    ["action " ++ action.1 ++ " actor lacks a role run"] else []) ++
  (if member action.2 "action_digest" ≠ .str (toolIntentDigest action.2) then
    ["action " ++ action.1 ++ " digest does not bind its intent"] else [])

/-- The rules for actions, after those with the given ids. -/
def actionsIssues (frame : Frame) : List String → List (String × Json.Dict) → List String
  | _, [] => []
  | seen, action :: actions =>
    (if action.1 ∈ seen then ["duplicate action id: " ++ action.1] else []) ++
    actionIssues frame action ++ actionsIssues frame (action.1 :: seen) actions

end Digests

/-- The fields of a receipt, each with what it has to be. -/
def receiptFields (frame : Frame) (action : Json.Dict) : List (String × Json) :=
  [("mission_id", frame.missionId),
    ("state_ref", .str frame.stateRef),
    ("actor_id", member action "actor_id"),
    ("action_kind", member action "kind"),
    ("action_digest", member action "action_digest"),
    ("policy_decision_ref", member action "policy_decision_ref"),
    ("lease_id", member action "lease_id")]

/-- The rules for a receipt of an action, after the receipts of the given actions. -/
def receiptIssues (frame : Frame) (action receipt : Json.Dict) (actionId : String)
    (answered : List String) : List String :=
  let name := formatted (member receipt "receipt_id")
  ((receiptFields frame action).filter fun field ↦ member receipt field.1 ≠ field.2).map
    (fun field ↦ "receipt " ++ name ++ " has foreign " ++ field.1) ++
  (if member receipt "verified_by" = member receipt "actor_id" then
    ["receipt " ++ name ++ " was self-verified"] else []) ++
  (if actionId ∈ answered then ["action has multiple receipts: " ++ actionId] else [])

/-- The ids that receipts have had so far. -/
structure Seen where
  receiptIds : List String := []
  executionIds : List String := []
  answered : List String := []

/-- The action of a receipt. -/
def actionOf (actions : List (String × Json.Dict)) (receipt : Json.Dict) :
    Option (String × Json.Dict) :=
  (textMember receipt "action_id").bind fun id ↦ (actions.lookup id).map (id, ·)

/-- The rules for receipts. -/
def receiptsIssues (frame : Frame) (actions : List (String × Json.Dict)) :
    Seen → List Json.Dict → List String
  | _, [] => []
  | seen, receipt :: receipts =>
    let receiptId := textMember receipt "receipt_id"
    let executionId := textMember receipt "execution_id"
    let action := actionOf actions receipt
    let next : Seen :=
      ⟨receiptId.toList ++ seen.receiptIds, executionId.toList ++ seen.executionIds,
        (action.map Prod.fst).toList ++ seen.answered⟩
    (receiptId.toList.filter (· ∈ seen.receiptIds)).map ("duplicate receipt id: " ++ ·) ++
    (executionId.toList.filter (· ∈ seen.executionIds)).map ("duplicate execution id: " ++ ·) ++
    (match action with
      | none =>
        ["receipt references unknown action: " ++ formatted (member receipt "action_id")]
      | some (id, action) => receiptIssues frame action receipt id seen.answered) ++
    receiptsIssues frame actions next receipts

/-- The rules for the handoff. -/
def handoffIssues (frame : Frame) : Option Json → List String
  | some (.obj ms) =>
    let handoff := Json.Dict.ofMembers ms
    (if member handoff "mission_id" ≠ frame.missionId then
      ["handoff belongs to another mission"] else []) ++
    (if member handoff "state_ref" ≠ .str frame.stateRef then
      ["handoff references another mission state"] else [])
  | _ => []

/-- The rules for a mission that is complete. -/
def completionIssues (roleRuns : List Json.Dict) (blocked : Bool) (verifierIds : List String)
    (actions : List (String × Json.Dict)) (receipts : List Json.Dict) : List String :=
  let succeeded := roleRuns.filter fun run ↦ member run "status" = .str "succeeded"
  let missing := (implementedRepositoryRoles.map Role.value).filter fun role ↦
    succeeded.all fun run ↦ member run "role" ≠ .str role
  let receiptMap := receipts.filterMap fun receipt ↦
    (actionOf actions receipt).map fun action ↦ (action.1, receipt)
  let sideEffects := (firstPairs actions).filter fun action ↦
    sideEffectingActions.any fun kind ↦ member action.2 "kind" = .str kind
  (if missing.isEmpty then [] else
    ["completion is missing successful role runs: " ++
      ", ".intercalate (missing.insertionSort (· ≤ ·))]) ++
  (if blocked then ["completion declared while blockers remain"] else []) ++
  (if verifierIds.isEmpty then ["completion lacks independent verification"] else []) ++
  (sideEffects.filter fun action ↦ (receiptMap.lookup action.1).all fun receipt ↦
      member receipt "result" ≠ .str "succeeded").map fun action ↦
    "completion lacks successful receipt for side-effecting action " ++ action.1

section Digests

variable [Hash256]

/-- The rules of `validate_runtime_state`, for a document with a mission. -/
def runtimeIssues (document mission : Json.Dict) : List String :=
  let missionId := member mission "id"
  let roleRuns := dictItems (document.get? "role_runs")
  let frame : Frame :=
    ⟨missionId, "MISSION_STATE:" ++ formatted missionId ++ ":" ++
      formatted (member mission "state_version"), roleRuns.filterMap (textMember · "actor_id")⟩
  let actions := (dictItems (document.get? "proposed_actions")).filterMap fun action ↦
    (textMember action "action_id").map (·, action)
  let receipts := dictItems (document.get? "tool_receipts")
  let verifierIds := (dictItems (document.get? "independent_verification")).filterMap
    (textMember · "actor_id")
  let blocked := match document.get? "blockers" with
    | some (.arr (_ :: _)) => true
    | _ => false
  (if (roleRuns.filterMap (textMember · "role")).Nodup then [] else
    ["role_runs contain duplicate roles"]) ++
  actionsIssues frame [] actions ++
  receiptsIssues frame actions {} receipts ++
  (if frame.roleActors.any (· ∈ verifierIds) then
    ["acting role identity attempted to verify mission completion"] else []) ++
  handoffIssues frame (document.get? "handoff") ++
  (if member mission "status" = .str "complete" then
    completionIssues roleRuns blocked verifierIds actions receipts else [])

/-- `validate_runtime_state`, without an expected fingerprint. -/
def validateRuntimeState (document : Json) : List String :=
  let structural := contractIssues missionState document
  match document, document.get? "mission" with
  | .obj members, some (.obj mission) =>
    (structural ++ runtimeIssues (.ofMembers members) (.ofMembers mission)).eraseDups
  | _, _ => structural

end Digests

/-! ## The state document -/

def phaseByRole : Role → String
  | .orchestrator => "intake"
  | .explorer => "discover"
  | .architect => "design"
  | .builder => "build"
  | .curator => "validate"
  | .integrator => "integrate"
  | .steward => "maintain"
  | .optimizer => "optimize"

/-- The first role that has not succeeded, in the order of the dict. -/
def nextRole (roles : List (String × Json)) : Except StoreError Role :=
  match roles.find? (·.2 ≠ .str "succeeded") with
  | none => .ok .optimizer
  | some (name, _) =>
    match Role.all.find? (·.value = name) with
    | some role => .ok role
    | none => .error (.valueError ("'" ++ name ++ "' is not a valid Role"))

/-- The role that a document is made for. -/
def chosenRole (roles : List (String × Json)) : Option Role → Except StoreError Role
  | some role => .ok role
  | none => nextRole roles

/-- The status of a role run. -/
def roleRunStatus (roles : List (String × Json)) (role item : Role) (complete : Bool) : String :=
  let status := roles.lookup item.value
  if status = some (.str "succeeded") then "succeeded"
  else if status = some (.str "failed") then "failed"
  else if item = role ∧ !complete then "running"
  else "pending"

def blockedStatuses : List String := ["failed", "blocked"]

/-- What a state document is made of. The time is the one that `_state_document` reads. -/
structure StateSource where
  missionId : String
  status : String
  config : Document
  roles : List (String × Json)
  intents : List Document := []
  receipts : List Document := []
  blocker : Option String := none
  receiptPaths : List String := []

def texts (xs : List String) : Json := .arr (xs.map .str)

/-- `_state_document` for the role that it has chosen, with what it has read from the
configuration. -/
def stateOfRole (source : StateSource) (role : Role) (objective fingerprint : Json)
    (now : String) : Json :=
  let complete := source.status = "succeeded"
  let blocked := source.status ∈ blockedStatuses
  let blocker := source.blocker.filter (· ≠ "")
  .mkObj [
    ("schema_version", .int 3),
    ("mission", .mkObj [
      ("id", .str source.missionId),
      ("state_version", .int 1),
      ("objective", objective),
      ("active_phase", .str (if complete then "complete" else if blocked then "blocked"
        else phaseByRole role)),
      ("active_role", .str role.value),
      ("status", .str (if complete then "complete" else if blocked then "blocked" else "active")),
      ("source_pack_fingerprint", fingerprint)]),
    ("role_runs", .arr (Role.all.map fun item ↦ .mkObj [
      ("role", .str item.value),
      ("actor_id", .str ("agent-" ++ item.value)),
      ("status", .str (roleRunStatus source.roles role item complete)),
      ("evidence_refs", .arr [])])),
    ("court_cases", .arr []),
    ("evidence", .arr (source.receiptPaths.map fun path ↦
      .mkObj [("kind", .str "checkpoint-receipt"), ("path", .str path)])),
    ("proposed_actions", .arr (source.intents.map (·.dict.toJson))),
    ("tool_receipts", .arr (source.receipts.map (·.dict.toJson))),
    ("blockers", texts (if blocked then [blocker.getD "mission failed"] else [])),
    ("independent_verification", .arr (if complete then
      [.mkObj [("actor_id", .str "p06-store-verifier"),
        ("evidence_refs", texts (if source.receiptPaths = [] then ["mission-report"]
          else source.receiptPaths))]] else [])),
    ("next_action", .mkObj [
      ("owner_role", .str role.value),
      ("description", .str (if complete then "mission complete" else if blocked then
        "resolve blocker" else "resume from first incomplete checkpoint")),
      ("success_condition", .str (if complete then "verified delivery remains reproducible"
        else "checkpoint evidence and workspace reconcile"))]),
    ("handoff", .mkObj [
      ("schema_version", .int 1),
      ("handoff_id", .str ("HANDOFF-" ++ source.missionId)),
      ("mission_id", .str source.missionId),
      ("state_ref", .str ("MISSION_STATE:" ++ source.missionId ++ ":1")),
      ("from_actor_id", .str "agent-orchestrator"),
      ("to_role", .str role.value),
      ("unresolved_items", texts blocker.toList),
      ("verified_artifacts", texts source.receiptPaths),
      ("next_action", .str (if complete then "retain verified result"
        else "resume durable mission")),
      ("resume_instruction", .str ("hive-mind resume " ++ source.missionId)),
      ("created_at", .str now)])]

/-- `_state_document`. -/
def stateDocument (source : StateSource) (activeRole : Option Role) (now : String) :
    Except StoreError Json := do
  let role ← chosenRole source.roles activeRole
  let objective ← source.config.getItem "objective"
  let fingerprint ← source.config.getItem "source_pack_fingerprint"
  pure (stateOfRole source role objective fingerprint now)

/-- The roles are only looked up. -/
theorem stateOfRole_congr {source : StateSource} {roles : List (String × Json)}
    (h : ∀ item : Role, source.roles.lookup item.value = roles.lookup item.value) (role : Role)
    (objective fingerprint : Json) (now : String) :
    stateOfRole source role objective fingerprint now =
      stateOfRole { source with roles := roles } role objective fingerprint now := by
  simp only [stateOfRole, roleRunStatus, h]

/-! ## The document can be written -/

theorem sorted_texts (xs : List String) : (texts xs).Sorted := by
  refine Json.sortedList_iff.mpr fun x hx ↦ ?_
  obtain ⟨text, -, rfl⟩ := List.mem_map.mp hx
  trivial

theorem sorted_documents (ds : List Document) :
    (Json.arr (ds.map (·.dict.toJson))).Sorted := by
  refine Json.sortedList_iff.mpr fun x hx ↦ ?_
  obtain ⟨d, -, rfl⟩ := List.mem_map.mp hx
  exact d.sorted

theorem sorted_stateOfRole (source : StateSource) (role : Role) {objective fingerprint : Json}
    (now : String) (hobjective : objective.Sorted) (hfingerprint : fingerprint.Sorted) :
    (stateOfRole source role objective fingerprint now).Sorted := by
  refine Json.sorted_mkObj ?_
  simp only [List.forall_mem_cons]
  refine ⟨trivial, Json.sorted_mkObj ?_, ?_, trivial, ?_, sorted_documents _, sorted_documents _,
    sorted_texts _, ?_, Json.sorted_mkObj ?_, Json.sorted_mkObj ?_, List.forall_mem_nil _⟩
  · simp only [List.forall_mem_cons]
    exact ⟨trivial, trivial, hobjective, trivial, trivial, trivial, hfingerprint,
      List.forall_mem_nil _⟩
  · refine Json.sortedList_iff.mpr fun run hrun ↦ ?_
    obtain ⟨item, -, rfl⟩ := List.mem_map.mp hrun
    refine Json.sorted_mkObj ?_
    simp only [List.forall_mem_cons]
    exact ⟨trivial, trivial, trivial, trivial, List.forall_mem_nil _⟩
  · refine Json.sortedList_iff.mpr fun entry hentry ↦ ?_
    obtain ⟨path, -, rfl⟩ := List.mem_map.mp hentry
    refine Json.sorted_mkObj ?_
    simp only [List.forall_mem_cons]
    exact ⟨trivial, trivial, List.forall_mem_nil _⟩
  · refine Json.sortedList_iff.mpr fun verifier hverifier ↦ ?_
    split at hverifier
    · rw [List.mem_singleton.mp hverifier]
      refine Json.sorted_mkObj ?_
      simp only [List.forall_mem_cons]
      exact ⟨trivial, sorted_texts _, List.forall_mem_nil _⟩
    · exact absurd hverifier List.not_mem_nil
  · simp only [List.forall_mem_cons]
    exact ⟨trivial, trivial, trivial, List.forall_mem_nil _⟩
  · simp only [List.forall_mem_cons]
    exact ⟨trivial, trivial, trivial, trivial, trivial, trivial, sorted_texts _, sorted_texts _,
      trivial, trivial, trivial, List.forall_mem_nil _⟩

theorem sorted_stateDocument {source : StateSource} {activeRole : Option Role} {now : String}
    {state : Json} (h : stateDocument source activeRole now = .ok state) : state.Sorted := by
  simp only [stateDocument, bind_eq_ok, pure_eq_ok] at h
  obtain ⟨role, -, objective, hobjective, fingerprint, hfingerprint, rfl⟩ := h
  exact sorted_stateOfRole source role now (Document.sorted_of_getItem hobjective)
    (Document.sorted_of_getItem hfingerprint)

/-- Every document is a dict. -/
theorem loads_stateDocument {source : StateSource} {activeRole : Option Role} {now : String}
    {state : Json} (h : stateDocument source activeRole now = .ok state) :
    ∃ d, Document.loads state.dumps = .ok d := by
  have hloads := Json.loads_dumps (sorted_stateDocument h)
  simp only [stateDocument, bind_eq_ok, pure_eq_ok] at h
  obtain ⟨role, -, objective, -, fingerprint, -, rfl⟩ := h
  rw [Document.loads]
  split
  · exact ⟨_, rfl⟩
  · next hnot => exact absurd hloads (hnot _)

end HiveMind.Missions
