import HiveMind.Kernel.Contracts

/-!
# Contract schemas and the documents they admit

The schemas of the kernel contracts are all of one shape: a closed object whose properties are all
required, each a string, an enumerated string, an array of strings or an object. `FieldSchema` is
that shape, and `validateContract` collects the issues that the schema walker reports for it, with
the field paths the walker gives them.

A document that passes its schema is made into a contract by the constructor, which checks again
and more strictly: a schema pattern ends in `$`, which lets a trailing newline through, where the
constructor's ends in `\Z`.
-/

namespace HiveMind

/-! ## The schema walker -/

/-- The patterns of the kernel schemas. -/
inductive Pattern where
  | sha
  | digest
  deriving DecidableEq

/-- `re.search` with the pattern. A final `$` also matches before a newline that ends the text. -/
def Pattern.search (p : Pattern) (s : String) : Bool :=
  let cs := s.toList
  let body := if cs.getLast? = some '\n' then cs.dropLast else cs
  match p with
  | .sha => isHexOfLength 40 body
  | .digest => body.take 7 == "sha256:".toList && isHexOfLength 64 (body.drop 7)

inductive Format where
  | dateTime
  | portableRelativePath
  deriving DecidableEq

/-- What a schema asks of a string. -/
structure StringSchema where
  minLength : Nat := 0
  pattern : Option Pattern := none
  format : Option Format := none

inductive FieldSchema where
  | string (schema : StringSchema)
  | nullableString
  | enum (values : List String)
  | array (minItems : Nat) (items : StringSchema)
  | object

def StringSchema.issues (schema : StringSchema) (path s : String) : List String :=
  (if s.length < schema.minLength then
    [path ++ ": string is shorter than " ++ toString schema.minLength] else []) ++
  (match schema.pattern with
    | some p => if p.search s then [] else [path ++ ": string does not match required pattern"]
    | none => []) ++
  (match schema.format with
    | some .dateTime => if isTime s then [] else [path ++ ": invalid date-time"]
    | some .portableRelativePath =>
      if isPortablePath s then [] else [path ++ ": invalid portable relative path"]
    | none => [])

/-- `_validate_node` on a string node. -/
def StringSchema.validateNode (schema : StringSchema) (path : String) (value : Json) :
    List String :=
  match value with
  | .str s => schema.issues path s
  | _ => [path ++ ": expected string"]

/-- `_validate_node` on the value of a property. -/
def FieldSchema.validateNode (path : String) (value : Json) : FieldSchema → List String
  | .string schema => schema.validateNode path value
  | .nullableString =>
    match value with
    | .str _ | .null => []
    | _ => [path ++ ": expected one of ['string', 'null']"]
  | .enum values =>
    if values.any fun v ↦ value = .str v then [] else [path ++ ": value is not in enum"]
  | .array minItems items =>
    match value with
    | .arr xs =>
      (if xs.length < minItems then
        [path ++ ": array has fewer than " ++ toString minItems ++ " items"] else []) ++
      (xs.zipIdx.flatMap fun (x, i) ↦ items.validateNode (path ++ "[" ++ toString i ++ "]") x)
    | _ => [path ++ ": expected array"]
  | .object =>
    match value with
    | .obj _ => []
    | _ => [path ++ ": expected object"]

/-- `validate_contract` for a closed object whose properties are all required. The issues come in
the order of the walk: missing properties, then the properties, then the unknown ones. -/
def validateContract (schema : List (String × FieldSchema)) (ms : List (String × Json)) :
    List String :=
  let keys := ms.map Prod.fst
  let missing := schema.filter fun p ↦ !keys.contains p.1
  let unknown := keys.filter fun k ↦ !(schema.map Prod.fst).contains k
  missing.map (fun p ↦ "$: missing required property " ++ p.1) ++
  (schema.flatMap fun p ↦
    match ms.lookup p.1 with
    | some value => p.2.validateNode ("$." ++ p.1) value
    | none => []) ++
  (if unknown.isEmpty then [] else ["$: unknown properties: " ++ ", ".intercalate unknown])

def digestSchema : StringSchema := { pattern := some .digest }

def nonEmptySchema : StringSchema := { minLength := 1 }

/-! ## Evaluation plans -/

/-- `brain-kernel-evaluation.schema.json`. -/
def evaluationSchema : List (String × FieldSchema) := [
  ("plan_id", .string nonEmptySchema),
  ("base_commit", .string { pattern := some .sha }),
  ("base_tree_digest", .string digestSchema),
  ("acceptance_commands", .array 1 {}),
  ("environment_requirements", .array 0 {}),
  ("allowed_test_paths", .array 0 { format := some .portableRelativePath }),
  ("test_digests", .array 0 digestSchema),
  ("security_checks", .array 0 {}),
  ("contamination_checks", .array 0 {}),
  ("evaluator_requirements", .array 0 {}),
  ("evidence_bundle_format", .string nonEmptySchema),
  ("pass_fail_abstain_rules", .array 0 {}),
  ("regression_budget", .object),
  ("state", .enum ["SEALED", "PASSED", "FAILED", "ABSTAINED"]),
  ("plan_digest", .string digestSchema)]

structure Budget where
  maxWallSeconds : Nat
  maxModelCalls : Nat
  maxInputTokens : Nat
  maxOutputTokens : Nat
  maxCostMicrounits : Nat
  maxToolCalls : Nat
  maxWorkItems : Nat
  maxDepth : Nat
  deriving DecidableEq

/-- `Budget(**values)`: exactly the eight fields, each a non-negative integer. -/
def Budget.ofMembers (ms : List (String × Json)) : Option Budget := do
  let field (name : String) : Option Nat := (ms.lookup name).bind Json.asNat?
  if ms.length != 8 then none
  let maxWallSeconds ← field "max_wall_seconds"
  let maxModelCalls ← field "max_model_calls"
  let maxInputTokens ← field "max_input_tokens"
  let maxOutputTokens ← field "max_output_tokens"
  let maxCostMicrounits ← field "max_cost_microunits"
  let maxToolCalls ← field "max_tool_calls"
  let maxWorkItems ← field "max_work_items"
  let maxDepth ← field "max_depth"
  some ⟨maxWallSeconds, maxModelCalls, maxInputTokens, maxOutputTokens, maxCostMicrounits,
    maxToolCalls, maxWorkItems, maxDepth⟩

def Budget.toJson (b : Budget) : Json := .obj [
  ("max_cost_microunits", .int b.maxCostMicrounits),
  ("max_depth", .int b.maxDepth),
  ("max_input_tokens", .int b.maxInputTokens),
  ("max_model_calls", .int b.maxModelCalls),
  ("max_output_tokens", .int b.maxOutputTokens),
  ("max_tool_calls", .int b.maxToolCalls),
  ("max_wall_seconds", .int b.maxWallSeconds),
  ("max_work_items", .int b.maxWorkItems)]

structure EvaluationPlan where
  planId : String
  baseCommit : String
  baseTreeDigest : String
  acceptanceCommands : List String
  environmentRequirements : List String
  allowedTestPaths : List String
  testDigests : List String
  securityChecks : List String
  contaminationChecks : List String
  evaluatorRequirements : List String
  evidenceBundleFormat : String
  passFailAbstainRules : List String
  regressionBudget : Budget
  state : EvaluationState
  planDigest : String
  valid : isRequired planId ∧ isSha baseCommit ∧ isDigest baseTreeDigest ∧
    acceptanceCommands ≠ [] ∧ (∀ d ∈ testDigests, isDigest d) ∧ isDigest planDigest ∧
    isRequired evidenceBundleFormat

def Json.ofStrings (xs : List String) : Json := .arr (xs.map .str)

/-- Every field of the plan except the digest that binds them. -/
def EvaluationPlan.bound (p : EvaluationPlan) : Json := .obj [
  ("acceptance_commands", Json.ofStrings p.acceptanceCommands),
  ("allowed_test_paths", Json.ofStrings p.allowedTestPaths),
  ("base_commit", .str p.baseCommit),
  ("base_tree_digest", .str p.baseTreeDigest),
  ("contamination_checks", Json.ofStrings p.contaminationChecks),
  ("environment_requirements", Json.ofStrings p.environmentRequirements),
  ("evaluator_requirements", Json.ofStrings p.evaluatorRequirements),
  ("evidence_bundle_format", .str p.evidenceBundleFormat),
  ("pass_fail_abstain_rules", Json.ofStrings p.passFailAbstainRules),
  ("plan_id", .str p.planId),
  ("regression_budget", p.regressionBudget.toJson),
  ("security_checks", Json.ofStrings p.securityChecks),
  ("state", .str p.state.value),
  ("test_digests", Json.ofStrings p.testDigests)]

/-- The constructor, from the values of a document that passed its schema. -/
def EvaluationPlan.ofMembers (ms : List (String × Json)) : Option EvaluationPlan := do
  let text (name : String) : Option String := (ms.lookup name).bind Json.asStr?
  let texts (name : String) : Option (List String) := (ms.lookup name).bind Json.asStrings?
  let planId ← text "plan_id"
  let baseCommit ← text "base_commit"
  let baseTreeDigest ← text "base_tree_digest"
  let acceptanceCommands ← texts "acceptance_commands"
  let environmentRequirements ← texts "environment_requirements"
  let paths ← texts "allowed_test_paths"
  let allowedTestPaths ← paths.mapM fun p ↦ (normalizePortablePath p).toOption
  let testDigests ← texts "test_digests"
  let securityChecks ← texts "security_checks"
  let contaminationChecks ← texts "contamination_checks"
  let evaluatorRequirements ← texts "evaluator_requirements"
  let evidenceBundleFormat ← text "evidence_bundle_format"
  let passFailAbstainRules ← texts "pass_fail_abstain_rules"
  let budget ← (ms.lookup "regression_budget").bind Json.asObj?
  let regressionBudget ← Budget.ofMembers budget
  let state ← (ms.lookup "state").bind fun j ↦ (EvaluationState.ofJson j).toOption
  let planDigest ← text "plan_digest"
  if valid : isRequired planId ∧ isSha baseCommit ∧ isDigest baseTreeDigest ∧
      acceptanceCommands ≠ [] ∧ (∀ d ∈ testDigests, isDigest d) ∧ isDigest planDigest ∧
      isRequired evidenceBundleFormat then
    some ⟨planId, baseCommit, baseTreeDigest, acceptanceCommands, environmentRequirements,
      allowedTestPaths, testDigests, securityChecks, contaminationChecks, evaluatorRequirements,
      evidenceBundleFormat, passFailAbstainRules, regressionBudget, state, planDigest, valid⟩
  else none

/-- `EvaluationPlan.from_document`. -/
def EvaluationPlan.fromDocument (ms : List (String × Json)) : Except Exc EvaluationPlan :=
  match validateContract evaluationSchema ms with
  | [] =>
    match EvaluationPlan.ofMembers ms with
    | some plan => .ok plan
    | none => .error (valueError "invalid evaluation plan")
  | issues => .error (valueError ("invalid kernel contract: " ++ "; ".intercalate issues))

/-! ## Evaluation results -/

structure EvaluationResult where
  planDigest : String
  candidateDigest : String
  evaluatorId : String
  state : EvaluationState
  checkResults : List Json
  evidenceRefs : List Json
  resultDigest : String
  valid : isDigest planDigest ∧ isDigest candidateDigest ∧ isDigest resultDigest ∧
    isRequired evaluatorId

def EvaluationResult.bound (r : EvaluationResult) : Json := .obj [
  ("candidate_digest", .str r.candidateDigest),
  ("check_results", .arr r.checkResults),
  ("evaluator_id", .str r.evaluatorId),
  ("evidence_refs", .arr r.evidenceRefs),
  ("plan_digest", .str r.planDigest),
  ("state", .str r.state.value)]

/-- `EvaluationResult(**values)`: exactly the fields, with the two lists given apart since the
caller has made tuples of them. -/
def EvaluationResult.ofMembers (ms : List (String × Json)) (checkResults evidenceRefs : List Json) :
    Option EvaluationResult := do
  let text (name : String) : Option String := (ms.lookup name).bind Json.asStr?
  if !(ms.map Prod.fst).all fun k ↦ ["plan_digest", "candidate_digest", "evaluator_id", "state",
      "check_results", "evidence_refs", "result_digest"].contains k then none
  let planDigest ← text "plan_digest"
  let candidateDigest ← text "candidate_digest"
  let evaluatorId ← text "evaluator_id"
  let state ← (ms.lookup "state").bind fun j ↦ (EvaluationState.ofJson j).toOption
  let resultDigest ← text "result_digest"
  if valid : isDigest planDigest ∧ isDigest candidateDigest ∧ isDigest resultDigest ∧
      isRequired evaluatorId then
    some ⟨planDigest, candidateDigest, evaluatorId, state, checkResults, evidenceRefs,
      resultDigest, valid⟩
  else none

/-! ## Role results -/

structure RoleResult where
  missionId : String
  workId : String
  attemptId : String
  role : String
  executorId : String
  contextManifestDigest : String
  authorityEnvelopeDigest : String
  baseArtifactRefs : List Json
  candidateArtifactRefs : List Json
  outputArtifactRefs : List Json
  claims : List Json
  effectReceiptRefs : List Json
  unresolvedRisks : List Json
  requestedNextRole : Option String
  selfAssessment : Json
  resultDigest : String
  valid : isIdentifier .mission missionId ∧ isIdentifier .work workId ∧
    isIdentifier .attempt attemptId ∧ isRole role ∧ isRequired executorId ∧
    isDigest contextManifestDigest ∧ isDigest authorityEnvelopeDigest ∧
    (∀ r ∈ requestedNextRole, isRole r) ∧ isDigest resultDigest

def RoleResult.bound (r : RoleResult) : Json := .obj [
  ("attempt_id", .str r.attemptId),
  ("authority_envelope_digest", .str r.authorityEnvelopeDigest),
  ("base_artifact_refs", .arr r.baseArtifactRefs),
  ("candidate_artifact_refs", .arr r.candidateArtifactRefs),
  ("claims", .arr r.claims),
  ("context_manifest_digest", .str r.contextManifestDigest),
  ("effect_receipt_refs", .arr r.effectReceiptRefs),
  ("executor_id", .str r.executorId),
  ("mission_id", .str r.missionId),
  ("output_artifact_refs", .arr r.outputArtifactRefs),
  ("requested_next_role", match r.requestedNextRole with
    | some s => .str s
    | none => .null),
  ("role", .str r.role),
  ("self_assessment", r.selfAssessment),
  ("unresolved_risks", .arr r.unresolvedRisks),
  ("work_id", .str r.workId)]

def RoleResult.fieldNames : List String :=
  ["mission_id", "work_id", "attempt_id", "role", "executor_id", "context_manifest_digest",
    "authority_envelope_digest", "base_artifact_refs", "candidate_artifact_refs",
    "output_artifact_refs", "claims", "effect_receipt_refs", "unresolved_risks",
    "requested_next_role", "self_assessment", "result_digest"]

/-- `RoleResult(**values)`, where the caller has replaced the list fields by tuples. -/
def RoleResult.ofMembers (ms : List (String × Json)) : Option RoleResult := do
  let text (name : String) : Option String := (ms.lookup name).bind Json.asStr?
  let items (name : String) : Option (List Json) := match ms.lookup name with
    | some (.arr xs) => some xs
    | _ => none
  if !(ms.map Prod.fst).all RoleResult.fieldNames.contains then none
  let missionId ← text "mission_id"
  let workId ← text "work_id"
  let attemptId ← text "attempt_id"
  let role ← text "role"
  let executorId ← text "executor_id"
  let contextManifestDigest ← text "context_manifest_digest"
  let authorityEnvelopeDigest ← text "authority_envelope_digest"
  let baseArtifactRefs ← items "base_artifact_refs"
  let candidateArtifactRefs ← items "candidate_artifact_refs"
  let outputArtifactRefs ← items "output_artifact_refs"
  let claims ← items "claims"
  let effectReceiptRefs ← items "effect_receipt_refs"
  let unresolvedRisks ← items "unresolved_risks"
  let requestedNextRole ← match ms.lookup "requested_next_role" with
    | some .null => some none
    | some (.str s) => some (some s)
    | _ => none
  let selfAssessment ← ms.lookup "self_assessment"
  let resultDigest ← text "result_digest"
  if valid : isIdentifier .mission missionId ∧ isIdentifier .work workId ∧
      isIdentifier .attempt attemptId ∧ isRole role ∧ isRequired executorId ∧
      isDigest contextManifestDigest ∧ isDigest authorityEnvelopeDigest ∧
      (∀ r ∈ requestedNextRole, isRole r) ∧ isDigest resultDigest then
    some ⟨missionId, workId, attemptId, role, executorId, contextManifestDigest,
      authorityEnvelopeDigest, baseArtifactRefs, candidateArtifactRefs, outputArtifactRefs,
      claims, effectReceiptRefs, unresolvedRisks, requestedNextRole, selfAssessment,
      resultDigest, valid⟩
  else none

/-! ## Historical evidence -/

/-- `brain-kernel-historical-evidence-reference.schema.json`. -/
def historicalEvidenceSchema : List (String × FieldSchema) := [
  ("receipt_ref", .string nonEmptySchema),
  ("receipt_digest", .string digestSchema),
  ("provenance_label", .string nonEmptySchema),
  ("retention_note", .string nonEmptySchema)]

structure HistoricalEvidenceReference where
  receiptRef : String
  receiptDigest : String
  provenanceLabel : String
  retentionNote : String
  valid : isRequired receiptRef ∧ isDigest receiptDigest ∧ isRequired provenanceLabel ∧
    isRequired retentionNote

/-- The constructor with its checks. -/
def HistoricalEvidenceReference.make (receiptRef receiptDigest provenanceLabel
    retentionNote : String) : Except Exc HistoricalEvidenceReference :=
  if valid : isRequired receiptRef ∧ isDigest receiptDigest ∧ isRequired provenanceLabel ∧
      isRequired retentionNote then
    .ok ⟨receiptRef, receiptDigest, provenanceLabel, retentionNote, valid⟩
  else .error (valueError "invalid historical evidence reference")

/-- `HistoricalEvidenceReference.from_document`. -/
def HistoricalEvidenceReference.fromDocument (j : Json) :
    Except Exc HistoricalEvidenceReference :=
  match j with
  | .obj ms =>
    let text (name : String) : String := ((ms.lookup name).bind Json.asStr?).getD ""
    match validateContract historicalEvidenceSchema ms with
    | [] => make (text "receipt_ref") (text "receipt_digest") (text "provenance_label")
        (text "retention_note")
    | issues => .error (valueError ("invalid kernel contract: " ++ "; ".intercalate issues))
  | _ => .error (valueError "kernel contract document must be an object")

end HiveMind
