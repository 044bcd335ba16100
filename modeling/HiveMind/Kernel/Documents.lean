import HiveMind.Kernel.Schema

/-!
# Contracts and their documents

A contract is handed around as the document that `to_document` makes of it. The results here say
that the document of a contract is read back as that contract: `fromDocument_document` for
evaluation plans, where the document passes the schema first, and `ofMembers_document` for
evaluation results, which the reducer constructs without a schema.

The schema of a plan asks one thing more than the constructor. Its test paths have to be portable,
and of such a path the constructor's normalization changes nothing.
-/

namespace HiveMind

/-! ## Digests -/

private theorem getLast?_ne_newline {cs : List Char} (h : cs.all Hash256.isLowerHex) :
    cs.getLast? ≠ some '\n' := by
  intro hlast
  have := List.all_eq_true.mp h _ (List.mem_of_getLast? hlast)
  exact absurd this (by decide)

theorem Pattern.search_digest {s : String} (h : isDigest s) : Pattern.digest.search s = true := by
  have hhex := (Bool.and_eq_true_iff.mp h).2
  rw [isHexOfLength, Bool.and_eq_true_iff, beq_iff_eq] at hhex
  have hlast : s.toList.getLast? = (s.toList.drop 7).getLast? := by
    rw [List.getLast?_drop, if_neg]
    have := hhex.1
    rw [List.length_drop] at this
    omega
  rw [Pattern.search, hlast, if_neg (getLast?_ne_newline hhex.2)]
  exact h

theorem Pattern.search_sha {s : String} (h : isSha s) : Pattern.sha.search s = true := by
  rw [Pattern.search, if_neg (getLast?_ne_newline (Bool.and_eq_true_iff.mp h).2)]
  exact h

/-! ## Paths -/

/-- Normalization leaves a portable path as it is. -/
theorem normalizePortablePath_of_isPortablePath {p : String} (h : isPortablePath p) :
    normalizePortablePath p = .ok p := by
  simp only [isPortablePath, Bool.and_eq_true, bne_iff_ne, Bool.not_eq_true',
    List.all_eq_true] at h
  obtain ⟨⟨⟨⟨hne, hslash⟩, hback⟩, hdrive⟩, hparts⟩ := h
  have hmap : (p.toList.map fun c ↦ if c = '\\' then '/' else c) = p.toList := by
    conv_rhs => rw [← List.map_id p.toList]
    refine List.map_congr_left fun c hc ↦ if_neg ?_
    rintro rfl
    exact absurd (List.contains_iff_mem.mpr hc) (by rw [hback]; simp)
  have hsafe : (splitOn '/' p.toList).any isUnsafeSegment = false := by
    rw [List.any_eq_false]
    intro part hpart
    simp [(hparts part hpart).1]
  rw [normalizePortablePath, hmap, if_neg hne, hdrive, hsafe]
  simp [hslash]

/-! ## Strings and lists of strings -/

section Nodes

variable {path s : String} {xs : List String} {schema : StringSchema}

/-- A string that the schema has no complaint about. -/
def StringSchema.Admits (schema : StringSchema) (s : String) : Prop :=
  schema.minLength ≤ s.length ∧ (∀ p ∈ schema.pattern, p.search s = true) ∧
    ∀ f ∈ schema.format, (match f with
      | .dateTime => isTime s
      | .portableRelativePath => isPortablePath s) = true

theorem StringSchema.issues_eq_nil (h : schema.Admits s) : schema.issues path s = [] := by
  obtain ⟨hlength, hpattern, hformat⟩ := h
  obtain ⟨minLength, pattern, format⟩ := schema
  rw [StringSchema.issues, if_neg (by simpa using hlength), List.nil_append]
  rcases pattern with _ | p <;> rcases format with _ | f
  · rfl
  · cases f <;> simpa using hformat
  · simpa using hpattern
  · have hp : p.search s = true := by simpa using hpattern
    cases f <;> simpa [hp] using hformat

theorem validateNode_string (h : schema.Admits s) :
    FieldSchema.validateNode path (.str s) (.string schema) = [] :=
  StringSchema.issues_eq_nil h

theorem validateNode_array {minItems : Nat} (hlength : minItems ≤ xs.length)
    (h : ∀ x ∈ xs, schema.Admits x) :
    FieldSchema.validateNode path (Json.ofStrings xs) (.array minItems schema) = [] := by
  simp only [Json.ofStrings, FieldSchema.validateNode, List.length_map, Nat.not_lt.mpr hlength,
    if_false, List.nil_append, List.flatMap_eq_nil_iff]
  rintro ⟨x, i⟩ hx
  obtain ⟨s, hs, rfl⟩ := List.mem_map.mp (List.fst_mem_of_mem_zipIdx hx)
  exact StringSchema.issues_eq_nil (h s hs)

theorem admits_default (s : String) : ({} : StringSchema).Admits s :=
  ⟨Nat.zero_le _, by simp, by simp⟩

theorem admits_nonEmpty (h : isRequired s) : nonEmptySchema.Admits s := by
  refine ⟨?_, by simp [nonEmptySchema], by simp [nonEmptySchema]⟩
  rw [isRequired, List.any_eq_true] at h
  obtain ⟨c, hc, -⟩ := h
  rw [← String.length_toList]
  exact List.length_pos_of_mem hc

theorem admits_digest (h : isDigest s) : digestSchema.Admits s :=
  ⟨Nat.zero_le _, by simpa [digestSchema] using Pattern.search_digest h, by simp [digestSchema]⟩

theorem asStrings?_ofStrings (xs : List String) : (Json.ofStrings xs).asStrings? = some xs :=
  Json.asStrings?_eq_some.mpr rfl

end Nodes

theorem EvaluationState.ofJson_value (state : EvaluationState) :
    (EvaluationState.ofJson (.str state.value)).toOption = some state := by
  cases state <;> decide

/-- A document with every property of the schema, each admitted, and with no other property. -/
theorem validateContract_eq_nil {fields : List (String × FieldSchema)} {ms : List (String × Json)}
    (hfields : ∀ p ∈ fields, ∃ v, ms.lookup p.1 = some v ∧
      p.2.validateNode ("$." ++ p.1) v = [])
    (hkeys : ∀ k ∈ ms.map Prod.fst, k ∈ fields.map Prod.fst) : validateContract fields ms = [] := by
  have hmissing : fields.filter (fun p ↦ !(ms.map Prod.fst).contains p.1) = [] := by
    rw [List.filter_eq_nil_iff]
    intro p hp
    obtain ⟨v, hv, -⟩ := hfields p hp
    have hmem : p.1 ∈ ms.map Prod.fst :=
      List.mem_map.mpr ⟨(p.1, v), by
        obtain ⟨pre, post, rfl, -⟩ := List.lookup_eq_some_iff.mp hv
        simp, rfl⟩
    simpa using hmem
  have hunknown : (ms.map Prod.fst).filter (fun k ↦ !(fields.map Prod.fst).contains k) = [] := by
    rw [List.filter_eq_nil_iff]
    intro k hk
    simpa using hkeys k hk
  simp only [validateContract, hmissing, hunknown, List.map_nil, List.nil_append,
    List.isEmpty_nil, if_true, List.append_nil, List.flatMap_eq_nil_iff]
  intro p hp
  obtain ⟨v, hv, hnode⟩ := hfields p hp
  rw [hv]
  exact hnode

/-! ## Evaluation plans -/

private theorem asNat?_natCast (n : Nat) : (Json.int n).asNat? = some n := by
  rw [Json.asNat?, if_pos (Int.natCast_nonneg n), Int.toNat_natCast]

theorem Budget.ofMembers_toJson (b : Budget) : b.toJson.asObj?.bind Budget.ofMembers = some b := by
  rw [Budget.toJson, Json.asObj?, Option.bind_some]
  simp [Budget.ofMembers, Json.lookup_cons, asNat?_natCast]

/-- The members of a plan's document, in the order of their names. -/
def EvaluationPlan.document (p : EvaluationPlan) : List (String × Json) := [
  ("acceptance_commands", Json.ofStrings p.acceptanceCommands),
  ("allowed_test_paths", Json.ofStrings p.allowedTestPaths),
  ("base_commit", .str p.baseCommit),
  ("base_tree_digest", .str p.baseTreeDigest),
  ("contamination_checks", Json.ofStrings p.contaminationChecks),
  ("environment_requirements", Json.ofStrings p.environmentRequirements),
  ("evaluator_requirements", Json.ofStrings p.evaluatorRequirements),
  ("evidence_bundle_format", .str p.evidenceBundleFormat),
  ("pass_fail_abstain_rules", Json.ofStrings p.passFailAbstainRules),
  ("plan_digest", .str p.planDigest),
  ("plan_id", .str p.planId),
  ("regression_budget", p.regressionBudget.toJson),
  ("security_checks", Json.ofStrings p.securityChecks),
  ("state", .str p.state.value),
  ("test_digests", Json.ofStrings p.testDigests)]

private theorem validateContract_document (p : EvaluationPlan)
    (hpaths : ∀ x ∈ p.allowedTestPaths, isPortablePath x) :
    validateContract evaluationSchema p.document = [] := by
  obtain ⟨hid, hcommit, htree, hcommands, hdigests, hplan, hformat⟩ := p.valid
  have hany : ∀ {path : String} (xs : List String),
      FieldSchema.validateNode path (Json.ofStrings xs) (.array 0 {}) = [] :=
    fun xs ↦ validateNode_array (Nat.zero_le _) fun x _ ↦ admits_default x
  have hpath : ∀ x ∈ p.allowedTestPaths,
      ({ format := some .portableRelativePath } : StringSchema).Admits x :=
    fun x hx ↦ ⟨Nat.zero_le _, by simp, by simpa using hpaths x hx⟩
  have hsha : ({ pattern := some .sha } : StringSchema).Admits p.baseCommit :=
    ⟨Nat.zero_le _, by simpa using Pattern.search_sha hcommit, by simp⟩
  have hstate : FieldSchema.validateNode "$.state" (.str p.state.value)
      (.enum ["SEALED", "PASSED", "FAILED", "ABSTAINED"]) = [] := by
    cases p.state <;> decide
  have hkeys : ∀ k ∈ p.document.map Prod.fst, k ∈ evaluationSchema.map Prod.fst := by
    intro k
    change k ∈ ["acceptance_commands", "allowed_test_paths", "base_commit", "base_tree_digest",
      "contamination_checks", "environment_requirements", "evaluator_requirements",
      "evidence_bundle_format", "pass_fail_abstain_rules", "plan_digest", "plan_id",
      "regression_budget", "security_checks", "state", "test_digests"] → _
    revert k
    decide
  refine validateContract_eq_nil ?_ hkeys
  simp only [evaluationSchema, List.forall_mem_cons, List.not_mem_nil, false_implies, implies_true,
    and_true]
  exact ⟨⟨_, rfl, validateNode_string (admits_nonEmpty hid)⟩,
    ⟨_, rfl, validateNode_string hsha⟩,
    ⟨_, rfl, validateNode_string (admits_digest htree)⟩,
    ⟨_, rfl, validateNode_array (List.length_pos_iff.mpr hcommands) fun x _ ↦ admits_default x⟩,
    ⟨_, rfl, hany _⟩,
    ⟨_, rfl, validateNode_array (Nat.zero_le _) hpath⟩,
    ⟨_, rfl, validateNode_array (Nat.zero_le _) fun d hd ↦ admits_digest (hdigests d hd)⟩,
    ⟨_, rfl, hany _⟩, ⟨_, rfl, hany _⟩, ⟨_, rfl, hany _⟩,
    ⟨_, rfl, validateNode_string (admits_nonEmpty hformat)⟩,
    ⟨_, rfl, hany _⟩, ⟨_, rfl, rfl⟩, ⟨_, rfl, hstate⟩,
    ⟨_, rfl, validateNode_string (admits_digest hplan)⟩⟩

private theorem mapM_normalizePortablePath {xs : List String} (h : ∀ x ∈ xs, isPortablePath x) :
    xs.mapM (fun p ↦ (normalizePortablePath p).toOption) = some xs := by
  induction xs with
  | nil => rfl
  | cons x xs ih =>
    rw [List.mapM_cons, ih fun y hy ↦ h y (List.mem_cons_of_mem x hy),
      normalizePortablePath_of_isPortablePath (h x List.mem_cons_self)]
    rfl

private theorem planOfMembers_document (p : EvaluationPlan)
    (hpaths : ∀ x ∈ p.allowedTestPaths, isPortablePath x) :
    EvaluationPlan.ofMembers p.document = some p := by
  have hbudget : ∀ {α : Type} (f : Budget → Option α),
      (p.regressionBudget.toJson.asObj?.bind fun budget ↦ (Budget.ofMembers budget).bind f) =
        f p.regressionBudget := by
    intro α f
    rw [← Option.bind_assoc, Budget.ofMembers_toJson, Option.bind_some]
  simp [EvaluationPlan.ofMembers, EvaluationPlan.document, Json.lookup_cons, Json.asStr?,
    asStrings?_ofStrings, mapM_normalizePortablePath hpaths, hbudget,
    EvaluationState.ofJson_value]
  exact p.valid

/-- **A plan whose test paths are portable is read back from its document.** -/
theorem fromDocument_document (p : EvaluationPlan)
    (hpaths : ∀ x ∈ p.allowedTestPaths, isPortablePath x) :
    EvaluationPlan.fromDocument p.document = .ok p := by
  rw [EvaluationPlan.fromDocument, validateContract_document p hpaths,
    planOfMembers_document p hpaths]

/-! ## Evaluation results -/

/-- The members of a result's document, in the order of their names. -/
def EvaluationResult.document (r : EvaluationResult) : List (String × Json) := [
  ("candidate_digest", .str r.candidateDigest),
  ("check_results", .arr r.checkResults),
  ("evaluator_id", .str r.evaluatorId),
  ("evidence_refs", .arr r.evidenceRefs),
  ("plan_digest", .str r.planDigest),
  ("result_digest", .str r.resultDigest),
  ("state", .str r.state.value)]

/-- **A result is constructed again from its document.** -/
theorem ofMembers_document (r : EvaluationResult) :
    EvaluationResult.ofMembers r.document r.checkResults r.evidenceRefs = some r := by
  simp [EvaluationResult.ofMembers, EvaluationResult.document, Json.lookup_cons, Json.asStr?,
    EvaluationState.ofJson_value]
  exact r.valid

/-! ## Sealing -/

section Seal

variable [Hash256]

/-- The same plan with the digest that its fields imply. -/
def EvaluationPlan.seal (p : EvaluationPlan) : EvaluationPlan :=
  { p with
    planDigest := jsonDigest p.bound
    valid := ⟨p.valid.1, p.valid.2.1, p.valid.2.2.1, p.valid.2.2.2.1, p.valid.2.2.2.2.1,
      isDigest_jsonDigest p.bound, p.valid.2.2.2.2.2.2⟩ }

/-- The same result with the digest that its fields imply. -/
def EvaluationResult.seal (r : EvaluationResult) : EvaluationResult :=
  { r with
    resultDigest := jsonDigest r.bound
    valid := ⟨r.valid.1, r.valid.2.1, isDigest_jsonDigest r.bound, r.valid.2.2.2⟩ }

theorem EvaluationPlan.planDigest_seal (p : EvaluationPlan) :
    p.seal.planDigest = jsonDigest p.seal.bound := rfl

theorem EvaluationResult.resultDigest_seal (r : EvaluationResult) :
    r.seal.resultDigest = jsonDigest r.seal.bound := rfl

end Seal

end HiveMind
