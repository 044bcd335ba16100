import HiveMind.Kernel.Documents
import HiveMind.Lib.Raise

/-!
# Context manifests and their bindings

A context manifest lists what an attempt was given to read: hot references, and the memory records
that were given in full (warm) or named only (cold). A binding says of one such record which
version of it was meant. Both carry a digest of all their other fields, and both are read back
through their constructors.

* **`ContextManifest.fromDocument_document`**: a manifest is read back if its numbers are in the
  range of a float, which the schema walker asks of every number.
* **`ContextRecordBinding.fromDocument_document`**: every binding is read back.
-/

namespace HiveMind

/-- How an operation on context manifests can end without a result. `stopped` is the end of the
process. -/
inductive ContextFailure where
  | osError
  | valueError (message : String)
  | overflowError
  | stopped
  deriving DecidableEq, Repr

/-! ## Manifests -/

/-- A dict from names to counts, by its items in the order of the names. -/
structure Counts where
  items : List (String × Nat)
  ordered : (items.map Prod.fst).Pairwise (· < ·)
  deriving DecidableEq

def Counts.toJson (counts : Counts) : Json :=
  .obj (counts.items.map fun item ↦ (item.1, .int item.2))

/-- A context manifest. The field `valid` is what its constructor checks. -/
structure ContextManifest where
  missionId : String
  workId : String
  attemptId : String
  role : String
  charterDigest : String
  authorityDigest : String
  tokenBudget : Nat
  estimatedTokens : Nat
  hotItems : List String
  warmItems : List String
  coldReferences : List String
  excludedCategories : List String
  excludedCounts : Counts
  conflictRecords : List String
  generatorEvaluatorSeparated : Bool
  manifestDigest : String
  valid : isIdentifier .mission missionId ∧ isIdentifier .work workId ∧
    isIdentifier .attempt attemptId ∧ isRole role ∧ isDigest charterDigest ∧
    isDigest authorityDigest ∧ estimatedTokens ≤ tokenBudget ∧ isDigest manifestDigest
  deriving DecidableEq

namespace ContextManifest

/-- The members of `to_document`, in the order of their names. -/
def document (m : ContextManifest) : List (String × Json) := [
  ("attempt_id", .str m.attemptId),
  ("authority_digest", .str m.authorityDigest),
  ("charter_digest", .str m.charterDigest),
  ("cold_references", Json.ofStrings m.coldReferences),
  ("conflict_records", Json.ofStrings m.conflictRecords),
  ("estimated_tokens", .int m.estimatedTokens),
  ("excluded_categories", Json.ofStrings m.excludedCategories),
  ("excluded_counts", m.excludedCounts.toJson),
  ("generator_evaluator_separated", .bool m.generatorEvaluatorSeparated),
  ("hot_items", Json.ofStrings m.hotItems),
  ("manifest_digest", .str m.manifestDigest),
  ("mission_id", .str m.missionId),
  ("role", .str m.role),
  ("token_budget", .int m.tokenBudget),
  ("warm_items", Json.ofStrings m.warmItems),
  ("work_id", .str m.workId)]

/-- `canonical_bytes` of the document, as a text. -/
def encoded (m : ContextManifest) : String := (Json.obj m.document).dumps

/-- Every field of the manifest except the digest that binds them. -/
def bound (m : ContextManifest) : Json := .obj [
  ("attempt_id", .str m.attemptId),
  ("authority_digest", .str m.authorityDigest),
  ("charter_digest", .str m.charterDigest),
  ("cold_references", Json.ofStrings m.coldReferences),
  ("conflict_records", Json.ofStrings m.conflictRecords),
  ("estimated_tokens", .int m.estimatedTokens),
  ("excluded_categories", Json.ofStrings m.excludedCategories),
  ("excluded_counts", m.excludedCounts.toJson),
  ("generator_evaluator_separated", .bool m.generatorEvaluatorSeparated),
  ("hot_items", Json.ofStrings m.hotItems),
  ("mission_id", .str m.missionId),
  ("role", .str m.role),
  ("token_budget", .int m.tokenBudget),
  ("warm_items", Json.ofStrings m.warmItems),
  ("work_id", .str m.workId)]

/-- The records that the manifest names, in its order. -/
def records (m : ContextManifest) : List String := m.warmItems ++ m.coldReferences

end ContextManifest

/-- `manifest_digest`, of the fields of a manifest. -/
def manifestDigest [Hash256] (m : ContextManifest) : String := jsonDigest m.bound

/-- The same manifest with the digest that its fields imply. -/
def ContextManifest.seal [Hash256] (m : ContextManifest) : ContextManifest :=
  { m with
    manifestDigest := HiveMind.manifestDigest m
    valid := ⟨m.valid.1, m.valid.2.1, m.valid.2.2.1, m.valid.2.2.2.1, m.valid.2.2.2.2.1,
      m.valid.2.2.2.2.2.1, m.valid.2.2.2.2.2.2.1, isDigest_jsonDigest m.bound⟩ }

theorem ContextManifest.manifestDigest_seal [Hash256] (m : ContextManifest) :
    m.seal.manifestDigest = HiveMind.manifestDigest m.seal := rfl

/-! ### The schema -/

/-- The schemas of the properties of a manifest. Numbers are not below zero. -/
inductive ManifestField where
  | field (schema : FieldSchema)
  | integer
  | counts
  | boolean

/-- `math.isfinite` of an integer, which is converted to a float first. -/
@[irreducible]
def isConvertible (n : Int) : Bool := n.natAbs < 2 ^ 1024 - 2 ^ 970

/-- `_validate_node` on a node with the type `integer` and the minimum 0. -/
def validateInteger (path : String) : Json → Except ContextFailure (List String)
  | .int n =>
    if isConvertible n then
      .ok (if n < 0 then [path ++ ": number is below minimum 0"] else [])
    else .error .overflowError
  | _ => .ok [path ++ ": expected integer"]

/-- `_validate_node` on the value of a property of a manifest. -/
def ManifestField.validateNode (path : String) (value : Json) :
    ManifestField → Except ContextFailure (List String)
  | .field schema => .ok (schema.validateNode path value)
  | .integer => validateInteger path value
  | .boolean =>
    match value with
    | .bool _ => .ok []
    | _ => .ok [path ++ ": expected boolean"]
  | .counts =>
    match value with
    | .obj ms => do
      let issues ← ms.mapM fun m ↦ validateInteger (path ++ "." ++ m.1) m.2
      return issues.flatten
    | _ => .ok [path ++ ": expected object"]

/-- `brain-kernel-context-manifest.schema.json`. -/
def contextManifestSchema : List (String × ManifestField) := [
  ("mission_id", .field (.string {})),
  ("work_id", .field (.string {})),
  ("attempt_id", .field (.string {})),
  ("role", .field (.enum roleNames)),
  ("charter_digest", .field (.string digestSchema)),
  ("authority_digest", .field (.string digestSchema)),
  ("token_budget", .integer),
  ("estimated_tokens", .integer),
  ("hot_items", .field (.array 0 {})),
  ("warm_items", .field (.array 0 {})),
  ("cold_references", .field (.array 0 {})),
  ("excluded_categories", .field (.array 0 {})),
  ("excluded_counts", .counts),
  ("conflict_records", .field (.array 0 {})),
  ("generator_evaluator_separated", .boolean),
  ("manifest_digest", .field (.string digestSchema))]

/-- `validate_contract` for the manifest schema. -/
def validateManifest (ms : List (String × Json)) : Except ContextFailure (List String) := do
  let keys := ms.map Prod.fst
  let missing := contextManifestSchema.filter fun p ↦ !keys.contains p.1
  let unknown := keys.filter fun k ↦ !(contextManifestSchema.map Prod.fst).contains k
  let issues ← contextManifestSchema.mapM fun p ↦
    match ms.lookup p.1 with
    | some value => p.2.validateNode ("$." ++ p.1) value
    | none => .ok []
  return missing.map (fun p ↦ "$: missing required property " ++ p.1) ++ issues.flatten ++
    (if unknown.isEmpty then [] else ["$: unknown properties: " ++ ", ".intercalate unknown])

/-- A count in a document. -/
def countOf (m : String × Json) : Option (String × Nat) := m.2.asNat?.map fun n ↦ (m.1, n)

/-- A truth value in a document. -/
def flagOf : Json → Option Bool
  | .bool b => some b
  | _ => none

/-- `dict(excluded_counts)`. -/
def Counts.ofJson : Json → Option Counts
  | .obj ms => do
    let items ← ms.mapM countOf
    if ordered : (items.map Prod.fst).Pairwise (· < ·) then some ⟨items, ordered⟩ else none
  | _ => none

/-- The constructor, from the values of a document that passed its schema. -/
def ContextManifest.ofMembers (ms : List (String × Json)) : Option ContextManifest := do
  let text (name : String) : Option String := (ms.lookup name).bind Json.asStr?
  let texts (name : String) : Option (List String) := (ms.lookup name).bind Json.asStrings?
  let missionId ← text "mission_id"
  let workId ← text "work_id"
  let attemptId ← text "attempt_id"
  let role ← text "role"
  let charterDigest ← text "charter_digest"
  let authorityDigest ← text "authority_digest"
  let tokenBudget ← (ms.lookup "token_budget").bind Json.asNat?
  let estimatedTokens ← (ms.lookup "estimated_tokens").bind Json.asNat?
  let hotItems ← texts "hot_items"
  let warmItems ← texts "warm_items"
  let coldReferences ← texts "cold_references"
  let excludedCategories ← texts "excluded_categories"
  let excludedCounts ← (ms.lookup "excluded_counts").bind Counts.ofJson
  let conflictRecords ← texts "conflict_records"
  let separated ← (ms.lookup "generator_evaluator_separated").bind flagOf
  let manifestDigest ← text "manifest_digest"
  if valid : isIdentifier .mission missionId ∧ isIdentifier .work workId ∧
      isIdentifier .attempt attemptId ∧ isRole role ∧ isDigest charterDigest ∧
      isDigest authorityDigest ∧ estimatedTokens ≤ tokenBudget ∧ isDigest manifestDigest then
    some ⟨missionId, workId, attemptId, role, charterDigest, authorityDigest, tokenBudget,
      estimatedTokens, hotItems, warmItems, coldReferences, excludedCategories, excludedCounts,
      conflictRecords, separated, manifestDigest, valid⟩
  else none

/-- `ContextManifest.from_document`. -/
def ContextManifest.fromDocument (document : Json) : Except ContextFailure ContextManifest :=
  match document with
  | .obj ms => do
    match ← validateManifest ms with
    | [] =>
      match ContextManifest.ofMembers ms with
      | some manifest => .ok manifest
      | none => .error (.valueError "invalid context manifest")
    | issues => .error (.valueError ("invalid kernel contract: " ++ "; ".intercalate issues))
  | _ => .error (.valueError "kernel contract document must be an object")

/-! ### Reading a manifest back -/

/-- The numbers that the schema walker looks at are in the range of a float. -/
def ContextManifest.Convertible (m : ContextManifest) : Prop :=
  isConvertible m.tokenBudget ∧ isConvertible m.estimatedTokens ∧
    ∀ item ∈ m.excludedCounts.items, isConvertible item.2

instance (m : ContextManifest) : Decidable m.Convertible :=
  inferInstanceAs (Decidable (_ ∧ _ ∧ _))

section ManifestDocument

variable {m : ContextManifest}

private theorem validateInteger_eq_ok {path : String} {n : Nat} (h : isConvertible n) :
    validateInteger path (.int n) = .ok [] := by
  rw [validateInteger, if_pos h, if_neg (by omega)]

private theorem validateInteger_eq_error {path : String} {n : Nat} (h : ¬isConvertible n) :
    validateInteger path (.int n) = .error .overflowError := by
  rw [validateInteger, if_neg h]

private theorem validateNode_counts {path : String} {counts : Counts}
    (h : ∀ item ∈ counts.items, isConvertible item.2) :
    ManifestField.counts.validateNode path counts.toJson = .ok [] := by
  have hitems : (counts.items.map fun item ↦ (item.1, Json.int item.2)).mapM
      (fun m ↦ validateInteger (path ++ "." ++ m.1) m.2) =
      .ok (counts.items.map fun _ ↦ []) := by
    rw [List.mapM_map]
    refine Raise.mapM_eq_ok.mpr (List.forall₂_map_right_iff.mpr ?_)
    exact List.forall₂_same.mpr fun item hitem ↦ validateInteger_eq_ok (h item hitem)
  have hflat : (counts.items.map fun _ ↦ ([] : List String)).flatten = [] := by
    simp
  rw [Counts.toJson, ManifestField.validateNode]
  rw [hitems]
  exact congrArg Except.ok hflat

private theorem ofJson_toJson (counts : Counts) : Counts.ofJson counts.toJson = some counts := by
  have hitems : (counts.items.map fun item ↦ (item.1, Json.int item.2)).mapM countOf =
      some counts.items := by
    rw [List.mapM_map]
    generalize counts.items = items
    induction items with
    | nil => rfl
    | cons item items ih =>
      rw [List.mapM_cons, ih]
      simp [countOf, Json.asNat?]
  rw [Counts.toJson, Counts.ofJson]
  simp only [hitems, Option.bind_eq_bind, Option.bind_some, dif_pos counts.ordered]

/-- One property of a manifest's document, as the walker meets it. -/
private abbrev walked (m : ContextManifest) (p : String × ManifestField) :
    Except ContextFailure (List String) :=
  match m.document.lookup p.1 with
  | some value => p.2.validateNode ("$." ++ p.1) value
  | none => .ok []

private theorem walked_eq_ok (h : m.Convertible) :
    ∀ p ∈ contextManifestSchema, walked m p = .ok [] := by
  obtain ⟨-, -, -, hrole, hcharter, hauthority, -, hdigest⟩ := m.valid
  obtain ⟨hbudget, hestimated, hcounts⟩ := h
  have htexts : ∀ {path : String} (xs : List String),
      (ManifestField.field (.array 0 {})).validateNode path (Json.ofStrings xs) = .ok [] :=
    fun xs ↦ congrArg Except.ok (validateNode_array (Nat.zero_le _) fun x _ ↦ admits_default x)
  have htext : ∀ {path : String} (s : String),
      (ManifestField.field (.string {})).validateNode path (.str s) = .ok [] :=
    fun s ↦ congrArg Except.ok (validateNode_string (admits_default s))
  have hdigests : ∀ {path s : String}, isDigest s = true →
      (ManifestField.field (.string digestSchema)).validateNode path (.str s) = .ok [] :=
    fun hs ↦ congrArg Except.ok (validateNode_string (admits_digest hs))
  have hroles : (ManifestField.field (.enum roleNames)).validateNode "$.role" (.str m.role) =
      .ok [] := by
    have hmem : m.role ∈ roleNames := List.contains_iff_mem.mp hrole
    have hany : (roleNames.any fun v ↦ Json.str m.role = .str v) = true :=
      List.any_eq_true.mpr ⟨m.role, hmem, decide_eq_true rfl⟩
    exact congrArg Except.ok (if_pos hany)
  simp only [contextManifestSchema, List.forall_mem_cons, List.not_mem_nil, false_implies,
    implies_true, and_true]
  exact ⟨htext _, htext _, htext _, hroles, hdigests hcharter, hdigests hauthority,
    validateInteger_eq_ok hbudget, validateInteger_eq_ok hestimated, htexts _, htexts _, htexts _,
    htexts _, validateNode_counts hcounts, htexts _, rfl, hdigests hdigest⟩

private theorem convertible_of_walked
    (h : ∀ p ∈ contextManifestSchema, ∃ issues, walked m p = .ok issues) : m.Convertible := by
  simp only [contextManifestSchema, List.forall_mem_cons] at h
  obtain ⟨-, -, -, -, -, -, ⟨_, hbudget⟩, ⟨_, hestimated⟩, -, -, -, -, ⟨_, hcounts⟩, -⟩ := h
  have hinteger : ∀ {path : String} {n : Nat} {issues : List String},
      validateInteger path (.int n) = .ok issues → isConvertible n = true := by
    intro path n issues hn
    by_contra hc
    rw [validateInteger_eq_error hc] at hn
    exact nomatch hn
  refine ⟨hinteger hbudget, hinteger hestimated, fun item hitem ↦ ?_⟩
  -- the walk over the counts visits this one
  change ManifestField.counts.validateNode _ m.excludedCounts.toJson = _ at hcounts
  rw [Counts.toJson, ManifestField.validateNode] at hcounts
  obtain ⟨issues, hissues, -⟩ := Raise.bind_eq_ok.mp hcounts
  obtain ⟨_, -, hitem'⟩ := Raise.exists_of_forall₂ (Raise.mapM_eq_ok.mp hissues)
    (List.mem_map_of_mem (f := fun item ↦ (item.1, Json.int item.2)) hitem)
  exact hinteger hitem'

private theorem validateManifest_eq_ok {issues : List String} :
    validateManifest m.document = .ok issues ↔
      ∃ walks, contextManifestSchema.mapM (walked m) = .ok walks ∧ issues = walks.flatten := by
  have hmissing : (contextManifestSchema.filter fun p ↦
      !(m.document.map Prod.fst).contains p.1) = [] := rfl
  have hunknown : ((m.document.map Prod.fst).filter fun k ↦
      !(contextManifestSchema.map Prod.fst).contains k) = [] := rfl
  rw [validateManifest, hmissing, hunknown]
  simp only [Raise.bind_eq_ok, Raise.pure_eq_ok, List.map_nil, List.nil_append, List.isEmpty_nil,
    if_true, List.append_nil]

private theorem manifestOfMembers_document (m : ContextManifest) :
    ContextManifest.ofMembers m.document = some m := by
  simp [ContextManifest.ofMembers, ContextManifest.document, Json.lookup_cons, Json.asStr?,
    asStrings?_ofStrings, Json.asNat?, ofJson_toJson, flagOf]
  exact m.valid

/-- **A manifest is read back if its numbers are in the range of a float.** -/
theorem ContextManifest.fromDocument_document (h : m.Convertible) :
    ContextManifest.fromDocument (.obj m.document) = .ok m := by
  have hwalks : contextManifestSchema.mapM (walked m) =
      .ok (contextManifestSchema.map fun _ ↦ []) :=
    Raise.mapM_eq_ok.mpr (List.forall₂_map_right_iff.mpr
      (List.forall₂_same.mpr (walked_eq_ok h)))
  have hvalid : validateManifest m.document = .ok [] :=
    validateManifest_eq_ok.mpr ⟨_, hwalks, rfl⟩
  simp only [ContextManifest.fromDocument, hvalid, Raise.ok_bind, manifestOfMembers_document]

/-- A manifest with a number outside of the range of a float is not read back. -/
theorem ContextManifest.convertible_of_fromDocument {m' : ContextManifest}
    (h : ContextManifest.fromDocument (.obj m.document) = .ok m') : m.Convertible := by
  rw [ContextManifest.fromDocument] at h
  obtain ⟨issues, hissues, -⟩ := Raise.bind_eq_ok.mp h
  obtain ⟨walks, hwalks, -⟩ := validateManifest_eq_ok.mp hissues
  refine convertible_of_walked fun p hp ↦ ?_
  obtain ⟨walk, -, hwalk⟩ := Raise.exists_of_forall₂ (Raise.mapM_eq_ok.mp hwalks) hp
  exact ⟨walk, hwalk⟩

private theorem sorted_toJson (counts : Counts) : counts.toJson.Sorted := by
  refine ⟨?_, ?_⟩
  · rw [List.map_map]
    exact counts.ordered
  · refine Json.sortedMembers_iff.mpr fun m hm ↦ ?_
    obtain ⟨item, -, rfl⟩ := List.mem_map.mp hm
    trivial

private theorem sortedStrings (xs : List String) : (Json.ofStrings xs).Sorted := by
  refine Json.sortedList_iff.mpr fun x hx ↦ ?_
  obtain ⟨s, -, rfl⟩ := List.mem_map.mp hx
  trivial

theorem ContextManifest.sorted_document (m : ContextManifest) : (Json.obj m.document).Sorted := by
  refine ⟨?_, ?_⟩
  · change ["attempt_id", "authority_digest", "charter_digest", "cold_references",
      "conflict_records", "estimated_tokens", "excluded_categories", "excluded_counts",
      "generator_evaluator_separated", "hot_items", "manifest_digest", "mission_id", "role",
      "token_budget", "warm_items", "work_id"].Pairwise (· < ·)
    decide
  · exact ⟨trivial, trivial, trivial, sortedStrings _, sortedStrings _, trivial, sortedStrings _,
      sorted_toJson _, trivial, sortedStrings _, trivial, trivial, trivial, trivial,
      sortedStrings _, trivial, trivial⟩

end ManifestDocument

/-! ## Bindings -/

/-- `0.0 <= x <= 1.0`. -/
def isUnitInterval (x : Decimal) : Bool :=
  let numerator := x.frac.foldl (fun n d ↦ n * 10 + d.val) x.whole
  let exponent (ds : List (Fin 10)) := ds.foldl (fun n d ↦ n * 10 + d.val) 0
  (numerator == 0 || !x.neg) &&
    match x.exp with
    | none => decide (numerator ≤ 10 ^ x.frac.length)
    | some (true, ds) => decide (numerator ≤ 10 ^ (x.frac.length + exponent ds))
    | some (false, ds) => decide (numerator * 10 ^ exponent ds ≤ 10 ^ x.frac.length)

/-- The fields of a binding except the digest that binds them. -/
structure BindingFields where
  manifestDigest : String
  recordId : String
  recordDigest : String
  sourceRefs : List String
  sensitivity : String
  validFrom : String
  validTo : Option String
  freshnessScore : Decimal
  authorityLevel : String
  authorityDigest : String
  missionId : String
  workId : String
  role : String
  accessRoles : List String
  dataScopes : List String
  evaluatorVisible : Bool
  deriving DecidableEq

namespace BindingFields

/-- `_binding_time`, for the times of memory records, which are in the format of RFC 3339. -/
def bindingTime (value label : String) : Except ContextFailure Unit :=
  if isTime value then .ok ()
  else .error (.valueError ("context binding " ++ label ++ " must be RFC 3339"))

/-- What the constructor checks before it looks at the digest. -/
def check (b : BindingFields) : Except ContextFailure Unit := do
  if !isDigest b.manifestDigest then
    throw (.valueError "context binding requires a manifest digest")
  if b.recordId = "" || !isDigest b.recordDigest then
    throw (.valueError "context binding requires a record identity and digest")
  if b.sourceRefs = [] || b.sourceRefs.any (· = "") || !decide b.sourceRefs.Nodup then
    throw (.valueError "context binding requires unique provenance references")
  if b.accessRoles = [] || !decide b.accessRoles.Nodup then
    throw (.valueError "context binding requires unique access roles")
  if !decide b.dataScopes.Nodup then
    throw (.valueError "context binding scopes must be unique")
  if !isUnitInterval b.freshnessScore then
    throw (.valueError "context binding freshness must be a float in [0, 1]")
  if !isDigest b.authorityDigest then
    throw (.valueError "context binding requires an authority digest")
  if b.sensitivity = "" || b.authorityLevel = "" || b.missionId = "" || b.workId = "" ||
      b.role = "" then
    throw (.valueError "context binding identity fields are required")
  bindingTime b.validFrom "valid_from"
  match b.validTo with
  | none => return
  | some validTo => bindingTime validTo "valid_to"

def validToJson (b : BindingFields) : Json :=
  match b.validTo with
  | none => .null
  | some validTo => .str validTo

/-- The document that the digest is taken of. -/
def bound (b : BindingFields) : Json := .obj [
  ("access_roles", Json.ofStrings b.accessRoles),
  ("authority_digest", .str b.authorityDigest),
  ("authority_level", .str b.authorityLevel),
  ("data_scopes", Json.ofStrings b.dataScopes),
  ("evaluator_visible", .bool b.evaluatorVisible),
  ("freshness_score", .float b.freshnessScore),
  ("manifest_digest", .str b.manifestDigest),
  ("mission_id", .str b.missionId),
  ("record_digest", .str b.recordDigest),
  ("record_id", .str b.recordId),
  ("role", .str b.role),
  ("sensitivity", .str b.sensitivity),
  ("source_refs", Json.ofStrings b.sourceRefs),
  ("valid_from", .str b.validFrom),
  ("valid_to", b.validToJson),
  ("work_id", .str b.workId)]

end BindingFields

section Bindings

variable [Hash256]

/-- `context_binding_digest`. -/
def contextBindingDigest (b : BindingFields) : String := jsonDigest b.bound

/-- A context record binding. -/
structure ContextRecordBinding where
  fields : BindingFields
  bindingDigest : String
  checked : fields.check = .ok ()
  sealed : bindingDigest = contextBindingDigest fields

instance : DecidableEq ContextRecordBinding := fun a b ↦
  decidable_of_iff (a.fields = b.fields) <| by
    obtain ⟨fields, _, _, rfl⟩ := a
    obtain ⟨fields', _, _, rfl⟩ := b
    constructor
    · rintro rfl
      rfl
    · exact fun h ↦ congrArg ContextRecordBinding.fields h

namespace ContextRecordBinding

/-- The constructor. An empty digest is filled in. -/
def make (fields : BindingFields) (bindingDigest : String) :
    Except ContextFailure ContextRecordBinding :=
  match checked : fields.check with
  | .error e => .error e
  | .ok () =>
    if bindingDigest = "" then .ok ⟨fields, contextBindingDigest fields, checked, rfl⟩
    else if sealed : bindingDigest = contextBindingDigest fields then
      .ok ⟨fields, bindingDigest, checked, sealed⟩
    else .error (.valueError "context binding digest is invalid")

/-- The members of `to_document`, in the order of their names. -/
def document (b : ContextRecordBinding) : List (String × Json) := [
  ("access_roles", Json.ofStrings b.fields.accessRoles),
  ("authority_digest", .str b.fields.authorityDigest),
  ("authority_level", .str b.fields.authorityLevel),
  ("binding_digest", .str b.bindingDigest),
  ("data_scopes", Json.ofStrings b.fields.dataScopes),
  ("evaluator_visible", .bool b.fields.evaluatorVisible),
  ("freshness_score", .float b.fields.freshnessScore),
  ("manifest_digest", .str b.fields.manifestDigest),
  ("mission_id", .str b.fields.missionId),
  ("record_digest", .str b.fields.recordDigest),
  ("record_id", .str b.fields.recordId),
  ("role", .str b.fields.role),
  ("sensitivity", .str b.fields.sensitivity),
  ("source_refs", Json.ofStrings b.fields.sourceRefs),
  ("valid_from", .str b.fields.validFrom),
  ("valid_to", b.fields.validToJson),
  ("work_id", .str b.fields.workId)]

def fieldNames : List String := [
  "manifest_digest", "record_id", "record_digest", "source_refs", "sensitivity", "valid_from",
  "valid_to", "freshness_score", "authority_level", "authority_digest", "mission_id", "work_id",
  "role", "access_roles", "data_scopes", "evaluator_visible", "binding_digest"]

/-- A value of a document, or a refusal of the document. -/
def orRaise {α : Type} (message : String) : Option α → Except ContextFailure α
  | some a => .ok a
  | none => .error (.valueError message)

def optionalOf : Json → Option (Option String)
  | .null => some none
  | .str s => some (some s)
  | _ => none

def floatOf : Json → Option Decimal
  | .float x => some x
  | _ => none

/-- `ContextRecordBinding.from_document`. -/
def fromDocument (ms : List (String × Json)) : Except ContextFailure ContextRecordBinding := do
  let keys := ms.map Prod.fst
  if !(keys.all fieldNames.contains && fieldNames.all keys.contains) then
    throw (.valueError "context binding has unsupported fields")
  let text (name : String) : Except ContextFailure String :=
    orRaise "context binding scalar fields are malformed" ((ms.lookup name).bind Json.asStr?)
  let texts (name : String) : Except ContextFailure (List String) :=
    orRaise "context binding lists are malformed" ((ms.lookup name).bind Json.asStrings?)
  let manifestDigest ← text "manifest_digest"
  let recordId ← text "record_id"
  let recordDigest ← text "record_digest"
  let sensitivity ← text "sensitivity"
  let validFrom ← text "valid_from"
  let authorityLevel ← text "authority_level"
  let authorityDigest ← text "authority_digest"
  let missionId ← text "mission_id"
  let workId ← text "work_id"
  let role ← text "role"
  let bindingDigest ← text "binding_digest"
  let validTo ← orRaise "context binding valid_to is malformed"
    ((ms.lookup "valid_to").bind optionalOf)
  let freshnessScore ← orRaise "context binding scalar fields are malformed"
    ((ms.lookup "freshness_score").bind floatOf)
  let evaluatorVisible ← orRaise "context binding scalar fields are malformed"
    ((ms.lookup "evaluator_visible").bind flagOf)
  let sourceRefs ← texts "source_refs"
  let accessRoles ← texts "access_roles"
  let dataScopes ← texts "data_scopes"
  make ⟨manifestDigest, recordId, recordDigest, sourceRefs, sensitivity, validFrom, validTo,
    freshnessScore, authorityLevel, authorityDigest, missionId, workId, role, accessRoles,
    dataScopes, evaluatorVisible⟩ bindingDigest

omit [Hash256] in
private theorem sorted_validToJson (fields : BindingFields) : fields.validToJson.Sorted := by
  rw [BindingFields.validToJson]
  cases fields.validTo <;> trivial

theorem sorted_document (b : ContextRecordBinding) : (Json.obj b.document).Sorted := by
  refine ⟨?_, ?_⟩
  · change ["access_roles", "authority_digest", "authority_level", "binding_digest", "data_scopes",
      "evaluator_visible", "freshness_score", "manifest_digest", "mission_id", "record_digest",
      "record_id", "role", "sensitivity", "source_refs", "valid_from", "valid_to",
      "work_id"].Pairwise (· < ·)
    decide
  · exact ⟨sortedStrings _, trivial, trivial, trivial, sortedStrings _, trivial, trivial, trivial,
      trivial, trivial, trivial, trivial, trivial, sortedStrings _, trivial, sorted_validToJson _,
      trivial, trivial⟩

theorem make_fields (b : ContextRecordBinding) : make b.fields b.bindingDigest = .ok b := by
  obtain ⟨fields, digest, checked, rfl⟩ := b
  have hne : contextBindingDigest fields ≠ "" := by
    intro h
    have := isDigest_jsonDigest fields.bound
    rw [contextBindingDigest] at h
    rw [h] at this
    exact absurd this (by decide)
  unfold make
  split
  · next e he =>
    rw [checked] at he
    exact nomatch he
  · rw [if_neg hne, dif_pos rfl]

omit [Hash256] in
private theorem optionalOf_validToJson (fields : BindingFields) :
    optionalOf fields.validToJson = some fields.validTo := by
  rw [BindingFields.validToJson]
  cases fields.validTo <;> rfl

/-- **A binding is read back.** -/
theorem fromDocument_document (b : ContextRecordBinding) : fromDocument b.document = .ok b := by
  have hnames : b.document.map Prod.fst = ["access_roles", "authority_digest", "authority_level",
      "binding_digest", "data_scopes", "evaluator_visible", "freshness_score", "manifest_digest",
      "mission_id", "record_digest", "record_id", "role", "sensitivity", "source_refs",
      "valid_from", "valid_to", "work_id"] := rfl
  have hkeys : ((b.document.map Prod.fst).all fieldNames.contains &&
      fieldNames.all (b.document.map Prod.fst).contains) = true := by
    rw [hnames]
    decide
  simp only [fromDocument, hkeys, Bool.not_true, Bool.false_eq_true, if_false]
  simp [document, Json.lookup_cons, orRaise, Json.asStr?, asStrings?_ofStrings,
    optionalOf_validToJson, floatOf, flagOf, Raise.ok_bind]
  exact make_fields b

end ContextRecordBinding

end Bindings

end HiveMind
