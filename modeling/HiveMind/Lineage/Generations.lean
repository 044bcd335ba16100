import HiveMind.Lib.Passes
import HiveMind.Lineage.CarryForward

/-!
# Generations of a plan

A generation record names what a plan was generated from, and the generation before it. Its id is
the digest of everything else in it. A lineage takes records in any order, once each, parents first,
and refuses a record that does not follow its parent.

* **`new_isOk_iff`**: a lineage accepts the records that are sound, whatever their order.
* **`generations_sound`**: what it has then are these records, and every chain of parents is bound to one
  subject and ends in a root.
-/

open Raise Dicts HiveMind.Runtime

namespace HiveMind.Lineage

section Generations

variable [Hash256]

/-! ## Records -/

structure GenerationFields where
  schemaVersion : Int
  generationId : String
  requestId : String
  objectiveDigest : String
  repositoryId : Option String
  subjectId : String
  subjectKind : String
  target : String
  parentGenerationId : Option String
  parentCommit : Option String
  parentTree : Option String
  nodeMappingsDigest : String
  sourceInventoryDigest : String
  standardVersion : Int
  standardDigest : String
  compilerDigest : String
  planDigest : String
  deriving DecidableEq

namespace GenerationFields

variable (record : GenerationFields)

/-- `identity_material`, in the order of the canonical text. -/
def identityMaterial : Json.Dict where
  members := [
    ("compiler_digest", .str record.compilerDigest),
    ("node_mappings_digest", .str record.nodeMappingsDigest),
    ("objective_digest", .str record.objectiveDigest),
    ("parent_commit", Runtime.optionalText record.parentCommit),
    ("parent_generation_id", Runtime.optionalText record.parentGenerationId),
    ("parent_tree", Runtime.optionalText record.parentTree),
    ("plan_digest", .str record.planDigest),
    ("repository_id", Runtime.optionalText record.repositoryId),
    ("request_id", .str record.requestId),
    ("schema_version", .int record.schemaVersion),
    ("source_inventory_digest", .str record.sourceInventoryDigest),
    ("standard_digest", .str record.standardDigest),
    ("standard_version", .int record.standardVersion),
    ("subject_id", .str record.subjectId),
    ("subject_kind", .str record.subjectKind),
    ("target", .str record.target)]
  ordered := by simp only [List.map_cons, List.map_nil]; decide

/-- `to_document`. -/
def toDocument : Json.Dict := record.identityMaterial.set "generation_id" (.str record.generationId)

/-- The first of the values that is not a digest. -/
def requireDigests : List (String × String) → Option ContractViolation
  | [] => none
  | (value, label) :: rest => requireDigest value label <|> requireDigests rest

/-- A check of a value that may be missing. -/
def optionally (check : String → Option ContractViolation) : Option String → Option ContractViolation
  | none => none
  | some value => check value

/-- The check that is raised if the condition holds. -/
def refuse (condition : Bool) (message : String) : Option ContractViolation :=
  if condition then some ⟨message⟩ else none

/-- What `GenerationRecord.__post_init__` raises for the values that the id is made from. -/
def materialProblem? : Option ContractViolation :=
  refuse (record.schemaVersion ≠ 1) "unsupported generation-record schema version" <|>
  requireDigests [
    (record.requestId, "request_id"),
    (record.objectiveDigest, "objective_digest"),
    (record.subjectId, "subject_id"),
    (record.nodeMappingsDigest, "node_mappings_digest"),
    (record.sourceInventoryDigest, "source_inventory_digest"),
    (record.standardDigest, "standard_digest"),
    (record.compilerDigest, "compiler_digest"),
    (record.planDigest, "plan_digest")] <|>
  optionally (requireDigest · "repository_id") record.repositoryId <|>
  requireIdentifier record.subjectKind "subject_kind" <|>
  refuse (record.target = "") "generation target is required" <|>
  optionally (requireDigest · "parent_generation_id") record.parentGenerationId <|>
  refuse (record.parentCommit.isNone ≠ record.parentTree.isNone)
    "parent commit and tree must be supplied together" <|>
  (if record.subjectKind = "repository" then
    refuse (record.repositoryId.isNone || record.parentCommit.isNone)
      "repository generation requires repository and parent Git identity"
  else
    refuse (record.repositoryId.isSome || record.parentCommit.isSome)
      "non-repository generation cannot carry repository Git identity") <|>
  optionally (fun value ↦ refuse (!isSha value) "parent Git identity must be lowercase 40-hex")
    record.parentCommit <|>
  optionally (fun value ↦ refuse (!isSha value) "parent Git identity must be lowercase 40-hex")
    record.parentTree <|>
  refuse (record.standardVersion < 1) "standard_version must be a positive integer"

/-- What `GenerationRecord.__post_init__` raises. -/
def problem? : Option ContractViolation :=
  record.materialProblem? <|>
  requireDigest record.generationId "generation_id" <|>
  refuse (record.generationId ≠ jsonDigest record.identityMaterial.toJson)
    "generation_id does not authenticate the complete generation identity"

/-- The values with their id. -/
def identified : GenerationFields :=
  { record with generationId := jsonDigest record.identityMaterial.toJson }

variable {record} in
theorem problem?_identified (h : record.materialProblem? = none) :
    record.identified.problem? = none := by
  have hmaterial : record.identified.materialProblem? = none := h
  have hdigest : requireDigest record.identified.generationId "generation_id" = none := by
    rw [requireDigest, identified, if_pos (isDigest_jsonDigest _)]
  have hsame : record.identified.generationId =
      jsonDigest record.identified.identityMaterial.toJson := rfl
  rw [problem?, hmaterial, hdigest, ← hsame]
  simp only [refuse, ne_eq, not_true, decide_false, Bool.false_eq_true, if_false]
  rfl

end GenerationFields

/-- `GenerationRecord`. -/
structure GenerationRecord extends GenerationFields where
  valid : toGenerationFields.problem? = none
  deriving DecidableEq

/-- `GenerationRecord.create`, for values that pass the checks. -/
def GenerationRecord.create (material : GenerationFields)
    (h : material.materialProblem? = none) : GenerationRecord :=
  ⟨material.identified, GenerationFields.problem?_identified h⟩

/-! ## The lineage -/

/-- `GenerationLineage`. -/
structure GenerationLineage where
  records : List (String × GenerationRecord)
  planSubjects : List (String × String)

namespace GenerationLineage

variable (lineage : GenerationLineage)

def empty : GenerationLineage := ⟨[], []⟩

/-- `self._records.get`. -/
def get? (generationId : String) : Option GenerationRecord := lineage.records.lookup generationId

/-- What `register` checks a record against its parent for. -/
def requireParent (record : GenerationRecord) : Except ContractViolation Unit :=
  match record.parentGenerationId with
  | none => .ok ()
  | some parentGenerationId =>
    match lineage.get? parentGenerationId with
    | none => throw ⟨"generation parent is missing"⟩
    | some parent => do
      if parent.subjectId ≠ record.subjectId ∨ parent.subjectKind ≠ record.subjectKind then
        throw ⟨"cross-subject generation lineage is forbidden"⟩
      if parent.repositoryId ≠ record.repositoryId ∨ parent.target ≠ record.target then
        throw ⟨"generation repository or target binding changed"⟩
      if parent.requestId ≠ record.requestId ∨ parent.objectiveDigest ≠ record.objectiveDigest then
        throw ⟨"stale or substituted request in generation lineage"⟩
      if record.standardVersion < parent.standardVersion then
        throw ⟨"generation standard downgrade is forbidden"⟩
      return ()

/-- `register`: the lineage after it, the record, and whether it is new. -/
def register (record : GenerationRecord) :
    Except ContractViolation (GenerationLineage × GenerationRecord × Bool) :=
  match lineage.get? record.generationId with
  | some previous =>
    if previous.toDocument.toJson.dumps ≠ record.toDocument.toJson.dumps then
      throw ⟨"generation identity collision"⟩
    else .ok (lineage, previous, false)
  | none => do
    lineage.requireParent record
    match lineage.planSubjects.lookup record.planDigest with
    | some previousSubject =>
      if previousSubject ≠ record.subjectId then
        throw ⟨"flat plan fingerprint cannot be reused across subjects"⟩
    | none => pure ()
    return (⟨setItem record.generationId record lineage.records,
      setItem record.planDigest record.subjectId lineage.planSubjects⟩, record, true)

/-- A record whose parent is there already. -/
def IsReady (record : GenerationRecord) : Prop :=
  record.parentGenerationId = none ∨
    ∃ parentGenerationId ∈ record.parentGenerationId,
      parentGenerationId ∈ lineage.records.map Prod.fst

instance : DecidablePred lineage.IsReady := fun _ ↦ inferInstanceAs (Decidable (_ ∨ _))

/-- The registration of a record that is loaded. -/
def load (record : GenerationRecord) : Except ContractViolation GenerationLineage := do
  let (registered, _) ← lineage.register record
  return registered

/-- `GenerationLineage.__init__`. -/
def new (records : List GenerationRecord) : Except ContractViolation GenerationLineage :=
  Passes.load IsReady load ⟨"generation lineage has a cycle or missing parent"⟩ empty records

/-- `records`. -/
def values : List GenerationRecord := lineage.records.map Prod.snd

end GenerationLineage

/-! ## Documents tell records apart -/

omit [Hash256] in
theorem optionalText_inj {text text' : Option String} :
    Runtime.optionalText text = Runtime.optionalText text' ↔ text = text' := by
  rcases text with _ | text <;> rcases text' with _ | text' <;> simp [Runtime.optionalText]

omit [Hash256] in
theorem GenerationFields.members_toDocument (record : GenerationFields) :
    record.toDocument.members = [
      ("compiler_digest", .str record.compilerDigest),
      ("generation_id", .str record.generationId),
      ("node_mappings_digest", .str record.nodeMappingsDigest),
      ("objective_digest", .str record.objectiveDigest),
      ("parent_commit", Runtime.optionalText record.parentCommit),
      ("parent_generation_id", Runtime.optionalText record.parentGenerationId),
      ("parent_tree", Runtime.optionalText record.parentTree),
      ("plan_digest", .str record.planDigest),
      ("repository_id", Runtime.optionalText record.repositoryId),
      ("request_id", .str record.requestId),
      ("schema_version", .int record.schemaVersion),
      ("source_inventory_digest", .str record.sourceInventoryDigest),
      ("standard_digest", .str record.standardDigest),
      ("standard_version", .int record.standardVersion),
      ("subject_id", .str record.subjectId),
      ("subject_kind", .str record.subjectKind),
      ("target", .str record.target)] := by
  rfl

omit [Hash256] in
theorem GenerationFields.toDocument_inj {record record' : GenerationFields}
    (h : record.toDocument.members = record'.toDocument.members) : record = record' := by
  simp only [members_toDocument, List.cons.injEq, Prod.mk.injEq, Json.str.injEq, Json.int.injEq,
    optionalText_inj, true_and, and_true] at h
  cases record
  cases record'
  simp only [GenerationFields.mk.injEq]
  tauto

omit [Hash256] in
theorem GenerationFields.sorted_toDocument (record : GenerationFields) :
    record.toDocument.toJson.Sorted := by
  refine Json.Dict.sorted_set ⟨record.identityMaterial.ordered, ?_⟩ trivial
  refine Json.sortedMembers_iff.mpr fun member hmember ↦ ?_
  simp only [identityMaterial, List.mem_cons, List.not_mem_nil, or_false] at hmember
  rcases hmember with rfl | rfl | rfl | rfl | rfl | rfl | rfl | rfl | rfl | rfl | rfl | rfl | rfl |
    rfl | rfl | rfl
  all_goals first | exact sorted_optionalText _ | trivial

theorem GenerationRecord.eq_of_dumps {record record' : GenerationRecord}
    (h : record.toDocument.toJson.dumps = record'.toDocument.toJson.dumps) : record = record' := by
  have hjson := (Json.dumps_inj record.sorted_toDocument record'.sorted_toDocument).mp h
  have hfields := GenerationFields.toDocument_inj (Json.obj.inj hjson)
  rcases record with ⟨fields, hvalid⟩
  rcases record' with ⟨fields', hvalid'⟩
  obtain rfl := hfields
  rfl

/-! ## Sound records -/

/-- A record that may follow its parent. -/
structure Follows (parent record : GenerationRecord) : Prop where
  subjectId : parent.subjectId = record.subjectId
  subjectKind : parent.subjectKind = record.subjectKind
  repositoryId : parent.repositoryId = record.repositoryId
  target : parent.target = record.target
  requestId : parent.requestId = record.requestId
  objectiveDigest : parent.objectiveDigest = record.objectiveDigest
  standardVersion : parent.standardVersion ≤ record.standardVersion

theorem Follows.refl (record : GenerationRecord) : Follows record record :=
  ⟨rfl, rfl, rfl, rfl, rfl, rfl, le_rfl⟩

theorem Follows.trans {record record' record'' : GenerationRecord} (h : Follows record record')
    (h' : Follows record' record'') : Follows record record'' where
  subjectId := h.subjectId.trans h'.subjectId
  subjectKind := h.subjectKind.trans h'.subjectKind
  repositoryId := h.repositoryId.trans h'.repositoryId
  target := h.target.trans h'.target
  requestId := h.requestId.trans h'.requestId
  objectiveDigest := h.objectiveDigest.trans h'.objectiveDigest
  standardVersion := h.standardVersion.trans h'.standardVersion

section Sound

variable (records : List GenerationRecord)

/-- One record is the parent of another. -/
def IsParent (parent record : GenerationRecord) : Prop :=
  parent ∈ records ∧ record ∈ records ∧ record.parentGenerationId = some parent.generationId

/-- One record is at the other end of a chain of parents. -/
def IsAncestor : GenerationRecord → GenerationRecord → Prop :=
  Relation.ReflTransGen (IsParent records)

/-- Records of which every one has its parent, no chain of parents goes on for ever, a record
follows its parent, and no plan is that of two subjects. -/
structure Sound : Prop where
  unique : ∀ record ∈ records, ∀ record' ∈ records,
    record.generationId = record'.generationId → record = record'
  parent : ∀ record ∈ records, ∀ parentGenerationId,
    record.parentGenerationId = some parentGenerationId →
      ∃ parent ∈ records, parent.generationId = parentGenerationId
  grounded : WellFounded (IsParent records)
  follows : ∀ parent record, IsParent records parent record → Follows parent record
  plans : ∀ record ∈ records, ∀ record' ∈ records,
    record.planDigest = record'.planDigest → record.subjectId = record'.subjectId

variable {records} {record ancestor : GenerationRecord}

/-- Whatever is constant from parent to child is constant along a chain. -/
theorem Sound.follows_of_isAncestor (h : Sound records) (hancestor : IsAncestor records ancestor record) :
    Follows ancestor record := by
  induction hancestor with
  | refl => exact .refl _
  | tail _ hparent ih => exact ih.trans (h.follows _ _ hparent)

/-- Every chain of parents ends in a root. -/
theorem Sound.exists_root (h : Sound records) (hrecord : record ∈ records) :
    ∃ root ∈ records, root.parentGenerationId = none ∧ IsAncestor records root record := by
  induction record using h.grounded.induction with
  | _ record ih =>
    rcases hid : record.parentGenerationId with _ | parentGenerationId
    · exact ⟨record, hrecord, hid, .refl⟩
    · obtain ⟨parent, hparent, rfl⟩ := h.parent record hrecord _ hid
      obtain ⟨root, hroot, hnone, hancestor⟩ := ih parent ⟨hparent, hrecord, hid⟩ hparent
      exact ⟨root, hroot, hnone, hancestor.tail ⟨hparent, hrecord, hid⟩⟩

theorem Sound.of_mem_iff {records' : List GenerationRecord} (h : Sound records)
    (hmem : ∀ record, record ∈ records' ↔ record ∈ records) : Sound records' := by
  have hparent : IsParent records' = IsParent records := by
    funext parent record
    simp only [IsParent, hmem]
  constructor
  · simpa only [hmem] using h.unique
  · simpa only [hmem] using h.parent
  · rw [hparent]
    exact h.grounded
  · rw [hparent]
    exact h.follows
  · simpa only [hmem] using h.plans

end Sound

/-! ## What a lineage has taken -/

namespace GenerationLineage

variable {lineage lineage' : GenerationLineage} {record parent : GenerationRecord}

/-- What the registrations keep. -/
structure Registered (records : List GenerationRecord) (lineage : GenerationLineage) : Prop where
  nodup : (lineage.records.map Prod.fst).Nodup
  keyed : ∀ item ∈ lineage.records, item.1 = item.2.generationId
  given : ∀ record ∈ lineage.values, record ∈ records
  plans : ∀ planDigest subjectId, lineage.planSubjects.lookup planDigest = some subjectId ↔
    ∃ record ∈ lineage.values, record.planDigest = planDigest ∧ record.subjectId = subjectId
  sound : Sound lineage.values

theorem Registered.get?_eq_some {records : List GenerationRecord} (h : Registered records lineage)
    {generationId : String} : lineage.get? generationId = some record ↔
      record ∈ lineage.values ∧ record.generationId = generationId := by
  constructor
  · intro hget
    have hitem := mem_of_lookup hget
    exact ⟨List.mem_map_of_mem hitem, (h.keyed _ hitem).symm⟩
  · rintro ⟨hmem, rfl⟩
    obtain ⟨item, hitem, rfl⟩ := List.mem_map.mp hmem
    exact lookup_of_mem h.nodup (h.keyed item hitem ▸ hitem)

theorem Registered.get?_eq_none {records : List GenerationRecord} (h : Registered records lineage)
    {generationId : String} : lineage.get? generationId = none ↔
      ∀ record ∈ lineage.values, record.generationId ≠ generationId := by
  rw [Option.eq_none_iff_forall_ne_some]
  simp only [ne_eq, h.get?_eq_some, not_and]

/-- The check against the parent. -/
theorem requireParent_eq_ok {u : Unit} : lineage.requireParent record = .ok u ↔
    ∀ parentGenerationId, record.parentGenerationId = some parentGenerationId →
      ∃ parent, lineage.get? parentGenerationId = some parent ∧ Follows parent record := by
  rw [requireParent]
  rcases record.parentGenerationId with _ | parentGenerationId
  · exact iff_of_true rfl nofun
  · simp only [Option.some.injEq, forall_eq']
    rcases lineage.get? parentGenerationId with _ | parent
    · simp only [throw_eq_ok, reduceCtorEq, false_and, exists_false]
    · simp only [guard_eq_ok, pure_eq_ok, not_or, not_not, not_lt, Option.some.injEq,
        exists_eq_left']
      constructor
      · rintro ⟨⟨hsubjectId, hsubjectKind⟩, ⟨hrepository, htarget⟩, ⟨hrequest, hobjective⟩,
          hstandard, -⟩
        exact ⟨hsubjectId, hsubjectKind, hrepository, htarget, hrequest, hobjective, hstandard⟩
      · intro h
        exact ⟨⟨h.subjectId, h.subjectKind⟩, ⟨h.repositoryId, h.target⟩,
          ⟨h.requestId, h.objectiveDigest⟩, h.standardVersion, trivial⟩

/-- A registration finds the record, or adds one that may be added. -/
theorem Registered.load_eq_ok {records : List GenerationRecord}
    (h : Registered records lineage) : lineage.load record = .ok lineage' ↔
      (record ∈ lineage.values ∧ lineage' = lineage) ∨
      ((∀ other ∈ lineage.values, other.generationId ≠ record.generationId) ∧
        (∀ parentGenerationId, record.parentGenerationId = some parentGenerationId →
          ∃ parent, lineage.get? parentGenerationId = some parent ∧ Follows parent record) ∧
        (∀ other ∈ lineage.values, other.planDigest = record.planDigest →
          other.subjectId = record.subjectId) ∧
        lineage' = ⟨lineage.records ++ [(record.generationId, record)],
          setItem record.planDigest record.subjectId lineage.planSubjects⟩) := by
  rw [load, register]
  rcases hget : lineage.get? record.generationId with _ | previous
  · have hnew := h.get?_eq_none.mp hget
    have habsent : record ∉ lineage.values := fun hmem ↦ hnew record hmem rfl
    have hkey : record.generationId ∉ lineage.records.map Prod.fst := by
      intro hmem
      obtain ⟨item, hitem, hid⟩ := List.mem_map.mp hmem
      exact hnew item.2 (List.mem_map_of_mem hitem) ((h.keyed item hitem).symm.trans hid)
    have hplans : (∀ other ∈ lineage.values, other.planDigest = record.planDigest →
        other.subjectId = record.subjectId) ↔
          ∀ subjectId, lineage.planSubjects.lookup record.planDigest = some subjectId →
            subjectId = record.subjectId := by
      constructor
      · intro hsame subjectId hlookup
        obtain ⟨other, hother, hplan, rfl⟩ := (h.plans _ _).mp hlookup
        exact hsame other hother hplan
      · intro hsame other hother hplan
        exact hsame _ ((h.plans _ _).mpr ⟨other, hother, hplan, rfl⟩)
    rw [or_iff_right fun hfound ↦ habsent hfound.1, hplans, ← setItem_of_notMem hkey]
    rcases lineage.planSubjects.lookup record.planDigest with _ | previousSubject
    · simp only [bind_eq_ok, requireParent_eq_ok, pure_eq_ok]
      constructor
      · rintro ⟨_, ⟨_, hparent, rfl⟩, rfl⟩
        exact ⟨hnew, hparent, by rintro _ ⟨⟩, rfl⟩
      · rintro ⟨-, hparent, -, rfl⟩
        exact ⟨_, ⟨(), hparent, rfl⟩, rfl⟩
    · simp only [bind_eq_ok, requireParent_eq_ok, pure_eq_ok, guard_eq_ok, not_not,
        Option.some.injEq, forall_eq']
      constructor
      · rintro ⟨_, ⟨_, hparent, hsubject, rfl⟩, rfl⟩
        exact ⟨hnew, hparent, hsubject, rfl⟩
      · rintro ⟨-, hparent, hsubject, rfl⟩
        exact ⟨_, ⟨(), hparent, hsubject, rfl⟩, rfl⟩
  · obtain ⟨hprevious, hid⟩ := h.get?_eq_some.mp hget
    rw [or_iff_left fun hadded ↦ hadded.1 previous hprevious hid]
    by_cases hsame : previous = record
    · subst hsame
      simp only [ne_eq, not_true, if_false, ok_bind, pure_eq_ok, hprevious, true_and]
    · have hdumps : previous.toDocument.toJson.dumps ≠ record.toDocument.toJson.dumps :=
        fun hdumps ↦ hsame (GenerationRecord.eq_of_dumps hdumps)
      simp only [ne_eq, hdumps, not_false_iff, if_true]
      refine iff_of_false (by rintro ⟨⟩) fun hfound ↦ ?_
      exact hsame (h.sound.unique _ hprevious _ hfound.1 hid)

/-! ## The step of a registration -/

section Step

variable {records : List GenerationRecord} (h : Registered records lineage)
  (hnew : ∀ other ∈ lineage.values, other.generationId ≠ record.generationId)
  (hparent : ∀ parentGenerationId, record.parentGenerationId = some parentGenerationId →
    ∃ parent, lineage.get? parentGenerationId = some parent ∧ Follows parent record)

include h hnew hparent

/-- A record that is added is the parent of none. -/
theorem isParent_concat {child : GenerationRecord}
    (hchild : IsParent (lineage.values ++ [record]) parent child) :
    parent ∈ lineage.values ∧ (IsParent lineage.values parent child ∨
      child = record ∧ Follows parent record) := by
  obtain ⟨hmem, hmem', hid⟩ := hchild
  -- The parent has the id of a record that was there, and so it is that record.
  have hthere : ∀ found ∈ lineage.values, found.generationId = parent.generationId →
      found = parent := by
    intro found hfound hsame
    rcases List.mem_append.mp hmem with hold | hlast
    · exact h.sound.unique _ hfound _ hold hsame
    · rw [List.mem_singleton.mp hlast] at hsame
      exact absurd hsame (hnew found hfound)
  rcases List.mem_append.mp hmem' with hold | hlast
  · obtain ⟨found, hfound, hsame⟩ := h.sound.parent child hold _ hid
    obtain rfl := hthere found hfound hsame
    exact ⟨hfound, .inl ⟨hfound, hold, hid⟩⟩
  · obtain rfl := List.mem_singleton.mp hlast
    obtain ⟨found, hget, hfollows⟩ := hparent _ hid
    obtain ⟨hfound, hsame⟩ := h.get?_eq_some.mp hget
    obtain rfl := hthere found hfound hsame
    exact ⟨hfound, .inr ⟨rfl, hfollows⟩⟩

theorem sound_concat (hplans : ∀ other ∈ lineage.values, other.planDigest = record.planDigest →
    other.subjectId = record.subjectId) : Sound (lineage.values ++ [record]) where
  unique first hfirst second hsecond hsame := by
    rcases List.mem_append.mp hfirst with hfirst | hfirst <;>
      rcases List.mem_append.mp hsecond with hsecond | hsecond
    · exact h.sound.unique first hfirst second hsecond hsame
    · rw [List.mem_singleton.mp hsecond] at hsame
      exact absurd hsame (hnew first hfirst)
    · rw [List.mem_singleton.mp hfirst] at hsame
      exact absurd hsame.symm (hnew second hsecond)
    · rw [List.mem_singleton.mp hfirst, List.mem_singleton.mp hsecond]
  parent child hchild id hid := by
    rcases List.mem_append.mp hchild with hchild | hchild
    · obtain ⟨found, hfound, hsame⟩ := h.sound.parent child hchild id hid
      exact ⟨found, List.mem_append_left _ hfound, hsame⟩
    · rw [List.mem_singleton.mp hchild] at hid
      obtain ⟨found, hget, -⟩ := hparent id hid
      obtain ⟨hfound, hsame⟩ := h.get?_eq_some.mp hget
      exact ⟨found, List.mem_append_left _ hfound, hsame⟩
  grounded := by
    have hold : ∀ child ∈ lineage.values, Acc (IsParent (lineage.values ++ [record])) child := by
      intro child
      induction child using h.sound.grounded.induction with
      | _ child ih =>
        intro hchild
        refine ⟨child, fun parent hisParent ↦ ?_⟩
        obtain ⟨hmem, hisOld | ⟨rfl, -⟩⟩ := isParent_concat h hnew hparent hisParent
        · exact ih parent hisOld hmem
        · exact absurd rfl (hnew child hchild)
    refine ⟨fun child ↦ ⟨child, fun parent hisParent ↦ ?_⟩⟩
    exact hold parent (isParent_concat h hnew hparent hisParent).1
  follows parent child hisParent := by
    obtain ⟨-, hisOld | ⟨rfl, hfollows⟩⟩ := isParent_concat h hnew hparent hisParent
    · exact h.sound.follows parent child hisOld
    · exact hfollows
  plans first hfirst second hsecond hsame := by
    rcases List.mem_append.mp hfirst with hfirst | hfirst <;>
      rcases List.mem_append.mp hsecond with hsecond | hsecond
    · exact h.sound.plans first hfirst second hsecond hsame
    · rw [List.mem_singleton.mp hsecond] at hsame ⊢
      exact hplans first hfirst hsame
    · rw [List.mem_singleton.mp hfirst] at hsame ⊢
      exact (hplans second hsecond hsame.symm).symm
    · rw [List.mem_singleton.mp hfirst, List.mem_singleton.mp hsecond]

end Step

/-- **A registration keeps a lineage sound**, and what is in it. -/
theorem grows (records : List GenerationRecord) :
    Passes.Grows IsReady load records (Registered records) fun lineage record ↦
      record ∈ lineage.values where
  next {lineage lineage' record} h hrecord _ hload := by
    rcases h.load_eq_ok.mp hload with ⟨hfound, rfl⟩ | ⟨hnew, hparent, hplans, rfl⟩
    · exact ⟨h, hfound, fun _ ↦ id⟩
    · have hvalues : values ⟨lineage.records ++ [(record.generationId, record)],
          setItem record.planDigest record.subjectId lineage.planSubjects⟩ =
            lineage.values ++ [record] := by
        rw [values, List.map_append, List.map_singleton, values]
      have hkey : record.generationId ∉ lineage.records.map Prod.fst := by
        intro hmem
        obtain ⟨item, hitem, hid⟩ := List.mem_map.mp hmem
        exact hnew item.2 (List.mem_map_of_mem hitem) ((h.keyed item hitem).symm.trans hid)
      rw [hvalues]
      refine ⟨⟨?_, ?_, ?_, ?_, ?_⟩, List.mem_append_right _ List.mem_cons_self,
        fun _ ↦ List.mem_append_left _⟩
      · rw [List.map_append, List.map_singleton,
          (List.perm_append_singleton _ _).nodup_iff, List.nodup_cons]
        exact ⟨hkey, h.nodup⟩
      · exact List.forall_mem_append.mpr ⟨h.keyed, List.forall_mem_singleton.mpr rfl⟩
      · rw [hvalues]
        exact List.forall_mem_append.mpr ⟨h.given, List.forall_mem_singleton.mpr hrecord⟩
      · intro planDigest subjectId
        simp only [lookup_setItem, hvalues, List.mem_append, List.mem_singleton]
        split
        · next hsame =>
          subst hsame
          constructor
          · intro hsubject
            exact ⟨record, .inr rfl, rfl, Option.some.inj hsubject⟩
          · rintro ⟨other, hother | rfl, hplan, rfl⟩
            · rw [hplans other hother hplan]
            · rfl
        · next hne =>
          rw [h.plans]
          constructor
          · rintro ⟨other, hother, hplan, hsubject⟩
            exact ⟨other, .inl hother, hplan, hsubject⟩
          · rintro ⟨other, hother | rfl, hplan, hsubject⟩
            · exact ⟨other, hother, hplan, hsubject⟩
            · exact absurd hplan.symm hne
      · rw [hvalues]
        exact sound_concat h hnew hparent hplans

theorem sound_nil : Sound [] where
  unique _ h := absurd h List.not_mem_nil
  parent _ h := absurd h List.not_mem_nil
  grounded := ⟨fun record ↦ ⟨record, fun _ h ↦ absurd h.1 List.not_mem_nil⟩⟩
  follows _ _ h := absurd h.1 List.not_mem_nil
  plans _ h := absurd h List.not_mem_nil

theorem registered_empty (records : List GenerationRecord) : Registered records empty where
  nodup := List.nodup_nil
  keyed _ h := absurd h List.not_mem_nil
  given _ h := absurd h List.not_mem_nil
  plans _ _ := ⟨fun h ↦ (nomatch h), fun ⟨_, h, _⟩ ↦ absurd h List.not_mem_nil⟩
  sound := sound_nil

/-! ## Loading -/

variable {records : List GenerationRecord}

/-- What an accepted lineage has. -/
theorem registered_of_new (h : new records = .ok lineage) :
    Registered records lineage ∧ ∀ record, record ∈ lineage.values ↔ record ∈ records := by
  obtain ⟨hregistered, htaken, -⟩ := Passes.load_spec (grows records) (List.Subset.refl _)
    (registered_empty records) h
  exact ⟨hregistered, fun record ↦ ⟨hregistered.given record, htaken record⟩⟩

/-- A sound record that is ready is taken. -/
theorem exists_load_of_sound (hsound : Sound records) (h : Registered records lineage)
    (hrecord : record ∈ records) (hready : lineage.IsReady record) :
    ∃ lineage', lineage.load record = .ok lineage' := by
  by_cases hfound : record ∈ lineage.values
  · exact ⟨lineage, h.load_eq_ok.mpr (.inl ⟨hfound, rfl⟩)⟩
  · refine ⟨_, h.load_eq_ok.mpr (.inr ⟨fun other hother hid ↦ ?_, fun id hid ↦ ?_,
      fun other hother ↦ hsound.plans _ (h.given other hother) _ hrecord, rfl⟩)⟩
    · exact hfound (hsound.unique _ (h.given other hother) _ hrecord hid ▸ hother)
    · rcases hready with hnone | ⟨id', hid', hmem⟩
      · exact nomatch hnone.symm.trans hid
      · obtain rfl : id' = id := Option.some.inj (hid'.symm.trans hid)
        obtain ⟨item, hitem, rfl⟩ := List.mem_map.mp hmem
        have hvalue : item.2 ∈ lineage.values := List.mem_map_of_mem hitem
        have hkeyed := h.keyed item hitem
        exact ⟨item.2, h.get?_eq_some.mpr ⟨hvalue, hkeyed.symm⟩,
          hsound.follows _ _ ⟨h.given _ hvalue, hrecord, hkeyed ▸ hid⟩⟩

/-- Among sound records that are left, the parent of one is there or is left too, and a chain of
parents that are left ends. -/
theorem exists_ready_of_sound (hsound : Sound records) (h : Registered records lineage)
    {pending : List GenerationRecord} (hpending : pending ⊆ records)
    (htaken : ∀ record ∈ records, record ∈ pending ∨ record ∈ lineage.values)
    (hrecord : record ∈ pending) : ∃ record ∈ pending, lineage.IsReady record := by
  induction record using hsound.grounded.induction with
  | _ record ih =>
    rcases hid : record.parentGenerationId with _ | parentGenerationId
    · exact ⟨record, hrecord, .inl hid⟩
    · obtain ⟨parent, hparent, rfl⟩ := hsound.parent record (hpending hrecord) _ hid
      rcases htaken parent hparent with hleft | hthere
      · exact ih parent ⟨hparent, hpending hrecord, hid⟩ hleft
      · refine ⟨record, hrecord, .inr ⟨_, hid, ?_⟩⟩
        obtain ⟨item, hitem, rfl⟩ := List.mem_map.mp hthere
        exact h.keyed item hitem ▸ List.mem_map_of_mem hitem

/-- **A lineage accepts the records that are sound.** -/
theorem new_isOk_iff : (∃ lineage, new records = .ok lineage) ↔ Sound records := by
  constructor
  · rintro ⟨lineage, hnew⟩
    obtain ⟨hregistered, hmem⟩ := registered_of_new hnew
    exact hregistered.sound.of_mem_iff fun record ↦ (hmem record).symm
  · intro hsound
    refine Passes.exists_load (grows records) (registered_empty records)
      (fun lineage record h hrecord hready ↦ exists_load_of_sound hsound h hrecord hready)
      (fun lineage pending h hne hpending htaken ↦ ?_) (List.Subset.refl _) fun _ ↦ .inl
    obtain ⟨record, hrecord⟩ := List.exists_mem_of_ne_nil _ hne
    exact exists_ready_of_sound hsound h hpending htaken hrecord

end GenerationLineage

/-- What a lineage promises of its records. -/
structure BoundChains (records : List GenerationRecord) : Prop where
  root : ∀ record ∈ records, ∃ root ∈ records, root.parentGenerationId = none ∧
    IsAncestor records root record
  ends : WellFounded (IsParent records)
  follows : ∀ ancestor record, IsAncestor records ancestor record → Follows ancestor record
  plans : ∀ record ∈ records, ∀ record' ∈ records,
    record.planDigest = record'.planDigest → record.subjectId = record'.subjectId

/-- **The chains of an accepted lineage are bound**, and neither whether the records are accepted nor
what the lineage has then depends on their order. -/
theorem generations_sound (records : List GenerationRecord) :
    (∀ lineage, GenerationLineage.new records = .ok lineage →
      BoundChains lineage.values ∧ lineage.values.Nodup ∧
        ∀ record, record ∈ lineage.values ↔ record ∈ records) ∧
    ∀ records', records'.Perm records →
      ((∃ lineage, GenerationLineage.new records' = .ok lineage) ↔
        ∃ lineage, GenerationLineage.new records = .ok lineage) ∧
      ∀ lineage lineage', GenerationLineage.new records = .ok lineage →
        GenerationLineage.new records' = .ok lineage' → lineage'.values.Perm lineage.values := by
  have hnodup : ∀ {records lineage}, GenerationLineage.new records = .ok lineage →
      lineage.values.Nodup := by
    intro records lineage hnew
    obtain ⟨hregistered, -⟩ := GenerationLineage.registered_of_new hnew
    refine (List.Nodup.of_map (·.generationId) ?_)
    rw [GenerationLineage.values, List.map_map]
    exact List.map_congr_left (fun item hitem ↦ hregistered.keyed item hitem) ▸ hregistered.nodup
  refine ⟨fun lineage hnew ↦ ?_, fun records' hperm ↦ ⟨?_, fun lineage lineage' hnew hnew' ↦ ?_⟩⟩
  · obtain ⟨hregistered, hmem⟩ := GenerationLineage.registered_of_new hnew
    have hsound := hregistered.sound
    exact ⟨⟨fun record ↦ hsound.exists_root, hsound.grounded,
      fun _ _ ↦ hsound.follows_of_isAncestor, hsound.plans⟩, hnodup hnew, hmem⟩
  · rw [GenerationLineage.new_isOk_iff, GenerationLineage.new_isOk_iff]
    exact ⟨fun h ↦ h.of_mem_iff fun _ ↦ hperm.symm.mem_iff,
      fun h ↦ h.of_mem_iff fun _ ↦ hperm.mem_iff⟩
  · refine (List.perm_ext_iff_of_nodup (hnodup hnew') (hnodup hnew)).mpr fun record ↦ ?_
    rw [(GenerationLineage.registered_of_new hnew').2, (GenerationLineage.registered_of_new hnew).2,
      hperm.mem_iff]

theorem sound_root {record : GenerationRecord} (hroot : record.parentGenerationId = none) :
    Sound [record] where
  unique first hfirst second hsecond _ := by
    rw [List.mem_singleton.mp hfirst, List.mem_singleton.mp hsecond]
  parent child hchild id hid := by
    rw [List.mem_singleton.mp hchild, hroot] at hid
    exact nomatch hid
  grounded := by
    refine ⟨fun child ↦ ⟨child, fun parent hparent ↦ ?_⟩⟩
    obtain ⟨-, hchild, hid⟩ := hparent
    rw [List.mem_singleton.mp hchild, hroot] at hid
    exact nomatch hid
  follows parent child hparent := by
    obtain ⟨-, hchild, hid⟩ := hparent
    rw [List.mem_singleton.mp hchild, hroot] at hid
    exact nomatch hid
  plans first hfirst second hsecond _ := by
    rw [List.mem_singleton.mp hfirst, List.mem_singleton.mp hsecond]

end Generations

/-! ## A sample -/

/-- `record()` of the tests, before it has its id. -/
def sampleFields : GenerationFields where
  schemaVersion := 1
  generationId := ""
  requestId := digestOf '1'
  objectiveDigest := digestOf '1'
  repositoryId := none
  subjectId := digestOf '1'
  subjectKind := "idea"
  target := "plan"
  parentGenerationId := none
  parentCommit := none
  parentTree := none
  nodeMappingsDigest := digestOf '2'
  sourceInventoryDigest := digestOf '2'
  standardVersion := 2
  standardDigest := digestOf '2'
  compilerDigest := digestOf '2'
  planDigest := digestOf '2'

theorem materialProblem?_sample : sampleFields.materialProblem? = none := by
  have hone : requireDigest (digestOf '1') = fun _ ↦ none := requireDigest_digestOf (by decide)
  have htwo : requireDigest (digestOf '2') = fun _ ↦ none := requireDigest_digestOf (by decide)
  simp only [GenerationFields.materialProblem?, GenerationFields.requireDigests, sampleFields,
    GenerationFields.optionally, hone, htwo]
  decide

def rootSample : GenerationRecord := .create sampleFields materialProblem?_sample

theorem sample_lineage : ∃ lineage, GenerationLineage.new [rootSample, rootSample] = .ok lineage ∧
    BoundChains lineage.values ∧ lineage.values.Nodup := by
  have hsound : Sound [rootSample, rootSample] :=
    (@sound_root _ rootSample rfl).of_mem_iff fun record ↦ by simp
  obtain ⟨lineage, hnew⟩ := GenerationLineage.new_isOk_iff.mpr hsound
  obtain ⟨hbound, hnodup, -⟩ := (generations_sound [rootSample, rootSample]).1 lineage hnew
  exact ⟨lineage, hnew, hbound, hnodup⟩

end HiveMind.Lineage
