import HiveMind.Kernel.Objectives
import HiveMind.Lib.FirstFit
import HiveMind.Runtime.NodeContracts

/-!
# Dispatch rounds of a portable plan

A plan is compiled to rounds of nodes that may run at the same time. Nodes are ordered by their
level, which is above the levels of what they depend on, and the nodes of one level are spread over
rounds, each into the first that has room. A round has room for a node if it has a worker and the
resources for it and no node that would touch the same.

* **`rounds_sound`**: every node is in one round, after what it depends on, and no round asks for
  more than there is.
* **`compileRounds_of_perm`**: the order of the nodes in the plan does not matter.
-/

open Raise Dependencies FirstFit Dicts
open HiveMind.Runtime (ContractViolation requireIdentifier? uniqueStrings? portablePath)

namespace HiveMind.Portable

/-! ## Plans -/

structure WorkPackageFields where
  semanticLocks : List String
  writePaths : List String
  deriving DecidableEq

/-- Lists of a work package are required. -/
def requiredStrings? (values : List String) (label : String) : Option String :=
  if values = [] ∨ "" ∈ values ∨ ¬values.Nodup then
    some (label ++ " must be unique non-empty strings")
  else none

/-- The check of one path. -/
def writePath? (path : String) : Option String :=
  match portablePath path with
  | .error e => some e.message
  | .ok normalized =>
    if normalized ≠ path then some "work-package write path is not normalized" else none

/-- What `PortableWorkPackageContract.__post_init__` raises about these fields. -/
def WorkPackageFields.problem? (package : WorkPackageFields) : Option String :=
  requiredStrings? package.semanticLocks "work-package semantic_locks" <|>
  requiredStrings? package.writePaths "work-package write_paths" <|>
  package.semanticLocks.findSome? (requireIdentifier? · "work-package semantic lock") <|>
  package.writePaths.findSome? writePath?

/-- `PortableWorkPackageContract`, of which these are the fields that the compiler reads. -/
structure WorkPackage extends WorkPackageFields where
  valid : toWorkPackageFields.problem? = none
  deriving DecidableEq

structure NodeFields where
  nodeId : String
  dependencies : List String
  resourceIds : List String
  budgetId : String
  workPackage : Option WorkPackage
  deriving DecidableEq

/-- What `PortableNode.__post_init__` raises about these fields. -/
def NodeFields.problem? (node : NodeFields) : Option String :=
  requireIdentifier? node.nodeId "node_id" <|>
  strings? node.dependencies "dependencies" <|>
  strings? node.resourceIds "resource_ids" <|>
  (if node.nodeId ∈ node.dependencies then some "portable node cannot depend on itself"
    else none) <|>
  requireIdentifier? node.budgetId "node budget_id"
where
  strings? (values : List String) (label : String) : Option String :=
    if "" ∈ values then some (label ++ " must contain strings")
    else if ¬values.Nodup then some (label ++ " contains duplicates")
    else none

/-- `PortableNode`, of which these are the fields that the compiler reads. -/
structure PortableNode extends NodeFields where
  valid : toNodeFields.problem? = none
  deriving DecidableEq

/-- `ResourceRequirement`. -/
structure Resource where
  resourceId : String
  quantity : ℤ
  identifier : requireIdentifier? resourceId "resource_id" = none
  nonnegative : 0 ≤ quantity
  deriving DecidableEq

/-- `BudgetAllocation`, with the workers of its policy. -/
structure BudgetAllocation where
  budgetId : String
  concurrentWorkers : ℤ
  identifier : requireIdentifier? budgetId "budget_id" = none
  nonnegative : 0 ≤ concurrentWorkers
  deriving DecidableEq

/-- What the compiler reads of a plan. -/
structure PlanFields where
  schemaVersion : ℤ
  resources : List Resource
  budgets : List BudgetAllocation
  nodes : List PortableNode
  deriving DecidableEq

section Plans

variable (nodes : List PortableNode)

/-- `by_id[node_id]`, for the identifier of a node. -/
def node? (nodeId : String) : Option PortableNode := nodes.find? (·.nodeId == nodeId)

def dependenciesOf (nodeId : String) : List String :=
  ((node? nodes nodeId).map (·.dependencies)).getD []

/-- `_validate_acyclic`. A way without a circle has no more nodes than there are. -/
def validateAcyclic : Except ContractViolation (List String) :=
  (nodes.map (·.nodeId)).foldlM (settle (dependenciesOf nodes)
    ⟨"portable plan dependency graph contains a cycle"⟩ (nodes.length + 1) []) []

end Plans

/-- The checks of `__post_init__` that a node is part of. -/
def PlanFields.checkNode (plan : PlanFields) (node : PortableNode) :
    Except ContractViolation Unit := do
  if plan.schemaVersion = 1 ∧ node.workPackage ≠ none then
    throw ⟨"portable-plan v1 cannot carry work-package contracts"⟩
  if plan.schemaVersion = 2 ∧ node.workPackage = none then
    throw ⟨"portable-plan v2 requires every node work-package contract"⟩
  if ¬node.resourceIds ⊆ plan.resources.map (·.resourceId) then
    throw ⟨"node " ++ node.nodeId ++ " refers to an unknown resource"⟩
  if node.budgetId ∉ plan.budgets.map (·.budgetId) then
    throw ⟨"node " ++ node.nodeId ++ " refers to unknown authority or budget"⟩
  if ¬node.dependencies ⊆ plan.nodes.map (·.nodeId) then
    throw ⟨"node " ++ node.nodeId ++ " has an unknown dependency"⟩

/-- What `PortablePlanBundle.__post_init__` checks of these fields. -/
def PlanFields.validate (plan : PlanFields) : Except ContractViolation Unit := do
  if plan.schemaVersion ≠ 1 ∧ plan.schemaVersion ≠ 2 then
    throw ⟨"unsupported portable-plan schema version"⟩
  if ¬(plan.resources.map (·.resourceId)).Nodup then
    throw ⟨"portable plan resources contain duplicate ids"⟩
  if ¬(plan.budgets.map (·.budgetId)).Nodup then
    throw ⟨"portable plan budgets contain duplicate ids"⟩
  if ¬(plan.nodes.map (·.nodeId)).Nodup then
    throw ⟨"portable plan nodes contain duplicate ids"⟩
  if plan.nodes = [] then
    throw ⟨"portable plan requires at least one node"⟩
  forM plan.nodes plan.checkNode
  let _ ← validateAcyclic plan.nodes

/-- `PortablePlanBundle`. -/
structure PortablePlanBundle extends PlanFields where
  valid : toPlanFields.validate = .ok ()

/-! ## Conflicts -/

/-- `_paths_overlap`. -/
def pathsOverlap (left right : String) : Bool :=
  let leftParts := segments left
  let rightParts := segments right
  let common := min leftParts.length rightParts.length
  leftParts.take common == rightParts.take common

/-- `_nodes_conflict`. -/
def nodesConflict (left right : PortableNode) : Bool :=
  match left.workPackage, right.workPackage with
  | some left, some right =>
    left.semanticLocks.any (right.semanticLocks.contains ·) ||
      left.writePaths.any fun leftPath ↦ right.writePaths.any fun rightPath ↦
        pathsOverlap leftPath rightPath
  | _, _ => false

/-! ## Rounds -/

/-- `_dependency_levels`. No level takes more calls than there are nodes. -/
def dependencyLevels (nodes : List PortableNode) : List (String × ℕ) :=
  ((nodes.map (·.nodeId)).insertionSort (· ≤ ·)).foldl
    (level (dependenciesOf nodes) nodes.length) []

/-- `_worker_limit`. -/
def workerLimit (plan : PortablePlanBundle) (requested : Option ℤ) :
    Except ContractViolation ℤ := do
  let declared : List ℤ := plan.nodes.filterMap fun node ↦
    (plan.budgets.find? (·.budgetId == node.budgetId)).map (·.concurrentWorkers)
  match declared.min? with
  | none => throw ⟨"every scheduled node requires a positive worker allowance"⟩
  | some limit =>
    if limit < 1 then
      throw ⟨"every scheduled node requires a positive worker allowance"⟩
    match requested with
    | none => return limit
    | some requested =>
      if requested < 1 then
        throw ⟨"maximum_workers must be a positive integer"⟩
      return min limit requested

/-- `DispatchRound`. -/
structure DispatchRound where
  roundIndex : ℕ
  dependencyLevel : ℕ
  nodeIds : List String
  resourceUsage : List (String × ℕ)
  deriving DecidableEq

/-- A batch and its usage. -/
structure Batch where
  members : List PortableNode
  usage : List (String × ℕ)

section Compile

variable (plan : PlanFields) (maximumWorkers : ℤ)

/-- `capacities[resource_id]`, for the identifier of a resource. -/
def capacityOf (resourceId : String) : ℤ :=
  ((plan.resources.find? (·.resourceId == resourceId)).map (·.quantity)).getD 0

/-- The tests of a batch for a node. -/
def fits (node : PortableNode) (batch : Batch) : Bool :=
  (batch.members.length : ℤ) < maximumWorkers && !batch.members.any (nodesConflict node) &&
    !node.resourceIds.any fun resourceId ↦
      capacityOf plan resourceId < (batch.usage.lookup resourceId).getD 0 + 1

def addNode (node : PortableNode) (batch : Batch) : Batch where
  members := batch.members ++ [node]
  usage := node.resourceIds.foldl
    (fun usage resourceId ↦ setItem resourceId ((usage.lookup resourceId).getD 0 + 1) usage)
    batch.usage

def newBatch (node : PortableNode) : Batch := ⟨[node], node.resourceIds.map fun id ↦ (id, 1)⟩

/-- The round of the loop over the members of a level. -/
def placeNode (batches : List Batch) (node : PortableNode) :
    Except ContractViolation (List Batch) := do
  if node.resourceIds.any fun resourceId ↦ capacityOf plan resourceId < 1 then
    throw ⟨"node " ++ node.nodeId ++ " requires an unavailable resource"⟩
  return place (fits plan maximumWorkers) addNode newBatch node batches

/-- The nodes of a level, by their identifiers. -/
def membersOf (levels : List (String × ℕ)) (dependencyLevel : ℕ) : List PortableNode :=
  (((levels.filter (·.2 = dependencyLevel)).map Prod.fst).insertionSort (· ≤ ·)).filterMap
    (node? plan.nodes)

def Batch.round (roundIndex dependencyLevel : ℕ) (batch : Batch) : DispatchRound :=
  ⟨roundIndex, dependencyLevel, batch.members.map (·.nodeId), Rows.orderBy Prod.fst batch.usage⟩

/-- The round of the loop over the levels. -/
def compileLevel (levels : List (String × ℕ)) (result : List DispatchRound)
    (dependencyLevel : ℕ) : Except ContractViolation (List DispatchRound) := do
  let batches ← (membersOf plan levels dependencyLevel).foldlM (placeNode plan maximumWorkers) []
  return batches.foldl
    (fun result batch ↦ result ++ [batch.round result.length dependencyLevel]) result

/-- `_compile_rounds`. -/
def compileRounds : Except ContractViolation (List DispatchRound) :=
  let levels := dependencyLevels plan.nodes
  (List.range ((levels.map fun p ↦ p.2 + 1).foldr max 0)).foldlM
    (compileLevel plan maximumWorkers levels) []

end Compile

/-- The caller asks for one worker at least. -/
theorem one_le_workerLimit {plan : PortablePlanBundle} {requested : Option ℤ} {limit : ℤ}
    (h : workerLimit plan requested = .ok limit) : 1 ≤ limit := by
  rw [workerLimit] at h
  split at h
  · exact nomatch h
  · rw [guard_eq_ok] at h
    obtain ⟨hdeclared, h⟩ := h
    rcases requested with _ | requested
    · obtain rfl := pure_eq_ok.mp h
      exact not_lt.mp hdeclared
    · rw [guard_eq_ok] at h
      obtain ⟨hrequested, h⟩ := h
      obtain rfl := pure_eq_ok.mp h
      exact le_min (not_lt.mp hdeclared) (not_lt.mp hrequested)

/-! ## What a plan promises -/

section Valid

variable {plan : PlanFields}

/-- What the checks of a plan establish. -/
structure ValidPlan (plan : PlanFields) : Prop where
  resourceIds : (plan.resources.map (·.resourceId)).Nodup
  nodup : (plan.nodes.map (·.nodeId)).Nodup
  resources : ∀ node ∈ plan.nodes, node.resourceIds ⊆ plan.resources.map (·.resourceId)
  closed : ∀ node ∈ plan.nodes, node.dependencies ⊆ plan.nodes.map (·.nodeId)
  settled : ∃ points, validateAcyclic plan.nodes = .ok points

theorem validPlan_of_validate (h : plan.validate = .ok ()) : ValidPlan plan := by
  simp only [PlanFields.validate, guard_eq_ok, bind_eq_ok, not_not] at h
  obtain ⟨-, hresources, -, hnodup, -, _, hnodes, points, hacyclic, -⟩ := h
  have hcheck : ∀ node ∈ plan.nodes, node.resourceIds ⊆ plan.resources.map (·.resourceId) ∧
      node.dependencies ⊆ plan.nodes.map (·.nodeId) := by
    intro node hnode
    have hnode := forM_eq_ok.mp hnodes node hnode
    simp only [PlanFields.checkNode, guard_eq_ok, check_eq_ok, not_not] at hnode
    exact ⟨hnode.2.2.1, hnode.2.2.2.2⟩
  exact ⟨hresources, hnodup, fun node hnode ↦ (hcheck node hnode).1,
    fun node hnode ↦ (hcheck node hnode).2, points, hacyclic⟩

theorem node?_eq (h : ValidPlan plan) {node : PortableNode} (hnode : node ∈ plan.nodes) :
    node? plan.nodes node.nodeId = some node := Rows.Unique.find?_eq h.nodup hnode

theorem mem_of_node? {nodes : List PortableNode} {nodeId : String} {node : PortableNode}
    (h : node? nodes nodeId = some node) : node ∈ nodes ∧ node.nodeId = nodeId :=
  ⟨List.mem_of_find?_eq_some h, by simpa using List.find?_some h⟩

theorem dependenciesOf_eq (h : ValidPlan plan) {node : PortableNode} (hnode : node ∈ plan.nodes) :
    dependenciesOf plan.nodes node.nodeId = node.dependencies := by
  rw [dependenciesOf, node?_eq h hnode]
  rfl

theorem dependenciesOf_subset (h : ValidPlan plan) (nodeId : String) :
    dependenciesOf plan.nodes nodeId ⊆ plan.nodes.map (·.nodeId) := by
  rw [dependenciesOf]
  rcases hnode : node? plan.nodes nodeId with _ | node
  · exact List.nil_subset _
  · exact h.closed node (mem_of_node? hnode).1

theorem dependenciesOf_of_notMem {nodeId : String} (h : nodeId ∉ plan.nodes.map (·.nodeId)) :
    dependenciesOf plan.nodes nodeId = [] := by
  rw [dependenciesOf]
  rcases hnode : node? plan.nodes nodeId with _ | node
  · rfl
  · obtain ⟨hmem, rfl⟩ := mem_of_node? hnode
    exact absurd (List.mem_map_of_mem hmem) h

/-- **A plan is accepted when its dependencies have no circle**, as far as they are concerned. -/
theorem validateAcyclic_iff (hclosed : ∀ nodeId, dependenciesOf plan.nodes nodeId ⊆
      plan.nodes.map (·.nodeId)) :
    (∃ points, validateAcyclic plan.nodes = .ok points) ↔ Acyclic (dependenciesOf plan.nodes) := by
  constructor
  · rintro ⟨points, hpoints⟩
    obtain ⟨hsettled, hall, -⟩ := settled_of_foldlM hpoints
    exact hsettled.acyclic fun nodeId hnot ↦ dependenciesOf_of_notMem fun hmem ↦ hnot (hall hmem)
  · intro hacyclic
    refine exists_foldlM (fun permanent nodeId hid ↦ ?_) []
    refine exists_settle hacyclic (fun id _ ↦ hclosed id) permanent hid (List.nil_subset _)
      nofun List.nodup_nil ?_
    rw [List.length_map, List.length_nil]
    omega

/-- The levels of a plan: every node has one, and it is above those of what the node depends on. -/
theorem levelled_dependencyLevels (h : ValidPlan plan) :
    Levelled (dependenciesOf plan.nodes) (dependencyLevels plan.nodes) ∧
      ∀ nodeId, ((dependencyLevels plan.nodes).lookup nodeId).isSome ↔
        nodeId ∈ plan.nodes.map (·.nodeId) := by
  obtain ⟨points, hpoints⟩ := h.settled
  obtain ⟨hsettled, hall, honly⟩ := settled_of_foldlM hpoints
  have honly := honly fun nodeId _ ↦ dependenciesOf_subset h nodeId
  have hlength : points.length ≤ plan.nodes.length := by
    rw [← List.length_map (f := fun node : PortableNode ↦ node.nodeId)]
    exact (List.subperm_of_subset hsettled.nodup honly).length_le
  have hsub : (plan.nodes.map (·.nodeId)).insertionSort (· ≤ ·) ⊆ points := fun id hid ↦
    hall ((List.mem_insertionSort _).mp hid)
  obtain ⟨hlevelled, hfound, hlevels⟩ := levelled_foldl hsettled hlength hsub
  refine ⟨hlevelled, fun nodeId ↦ ⟨fun hid ↦ honly (hfound nodeId hid), fun hid ↦ ?_⟩⟩
  exact hlevels nodeId ((List.mem_insertionSort _).mpr hid)

end Valid

/-! ## Conflicts by what is touched -/

section Conflicts

theorem pathsOverlap_iff {left right : String} : pathsOverlap left right = true ↔
    segments left <+: segments right ∨ segments right <+: segments left := by
  rw [pathsOverlap, beq_iff_eq]
  rcases le_total (segments left).length (segments right).length with hle | hle
  · rw [min_eq_left hle, List.take_length]
    refine ⟨fun h ↦ .inl (List.prefix_iff_eq_take.mpr h), ?_⟩
    rintro (h | h)
    · exact List.prefix_iff_eq_take.mp h
    · rw [h.eq_of_length (le_antisymm h.length_le hle), List.take_length]
  · rw [min_eq_right hle, List.take_length]
    refine ⟨fun h ↦ .inr (List.prefix_iff_eq_take.mpr h.symm), ?_⟩
    rintro (h | h)
    · rw [h.eq_of_length (le_antisymm h.length_le hle), List.take_length]
    · exact (List.prefix_iff_eq_take.mp h).symm

/-- The nodes have a lock in common, or paths of which one is the other or contains it. -/
def Conflict (left right : PortableNode) : Prop :=
  ∃ package ∈ left.workPackage, ∃ package' ∈ right.workPackage,
    (∃ lock, lock ∈ package.semanticLocks ∧ lock ∈ package'.semanticLocks) ∨
      ∃ path ∈ package.writePaths, ∃ path' ∈ package'.writePaths,
        segments path <+: segments path' ∨ segments path' <+: segments path

theorem nodesConflict_iff {left right : PortableNode} :
    nodesConflict left right = true ↔ Conflict left right := by
  rw [nodesConflict, Conflict]
  rcases left.workPackage with _ | package
  · simp
  rcases right.workPackage with _ | package'
  · simp
  simp only [Bool.or_eq_true, List.any_eq_true, List.contains_iff_mem, pathsOverlap_iff,
    Option.mem_def, Option.some.injEq, exists_eq_left']

theorem Conflict.symm {left right : PortableNode} (h : Conflict left right) :
    Conflict right left := by
  obtain ⟨package, hpackage, package', hpackage', ⟨lock, hlock, hlock'⟩ | hpaths⟩ := h
  · exact ⟨package', hpackage', package, hpackage, .inl ⟨lock, hlock', hlock⟩⟩
  · obtain ⟨path, hpath, path', hpath', hoverlap⟩ := hpaths
    exact ⟨package', hpackage', package, hpackage,
      .inr ⟨path', hpath', path, hpath, hoverlap.symm⟩⟩

end Conflicts

/-! ## What a batch keeps -/

section Batches

variable {plan : PlanFields} {maximumWorkers : ℤ}

/-- The number of nodes that use a resource. -/
def units (members : List PortableNode) (resourceId : String) : ℕ :=
  members.countP (resourceId ∈ ·.resourceIds)

theorem units_append (members : List PortableNode) (node : PortableNode) (resourceId : String) :
    units (members ++ [node]) resourceId =
      units members resourceId + if resourceId ∈ node.resourceIds then 1 else 0 := by
  rw [units, units, List.countP_append, List.countP_singleton]
  simp only [decide_eq_true_eq]

/-- What is kept of a batch while it fills. -/
structure SoundBatch (plan : PlanFields) (maximumWorkers : ℤ) (batch : Batch) : Prop where
  workers : 1 ≤ maximumWorkers → (batch.members.length : ℤ) ≤ maximumWorkers
  apart : batch.members.Pairwise fun left right ↦ ¬Conflict right left
  keys : (batch.usage.map Prod.fst).Nodup
  usage : ∀ resourceId, batch.usage.lookup resourceId =
    if units batch.members resourceId = 0 then none else some (units batch.members resourceId)
  capacity : ∀ resourceId, 0 < units batch.members resourceId →
    (units batch.members resourceId : ℤ) ≤ capacityOf plan resourceId

theorem lookup_addUsage {resourceIds : List String} (hnodup : resourceIds.Nodup)
    (usage : List (String × ℕ)) (resourceId : String) :
    (resourceIds.foldl (fun usage resourceId ↦
      setItem resourceId ((usage.lookup resourceId).getD 0 + 1) usage) usage).lookup resourceId =
      if resourceId ∈ resourceIds then some ((usage.lookup resourceId).getD 0 + 1)
      else usage.lookup resourceId := by
  induction resourceIds generalizing usage with
  | nil => rw [List.foldl_nil, if_neg List.not_mem_nil]
  | cons first resourceIds ih =>
    obtain ⟨hfirst, hnodup⟩ := List.nodup_cons.mp hnodup
    rw [List.foldl_cons, ih hnodup, lookup_setItem]
    by_cases hsame : resourceId = first
    · subst hsame
      rw [if_neg hfirst, if_pos rfl, if_pos List.mem_cons_self]
    · simp only [hsame, if_false, List.mem_cons, false_or]

theorem nodup_addUsage (resourceIds : List String) {usage : List (String × ℕ)}
    (h : (usage.map Prod.fst).Nodup) :
    ((resourceIds.foldl (fun usage resourceId ↦
      setItem resourceId ((usage.lookup resourceId).getD 0 + 1) usage) usage).map
        Prod.fst).Nodup := by
  induction resourceIds generalizing usage with
  | nil => exact h
  | cons first resourceIds ih => exact ih (nodup_setItem h)

theorem nodup_resourceIds (node : PortableNode) : node.resourceIds.Nodup := by
  have hvalid := node.valid
  simp only [NodeFields.problem?, Option.orElse_eq_orElse, Option.orElse_eq_or,
    Option.or_eq_none_iff] at hvalid
  obtain ⟨-, -, hresources, -, -⟩ := hvalid
  rw [NodeFields.problem?.strings?] at hresources
  by_contra hnot
  rw [if_pos hnot] at hresources
  split at hresources
  · exact nomatch hresources
  · exact nomatch hresources

theorem lookup_newUsage (resourceIds : List String) (resourceId : String) :
    (resourceIds.map fun id ↦ (id, 1)).lookup resourceId =
      if resourceId ∈ resourceIds then some 1 else none := by
  induction resourceIds with
  | nil => rfl
  | cons first resourceIds ih =>
    rw [List.map_cons, List.lookup_cons]
    by_cases hsame : resourceId = first
    · rw [beq_iff_eq.mpr hsame, if_pos (hsame ▸ List.mem_cons_self)]
    · simp only [beq_false_of_ne hsame, ih, List.mem_cons, hsame, false_or]

/-- A batch of one node is sound when there is one unit of each of its resources. -/
theorem soundBatch_newBatch {node : PortableNode}
    (havailable : ∀ resourceId ∈ node.resourceIds, 1 ≤ capacityOf plan resourceId) :
    SoundBatch plan maximumWorkers (newBatch node) := by
  have hunits : ∀ resourceId, units [node] resourceId =
      if resourceId ∈ node.resourceIds then 1 else 0 := by
    intro resourceId
    rw [← List.nil_append [node], units_append]
    exact Nat.zero_add _
  refine ⟨fun h ↦ h, List.pairwise_singleton _ _, ?_, fun resourceId ↦ ?_, fun resourceId h ↦ ?_⟩
  · rw [newBatch, List.map_map]
    exact (List.map_id _).symm ▸ nodup_resourceIds node
  · rw [newBatch, lookup_newUsage, hunits]
    by_cases hmem : resourceId ∈ node.resourceIds
    · rw [if_pos hmem, if_pos hmem]
      rfl
    · rw [if_neg hmem, if_neg hmem]
      rfl
  · rw [newBatch, hunits] at h ⊢
    by_cases hmem : resourceId ∈ node.resourceIds
    · rw [if_pos hmem]
      exact havailable resourceId hmem
    · rw [if_neg hmem] at h
      exact absurd h (lt_irrefl 0)

/-- A node that fits keeps a batch sound. -/
theorem SoundBatch.addNode {batch : Batch} (h : SoundBatch plan maximumWorkers batch)
    {node : PortableNode} (hfits : fits plan maximumWorkers node batch = true) :
    SoundBatch plan maximumWorkers (addNode node batch) := by
  simp only [fits, Bool.and_eq_true, decide_eq_true_eq, Bool.not_eq_true', List.any_eq_false,
    not_lt] at hfits
  obtain ⟨⟨hworkers, hapart⟩, hcapacity⟩ := hfits
  -- the count that the usage gives
  have hcount : ∀ resourceId, (batch.usage.lookup resourceId).getD 0 =
      units batch.members resourceId := by
    intro resourceId
    rw [h.usage]
    split
    · next hzero => rw [hzero]; rfl
    · rfl
  refine ⟨fun _ ↦ ?_, ?_, nodup_addUsage _ h.keys, fun resourceId ↦ ?_, fun resourceId hpos ↦ ?_⟩
  · rw [Portable.addNode, List.length_append, List.length_singleton]
    push_cast
    omega
  · refine List.pairwise_append.mpr ⟨h.apart, List.pairwise_singleton _ _, ?_⟩
    intro member hmember other hother
    obtain rfl := List.mem_singleton.mp hother
    exact fun hconflict ↦ hapart member hmember (nodesConflict_iff.mpr hconflict)
  · rw [Portable.addNode, lookup_addUsage (nodup_resourceIds node), units_append, hcount]
    by_cases hmem : resourceId ∈ node.resourceIds
    · rw [if_pos hmem, if_pos hmem, if_neg (Nat.succ_ne_zero _)]
    · rw [if_neg hmem, if_neg hmem, Nat.add_zero, h.usage]
  · rw [Portable.addNode, units_append] at hpos ⊢
    by_cases hmem : resourceId ∈ node.resourceIds
    · have hroom := hcapacity resourceId hmem
      rw [hcount] at hroom
      rw [if_pos hmem]
      push_cast
      exact hroom
    · rw [if_neg hmem, Nat.add_zero] at hpos ⊢
      exact h.capacity resourceId hpos

end Batches

/-! ## What the rounds keep -/

section Rounds

variable {plan : PlanFields} {maximumWorkers : ℤ} {levels : List (String × ℕ)}

/-- What is kept of the rounds of the levels below a bound. -/
structure Laid (plan : PlanFields) (maximumWorkers : ℤ) (levels : List (String × ℕ)) (bound : ℕ)
    (result : List DispatchRound) : Prop where
  indexed : result.map (·.roundIndex) = List.range result.length
  ordered : result.Pairwise fun round later ↦ round.dependencyLevel ≤ later.dependencyLevel
  sound : ∀ round ∈ result, round.dependencyLevel < bound ∧ ∃ batch : Batch,
    round = batch.round round.roundIndex round.dependencyLevel ∧
      SoundBatch plan maximumWorkers batch ∧ ∀ node ∈ batch.members, node ∈ plan.nodes ∧
        levels.lookup node.nodeId = some round.dependencyLevel

theorem Laid.mono {bound bound' : ℕ} {result : List DispatchRound}
    (h : Laid plan maximumWorkers levels bound result) (hle : bound ≤ bound') :
    Laid plan maximumWorkers levels bound' result :=
  ⟨h.indexed, h.ordered, fun round hround ↦
    ⟨(h.sound round hround).1.trans_le hle, (h.sound round hround).2⟩⟩

theorem Laid.append {dependencyLevel : ℕ} {result : List DispatchRound} {batch : Batch}
    (h : Laid plan maximumWorkers levels (dependencyLevel + 1) result)
    (hbatch : SoundBatch plan maximumWorkers batch)
    (hmembers : ∀ node ∈ batch.members, node ∈ plan.nodes ∧
      levels.lookup node.nodeId = some dependencyLevel) :
    Laid plan maximumWorkers levels (dependencyLevel + 1)
      (result ++ [batch.round result.length dependencyLevel]) := by
  refine ⟨?_, ?_, fun round hround ↦ ?_⟩
  · rw [List.map_append, h.indexed, List.length_append, List.length_singleton, List.range_succ]
    rfl
  · refine List.pairwise_append.mpr ⟨h.ordered, List.pairwise_singleton _ _, ?_⟩
    intro round hround later hlater
    obtain rfl := List.mem_singleton.mp hlater
    exact Nat.le_of_lt_succ (h.sound round hround).1
  · rcases List.mem_append.mp hround with hround | hround
    · exact h.sound round hround
    · obtain rfl := List.mem_singleton.mp hround
      exact ⟨Nat.lt_succ_self _, batch, rfl, hbatch, hmembers⟩

theorem Laid.appendAll {dependencyLevel : ℕ} {batches : List Batch} {result : List DispatchRound}
    (h : Laid plan maximumWorkers levels (dependencyLevel + 1) result)
    (hbatches : ∀ batch ∈ batches, SoundBatch plan maximumWorkers batch ∧
      ∀ node ∈ batch.members, node ∈ plan.nodes ∧
        levels.lookup node.nodeId = some dependencyLevel) :
    Laid plan maximumWorkers levels (dependencyLevel + 1) (batches.foldl
      (fun result batch ↦ result ++ [batch.round result.length dependencyLevel]) result) := by
  induction batches generalizing result with
  | nil => exact h
  | cons batch batches ih =>
    obtain ⟨hbatch, hrest⟩ := List.forall_mem_cons.mp hbatches
    exact ih (h.append hbatch.1 hbatch.2) hrest

theorem nodeIds_appendAll (dependencyLevel : ℕ) (batches : List Batch)
    (result : List DispatchRound) :
    (batches.foldl (fun result batch ↦ result ++ [batch.round result.length dependencyLevel])
      result).flatMap (·.nodeIds) =
      result.flatMap (·.nodeIds) ++ (batches.flatMap (·.members)).map (·.nodeId) := by
  induction batches generalizing result with
  | nil => exact (List.append_nil _).symm
  | cons batch batches ih =>
    rw [List.foldl_cons, ih, List.flatMap_append, List.flatMap_singleton, List.flatMap_cons,
      List.map_append, List.append_assoc]
    rfl

/-- The loop over the members of a level does not raise when the resources are there. -/
theorem foldlM_placeNode {members : List PortableNode} {batches batches' : List Batch}
    (h : members.foldlM (placeNode plan maximumWorkers) batches = .ok batches') :
    (∀ node ∈ members, ∀ resourceId ∈ node.resourceIds, 1 ≤ capacityOf plan resourceId) ∧
      batches' = members.foldl (fun batches node ↦
        place (fits plan maximumWorkers) addNode newBatch node batches) batches := by
  induction members generalizing batches with
  | nil => exact ⟨nofun, Except.ok.inj h.symm⟩
  | cons node members ih =>
    simp only [List.foldlM_cons, bind_eq_ok, placeNode, guard_eq_ok, pure_eq_ok] at h
    obtain ⟨next, ⟨havailable, rfl⟩, hrest⟩ := h
    obtain ⟨hall, hbatches⟩ := ih hrest
    refine ⟨List.forall_mem_cons.mpr ⟨fun resourceId hmem ↦ ?_, hall⟩, hbatches⟩
    by_contra hnot
    exact havailable (List.any_eq_true.mpr ⟨resourceId, hmem, decide_eq_true (not_le.mp hnot)⟩)

/-- Looking up identifiers that nodes have. -/
theorem map_nodeId_filterMap {nodes : List PortableNode} {ids : List String}
    (h : ∀ id ∈ ids, id ∈ nodes.map (·.nodeId)) :
    (ids.filterMap (node? nodes)).map (·.nodeId) = ids := by
  induction ids with
  | nil => rfl
  | cons id ids ih =>
    obtain ⟨hid, hids⟩ := List.forall_mem_cons.mp h
    rcases hnode : node? nodes id with _ | node
    · obtain ⟨node, hmem, rfl⟩ := List.mem_map.mp hid
      exact absurd (List.find?_eq_none.mp hnode node hmem) (by simp)
    · rw [List.filterMap_cons_some hnode, List.map_cons, ih hids, (mem_of_node? hnode).2]

/-- The rounds of a level are sound, and hold the nodes of the level. -/
theorem laid_compileLevel {dependencyLevel : ℕ} {result result' : List DispatchRound}
    (hnodup : (levels.map Prod.fst).Nodup)
    (hlevels : ∀ p ∈ levels, p.1 ∈ plan.nodes.map (·.nodeId))
    (h : Laid plan maximumWorkers levels dependencyLevel result)
    (hcompile : compileLevel plan maximumWorkers levels result dependencyLevel = .ok result') :
    Laid plan maximumWorkers levels (dependencyLevel + 1) result' ∧
      (result'.flatMap (·.nodeIds)).Perm (result.flatMap (·.nodeIds) ++
        (levels.filter (·.2 = dependencyLevel)).map Prod.fst) := by
  simp only [compileLevel, bind_eq_ok, pure_eq_ok] at hcompile
  obtain ⟨batches, hbatches, rfl⟩ := hcompile
  obtain ⟨havailable, hplaced⟩ := foldlM_placeNode hbatches
  have hmembers : ∀ node ∈ membersOf plan levels dependencyLevel, node ∈ plan.nodes ∧
      levels.lookup node.nodeId = some dependencyLevel := by
    intro node hnode
    obtain ⟨id, hid, hnode⟩ := List.mem_filterMap.mp hnode
    obtain ⟨p, hp, rfl⟩ := List.mem_map.mp ((List.mem_insertionSort _).mp hid)
    obtain ⟨hp, hlevel⟩ := List.mem_filter.mp hp
    obtain ⟨hmem, hkey⟩ := mem_of_node? hnode
    refine ⟨hmem, ?_⟩
    rw [hkey, ← of_decide_eq_true hlevel]
    exact lookup_of_mem hnodup hp
  have hids : (membersOf plan levels dependencyLevel).map (·.nodeId) =
      ((levels.filter (·.2 = dependencyLevel)).map Prod.fst).insertionSort (· ≤ ·) := by
    refine map_nodeId_filterMap fun id hid ↦ ?_
    obtain ⟨p, hp, rfl⟩ := List.mem_map.mp ((List.mem_insertionSort _).mp hid)
    exact hlevels p (List.mem_of_mem_filter hp)
  have hperm : (batches.flatMap (·.members)).Perm (membersOf plan levels dependencyLevel) := by
    have hnew : ∀ node, (newBatch node).members = [id node] := fun _ ↦ rfl
    have hadd : ∀ node batch, (addNode node batch).members = batch.members ++ [id node] :=
      fun _ _ ↦ rfl
    have hall : ((placeAll (fits plan maximumWorkers) addNode newBatch
        (membersOf plan levels dependencyLevel)).flatMap (·.members)).Perm _ :=
      flatMap_placeAll hnew hadd (membersOf plan levels dependencyLevel)
    rw [List.map_id] at hall
    exact hplaced ▸ hall
  have hsound : ∀ batch ∈ batches, SoundBatch plan maximumWorkers batch := by
    rw [hplaced]
    exact forall_mem_placeAll (fun node hnode ↦ soundBatch_newBatch (havailable node hnode))
      fun node _ batch hbatch hfits ↦ hbatch.addNode hfits
  refine ⟨(h.mono (Nat.le_succ _)).appendAll fun batch hbatch ↦ ⟨hsound batch hbatch,
    fun node hnode ↦ hmembers node (hperm.mem_iff.mp (List.mem_flatMap.mpr
      ⟨batch, hbatch, hnode⟩))⟩, ?_⟩
  rw [nodeIds_appendAll]
  refine List.Perm.append_left _ ((hperm.map _).trans ?_)
  rw [hids]
  exact List.perm_insertionSort _ _

theorem laid_compileLevels {bound : ℕ} {result : List DispatchRound}
    (hnodup : (levels.map Prod.fst).Nodup)
    (hlevels : ∀ p ∈ levels, p.1 ∈ plan.nodes.map (·.nodeId))
    (h : (List.range bound).foldlM (compileLevel plan maximumWorkers levels) [] = .ok result) :
    Laid plan maximumWorkers levels bound result ∧
      (result.flatMap (·.nodeIds)).Perm ((levels.filter (·.2 < bound)).map Prod.fst) := by
  induction bound generalizing result with
  | zero =>
    obtain rfl := Except.ok.inj h
    exact ⟨⟨rfl, .nil, nofun⟩, by simp⟩
  | succ bound ih =>
    rw [List.range_succ, List.foldlM_append, bind_eq_ok] at h
    obtain ⟨before, hbefore, hlast⟩ := h
    rw [List.foldlM_cons, bind_eq_ok] at hlast
    obtain ⟨after, hlast, hend⟩ := hlast
    obtain rfl := Except.ok.inj hend
    obtain ⟨hlaid, hperm⟩ := ih hbefore
    obtain ⟨hlaid', hperm'⟩ := laid_compileLevel hnodup hlevels hlaid hlast
    refine ⟨hlaid', hperm'.trans ((hperm.append_right _).trans ?_)⟩
    rw [← List.map_append]
    refine List.Perm.map _ ?_
    -- the levels up to the bound are those below it and the bound itself
    have hsplit := List.filter_append_perm (fun p : String × ℕ ↦ decide (p.2 < bound))
      (levels.filter (·.2 < bound + 1))
    rw [List.filter_filter, List.filter_filter] at hsplit
    refine (List.Perm.of_eq ?_).trans hsplit
    congr 1
    · exact List.filter_congr fun p _ ↦ by
        rw [← Bool.decide_and, decide_eq_decide]
        omega
    · exact List.filter_congr fun p _ ↦ by
        rw [← decide_not, ← Bool.decide_and, decide_eq_decide]
        omega

end Rounds

/-! ## The rounds of a plan -/

/-- The number of nodes of a round that use a resource. -/
def unitsOf (plan : PlanFields) (round : DispatchRound) (resourceId : String) : ℕ :=
  plan.nodes.countP fun node ↦ node.nodeId ∈ round.nodeIds ∧ resourceId ∈ node.resourceIds

/-- What the rounds of a plan promise. -/
structure SoundRounds (plan : PlanFields) (maximumWorkers : ℤ) (rounds : List DispatchRound) :
    Prop where
  indexed : rounds.map (·.roundIndex) = List.range rounds.length
  once : ∀ node ∈ plan.nodes, ∃! round, round ∈ rounds ∧ node.nodeId ∈ round.nodeIds
  nodeIds : ∀ round ∈ rounds, round.nodeIds.Nodup ∧ round.nodeIds ⊆ plan.nodes.map (·.nodeId)
  earlier : ∀ node ∈ plan.nodes, ∀ dependency ∈ node.dependencies, ∀ round ∈ rounds,
    node.nodeId ∈ round.nodeIds → ∃ before ∈ rounds, dependency ∈ before.nodeIds ∧
      before.roundIndex < round.roundIndex
  -- the limit of a caller is positive (`one_le_workerLimit`)
  workers : 1 ≤ maximumWorkers → ∀ round ∈ rounds, (round.nodeIds.length : ℤ) ≤ maximumWorkers
  usage : ∀ round ∈ rounds, ∀ resourceId n, (resourceId, n) ∈ round.resourceUsage ↔
    n = unitsOf plan round resourceId ∧ 0 < n
  capacity : ∀ round ∈ rounds, ∀ resource ∈ plan.resources,
    (unitsOf plan round resource.resourceId : ℤ) ≤ resource.quantity
  apart : ∀ round ∈ rounds, ∀ left ∈ plan.nodes, ∀ right ∈ plan.nodes, left ≠ right →
    left.nodeId ∈ round.nodeIds → right.nodeId ∈ round.nodeIds → ¬Conflict left right

section Result

variable {plan : PlanFields} {maximumWorkers : ℤ} {levels : List (String × ℕ)}

theorem Laid.index_lt {bound : ℕ} {rounds : List DispatchRound}
    (h : Laid plan maximumWorkers levels bound rounds) {before round : DispatchRound}
    (hbefore : before ∈ rounds) (hround : round ∈ rounds)
    (hlt : before.dependencyLevel < round.dependencyLevel) :
    before.roundIndex < round.roundIndex := by
  obtain ⟨i, hi, rfl⟩ := List.mem_iff_getElem.mp hbefore
  obtain ⟨j, hj, rfl⟩ := List.mem_iff_getElem.mp hround
  have hindex : ∀ k (hk : k < rounds.length), rounds[k].roundIndex = k := by
    intro k hk
    have hmap : (rounds.map (·.roundIndex)).get ⟨k, by rwa [List.length_map]⟩ = k := by
      simp only [h.indexed, List.get_eq_getElem, List.getElem_range]
    rwa [List.get_eq_getElem, List.getElem_map] at hmap
  rw [hindex i hi, hindex j hj]
  by_contra hnot
  rcases (not_lt.mp hnot).lt_or_eq with hji | rfl
  · exact absurd (List.pairwise_iff_getElem.mp h.ordered j i hj hi hji) (not_le.mpr hlt)
  · exact lt_irrefl _ hlt

/-- What a round counts, counted over the nodes of the plan. -/
theorem unitsOf_round (hvalid : ValidPlan plan) {batch : Batch}
    (hmembers : ∀ node ∈ batch.members, node ∈ plan.nodes)
    (hnodup : (batch.members.map (·.nodeId)).Nodup) (roundIndex dependencyLevel : ℕ)
    (resourceId : String) : unitsOf plan (batch.round roundIndex dependencyLevel) resourceId =
      units batch.members resourceId := by
  have hperm : (plan.nodes.filter (·.nodeId ∈ batch.members.map (·.nodeId))).Perm batch.members := by
    refine (List.perm_ext_iff_of_nodup (hvalid.nodup.of_map.filter _) hnodup.of_map).mpr ?_
    intro node
    rw [List.mem_filter, decide_eq_true_eq, List.mem_map]
    constructor
    · rintro ⟨hnode, member, hmember, hkey⟩
      exact List.inj_on_of_nodup_map hvalid.nodup (hmembers member hmember) hnode hkey ▸ hmember
    · exact fun hnode ↦ ⟨hmembers node hnode, node, hnode, rfl⟩
  rw [units, ← hperm.countP_eq, List.countP_filter, unitsOf]
  refine List.countP_congr fun node _ ↦ ?_
  simp only [Bool.and_eq_true, decide_eq_true_eq]
  exact And.comm

/-- The rounds hold every node once. -/
theorem rounds_of_compile (hvalid : ValidPlan plan) {rounds : List DispatchRound}
    (h : compileRounds plan maximumWorkers = .ok rounds) :
    ∃ bound, Laid plan maximumWorkers (dependencyLevels plan.nodes) bound rounds ∧
      (rounds.flatMap (·.nodeIds)).Perm (plan.nodes.map (·.nodeId)) := by
  obtain ⟨hlevelled, hmem⟩ := levelled_dependencyLevels hvalid
  have hkeys : ∀ p ∈ dependencyLevels plan.nodes, p.1 ∈ plan.nodes.map (·.nodeId) := by
    intro p hp
    rw [← hmem, lookup_of_mem hlevelled.nodup hp]
    rfl
  obtain ⟨hlaid, hperm⟩ := laid_compileLevels hlevelled.nodup hkeys h
  refine ⟨_, hlaid, hperm.trans ?_⟩
  -- no level is left out, and the nodes are those that have one
  have hall : ∀ p ∈ dependencyLevels plan.nodes,
      p.2 < ((dependencyLevels plan.nodes).map fun p ↦ p.2 + 1).foldr max 0 := fun p hp ↦
    Nat.lt_of_succ_le (List.le_max_of_le' 0 (List.mem_map.mpr ⟨p, hp, rfl⟩) le_rfl)
  rw [List.filter_eq_self.mpr fun p hp ↦ decide_eq_true (hall p hp)]
  refine (List.perm_ext_iff_of_nodup hlevelled.nodup hvalid.nodup).mpr fun id ↦ ?_
  rw [← hmem id, Option.isSome_iff_exists, List.mem_map]
  constructor
  · rintro ⟨⟨key, n⟩, hp, rfl⟩
    exact ⟨n, lookup_of_mem hlevelled.nodup hp⟩
  · rintro ⟨n, hn⟩
    exact ⟨(id, n), mem_of_lookup hn, rfl⟩

theorem sound_of_compile (hvalid : ValidPlan plan) {rounds : List DispatchRound}
    (h : compileRounds plan maximumWorkers = .ok rounds) :
    SoundRounds plan maximumWorkers rounds := by
  obtain ⟨bound, hlaid, hperm⟩ := rounds_of_compile hvalid h
  have hflat := hperm.nodup_iff.mpr hvalid.nodup
  obtain ⟨hnodup, hdisjoint⟩ := List.nodup_flatMap.mp hflat
  have hround : ∀ id ∈ plan.nodes.map (·.nodeId), ∃ round ∈ rounds, id ∈ round.nodeIds :=
    fun id hid ↦ List.mem_flatMap.mp (hperm.mem_iff.mpr hid)
  -- a node of a round is one of its batch, and at its level
  have hlevel : ∀ round ∈ rounds, ∀ id ∈ round.nodeIds,
      (dependencyLevels plan.nodes).lookup id = some round.dependencyLevel := by
    intro round hmem id hid
    obtain ⟨-, batch, hbatch, -, hmembers⟩ := hlaid.sound round hmem
    rw [hbatch, Batch.round] at hid
    obtain ⟨node, hnode, rfl⟩ := List.mem_map.mp hid
    exact (hmembers node hnode).2
  have hunits : ∀ round ∈ rounds, ∃ batch : Batch, SoundBatch plan maximumWorkers batch ∧
      round = batch.round round.roundIndex round.dependencyLevel ∧
      (∀ node ∈ batch.members, node ∈ plan.nodes) ∧
      ∀ resourceId, unitsOf plan round resourceId = units batch.members resourceId := by
    intro round hmem
    obtain ⟨-, batch, hbatch, hsound, hmembers⟩ := hlaid.sound round hmem
    have hids : (batch.members.map (·.nodeId)).Nodup := by
      have hround := hnodup round hmem
      rwa [hbatch] at hround
    refine ⟨batch, hsound, hbatch, fun node hnode ↦ (hmembers node hnode).1, fun resourceId ↦ ?_⟩
    rw [hbatch]
    exact unitsOf_round hvalid (fun node hnode ↦ (hmembers node hnode).1) hids _ _ resourceId
  refine ⟨hlaid.indexed, fun node hnode ↦ ?_, fun round hmem ↦ ⟨hnodup round hmem, fun id hid ↦ ?_⟩,
    ?_, ?_, ?_, ?_, ?_⟩
  · obtain ⟨round, hmem, hid⟩ := hround node.nodeId (List.mem_map_of_mem hnode)
    refine ⟨round, ⟨hmem, hid⟩, fun other ⟨hother, hid'⟩ ↦ ?_⟩
    by_contra hne
    have : Std.Symm (Function.onFun List.Disjoint fun round : DispatchRound ↦ round.nodeIds) :=
      ⟨fun _ _ hdisjoint ↦ hdisjoint.symm⟩
    exact hdisjoint.forall hother hmem hne hid' hid
  · exact hperm.mem_iff.mp (List.mem_flatMap.mpr ⟨round, hmem, hid⟩)
  · intro node hnode dependency hdependency round hmem hid
    obtain ⟨hlevelled, -⟩ := levelled_dependencyLevels hvalid
    rw [← dependenciesOf_eq hvalid hnode] at hdependency
    obtain ⟨m, hm, hlt⟩ := hlevelled.above _ _ (hlevel round hmem _ hid) _ hdependency
    obtain ⟨before, hbefore, hid'⟩ := hround dependency
      (dependenciesOf_subset hvalid _ hdependency)
    obtain rfl := Option.some.inj (hm.symm.trans (hlevel before hbefore _ hid'))
    exact ⟨before, hbefore, hid', hlaid.index_lt hbefore hmem hlt⟩
  · intro hworkers round hmem
    obtain ⟨batch, hsound, hbatch, -⟩ := hunits round hmem
    rw [hbatch, Batch.round, List.length_map]
    exact hsound.workers hworkers
  · intro round hmem resourceId n
    obtain ⟨batch, hsound, hbatch, -, hcount⟩ := hunits round hmem
    have husage : (resourceId, n) ∈ round.resourceUsage ↔ batch.usage.lookup resourceId = some n := by
      rw [hbatch, Batch.round, Rows.orderBy_perm.mem_iff]
      exact ⟨lookup_of_mem hsound.keys, mem_of_lookup⟩
    rw [husage, hsound.usage, hcount]
    split
    · next hzero => exact ⟨nofun, fun h ↦ by omega⟩
    · next hpos =>
      rw [Option.some.injEq]
      exact ⟨fun h ↦ ⟨h.symm, by omega⟩, fun h ↦ h.1.symm⟩
  · intro round hmem resource hresource
    obtain ⟨batch, hsound, -, -, hcount⟩ := hunits round hmem
    have hcapacity : capacityOf plan resource.resourceId = resource.quantity := by
      have hfind : plan.resources.find? (·.resourceId == resource.resourceId) = some resource :=
        Rows.Unique.find?_eq hvalid.resourceIds hresource
      rw [capacityOf, hfind]
      rfl
    rw [hcount]
    rcases Nat.eq_zero_or_pos (units batch.members resource.resourceId) with hzero | hpos
    · rw [hzero]
      exact resource.nonnegative
    · exact hcapacity ▸ hsound.capacity _ hpos
  · intro round hmem left hleft right hright hne hleftId hrightId hconflict
    obtain ⟨batch, hsound, hbatch, hmembers, -⟩ := hunits round hmem
    rw [hbatch, Batch.round] at hleftId hrightId
    have hmember : ∀ node ∈ plan.nodes, node.nodeId ∈ batch.members.map (·.nodeId) →
        node ∈ batch.members := by
      intro node hnode hid
      obtain ⟨member, hmember, hkey⟩ := List.mem_map.mp hid
      exact List.inj_on_of_nodup_map hvalid.nodup (hmembers member hmember) hnode hkey ▸ hmember
    have : Std.Symm fun left right : PortableNode ↦ ¬Conflict right left :=
      ⟨fun _ _ hnot hconflict ↦ hnot hconflict.symm⟩
    exact hsound.apart.forall (hmember left hleft hleftId) (hmember right hright hrightId) hne
      hconflict.symm

/-- **The order of the nodes in a plan does not matter.** -/
theorem compileRounds_of_perm {plan' : PlanFields} (hvalid : ValidPlan plan)
    (hresources : plan'.resources = plan.resources) (hperm : plan'.nodes.Perm plan.nodes) :
    compileRounds plan' maximumWorkers = compileRounds plan maximumWorkers := by
  have hnode : node? plan'.nodes = node? plan.nodes := by
    funext id
    rcases hfind : node? plan.nodes id with _ | node
    · have hnone := List.find?_eq_none.mp hfind
      exact List.find?_eq_none.mpr fun node hnode ↦ hnone node (hperm.mem_iff.mp hnode)
    · obtain ⟨hmem, rfl⟩ := mem_of_node? hfind
      have hnodup : Rows.Unique (fun node : PortableNode ↦ node.nodeId) plan'.nodes :=
        (hperm.map _).nodup_iff.mpr hvalid.nodup
      exact hnodup.find?_eq (hperm.mem_iff.mpr hmem)
  have hids : (plan'.nodes.map (·.nodeId)).insertionSort (· ≤ ·) =
      (plan.nodes.map (·.nodeId)).insertionSort (· ≤ ·) :=
    ((List.perm_insertionSort _ _).trans ((hperm.map _).trans
      (List.perm_insertionSort _ _).symm)).eq_of_pairwise (fun _ _ _ _ ↦ le_antisymm)
      (List.pairwise_insertionSort _ _) (List.pairwise_insertionSort _ _)
  have hdeps : dependenciesOf plan'.nodes = dependenciesOf plan.nodes := by
    funext id
    rw [dependenciesOf, hnode]
    rfl
  have hlevels : dependencyLevels plan'.nodes = dependencyLevels plan.nodes := by
    rw [dependencyLevels, dependencyLevels, hids, hdeps, hperm.length_eq]
  have hcapacity : capacityOf plan' = capacityOf plan := by
    funext resourceId
    rw [capacityOf, capacityOf, hresources]
  have hfits : fits plan' maximumWorkers = fits plan maximumWorkers := by
    funext node batch
    rw [fits, fits, hcapacity]
  have hplace : placeNode plan' maximumWorkers = placeNode plan maximumWorkers := by
    funext batches node
    rw [placeNode, placeNode, hcapacity, hfits]
  have hlevel : compileLevel plan' maximumWorkers = compileLevel plan maximumWorkers := by
    funext levels result dependencyLevel
    simp only [compileLevel, membersOf, hnode, hplace]
  rw [compileRounds, compileRounds, hlevels, hlevel]

/-- **The rounds of a plan keep what the plan and the workers allow, whatever its order.** -/
theorem rounds_sound (plan : PortablePlanBundle) (maximumWorkers : ℤ)
    (rounds : List DispatchRound)
    (h : compileRounds plan.toPlanFields maximumWorkers = .ok rounds) :
    SoundRounds plan.toPlanFields maximumWorkers rounds ∧
      ∀ plan' : PortablePlanBundle, plan'.resources = plan.resources →
        plan'.nodes.Perm plan.nodes →
        compileRounds plan'.toPlanFields maximumWorkers = .ok rounds := by
  have hvalid := validPlan_of_validate plan.valid
  refine ⟨sound_of_compile hvalid h, fun plan' hresources hperm ↦ ?_⟩
  exact (compileRounds_of_perm hvalid hresources hperm).trans h

end Result

/-- A node of one resource. -/
def sampleNode (nodeId : String) (dependencies : List String)
    (valid : NodeFields.problem? ⟨nodeId, dependencies, ["gpu"], "budget", none⟩ = none) :
    PortableNode := ⟨⟨nodeId, dependencies, ["gpu"], "budget", none⟩, valid⟩

/-- Two nodes, of which the second depends on the first. -/
def samplePlan : PortablePlanBundle where
  schemaVersion := 1
  resources := [⟨"gpu", 1, by decide +kernel, by decide⟩]
  budgets := [⟨"budget", 2, by decide +kernel, by decide⟩]
  nodes := [sampleNode "second" ["first"] (by decide +kernel),
    sampleNode "first" [] (by decide +kernel)]
  valid := by decide +kernel

theorem samplePlan_rounds : SoundRounds samplePlan.toPlanFields 2
    [⟨0, 0, ["first"], [("gpu", 1)]⟩, ⟨1, 1, ["second"], [("gpu", 1)]⟩] :=
  (rounds_sound samplePlan 2 _ (by decide)).1

theorem samplePlan_acyclic : Acyclic (dependenciesOf samplePlan.nodes) :=
  (validateAcyclic_iff (dependenciesOf_subset (validPlan_of_validate samplePlan.valid))).mp ⟨_, rfl⟩

end HiveMind.Portable
